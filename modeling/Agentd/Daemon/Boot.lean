import Agentd.Foundations.LockFile
import Agentd.Handlers.Step
import Agentd.Supervisor.Model
import Mathlib.Data.Finset.Basic

/-!
# Starting after a crash

`Daemon::run` from its first system call to its last, statement by statement, so that it can be
killed at any of them. What it leaves behind is dealt with in three ways when the next daemon
starts: the lock file is opened again and the kernel has released its lock; the socket of
a plugin is removed before it is bound; the control socket is only bound. So a daemon that
is killed while it listens keeps every later one from starting.

`Agentd.Boot.recovers_iff` says that this and a row that cannot be read are all that does.
-/

namespace Agentd

/-- `tombstone_gc`, where `cutoff` is `datetime('now', '-30 days')`. A text that is less
is less code point by code point, and `NULL` never is. -/
def Db.tombstoneGc (db : Db) (cutoff : String) : Db :=
  let sessions := db.sessions.filter fun r =>
    !(r.status = "finished" && r.finishedAt.any fun at_ => at_ < cutoff)
  { db with
    sessions
    -- orphans go first, and those of the deleted sessions by `ON DELETE CASCADE`
    sessionEvents := db.sessionEvents.filter fun e => e.sessionId ∈ sessions.rows.map (·.id) }

namespace Boot

open Supervisor (Op)

/-- What a running daemon has and what it leaves on the disk. -/
structure Host where
  db : Db
  /-- `daemon.lock`. -/
  lock : LockFile Unit
  /-- The other files of the runtime directory. -/
  files : Finset String
  supervisor : Supervisor
  /-- Whether the control socket of the process is bound. -/
  listening : Bool

/-- `DaemonError`, as far as `run` returns it. -/
inductive DaemonError
  | lockHeld
  | respawn
  | control

/-- The statements of `Daemon::run`. -/
inductive Statement
  | openLock
  | flock
  | createRuntimeDir
  | migrate
  | tombstoneGc
  | supervisor (op : Op)
  | removePluginSocket (name : String)
  | bindControl
  | idle
  | shutdownSupervisor
  | removeControl
  | removeLock
  | removePid
  | unlock

/-- What a statement of the supervisor does; `bind_and_serve` makes a socket. -/
def Host.serve (op : Op) (write : Supervisor → Supervisor) (h : Host) : Host :=
  { h with
    supervisor := write h.supervisor
    files := match op with
      | .bindAndServe name paths =>
        if name ∈ h.supervisor.pluginUdsPaths then h.files
        else insert (paths.pluginSocketPath name) h.files
      | _ => h.files }

/-- The removal in `bind_and_serve` that comes before the bind. -/
def Host.removePluginSocket (h : Host) (name : String) (paths : Paths) : Host :=
  if name ∈ h.supervisor.pluginUdsPaths then h
  else { h with files := h.files.erase (paths.pluginSocketPath name) }

/-- A call to the supervisor. The path of a plugin socket is free when it is bound, as it has
just been removed. -/
def onSupervisor {ρ : Type} : Program Op Supervisor ρ → Program Statement Host ρ
  | .done r => .done r
  | .step (.bindAndServe name paths) write next =>
    .step (.removePluginSocket name) (·.removePluginSocket name paths) fun _ =>
      .step (.supervisor (.bindAndServe name paths)) (Host.serve (.bindAndServe name paths) write)
        fun h => onSupervisor (next h.supervisor)
  | .step op write next =>
    .step (.supervisor op) (Host.serve op write) fun h => onSupervisor (next h.supervisor)

/-- What a daemon is started with: the database and the manifest it finds, in a world in
which spawns succeed and free socket paths can be bound. -/
structure Circumstances where
  db : Db
  manifest : List PluginEntry
  /-- `datetime('now', '-30 days')`. -/
  cutoff : String
  /-- The order of the names in the hash set of `restart_respawn`. -/
  shuffle : List String → List String
  world : World
  spawns : ∀ n, (world.spawn n).isOk
  binds : ∀ n, world.bind n

/-- `FlockGuard::drop`. -/
def dropGuard {ρ : Type} (inode : ℕ) (rest : Program Statement Host ρ) :
    Program Statement Host ρ :=
  .step .unlock (fun h => { h with lock := h.lock.unlock inode }) fun _ =>
    .step .removeLock (fun h => { h with lock := h.lock.unlink }) fun _ => rest

/-- Step 5 of the boot sequence, `restart_respawn`. -/
def bootRespawn (c : Circumstances) (paths : Paths) (db : Db) : Program Statement Host (Option ℕ) :=
  onSupervisor (Supervisor.statement c.world (.setPaths paths) fun _ =>
    Supervisor.restartRespawn c.world db c.shuffle)

/-- Steps 6 and 7, the control socket and `autostart`, with the inode of the guard. -/
def bootListen (c : Circumstances) (paths : Paths) (inode : ℕ) :
    Program Statement Host (Except DaemonError ℕ) :=
  -- nothing removes an old control socket
  .step .bindControl (fun h =>
    if paths.controlSocketPath ∈ h.files then h
    else { h with files := insert paths.controlSocketPath h.files, listening := true }) fun h =>
  if paths.controlSocketPath ∈ h.files then dropGuard inode (.done (.error .control))
  else (onSupervisor (Supervisor.autostart c.world paths)).bind fun _ => .done (.ok inode)

/-- The boot sequence from step 2 on. -/
def bootGuarded (c : Circumstances) (paths : Paths) (inode : ℕ) :
    Program Statement Host (Except DaemonError ℕ) :=
  .step .createRuntimeDir id fun _ =>
  .step .migrate id fun _ =>
  .step .tombstoneGc (fun h => { h with db := h.db.tombstoneGc c.cutoff }) fun h =>
  (bootRespawn c paths (h.db.tombstoneGc c.cutoff)).bind fun
  | none => dropGuard inode (.done (.error .respawn))
  | some _ => bootListen c paths inode

/-- `Daemon::run` up to its idle loop: the inode of the guard, or the error. -/
def boot (c : Circumstances) (paths : Paths) : Program Statement Host (Except DaemonError ℕ) :=
  .step .openLock (fun h => { h with lock := h.lock.openOrCreate.2 }) fun opened =>
  let inode := opened.lock.openOrCreate.1
  .step .flock (fun h => { h with lock := (h.lock.tryLock () inode).getD h.lock }) fun h =>
  match h.lock.tryLock () inode with
  | none => .done (.error .lockHeld)
  | some _ => bootGuarded c paths inode

/-- The end of `Daemon::run`, once the flag of its loop is set. -/
def teardown (paths : Paths) (inode : ℕ) : Program Statement Host (Except DaemonError ℕ) :=
  .step .idle id fun _ =>
  .step .shutdownSupervisor id fun _ =>
  .step .removeControl (fun h =>
    { h with files := h.files.erase paths.controlSocketPath, listening := false }) fun _ =>
  .step .removeLock (fun h => { h with lock := h.lock.unlink }) fun _ =>
  .step .removePid (fun h => { h with files := h.files.erase paths.daemonPidPath }) fun _ =>
  dropGuard inode (.done (.ok inode))

/-- `Daemon::run`. -/
def daemonRun (c : Circumstances) (paths : Paths) : Program Statement Host (Except DaemonError ℕ) :=
  (boot c paths).bind fun
  | .error e => .done (.error e)
  | .ok inode => teardown paths inode

/-- A new process, with nothing in its memory yet. -/
def Host.start (h : Host) (c : Circumstances) : Host :=
  { h with db := c.db, supervisor := { manifest := c.manifest }, listening := false }

/-- The end of a process: the kernel releases its locks. -/
def Host.exit (h : Host) : Host :=
  { h with lock := { h.lock with holder := fun _ => none } }

/-- A daemon that is killed. -/
structure Crash where
  circumstances : Circumstances
  /-- The statements it executed before. -/
  after : ℕ

/-- The daemon at the moment it is killed. -/
def Host.atCrash (h : Host) (paths : Paths) (crash : Crash) : Host :=
  (daemonRun crash.circumstances paths).killed crash.after (h.start crash.circumstances)

/-- What a daemon that is killed leaves behind. -/
def Host.crashed (paths : Paths) (h : Host) (crash : Crash) : Host :=
  (h.atCrash paths crash).exit

/-- A directory nothing has been done in. -/
def Host.pristine (db : Db) : Host where
  db := db
  lock := .unheld none
  files := ∅
  supervisor := { manifest := [] }
  listening := false

/-- **A daemon started now reaches its idle loop**, with the control socket and the sockets of
the autostart plugins bound. -/
def Recovers (paths : Paths) (h : Host) (c : Circumstances) : Prop :=
  let result := (boot c paths).run (h.start c)
  (∃ inode, result.1 = .ok inode) ∧
    result.2.listening ∧ paths.controlSocketPath ∈ result.2.files ∧
    ∀ entry ∈ c.manifest, entry.autostart → entry.name ∈ result.2.supervisor.pluginUdsPaths ∧
      paths.pluginSocketPath entry.name ∈ result.2.files

end Boot

end Agentd
