import Agentd.Foundations.Program
import Agentd.Handlers.Read
import Mathlib.Data.List.AList

/-!
# The plugin supervisor

`PluginSupervisor` starts plugins on two ways, `autostart` and `ensure_plugin`, of which the
second is what `restart_respawn` goes through at boot. Both are programs here, one statement
for every stretch in which nothing else can get in between: the supervisor keeps its
state in several maps, each behind a lock of its own.

A `HashMap` is an `AList`. The world is asked for three things – the result of a call to
the spawner, of an attempt to bind a socket, and the time – and answers each by how
often it was asked (`Agentd.World`). The spawner of a supervisor is never missing, so the
`Option` around it is left out.
-/

namespace Agentd

/-- `Paths`, as far as the runtime directory goes. -/
structure Paths where
  runtimeDir : String
deriving DecidableEq

namespace Paths

/-- `PathBuf::join`, for a name that is no absolute path. -/
def join (dir name : String) : String :=
  if dir.toList = [] ∨ dir.toList.getLast? = some '/' then dir ++ name else dir ++ "/" ++ name

/-- `Paths::control_socket_path`. -/
def controlSocketPath (paths : Paths) : String :=
  join paths.runtimeDir "control.sock"

/-- `Paths::daemon_pid_path`. -/
def daemonPidPath (paths : Paths) : String :=
  join paths.runtimeDir "daemon.pid"

/-- `Paths::plugin_socket_path`. -/
def pluginSocketPath (paths : Paths) (name : String) : String :=
  join paths.runtimeDir ("plugin-" ++ name ++ ".sock")

end Paths

/-- `PluginEntry`. -/
structure PluginEntry where
  name : String
  binary : String
  autostart : Bool := true
deriving DecidableEq

/-- `SpawnError`. -/
inductive SpawnError
  | notFound (path : String)
  | io
deriving DecidableEq

/-- `PluginHandle`, with a number for the child process. -/
structure PluginHandle where
  name : String
  child : ℕ
deriving DecidableEq

/-- `PluginHeartbeat`. -/
structure PluginHeartbeat where
  /-- An `Instant`, in nanoseconds. -/
  last : ℕ
  eventsTotal : UInt64 := 0
  invalidTotal : UInt64 := 0
  lastEventAge : UInt64 := 0

/-- `PluginHeartbeat::new`. -/
def PluginHeartbeat.new (now : ℕ) : PluginHeartbeat :=
  { last := now }

/-- One call to the spawner, and what the supervisor had at the time. -/
structure SpawnCall where
  name : String
  binary : String
  controlSocket : String
  /-- Whether the supervisor held a handle of the name. -/
  held : Bool
  /-- Whether the socket of the name was bound and served. -/
  served : Bool
  /-- Whether a child was spawned. -/
  spawned : Bool
deriving DecidableEq

/-- What the world answers, by how often it was asked. -/
structure World where
  /-- A call to the spawner: the child. -/
  spawn : ℕ → Except SpawnError ℕ
  /-- `create_dir_all`, `bind` and `set_permissions` for a socket. -/
  bind : ℕ → Bool
  /-- `Instant::now`, in nanoseconds. -/
  now : ℕ → ℕ

/-- `PluginSupervisor`. -/
structure Supervisor where
  manifest : List PluginEntry
  connected : List String := []
  handles : AList (fun _ : String => PluginHandle) := ∅
  heartbeats : AList (fun _ : String => PluginHeartbeat) := ∅
  paths : Option Paths := none
  pluginUdsPaths : AList (fun _ : String => String) := ∅
  /-- The plugins whose monitor tasks were started. -/
  monitors : List String := []
  /-- The calls made to the spawner. -/
  calls : List SpawnCall := []
  /-- How often a socket was bound, or was not. -/
  binds : ℕ := 0
  /-- How often the clock was read. -/
  clockReads : ℕ := 0

namespace Supervisor

/-! ### Single statements

A statement holds one lock, or calls the spawner or the file system. The names of the statements are
what a proof about interleavings looks at. -/

/-- The statements of the supervisor. -/
inductive Op
  | setPaths (paths : Paths)
  | bindAndServe (name : String) (paths : Paths)
  /-- `ensure_plugin`, up to the call to the spawner. -/
  | ensure (name : String)
  /-- The call to the spawner in `autostart`. -/
  | launch (entry : PluginEntry) (paths : Paths)
  /-- The push to `connected`. -/
  | connect (name : String)
  /-- The insertion into `handles`. -/
  | register (handle : PluginHandle)
  /-- The insertion into `heartbeats`, and `spawn_monitor`. -/
  | watch (name : String)

/-- `set_paths`. -/
def setPaths (s : Supervisor) (paths : Paths) : Supervisor :=
  { s with paths := some paths }

/-- Whether `bind_and_serve` ends well. -/
def binds? (w : World) (s : Supervisor) (name : String) : Bool :=
  name ∈ s.pluginUdsPaths || w.bind s.binds

/-- `bind_and_serve`. -/
def bindAndServe (w : World) (s : Supervisor) (name : String) (paths : Paths) : Supervisor :=
  if name ∈ s.pluginUdsPaths then s
  else if w.bind s.binds then
    { s with
      binds := s.binds + 1
      pluginUdsPaths := s.pluginUdsPaths.insert name (paths.pluginSocketPath name) }
  else { s with binds := s.binds + 1 }

/-- `spawner.spawn`. -/
def callSpawner (w : World) (s : Supervisor) (entry : PluginEntry) (paths : Paths) : Supervisor :=
  { s with
    calls := s.calls ++ [{
      name := entry.name
      binary := entry.binary
      controlSocket := paths.pluginSocketPath entry.name
      held := entry.name ∈ s.handles
      served := entry.name ∈ s.pluginUdsPaths
      spawned := (w.spawn s.calls.length).isOk }] }

/-- What `ensure_plugin` starts: nothing when the plugin is running, is not in the
manifest, or no paths are set. -/
def toStart? (s : Supervisor) (name : String) : Option (PluginEntry × Paths) :=
  if name ∈ s.handles then none
  else (s.manifest.find? fun p => p.name = name).bind fun entry => s.paths.map fun paths =>
    (entry, paths)

/-- The start of a plugin is over for the supervisor: it has its handle. -/
def register (s : Supervisor) (handle : PluginHandle) : Supervisor :=
  { s with handles := s.handles.insert handle.name handle }

/-- The heartbeat and the monitor of a plugin. -/
def watch (w : World) (s : Supervisor) (name : String) : Supervisor :=
  { s with
    heartbeats := s.heartbeats.insert name (.new (w.now s.clockReads))
    clockReads := s.clockReads + 1
    -- `spawn_monitor` does nothing without paths
    monitors := if s.paths.isSome then s.monitors ++ [name] else s.monitors }

/-- What a statement does. -/
def apply (w : World) : Op → Supervisor → Supervisor
  | .setPaths paths, s => s.setPaths paths
  | .bindAndServe name paths, s => s.bindAndServe w name paths
  | .ensure name, s => (s.toStart? name).elim s fun (entry, paths) => s.callSpawner w entry paths
  | .launch entry paths, s => s.callSpawner w entry paths
  | .connect name, s => { s with connected := s.connected ++ [name] }
  | .register handle, s => s.register handle
  | .watch name, s => s.watch w name

/-! ### The calls

The functions of the supervisor as programs of these statements, in the order of the source. -/

/-- A statement of the supervisor, and the rest. -/
def statement {ρ : Type} (w : World) (op : Op) (next : Supervisor → Program Op Supervisor ρ) :
    Program Op Supervisor ρ :=
  .step op (apply w op) next

/-- A child was spawned: its name is pushed, and its handle inserted. -/
def keepHandle {ρ : Type} (w : World) (handle : PluginHandle) (rest : Program Op Supervisor ρ) :
    Program Op Supervisor ρ :=
  statement w (.connect handle.name) fun _ => statement w (.register handle) fun _ => rest

/-- `ensure_plugin`. -/
def ensurePlugin (w : World) (name : String) : Program Op Supervisor (Except SpawnError Bool) :=
  statement w (.ensure name) fun s =>
    match s.toStart? name with
    | none => .done (.ok false)
    | some _ =>
      match w.spawn s.calls.length with
      | .error e => .done (.error e)
      | .ok child => keepHandle w ⟨name, child⟩ (.done (.ok true))

/-- The loop of `restart_respawn`, which the first error ends. -/
def respawn (w : World) : List String → ℕ → Program Op Supervisor (Except SpawnError ℕ)
  | [], spawned => .done (.ok spawned)
  | name :: names, spawned => (ensurePlugin w name).bind fun
    | .error e => .done (.error e)
    | .ok true => respawn w names (spawned + 1)
    | .ok false => respawn w names spawned

/-- `restart_respawn`, which answers `none` for an error. The names come out of a hash set
in the order `shuffle` puts them in. -/
def restartRespawn (w : World) (db : Db) (shuffle : List String → List String) :
    Program Op Supervisor (Option ℕ) :=
  match Agentd.restartRespawn db with
  | .error _ => .done none
  | .ok needed => (respawn w (shuffle needed) 0).bind fun result => .done result.toOption

/-- The loop of `autostart`. -/
def autostartEntries (w : World) (paths : Paths) :
    List PluginEntry → ℕ → Program Op Supervisor ℕ
  | [], count => .done count
  | entry :: rest, count =>
    if !entry.autostart then autostartEntries w paths rest count
    else statement w (.bindAndServe entry.name paths) fun s =>
      -- there would be no server for the child to talk to
      if !s.binds? w entry.name then autostartEntries w paths rest count
      else statement w (.launch entry paths) fun s =>
        match w.spawn s.calls.length with
        | .error _ => autostartEntries w paths rest count
        | .ok child => keepHandle w ⟨entry.name, child⟩ <|
          statement w (.watch entry.name) fun _ => autostartEntries w paths rest (count + 1)

/-- `autostart`. -/
def autostart (w : World) (paths : Paths) : Program Op Supervisor ℕ :=
  statement w (.setPaths paths) fun s => autostartEntries w paths s.manifest 0

/-- The part of `Daemon::run` that starts plugins: `set_paths`, `restart_respawn` and, unless
that failed, `autostart`. -/
def boot (w : World) (db : Db) (shuffle : List String → List String) (paths : Paths) :
    Program Op Supervisor (Option ℕ) :=
  statement w (.setPaths paths) fun _ =>
    (restartRespawn w db shuffle).bind fun
      | none => .done none
      | some _ => (autostart w paths).bind fun started => .done (some started)

end Supervisor

end Agentd
