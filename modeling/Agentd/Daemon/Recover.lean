import Agentd.Daemon.Boot
import Agentd.Supervisor.SocketFirst

/-!
# What a new daemon makes of the leftovers

See `Agentd.Daemon.Boot`.

The invariant is that the control socket is there exactly while the daemon listens on it
(`Agentd.Boot.Clean`): every statement keeps it, and at a kill the file outlives the process. So
what one daemon leaves to the next is decided by whether it was listening, and this is carried
through any list of crashes by induction. Of the boot sequence itself the rest is a calculation:
each part of it is run on a host in general position (`run_boot_of_unlocked`, `run_bootRespawn`,
`run_bootListen`), and the parts are put together.
-/

namespace Agentd

/-! ### Paths

The control socket, the lock and the sockets of the plugins are in one directory under different
names, so that to remove one of them leaves the others. -/

namespace Paths

/-- Paths in one directory differ when their names do. -/
theorem join_inj {dir a b : String} (h : join dir a = join dir b) : a = b := by
  unfold join at h
  split_ifs at h
  · exact (String.append_right_inj _).mp h
  · exact (String.append_right_inj _).mp h

variable (paths : Paths)

/-- Each plugin has a socket of its own. -/
theorem pluginSocketPath_inj {name name' : String}
    (h : paths.pluginSocketPath name = paths.pluginSocketPath name') : name = name' :=
  (String.append_right_inj _).mp ((String.append_left_inj _).mp (join_inj h))

/-- The control socket is no socket of a plugin. -/
theorem controlSocketPath_ne_pluginSocketPath (name : String) :
    paths.controlSocketPath ≠ paths.pluginSocketPath name := by
  intro h
  have hhead := congrArg (·.toList.head?) (join_inj h)
  simp at hhead

/-- The file of the process id is not the control socket. -/
theorem controlSocketPath_ne_daemonPidPath : paths.controlSocketPath ≠ paths.daemonPidPath :=
  fun h => absurd (join_inj h) (by decide)

end Paths

namespace Supervisor

/-! ### The paths of a call

All statements of a call to the supervisor are about the sockets of the plugins in one runtime
directory. That is seen statement by statement, and from it what a daemon can leave behind. -/

/-- A statement that is about the given paths, if it is about any. -/
def Op.On (paths : Paths) : Op → Prop
  | .setPaths p | .bindAndServe _ p => p = paths
  | _ => True

/-- The statements of a call that works with the given paths. -/
def OnPaths {ρ : Type} (w : World) (paths : Paths) (x : Program Op Supervisor ρ) : Prop :=
  x.Each fun op write _ => op.On paths ∧ write = apply w op

variable {ρ ρ' : Type} {w : World} {paths : Paths}

/-- A call that goes on with another keeps to the paths when both do. -/
theorem OnPaths.bind {x : Program Op Supervisor ρ} (h : OnPaths w paths x)
    {f : ρ → Program Op Supervisor ρ'} (hf : ∀ r, OnPaths w paths (f r)) :
    OnPaths w paths (x.bind f) :=
  Program.Each.bind (fun _ _ _ hP => hP) h hf

/-- A statement does when it does, and what follows. -/
theorem onPaths_statement {op : Op} (hop : op.On paths) {next : Supervisor → Program Op Supervisor ρ}
    (h : ∀ s, OnPaths w paths (next s)) : OnPaths w paths (statement w op next) :=
  ⟨⟨hop, rfl⟩, h⟩

/-- What is done with a handle is done in the maps. -/
theorem onPaths_keepHandle (handle : PluginHandle) {rest : Program Op Supervisor ρ}
    (h : OnPaths w paths rest) : OnPaths w paths (keepHandle w handle rest) :=
  onPaths_statement (by trivial) fun _ => onPaths_statement (by trivial) fun _ => h

/-- `ensure_plugin` binds no socket, and so keeps to the paths. -/
theorem onPaths_ensurePlugin (name : String) : OnPaths w paths (ensurePlugin w name) := by
  refine onPaths_statement (by trivial) fun s => ?_
  split
  · trivial
  · split
    · trivial
    · exact onPaths_keepHandle _ trivial

/-- The loop that calls it for one name after the other keeps to the paths. -/
theorem onPaths_respawn (names : List String) :
    ∀ spawned, OnPaths w paths (respawn w names spawned) := by
  induction names with
  | nil => exact fun _ => trivial
  | cons name names ih =>
    intro spawned
    exact (onPaths_ensurePlugin name).bind fun
      | .error _ => trivial
      | .ok true => ih _
      | .ok false => ih _

/-- `restart_respawn` keeps to the paths, whatever the sessions need. -/
theorem onPaths_restartRespawn (db : Db) (shuffle : List String → List String) :
    OnPaths w paths (restartRespawn w db shuffle) := by
  unfold restartRespawn
  split
  · trivial
  · exact (onPaths_respawn _ _).bind fun _ => trivial

/-- The loop of `autostart` binds the sockets of its entries in the directory it was given. -/
theorem onPaths_autostartEntries (entries : List PluginEntry) :
    ∀ count, OnPaths w paths (autostartEntries w paths entries count) := by
  induction entries with
  | nil => exact fun _ => trivial
  | cons entry entries ih =>
    intro count
    unfold autostartEntries
    split_ifs
    · exact ih count
    · refine onPaths_statement (by rfl) fun s => ?_
      split_ifs
      · exact ih count
      · refine onPaths_statement (by trivial) fun s => ?_
        split
        · exact ih count
        · exact onPaths_keepHandle _ (onPaths_statement (by trivial) fun _ => ih _)

/-- `autostart` keeps to the paths it was given. -/
theorem onPaths_autostart : OnPaths w paths (autostart w paths) :=
  onPaths_statement (by rfl) fun _ => onPaths_autostartEntries _ _

/-- The manifest is what the supervisor was made with. -/
theorem manifest_apply (op : Op) (s : Supervisor) : (apply w op s).manifest = s.manifest := by
  cases op with
  | bindAndServe name paths =>
    change (s.bindAndServe w name paths).manifest = _
    unfold bindAndServe
    split_ifs <;> rfl
  | ensure name =>
    rw [apply]
    cases s.toStart? name <;> rfl
  | setPaths | launch | connect | register | watch => rfl

/-- No call changes the manifest. -/
theorem OnPaths.manifest_run {x : Program Op Supervisor ρ} (h : OnPaths w paths x)
    (s : Supervisor) : (x.run s).2.manifest = s.manifest := by
  refine Program.Each.run (I := fun t => t.manifest = s.manifest) (h.mono ?_) s rfl
  rintro op write - ⟨-, rfl⟩ t ht
  rw [manifest_apply]
  exact ht

/-! ### When all goes well

In a world in which every spawn succeeds `restart_respawn` returns a number, unless the sessions
cannot be read, and `autostart` serves the sockets of all its entries. -/

/-- `restart_respawn` succeeds when the rows can be read and spawns succeed. -/
theorem isSome_restartRespawn_iff (hspawn : ∀ n, (w.spawn n).isOk) (db : Db)
    (shuffle : List String → List String) (s : Supervisor) :
    ((restartRespawn w db shuffle).run s).1.isSome ↔ ∀ row ∈ db.sessions.rows, row.Decodes := by
  have hrespawn (names : List String) : ∀ spawned s, ∃ n,
      ((respawn w names spawned).run s).1 = .ok n := by
    induction names with
    | nil => exact fun spawned _ => ⟨spawned, rfl⟩
    | cons name names ih =>
      intro spawned s
      unfold respawn
      rw [Program.run_bind]
      rcases run_ensurePlugin (w := w) s name with
        ⟨-, hrun⟩ | ⟨entry, paths, -, ⟨e, herror, -⟩ | ⟨child, -, hrun⟩⟩
      · rw [hrun]
        exact ih _ _
      · have hok := hspawn s.calls.length
        rw [herror] at hok
        cases hok
      · rw [hrun]
        exact ih _ _
  rw [← exists_restartRespawn_iff]
  unfold restartRespawn
  cases hneeded : Agentd.restartRespawn db with
  | error e =>
    refine iff_of_false Bool.false_ne_true ?_
    rintro ⟨_, heq⟩
    cases heq
  | ok needed =>
    rw [Program.run_bind]
    obtain ⟨n, hn⟩ := hrespawn (shuffle needed) 0 s
    rw [hn]
    exact iff_of_true rfl ⟨needed, rfl⟩

/-- `autostart` serves the socket of every plugin, when all sockets can be bound. -/
theorem served_autostartEntries (hbind : ∀ n, w.bind n) (entries : List PluginEntry) :
    ∀ count s, ∀ entry ∈ entries, entry.autostart →
      entry.name ∈ ((autostartEntries w paths entries count).run s).2.pluginUdsPaths := by
  -- what is served stays so
  have hkeep (name : String) : ∀ (entries : List PluginEntry) (count : ℕ) (s : Supervisor),
      name ∈ s.pluginUdsPaths →
        name ∈ ((autostartEntries w paths entries count).run s).2.pluginUdsPaths := by
    refine autostartEntries_invariant (I := fun s => name ∈ s.pluginUdsPaths) paths ?_
      (fun _ _ h _ _ => h) (fun _ _ _ h _ => h)
    intro s other h
    unfold bindAndServe
    split_ifs
    · exact h
    · exact (AList.mem_insert _).mpr (Or.inr h)
    · exact h
  induction entries with
  | nil => exact fun _ _ _ h => (List.not_mem_nil h).elim
  | cons first entries ih =>
    intro count s entry hentry hauto
    unfold autostartEntries statement
    rcases List.mem_cons.mp hentry with rfl | hentry
    · have hserved := mem_bindAndServe (w := w) (s := s)
        (by rw [binds?, hbind, Bool.or_true] : s.binds? w entry.name) paths
      have hbinds : s.binds? w entry.name = true := by rw [binds?, hbind, Bool.or_true]
      simp only [hauto, Bool.not_true, Bool.false_eq_true, if_false, Program.run_step, hbinds]
      split
      · exact hkeep _ _ _ _ hserved
      · exact hkeep _ _ _ _ hserved
    · split_ifs with hfirst
      · exact ih _ _ entry hentry hauto
      · rw [Program.run_step]
        split_ifs
        · exact ih _ _ entry hentry hauto
        · rw [Program.run_step]
          split
          · exact ih _ _ entry hentry hauto
          · exact ih _ _ entry hentry hauto

end Supervisor

namespace Boot

open Supervisor (Op OnPaths)

/-! ### Calls to the supervisor

A call to the supervisor is run statement by statement on the host, where a statement that binds a
socket makes a file as well. What the call answers does not depend on these files. -/

section OnSupervisor

variable {ρ : Type} {w : World} {paths : Paths}

/-- What a call to the supervisor answers and does to it. -/
theorem run_onSupervisor (x : Program Op Supervisor ρ) : ∀ h : Host,
    ((onSupervisor x).run h).1 = (x.run h.supervisor).1 ∧
      ((onSupervisor x).run h).2.supervisor = (x.run h.supervisor).2 := by
  induction x with
  | done r => exact fun h => ⟨rfl, rfl⟩
  | step op write next ih =>
    intro h
    cases op with
    | bindAndServe name paths =>
      have hremove : (h.removePluginSocket name paths).supervisor = h.supervisor := by
        unfold Host.removePluginSocket
        split_ifs <;> rfl
      unfold onSupervisor
      rw [Program.run_step, Program.run_step, Program.run_step, hremove]
      refine (ih h.supervisor _).imp (fun hr => hr.trans ?_) (fun hr => hr.trans ?_) <;>
        rw [Host.serve, hremove]
    | setPaths | ensure | launch | connect | register | watch => exact ih h.supervisor _

/-- What the statements of the supervisor keep, the calls to it keep. -/
theorem each_onSupervisor {I : Host → Prop}
    (hserve : ∀ op : Op, op.On paths → ∀ h, I h → I (h.serve op (Supervisor.apply w op)))
    (hremove : ∀ name h, I h → I (h.removePluginSocket name paths)) {x : Program Op Supervisor ρ}
    (hx : OnPaths w paths x) :
    (onSupervisor x).Each fun _ write _ => ∀ h, I h → I (write h) := by
  induction x with
  | done r => trivial
  | step op write next ih =>
    obtain ⟨⟨hop, rfl⟩, hnext⟩ := hx
    cases op with
    | bindAndServe name p =>
      obtain rfl : p = paths := hop
      exact ⟨hremove name, fun _ => ⟨hserve _ rfl, fun h => ih _ (hnext _)⟩⟩
    | setPaths p => exact ⟨hserve _ hop, fun h => ih _ (hnext _)⟩
    | ensure | launch | connect | register | watch =>
      exact ⟨hserve _ trivial, fun h => ih _ (hnext _)⟩

end OnSupervisor

/-! ### What the statements of a daemon keep

The file of the control socket is made by the one statement that binds it, and removed by one at the
very end. While the daemon runs, the file is there exactly when somebody listens on it; this is what
tells the crashes that matter from the others. -/

variable {paths : Paths}

/-- A statement of the supervisor does not touch the control socket. -/
theorem control_mem_serve {w : World} {op : Op} (hop : op.On paths) (h : Host) :
    paths.controlSocketPath ∈ (h.serve op (Supervisor.apply w op)).files ↔
      paths.controlSocketPath ∈ h.files := by
  cases op with
  | bindAndServe name p =>
    obtain rfl : p = paths := hop
    unfold Host.serve
    dsimp only
    split_ifs
    · exact Iff.rfl
    · rw [Finset.mem_insert, or_iff_right (p.controlSocketPath_ne_pluginSocketPath name)]
  | setPaths | ensure | launch | connect | register | watch => exact Iff.rfl

/-- To remove the socket of a plugin does not remove the control socket. -/
theorem control_mem_removePluginSocket (name : String) (h : Host) :
    paths.controlSocketPath ∈ (h.removePluginSocket name paths).files ↔
      paths.controlSocketPath ∈ h.files := by
  unfold Host.removePluginSocket
  split_ifs
  · exact Iff.rfl
  · rw [Finset.mem_erase, and_iff_right (paths.controlSocketPath_ne_pluginSocketPath name)]

/-- To remove the socket of a plugin does not end the listening. -/
theorem listening_removePluginSocket (name : String) (h : Host) :
    (h.removePluginSocket name paths).listening = h.listening := by
  unfold Host.removePluginSocket
  split_ifs <;> rfl

variable (paths) in
/-- The control socket is there exactly while the daemon listens on it. -/
def Clean (h : Host) : Prop :=
  paths.controlSocketPath ∈ h.files ↔ h.listening

section Keeps

variable {I : Host → Prop} (hfiles : ∀ h h' : Host,
  (paths.controlSocketPath ∈ h'.files ↔ paths.controlSocketPath ∈ h.files) →
    h'.listening = h.listening → I h → I h')
include hfiles

/-- A property of the control socket, kept by a call to the supervisor. -/
theorem each_supervisor {ρ : Type} {w : World} {x : Program Op Supervisor ρ}
    (hx : OnPaths w paths x) : (onSupervisor x).Each fun _ write _ => ∀ h, I h → I (write h) := by
  have hserve (op : Op) (hop : op.On paths) (h : Host) (hI : I h) :
      I (h.serve op (Supervisor.apply w op)) := hfiles h _ (control_mem_serve hop h) rfl hI
  have hremove (name : String) (h : Host) (hI : I h) : I (h.removePluginSocket name paths) :=
    hfiles h _ (control_mem_removePluginSocket name h) (listening_removePluginSocket name h) hI
  exact each_onSupervisor hserve hremove hx

/-- What every statement keeps is kept when the guard is dropped. -/
theorem each_dropGuard {ρ : Type} {inode : ℕ} {rest : Program Statement Host ρ}
    (h : rest.Each fun _ write _ => ∀ h, I h → I (write h)) :
    (dropGuard inode rest).Each fun _ write _ => ∀ h, I h → I (write h) :=
  ⟨fun _ => hfiles _ _ Iff.rfl rfl, fun _ => ⟨fun _ => hfiles _ _ Iff.rfl rfl, fun _ => h⟩⟩

/-- A property of the control socket that binding it keeps is kept by the boot sequence. -/
theorem each_boot (hbind : ∀ h, I h → paths.controlSocketPath ∉ h.files →
      I { h with files := insert paths.controlSocketPath h.files, listening := true })
    (c : Circumstances) : (boot c paths).Each fun _ write _ => ∀ h, I h → I (write h) := by
  have hsame {ρ : Type} (r : ρ) :
      (.done r : Program Statement Host ρ).Each fun _ write _ => ∀ h, I h → I (write h) := trivial
  have hguarded (inode : ℕ) :
      (bootGuarded c paths inode).Each fun _ write _ => ∀ h, I h → I (write h) := by
    refine ⟨fun _ => hfiles _ _ Iff.rfl rfl, fun _ => ⟨fun _ => hfiles _ _ Iff.rfl rfl, fun _ =>
      ⟨fun _ => hfiles _ _ Iff.rfl rfl, fun _ => ?_⟩⟩⟩
    refine Program.Each.bind (fun _ _ _ hP => hP) (each_supervisor hfiles
      (Supervisor.onPaths_statement (by rfl) fun _ => Supervisor.onPaths_restartRespawn _ _))
      fun r => ?_
    cases r with
    | none => exact each_dropGuard hfiles (hsame _)
    | some n =>
      refine ⟨fun h hI => ?_, fun h => ?_⟩
      · dsimp only
        split_ifs with hthere
        · exact hI
        · exact hbind h hI hthere
      · dsimp only
        split_ifs
        · exact each_dropGuard hfiles (hsame _)
        · exact Program.Each.bind (fun _ _ _ hP => hP)
            (each_supervisor hfiles Supervisor.onPaths_autostart) fun _ => hsame _
  refine ⟨fun _ => hfiles _ _ Iff.rfl rfl, fun _ => ⟨fun _ => hfiles _ _ Iff.rfl rfl, fun h => ?_⟩⟩
  dsimp only
  split
  · exact hsame _
  · exact hguarded _

end Keeps

/-- That depends on the file and on who listens alone. -/
theorem clean_of_same {h h' : Host}
    (hfiles : paths.controlSocketPath ∈ h'.files ↔ paths.controlSocketPath ∈ h.files)
    (hlistening : h'.listening = h.listening) (hI : Clean paths h) : Clean paths h' := by
  rw [Clean, hfiles, hlistening]
  exact hI

/-- **A daemon that finds no control socket keeps it in step with its listening** all the
time, also at its end. -/
theorem each_daemonRun (c : Circumstances) :
    (daemonRun c paths).Each fun _ write _ => ∀ h, Clean paths h → Clean paths (write h) := by
  have hsame (h h' : Host) := @clean_of_same paths h h'
  refine Program.Each.bind (fun _ _ _ hP => hP) (each_boot hsame (fun h _ _ => ?_) c) fun r => ?_
  · exact iff_of_true (Finset.mem_insert_self ..) rfl
  · cases r with
    | error e => trivial
    | ok inode =>
      refine ⟨fun _ => hsame _ _ Iff.rfl rfl, fun _ => ⟨fun _ => hsame _ _ Iff.rfl rfl, fun _ =>
        ⟨fun h _ => ?_, fun _ => ⟨fun _ => hsame _ _ Iff.rfl rfl, fun _ =>
          ⟨fun h => hsame _ _ ?_ rfl, fun _ => each_dropGuard hsame trivial⟩⟩⟩⟩⟩
      · have hnot : paths.controlSocketPath ∉ h.files.erase paths.controlSocketPath :=
          Finset.notMem_erase _ _
        exact iff_of_false hnot Bool.false_ne_true
      · dsimp only
        rw [Finset.mem_erase, and_iff_right paths.controlSocketPath_ne_daemonPidPath]

/-! ### The sockets of the plugins

A socket of a plugin may be left over from a daemon that was killed. It is removed before it is
bound, so that such a file is in nobody's way. -/

variable (paths) in
/-- The socket of every plugin that is served is there. -/
def Served (h : Host) : Prop :=
  ∀ name ∈ h.supervisor.pluginUdsPaths, paths.pluginSocketPath name ∈ h.files

/-- A statement that binds a socket makes its file. -/
theorem served_serve {w : World} {op : Op} (hop : op.On paths) {h : Host} (hserved : Served paths h) :
    Served paths (h.serve op (Supervisor.apply w op)) := by
  cases op with
  | bindAndServe name p =>
    obtain rfl : p = paths := hop
    intro other hother
    have hother : other = name ∨ other ∈ h.supervisor.pluginUdsPaths := by
      change other ∈ (h.supervisor.bindAndServe w name p).pluginUdsPaths at hother
      unfold Supervisor.bindAndServe at hother
      split_ifs at hother
      · exact Or.inr hother
      · exact (AList.mem_insert _).mp hother
      · exact Or.inr hother
    unfold Host.serve
    dsimp only
    split_ifs with hname
    · rcases hother with rfl | hother
      · exact hserved _ hname
      · exact hserved _ hother
    · rcases hother with rfl | hother
      · exact Finset.mem_insert_self ..
      · exact Finset.mem_insert_of_mem (hserved _ hother)
  | ensure name =>
    intro other hother
    refine hserved other ?_
    unfold Host.serve Supervisor.apply at hother
    dsimp only at hother
    cases hstart : h.supervisor.toStart? name with
    | none => rwa [hstart] at hother
    | some start => rwa [hstart] at hother
  | setPaths | launch | connect | register | watch => exact hserved

/-- What is removed is the socket of a plugin that is not served. -/
theorem served_removePluginSocket (name : String) {h : Host} (hserved : Served paths h) :
    Served paths (h.removePluginSocket name paths) := by
  unfold Host.removePluginSocket
  split_ifs with hname
  · exact hserved
  · intro other hother
    have hne : other ≠ name := by
      rintro rfl
      exact hname hother
    exact Finset.mem_erase.mpr ⟨fun heq => hne (paths.pluginSocketPath_inj heq), hserved other hother⟩

/-- So the sockets of all plugins that are served are there when a call is over. -/
theorem served_run {ρ : Type} {w : World} {x : Program Op Supervisor ρ} (hx : OnPaths w paths x)
    {h : Host} (hserved : Served paths h) : Served paths ((onSupervisor x).run h).2 :=
  Program.Each.run (each_onSupervisor (I := Served paths) (fun _ hop _ => served_serve hop)
    (fun name _ => served_removePluginSocket name) hx) h hserved

/-! ### The boot sequence

A boot is followed through its statements up to where it may fail. The lock is free, since the
kernel has released it; the sessions have to be read; and the control socket must not be there, as
it is bound without having been removed. -/

/-- Nobody holds the lock. -/
def Host.Unlocked (h : Host) : Prop :=
  ∀ i, h.lock.holder i = none

/-- A process that has ended holds no lock. -/
theorem unlocked_exit (h : Host) : h.exit.Unlocked :=
  fun _ => rfl

/-- The boot sequence gets past its lock when nobody holds it. -/
theorem run_boot_of_unlocked (paths : Paths) {h : Host} (hunlocked : h.Unlocked)
    (c : Circumstances) :
    ∃ inode lock, (boot c paths).run h =
      (bootGuarded c paths inode).run { h with lock } := by
  unfold boot
  rw [Program.run_step, Program.run_step]
  dsimp only
  have hfree : (h.lock.openOrCreate.2).holder h.lock.openOrCreate.1 = none := by
    rw [LockFile.holder_openOrCreate]
    exact hunlocked _
  have hlock : (h.lock.openOrCreate.2).tryLock () h.lock.openOrCreate.1 =
      some { h.lock.openOrCreate.2 with
        holder := Function.update h.lock.openOrCreate.2.holder h.lock.openOrCreate.1 (some ()) } := by
    unfold LockFile.tryLock
    rw [hfree]
  rw [hlock]
  exact ⟨_, _, rfl⟩

/-- A statement of the supervisor leaves the control socket alone. -/
theorem control_mem_onSupervisor {ρ : Type} {w : World} {x : Program Op Supervisor ρ}
    (hx : OnPaths w paths x) (h : Host) :
    (paths.controlSocketPath ∈ ((onSupervisor x).run h).2.files ↔
      paths.controlSocketPath ∈ h.files) ∧
    ((onSupervisor x).run h).2.listening = h.listening := by
  refine Program.Each.run (I := fun g : Host => (paths.controlSocketPath ∈ g.files ↔
    paths.controlSocketPath ∈ h.files) ∧ g.listening = h.listening)
    (each_supervisor (fun g g' hfiles hlistening hg => ?_) hx) h ⟨Iff.rfl, rfl⟩
  exact ⟨hfiles.trans hg.1, hlistening.trans hg.2⟩

/-- There is no control socket yet, and all rows can be read once the old ones are gone. -/
def Bootable (paths : Paths) (c : Circumstances) (h : Host) : Prop :=
  paths.controlSocketPath ∉ h.files ∧
    ∀ row ∈ (h.db.tombstoneGc c.cutoff).sessions.rows, row.Decodes

/-- The boot sequence has done what it is for. -/
structure Booted (paths : Paths) (c : Circumstances) (h : Host) : Prop where
  listening : h.listening
  control : paths.controlSocketPath ∈ h.files
  plugins : ∀ entry ∈ c.manifest, entry.autostart → entry.name ∈ h.supervisor.pluginUdsPaths ∧
    paths.pluginSocketPath entry.name ∈ h.files

/-- `autostart`, once the control socket is bound. -/
theorem booted_autostart {c : Circumstances} {h : Host} (hlistening : h.listening)
    (hcontrol : paths.controlSocketPath ∈ h.files) (hserved : Served paths h)
    (hmanifest : h.supervisor.manifest = c.manifest) :
    Booted paths c ((onSupervisor (Supervisor.autostart c.world paths)).run h).2 := by
  have hon : OnPaths c.world paths (Supervisor.autostart c.world paths) :=
    Supervisor.onPaths_autostart
  obtain ⟨hfiles, hflag⟩ := control_mem_onSupervisor hon h
  refine ⟨hflag.trans hlistening, hfiles.mpr hcontrol, fun entry hentry hauto => ?_⟩
  have hname : entry.name ∈
      ((onSupervisor (Supervisor.autostart c.world paths)).run h).2.supervisor.pluginUdsPaths := by
    rw [(run_onSupervisor _ h).2]
    refine Supervisor.served_autostartEntries c.binds _ _ _ entry ?_ hauto
    rwa [hmanifest]
  exact ⟨hname, served_run hon hserved _ hname⟩

/-- The two calls of the boot keep to the paths. -/
theorem onPaths_bootRespawn (paths : Paths) (c : Circumstances) (db : Db) :
    OnPaths c.world paths (Supervisor.statement c.world (.setPaths paths) fun _ =>
      Supervisor.restartRespawn c.world db c.shuffle) :=
  Supervisor.onPaths_statement (by rfl) fun _ => Supervisor.onPaths_restartRespawn _ _

/-- Step 5 succeeds when the rows can be read, and leaves no trace that matters later. -/
theorem run_bootRespawn (paths : Paths) (c : Circumstances) (db : Db) {h : Host}
    (hserved : Served paths h) :
    (((bootRespawn c paths db).run h).1.isSome ↔ ∀ row ∈ db.sessions.rows, row.Decodes) ∧
      (paths.controlSocketPath ∈ ((bootRespawn c paths db).run h).2.files ↔
        paths.controlSocketPath ∈ h.files) ∧
      Served paths ((bootRespawn c paths db).run h).2 ∧
      ((bootRespawn c paths db).run h).2.supervisor.manifest = h.supervisor.manifest := by
  have hon := onPaths_bootRespawn paths c db
  have hrun := run_onSupervisor (Supervisor.statement c.world (.setPaths paths) fun _ =>
    Supervisor.restartRespawn c.world db c.shuffle) h
  refine ⟨?_, (control_mem_onSupervisor hon h).1, served_run hon hserved, ?_⟩
  · rw [bootRespawn, hrun.1]
    exact Supervisor.isSome_restartRespawn_iff c.spawns _ _ _
  · rw [bootRespawn, hrun.2]
    exact hon.manifest_run _

/-- Steps 6 and 7 fail when a control socket is there, and do what they are for otherwise. -/
theorem run_bootListen {c : Circumstances} {h : Host} (inode : ℕ) (hserved : Served paths h)
    (hmanifest : h.supervisor.manifest = c.manifest) :
    (paths.controlSocketPath ∈ h.files ∧ ∃ e, ((bootListen c paths inode).run h).1 = .error e) ∨
      (paths.controlSocketPath ∉ h.files ∧ ((bootListen c paths inode).run h).1 = .ok inode ∧
        Booted paths c ((bootListen c paths inode).run h).2) := by
  rw [bootListen, Program.run_step]
  by_cases hthere : paths.controlSocketPath ∈ h.files
  · rw [if_pos hthere]
    exact Or.inl ⟨hthere, .control, rfl⟩
  · rw [if_neg hthere, Program.run_bind, if_neg hthere]
    have hfiles : h.files ⊆ insert paths.controlSocketPath h.files := Finset.subset_insert ..
    exact Or.inr ⟨hthere, rfl, booted_autostart rfl (Finset.mem_insert_self ..)
      (fun name hname => hfiles (hserved name hname)) hmanifest⟩

/-- What the boot sequence comes to once it has the lock. -/
theorem run_bootGuarded (c : Circumstances) (h : Host) (inode : ℕ) (hserved : Served paths h)
    (hmanifest : h.supervisor.manifest = c.manifest) :
    (¬Bootable paths c h ∧ ∃ e, ((bootGuarded c paths inode).run h).1 = .error e) ∨
      (Bootable paths c h ∧ ((bootGuarded c paths inode).run h).1 = .ok inode ∧
        Booted paths c ((bootGuarded c paths inode).run h).2) := by
  obtain ⟨hanswer, hcontrol, hserved', hmanifest'⟩ := run_bootRespawn paths c
    (h.db.tombstoneGc c.cutoff) (h := { h with db := h.db.tombstoneGc c.cutoff }) hserved
  rw [bootGuarded, Program.run_step, Program.run_step, Program.run_step, Program.run_bind]
  simp only [id]
  generalize (bootRespawn c paths (h.db.tombstoneGc c.cutoff)).run
    { h with db := h.db.tombstoneGc c.cutoff } = result at *
  obtain ⟨answer, g⟩ := result
  cases answer with
  | none => exact Or.inl ⟨fun hboot => Bool.false_ne_true (hanswer.mpr hboot.2), .respawn, rfl⟩
  | some n =>
    rcases run_bootListen inode hserved' (hmanifest'.trans hmanifest) with
      ⟨hthere, herror⟩ | ⟨hnot, hok, hbooted⟩
    · exact Or.inl ⟨fun hboot => hboot.1 (hcontrol.mp hthere), herror⟩
    · exact Or.inr ⟨⟨fun hthere => hnot (hcontrol.mpr hthere), hanswer.mp rfl⟩, hok, hbooted⟩

/-! ### Crash after crash

A crash may come after any statement, also of a boot after a crash. Of what is left behind only the
file of the control socket counts: it stays when a daemon is killed between the bind and the removal
at its end. -/

/-- A new process finds the lock free if it was. -/
theorem start_unlocked {h : Host} (hunlocked : h.Unlocked) (c : Circumstances) :
    (h.start c).Unlocked :=
  hunlocked

/-- A new process serves no plugin yet. -/
theorem served_start (h : Host) (c : Circumstances) : Served paths (h.start c) :=
  fun name hname => (AList.notMem_empty name hname).elim

/-- The boot sequence of a new process comes to its end or to an error. -/
theorem run_boot_start (paths : Paths) {h : Host} (hunlocked : h.Unlocked) (c : Circumstances) :
    (¬Bootable paths c (h.start c) ∧ ∃ e, ((boot c paths).run (h.start c)).1 = .error e) ∨
      (Bootable paths c (h.start c) ∧ (∃ inode, ((boot c paths).run (h.start c)).1 = .ok inode) ∧
        Booted paths c ((boot c paths).run (h.start c)).2) := by
  obtain ⟨inode, lock, hrun⟩ := run_boot_of_unlocked paths
    (start_unlocked hunlocked c) c
  rw [hrun]
  rcases run_bootGuarded c { h.start c with lock } inode
    (served_start h c) rfl with hfails | ⟨hbootable, hanswer, hbooted⟩
  · exact Or.inl hfails
  · exact Or.inr ⟨hbootable, ⟨inode, hanswer⟩, hbooted⟩

/-- **A new daemon reaches its idle loop exactly when there is no control socket and every row
can be read.** -/
theorem recovers_iff_of_unlocked {h : Host} (hunlocked : h.Unlocked) (c : Circumstances) :
    Recovers paths h c ↔ Bootable paths c (h.start c) := by
  rcases run_boot_start paths hunlocked c with
    ⟨hnot, e, herror⟩ | ⟨hbootable, hanswer, hbooted⟩
  · refine iff_of_false ?_ hnot
    rintro ⟨⟨inode, hok⟩, -⟩
    rw [herror] at hok
    cases hok
  · exact iff_of_true ⟨hanswer, hbooted.listening, hbooted.control, hbooted.plugins⟩ hbootable

/-- A control socket that was left behind stays. -/
theorem control_mem_crashed {h : Host} (hunlocked : h.Unlocked)
    (hthere : paths.controlSocketPath ∈ h.files) (crash : Crash) :
    paths.controlSocketPath ∈ (h.crashed paths crash).files := by
  let c := crash.circumstances
  have hkeeps : (boot c paths).Each fun _ write _ => ∀ g : Host,
      paths.controlSocketPath ∈ g.files → paths.controlSocketPath ∈ (write g).files :=
    each_boot (I := fun g => paths.controlSocketPath ∈ g.files) (fun _ _ hfiles _ hg => hfiles.mpr hg)
      (fun _ hg hnot => absurd hg hnot) c
  unfold Host.crashed Host.atCrash daemonRun
  rcases Program.killed_bind (boot c paths) _ crash.after (h.start c) with ⟨m, hm⟩ | ⟨m, hm⟩
  · rw [hm]
    exact hkeeps.killed m _ hthere
  · -- the boot sequence fails, so that nothing comes after it
    obtain ⟨-, e, herror⟩ | ⟨hbootable, -⟩ := run_boot_start paths hunlocked c
    · rw [hm, herror]
      cases m <;> exact hkeeps.run _ hthere
    · exact absurd hthere hbootable.1

/-- A daemon that finds no control socket leaves one behind when it is killed while it listens. -/
theorem control_notMem_crashed_iff {h : Host} (hnot : paths.controlSocketPath ∉ h.files)
    (crash : Crash) :
    paths.controlSocketPath ∉ (h.crashed paths crash).files ↔
      ¬(h.atCrash paths crash).listening := by
  have hclean : Clean paths (h.atCrash paths crash) :=
    (each_daemonRun crash.circumstances).killed crash.after _
      (iff_of_false hnot Bool.false_ne_true)
  exact not_congr hclean

/-- **Recovery from crashes.** After any number of daemons were killed, a new one reaches its idle
loop, with its sockets bound, exactly when none was killed while it listened on its
control socket, and every row that the garbage collection leaves can be read. -/
theorem recovers_iff (paths : Paths) (db : Db) (crashes : List Crash) (c : Circumstances) :
    Recovers paths (Machine.run (Host.crashed paths) (Host.pristine db) crashes) c ↔
      Machine.Along (Host.crashed paths) (fun h crash => ¬(h.atCrash paths crash).listening)
        (Host.pristine db) crashes ∧
      ∀ row ∈ (c.db.tombstoneGc c.cutoff).sessions.rows, row.Decodes := by
  have hstart : (Host.pristine db).Unlocked := fun _ => rfl
  have hstep (h : Host) (crash : Crash) (_ : h.Unlocked) : (h.crashed paths crash).Unlocked :=
    unlocked_exit _
  have hnever : Machine.Along (Host.crashed paths)
      (fun h crash => ¬(h.atCrash paths crash).listening) (Host.pristine db) crashes ↔
      paths.controlSocketPath ∉
        (Machine.run (Host.crashed paths) (Host.pristine db) crashes).files := by
    rw [← Machine.throughout_iff_along (P := fun h : Host => paths.controlSocketPath ∉ h.files)
      (fun h crash hnot => control_notMem_crashed_iff hnot crash) crashes _ (Finset.notMem_empty _)]
    refine Machine.throughout_iff_last_of_invariant (I := Host.Unlocked) hstep
      (fun h crash hunlocked hnot => ?_) crashes _ hstart
    exact fun hthere => hnot (control_mem_crashed hunlocked hthere crash)
  rw [recovers_iff_of_unlocked (Machine.run_invariant hstep crashes _ hstart), hnever]
  exact Iff.rfl

/-! ### The crash after which nothing starts -/

/-- A daemon without sessions and plugins. -/
def plain : Circumstances where
  db := .fresh
  manifest := []
  cutoff := ""
  shuffle names := names
  world := { spawn := fun n => .ok n, bind := fun _ => true, now := fun _ => 0 }
  spawns _ := rfl
  binds _ := rfl

/-- **No daemon starts after one that was killed while it listened**, here in its idle loop. -/
theorem not_recovers :
    ¬∀ (paths : Paths) (db : Db) (crashes : List Crash) (c : Circumstances),
      (∀ row ∈ (c.db.tombstoneGc c.cutoff).sessions.rows, row.Decodes) →
        Recovers paths (Machine.run (Host.crashed paths) (Host.pristine db) crashes) c := by
  intro h
  let paths : Paths := ⟨"/run/agentd"⟩
  have hrecovers := h paths .fresh [⟨plain, 9⟩] plain (fun row hrow => (List.not_mem_nil hrow).elim)
  have hunlocked : ((Host.pristine .fresh).crashed paths ⟨plain, 9⟩).Unlocked := unlocked_exit _
  have hthere : paths.controlSocketPath ∈
      ((Host.pristine .fresh).crashed paths ⟨plain, 9⟩).files := by decide
  exact ((recovers_iff_of_unlocked hunlocked plain).mp hrecovers).1 hthere

end Boot

end Agentd
