import Agentd.Supervisor.OneChild

/-!
# The socket before the child

`autostart` binds the socket of a plugin, spawns the child, and gives it a heartbeat and a
monitor. `ensure_plugin` does none of this but spawn: the child of a plugin that
`restart_respawn` starts finds no socket to connect to, and nobody watches it.

`Agentd.Supervisor.socketFirst_iff` says that this is the only way to go wrong, in any
sequence of calls.

The calls come one after the other here, since what goes wrong does so without any interleaving. A
call of the spawner is recorded together with whether the socket of its plugin was bound at that
moment; so the property is one of the record, and is kept or broken by each call for itself.
-/

namespace Agentd

namespace Supervisor

/-- Every child was spawned with its socket served, and those that were have a heartbeat
and a monitor. -/
def SocketFirst (s : Supervisor) : Prop :=
  ∀ c ∈ s.calls, c.served ∧ (c.spawned → c.name ∈ s.heartbeats ∧ c.name ∈ s.monitors)

/-- The state of the supervisor after a call. -/
def exec (w : World) (s : Supervisor) (c : Call) : Supervisor :=
  ((c.program w).run s).2

/-- `ensure_plugin` starts nothing, or finds the socket served and the spawner failing. -/
def HarmlessStart (w : World) (s : Supervisor) (name : String) : Prop :=
  (s.toStart? name).isSome → name ∈ s.pluginUdsPaths ∧ ¬(w.spawn s.calls.length).isOk

/-- `ensure_plugin` is harmless, also as the first start of `restart_respawn`. -/
def HarmlessCall (w : World) (s : Supervisor) : Call → Prop
  | .ensurePlugin name => HarmlessStart w s name
  | .restartRespawn db shuffle => ∀ needed, Agentd.restartRespawn db = .ok needed → ∀ name,
      (shuffle needed).find? (fun name => (s.toStart? name).isSome) = some name →
        HarmlessStart w s name
  | _ => True

/-! ### The calls one by one

A child that `ensure_plugin` starts has neither a heartbeat nor a monitor, and a socket only where
`bind_and_serve` has been there before. So the call is harmless when it starts nothing: there is
nothing to start, or the spawner fails, with the socket bound. -/

variable {w : World}

/-- A plugin with a heartbeat is held. -/
def Watched (s : Supervisor) : Prop :=
  ∀ name ∈ s.heartbeats, name ∈ s.handles

/-- `ensure_plugin` from start to end. -/
theorem run_ensurePlugin (s : Supervisor) (name : String) :
    s.toStart? name = none ∧ (ensurePlugin w name).run s = (.ok false, s) ∨
      ∃ entry paths, s.toStart? name = some (entry, paths) ∧
        ((∃ e, w.spawn s.calls.length = .error e ∧
            (ensurePlugin w name).run s = (.error e, s.callSpawner w entry paths)) ∨
          ∃ child, w.spawn s.calls.length = .ok child ∧ (ensurePlugin w name).run s =
            (.ok true, apply w (.register ⟨name, child⟩) (apply w (.connect name)
              (s.callSpawner w entry paths)))) := by
  unfold ensurePlugin statement
  rw [Program.run_step]
  cases hstart : s.toStart? name with
  | none =>
    refine Or.inl ⟨rfl, ?_⟩
    rw [Program.run_done, apply, hstart]
    rfl
  | some found =>
    obtain ⟨entry, paths⟩ := found
    refine Or.inr ⟨entry, paths, rfl, ?_⟩
    rw [apply, hstart]
    cases hspawn : w.spawn s.calls.length with
    | error e => exact Or.inl ⟨e, rfl, rfl⟩
    | ok child => exact Or.inr ⟨child, rfl, rfl⟩

/-- The call `ensure_plugin` makes. -/
theorem calls_run_ensurePlugin {s : Supervisor} {name : String} {entry : PluginEntry}
    {paths : Paths} (h : s.toStart? name = some (entry, paths)) :
    ((ensurePlugin w name).run s).2.calls = (s.callSpawner w entry paths).calls := by
  rcases run_ensurePlugin (w := w) s name with ⟨hnone, -⟩ | ⟨entry', paths', hsome, hrun⟩
  · rw [hnone] at h
    cases h
  · obtain ⟨rfl, rfl⟩ := Prod.mk.inj (Option.some.inj (h.symm.trans hsome))
    rcases hrun with ⟨e, -, hrun⟩ | ⟨child, -, hrun⟩
    · rw [hrun]
    · rw [hrun]
      rfl

/-- What `ensure_plugin` leaves alone, and the call it may make. -/
structure Frame (s t : Supervisor) : Prop where
  heartbeats : t.heartbeats = s.heartbeats
  calls : s.calls <+: t.calls
  handles : ∀ name ∈ s.handles, name ∈ t.handles

/-- Where nothing is done, nothing is taken away. -/
theorem Frame.refl (s : Supervisor) : Frame s s :=
  ⟨rfl, List.prefix_rfl, fun _ h => h⟩

/-- Two calls that take nothing away take nothing away together. -/
theorem Frame.trans {s t u : Supervisor} (h : Frame s t) (h' : Frame t u) : Frame s u :=
  ⟨h'.heartbeats.trans h.heartbeats, h.calls.trans h'.calls,
    fun name hname => h'.handles name (h.handles name hname)⟩

/-- `ensure_plugin` takes no handle away, gives no heartbeat, and forgets no call of the spawner. -/
theorem frame_ensurePlugin (s : Supervisor) (name : String) :
    Frame s ((ensurePlugin w name).run s).2 := by
  rcases run_ensurePlugin (w := w) s name with
    ⟨-, hrun⟩ | ⟨entry, paths, -, ⟨e, -, hrun⟩ | ⟨child, -, hrun⟩⟩
  · rw [hrun]
    exact .refl s
  · rw [hrun]
    exact ⟨rfl, List.prefix_append .., fun _ h => h⟩
  · rw [hrun]
    exact ⟨rfl, List.prefix_append .., fun _ h => AList.mem_insert _ |>.mpr (Or.inr h)⟩

/-- The loop of `restart_respawn` does not either, by induction on the names. -/
theorem frame_respawn (names : List String) :
    ∀ spawned s, Frame s ((respawn w names spawned).run s).2 := by
  induction names with
  | nil => exact fun _ s => .refl s
  | cons name names ih =>
    intro spawned s
    unfold respawn
    rw [Program.run_bind]
    refine (frame_ensurePlugin (w := w) s name).trans ?_
    split
    · exact .refl _
    · exact ih _ _
    · exact ih _ _

/-- What does not touch the heartbeats keeps the property of those who have one. -/
theorem Frame.watched {s t : Supervisor} (h : Frame s t) (hs : Watched s) : Watched t :=
  fun name hname => h.handles name (hs name (h.heartbeats ▸ hname))

/-- After an `ensure_plugin` that is not harmless, the property is lost for good. -/
theorem socketFirst_ensurePlugin {s t : Supervisor} (hs : Watched s)
    {name : String} (ht : Frame ((ensurePlugin w name).run s).2 t) :
    HarmlessStart w s name ∨ ¬SocketFirst t := by
  by_contra hnot
  rw [not_or, not_not] at hnot
  obtain ⟨hharm, hfirst⟩ := hnot
  apply hharm
  intro hstart
  obtain ⟨⟨entry, paths⟩, hsome⟩ := Option.isSome_iff_exists.mp hstart
  obtain ⟨hheld, rfl, -⟩ := toStart?_eq_some hsome
  have hcalls : (s.callSpawner w entry paths).calls <+: t.calls :=
    calls_run_ensurePlugin hsome ▸ ht.calls
  have hbeats : t.heartbeats = s.heartbeats :=
    ht.heartbeats.trans (frame_ensurePlugin s entry.name).heartbeats
  have hcall := hfirst _ (hcalls.mem (List.mem_append_right _ (List.mem_singleton_self _)))
  refine ⟨of_decide_eq_true hcall.1, fun hok => hheld (hs _ ?_)⟩
  -- it would have a heartbeat, and so be held
  rw [← hbeats]
  exact (hcall.2 hok).1

/-- A harmless `ensure_plugin` does nothing, or makes a call for a socket that is served,
which fails and ends the loop it is in. -/
theorem run_ensurePlugin_of_harmless {s : Supervisor} {name : String}
    (h : HarmlessStart w s name) :
    s.toStart? name = none ∧ (ensurePlugin w name).run s = (.ok false, s) ∨
      ∃ e entry paths, (s.toStart? name).isSome ∧
        (ensurePlugin w name).run s = (.error e, s.callSpawner w entry paths) ∧
        entry.name ∈ s.pluginUdsPaths ∧ ¬(w.spawn s.calls.length).isOk := by
  rcases run_ensurePlugin (w := w) s name with
    hnone | ⟨entry, paths, hsome, ⟨e, hspawn, hrun⟩ | ⟨child, hspawn, -⟩⟩
  · exact Or.inl hnone
  · obtain ⟨hserved, hfails⟩ := h (by rw [hsome]; rfl)
    obtain ⟨-, rfl, -⟩ := toStart?_eq_some hsome
    exact Or.inr ⟨e, entry, paths, by rw [hsome]; rfl, hrun, hserved, hfails⟩
  · obtain ⟨-, hfails⟩ := h (by rw [hsome]; rfl)
    rw [hspawn] at hfails
    exact (hfails rfl).elim

/-- A call to the spawner that fails, for a socket that is served. -/
theorem SocketFirst.callSpawner {s : Supervisor} (h : SocketFirst s) {entry : PluginEntry}
    (paths : Paths) (hserved : entry.name ∈ s.pluginUdsPaths)
    (hfails : ¬(w.spawn s.calls.length).isOk) : SocketFirst (s.callSpawner w entry paths) := by
  intro c hc
  rcases List.mem_append.mp hc with hc | hc
  · exact h c hc
  · obtain rfl := List.mem_singleton.mp hc
    exact ⟨decide_eq_true hserved, fun hok => (hfails hok).elim⟩

/-- What `restart_respawn` does with the names it needs. -/
theorem socketFirst_respawn_iff {s : Supervisor} (h : SocketFirst s) (hs : Watched s)
    (names : List String) :
    ∀ spawned, SocketFirst ((respawn w names spawned).run s).2 ↔
      ∀ name, names.find? (fun name => (s.toStart? name).isSome) = some name →
        HarmlessStart w s name := by
  induction names with
  | nil => exact fun _ => iff_of_true h nofun
  | cons name names ih =>
    intro spawned
    unfold respawn
    rw [Program.run_bind]
    cases hstart : s.toStart? name with
    | none =>
      -- nothing to start: on to the next name
      rcases run_ensurePlugin (w := w) s name with ⟨-, hrun⟩ | ⟨_, _, hsome, -⟩
      · rw [hrun, List.find?_cons_of_neg (by rw [hstart]; exact Bool.false_ne_true)]
        exact ih spawned
      · rw [hstart] at hsome
        cases hsome
    | some found =>
      rw [List.find?_cons_of_pos (by rw [hstart]; rfl)]
      constructor
      · rintro hfirst name' heq
        obtain rfl := Option.some.inj heq
        refine (socketFirst_ensurePlugin hs ?_).resolve_right (not_not_intro hfirst)
        split
        · exact .refl _
        · exact frame_respawn _ _ _
        · exact frame_respawn _ _ _
      · intro hharmless
        rcases run_ensurePlugin_of_harmless (hharmless name rfl) with ⟨hnone, -⟩ |
          ⟨e, entry, paths, -, hrun, hserved, hfails⟩
        · rw [hstart] at hnone
          cases hnone
        · rw [hrun]
          exact h.callSpawner paths hserved hfails

/-! ### `autostart`

For each entry of the manifest that is to be started, `autostart` binds the socket and calls the
spawner, in this order. So it is sound by itself, whatever was done before. -/

/-- What `autostart` counts on from one plugin to the next. -/
structure Ready (s : Supervisor) : Prop where
  socketFirst : SocketFirst s
  paths : s.paths.isSome

/-- The supervisor after `autostart` launched a plugin. -/
def launched (w : World) (s : Supervisor) (entry : PluginEntry) (paths : Paths) (child : ℕ) :
    Supervisor :=
  apply w (.watch entry.name) (apply w (.register ⟨entry.name, child⟩)
    (apply w (.connect entry.name) (s.callSpawner w entry paths)))

/-- A socket that was bound is served. -/
theorem mem_bindAndServe {s : Supervisor} {name : String} (h : s.binds? w name) (paths : Paths) :
    name ∈ (s.bindAndServe w name paths).pluginUdsPaths := by
  rw [binds?, Bool.or_eq_true, decide_eq_true_eq] at h
  unfold bindAndServe
  split_ifs with hmem hbind
  · exact hmem
  · exact (AList.mem_insert _).mpr (Or.inl rfl)
  · exact (h.elim hmem hbind).elim

/-- **What `autostart` does to one plugin after the other**: it binds and, with the socket
served, calls the spawner. -/
theorem autostartEntries_invariant {I : Supervisor → Prop} (paths : Paths)
    (hbind : ∀ s name, I s → I (s.bindAndServe w name paths))
    (hfail : ∀ s entry, I s → entry.name ∈ s.pluginUdsPaths → ¬(w.spawn s.calls.length).isOk →
      I (s.callSpawner w entry paths))
    (hlaunch : ∀ s entry child, I s → entry.name ∈ s.pluginUdsPaths →
      I (launched w s entry paths child)) (entries : List PluginEntry) :
    ∀ count s, I s → I ((autostartEntries w paths entries count).run s).2 := by
  induction entries with
  | nil => exact fun _ _ h => h
  | cons entry entries ih =>
    intro count s h
    unfold autostartEntries statement
    split_ifs with hauto
    · exact ih count s h
    · rw [Program.run_step]
      have hbound := hbind s entry.name h
      split_ifs with hbinds
      · exact ih count _ hbound
      · have hserved := mem_bindAndServe (w := w) (by simpa using hbinds) paths
        rw [Program.run_step]
        dsimp only [apply] at hserved ⊢
        cases hspawn : w.spawn (s.bindAndServe w entry.name paths).calls.length with
        | error e =>
          refine ih count _ (hfail _ entry hbound hserved ?_)
          rw [hspawn]
          exact Bool.false_ne_true
        | ok child => exact ih (count + 1) _ (hlaunch _ entry child hbound hserved)

/-- To bind a socket gives nobody a heartbeat. -/
theorem watched_bindAndServe {s : Supervisor} (h : Watched s) (name : String) (paths : Paths) :
    Watched (s.bindAndServe w name paths) := by
  unfold bindAndServe
  split_ifs
  · exact h
  · exact h
  · exact h

/-- What is watched is held, after `autostart` launched one more plugin. -/
theorem watched_launched {s : Supervisor} (h : Watched s) (entry : PluginEntry) (paths : Paths)
    (child : ℕ) : Watched (launched w s entry paths child) := by
  intro name hname
  rcases (AList.mem_insert _).mp hname with rfl | hname
  · exact (AList.mem_insert _).mpr (Or.inl rfl)
  · exact (AList.mem_insert _).mpr (Or.inr (h name hname))

/-- `autostart` can go on after it has bound a socket. -/
theorem ready_bindAndServe {s : Supervisor} (h : Ready s) (name : String) (paths : Paths) :
    Ready (s.bindAndServe w name paths) := by
  unfold bindAndServe
  split_ifs
  · exact h
  · exact ⟨h.socketFirst, h.paths⟩
  · exact ⟨h.socketFirst, h.paths⟩

/-- A child that is spawned with its socket served, and then kept and watched. -/
theorem ready_launched {s : Supervisor} (h : Ready s) {entry : PluginEntry} (paths : Paths)
    (hserved : entry.name ∈ s.pluginUdsPaths) (child : ℕ) :
    Ready (launched w s entry paths child) := by
  have hmonitors : (launched w s entry paths child).monitors = s.monitors ++ [entry.name] :=
    if_pos h.paths
  refine ⟨fun c hc => ?_, h.paths⟩
  rw [hmonitors]
  rcases List.mem_append.mp hc with hc | hc
  · refine ⟨(h.socketFirst c hc).1, fun hok => ?_⟩
    obtain ⟨hbeat, hmonitor⟩ := (h.socketFirst c hc).2 hok
    exact ⟨(AList.mem_insert _).mpr (Or.inr hbeat), List.mem_append_left _ hmonitor⟩
  · obtain rfl := List.mem_singleton.mp hc
    exact ⟨decide_eq_true hserved, fun _ =>
      ⟨(AList.mem_insert _).mpr (Or.inl rfl), List.mem_append_right _ (List.mem_singleton_self _)⟩⟩

/-- **`autostart` keeps the order of bind, spawn and watch.** -/
theorem socketFirst_autostart {s : Supervisor} (h : SocketFirst s) (paths : Paths) :
    SocketFirst ((autostart w paths).run s).2 := by
  have hready : Ready (s.setPaths paths) := ⟨h, rfl⟩
  have hloop := autostartEntries_invariant (w := w) paths
    (fun _ name h => ready_bindAndServe h name paths)
    (fun _ _ h hserved hfails => ⟨h.socketFirst.callSpawner paths hserved hfails, h.paths⟩)
    (fun _ _ child h hserved => ready_launched h paths hserved child) s.manifest 0 _ hready
  exact hloop.socketFirst

/-- `autostart` gives a heartbeat to what it holds. -/
theorem watched_autostart {s : Supervisor} (h : Watched s) (paths : Paths) :
    Watched ((autostart w paths).run s).2 :=
  autostartEntries_invariant (I := Watched) paths (fun _ name h => watched_bindAndServe h name paths)
    (fun _ _ h _ _ => h) (fun _ entry child h _ => watched_launched h entry paths child)
    s.manifest 0 (s.setPaths paths) h

/-! ### Any sequence of calls

The calls come one after the other here. What each of them needs of those before it is whether a
socket has been bound, and that is decided by the condition on the call. -/

/-- After every call, what has a heartbeat is held. -/
theorem watched_exec {s : Supervisor} (h : Watched s) (c : Call) : Watched (exec w s c) := by
  unfold exec
  cases c with
  | setPaths => exact h
  | bindAndServe name paths => exact watched_bindAndServe h name paths
  | ensurePlugin name =>
    unfold Call.program
    rw [Program.run_bind]
    exact (frame_ensurePlugin s name).watched h
  | restartRespawn db shuffle =>
    unfold Call.program Supervisor.restartRespawn
    rw [Program.run_bind]
    split
    · exact h
    · rw [Program.run_bind]
      exact (frame_respawn _ _ _).watched h
  | autostart paths =>
    unfold Call.program
    rw [Program.run_bind]
    exact watched_autostart h paths

/-- **A call keeps the order of bind, spawn and watch exactly when it is harmless.** -/
theorem socketFirst_exec_iff {s : Supervisor} (h : SocketFirst s) (hs : Watched s) (c : Call) :
    SocketFirst (exec w s c) ↔ HarmlessCall w s c := by
  unfold exec
  cases c with
  | setPaths => exact iff_of_true h trivial
  | bindAndServe name paths =>
    refine iff_of_true ?_ trivial
    change SocketFirst (s.bindAndServe w name paths)
    unfold bindAndServe
    split_ifs
    · exact h
    · exact h
    · exact h
  | ensurePlugin name =>
    unfold Call.program
    rw [Program.run_bind]
    constructor
    · exact fun hfirst => (socketFirst_ensurePlugin hs (.refl _)).resolve_right
        (not_not_intro hfirst)
    · intro hharmless
      rcases run_ensurePlugin_of_harmless hharmless with ⟨-, hrun⟩ |
        ⟨e, entry, paths, -, hrun, hserved, hfails⟩
      · rw [hrun]
        exact h
      · rw [hrun]
        exact h.callSpawner paths hserved hfails
  | restartRespawn db shuffle =>
    unfold Call.program Supervisor.restartRespawn HarmlessCall
    rw [Program.run_bind]
    cases hneeded : Agentd.restartRespawn db with
    | error e =>
      refine iff_of_true h fun needed heq => ?_
      rw [hneeded] at heq
      cases heq
    | ok needed =>
      rw [Program.run_bind]
      refine (socketFirst_respawn_iff h hs _ 0).trans ⟨fun hharmless needed' heq => ?_, ?_⟩
      · rw [hneeded, Except.ok.injEq] at heq
        exact heq ▸ hharmless
      · exact fun hharmless => hharmless needed hneeded
  | autostart paths =>
    unfold Call.program
    rw [Program.run_bind]
    exact iff_of_true (socketFirst_autostart h paths) trivial

/-- **Bind, spawn and watch come in this order throughout a sequence of calls exactly when every
call of it is harmless.** The calls are any, from a supervisor that has begun nothing, and each of
them meets a state that those before it have left. The boot sequence binds first, so it is
`ensure_plugin` alone that can start a child without a socket. -/
theorem socketFirst_iff (w : World) (manifest : List PluginEntry) (l : List Call) :
    Machine.Throughout (exec w) SocketFirst { manifest } l ↔
      Machine.Along (exec w) (HarmlessCall w) { manifest } l := by
  have hwatched : Watched { manifest } := fun name h => (AList.notMem_empty name h).elim
  have hfirst : SocketFirst { manifest } := fun c hc => (List.not_mem_nil hc).elim
  have hinv (s : Supervisor) (c : Call) (hs : Watched s) : Watched (exec w s c) := watched_exec hs c
  exact Machine.throughout_iff_along_of_invariant hinv
    (fun _ c hs h => socketFirst_exec_iff h hs c) l _ hwatched hfirst

/-- The boot sequence with a live session of opencode, as far as plugins go. -/
def bootCalls : List Call :=
  [.setPaths runtimePaths, .restartRespawn liveDb id, .autostart runtimePaths]

set_option maxRecDepth 4000 in
/-- **At boot a child is spawned before its socket is bound.** -/
theorem childFirst :
    ¬∀ (w : World) (manifest : List PluginEntry) (l : List Call),
      Machine.Throughout (exec w) SocketFirst { manifest } l := by
  intro h
  have hlast := (h goodWorld [opencodeEntry] bootCalls).last
  have hcall : ∃ c ∈ (Machine.run (exec goodWorld) { manifest := [opencodeEntry] } bootCalls).calls,
      c.served = false := by decide
  obtain ⟨c, hc, hserved⟩ := hcall
  rw [(hlast c hc).1] at hserved
  cases hserved

end Supervisor

end Agentd
