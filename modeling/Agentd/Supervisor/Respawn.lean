import Agentd.Runs.Owners
import Agentd.Supervisor.SocketFirst

/-!
# One missing binary

When the spawner fails `autostart` goes on with the next plugin, and `restart_respawn` ends with the
error. The plugins it needs come out of a hash set, so which of them it has started by then is a
matter of chance.

The spawner answers by name here (`Agentd.World.spawning`).
`Agentd.Supervisor.restartRespawn_tolerant_iff` – `restart_respawn` does what it is for, in any
order, exactly when the rows can be read and no plugin it has to start fails.

The names come from a set, and so in any order. A spawn that fails ends the loop there, and which
names were visited by then depends on the order; that nothing else does is what the theorem below
has to show. The answers of the spawner are given name by name, so that they are the same in every
order.
-/

namespace Agentd

/-- A world whose spawner answers by name, when the names it is asked for are known. -/
def World.spawning (w : World) (answer : String → Except SpawnError ℕ) (first : ℕ)
    (names : List String) : World :=
  { w with spawn := fun n => names[n - first]?.elim (w.spawn n) answer }

namespace Supervisor

/-- Those of the names that `ensure_plugin` starts. -/
def starting (s : Supervisor) (names : List String) : List String :=
  names.filter fun name => (s.toStart? name).isSome

/-- The spawner answers by name, when the names are visited in this order. -/
def Answers (w : World) (answer : String → Except SpawnError ℕ) (s : Supervisor)
    (names : List String) : Prop :=
  ∀ k name, (s.starting names)[k]? = some name → w.spawn (s.calls.length + k) = answer name

/-- The plugins that were called for, and now have handles. -/
structure Respawned (s : Supervisor) (names : List String) (t : Supervisor) : Prop where
  calls : ∃ new, t.calls = s.calls ++ new ∧ new.map SpawnCall.name = names
  handles : ∀ name, name ∈ t.handles ↔ name ∈ s.handles ∨ name ∈ names

variable {w : World} {answer : String → Except SpawnError ℕ} {s t u : Supervisor}
  {name : String} {names : List String}

/-- No name, no start. -/
theorem Respawned.refl (s : Supervisor) : Respawned s [] s :=
  ⟨⟨[], (List.append_nil _).symm, rfl⟩,
    fun _ => (or_iff_left (List.not_mem_nil)).symm⟩

/-- What is done for one name and for the others is done for all of them. -/
theorem Respawned.trans (h : Respawned s [name] t) (h' : Respawned t names u) :
    Respawned s (name :: names) u := by
  obtain ⟨new, hcalls, hnew⟩ := h.calls
  obtain ⟨new', hcalls', hnew'⟩ := h'.calls
  refine ⟨⟨new ++ new', ?_, ?_⟩, fun other => ?_⟩
  · rw [hcalls', hcalls, List.append_assoc]
  · rw [List.map_append, hnew, hnew', List.singleton_append]
  · rw [h'.handles, h.handles, List.mem_singleton, List.mem_cons, or_assoc]

/-- The spawner can be given such that it answers by name, whatever the order in which it is called.
-/
theorem answers_spawning (w : World) (answer : String → Except SpawnError ℕ) (s : Supervisor)
    (names : List String) :
    Answers (w.spawning answer s.calls.length (s.starting names)) answer s names := by
  intro k name hname
  change Option.elim (s.starting names)[s.calls.length + k - s.calls.length]? _ _ = _
  rw [Nat.add_sub_cancel_left, hname]
  rfl

/-! ### One name after the other

The loop calls `ensure_plugin` for each name, and stops at the first that fails. A name that is
running, or is not in the manifest, is passed over without a call. -/

/-- A plugin that has been started is not started again, and the others are as before. -/
theorem starting_started (entry : PluginEntry) (paths : Paths) (child : ℕ) (hname : name ∉ names) :
    (apply w (.register ⟨name, child⟩) (apply w (.connect name)
      (s.callSpawner w entry paths))).starting names = s.starting names := by
  refine List.filter_congr fun other hother => ?_
  have hne : other ≠ name := fun h => hname (h ▸ hother)
  have hheld : other ∈ s.handles.insert name ⟨name, child⟩ ↔ other ∈ s.handles :=
    (AList.mem_insert _).trans (or_iff_right hne)
  change (ite (other ∈ s.handles.insert name ⟨name, child⟩) _ _ :
      Option (PluginEntry × Paths)).isSome =
    (ite (other ∈ s.handles) _ _ : Option (PluginEntry × Paths)).isSome
  simp only [hheld]
  rfl

/-- **What the loop does with the first name.** -/
theorem run_respawn_cons (spawned : ℕ) (hname : name ∉ names)
    (h : Answers w answer s (name :: names)) :
    (s.starting (name :: names) = s.starting names ∧ Answers w answer s names ∧
      (respawn w (name :: names) spawned).run s = (respawn w names spawned).run s) ∨
    s.starting (name :: names) = name :: s.starting names ∧
      ((∃ e t, answer name = .error e ∧
          (respawn w (name :: names) spawned).run s = (.error e, t)) ∨
        ∃ t, (answer name).isOk ∧ t.starting names = s.starting names ∧ Answers w answer t names ∧
          Respawned s [name] t ∧
          (respawn w (name :: names) spawned).run s = (respawn w names (spawned + 1)).run t) := by
  rw [respawn, Program.run_bind]
  rcases run_ensurePlugin (w := w) s name with ⟨hnone, hrun⟩ | ⟨entry, paths, hsome, hrun⟩
  · have hstarting : s.starting (name :: names) = s.starting names :=
      List.filter_cons_of_neg (by rw [hnone]; exact Bool.false_ne_true)
    refine Or.inl ⟨hstarting, fun k => hstarting ▸ h k, ?_⟩
    rw [hrun]
  · have hstarting : s.starting (name :: names) = name :: s.starting names :=
      List.filter_cons_of_pos (by rw [hsome]; rfl)
    have hanswer := h 0 name (by rw [hstarting]; rfl)
    rw [Nat.add_zero] at hanswer
    refine Or.inr ⟨hstarting, ?_⟩
    rcases hrun with ⟨e, hspawn, hrun⟩ | ⟨child, hspawn, hrun⟩
    · rw [hrun]
      exact Or.inl ⟨e, _, hanswer.symm.trans hspawn, rfl⟩
    · rw [hrun]
      obtain ⟨-, hentry, -⟩ := toStart?_eq_some hsome
      have hsame := starting_started (w := w) (s := s) entry paths child hname
      refine Or.inr ⟨_, by rw [← hanswer, hspawn]; rfl, hsame, fun k other hother => ?_, ?_, rfl⟩
      · have hplace : (s.starting (name :: names))[k + 1]? = some other := by
          rw [hstarting, List.getElem?_cons_succ, ← hsame]
          exact hother
        rw [← h (k + 1) other hplace]
        refine congrArg w.spawn ?_
        change (s.calls ++ [_]).length + k = _
        rw [List.length_append, List.length_singleton]
        omega
      · refine ⟨⟨_, rfl, congrArg (fun name => [name]) hentry⟩, fun other => ?_⟩
        change other ∈ s.handles.insert name _ ↔ _
        rw [AList.mem_insert, List.mem_singleton, or_comm]

/-- The loop, when no start fails. -/
theorem run_respawn_of_isOk (names : List String) : ∀ spawned s, names.Nodup →
    Answers w answer s names → (∀ name ∈ s.starting names, (answer name).isOk) →
      ∃ t, (respawn w names spawned).run s = (.ok (spawned + (s.starting names).length), t) ∧
        Respawned s (s.starting names) t := by
  induction names with
  | nil => exact fun spawned s _ _ _ => ⟨s, rfl, .refl s⟩
  | cons name names ih =>
    intro spawned s hnodup hanswers hok
    rw [List.nodup_cons] at hnodup
    rcases run_respawn_cons spawned hnodup.1 hanswers with
      ⟨hstarting, hanswers', hrun⟩ | ⟨hstarting, ⟨e, t, herror, -⟩ |
        ⟨t, -, hsame, hanswers', hrespawned, hrun⟩⟩
    · rw [hrun, hstarting]
      exact ih spawned s hnodup.2 hanswers' (hstarting ▸ hok)
    · have hname := hok name (hstarting ▸ List.mem_cons_self)
      rw [herror] at hname
      cases hname
    · obtain ⟨u, hu, hrespawned'⟩ := ih (spawned + 1) t hnodup.2 hanswers' fun other hother =>
        hok other (hstarting ▸ List.mem_cons_of_mem _ (hsame ▸ hother))
      rw [hsame] at hu hrespawned'
      refine ⟨u, ?_, hstarting ▸ hrespawned.trans hrespawned'⟩
      rw [hrun, hu, hstarting, List.length_cons, Nat.add_right_comm, Nat.add_assoc]

/-- The loop, when a start fails. -/
theorem run_respawn_of_fails (names : List String) : ∀ spawned s, names.Nodup →
    Answers w answer s names → (∃ name ∈ s.starting names, ¬(answer name).isOk) →
      ∃ e t, (respawn w names spawned).run s = (.error e, t) := by
  induction names with
  | nil =>
    rintro spawned s - - ⟨name, hname, -⟩
    exact absurd hname List.not_mem_nil
  | cons name names ih =>
    intro spawned s hnodup hanswers hfails
    rw [List.nodup_cons] at hnodup
    rcases run_respawn_cons spawned hnodup.1 hanswers with
      ⟨hstarting, hanswers', hrun⟩ | ⟨hstarting, ⟨e, t, -, hrun⟩ |
        ⟨t, hok, hsame, hanswers', -, hrun⟩⟩
    · rw [hrun]
      exact ih spawned s hnodup.2 hanswers' (hstarting ▸ hfails)
    · exact ⟨e, t, hrun⟩
    · obtain ⟨other, hother, hbad⟩ := hfails
      rw [hstarting, List.mem_cons] at hother
      rw [hrun]
      refine ih (spawned + 1) t hnodup.2 hanswers' ⟨other, ?_, hbad⟩
      rcases hother with rfl | hmem
      · exact absurd hok hbad
      · exact hsame ▸ hmem

/-! ### What `restart_respawn` is for

It is to start every plugin that owns a live session and is not running, to leave the others alone,
and to answer how many it has started. It does so exactly when the sessions can be listed and no
spawn fails of those it has to make. -/

/-- The plugin is in the manifest, owns a session that has not finished, and is not
running. -/
structure ToRespawn (s : Supervisor) (db : Db) (name : String) : Prop where
  needed : db.Needs name
  listed : ∃ entry ∈ s.manifest, entry.name = name
  idle : name ∉ s.handles

/-- **Every plugin that has to be started is called for, those that can be started are, and their
number is returned.** Nothing here depends on an order. -/
structure Tolerant (answer : String → Except SpawnError ℕ) (s : Supervisor) (db : Db)
    (result : Option ℕ × Supervisor) : Prop where
  attempts : ∀ name, (∃ c ∈ result.2.calls.drop s.calls.length, c.name = name) ↔
    ToRespawn s db name
  starts : ∀ name, name ∈ result.2.handles ↔
    name ∈ s.handles ∨ ToRespawn s db name ∧ (answer name).isOk
  count : ∃ started : List String, started.Nodup ∧
    (∀ name, name ∈ started ↔ ToRespawn s db name ∧ (answer name).isOk) ∧
    result.1 = some started.length

/-- Every plugin is needed once. -/
theorem nodup_restartRespawn {db : Db} (h : Agentd.restartRespawn db = .ok names) :
    names.Nodup := by
  obtain ⟨active, -, rfl⟩ := Except.map_eq_ok.mp h
  exact List.nodup_dedup _

/-- The names `restart_respawn` visits, in their order. -/
def visited (db : Db) (shuffle : List String → List String) : List String :=
  (Agentd.restartRespawn db).toOption.elim [] shuffle

/-- `restart_respawn` with a spawner that answers by name. -/
def respawnRun (w : World) (answer : String → Except SpawnError ℕ) (s : Supervisor) (db : Db)
    (shuffle : List String → List String) : Option ℕ × Supervisor :=
  (restartRespawn (w.spawning answer s.calls.length (s.starting (visited db shuffle))) db
    shuffle).run s

/-- A plugin is to be started when it is not running and the manifest has it. -/
theorem isSome_toStart?_iff (s : Supervisor) (paths : Paths) (name : String) :
    ((s.setPaths paths).toStart? name).isSome ↔
      name ∉ s.handles ∧ ∃ entry ∈ s.manifest, entry.name = name := by
  change (ite (name ∈ s.handles) _ _ : Option (PluginEntry × Paths)).isSome ↔ _
  split_ifs with hheld
  · exact iff_of_false Bool.false_ne_true fun h => h.1 hheld
  · rw [and_iff_right hheld, Option.isSome_bind]
    simp [setPaths]

/-- The plugins that are started are those that have to be. -/
theorem mem_starting_iff {db : Db} {paths : Paths}
    (hneeded : ∀ name, name ∈ names ↔ db.Needs name) :
    name ∈ (s.setPaths paths).starting names ↔ ToRespawn (s.setPaths paths) db name := by
  rw [starting, List.mem_filter, isSome_toStart?_iff, hneeded]
  exact ⟨fun h => ⟨h.1, h.2.2, h.2.1⟩, fun h => ⟨h.needed, h.idle, h.listed⟩⟩

/-- **It does what it is for exactly when no such spawn fails**, in any order of the names. -/
theorem tolerant_iff {paths : Paths} {db : Db} {shuffle : List String → List String}
    (hshuffle : ∀ l, (shuffle l).Perm l) :
    Tolerant answer (s.setPaths paths) db (respawnRun w answer (s.setPaths paths) db shuffle) ↔
      (∀ row ∈ db.sessions.rows, row.Decodes) ∧
        ∀ name, ToRespawn (s.setPaths paths) db name → (answer name).isOk := by
  rw [← exists_restartRespawn_iff, respawnRun, restartRespawn]
  cases hneeded : Agentd.restartRespawn db with
  | error e =>
    refine iff_of_false (fun h => ?_) ?_
    · obtain ⟨_, -, -, hnone⟩ := h.count
      cases hnone
    · rintro ⟨⟨_, hok⟩, -⟩
      cases hok
  | ok needed =>
    have hvisited : visited db shuffle = shuffle needed := by
      rw [visited, hneeded]
      rfl
    have hnodup : (shuffle needed).Nodup :=
      (hshuffle needed).nodup_iff.mpr (nodup_restartRespawn hneeded)
    have hstarting {name : String} : name ∈ (s.setPaths paths).starting (shuffle needed) ↔
        ToRespawn (s.setPaths paths) db name :=
      mem_starting_iff fun other =>
        (hshuffle needed).mem_iff.trans (mem_restartRespawn_iff hneeded)
    have hanswers := answers_spawning w answer (s.setPaths paths) (shuffle needed)
    rw [and_iff_right ⟨needed, rfl⟩, hvisited]
    dsimp only
    rw [Program.run_bind]
    by_cases hok : ∀ name, ToRespawn (s.setPaths paths) db name → (answer name).isOk
    · obtain ⟨t, ht, hrespawned⟩ := run_respawn_of_isOk _ 0 _ hnodup hanswers
        fun name hname => hok name (hstarting.mp hname)
      obtain ⟨new, hcalls, hnew⟩ := hrespawned.calls
      have hstarted : ∀ name, ToRespawn (s.setPaths paths) db name ∧ (answer name).isOk ↔
          name ∈ (s.setPaths paths).starting (shuffle needed) := fun name =>
        (and_iff_left_of_imp (hok name)).trans hstarting.symm
      rw [ht, Program.run_done]
      refine iff_of_true ⟨fun name => ?_, fun name => ?_,
        (s.setPaths paths).starting (shuffle needed), hnodup.filter _, fun name => ?_, ?_⟩ hok
      · rw [hcalls, List.drop_left, ← hstarting, ← hnew, List.mem_map]
      · rw [hrespawned.handles, hstarted]
      · exact (hstarted name).symm
      · rw [Nat.zero_add]
        rfl
    · obtain ⟨e, t, ht⟩ := run_respawn_of_fails _ 0 _ hnodup hanswers (by
        rw [not_forall] at hok
        obtain ⟨name, hname⟩ := hok
        rw [Classical.not_imp] at hname
        exact ⟨name, hstarting.mpr hname.1, hname.2⟩)
      rw [ht, Program.run_done]
      refine iff_of_false (fun h => ?_) hok
      obtain ⟨_, -, -, hnone⟩ := h.count
      cases hnone

/-- **`restart_respawn` does what it is for, in any order, exactly when the rows can be read and no
plugin it has to start fails.** The order is that in which a set is gone through, and it can be any
permutation. One row that cannot be read keeps all the plugins from being started, and one plugin
that fails keeps those after it. -/
theorem restartRespawn_tolerant_iff (w : World) (answer : String → Except SpawnError ℕ)
    (s : Supervisor) (paths : Paths) (db : Db) (shuffle : List String → List String)
    (hshuffle : ∀ l, (shuffle l).Perm l) :
    Tolerant answer (s.setPaths paths) db (respawnRun w answer (s.setPaths paths) db shuffle) ↔
      (∀ row ∈ db.sessions.rows, row.Decodes) ∧
        ∀ name, ToRespawn (s.setPaths paths) db name → (answer name).isOk :=
  tolerant_iff hshuffle

/-- Two runs of this kind return the same number and hold the same plugins. -/
theorem Tolerant.agree {db : Db} {result result' : Option ℕ × Supervisor}
    (h : Tolerant answer s db result) (h' : Tolerant answer s db result') :
    result.1 = result'.1 ∧ ∀ name, name ∈ result.2.handles ↔ name ∈ result'.2.handles := by
  obtain ⟨started, hnodup, hmem, hcount⟩ := h.count
  obtain ⟨started', hnodup', hmem', hcount'⟩ := h'.count
  have hperm : started.Perm started' :=
    (List.perm_ext_iff_of_nodup hnodup hnodup').mpr fun name => (hmem name).trans (hmem' name).symm
  rw [hcount, hcount', hperm.length_eq]
  exact ⟨rfl, fun name => (h.starts name).trans (h'.starts name).symm⟩

/-- **The order does not matter**, when the rows can be read and no plugin fails. -/
theorem respawnRun_agree (w : World) {paths : Paths} {db : Db}
    {shuffle shuffle' : List String → List String} (hshuffle : ∀ l, (shuffle l).Perm l)
    (hshuffle' : ∀ l, (shuffle' l).Perm l) (hread : ∀ row ∈ db.sessions.rows, row.Decodes)
    (hok : ∀ name, ToRespawn (s.setPaths paths) db name → (answer name).isOk) :
    (respawnRun w answer (s.setPaths paths) db shuffle).1 =
        (respawnRun w answer (s.setPaths paths) db shuffle').1 ∧
      ∀ name, name ∈ (respawnRun w answer (s.setPaths paths) db shuffle).2.handles ↔
        name ∈ (respawnRun w answer (s.setPaths paths) db shuffle').2.handles :=
  ((tolerant_iff hshuffle).mpr ⟨hread, hok⟩).agree ((tolerant_iff hshuffle').mpr ⟨hread, hok⟩)

/-- A live session of opencode, and its plugin. -/
theorem restartRespawn_tolerant_opencode :
    Tolerant (fun _ => .ok 7) (Supervisor.setPaths { manifest := [opencodeEntry] } runtimePaths)
      liveDb (respawnRun goodWorld (fun _ => .ok 7)
        (Supervisor.setPaths { manifest := [opencodeEntry] } runtimePaths) liveDb id) ↔
      (∀ row ∈ liveDb.sessions.rows, row.Decodes) ∧
        ∀ name, ToRespawn (Supervisor.setPaths { manifest := [opencodeEntry] } runtimePaths) liveDb
          name → (Except.ok 7 : Except SpawnError ℕ).isOk :=
  restartRespawn_tolerant_iff goodWorld _ { manifest := [opencodeEntry] } runtimePaths liveDb id
    fun _ => .refl _

set_option maxRecDepth 4000 in
/-- The binary of opencode is missing, and the error is returned. -/
theorem not_tolerant : ¬∀ (w : World) (answer : String → Except SpawnError ℕ) (s : Supervisor)
    (paths : Paths) (db : Db) (shuffle : List String → List String),
    (∀ l, (shuffle l).Perm l) →
      Tolerant answer (s.setPaths paths) db
        (respawnRun w answer (s.setPaths paths) db shuffle) := by
  intro h
  obtain ⟨started, -, -, hcount⟩ := (h goodWorld
    (fun _ => .error (.notFound opencodeEntry.binary)) { manifest := [opencodeEntry] } runtimePaths
    liveDb id fun _ => .refl _).count
  have hnone : (respawnRun goodWorld (fun _ => .error (.notFound opencodeEntry.binary))
      (Supervisor.setPaths { manifest := [opencodeEntry] } runtimePaths) liveDb id).1 = none := by
    decide
  rw [hnone] at hcount
  cases hcount

end Supervisor

end Agentd
