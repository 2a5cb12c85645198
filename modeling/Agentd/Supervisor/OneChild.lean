import Agentd.Handlers.Step
import Agentd.Supervisor.Model
import Mathlib.Data.List.Nodup

/-!
# One child for each plugin

`ensure_plugin` looks whether it holds a handle before it calls the spawner, `autostart` does
not. So at boot, where `restart_respawn` comes first, a plugin that owns a live session is
started twice: it is twice in `connected`, and its second handle replaces the first.

Even a start that is the only one leaves the two out of step for a while: the name is pushed to
`connected` under one lock, and the handle inserted into `handles` under another. So that
`connected` lists the keys of `handles` at every point takes that no start is kept
(`Agentd.Supervisor.Pushes`). That it does so whenever no call is between the two insertions, and
that no plugin is started twice, takes that the spawner is called for names that are neither held
nor about to be (`Agentd.Supervisor.Unclaimed`). `Agentd.Supervisor.one_child` has both, for any
interleaving.
-/

namespace Agentd

namespace Supervisor

/-! ### Calls at the same time

The daemon serves its clients in tasks, and a task gives way wherever it awaits: between any two
statements of a call others may run theirs. So a call is a program of statements, each of which is
done under one lock, and a run is any interleaving of any number of them. -/

/-- A call to the supervisor. -/
inductive Call
  | setPaths (paths : Paths)
  | bindAndServe (name : String) (paths : Paths)
  | ensurePlugin (name : String)
  | restartRespawn (db : Db) (shuffle : List String → List String)
  | autostart (paths : Paths)

/-- The statements of a call. -/
def Call.program (w : World) : Call → Program Op Supervisor Unit
  | .setPaths paths => statement w (.setPaths paths) fun _ => .done ()
  | .bindAndServe name paths => statement w (.bindAndServe name paths) fun _ => .done ()
  | .ensurePlugin name => (Supervisor.ensurePlugin w name).bind fun _ => .done ()
  | .restartRespawn db shuffle => (Supervisor.restartRespawn w db shuffle).bind fun _ => .done ()
  | .autostart paths => (Supervisor.autostart w paths).bind fun _ => .done ()

/-- What a task of the daemon does with the supervisor: a call, or the boot sequence. -/
inductive Task
  | single (c : Call)
  | boot (db : Db) (shuffle : List String → List String) (paths : Paths)

/-- The statements of a task. -/
def Task.program (w : World) : Task → Program Op Supervisor Unit
  | .single c => c.program w
  | .boot db shuffle paths => (Supervisor.boot w db shuffle paths).bind fun _ => .done ()

/-- `connected` is a duplicate-free enumeration of the keys of `handles`. -/
def Enumerates (s : Supervisor) : Prop :=
  s.connected.Perm s.handles.keys

/-- The spawner was never called for a name whose handle was held. -/
def NeverHeld (s : Supervisor) : Prop :=
  ∀ c ∈ s.calls, c.held = false

/-- `connected_count`. -/
def connectedCount (s : Supervisor) : ℕ :=
  s.connected.length

/-- Then `connected_count` is the number of running plugins. -/
theorem Enumerates.connectedCount {s : Supervisor} (h : Enumerates s) :
    s.connectedCount = s.handles.keys.length :=
  h.length_eq

/-- No plugin has been started twice, and `connected` lists those that run. -/
structure Counted (s : Supervisor) : Prop where
  neverHeld : NeverHeld s
  nodup : s.connected.Nodup
  enumerates : Enumerates s
  count : s.connectedCount = s.handles.keys.length

/-- Without duplicates, to enumerate the keys is to have the same members. -/
theorem enumerates_iff {s : Supervisor} (h : s.connected.Nodup) :
    Enumerates s ↔ ∀ name, name ∈ s.connected ↔ name ∈ s.handles :=
  List.perm_ext_iff_of_nodup h s.handles.nodupKeys

/-! ### What a statement does

Of the statements one calls the spawner, one pushes to `connected` and one inserts into `handles`.
The others leave these three alone. What a statement writes is read off by its label, so that one
can say of a task what it is about to do. -/

/-- The two statements that follow when a child was spawned. -/
def Op.inserts : Op → Bool
  | .connect _ | .register _ => true
  | _ => false

/-- The plugin for which a statement calls the spawner. -/
def Op.starts? (s : Supervisor) : Op → Option String
  | .ensure name => (s.toStart? name).map fun _ => name
  | .launch entry _ => some entry.name
  | _ => none

/-- What is started has the name asked for. -/
theorem toStart?_eq_some {s : Supervisor} {name : String} {entry : PluginEntry} {paths : Paths}
    (h : s.toStart? name = some (entry, paths)) :
    name ∉ s.handles ∧ entry.name = name ∧ s.paths = some paths := by
  unfold toStart? at h
  split_ifs at h with hheld
  obtain ⟨found, hfound, h⟩ := Option.bind_eq_some_iff.mp h
  obtain ⟨paths', hpaths, h⟩ := Option.map_eq_some_iff.mp h
  obtain ⟨rfl, rfl⟩ := Prod.mk.inj h
  exact ⟨hheld, by simpa using List.find?_some hfound, hpaths⟩

/-- The call a statement makes to the spawner. -/
theorem calls_apply (w : World) (op : Op) (s : Supervisor) :
    op.starts? s = none ∧ (apply w op s).calls = s.calls ∨
      ∃ c, op.starts? s = some c.name ∧ (apply w op s).calls = s.calls ++ [c] ∧
        c.held = (c.name ∈ s.handles) ∧ c.served = (c.name ∈ s.pluginUdsPaths) ∧
        c.spawned = (w.spawn s.calls.length).isOk := by
  cases op with
  | setPaths | connect | register | watch => exact Or.inl ⟨rfl, rfl⟩
  | bindAndServe name paths =>
    refine Or.inl ⟨rfl, ?_⟩
    dsimp only [apply, bindAndServe]
    split_ifs <;> rfl
  | launch entry paths =>
    refine Or.inr ⟨_, rfl, rfl, ?_, ?_, rfl⟩ <;> simp
  | ensure name =>
    cases h : s.toStart? name with
    | none =>
      refine Or.inl ⟨by rw [Op.starts?, h]; rfl, ?_⟩
      rw [apply, h]
      rfl
    | some found =>
      obtain ⟨entry, paths⟩ := found
      obtain ⟨-, rfl, -⟩ := toStart?_eq_some h
      rw [Op.starts?, apply, h]
      refine Or.inr ⟨_, rfl, rfl, ?_, ?_, rfl⟩ <;> simp

/-- What a statement does to `connected`. -/
theorem connected_apply (w : World) (op : Op) (s : Supervisor) :
    (apply w op s).connected =
      match op with
      | .connect name => s.connected ++ [name]
      | _ => s.connected := by
  cases op with
  | setPaths | connect | register | watch | launch => rfl
  | bindAndServe name paths =>
    dsimp only [apply, bindAndServe]
    split_ifs <;> rfl
  | ensure name =>
    dsimp only [apply]
    cases s.toStart? name <;> rfl

/-- What a statement does to `handles`. -/
theorem handles_apply (w : World) (op : Op) (s : Supervisor) :
    (apply w op s).handles =
      match op with
      | .register handle => s.handles.insert handle.name handle
      | _ => s.handles := by
  cases op with
  | setPaths | connect | register | watch | launch => rfl
  | bindAndServe name paths =>
    dsimp only [apply, bindAndServe]
    split_ifs <;> rfl
  | ensure name =>
    dsimp only [apply]
    cases s.toStart? name <;> rfl

/-! ### What comes after a statement

A call that has a child is bound to push its name next, and then to insert its handle, and a call
that has none does neither. This is how the tasks are paced: it is what a task is about to do that
says how far its start has come, and nothing has to be recorded besides. -/

section Paced

variable {ρ ρ' : Type} (w : World)

/-- A child was spawned for `name`, and its handle is not inserted yet. -/
def InFlight (x : Program Op Supervisor ρ) (name : String) : Prop :=
  x.label? = some (.connect name) ∨ ∃ handle, x.label? = some (.register handle) ∧ handle.name = name

/-- Nothing is in flight. -/
def Calm (x : Program Op Supervisor ρ) : Prop :=
  ∀ name, ¬InFlight x name

/-- **What a statement is followed by**: a name is pushed only after a child was spawned for
it, and its handle is inserted after that and not otherwise. -/
structure Paced (op : Op) (write : Supervisor → Supervisor)
    (next : Supervisor → Program Op Supervisor ρ) : Prop where
  write_eq : write = apply w op
  connect : ∀ {s name}, (next s).label? = some (.connect name) →
    op.starts? s = some name ∧ (w.spawn s.calls.length).isOk
  register : ∀ {s handle}, (next s).label? = some (.register handle) → op = .connect handle.name
  registers : ∀ {name}, op = .connect name → ∀ s, ∃ handle,
    (next s).label? = some (.register handle) ∧ handle.name = name

variable {w}

/-- A call that is over inserts nothing any more. -/
theorem calm_done (r : ρ) : Calm (.done r : Program Op Supervisor ρ) := by
  rintro name (h | ⟨handle, h, -⟩)
  · cases h
  · cases h

/-- What is followed by nothing in flight is in order, unless it is a push. -/
theorem paced_of_calm {op : Op} {next : Supervisor → Program Op Supervisor ρ}
    (hop : ∀ name, op ≠ .connect name) (h : ∀ s, Calm (next s)) : Paced w op (apply w op) next where
  write_eq := rfl
  connect hlabel := (h _ _ (Or.inl hlabel)).elim
  register hlabel := (h _ _ (Or.inr ⟨_, hlabel, rfl⟩)).elim
  registers heq := (hop _ heq).elim

/-- What comes after the end of a call starts with nothing in flight. -/
theorem Paced.bind {op : Op} {write : Supervisor → Supervisor}
    {next : Supervisor → Program Op Supervisor ρ} (h : Paced w op write next)
    {f : ρ → Program Op Supervisor ρ'} (hf : ∀ r, Calm (f r)) :
    Paced w op write fun s => (next s).bind f where
  write_eq := h.write_eq
  connect hlabel := by
    rcases Program.label?_bind_eq_some hlabel with hlabel | ⟨r, -, hlabel⟩
    · exact h.connect hlabel
    · exact (hf r _ (Or.inl hlabel)).elim
  register hlabel := by
    rcases Program.label?_bind_eq_some hlabel with hlabel | ⟨r, -, hlabel⟩
    · exact h.register hlabel
    · exact (hf r _ (Or.inr ⟨_, hlabel, rfl⟩)).elim
  registers heq s := by
    obtain ⟨handle, hlabel, hname⟩ := h.registers heq s
    exact ⟨handle, Program.label?_bind_of_some hlabel f, hname⟩

/-- A call that goes on with calls that insert nothing inserts nothing. -/
theorem Calm.bind {x : Program Op Supervisor ρ} (h : Calm x) {f : ρ → Program Op Supervisor ρ'}
    (hf : ∀ r, Calm (f r)) : Calm (x.bind f) := by
  rintro name (hlabel | ⟨handle, hlabel, hname⟩)
  · rcases Program.label?_bind_eq_some hlabel with hlabel | ⟨r, -, hlabel⟩
    · exact h _ (Or.inl hlabel)
    · exact hf r _ (Or.inl hlabel)
  · rcases Program.label?_bind_eq_some hlabel with hlabel | ⟨r, -, hlabel⟩
    · exact h _ (Or.inr ⟨_, hlabel, rfl⟩)
    · exact hf r _ (Or.inr ⟨_, hlabel, rfl⟩)

/-- A statement that inserts nothing pushes nothing. -/
theorem Op.ne_connect {op : Op} (h : op.inserts = false) (name : String) : op ≠ .connect name := by
  rintro rfl
  cases h

/-- A program that starts with a statement other than the two insertions. -/
theorem calm_statement {op : Op} (hop : op.inserts = false)
    (next : Supervisor → Program Op Supervisor ρ) : Calm (statement w op next) := by
  rintro name (h | ⟨handle, h, -⟩)
  · exact Op.ne_connect hop _ (Option.some.inj h)
  · obtain rfl := Option.some.inj h
    cases hop

variable (w)

/-- A program whose statements follow each other as they should, with nothing in flight at
its start. -/
structure WellPaced (x : Program Op Supervisor ρ) : Prop where
  each : x.Each (Paced w)
  calm : Calm x

variable {w}

/-- A call that is over is paced: nothing follows. -/
theorem wellPaced_done (r : ρ) : WellPaced w (.done r : Program Op Supervisor ρ) :=
  ⟨trivial, calm_done r⟩

/-- A paced call that goes on with paced calls is paced. -/
theorem WellPaced.bind {x : Program Op Supervisor ρ} (h : WellPaced w x)
    {f : ρ → Program Op Supervisor ρ'} (hf : ∀ r, WellPaced w (f r)) : WellPaced w (x.bind f) :=
  ⟨h.each.bind (fun _ _ _ hP => hP.bind fun r => (hf r).calm) fun r => (hf r).each,
    h.calm.bind fun r => (hf r).calm⟩

/-- A statement that puts nothing in flight, and a program. -/
theorem wellPaced_statement {op : Op} (hop : op.inserts = false)
    {next : Supervisor → Program Op Supervisor ρ} (h : ∀ s, WellPaced w (next s)) :
    WellPaced w (statement w op next) :=
  ⟨⟨paced_of_calm (Op.ne_connect hop) fun s => (h s).calm, fun s => (h s).each⟩,
    calm_statement hop next⟩

/-- The two insertions, and a program. -/
theorem each_keepHandle (handle : PluginHandle) {rest : Program Op Supervisor ρ}
    (h : WellPaced w rest) : (keepHandle w handle rest).Each (Paced w) := by
  have hregister : Paced w (.register handle) (apply w (.register handle)) fun _ => rest :=
    paced_of_calm (fun name heq => by cases heq) fun _ => h.calm
  refine ⟨⟨rfl, fun hlabel => ?_, fun hlabel => ?_, fun heq _ => ?_⟩, fun _ =>
    ⟨hregister, fun _ => h.each⟩⟩
  · cases hlabel
  · obtain rfl := Op.register.inj (Option.some.inj hlabel)
    rfl
  · exact ⟨handle, rfl, Op.connect.inj heq⟩

/-- A call to the spawner, and the two insertions when a child was spawned. -/
theorem wellPaced_start {op : Op} (hop : op.inserts = false)
    {next : Supervisor → Program Op Supervisor ρ}
    (h : ∀ s, WellPaced w (next s) ∨ ∃ child name rest, op.starts? s = some name ∧
      w.spawn s.calls.length = .ok child ∧ WellPaced w rest ∧
      next s = keepHandle w ⟨name, child⟩ rest) : WellPaced w (statement w op next) := by
  refine ⟨⟨⟨rfl, ?_, ?_, fun heq => (Op.ne_connect hop _ heq).elim⟩, fun s => ?_⟩,
    calm_statement hop next⟩
  · intro s name hlabel
    rcases h s with hcalm | ⟨child, name', rest, hstarts, hok, -, hnext⟩
    · exact (hcalm.calm _ (Or.inl hlabel)).elim
    · rw [hnext] at hlabel
      obtain rfl := Op.connect.inj (Option.some.inj hlabel)
      rw [hok]
      exact ⟨hstarts, rfl⟩
  · intro s handle hlabel
    rcases h s with hcalm | ⟨child, name', rest, -, -, -, hnext⟩
    · exact (hcalm.calm _ (Or.inr ⟨_, hlabel, rfl⟩)).elim
    · rw [hnext] at hlabel
      cases hlabel
  · rcases h s with hcalm | ⟨child, name', rest, -, -, hrest, hnext⟩
    · exact hcalm.each
    · rw [hnext]
      exact each_keepHandle _ hrest

/-! ### The calls

Every call of the supervisor is paced, as its statements show. -/

/-- `ensure_plugin` starts at most one plugin, and pushes and inserts after its spawn. -/
theorem wellPaced_ensurePlugin (name : String) : WellPaced w (ensurePlugin w name) := by
  refine wellPaced_start rfl fun s => ?_
  cases hstart : s.toStart? name with
  | none => exact Or.inl (wellPaced_done _)
  | some found =>
    cases hspawn : w.spawn s.calls.length with
    | error e => exact Or.inl (wellPaced_done _)
    | ok child =>
      exact Or.inr ⟨child, name, _, by rw [Op.starts?, hstart]; rfl, rfl, wellPaced_done _, rfl⟩

/-- The loop over the names starts one plugin after the other, by induction on the names. -/
theorem wellPaced_respawn (names : List String) :
    ∀ spawned, WellPaced w (respawn w names spawned) := by
  induction names with
  | nil => exact fun spawned => wellPaced_done _
  | cons name names ih =>
    intro spawned
    refine (wellPaced_ensurePlugin name).bind fun
      | .error e => wellPaced_done _
      | .ok true => ih _
      | .ok false => ih _

/-- `restart_respawn` reads the sessions first, which is no statement of the supervisor. -/
theorem wellPaced_restartRespawn (db : Db) (shuffle : List String → List String) :
    WellPaced w (restartRespawn w db shuffle) := by
  unfold restartRespawn
  split
  · exact wellPaced_done _
  · exact (wellPaced_respawn _ _).bind fun _ => wellPaced_done _

/-- The loop of `autostart` starts one entry after the other, whether or not it is held. -/
theorem wellPaced_autostartEntries (paths : Paths) (entries : List PluginEntry) :
    ∀ count, WellPaced w (autostartEntries w paths entries count) := by
  induction entries with
  | nil => exact fun count => wellPaced_done _
  | cons entry entries ih =>
    intro count
    unfold autostartEntries
    split_ifs
    · exact ih count
    · refine wellPaced_statement rfl fun s => ?_
      split_ifs
      · exact ih count
      · refine wellPaced_start rfl fun s => ?_
        cases hspawn : w.spawn s.calls.length with
        | error e => exact Or.inl (ih count)
        | ok child =>
          exact Or.inr ⟨child, entry.name, _, rfl, rfl, wellPaced_statement rfl fun _ => ih _, rfl⟩

/-- `autostart` sets its paths and enters the loop. -/
theorem wellPaced_autostart (paths : Paths) : WellPaced w (autostart w paths) :=
  wellPaced_statement rfl fun _ => wellPaced_autostartEntries paths _ _

/-- A boot calls `restart_respawn` and then `autostart`, and stops between them if the first fails.
-/
theorem wellPaced_boot (db : Db) (shuffle : List String → List String) (paths : Paths) :
    WellPaced w (boot w db shuffle paths) := by
  refine wellPaced_statement rfl fun _ =>
    (wellPaced_restartRespawn db shuffle).bind fun
      | none => wellPaced_done _
      | some _ => (wellPaced_autostart paths).bind fun _ => wellPaced_done _

/-- Every call is paced. -/
theorem wellPaced_call (call : Call) : WellPaced w (call.program w) := by
  cases call with
  | setPaths | bindAndServe => exact wellPaced_statement rfl fun _ => wellPaced_done _
  | ensurePlugin name => exact (wellPaced_ensurePlugin name).bind fun _ => wellPaced_done _
  | restartRespawn db shuffle =>
    exact (wellPaced_restartRespawn db shuffle).bind fun _ => wellPaced_done _
  | autostart paths => exact (wellPaced_autostart paths).bind fun _ => wellPaced_done _

/-- Every task is paced, hence every task at any moment of a run. -/
theorem wellPaced_task (task : Task) : WellPaced w (task.program w) := by
  cases task with
  | single c => exact wellPaced_call c
  | boot db shuffle paths => exact (wellPaced_boot db shuffle paths).bind fun _ => wellPaced_done _

end Paced

/-! ### Any interleaving

Two invariants, for the two halves of the result. As long as nothing is pushed nothing is held, and
all is trivially in order (`Agentd.Supervisor.Empty`); the first push ends that, and at once
`connected` has a name that `handles` has not. As long as the spawner is called for names that are
free, each name is connected once, and is held unless its start is under way
(`Agentd.Supervisor.Tidy`). -/

section Pool

variable {ι ρ : Type} (w : World)

/-- The next statement of a call is no call to the spawner for a name that is held, nor one
that spawns a second child for a name in flight. -/
def Unclaimed (s : Program.Pool ι Op Supervisor ρ) (p : ι) : Prop :=
  ∀ op name, (s.program p).label? = some op → op.starts? s.store = some name →
    name ∉ s.store.handles ∧
      ((w.spawn s.store.calls.length).isOk → ∀ q, ¬InFlight (s.program q) name)

/-- The next statement of a call pushes the name of a plugin that it has started. -/
def Pushes (s : Program.Pool ι Op Supervisor ρ) (p : ι) : Prop :=
  ∃ name, (s.program p).label? = some (.connect name)

/-- What holds of the supervisor as long as nothing that was started is kept. -/
structure Empty (s : Program.Pool ι Op Supervisor ρ) : Prop where
  paced : ∀ q, (s.program q).Each (Paced w)
  neverHeld : NeverHeld s.store
  connected : s.store.connected = []
  handles : s.store.handles = ∅
  registering : ∀ q handle, (s.program q).label? ≠ some (.register handle)

/-- What holds of the supervisor and the calls at work on it as long as all that is started
is unclaimed. -/
structure Tidy (s : Program.Pool ι Op Supervisor ρ) : Prop where
  paced : ∀ q, (s.program q).Each (Paced w)
  neverHeld : NeverHeld s.store
  nodup : s.store.connected.Nodup
  mem_connected : ∀ name, name ∈ s.store.connected ↔ name ∈ s.store.handles ∨
    ∃ q handle, (s.program q).label? = some (.register handle) ∧ handle.name = name
  connecting : ∀ q name, (s.program q).label? = some (.connect name) → name ∉ s.store.connected
  registering : ∀ q handle, (s.program q).label? = some (.register handle) →
    handle.name ∉ s.store.handles
  alone : ∀ p q name, InFlight (s.program p) name → InFlight (s.program q) name → p = q

variable {w} {s : Program.Pool ι Op Supervisor ρ}

/-- While nothing is between the two insertions, `connected` lists the running plugins. -/
theorem Tidy.enumerates_iff (h : Tidy w s) :
    Enumerates s.store ↔ ∀ q handle, (s.program q).label? ≠ some (.register handle) := by
  rw [Supervisor.enumerates_iff h.nodup]
  constructor
  · intro heq q handle hlabel
    have hmem := (h.mem_connected handle.name).mpr (Or.inr ⟨q, handle, hlabel, rfl⟩)
    exact h.registering q handle hlabel ((heq _).mp hmem)
  · intro hnone name
    rw [h.mem_connected]
    refine or_iff_left ?_
    rintro ⟨q, handle, hlabel, -⟩
    exact hnone q handle hlabel

/-- A supervisor without plugins counts none. -/
theorem Empty.counted (h : Empty w s) : Counted s.store where
  neverHeld := h.neverHeld
  nodup := by
    rw [h.connected]
    exact List.nodup_nil
  enumerates := by
    rw [Enumerates, h.connected, h.handles]
    exact List.Perm.nil
  count := by
    rw [Supervisor.connectedCount, h.connected, h.handles]
    rfl

variable [DecidableEq ι] in
/-- A push leaves `connected` longer than `handles`. -/
theorem not_pushes_of_counted (hpaced : ∀ q, (s.program q).Each (Paced w)) {p : ι}
    (h : Counted s.store) (hstep : Counted (s.step p).store) : ¬Pushes s p := by
  rintro ⟨name, hlabel⟩
  cases hp : s.program p with
  | done r =>
    rw [hp] at hlabel
    cases hlabel
  | step op write next =>
    rw [hp] at hlabel
    obtain rfl := Option.some.inj hlabel
    have hwrite := (hp ▸ hpaced p : (Program.step _ write next).Each (Paced w)).1.write_eq
    have hcount := hstep.enumerates.length_eq
    rw [Program.Pool.store_step hp, hwrite, connected_apply, handles_apply, List.length_append,
      ← h.enumerates.length_eq] at hcount
    exact absurd hcount (Nat.succ_ne_self _)

variable [DecidableEq ι] in
/-- **A statement that pushes nothing leaves a supervisor without plugins as it is.** -/
theorem Empty.step (h : Empty w s) {p : ι} (hpush : ¬Pushes s p) : Empty w (s.step p) := by
  cases hp : s.program p with
  | done r => rwa [Program.Pool.step_of_done hp]
  | step op write next =>
    have heach := (hp ▸ h.paced p : (Program.step op write next).Each (Paced w))
    have hstore : (s.step p).store = apply w op s.store := by
      rw [Program.Pool.store_step hp, heach.1.write_eq]
    have hlabel : (s.program p).label? = some op := by rw [hp]; rfl
    have hconnected := connected_apply w op s.store
    have hhandles := handles_apply w op s.store
    refine ⟨Program.Pool.each_step h.paced p, ?_, ?_, ?_, fun q handle hq => ?_⟩
    · rw [hstore]
      rcases calls_apply w op s.store with ⟨-, hcalls⟩ | ⟨c, -, hcalls, hheld, -⟩
      · exact fun c hc => h.neverHeld c (hcalls ▸ hc)
      · intro c' hc'
        rw [hcalls, List.mem_append, List.mem_singleton] at hc'
        rcases hc' with hc' | rfl
        · exact h.neverHeld c' hc'
        · have hnot : c'.name ∉ s.store.handles := by
            rw [h.handles]
            exact AList.notMem_empty _
          rw [← hheld, Bool.not_eq_true] at hnot
          exact hnot
    · rw [hstore, hconnected]
      cases op with
      | connect name => exact (hpush ⟨name, hlabel⟩).elim
      | _ => exact h.connected
    · rw [hstore, hhandles]
      cases op with
      | register handle => exact (h.registering p handle hlabel).elim
      | _ => exact h.handles
    · by_cases hqp : q = p
      · subst hqp
        rw [Program.Pool.program_step_self hp] at hq
        obtain rfl := heach.1.register hq
        exact hpush ⟨_, hlabel⟩
      · rw [Program.Pool.program_step_of_ne hp hqp] at hq
        exact h.registering q handle hq

section Step

variable {p : ι} {op : Op} {next : Supervisor → Program Op Supervisor ρ} (h : Tidy w s)
  (hp : s.program p = .step op (apply w op) next)
include h hp

/-- After its statement a task is paced as the statement has left it. -/
theorem Tidy.paced_next : Paced w op (apply w op) next :=
  (hp ▸ h.paced p : (Program.step op (apply w op) next).Each (Paced w)).1

variable [DecidableEq ι]

/-- What is in flight after a statement was so before, or is what the statement spawned. -/
theorem Tidy.inFlight_of_step {q : ι} {name : String} (hq : InFlight ((s.step p).program q) name) :
    InFlight (s.program q) name ∨
      q = p ∧ op.starts? s.store = some name ∧ (w.spawn s.store.calls.length).isOk := by
  by_cases hqp : q = p
  · subst hqp
    rw [Program.Pool.program_step_self hp] at hq
    rcases hq with hq | ⟨handle, hq, rfl⟩
    · exact Or.inr ⟨rfl, (h.paced_next hp).connect hq⟩
    · obtain rfl := (h.paced_next hp).register hq
      exact Or.inl (Or.inl (by rw [hp]; rfl))
  · rw [Program.Pool.program_step_of_ne hp hqp] at hq
    exact Or.inl hq

/-- No two calls have the same name in flight after a statement either. -/
theorem Tidy.alone_step (hfree : Unclaimed w s p) (q q' : ι) (name : String)
    (hq : InFlight ((s.step p).program q) name) (hq' : InFlight ((s.step p).program q') name) :
    q = q' := by
  have hlabel : (s.program p).label? = some op := by rw [hp]; rfl
  rcases h.inFlight_of_step hp hq with hbefore | ⟨hqp, hstarts, hok⟩
  · rcases h.inFlight_of_step hp hq' with hbefore' | ⟨-, hstarts, hok⟩
    · exact h.alone q q' name hbefore hbefore'
    · exact ((hfree op name hlabel hstarts).2 hok q hbefore).elim
  · rcases h.inFlight_of_step hp hq' with hbefore' | ⟨hqp', -, -⟩
    · exact ((hfree op name hlabel hstarts).2 hok q' hbefore').elim
    · rw [hqp, hqp']

/-- A statement calls the spawner for no name that is held, if what it starts is unclaimed. -/
theorem Tidy.neverHeld_step (hfree : Unclaimed w s p) : NeverHeld (s.step p).store := by
  have hlabel : (s.program p).label? = some op := by rw [hp]; rfl
  rw [Program.Pool.store_step hp]
  rcases calls_apply w op s.store with ⟨-, hcalls⟩ | ⟨c, hstarts, hcalls, hheld, -⟩
  · exact fun c hc => h.neverHeld c (hcalls ▸ hc)
  · intro c' hc'
    rw [hcalls, List.mem_append, List.mem_singleton] at hc'
    rcases hc' with hc' | rfl
    · exact h.neverHeld c' hc'
    · have hnot := (hfree op _ hlabel hstarts).1
      rw [← hheld, Bool.not_eq_true] at hnot
      exact hnot

/-- The push of a name, whose handle comes next. -/
theorem Tidy.step_connect {name : String} (hop : op = .connect name) : Tidy w (s.step p) := by
  subst hop
  have hstore : (s.step p).store = apply w (.connect name) s.store := Program.Pool.store_step hp
  have hconnected : (s.step p).store.connected = s.store.connected ++ [name] := by rw [hstore]; rfl
  have hhandles : (s.step p).store.handles = s.store.handles := by rw [hstore]; rfl
  have hself := Program.Pool.program_step_self hp
  have hother {q : ι} (hq : q ≠ p) := Program.Pool.program_step_of_ne hp hq
  obtain ⟨handle, hnext, hname⟩ := (h.paced_next hp).registers rfl s.store
  have hlabel : (s.program p).label? = some (.connect name) := by rw [hp]; rfl
  have hfresh := h.connecting p name hlabel
  have hflight {q : ι} {other : String} (hq : InFlight ((s.step p).program q) other) :
      InFlight (s.program q) other := by
    rcases h.inFlight_of_step hp hq with hq | ⟨-, hstarts, -⟩
    · exact hq
    · cases hstarts
  refine ⟨Program.Pool.each_step h.paced p, ?_, ?_, fun other => ?_, fun q other hq => ?_,
    fun q handle' hq => ?_, fun q q' other hq hq' => h.alone q q' other (hflight hq) (hflight hq')⟩
  · rw [hstore]
    exact h.neverHeld
  · rw [hconnected, ← List.concat_eq_append, List.nodup_concat]
    exact ⟨hfresh, h.nodup⟩
  · rw [hconnected, hhandles, List.mem_append, List.mem_singleton, h.mem_connected, or_assoc]
    refine or_congr_right ⟨?_, ?_⟩
    · rintro (⟨q, handle', hq, hother'⟩ | rfl)
      · have hqp : q ≠ p := by
          rintro rfl
          rw [hlabel] at hq
          cases hq
        exact ⟨q, handle', by rwa [hother hqp], hother'⟩
      · exact ⟨p, handle, by rwa [hself], hname⟩
    · rintro ⟨q, handle', hq, rfl⟩
      by_cases hqp : q = p
      · subst hqp
        rw [hself, hnext] at hq
        obtain rfl := Op.register.inj (Option.some.inj hq)
        exact Or.inr hname
      · exact Or.inl ⟨q, handle', by rwa [hother hqp] at hq, rfl⟩
  · -- the next push of another call is of another name
    have hqp : q ≠ p := by
      rintro rfl
      rw [hself, hnext] at hq
      cases hq
    rw [hother hqp] at hq
    rw [hconnected, List.mem_append, List.mem_singleton, not_or]
    refine ⟨h.connecting q other hq, ?_⟩
    rintro rfl
    exact hqp (h.alone q p _ (Or.inl hq) (Or.inl hlabel))
  · rw [hhandles]
    rcases hflight (Or.inr ⟨handle', hq, rfl⟩) with hq' | ⟨_, hq', hname'⟩
    · exact fun hmem => h.connecting q _ hq' ((h.mem_connected _).mpr (Or.inl hmem))
    · exact hname' ▸ h.registering q _ hq'

/-- The insertion of a handle, after which the call has nothing in flight. -/
theorem Tidy.step_register {handle : PluginHandle} (hop : op = .register handle) :
    Tidy w (s.step p) := by
  subst hop
  have hstore : (s.step p).store = apply w (.register handle) s.store := Program.Pool.store_step hp
  have hconnected : (s.step p).store.connected = s.store.connected := by rw [hstore]; rfl
  have hhandles (name : String) : name ∈ (s.step p).store.handles ↔
      name = handle.name ∨ name ∈ s.store.handles := by
    rw [hstore]
    exact AList.mem_insert _
  have hself := Program.Pool.program_step_self hp
  have hother {q : ι} (hq : q ≠ p) := Program.Pool.program_step_of_ne hp hq
  have hlabel : (s.program p).label? = some (.register handle) := by rw [hp]; rfl
  have hflight {q : ι} {name : String} (hq : InFlight ((s.step p).program q) name) :
      InFlight (s.program q) name ∧ q ≠ p := by
    have hbefore : InFlight (s.program q) name := by
      rcases h.inFlight_of_step hp hq with hq | ⟨-, hstarts, -⟩
      · exact hq
      · cases hstarts
    refine ⟨hbefore, ?_⟩
    rintro rfl
    rw [hself] at hq
    rcases hq with hq | ⟨_, hq, -⟩
    · cases ((h.paced_next hp).connect hq).1
    · cases (h.paced_next hp).register hq
  have hnames {q : ι} {name : String} (hq : InFlight ((s.step p).program q) name) :
      name ≠ handle.name := by
    rintro rfl
    exact (hflight hq).2 (h.alone q p _ (hflight hq).1 (Or.inr ⟨handle, hlabel, rfl⟩))
  refine ⟨Program.Pool.each_step h.paced p, ?_, ?_, fun name => ?_, fun q name hq => ?_,
    fun q handle' hq => ?_,
    fun q q' other hq hq' => h.alone q q' other (hflight hq).1 (hflight hq').1⟩
  · rw [hstore]
    exact h.neverHeld
  · rw [hconnected]
    exact h.nodup
  · rw [hconnected, hhandles, h.mem_connected]
    constructor
    · rintro (hmem | ⟨q, handle', hq, rfl⟩)
      · exact Or.inl (Or.inr hmem)
      · by_cases hqp : q = p
        · subst hqp
          rw [hlabel] at hq
          obtain rfl := Op.register.inj (Option.some.inj hq)
          exact Or.inl (Or.inl rfl)
        · exact Or.inr ⟨q, handle', by rwa [hother hqp], rfl⟩
    · rintro ((rfl | hmem) | ⟨q, handle', hq, rfl⟩)
      · exact Or.inr ⟨p, handle, hlabel, rfl⟩
      · exact Or.inl hmem
      · have hqp := (hflight (Or.inr ⟨handle', hq, rfl⟩)).2
        exact Or.inr ⟨q, handle', by rwa [hother hqp] at hq, rfl⟩
  · have hqp := (hflight (Or.inl hq)).2
    rw [hother hqp] at hq
    rw [hconnected]
    exact h.connecting q name hq
  · have hname := hnames (Or.inr ⟨handle', hq, rfl⟩)
    have hqp := (hflight (Or.inr ⟨handle', hq, rfl⟩)).2
    rw [hother hqp] at hq
    rw [hhandles, not_or]
    exact ⟨hname, h.registering q _ hq⟩

/-- Any other statement, if what it starts is unclaimed. -/
theorem Tidy.step_other (hop : op.inserts = false) (hfree : Unclaimed w s p) :
    Tidy w (s.step p) := by
  have hstore : (s.step p).store = apply w op s.store := Program.Pool.store_step hp
  have hconnected : (s.step p).store.connected = s.store.connected := by
    rw [hstore, connected_apply]
    cases op <;> first | rfl | cases hop
  have hhandles : (s.step p).store.handles = s.store.handles := by
    rw [hstore, handles_apply]
    cases op <;> first | rfl | cases hop
  have hself := Program.Pool.program_step_self hp
  have hother {q : ι} (hq : q ≠ p) := Program.Pool.program_step_of_ne hp hq
  have hlabel : (s.program p).label? = some op := by rw [hp]; rfl
  have hnotRegister {q : ι} {handle : PluginHandle}
      (hq : ((s.step p).program q).label? = some (.register handle)) :
      q ≠ p ∧ (s.program q).label? = some (.register handle) := by
    have hqp : q ≠ p := by
      rintro rfl
      rw [hself] at hq
      obtain rfl := (h.paced_next hp).register hq
      cases hop
    exact ⟨hqp, by rwa [hother hqp] at hq⟩
  have hcalm (name : String) : ¬InFlight (s.program p) name := by
    rintro (hq | ⟨handle, hq, -⟩)
    · rw [hlabel] at hq
      obtain rfl := Option.some.inj hq
      cases hop
    · rw [hlabel] at hq
      obtain rfl := Option.some.inj hq
      cases hop
  refine ⟨Program.Pool.each_step h.paced p, h.neverHeld_step hp hfree, ?_, fun name => ?_,
    fun q name hq => ?_, fun q handle hq => ?_, h.alone_step hp hfree⟩
  · rw [hconnected]
    exact h.nodup
  · rw [hconnected, hhandles, h.mem_connected]
    refine or_congr_right ⟨?_, ?_⟩
    · rintro ⟨q, handle, hq, rfl⟩
      have hqp : q ≠ p := by
        rintro rfl
        exact hcalm _ (Or.inr ⟨handle, hq, rfl⟩)
      exact ⟨q, handle, by rwa [hother hqp], rfl⟩
    · rintro ⟨q, handle, hq, rfl⟩
      exact ⟨q, handle, (hnotRegister hq).2, rfl⟩
  · rw [hconnected]
    rcases h.inFlight_of_step hp (Or.inl hq) with hq' | ⟨rfl, hstarts, hok⟩
    · by_cases hqp : q = p
      · subst hqp
        exact (hcalm _ hq').elim
      · rw [hother hqp] at hq
        exact h.connecting q name hq
    · -- the name that was just spawned is neither held nor in flight
      obtain ⟨hheld, hnone⟩ := hfree op name hlabel hstarts
      rw [h.mem_connected]
      rintro (hmem | ⟨q', handle, hq', rfl⟩)
      · exact hheld hmem
      · exact hnone hok q' (Or.inr ⟨handle, hq', rfl⟩)
  · rw [hhandles]
    exact h.registering q handle (hnotRegister hq).2

end Step

variable [DecidableEq ι]

/-- **A statement keeps the supervisor tidy when what it starts is unclaimed.** -/
theorem Tidy.step (h : Tidy w s) {p : ι} (hfree : Unclaimed w s p) : Tidy w (s.step p) := by
  cases hp : s.program p with
  | done r => rwa [Program.Pool.step_of_done hp]
  | step op write next =>
    have hwrite := (hp ▸ h.paced p : (Program.step op write next).Each (Paced w)).1.write_eq
    subst hwrite
    cases hop : op.inserts with
    | false => exact h.step_other hp hop hfree
    | true =>
      cases op with
      | connect name => exact h.step_connect hp rfl
      | register handle => exact h.step_register hp rfl
      | setPaths | bindAndServe | ensure | launch | watch => cases hop

omit [DecidableEq ι] in
/-- At the start the calls have done nothing yet. -/
theorem tidy_start {manifest : List PluginEntry} {paths : Option Paths}
    {program : ι → Program Op Supervisor ρ} (h : ∀ q, WellPaced w (program q)) :
    Tidy w ⟨{ manifest, paths }, program⟩ where
  paced q := (h q).each
  neverHeld _ hc := nomatch hc
  nodup := List.nodup_nil
  mem_connected name := by
    refine iff_of_false List.not_mem_nil ?_
    rintro (hmem | ⟨q, handle, hq, rfl⟩)
    · exact AList.notMem_empty name hmem
    · exact (h q).calm _ (Or.inr ⟨handle, hq, rfl⟩)
  connecting q name hq := ((h q).calm _ (Or.inl hq)).elim
  registering q handle hq := ((h q).calm _ (Or.inr ⟨handle, hq, rfl⟩)).elim
  alone p q name hp := ((h p).calm _ hp).elim

omit [DecidableEq ι] in
/-- A supervisor that was just made holds nothing. -/
theorem empty_start {manifest : List PluginEntry} {paths : Option Paths}
    {program : ι → Program Op Supervisor ρ} (h : ∀ q, WellPaced w (program q)) :
    Empty w ⟨{ manifest, paths }, program⟩ where
  paced q := (h q).each
  neverHeld _ hc := nomatch hc
  connected := rfl
  handles := rfl
  registering q handle hq := (h q).calm _ (Or.inr ⟨handle, hq, rfl⟩)

/-- In any interleaving of tasks, `connected` lists the running plugins at every point exactly when
no start is kept. -/
theorem counted_iff (w : World) (manifest : List PluginEntry) (paths : Option Paths)
    (tasks : ι → Task) (l : List ι) :
    Machine.Throughout Program.Pool.step (fun s => Counted s.store)
        ⟨{ manifest, paths }, fun q => (tasks q).program w⟩ l ↔
      Machine.Along Program.Pool.step (fun s p => ¬Pushes s p)
        ⟨{ manifest, paths }, fun q => (tasks q).program w⟩ l := by
  constructor
  · intro h
    -- the programs are in order in every state of the run
    exact Machine.Throughout.along (I := fun s => ∀ q, (s.program q).Each (Paced w))
      (fun _ p hs => Program.Pool.each_step hs p) (fun _ _ hs => not_pushes_of_counted hs) l _
      (fun q => (wellPaced_task (tasks q)).each) h
  · intro h
    have hempty := Machine.Along.throughout (P := Empty w) (fun _ _ h hpush => h.step hpush) l _ h
      (empty_start fun q => wellPaced_task (tasks q))
    exact hempty.mono fun s hs => hs.counted

/-- **One child for each plugin**, in any interleaving of tasks. At every point `connected` lists
the keys of `handles` exactly when no start is kept; if tasks start only what is unclaimed, the
spawner is never called for a name that is held, `connected` has no duplicates, and it lists the
keys of `handles` whenever no call is between its two insertions. -/
theorem one_child (w : World) (manifest : List PluginEntry) (paths : Option Paths)
    (tasks : ι → Task) (l : List ι) :
    (Machine.Throughout Program.Pool.step (fun s => Counted s.store)
        ⟨{ manifest, paths }, fun q => (tasks q).program w⟩ l ↔
      Machine.Along Program.Pool.step (fun s p => ¬Pushes s p)
        ⟨{ manifest, paths }, fun q => (tasks q).program w⟩ l) ∧
    (Machine.Along Program.Pool.step (Unclaimed w)
        ⟨{ manifest, paths }, fun q => (tasks q).program w⟩ l →
      Machine.Throughout Program.Pool.step
        (fun s => NeverHeld s.store ∧ s.store.connected.Nodup ∧
          (Enumerates s.store ↔ ∀ q handle, (s.program q).label? ≠ some (.register handle)) ∧
          (Enumerates s.store → s.store.connectedCount = s.store.handles.keys.length))
        ⟨{ manifest, paths }, fun q => (tasks q).program w⟩ l) := by
  refine ⟨counted_iff w manifest paths tasks l, fun hl => ?_⟩
  have hstart : Tidy w ⟨{ manifest, paths }, fun q => (tasks q).program w⟩ :=
    tidy_start fun q => wellPaced_task (tasks q)
  have htidy := Machine.Along.throughout (P := Tidy w) (fun _ _ h hfree => h.step hfree) l _ hl hstart
  exact htidy.mono fun s h => ⟨h.neverHeld, h.nodup, h.enumerates_iff, Enumerates.connectedCount⟩

end Pool

/-! ### The boot sequence

The run of the counterexample, and one in which the condition holds: a plugin is started by
`autostart`, and `ensure_plugin` finds it held. -/

/-- A world in which every call goes well. -/
def goodWorld : World where
  spawn n := .ok n
  bind _ := true
  now n := n

/-- The plugin of opencode. -/
def opencodeEntry : PluginEntry where
  name := "opencode"
  binary := ""

/-- The runtime directory. -/
def runtimePaths : Paths where
  runtimeDir := "/run/user/1000/agentd"

/-- The database after opencode registered a session, which is live. -/
def liveDb : Db :=
  next Db.fresh ⟨.discover "opencode" "main" "%1" "/home/u/proj", .noon (.ofTimeLow 1) 2026⟩

/-- The boot sequence with that database. -/
def booting : Task :=
  .boot liveDb id runtimePaths

set_option maxRecDepth 4000 in
/-- **The boot sequence starts a plugin twice**: `restart_respawn` for its live session, and
`autostart` although its handle is held. -/
theorem started_twice :
    ¬∀ (w : World) (manifest : List PluginEntry) (paths : Option Paths) (tasks : Unit → Task)
      (l : List Unit), (manifest.map (·.name)).Nodup →
        Machine.Throughout Program.Pool.step
          (fun s => NeverHeld s.store ∧
            ((∀ q handle, (s.program q).label? ≠ some (.register handle)) → Enumerates s.store))
          ⟨{ manifest, paths }, fun q => (tasks q).program w⟩ l := by
  intro h
  have hboot := (h goodWorld [opencodeEntry] none (fun _ => booting) (List.replicate 10 ())
    (by decide)).last
  have hcalls : ∃ c ∈ (Machine.run Program.Pool.step
      ⟨{ manifest := [opencodeEntry], paths := none }, fun _ : Unit => booting.program goodWorld⟩
      (List.replicate 10 ())).store.calls, c.held = true := by decide
  obtain ⟨c, hc, hheld⟩ := hcalls
  rw [hboot.1 c hc] at hheld
  cases hheld

set_option maxRecDepth 4000 in
/-- In the end it is twice in `connected`. -/
example : (Machine.run Program.Pool.step
    ⟨{ manifest := [opencodeEntry] }, fun _ : Unit => booting.program goodWorld⟩
    (List.replicate 10 ())).store.connected = ["opencode", "opencode"] := by decide

/-- `autostart`, and somebody who wants to be sure of opencode. -/
def startAndEnsure : Bool → Task
  | false => .single (.autostart runtimePaths)
  | true => .single (.ensurePlugin "opencode")

set_option maxRecDepth 4000 in
/-- `ensure_plugin` after `autostart`, which starts nothing. -/
theorem one_child_afterAutostart :
    Machine.Throughout Program.Pool.step
      (fun s => NeverHeld s.store ∧ s.store.connected.Nodup ∧
        (Enumerates s.store ↔ ∀ q handle, (s.program q).label? ≠ some (.register handle)) ∧
        (Enumerates s.store → s.store.connectedCount = s.store.handles.keys.length))
      ⟨{ manifest := [opencodeEntry], paths := none },
        fun q => (startAndEnsure q).program goodWorld⟩
      [false, false, false, false, false, false, true] := by
  refine (one_child goodWorld [opencodeEntry] none startAndEnsure _).2 ?_
  refine ⟨?_, ?_, ?_, ?_, ?_, ?_, ?_, trivial⟩ <;> intro op name hop hstarts <;>
    obtain rfl := Option.some.inj hop
  · cases hstarts
  · cases hstarts
  · obtain rfl := Option.some.inj hstarts
    refine ⟨by decide, fun _ q => ?_⟩
    cases q
    · rintro (hq | ⟨handle, hq, -⟩) <;> cases hq
    · rintro (hq | ⟨handle, hq, -⟩) <;> cases hq
  · cases hstarts
  · cases hstarts
  · cases hstarts
  · cases hstarts

end Supervisor

end Agentd
