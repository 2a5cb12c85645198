import Agentd.Foundations.Machine
import Mathlib.Data.List.Nodup
import Mathlib.Logic.Function.Basic

/-!
# Programs of atomic statements

A program works on a store that others may be working on as well. It is a tree: an atomic
statement changes the store, and what comes next depends on what the statement found
there. Every statement carries a label, which says what kind of statement it is.

* `Program.run` – a program that has the store to itself;
* `Program.killed` – a program that is stopped after some of its statements;
* `Program.Each` – a property of every statement a program can come to;
* `Program.Pool` – any number of programs at work on one store, one statement at a time and
  in any order;
* `Program.Linearizes.exists_order` – the rule that turns a run of a pool into a serial one:
  each program takes effect at one of its statements, and in the order in which
  they do so the programs could have run one after the other.
-/

/-- A program of atomic statements on a store, and its answer. -/
inductive Program (κ σ ρ : Type*)
  | done (answer : ρ)
  /-- A statement, and the rest of the program for what the statement finds. -/
  | step (label : κ) (write : σ → σ) (next : σ → Program κ σ ρ)

namespace Program

variable {κ σ ρ ρ' ι ω α : Type*}

/-- The program from start to end, with nobody else at work: the answer, and the store
afterwards. -/
def run : Program κ σ ρ → σ → ρ × σ
  | done r, s => (r, s)
  | step _ write next, s => (next s).run (write s)

@[simp] theorem run_done (r : ρ) (s : σ) : (done r : Program κ σ ρ).run s = (r, s) :=
  rfl

@[simp] theorem run_step (label : κ) (write : σ → σ) (next : σ → Program κ σ ρ) (s : σ) :
    (step label write next).run s = (next s).run (write s) :=
  rfl

/-- A program, and then the program its answer leads to. -/
def bind : Program κ σ ρ → (ρ → Program κ σ ρ') → Program κ σ ρ'
  | done r, f => f r
  | step label write next, f => step label write fun s => (next s).bind f

@[simp] theorem bind_done (r : ρ) (f : ρ → Program κ σ ρ') : (done r).bind f = f r :=
  rfl

@[simp] theorem bind_step (label : κ) (write : σ → σ) (next : σ → Program κ σ ρ)
    (f : ρ → Program κ σ ρ') :
    (step label write next).bind f = step label write fun s => (next s).bind f :=
  rfl

theorem run_bind (p : Program κ σ ρ) (f : ρ → Program κ σ ρ') :
    ∀ s, (p.bind f).run s = (f (p.run s).1).run (p.run s).2 := by
  induction p with
  | done r => intro s; rfl
  | step label write next ih => intro s; exact ih s (write s)

/-- The store when the program is stopped after at most `n` statements. -/
def killed : ℕ → Program κ σ ρ → σ → σ
  | n + 1, step _ write next, s => killed n (next s) (write s)
  | _, _, s => s

/-- The label of the next statement. -/
def label? : Program κ σ ρ → Option κ
  | done _ => none
  | step label _ _ => some label

theorem label?_bind_of_some {x : Program κ σ ρ} {label : κ} (h : x.label? = some label)
    (f : ρ → Program κ σ ρ') : (x.bind f).label? = some label := by
  cases x with
  | done r => cases h
  | step => exact h

theorem label?_bind_eq_some {x : Program κ σ ρ} {f : ρ → Program κ σ ρ'} {label : κ}
    (h : (x.bind f).label? = some label) :
    x.label? = some label ∨ ∃ r, x = done r ∧ (f r).label? = some label := by
  cases x with
  | done r => exact Or.inr ⟨r, rfl, h⟩
  | step => exact Or.inl h

/-! ### What holds of every statement

A program branches on what it reads, so that a property of all its statements is an inductive one,
over every branch that could be taken. From what each statement keeps follows what the program
keeps, up to any point at which it is killed. -/

/-- Every statement the program can come to has the property `P`, which is about the
label, what the statement writes and what comes next. -/
def Each (P : κ → (σ → σ) → (σ → Program κ σ ρ) → Prop) : Program κ σ ρ → Prop
  | done _ => True
  | step label write next => P label write next ∧ ∀ s, (next s).Each P

theorem Each.next {P : κ → (σ → σ) → (σ → Program κ σ ρ) → Prop} {label : κ} {write : σ → σ}
    {next : σ → Program κ σ ρ} (h : (step label write next).Each P) (s : σ) : (next s).Each P :=
  h.2 s

/-- A property of every statement of two programs is one of the first and then the second, if
it does not mind what comes after the end of the first. -/
theorem Each.bind {P : κ → (σ → σ) → (σ → Program κ σ ρ) → Prop}
    {Q : κ → (σ → σ) → (σ → Program κ σ ρ') → Prop} {x : Program κ σ ρ} {f : ρ → Program κ σ ρ'}
    (hPQ : ∀ label write next, P label write next → Q label write fun s => (next s).bind f)
    (hx : x.Each P) (hf : ∀ r, (f r).Each Q) : (x.bind f).Each Q := by
  induction x with
  | done r => exact hf r
  | step label write next ih => exact ⟨hPQ _ _ _ hx.1, fun s => ih s (hx.2 s)⟩

/-- **What every statement keeps, a program keeps**, to its end and wherever it is stopped. -/
theorem Each.run {I : σ → Prop} {x : Program κ σ ρ}
    (h : x.Each fun _ write _ => ∀ s, I s → I (write s)) : ∀ s, I s → I (x.run s).2 := by
  induction x with
  | done r => exact fun _ hs => hs
  | step label write next ih => exact fun s hs => ih s (h.2 s) _ (h.1 s hs)

theorem Each.killed {I : σ → Prop} {x : Program κ σ ρ}
    (h : x.Each fun _ write _ => ∀ s, I s → I (write s)) : ∀ n s, I s → I (x.killed n s) := by
  induction x with
  | done r => exact fun n _ hs => by cases n <;> exact hs
  | step label write next ih =>
    intro n s hs
    cases n with
    | zero => exact hs
    | succ n => exact ih s (h.2 s) n _ (h.1 s hs)

theorem Each.mono {P Q : κ → (σ → σ) → (σ → Program κ σ ρ) → Prop} {x : Program κ σ ρ}
    (hPQ : ∀ label write next, P label write next → Q label write next) (h : x.Each P) :
    x.Each Q := by
  induction x with
  | done r => trivial
  | step label write next ih => exact ⟨hPQ _ _ _ h.1, fun s => ih s (h.2 s)⟩

/-- A program and its continuation are stopped in the one or in the other. -/
theorem killed_bind (x : Program κ σ ρ) (f : ρ → Program κ σ ρ') : ∀ n s,
    (∃ m, (x.bind f).killed n s = x.killed m s) ∨
      ∃ m, (x.bind f).killed n s = (f (x.run s).1).killed m (x.run s).2 := by
  induction x with
  | done r => exact fun n s => Or.inr ⟨n, rfl⟩
  | step label write next ih =>
    intro n s
    cases n with
    | zero => exact Or.inl ⟨0, rfl⟩
    | succ n =>
      rcases ih s n (write s) with ⟨m, hm⟩ | ⟨m, hm⟩
      · exact Or.inl ⟨m + 1, hm⟩
      · exact Or.inr ⟨m, hm⟩

/-! ### Pools

Programs take turns on one store, in any order and without fairness: a list of indices says whose
statement comes next. A program that is over has none, and its turn changes nothing. -/

/-- Programs at work on one store. -/
structure Pool (ι κ σ ρ : Type*) where
  store : σ
  program : ι → Program κ σ ρ

namespace Pool

variable [DecidableEq ι]

/-- The next statement of a program. -/
def step (s : Pool ι κ σ ρ) (p : ι) : Pool ι κ σ ρ :=
  match s.program p with
  | .done _ => s
  | .step _ write next => ⟨write s.store, Function.update s.program p (next s.store)⟩

theorem step_of_done {s : Pool ι κ σ ρ} {p : ι} {r : ρ} (h : s.program p = .done r) :
    s.step p = s := by
  simp only [step, h]

section Statement

variable {s : Pool ι κ σ ρ} {p : ι} {label : κ} {write : σ → σ} {next : σ → Program κ σ ρ}
  (h : s.program p = .step label write next)
include h

theorem store_step : (s.step p).store = write s.store := by
  simp only [step, h]

theorem program_step_self : (s.step p).program p = next s.store := by
  simp only [step, h, Function.update_self]

theorem program_step_of_ne {q : ι} (hq : q ≠ p) : (s.step p).program q = s.program q := by
  simp only [step, h, Function.update_of_ne hq]

end Statement

/-- What holds of every statement still to come, holds after a step. -/
theorem each_step {P : κ → (σ → σ) → (σ → Program κ σ ρ) → Prop} {s : Pool ι κ σ ρ}
    (h : ∀ q, (s.program q).Each P) (p q : ι) : ((s.step p).program q).Each P := by
  cases hp : s.program p with
  | done r =>
    rw [step_of_done hp]
    exact h q
  | step label write next =>
    by_cases hq : q = p
    · rw [hq, program_step_self hp]
      exact (hp ▸ h p : (Program.step label write next).Each P).next s.store
    · rw [program_step_of_ne hp hq]
      exact h q

end Pool

/-! ### Linearization

A program takes effect at one of its statements, the same one in every interleaving up to what it
read before. If that statement does what the whole program would have done at that moment, and the
other statements do nothing that counts, the run is a serial one in the order of the effects. What
has to be shown for a particular kind of program is one case for each of its statements. -/

/-- The store after the programs of a list, one after the other. -/
def serial (program : ι → Program κ σ ρ) (s : σ) (order : List ι) : σ :=
  Machine.run (fun s p => ((program p).run s).2) s order

theorem serial_concat (program : ι → Program κ σ ρ) (s : σ) (order : List ι) (p : ι) :
    serial program s (order ++ [p]) = ((program p).run (serial program s order)).2 :=
  Machine.run_concat _ _ _ _

/-- **How programs take effect.** Of the store only `obs` counts, of the answers only `view`,
and these depend on what counts of the store. A program is `Before` its effect to
begin with; it takes effect at a statement that does what the whole program would do
at that moment, and is then `After` it, bound to the answer it would have given. No
other statement does anything that counts. A statement is looked at only when `C` allows it,
and `Q` is noted when it brings the effect. -/
structure Linearizes (program : ι → Program κ σ ρ) (obs : σ → ω) (view : ρ → α)
    (C : Pool ι κ σ ρ → ι → Prop) (Q : ω → ι → Prop) (Inv : σ → Prop)
    (Before : ι → Program κ σ ρ → Prop) (After : ι → α → Program κ σ ρ → Prop) : Prop where
  obs_run : ∀ p {s t}, obs s = obs t → obs ((program p).run s).2 = obs ((program p).run t).2
  view_run : ∀ p {s t}, obs s = obs t → view ((program p).run s).1 = view ((program p).run t).1
  start : ∀ p, Before p (program p)
  not_before_done : ∀ p r, ¬Before p (.done r)
  view_of_after : ∀ {p a r}, After p a (.done r) → view r = a
  before : ∀ {s : Pool ι κ σ ρ} {p label write next}, C s p → Inv s.store →
    s.program p = .step label write next → Before p (.step label write next) →
    Inv (write s.store) ∧
      (obs (write s.store) = obs s.store ∧ Before p (next s.store) ∨
        obs (write s.store) = obs ((program p).run s.store).2 ∧
          After p (view ((program p).run s.store).1) (next s.store) ∧ Q (obs s.store) p)
  after : ∀ {s : Pool ι κ σ ρ} {p a label write next}, C s p → Inv s.store →
    s.program p = .step label write next → After p a (.step label write next) →
    Inv (write s.store) ∧ obs (write s.store) = obs s.store ∧ After p a (next s.store)

/-- The programs of `order` took effect, in this order, and no others. -/
structure Ordered (program : ι → Program κ σ ρ) (obs : σ → ω) (view : ρ → α) (Q : ω → ι → Prop)
    (Inv : σ → Prop) (Before : ι → Program κ σ ρ → Prop) (After : ι → α → Program κ σ ρ → Prop)
    (s₀ : σ) (s : Pool ι κ σ ρ) (order : List ι) : Prop where
  nodup : order.Nodup
  inv : Inv s.store
  obs_eq : obs s.store = obs (serial program s₀ order)
  before : ∀ p, p ∉ order → Before p (s.program p)
  after : ∀ l₁ p l₂, order = l₁ ++ p :: l₂ →
    After p (view ((program p).run (serial program s₀ l₁)).1) (s.program p) ∧
      Q (obs (serial program s₀ l₁)) p

section Rule

variable [DecidableEq ι] {program : ι → Program κ σ ρ} {obs : σ → ω} {view : ρ → α}
  {C : Pool ι κ σ ρ → ι → Prop} {Q : ω → ι → Prop} {Inv : σ → Prop}
  {Before : ι → Program κ σ ρ → Prop} {After : ι → α → Program κ σ ρ → Prop}
  (L : Linearizes program obs view C Q Inv Before After) {s₀ : σ}
include L

/-- A statement that does nothing that counts. -/
theorem Ordered.idle {s : Pool ι κ σ ρ} {order : List ι} {p : ι} {label : κ} {write : σ → σ}
    {next : σ → Program κ σ ρ}
    (h : Ordered program obs view Q Inv Before After s₀ s order) (hC : C s p)
    (hp : s.program p = .step label write next) (hmem : p ∈ order) :
    Ordered program obs view Q Inv Before After s₀ (s.step p) order := by
  have hstep {l₁ l₂ : List ι} (heq : order = l₁ ++ p :: l₂) :=
    L.after hC h.inv hp (hp ▸ (h.after l₁ p l₂ heq).1)
  obtain ⟨m₁, m₂, hm⟩ := List.append_of_mem hmem
  refine ⟨h.nodup, ?_, ?_, fun q hq => ?_, fun l₁ q l₂ heq => ⟨?_, (h.after l₁ q l₂ heq).2⟩⟩
  · rw [Pool.store_step hp]
    exact (hstep hm).1
  · rw [Pool.store_step hp, (hstep hm).2.1]
    exact h.obs_eq
  · have hqp : q ≠ p := fun hqp => hq (hqp ▸ hmem)
    rw [Pool.program_step_of_ne hp hqp]
    exact h.before q hq
  · by_cases hqp : q = p
    · subst hqp
      rw [Pool.program_step_self hp]
      exact (hstep heq).2.2
    · rw [Pool.program_step_of_ne hp hqp]
      exact (h.after l₁ q l₂ heq).1

/-- A statement of a program that has not taken effect yet. -/
theorem Ordered.advance {s : Pool ι κ σ ρ} {order : List ι} {p : ι} {label : κ} {write : σ → σ}
    {next : σ → Program κ σ ρ}
    (h : Ordered program obs view Q Inv Before After s₀ s order) (hC : C s p)
    (hp : s.program p = .step label write next) (hmem : p ∉ order) :
    Ordered program obs view Q Inv Before After s₀ (s.step p) order ∨
      Ordered program obs view Q Inv Before After s₀ (s.step p) (order ++ [p]) := by
  obtain ⟨hinv, ⟨hobs, hbefore⟩ | ⟨hobs, hafter, hQ⟩⟩ := L.before hC h.inv hp (hp ▸ h.before p hmem)
  · refine Or.inl ⟨h.nodup, ?_, ?_, fun q hq => ?_, fun l₁ q l₂ heq => ⟨?_, (h.after l₁ q l₂ heq).2⟩⟩
    · rwa [Pool.store_step hp]
    · rw [Pool.store_step hp, hobs]
      exact h.obs_eq
    · by_cases hqp : q = p
      · rw [hqp, Pool.program_step_self hp]
        exact hbefore
      · rw [Pool.program_step_of_ne hp hqp]
        exact h.before q hq
    · have hqp : q ≠ p := by
        rintro rfl
        exact hmem (heq ▸ List.mem_append_right _ List.mem_cons_self)
      rw [Pool.program_step_of_ne hp hqp]
      exact (h.after l₁ q l₂ heq).1
  · -- the effect: `p` is the last of the order, and did what it would have done there
    have hview := L.view_run p h.obs_eq
    refine Or.inr ⟨?_, ?_, ?_, fun q hq => ?_, fun l₁ q l₂ heq => ?_⟩
    · rw [← List.concat_eq_append, List.nodup_concat]
      exact ⟨hmem, h.nodup⟩
    · rwa [Pool.store_step hp]
    · rw [Pool.store_step hp, hobs, serial_concat]
      exact L.obs_run p h.obs_eq
    · rw [List.mem_append, not_or, List.mem_singleton] at hq
      rw [Pool.program_step_of_ne hp hq.2]
      exact h.before q hq.1
    · rcases List.eq_nil_or_concat l₂ with rfl | ⟨l₂, r, rfl⟩
      · obtain ⟨rfl, hlast⟩ := List.append_inj' heq rfl
        obtain rfl := List.head_eq_of_cons_eq hlast
        rw [Pool.program_step_self hp, ← hview, ← h.obs_eq]
        exact ⟨hafter, hQ⟩
      · rw [List.concat_eq_append, ← List.cons_append, ← List.append_assoc] at heq
        have hinit := (List.append_inj' heq rfl).1
        have hqp : q ≠ p := by
          rintro rfl
          exact hmem (hinit ▸ List.mem_append_right _ List.mem_cons_self)
        rw [Pool.program_step_of_ne hp hqp]
        exact h.after l₁ q l₂ hinit

/-- **A run of a pool is a serial one**, in the order in which the programs take effect. -/
theorem Linearizes.exists_order {s : Pool ι κ σ ρ} {order : List ι}
    (h : Ordered program obs view Q Inv Before After s₀ s order) {l : List ι}
    (hl : Machine.Along Pool.step C s l) :
    ∃ order', Ordered program obs view Q Inv Before After s₀ (Machine.run Pool.step s l) order' := by
  induction l generalizing s order with
  | nil => exact ⟨order, h⟩
  | cons p l ih =>
    obtain ⟨hC, hl⟩ := hl
    cases hp : s.program p with
    | done r =>
      rw [Pool.step_of_done hp] at hl
      rw [Machine.run_cons, Pool.step_of_done hp]
      exact ih h hl
    | step label write next =>
      by_cases hmem : p ∈ order
      · exact ih (h.idle L hC hp hmem) hl
      · rcases h.advance L hC hp hmem with h | h
        · exact ih h hl
        · exact ih h hl

omit [DecidableEq ι] in
/-- Nothing has taken effect at the start. -/
theorem Linearizes.ordered_start (hs : Inv s₀) :
    Ordered program obs view Q Inv Before After s₀ ⟨s₀, program⟩ [] where
  nodup := List.nodup_nil
  inv := hs
  obs_eq := rfl
  before p _ := L.start p
  after l₁ p l₂ heq := by simp at heq

end Rule

end Program
