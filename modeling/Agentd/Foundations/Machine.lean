import Mathlib.Data.List.Basic
import Mathlib.Data.List.Induction
import Mathlib.Order.Basic

/-!
# Runs of a state machine

A machine is a function `step : σ → ι → σ` from a state and an input to the next
state. This file holds what is said of its runs: the state after a list of inputs
(`Machine.run`), reachability, conditions on every step of a run
(`Machine.Along`) and properties of every state of one (`Machine.Throughout`).

Eight induction rules carry every whole-run theorem:

* `Machine.Reachable.invariant` – a property kept by every step holds of every reachable
  state;
* `Machine.Along.throughout` – the same along a run whose steps meet a condition;
* `Machine.Throughout.along` – the other way: what a property before and after a step says of the
  step, all along a run with the property everywhere;
* `Machine.throughout_iff_along` – a property that survives a step exactly when the step
  meets a condition holds all along a run exactly when every step of it does;
* `Machine.throughout_iff_last_of_invariant` – a property that no step regains holds all
  along a run when it holds at the end;
* `Machine.along_iff_forall_between` – the same for a reflexive and transitive relation
  between an earlier state of the run and a later one;
* `Machine.exists_put` – a value that is there has been there since the step that put it there;
* `Machine.Thinned.obs_run` – inputs that no step shows to an observer may be deleted from
  a run.
-/

namespace Machine

variable {σ ι : Type*} (step : σ → ι → σ)

/-- The state after a list of inputs. -/
def run (s : σ) (l : List ι) : σ :=
  l.foldl step s

@[simp] theorem run_nil (s : σ) : run step s [] = s :=
  rfl

@[simp] theorem run_cons (s : σ) (i : ι) (l : List ι) :
    run step s (i :: l) = run step (step s i) l :=
  rfl

theorem run_append (s : σ) (l₁ l₂ : List ι) :
    run step s (l₁ ++ l₂) = run step (run step s l₁) l₂ :=
  List.foldl_append

theorem run_concat (s : σ) (l : List ι) (i : ι) :
    run step s (l ++ [i]) = step (run step s l) i := by
  rw [run_append, run_cons, run_nil]

/-! ### Reachable states

A state is reachable when some list of inputs leads to it. Most invariants are used in this form:
what the start has and every step keeps, every reachable state has. -/

/-- Some run from `s₀` ends in `s`. -/
def Reachable (s₀ s : σ) : Prop :=
  ∃ l, run step s₀ l = s

variable {step}

theorem Reachable.refl (s₀ : σ) : Reachable step s₀ s₀ :=
  ⟨[], rfl⟩

theorem reachable_run (s₀ : σ) (l : List ι) : Reachable step s₀ (run step s₀ l) :=
  ⟨l, rfl⟩

theorem Reachable.tail {s₀ s : σ} (h : Reachable step s₀ s) (i : ι) :
    Reachable step s₀ (step s i) := by
  obtain ⟨l, rfl⟩ := h
  exact ⟨l ++ [i], run_concat _ _ _ _⟩

theorem run_invariant {P : σ → Prop} (hstep : ∀ s i, P s → P (step s i)) :
    ∀ (l : List ι) (s : σ), P s → P (run step s l)
  | [], _, h => h
  | i :: l, s, h => run_invariant hstep l (step s i) (hstep s i h)

/-- **A property kept by every step holds of every reachable state.** -/
theorem Reachable.invariant {P : σ → Prop} {s₀ s : σ} (h : Reachable step s₀ s) (h₀ : P s₀)
    (hstep : ∀ s i, P s → P (step s i)) : P s := by
  obtain ⟨l, rfl⟩ := h
  exact run_invariant hstep l s₀ h₀

/-! ### Conditions on every step, properties of every state

A condition on the steps of a run is about the state before a step and its input; a property of its
states is about each of them, the first and the last included. The rules below pass from the one to
the other. Where a step keeps a property exactly when it meets a condition, a run keeps it exactly
when all its steps do, and this is the form of most results about runs here. -/

variable (step) in
/-- Every step of the run from `s` meets the condition `C`, which is about the
state before the step and the input. -/
def Along (C : σ → ι → Prop) : σ → List ι → Prop
  | _, [] => True
  | s, i :: l => C s i ∧ Along C (step s i) l

variable (step) in
/-- Every state of the run from `s` has the property `P`. -/
def Throughout (P : σ → Prop) : σ → List ι → Prop
  | s, [] => P s
  | s, i :: l => P s ∧ Throughout P (step s i) l

instance decidableAlong {C : σ → ι → Prop} [∀ s i, Decidable (C s i)] :
    ∀ (s : σ) (l : List ι), Decidable (Along step C s l)
  | _, [] => isTrue trivial
  | s, i :: l =>
    have := decidableAlong (C := C) (step s i) l
    inferInstanceAs (Decidable (C s i ∧ Along step C (step s i) l))

instance decidableThroughout {P : σ → Prop} [∀ s, Decidable (P s)] :
    ∀ (s : σ) (l : List ι), Decidable (Throughout step P s l)
  | s, [] => inferInstanceAs (Decidable (P s))
  | s, i :: l =>
    have := decidableThroughout (P := P) (step s i) l
    inferInstanceAs (Decidable (P s ∧ Throughout step P (step s i) l))

theorem Along.mono {C D : σ → ι → Prop} (h : ∀ s i, C s i → D s i) :
    ∀ (l : List ι) (s : σ), Along step C s l → Along step D s l
  | [], _, _ => trivial
  | _ :: l, _, ⟨hi, hl⟩ => ⟨h _ _ hi, Along.mono h l _ hl⟩

theorem along_and {C D : σ → ι → Prop} :
    ∀ {l : List ι} {s : σ},
      Along step (fun s i => C s i ∧ D s i) s l ↔ Along step C s l ∧ Along step D s l
  | [], _ => (and_self_iff).symm
  | _ :: _, _ => by rw [Along, Along, Along, along_and, and_and_and_comm]

theorem along_forall {α : Type*} {C : α → σ → ι → Prop} :
    ∀ {l : List ι} {s : σ},
      Along step (fun s i => ∀ a, C a s i) s l ↔ ∀ a, Along step (C a) s l
  | [], _ => iff_of_true trivial fun _ => trivial
  | _ :: _, _ => by simp only [Along, along_forall, forall_and]

theorem along_append {C : σ → ι → Prop} (l₁ l₂ : List ι) :
    ∀ s : σ, Along step C s (l₁ ++ l₂) ↔ Along step C s l₁ ∧ Along step C (run step s l₁) l₂ := by
  induction l₁ with
  | nil => intro s; simp [Along]
  | cons i l₁ ih =>
    intro s
    rw [List.cons_append, Along, Along, ih, run_cons, and_assoc]

theorem Throughout.head {P : σ → Prop} {s : σ} {l : List ι} (h : Throughout step P s l) : P s := by
  cases l with
  | nil => exact h
  | cons i l => exact h.1

/-- **A property that a step keeps exactly when it meets a condition holds all
along a run exactly when every step meets it.** An invariant of the machine may be used. -/
theorem throughout_iff_along_of_invariant {I P : σ → Prop} {C : σ → ι → Prop}
    (hI : ∀ s i, I s → I (step s i)) (hstep : ∀ s i, I s → P s → (P (step s i) ↔ C s i)) :
    ∀ (l : List ι) (s : σ), I s → P s → (Throughout step P s l ↔ Along step C s l) := by
  intro l
  induction l with
  | nil => intro s _ h; exact iff_of_true h trivial
  | cons i l ih =>
    intro s hs h
    rw [Throughout, Along]
    constructor
    · rintro ⟨-, hl⟩
      have hi := hl.head
      exact ⟨(hstep s i hs h).mp hi, (ih _ (hI s i hs) hi).mp hl⟩
    · rintro ⟨hC, hl⟩
      have hi := (hstep s i hs h).mpr hC
      exact ⟨h, (ih _ (hI s i hs) hi).mpr hl⟩

theorem throughout_iff_along {P : σ → Prop} {C : σ → ι → Prop}
    (hstep : ∀ s i, P s → (P (step s i) ↔ C s i)) (l : List ι) (s : σ) (h : P s) :
    Throughout step P s l ↔ Along step C s l :=
  throughout_iff_along_of_invariant (I := fun _ => True) (fun _ _ _ => trivial)
    (fun s i _ => hstep s i) l s trivial h

/-- **A reflexive and transitive relation that a step respects exactly when it
meets a condition relates every two states of a run exactly when every step meets
it.** -/
theorem along_iff_forall_between {K : σ → σ → Prop} {C : σ → ι → Prop} (hrefl : ∀ s, K s s)
    (htrans : ∀ s t u, K s t → K t u → K s u) (hstep : ∀ s i, K s (step s i) ↔ C s i) :
    ∀ (l : List ι) (s : σ), Along step C s l ↔
      ∀ l₁ l₂ l₃, l = l₁ ++ l₂ ++ l₃ → K (run step s l₁) (run step s (l₁ ++ l₂)) := by
  have hrun : ∀ (l : List ι) (s : σ), Along step C s l → K s (run step s l) := by
    intro l
    induction l with
    | nil => intro s _; exact hrefl s
    | cons i l ih =>
      rintro s ⟨hi, hl⟩
      exact htrans _ _ _ ((hstep s i).mpr hi) (ih _ hl)
  intro l s
  constructor
  · rintro h l₁ l₂ l₃ rfl
    rw [along_append, along_append] at h
    rw [run_append]
    exact hrun l₂ _ h.1.2
  · intro h
    induction l generalizing s with
    | nil => trivial
    | cons i l ih =>
      refine ⟨(hstep s i).mp (h [] [i] l rfl), ih _ fun l₁ l₂ l₃ heq => ?_⟩
      exact h (i :: l₁) l₂ l₃ (by rw [heq]; rfl)

/-- **A property kept by every step that meets a condition holds all along a run whose
steps all meet it.** -/
theorem Along.throughout {P : σ → Prop} {C : σ → ι → Prop}
    (hstep : ∀ s i, P s → C s i → P (step s i)) :
    ∀ (l : List ι) (s : σ), Along step C s l → P s → Throughout step P s l
  | [], _, _, h => h
  | i :: l, s, ⟨hi, hl⟩, h => ⟨h, Along.throughout hstep l (step s i) hl (hstep s i h hi)⟩

/-- **Each step of a run with a property everywhere meets what follows from the property before and
after a step.** An invariant of the machine may be used. -/
theorem Throughout.along {I P : σ → Prop} {C : σ → ι → Prop} (hI : ∀ s i, I s → I (step s i))
    (hstep : ∀ s i, I s → P s → P (step s i) → C s i) :
    ∀ (l : List ι) (s : σ), I s → Throughout step P s l → Along step C s l
  | [], _, _, _ => trivial
  | i :: l, s, hs, ⟨h, hl⟩ =>
    ⟨hstep s i hs h hl.head, Throughout.along hI hstep l _ (hI s i hs) hl⟩

theorem Throughout.last {P : σ → Prop} :
    ∀ {l : List ι} {s : σ}, Throughout step P s l → P (run step s l)
  | [], _, h => h
  | _ :: _, _, ⟨_, hl⟩ => hl.last

/-- A property that no step regains holds all along a run when it holds at the end. -/
theorem throughout_iff_last_of_invariant {I P : σ → Prop} (hI : ∀ s i, I s → I (step s i))
    (hback : ∀ s i, I s → P (step s i) → P s) :
    ∀ (l : List ι) (s : σ), I s → (Throughout step P s l ↔ P (run step s l)) := by
  intro l
  induction l with
  | nil => exact fun _ _ => Iff.rfl
  | cons i l ih =>
    intro s hs
    refine ⟨Throughout.last, fun hlast => ?_⟩
    have hrest := (ih _ (hI s i hs)).mpr hlast
    exact ⟨hback s i hs hrest.head, hrest⟩

theorem Throughout.mono {P Q : σ → Prop} (h : ∀ s, P s → Q s) :
    ∀ {l : List ι} {s : σ}, Throughout step P s l → Throughout step Q s l
  | [], _, hs => h _ hs
  | _ :: _, _, ⟨hs, hl⟩ => ⟨h _ hs, hl.mono h⟩

theorem throughout_concat {P : σ → Prop} (l : List ι) (i : ι) : ∀ s : σ,
    Throughout step P s (l ++ [i]) ↔ Throughout step P s l ∧ P (run step s (l ++ [i])) := by
  induction l with
  | nil => exact fun s => Iff.rfl
  | cons j l ih =>
    intro s
    rw [List.cons_append, Throughout, Throughout, ih, run_cons, and_assoc]

/-! ### A value that is there for a while

A part of the state may be there or not, and steps may put it there, edit it and take it away. If it
is there at the end of a run, some step of the run put it there, or it was there at the start, and
since then it has been edited only. The induction is from the end of the run. -/

/-- **A value that steps edit while it is there has been there since a step that put it there.** An
invariant of the machine may be used. -/
theorem exists_put {μ : Type*} {I : σ → Prop} {f : σ → Option μ} {edit : μ → ι → μ}
    (hI : ∀ s i, I s → I (step s i))
    (hedit : ∀ s i m m', I s → f s = some m → f (step s i) = some m' → m' = edit m i) {s₀ : σ}
    (hI₀ : I s₀) (h₀ : f s₀ = none) (l : List ι) : ∀ {m : μ}, f (run step s₀ l) = some m →
      ∃ l₁ i l₂ m₀, l = l₁ ++ i :: l₂ ∧ f (run step s₀ l₁) = none ∧
        f (step (run step s₀ l₁) i) = some m₀ ∧ m = run edit m₀ l₂ ∧
        Throughout step (fun s => (f s).isSome = true) (step (run step s₀ l₁) i) l₂ := by
  induction l using List.reverseRecOn with
  | nil =>
    intro m hm
    rw [run_nil, h₀] at hm
    cases hm
  | append_singleton l j ih =>
    intro m hm
    rw [run_concat] at hm
    cases hbefore : f (run step s₀ l) with
    | none => exact ⟨l, j, [], m, rfl, hbefore, hm, rfl, Option.isSome_of_mem hm⟩
    | some m' =>
      have hinv : I (run step s₀ l) := run_invariant hI l s₀ hI₀
      have hm' := hedit _ _ _ _ hinv hbefore hm
      obtain ⟨l₁, i, l₂, m₀, rfl, hnone, hput, rfl, hthere⟩ := ih hbefore
      refine ⟨l₁, i, l₂ ++ [j], m₀, ?_, hnone, hput, ?_, ?_⟩
      · rw [List.append_assoc, List.cons_append]
      · rw [hm', run_concat]
      · refine (throughout_concat l₂ j _).mpr ⟨hthere, ?_⟩
        have hrun : run step (step (run step s₀ l₁) i) (l₂ ++ [j]) =
            step (run step s₀ (l₁ ++ i :: l₂)) j := by
          rw [run_concat, run_append, run_cons]
        rw [hrun, hm]
        rfl

/-! ### Deleting inputs

Two runs, of which the second lacks some inputs of the first, are compared by somebody who does not
see all of a state. The rule is that of noninterference: one lemma for a step that both runs make,
and one for a step that only the first makes. -/

/-- The second list is the first with some inputs for which `D` holds deleted. -/
inductive Thinned (D : ι → Prop) : List ι → List ι → Prop
  | nil : Thinned D [] []
  | keep (i : ι) {l l' : List ι} (h : Thinned D l l') : Thinned D (i :: l) (i :: l')
  | delete {i : ι} (hi : D i) {l l' : List ι} (h : Thinned D l l') : Thinned D (i :: l) l'

/-- **What an observer sees after a run does not depend on inputs it is not shown**,
when each step shows it what follows from what it saw before, and a deleted input
nothing. -/
theorem Thinned.obs_run {ω : Type*} {obs : σ → ω} {D : ι → Prop}
    (hkeep : ∀ s t i, obs s = obs t → obs (step s i) = obs (step t i))
    (hdelete : ∀ s i, D i → obs (step s i) = obs s) {l l' : List ι} (h : Thinned D l l') :
    ∀ {s t : σ}, obs s = obs t → obs (run step s l) = obs (run step t l') := by
  induction h with
  | nil => exact fun hst => hst
  | keep i _ ih => exact fun hst => ih (hkeep _ _ i hst)
  | delete hi _ ih => exact fun hst => ih ((hdelete _ _ hi).trans hst)

end Machine
