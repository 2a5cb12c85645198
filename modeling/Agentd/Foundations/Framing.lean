import Mathlib.Data.List.Infix
import Mathlib.Data.Nat.Find
import Mathlib.Order.Monotone.Defs

/-!
# Lines of a stream that is still arriving

A stream arrives in pieces, and a line of it is there once its separator is
(`Framing.completeLines`). More of the stream leaves the lines that are there alone
(`Framing.completeLines_grows`).

A reader stops at some piece. When it is to stop as soon as something has arrived, both
are the first of some property of the number of pieces (`Framing.FirstAt`), and
`Framing.firstAt_iff` compares the two: the reader stops in time exactly when it has no reason to
stop before, and one as soon as it should.
-/

namespace Framing

/-! ### Lines

The lines of a stream that is arriving are those whose separator has come, and what is left over may
go on. More of the stream completes the part that was left over, and adds lines at the end. -/

section Lines

variable {α : Type*} [DecidableEq α] {sep : α}

/-- The lines that have ended, after text with no end in it. -/
def linesFrom (sep : α) : List α → List α → List (List α)
  | _, [] => []
  | line, a :: s => if a = sep then line :: linesFrom sep [] s else linesFrom sep (line ++ [a]) s

/-- The lines of a stream that have ended. -/
def completeLines (sep : α) (s : List α) : List (List α) :=
  linesFrom sep [] s

theorem linesFrom_grows (line s t : List α) :
    linesFrom sep line s <+: linesFrom sep line (s ++ t) := by
  induction s generalizing line with
  | nil => exact List.nil_prefix
  | cons a s ih =>
    rw [List.cons_append, linesFrom, linesFrom]
    split
    · exact (List.prefix_cons_inj line).mpr (ih [])
    · exact ih _

theorem completeLines_grows (s t : List α) :
    completeLines sep s <+: completeLines sep (s ++ t) :=
  linesFrom_grows [] s t

theorem linesFrom_append {l : List α} (h : sep ∉ l) (line s : List α) :
    linesFrom sep line (l ++ sep :: s) = (line ++ l) :: completeLines sep s := by
  induction l generalizing line with
  | nil => rw [List.nil_append, linesFrom, if_pos rfl, List.append_nil, completeLines]
  | cons a l ih =>
    rw [List.mem_cons, not_or] at h
    rw [List.cons_append, linesFrom, if_neg (Ne.symm h.1), ih h.2, List.append_assoc,
      List.singleton_append]

theorem completeLines_line {l : List α} (h : sep ∉ l) (s : List α) :
    completeLines sep (l ++ sep :: s) = l :: completeLines sep s :=
  linesFrom_append h [] s

/-- The first line is what stands before the first separator. -/
theorem takeWhile_line {l : List α} (h : sep ∉ l) (s : List α) :
    (l ++ sep :: s).takeWhile (· ≠ sep) = l := by
  have hne : ∀ a ∈ l, decide (a ≠ sep) = true := fun a ha =>
    decide_eq_true fun heq => h (heq ▸ ha)
  rw [List.takeWhile_append_of_pos hne, List.takeWhile_cons_of_neg (by simp), List.append_nil]

/-- What is read through the first separator, or to the end without one, and what is left. -/
def readUntil (sep : α) (s : List α) : List α × List α :=
  match s.dropWhile (· ≠ sep) with
  | [] => (s, [])
  | a :: rest => (s.takeWhile (· ≠ sep) ++ [a], rest)

theorem readUntil_line {l : List α} (h : sep ∉ l) (s : List α) :
    readUntil sep (l ++ sep :: s) = (l ++ [sep], s) := by
  have hne : ∀ a ∈ l, decide (a ≠ sep) = true := fun a ha =>
    decide_eq_true fun heq => h (heq ▸ ha)
  have hdrop : (l ++ sep :: s).dropWhile (· ≠ sep) = sep :: s := by
    rw [List.dropWhile_append_of_pos hne, List.dropWhile_cons_of_neg (by simp)]
  rw [readUntil, hdrop]
  dsimp only
  rw [takeWhile_line h]

omit [DecidableEq α] in
/-- The first line ends in the first piece of a stream, or that piece is a part of it. -/
theorem line_cases {l s u v : List α} (hl : sep ∉ l) (h : u ++ v = l ++ sep :: s) :
    (∃ t, u = l ++ sep :: t) ∨
      sep ∉ u ∧ ∃ l', sep ∉ l' ∧ l = u ++ l' ∧ v = l' ++ sep :: s := by
  rcases List.append_eq_append_iff.mp h with ⟨l', rfl, hv⟩ | ⟨t, rfl, hs⟩
  · rw [List.mem_append, not_or] at hl
    exact Or.inr ⟨hl.1, l', hl.2, rfl, hv⟩
  · cases t with
    | nil =>
      rw [List.append_nil]
      exact Or.inr ⟨hl, [], List.not_mem_nil, (List.append_nil l).symm, hs.symm⟩
    | cons a t =>
      rw [List.cons_append, List.cons.injEq] at hs
      rw [← hs.1]
      exact Or.inl ⟨t, rfl⟩

end Lines

/-! ### The first of several

Two conditions on the number of pieces that have come are compared by the first number at which each
holds. If the one follows from the other, and conversely where it first holds, they begin to hold at
the same time. -/

/-- The first number up to a bound with a property is `n`, or none is and `n` is beyond. -/
def FirstAt (P : ℕ → Prop) (bound n : ℕ) : Prop :=
  n ≤ bound ∧ P n ∧ (∀ m < n, ¬P m) ∨ bound < n ∧ ∀ m ≤ bound, ¬P m

/-- Where there is one with the property, there is a first. -/
theorem exists_first {P : ℕ → Prop} (m : ℕ) (h : P m) : ∃ k ≤ m, P k ∧ ∀ j < k, ¬P j := by
  classical
  have hex : ∃ k, P k := ⟨m, h⟩
  exact ⟨Nat.find hex, Nat.find_min' hex h, Nat.find_spec hex, fun j hj => Nat.find_min hex hj⟩

/-- **Stopping in time**: what is first with `P` is first with `Q` as well exactly when no `P`
comes before `Q`, and the first `Q` has `P`. -/
theorem firstAt_iff {P Q : ℕ → Prop} {bound n : ℕ} (hmono : Monotone Q)
    (h : FirstAt P bound n) :
    FirstAt Q bound n ↔
      (∀ m ≤ bound, P m → Q m) ∧ ∀ m ≤ bound, Q m → (∀ j < m, ¬Q j) → P m := by
  constructor
  · rintro (⟨hn, hQ, hbefore⟩ | ⟨hn, hnone⟩)
    · rcases h with ⟨-, hP, hbeforeP⟩ | ⟨hbeyond, -⟩
      · refine ⟨fun m _ hPm => ?_, fun m _ hQm hfirst => ?_⟩
        · have hle : n ≤ m := Nat.le_of_not_lt fun hlt => hbeforeP m hlt hPm
          exact hmono hle hQ
        · have hle : n ≤ m := Nat.le_of_not_lt fun hlt => hbefore m hlt hQm
          have hge : m ≤ n := Nat.le_of_not_lt fun hlt => hfirst n hlt hQ
          rwa [Nat.le_antisymm hge hle]
      · exact absurd hn (Nat.not_le.mpr hbeyond)
    · rcases h with ⟨hle, -, -⟩ | ⟨-, hnoneP⟩
      · exact absurd hle (Nat.not_le.mpr hn)
      · exact ⟨fun m hm hP => absurd hP (hnoneP m hm), fun m hm hQ _ => absurd hQ (hnone m hm)⟩
  · rintro ⟨hlate, hfirst⟩
    rcases h with ⟨hn, hP, hbefore⟩ | ⟨hn, hnone⟩
    · refine Or.inl ⟨hn, hlate n hn hP, fun m hm hQ => ?_⟩
      obtain ⟨k, hk, hQk, hfirstk⟩ := exists_first m hQ
      exact hbefore k (by omega) (hfirst k (by omega) hQk hfirstk)
    · refine Or.inr ⟨hn, fun m hm hQ => ?_⟩
      obtain ⟨k, hk, hQk, hfirstk⟩ := exists_first m hQ
      exact hnone k (hk.trans hm) (hfirst k (hk.trans hm) hQk hfirstk)

end Framing
