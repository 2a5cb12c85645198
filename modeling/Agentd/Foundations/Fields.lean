import Mathlib.Data.List.TakeWhile

/-!
# Lines and fields

A table as text: a line for every row, and in a line the fields with a separator between them.
Reading it back means to split text into lines (`Fields.strLines`) and a line into so many fields
at most (`Fields.splitn`), where the last field takes what is left.

* `Fields.splitn_joined_iff` – fields read back exactly when no field but the last contains the
  separator;
* `Fields.strLines_flatMap` – lines read back, except for a carriage return at the end of one;
* `Fields.filterMap_eq_self_iff` – a table reads back exactly when each of its rows does.
-/

namespace Fields

section Separator

variable {α : Type*} [DecidableEq α] {sep : α}

/-- `splitn`: the pieces between the first separators, at most so many. -/
def splitn : ℕ → α → List α → List (List α)
  | 0, _, _ => []
  | 1, _, s => [s]
  | n + 2, sep, s => match s.dropWhile (· ≠ sep) with
      | [] => [s]
      | _ :: rest => s.takeWhile (· ≠ sep) :: splitn (n + 1) sep rest

/-- Fields with the separator between them. -/
def joined (sep : α) : List (List α) → List α
  | [] => []
  | [f] => f
  | f :: g :: fields => f ++ sep :: joined sep (g :: fields)

/-- A field without the separator is cut off, and the rest is split into one part less. -/
theorem splitn_append (n : ℕ) {f : List α} (h : sep ∉ f) (rest : List α) :
    splitn (n + 2) sep (f ++ sep :: rest) = f :: splitn (n + 1) sep rest := by
  have hne : ∀ a ∈ f, decide (a ≠ sep) = true := fun a ha =>
    decide_eq_true fun heq => h (heq ▸ ha)
  have hsep : ¬decide (sep ≠ sep) = true := by simp
  have hdrop : (f ++ sep :: rest).dropWhile (fun a => decide (a ≠ sep)) = sep :: rest := by
    rw [List.dropWhile_append_of_pos hne, List.dropWhile_cons, if_neg hsep]
  have htake : (f ++ sep :: rest).takeWhile (fun a => decide (a ≠ sep)) = f := by
    rw [List.takeWhile_append_of_pos hne, List.takeWhile_cons, if_neg hsep, List.append_nil]
  rw [splitn, hdrop]
  dsimp only
  rw [htake]

/-- No piece but the last contains the separator. -/
theorem notMem_of_mem_dropLast_splitn (n : ℕ) : ∀ {s f : List α},
    f ∈ (splitn n sep s).dropLast → sep ∉ f := by
  induction n with
  | zero => exact fun h => absurd h List.not_mem_nil
  | succ n ih =>
    intro s f h
    cases n with
    | zero => exact absurd h List.not_mem_nil
    | succ n =>
      rw [splitn] at h
      split at h
      · exact absurd h List.not_mem_nil
      · rename_i rest _
        have hcons : f ∈ (s.takeWhile (· ≠ sep)) :: (splitn (n + 1) sep rest).dropLast := by
          cases hrest : splitn (n + 1) sep rest with
          | nil =>
            rw [hrest] at h
            exact absurd h List.not_mem_nil
          | cons g fields =>
            rw [hrest] at h
            exact h
        rcases List.mem_cons.mp hcons with rfl | hmem
        · intro hsep
          have hne := List.mem_takeWhile_imp (p := fun a => decide (a ≠ sep)) hsep
          exact of_decide_eq_true hne rfl
        · exact ih hmem

/-- **Fields that were joined are split again**, if none but the last has the separator in it: the
last takes all that is left. -/
theorem splitn_joined (fields : List (List α)) (hne : fields ≠ [])
    (h : ∀ f ∈ fields.dropLast, sep ∉ f) :
    splitn fields.length sep (joined sep fields) = fields := by
  induction fields with
  | nil => exact absurd rfl hne
  | cons f fields ih =>
    cases fields with
    | nil => rfl
    | cons g fields =>
      rw [List.dropLast_cons_cons] at h
      rw [joined, List.length_cons, List.length_cons,
        splitn_append _ (h f List.mem_cons_self), ← List.length_cons (a := g),
        ih (List.cons_ne_nil g fields) fun f' hf' => h f' (List.mem_cons_of_mem _ hf')]

/-- **Fields read back exactly when no field but the last contains the separator.** -/
theorem splitn_joined_iff {fields : List (List α)} (hne : fields ≠ []) :
    splitn fields.length sep (joined sep fields) = fields ↔ ∀ f ∈ fields.dropLast, sep ∉ f := by
  refine ⟨fun h f hf => ?_, splitn_joined fields hne⟩
  rw [← h] at hf
  exact notMem_of_mem_dropLast_splitn _ hf

end Separator

/-! ### Lines

`str::lines` ends a line at a line feed, drops a carriage return before it, and makes no line of
what follows the last line feed if that is empty. -/

/-- A line without the carriage return at its end. -/
def stripCr (line : List Char) : List Char :=
  if line.getLast? = some '\r' then line.dropLast else line

/-- The lines of text that has been split at the line feeds. -/
def lineEnds : List (List Char) → List (List Char)
  | [] => []
  -- what comes after the last line feed, which is a line if there is anything
  | [line] => if line = [] then [] else [line]
  | line :: next :: lines => stripCr line :: lineEnds (next :: lines)

/-- `str::lines`. -/
def strLines (s : List Char) : List (List Char) :=
  lineEnds (s.splitOn '\n')

/-- The first line is what comes before the first line feed. -/
theorem strLines_cons {line : List Char} (h : '\n' ∉ line) (rest : List Char) :
    strLines (line ++ '\n' :: rest) = stripCr line :: strLines rest := by
  rw [strLines, List.splitOn_append_cons_of_beq _ _ (beq_self_eq_true _), List.splitOn_eq_singleton h,
    List.singleton_append, strLines]
  cases hrest : rest.splitOn '\n' with
  | nil => exact absurd hrest (List.splitOn_ne_nil _ _)
  | cons next lines => rfl

/-- **Lines read back**, without the carriage returns at their ends. -/
theorem strLines_flatMap {lines : List (List Char)} (h : ∀ line ∈ lines, '\n' ∉ line) :
    strLines (lines.flatMap fun line => line ++ ['\n']) = lines.map stripCr := by
  induction lines with
  | nil => rfl
  | cons line lines ih =>
    rw [List.forall_mem_cons] at h
    rw [List.flatMap_cons, List.append_assoc, List.singleton_append, strLines_cons h.1, ih h.2,
      List.map_cons]

/-- A carriage return is dropped at the very end only. -/
theorem stripCr_append_cons {c : Char} (hc : c ≠ '\r') (f t : List Char) :
    stripCr (f ++ c :: t) = f ++ c :: stripCr t := by
  have hlast : (f ++ c :: t).getLast? = (c :: t).getLast? := by
    rw [List.getLast?_append, List.getLast?_cons]
    rfl
  rw [stripCr, stripCr, hlast]
  cases t with
  | nil => rw [if_neg (by simpa using hc), if_neg (by simp)]
  | cons d t =>
    rw [List.getLast?_cons_cons]
    split_ifs
    · rw [List.dropLast_append_of_ne_nil (List.cons_ne_nil _ _), List.dropLast_cons_cons]
    · rfl

/-- A line is what it was when it does not end in one. -/
theorem stripCr_eq_self_iff {line : List Char} :
    stripCr line = line ↔ line.getLast? ≠ some '\r' := by
  rw [stripCr]
  split_ifs with h
  · refine iff_of_false (fun heq => ?_) (not_not_intro h)
    have hlength := congrArg List.length heq
    have hne : line ≠ [] := by
      rintro rfl
      cases h
    have hpos := List.length_pos_iff.mpr hne
    rw [List.length_dropLast] at hlength
    omega
  · exact iff_of_true rfl h

/-! ### Tables -/

/-- **A list is what is found in it exactly when each of its elements is.** -/
theorem filterMap_eq_self_iff {α : Type*} {f : α → Option α} {l : List α} :
    l.filterMap f = l ↔ ∀ a ∈ l, f a = some a := by
  induction l with
  | nil => exact iff_of_true rfl fun a ha => absurd ha List.not_mem_nil
  | cons a l ih =>
    rw [List.forall_mem_cons, ← ih]
    cases ha : f a with
    | none =>
      rw [List.filterMap_cons_none ha]
      refine iff_of_false (fun h => ?_) fun h => by cases h.1
      have hlength := List.length_filterMap_le f l
      rw [h, List.length_cons] at hlength
      omega
    | some b => rw [List.filterMap_cons_some ha, List.cons.injEq, Option.some_inj]

end Fields
