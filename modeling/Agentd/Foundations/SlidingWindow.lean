import Mathlib.Data.List.Basic
import Mathlib.Tactic.Common

/-!
# Sliding windows

A limiter keeps the times of what it has let through and forgets the old ones as it goes.
This file holds the two facts such a limiter rests on:

* `SlidingWindow.fresh_fresh` – what was forgotten at an earlier time would not
  count at a later one, so the pruned list answers as the whole history does;
* `SlidingWindow.Bounded.concat` – when fewer than `limit` entries are fresh at every time
  one is added, no half-open window of that width holds more than `limit`, wherever it
  stands.
-/

namespace SlidingWindow

/-- The entries less than `width` before `now`. -/
def fresh (width now : ℕ) (l : List ℕ) : List ℕ :=
  l.filter fun t => now - t < width

/-- The entries in `[x, x + width)`. -/
def within (width x : ℕ) (l : List ℕ) : List ℕ :=
  l.filter fun t => x ≤ t ∧ t < x + width

/-- No window of that width holds more than `limit` entries. -/
def Bounded (width limit : ℕ) (l : List ℕ) : Prop :=
  ∀ x, (within width x l).length ≤ limit

variable {width limit now x : ℕ} {l : List ℕ}

@[simp] theorem fresh_append (l₁ l₂ : List ℕ) :
    fresh width now (l₁ ++ l₂) = fresh width now l₁ ++ fresh width now l₂ :=
  List.filter_append ..

@[simp] theorem within_append (l₁ l₂ : List ℕ) :
    within width x (l₁ ++ l₂) = within width x l₁ ++ within width x l₂ :=
  List.filter_append ..

/-- Forgetting at an earlier time what was old then does not show later. -/
theorem fresh_fresh {earlier : ℕ} (h : earlier ≤ now) (l : List ℕ) :
    fresh width now (fresh width earlier l) = fresh width now l := by
  rw [fresh, fresh, List.filter_filter, fresh]
  refine List.filter_congr fun t _ => ?_
  have himp : now - t < width → earlier - t < width := by omega
  grind

/-- A window that `now` lies in holds only entries that are fresh at `now`. -/
theorem length_within_le_length_fresh (h : x ≤ now ∧ now < x + width) (l : List ℕ) :
    (within width x l).length ≤ (fresh width now l).length := by
  refine (List.monotone_filter_right l fun t ht => ?_).length_le
  simp only [decide_eq_true_eq] at ht ⊢
  omega

theorem bounded_nil : Bounded width limit [] :=
  fun _ => Nat.zero_le _

/-- **Adding an entry when fewer than `limit` are fresh keeps every window within the
limit.** -/
theorem Bounded.concat (h : Bounded width limit l) (hfresh : (fresh width now l).length < limit) :
    Bounded width limit (l ++ [now]) := by
  intro x
  rw [within_append, List.length_append]
  by_cases hx : x ≤ now ∧ now < x + width
  · have hle := length_within_le_length_fresh hx l
    have hone : (within width x [now]).length ≤ 1 := List.length_filter_le ..
    omega
  · have hnone : within width x [now] = [] := by simp [within, hx]
    rw [hnone]
    exact h x

end SlidingWindow
