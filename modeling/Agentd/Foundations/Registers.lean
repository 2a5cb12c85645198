import Mathlib.Data.List.Basic

/-!
# Last-writer-wins registers

A state changed by events, one part of which (`Register.read`) each event either
overwrites with a value of its own or leaves alone. What such a part holds after a list of
events is what the last event that writes it wrote, and this is why replaying a prefix of
a history over a state that already contains it does no harm:
`Register.read_replay`.

So a state that is made of several registers is replayed register by register, and no order between
events of different registers matters. What is asked of the events is only that each of them
overwrites or leaves alone; an event that adds to what is there is not of this kind.
-/

variable {σ ε : Type*}

/-- A part of the state that each event overwrites or leaves alone. -/
structure Register (act : σ → ε → σ) (α : Type*) where
  read : σ → α
  /-- What an event writes, if it writes this part. -/
  written : ε → Option α
  read_act : ∀ s e, read (act s e) = (written e).getD (read s)

namespace Register

variable {act : σ → ε → σ} {α : Type*} (r : Register act α)

/-- What the last event of a list to write the register wrote. -/
def last : List ε → Option α
  | [] => none
  | e :: es => (last es).or (r.written e)

/-- The register holds what was written last. -/
theorem read_foldl (es : List ε) : ∀ s : σ, r.read (es.foldl act s) = (r.last es).getD (r.read s) := by
  induction es with
  | nil => intro s; rfl
  | cons e es ih =>
    intro s
    rw [List.foldl_cons, ih, r.read_act, last]
    cases r.last es <;> rfl

/-- **Replaying a prefix first makes no difference.** -/
theorem read_replay (es fs : List ε) (s : σ) :
    r.read ((es ++ fs).foldl act (es.foldl act s)) = r.read ((es ++ fs).foldl act s) := by
  rw [List.foldl_append, List.foldl_append]
  simp only [read_foldl]
  cases r.last es <;> rfl

end Register
