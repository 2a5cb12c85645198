import Mathlib.Data.List.Basic

/-!
# Observers of a state changed by events

An observer sees a part of a state, and events that act on states that look alike leave
states that look alike. Two events commute before an observer when it cannot tell in which
order they came; an event may overtake, in a list of events, all those it commutes with
(`Observer.view_overtake`).

The observer may be coarse, and this is the point: two events that write different parts of a state
commute before everybody, and two that write the same part commute before those who do not look at
it.
-/

variable {σ ε : Type*}

/-- What is seen of a state, as far as it is changed by what is seen of it. -/
structure Observer (act : σ → ε → σ) (γ : Type*) where
  view : σ → γ
  congr : ∀ {s t : σ} (e : ε), view s = view t → view (act s e) = view (act t e)

namespace Observer

variable {act : σ → ε → σ} {γ : Type*} (o : Observer act γ)

/-- The observer cannot tell in which order the two events came. -/
def Commute (e f : ε) : Prop :=
  ∀ s, o.view (act (act s e) f) = o.view (act (act s f) e)

theorem congr_foldl (es : List ε) : ∀ {s t : σ}, o.view s = o.view t →
    o.view (es.foldl act s) = o.view (es.foldl act t) := by
  induction es with
  | nil => exact fun h => h
  | cons e es ih => exact fun h => ih (o.congr e h)

/-- **An event may overtake those it commutes with.** -/
theorem view_overtake {es : List ε} {f : ε} (h : ∀ e ∈ es, o.Commute e f) (fs : List ε) : ∀ s : σ,
    o.view ((f :: es ++ fs).foldl act s) = o.view ((es ++ f :: fs).foldl act s) := by
  induction es with
  | nil => intro s; rfl
  | cons e es ih =>
    intro s
    rw [List.forall_mem_cons] at h
    calc o.view ((f :: e :: es ++ fs).foldl act s)
        = o.view ((es ++ fs).foldl act (act (act s f) e)) := rfl
      _ = o.view ((es ++ fs).foldl act (act (act s e) f)) := o.congr_foldl _ (h.1 s).symm
      _ = o.view ((f :: es ++ fs).foldl act (act s e)) := rfl
      _ = o.view ((es ++ f :: fs).foldl act (act s e)) := ih h.2 _

end Observer
