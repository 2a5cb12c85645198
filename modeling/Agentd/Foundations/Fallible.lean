import Mathlib.Data.List.Basic

/-!
# Fallible computations

When a chain of computations in `Except` succeeds: each of its links does
(`Except.bind_eq_ok`), and a list decodes exactly when each of its elements does
(`Except.exists_mapM_eq_ok`).

Both are stated as equivalences, so that they can be used to take a chain apart as well as to build
one: what follows from the success of a function of the model is read off link by link, without
unfolding the monad.
-/

namespace Except

variable {ε α β : Type}

/-- To forget the error is to keep the value. -/
theorem toOption_eq_some {x : Except ε α} {a : α} : x.toOption = some a ↔ x = .ok a := by
  cases x <;> simp [Except.toOption]

/-- A function is applied to a value there is. -/
theorem map_eq_ok {x : Except ε α} {f : α → β} {b : β} :
    x.map f = .ok b ↔ ∃ a, x = .ok a ∧ f a = b := by
  cases x with
  | error e => exact ⟨nofun, fun ⟨_, h, _⟩ => nomatch h⟩
  | ok a =>
    constructor
    · exact fun h => ⟨a, rfl, Except.ok.inj h⟩
    · rintro ⟨a', h, rfl⟩
      obtain rfl := Except.ok.inj h
      rfl

/-- A chain of two computations succeeds when both do. -/
theorem bind_eq_ok {x : Except ε α} {f : α → Except ε β} {b : β} :
    x >>= f = .ok b ↔ ∃ a, x = .ok a ∧ f a = .ok b := by
  cases x with
  | error e => exact ⟨nofun, fun ⟨_, h, _⟩ => nomatch h⟩
  | ok a => exact ⟨fun h => ⟨a, rfl, h⟩, fun ⟨_, h, hf⟩ => Except.ok.inj h ▸ hf⟩

/-- **A list decodes element by element.** -/
theorem mapM_eq_ok {f : α → Except ε β} {l : List α} :
    ∀ {l' : List β}, l.mapM f = .ok l' ↔ l.map f = l'.map .ok := by
  induction l with
  | nil =>
    intro l'
    rw [List.mapM_nil, List.map_nil, eq_comm (a := []), List.map_eq_nil_iff]
    exact ⟨fun h => (Except.ok.inj h).symm, fun h => congrArg _ h.symm⟩
  | cons a l ih =>
    intro l'
    rw [List.mapM_cons, bind_eq_ok, List.map_cons]
    constructor
    · rintro ⟨b, hb, h⟩
      obtain ⟨bs, hbs, h⟩ := bind_eq_ok.mp h
      obtain rfl := Except.ok.inj h
      rw [hb, ih.mp hbs, List.map_cons]
    · intro h
      obtain ⟨b, bs, rfl, hb, hbs⟩ := List.map_eq_cons_iff.mp h.symm
      exact ⟨b, hb.symm, bind_eq_ok.mpr ⟨bs, ih.mpr hbs.symm, rfl⟩⟩

/-- A list of computations succeeds exactly when each of them does: there is no other way for it to
fail than at one of its members. -/
theorem exists_mapM_eq_ok {f : α → Except ε β} {l : List α} :
    (∃ l', l.mapM f = .ok l') ↔ ∀ a ∈ l, ∃ b, f a = .ok b := by
  simp only [mapM_eq_ok]
  constructor
  · rintro ⟨l', h⟩ a ha
    have hmem : f a ∈ l'.map (.ok : β → Except ε β) := h ▸ List.mem_map_of_mem ha
    obtain ⟨b, -, hb⟩ := List.mem_map.mp hmem
    exact ⟨b, hb.symm⟩
  · intro h
    induction l with
    | nil => exact ⟨[], rfl⟩
    | cons a l ih =>
      rw [List.forall_mem_cons] at h
      obtain ⟨⟨b, hb⟩, hl⟩ := h
      obtain ⟨bs, hbs⟩ := ih hl
      exact ⟨b :: bs, by rw [List.map_cons, List.map_cons, hb, hbs]⟩

end Except

/-- A list of options, none of which is missing. -/
theorem Option.isSome_mapM {α β : Type} {f : α → Option β} {l : List α}
    (h : ∀ a ∈ l, (f a).isSome) : (l.mapM f).isSome := by
  induction l with
  | nil => rfl
  | cons a l ih =>
    rw [List.forall_mem_cons] at h
    obtain ⟨b, hb⟩ := Option.isSome_iff_exists.mp h.1
    obtain ⟨bs, hbs⟩ := Option.isSome_iff_exists.mp (ih h.2)
    rw [List.mapM_cons, hb, hbs]
    rfl
