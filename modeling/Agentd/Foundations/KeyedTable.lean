import Mathlib.Data.List.Nodup
import Mathlib.Data.List.Pairwise

/-!
# Tables with a primary key and a partial unique index

A relational table as the list of its rows, in the order they were inserted, with
the two constraints a schema most often declares: a primary key, and a unique index
over the rows that have a value for it. Both are fields of `KeyedTable`, so a table
that breaks one cannot be built: `KeyedTable.insert?` refuses a row that would, and
`KeyedTable.modify`, the `UPDATE … WHERE key = …` of such a table, is only offered for
changes that leave both values alone.

The rows of such a table are a list, in the order of insertion, and the two constraints are fields
of the structure: an update has to say why it keeps them, and an insertion that does not is refused.
Below, each operation comes with what is found afterwards under each key, which is all that its
users ask of it.
-/

variable {α κ ι : Type*}

/-- A table of rows `α` with primary key `key` and unique index `index`. -/
structure KeyedTable (key : α → κ) (index : α → Option ι) where
  rows : List α
  keys_nodup : (rows.map key).Nodup
  index_nodup : (rows.filterMap index).Nodup

namespace KeyedTable

variable {key : α → κ} {index : α → Option ι}

/-- A table is its rows. -/
@[ext] theorem ext {t u : KeyedTable key index} (h : t.rows = u.rows) : t = u := by
  cases t
  cases u
  congr

/-- The table without rows. -/
def empty (key : α → κ) (index : α → Option ι) : KeyedTable key index :=
  ⟨[], List.nodup_nil, List.nodup_nil⟩

/-- A change of rows that leaves key and index values alone. -/
def Keeps (key : α → κ) (index : α → Option ι) (f : α → α) : Prop :=
  ∀ a, key (f a) = key a ∧ index (f a) = index a

/-- Rows with one key are one row. -/
theorem eq_of_key_eq (t : KeyedTable key index) {a b : α} (ha : a ∈ t.rows) (hb : b ∈ t.rows)
    (h : key a = key b) : a = b :=
  List.inj_on_of_nodup_map t.keys_nodup ha hb h

/-- Rows with one value of the index are one row, if the value is there. -/
theorem eq_of_index_eq (t : KeyedTable key index) {a b : α} (ha : a ∈ t.rows) (hb : b ∈ t.rows)
    {i : ι} (hia : index a = some i) (hib : index b = some i) : a = b := by
  by_contra hne
  have hsymm : Std.Symm fun a b => ∀ i, index a = some i → ∀ j, index b = some j → i ≠ j :=
    ⟨fun _ _ h j hj i hi heq => h i hi j hj heq.symm⟩
  exact (List.pairwise_filterMap.mp t.index_nodup).forall ha hb hne i hia i hib rfl

variable [DecidableEq κ]

/-- The row with a given key. -/
def find? (t : KeyedTable key index) (k : κ) : Option α :=
  t.rows.find? fun a => key a = k

/-- To look a key up is to find the one row that has it. -/
theorem find?_eq_some {t : KeyedTable key index} {k : κ} {a : α} :
    t.find? k = some a ↔ a ∈ t.rows ∧ key a = k := by
  constructor
  · intro h
    exact ⟨List.mem_of_find?_eq_some h, by simpa using List.find?_some h⟩
  · rintro ⟨ha, rfl⟩
    cases hf : t.find? (key a) with
    | none =>
      have := List.find?_eq_none.mp hf a ha
      simp at this
    | some b =>
      have hb : key b = key a := by simpa using List.find?_some hf
      rw [t.eq_of_key_eq (List.mem_of_find?_eq_some hf) ha hb]

/-- Nothing is found when no row has the key. -/
theorem find?_eq_none {t : KeyedTable key index} {k : κ} :
    t.find? k = none ↔ ∀ a ∈ t.rows, key a ≠ k := by
  simp [find?, List.find?_eq_none]

/-! ### Updating by key

An update that keeps key and index keeps the constraints, and so cannot fail. It changes one row at
most and moves none. -/

/-- An update of the rows with some key leaves the keys of all rows as they are. -/
theorem keys_modify {f : α → α} (hf : Keeps key index f) (k : κ) (rows : List α) :
    (rows.map fun a => if key a = k then f a else a).map key = rows.map key := by
  rw [List.map_map]
  refine List.map_congr_left fun a _ => ?_
  simp only [Function.comp_apply]
  split_ifs
  · exact (hf a).1
  · rfl

/-- It leaves the values of the index as they are, too. -/
theorem index_modify {f : α → α} (hf : Keeps key index f) (k : κ) (rows : List α) :
    (rows.map fun a => if key a = k then f a else a).filterMap index = rows.filterMap index := by
  rw [List.filterMap_map]
  refine List.filterMap_congr fun a _ => ?_
  simp only [Function.comp_apply]
  split_ifs
  · exact (hf a).2
  · rfl

/-- Apply `f` to the row with key `k`. -/
def modify (t : KeyedTable key index) (k : κ) (f : α → α) (hf : Keeps key index f) :
    KeyedTable key index where
  rows := t.rows.map fun a => if key a = k then f a else a
  keys_nodup := by
    rw [keys_modify hf]
    exact t.keys_nodup
  index_nodup := by
    rw [index_modify hf]
    exact t.index_nodup

/-- The rows afterwards: the one that was changed, and the others. -/
theorem mem_modify {t : KeyedTable key index} {k : κ} {f : α → α} {hf : Keeps key index f} {b : α} :
    b ∈ (t.modify k f hf).rows ↔
      (∃ a ∈ t.rows, key a = k ∧ b = f a) ∨ (b ∈ t.rows ∧ key b ≠ k) := by
  simp only [modify, List.mem_map]
  constructor
  · rintro ⟨a, ha, rfl⟩
    split_ifs with h
    · exact Or.inl ⟨a, ha, h, rfl⟩
    · exact Or.inr ⟨ha, h⟩
  · rintro (⟨a, ha, h, rfl⟩ | ⟨hb, h⟩)
    · exact ⟨a, ha, if_pos h⟩
    · exact ⟨b, hb, if_neg h⟩

/-- What is looked up afterwards under the key is the row as it was changed. -/
theorem find?_modify_self {t : KeyedTable key index} {k : κ} {f : α → α} {hf : Keeps key index f}
    {a : α} (h : t.find? k = some a) : (t.modify k f hf).find? k = some (f a) := by
  obtain ⟨ha, rfl⟩ := find?_eq_some.mp h
  exact find?_eq_some.mpr ⟨mem_modify.mpr (Or.inl ⟨a, ha, rfl, rfl⟩), (hf a).1⟩

/-- What is looked up under another key is what was found there before. -/
theorem find?_modify_of_ne {t : KeyedTable key index} {k l : κ} {f : α → α}
    {hf : Keeps key index f} (h : l ≠ k) : (t.modify k f hf).find? l = t.find? l := by
  cases hl : t.find? l with
  | none =>
    rw [find?_eq_none] at hl ⊢
    intro b hb
    rcases mem_modify.mp hb with ⟨a, ha, hk, rfl⟩ | ⟨hb, -⟩
    · rw [(hf a).1]
      exact hl a ha
    · exact hl b hb
  | some a =>
    obtain ⟨ha, rfl⟩ := find?_eq_some.mp hl
    exact find?_eq_some.mpr ⟨mem_modify.mpr (Or.inr ⟨ha, h⟩), rfl⟩

/-! ### Deleting

A deletion keeps the order of what is left, and the constraints. -/

omit [DecidableEq κ] in
/-- `DELETE FROM … WHERE …`: the rows for which `p` holds stay. -/
def filter (t : KeyedTable key index) (p : α → Bool) : KeyedTable key index where
  rows := t.rows.filter p
  keys_nodup := t.keys_nodup.sublist ((List.filter_sublist).map key)
  index_nodup := t.index_nodup.sublist ((List.filter_sublist).filterMap index)

/-! ### Inserting

An insertion is refused when some row has the key or the value of the index, as SQLite refuses it
for a primary key or a unique index; an absent value of the index is never in the way of another. -/

variable [DecidableEq ι]

/-- The row `a` repeats the key or the index value of `b`. -/
def Conflict (key : α → κ) (index : α → Option ι) (a b : α) : Prop :=
  key a = key b ∨ (index a).isSome ∧ index a = index b

instance (a b : α) : Decidable (Conflict key index a b) :=
  inferInstanceAs (Decidable (_ ∨ _ ∧ _))

/-- Append a row, unless it breaks a constraint. -/
def insert? (t : KeyedTable key index) (a : α) : Option (KeyedTable key index) :=
  if h : ∀ b ∈ t.rows, ¬Conflict key index a b then
    some
      { rows := t.rows ++ [a]
        keys_nodup := by
          rw [List.map_append, List.map_singleton, ← List.concat_eq_append,
            List.nodup_concat]
          refine ⟨fun hmem => ?_, t.keys_nodup⟩
          obtain ⟨b, hb, hkey⟩ := List.mem_map.mp hmem
          exact h b hb (Or.inl hkey.symm)
        index_nodup := by
          rw [List.filterMap_append]
          cases hi : index a with
          | none => simpa [hi] using t.index_nodup
          | some i =>
            rw [List.filterMap_cons_some hi, List.filterMap_nil, ← List.concat_eq_append,
              List.nodup_concat]
            refine ⟨fun hmem => ?_, t.index_nodup⟩
            obtain ⟨b, hb, hidx⟩ := List.mem_filterMap.mp hmem
            exact h b hb (Or.inr ⟨by rw [hi]; rfl, hi.trans hidx.symm⟩) }
  else none

/-- **An insertion succeeds when no row is in conflict with it**, and the row comes last. -/
theorem insert?_eq_some {t u : KeyedTable key index} {a : α} :
    t.insert? a = some u ↔
      (∀ b ∈ t.rows, ¬Conflict key index a b) ∧ u.rows = t.rows ++ [a] := by
  unfold insert?
  split_ifs with h
  · rw [Option.some_inj]
    exact ⟨fun heq => ⟨h, by rw [← heq]⟩, fun heq => KeyedTable.ext heq.2.symm⟩
  · simp [h]

/-- It fails when some row is. -/
theorem insert?_eq_none {t : KeyedTable key index} {a : α} :
    t.insert? a = none ↔ ∃ b ∈ t.rows, Conflict key index a b := by
  unfold insert?
  split_ifs with h
  · simpa using h
  · simpa using h

/-! ### Updating an indexed value

Where an update sets the indexed value it may fail: it is an insertion of the changed row into the
table without the old one, except for the place of the row. -/

/-- Apply `f` to the row with key `k`, unless this breaks a constraint. -/
def modify? (t : KeyedTable key index) (k : κ) (f : α → α) : Option (KeyedTable key index) :=
  let rows := t.rows.map fun a => if key a = k then f a else a
  if h : (rows.map key).Nodup ∧ (rows.filterMap index).Nodup then some ⟨rows, h.1, h.2⟩ else none

/-- What is looked up afterwards is the changed row. -/
theorem find?_modify? {t u : KeyedTable key index} {k : κ} {f : α → α} (h : t.modify? k f = some u)
    {a : α} (ha : t.find? k = some a) (hf : key (f a) = key a) : u.find? k = some (f a) := by
  obtain ⟨hmem, hkey⟩ := find?_eq_some.mp ha
  unfold modify? at h
  dsimp only at h
  split_ifs at h
  rw [← Option.some.inj h]
  exact find?_eq_some.mpr ⟨List.mem_map.mpr ⟨a, hmem, if_pos hkey⟩, hf.trans hkey⟩

/-- **A row that is inserted and then changed is inserted as changed.** -/
theorem modify?_of_insert? {t u : KeyedTable key index} {a : α} (h : t.insert? a = some u)
    {f : α → α} (hf : key (f a) = key a) : u.modify? (key a) f = t.insert? (f a) := by
  obtain ⟨hfree, hu⟩ := insert?_eq_some.mp h
  have hrows : (u.rows.map fun b => if key b = key a then f b else b) = t.rows ++ [f a] := by
    rw [hu, List.map_append, List.map_singleton, if_pos rfl]
    refine congrArg (· ++ [f a]) ?_
    conv_rhs => rw [← List.map_id t.rows]
    exact List.map_congr_left fun b hb => if_neg fun heq => hfree b hb (Or.inl heq.symm)
  unfold modify?
  simp only [hrows]
  cases hins : t.insert? (f a) with
  | some v =>
    obtain ⟨-, hv⟩ := insert?_eq_some.mp hins
    rw [dif_pos ⟨hv ▸ v.keys_nodup, hv ▸ v.index_nodup⟩]
    exact congrArg some (KeyedTable.ext hv.symm)
  | none =>
    obtain ⟨b, hb, hconflict⟩ := insert?_eq_none.mp hins
    refine dif_neg ?_
    rintro ⟨-, hnodup⟩
    rcases hconflict with hkey | ⟨hsome, hidx⟩
    · exact hfree b hb (Or.inl (hf.symm.trans hkey))
    · obtain ⟨i, hi⟩ := Option.isSome_iff_exists.mp hsome
      rw [List.filterMap_append, List.filterMap_cons_some hi, List.filterMap_nil,
        ← List.concat_eq_append, List.nodup_concat] at hnodup
      exact hnodup.1 (List.mem_filterMap.mpr ⟨b, hb, hidx.symm.trans hi⟩)

/-- A row that was found before an insertion is found after it. -/
theorem find?_insert?_of_ne {t u : KeyedTable key index} {a : α} (h : t.insert? a = some u) {k : κ}
    (hk : key a ≠ k) : u.find? k = t.find? k := by
  obtain ⟨-, hrows⟩ := insert?_eq_some.mp h
  rw [find?, hrows, List.find?_append]
  simp [find?, hk]

/-- A row that was inserted is found under its key. -/
theorem find?_insert?_self {t u : KeyedTable key index} {a : α} (h : t.insert? a = some u) :
    u.find? (key a) = some a := by
  obtain ⟨-, hrows⟩ := insert?_eq_some.mp h
  refine find?_eq_some.mpr ⟨?_, rfl⟩
  rw [hrows]
  simp

end KeyedTable
