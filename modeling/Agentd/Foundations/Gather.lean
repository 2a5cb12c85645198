import Mathlib.Algebra.GroupWithZero.Nat
import Mathlib.Data.List.AList
import Mathlib.Data.List.Induction
import Mathlib.Data.List.Sort
import Mathlib.Order.MinMax

/-!
# Maps filled in one pass

A pass over a list fills a map: it files each item under its key, where a later one replaces an
earlier (`Gather.latest`) or is combined with it (`Gather.merged`), or it counts how often each key
occurs (`Gather.tally`). What the maps hold in the end is said of the list alone:

* `Gather.lookup_latest` – under a key there is the last item that has it;
* `Gather.lookup_merged` – under a key there are all the items that have it, combined;
* `Gather.total_tally` – the counts add up to the length of the list.

Of a list that is sorted and cut, `Gather.greatest` says what is left and what is not.
-/

namespace Gather

variable {α κ β : Type*} [DecidableEq κ]

/-! ### The last of each key

A map that is filled from a list in one pass keeps the last value for each key. So what is looked up
is found in the list by going from its end. -/

/-- Items filed under their key, those without a key left out. -/
def latest (key : α → Option κ) (val : α → β) (l : List α) : AList fun _ : κ => β :=
  l.foldl (fun m a => (key a).elim m fun k => m.insert k (val a)) ∅

/-- The last item that has the key. -/
def lastWith (key : α → Option κ) (k : κ) (l : List α) : Option α :=
  l.reverse.find? fun a => key a = some k

variable {key : α → Option κ} {val : α → β} {k : κ} {l : List α}

/-- The last member is inserted last, over what was under its key. -/
theorem latest_concat (l : List α) (a : α) :
    latest key val (l ++ [a]) =
      (key a).elim (latest key val l) fun k => (latest key val l).insert k (val a) := by
  rw [latest, List.foldl_append]
  rfl

/-- The last member is the last one with its key. -/
theorem lastWith_concat (l : List α) (a : α) :
    lastWith key k (l ++ [a]) = if key a = some k then some a else lastWith key k l := by
  rw [lastWith, List.reverse_append, List.reverse_singleton, List.singleton_append,
    List.find?_cons, lastWith]
  by_cases h : key a = some k <;> simp [h]

/-- **Under a key there is the last item that has it.** -/
theorem lookup_latest (l : List α) :
    (latest key val l).lookup k = (lastWith key k l).map val := by
  induction l using List.reverseRecOn with
  | nil => rfl
  | append_singleton l a ih =>
    rw [latest_concat, lastWith_concat]
    rcases key a with _ | k'
    · rw [Option.elim_none, ih, if_neg (Option.some_ne_none k).symm]
    · rw [Option.elim_some]
      by_cases hk : k' = k
      · rw [hk, AList.lookup_insert, if_pos rfl, Option.map_some]
      · rw [AList.lookup_insert_ne (Ne.symm hk), ih, if_neg (fun h => hk (Option.some.inj h))]

/-- There is a last one when there is one. -/
theorem isSome_lastWith : (lastWith key k l).isSome ↔ ∃ a ∈ l, key a = some k := by
  simp [lastWith, List.find?_isSome]

/-- It has the key, and nothing behind it has. -/
theorem exists_of_lastWith {a : α} (h : lastWith key k l = some a) :
    ∃ before after, l = before ++ a :: after ∧ key a = some k ∧ ∀ b ∈ after, key b ≠ some k := by
  obtain ⟨hkey, after, before, hsplit, hafter⟩ := List.find?_eq_some_iff_append.mp h
  refine ⟨before.reverse, after.reverse, ?_, by simpa using hkey, by simpa using hafter⟩
  rw [← List.reverse_reverse l, hsplit, List.reverse_append, List.reverse_cons, List.append_assoc,
    List.singleton_append]

/-- It is the one after which no other has the key. -/
theorem lastWith_append_cons {before after : List α} {a : α} (ha : key a = some k)
    (hafter : ∀ b ∈ after, key b ≠ some k) : lastWith key k (before ++ a :: after) = some a := by
  have hnone : after.reverse.find? (fun b => decide (key b = some k)) = none := by
    simpa using hafter
  rw [lastWith, List.reverse_append, List.reverse_cons, List.append_assoc, List.find?_append,
    hnone, Option.none_or, List.singleton_append, List.find?_cons, decide_eq_true ha]

/-! ### All of each key, combined

A map may also combine the values that a key comes with. Under a key is then what the values make
together; where the operation takes the better of two, that is the best of them. -/

/-- The items of a list combined from the left. -/
def fold1 (combine : β → β → β) : List β → Option β
  | [] => none
  | v :: vs => some (vs.foldl combine v)

/-- The items under a key. -/
def under (k : κ) (items : List (κ × β)) : List β :=
  (items.filter fun kv => kv.1 = k).map Prod.snd

/-- Items filed under their key, where each is combined with what is there. -/
def merged (combine : β → β → β) (items : List (κ × β)) : AList fun _ : κ => β :=
  items.foldl
    (fun m kv => m.insert kv.1 (((m.lookup kv.1).map fun b => combine b kv.2).getD kv.2)) ∅

section

variable {combine : β → β → β} {items : List (κ × β)} {b : β}

/-- One more value is combined with what there was. -/
theorem fold1_concat (l : List β) (v : β) :
    fold1 combine (l ++ [v]) = some (((fold1 combine l).map fun b => combine b v).getD v) := by
  cases l with
  | nil => rfl
  | cons a l =>
    rw [List.cons_append, fold1, fold1, List.foldl_append]
    rfl

/-- Only of no values nothing is made. -/
theorem fold1_eq_none {l : List β} : fold1 combine l = none ↔ l = [] := by
  cases l <;> simp [fold1]

/-- A pair is under its own key only. -/
theorem under_concat (items : List (κ × β)) (kv : κ × β) :
    under k (items ++ [kv]) = if kv.1 = k then under k items ++ [kv.2] else under k items := by
  rw [under, under, List.filter_append, List.map_append, List.filter_singleton]
  by_cases h : kv.1 = k <;> simp [h]

/-- A value is under a key when the two are a pair of the list. -/
theorem mem_under {v : β} : v ∈ under k items ↔ (k, v) ∈ items := by
  simp [under]

/-- Nothing is under a key that does not come. -/
theorem under_eq_nil : under k items = [] ↔ k ∉ items.map Prod.fst := by
  rw [List.eq_nil_iff_forall_not_mem, List.mem_map]
  simp [mem_under]

/-- **Under a key there are all the items that have it, combined.** -/
theorem lookup_merged (items : List (κ × β)) :
    (merged combine items).lookup k = fold1 combine (under k items) := by
  induction items using List.reverseRecOn with
  | nil => rfl
  | append_singleton items kv ih =>
    rw [merged, List.foldl_append, List.foldl_cons, List.foldl_nil, ← merged, under_concat]
    by_cases hk : kv.1 = k
    · rw [if_pos hk, fold1_concat, ← ih, ← hk, AList.lookup_insert]
    · rw [if_neg hk, AList.lookup_insert_ne (Ne.symm hk), ih]

/-- The keys of the map are those of the items. -/
theorem mem_merged : k ∈ merged combine items ↔ k ∈ items.map Prod.fst := by
  rw [← not_iff_not, ← AList.lookup_eq_none, lookup_merged, fold1_eq_none, under_eq_nil]

/-- What combining keeps of the first is that of the first of all. -/
theorem exists_of_fold1 {γ : Type*} {f : β → γ} (hf : ∀ a v, f (combine a v) = f a) {l : List β}
    (h : fold1 combine l = some b) : ∃ v ∈ l, f v = f b := by
  induction l using List.reverseRecOn generalizing b with
  | nil => cases h
  | append_singleton l v ih =>
    rw [fold1_concat, Option.some_inj] at h
    rcases hl : fold1 combine l with _ | a
    · rw [hl, Option.map_none, Option.getD_none] at h
      exact ⟨v, by simp, congrArg f h⟩
    · rw [hl, Option.map_some, Option.getD_some] at h
      obtain ⟨u, hu, heq⟩ := ih hl
      exact ⟨u, List.mem_append_left _ hu, by rw [heq, ← h, hf]⟩

/-- When combining takes the later time, the result has the latest of all. -/
theorem isGreatest_of_fold1 {τ : Type*} [LinearOrder τ] {time : β → τ}
    (htime : ∀ a v, time (combine a v) = max (time a) (time v)) {l : List β}
    (h : fold1 combine l = some b) :
    (∃ v ∈ l, time v = time b) ∧ ∀ v ∈ l, time v ≤ time b := by
  induction l using List.reverseRecOn generalizing b with
  | nil => cases h
  | append_singleton l v ih =>
    rw [fold1_concat, Option.some_inj] at h
    rcases hl : fold1 combine l with _ | a
    · rw [hl, Option.map_none, Option.getD_none] at h
      rw [fold1_eq_none.mp hl, ← h]
      simp
    · rw [hl, Option.map_some, Option.getD_some] at h
      obtain ⟨⟨u, hu, heq⟩, hmax⟩ := ih hl
      rw [← h, htime]
      refine ⟨?_, fun w hw => ?_⟩
      · rcases max_choice (time a) (time v) with ha | hv
        · exact ⟨u, List.mem_append_left _ hu, by rw [ha, heq]⟩
        · exact ⟨v, by simp, hv.symm⟩
      · rcases List.mem_append.mp hw with hold | hnew
        · exact (hmax w hold).trans (le_max_left _ _)
        · rw [List.mem_singleton.mp hnew]
          exact le_max_right _ _

end

/-! ### The greatest few

A list is sorted, stably and downwards, and cut off. What is left are the greatest, and of those
that are equal the ones that came first. -/

section

variable {τ : Type*} [LinearOrder τ] (time : β → τ)

/-- The list sorted by descending time, those that came first before others of their time. -/
def sortedDown (l : List β) : List β :=
  l.insertionSort fun a b => time b ≤ time a

/-- The first `n` of the sorted list. -/
def greatest (n : ℕ) (l : List β) : List β :=
  (sortedDown time l).take n

variable {time} {n : ℕ} {l : List β}

/-- A sorted list goes down. -/
theorem pairwise_sortedDown (l : List β) :
    (sortedDown time l).Pairwise fun a b => time b ≤ time a := by
  have htotal : Std.Total fun a b : β => time b ≤ time a := ⟨fun a b => le_total _ _⟩
  have htrans : IsTrans β fun a b => time b ≤ time a := ⟨fun _ _ _ hab hbc => hbc.trans hab⟩
  exact List.pairwise_insertionSort _ _

/-- A sorted list has the members it had. -/
theorem perm_sortedDown (l : List β) : (sortedDown time l).Perm l :=
  List.perm_insertionSort _ _

/-- The greatest few go down as well, being the beginning of the sorted list. -/
theorem pairwise_greatest (n : ℕ) (l : List β) :
    (greatest time n l).Pairwise fun a b => time b ≤ time a :=
  (pairwise_sortedDown l).sublist (List.take_sublist _ _)

/-- So many are left, if there were so many. -/
theorem length_greatest (n : ℕ) (l : List β) : (greatest time n l).length = min n l.length := by
  rw [greatest, List.length_take, (perm_sortedDown l).length_eq]

/-- The greatest few are members of the list. -/
theorem mem_of_mem_greatest {a : β} (h : a ∈ greatest time n l) : a ∈ l :=
  (perm_sortedDown l).mem_iff.mp (List.mem_of_mem_take h)

/-- What is distinct stays so when a part is left out and the rest is sorted. -/
theorem nodup_map_greatest {γ : Type*} {f : β → γ} (h : (l.map f).Nodup) :
    ((greatest time n l).map f).Nodup :=
  ((((perm_sortedDown l).map f).nodup_iff).mpr h).sublist ((List.take_sublist _ _).map f)

/-- What is cut off is no later than what is left. -/
theorem le_of_notMem_greatest {a b : β} (ha : a ∈ l) (hcut : a ∉ greatest time n l)
    (hb : b ∈ greatest time n l) : time a ≤ time b := by
  have hsorted : (sortedDown time l).Pairwise fun a b => time b ≤ time a := pairwise_sortedDown l
  rw [← List.take_append_drop n (sortedDown time l), List.pairwise_append] at hsorted
  have hmem : a ∈ (sortedDown time l).take n ++ (sortedDown time l).drop n := by
    rw [List.take_append_drop]
    exact (perm_sortedDown l).mem_iff.mpr ha
  rcases List.mem_append.mp hmem with hkept | hdropped
  · exact absurd hkept hcut
  · exact hsorted.2.2 b hb a hdropped

end

/-! ### How many of each key

A map of counters, in which a key that is not there counts as zero. -/

/-- One more of a key. -/
def bump (m : AList fun _ : κ => ℕ) (k : κ) : AList fun _ : κ => ℕ :=
  m.insert k ((m.lookup k).getD 0 + 1)

/-- The sum of the counts. -/
def total (m : AList fun _ : κ => ℕ) : ℕ :=
  (m.entries.map Sigma.snd).sum

/-- How often each key occurs. -/
def tally (l : List κ) : AList fun _ : κ => ℕ :=
  l.foldl bump ∅

/-- A count and those of the other keys. -/
theorem total_eq_add_erase (m : AList fun _ : κ => ℕ) (k : κ) :
    total m = (m.lookup k).getD 0 + total (m.erase k) := by
  by_cases hk : k ∈ m
  · obtain ⟨n, l₁, l₂, hl₁, hm, herase⟩ := List.exists_of_kerase hk
    have hlookup : m.lookup k = some n := by
      rw [← Option.mem_def, AList.mem_lookup_iff, hm]
      simp
    have herase' : (m.erase k).entries = l₁ ++ l₂ := herase
    rw [total, total, herase', hlookup, hm]
    simp only [List.map_append, List.map_cons, List.sum_append, List.sum_cons, Option.getD_some]
    omega
  · have herase : m.erase k = m := AList.ext (List.kerase_of_notMem_keys hk)
    rw [AList.lookup_eq_none.mpr hk, herase, Option.getD_none, Nat.zero_add]

/-- To count one more makes the total one more. -/
theorem total_bump (m : AList fun _ : κ => ℕ) (k : κ) : total (bump m k) = total m + 1 := by
  have hentries : total (bump m k) = (m.lookup k).getD 0 + 1 + total (m.erase k) := by
    rw [total, bump, AList.entries_insert, List.map_cons, List.sum_cons]
    rfl
  rw [hentries, total_eq_add_erase m k]
  omega

/-- To count one more makes one counter one more, and no other. -/
theorem getD_lookup_bump (m : AList fun _ : κ => ℕ) (k k' : κ) :
    ((bump m k').lookup k).getD 0 = (m.lookup k).getD 0 + if k' = k then 1 else 0 := by
  by_cases h : k' = k
  · rw [if_pos h, ← h, bump, AList.lookup_insert, Option.getD_some]
  · rw [if_neg h, bump, AList.lookup_insert_ne (Ne.symm h), Nat.add_zero]

/-- The last is counted last. -/
theorem tally_concat (l : List κ) (k : κ) : tally (l ++ [k]) = bump (tally l) k := by
  rw [tally, List.foldl_append]
  rfl

/-- **The counts add up to the length of the list.** -/
theorem total_tally (l : List κ) : total (tally l) = l.length := by
  induction l using List.reverseRecOn with
  | nil => rfl
  | append_singleton l k ih => rw [tally_concat, total_bump, ih, List.length_append,
      List.length_singleton]

/-- The count of a key. -/
theorem getD_lookup_tally (l : List κ) (k : κ) : ((tally l).lookup k).getD 0 = l.count k := by
  induction l using List.reverseRecOn with
  | nil => rfl
  | append_singleton l k' ih =>
    rw [tally_concat, getD_lookup_bump, ih, List.count_append, List.count_singleton]
    simp

end Gather
