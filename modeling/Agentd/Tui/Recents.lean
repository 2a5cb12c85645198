import Agentd.Foundations.Gather
import Agentd.Foundations.Json
import Agentd.Foundations.TextOrder
import Agentd.Foundations.UnixPath
import Mathlib.Data.List.Dedup

/-!
# The recent directories

`extract_recents` makes the list of the new-session modal from what `session.list_active` answers.
A pass over the sessions files each time under its directory, where the later of two times stays;
the map is listed in the order of its paths, sorted by time and cut after ten.

Directories are the same when their paths are, whatever the text (`UnixPath.components`); the map
keeps the text that came first.

`Agentd.Recents.extractRecents_spec` – the ten latest directories, each with its latest time.

The times are those of the last event of each session, as texts that are parsed again; a session
without a directory, or without a time that can be read, is passed over. Of two directories with the
same time the one whose path is less comes first, since the sort is stable.
-/

namespace Agentd.Recents

open Json Rfc3339 UnixPath

/-- The day, the second and the nanosecond, by which instants are compared. -/
def moment (t : DateTime) : ℤ ×ₗ ℕ ×ₗ ℕ :=
  toLex (t.date.toDays, toLex (t.secondOfDay, t.nano))

theorem moment_injective : Function.Injective moment := by
  intro t u h
  simp only [moment, toLex_inj, Prod.mk.injEq] at h
  exact DateTime.eq_of_parts h.1 h.2.1 h.2.2

/-- The order of instants. -/
local instance : LinearOrder DateTime :=
  LinearOrder.lift' moment moment_injective

theorem lt_iff_before {t u : DateTime} : t < u ↔ t.Before u := by
  change moment t < moment u ↔ _
  simp [DateTime.Before, moment, Prod.Lex.lt_iff]

/-- A directory as it was written, and a time. -/
abbrev Recent :=
  String × DateTime

/-- The directory, as a path. -/
def Recent.dir (r : Recent) : List Component :=
  components r.1

/-- A session with a directory and a time that can be read. -/
def sighting (s : Value) : Option Recent := do
  let dir ← s.getStr "working_dir"
  let ts ← (s.getStr "last_event_at").bind parseFromRfc3339
  some (dir, ts)

def sightings (value : Value) : List Recent :=
  (value.asArray.getD []).filterMap sighting

/-- `and_modify`: the later time under the path that is there. -/
def later (existing new : Recent) : Recent :=
  if existing.2.Before new.2 then (existing.1, new.2) else existing

/-- The map of the pass. -/
def byDir (l : List Recent) : AList fun _ : List Component => Recent :=
  Gather.merged later (l.map fun r => (r.dir, r))

/-- `into_iter` of a `BTreeMap`. -/
def inPathOrder (m : AList fun _ : List Component => Recent) : List Recent :=
  (m.entries.insertionSort fun a b => a.1 ≤ b.1).map Sigma.snd

/-- `extract_recents`. -/
def extractRecents (value : Value) : List Recent :=
  Gather.greatest Prod.snd 10 (inPathOrder (byDir (sightings value)))

/-! ### The map

The sessions are gone through in the order of the answer. Under a path there is one entry, with the
text that came first and the latest time. -/

variable {l : List Recent} {r : Recent}

theorem snd_later (a v : Recent) : (later a v).2 = max a.2 v.2 := by
  unfold later
  split_ifs with h
  · exact (max_eq_right (lt_iff_before.mpr h).le).symm
  · exact (max_eq_left (not_lt.mp fun hlt => h (lt_iff_before.mp hlt))).symm

theorem fst_later (a v : Recent) : (later a v).1 = a.1 := by
  unfold later
  split_ifs <;> rfl

theorem mem_under_dir {k : List Component} {v : Recent} :
    v ∈ Gather.under k (l.map fun r => (r.dir, r)) ↔ v ∈ l ∧ v.dir = k := by
  rw [Gather.mem_under, List.mem_map]
  constructor
  · rintro ⟨r, hr, heq⟩
    obtain ⟨rfl, rfl⟩ := Prod.mk.inj heq
    exact ⟨hr, rfl⟩
  · rintro ⟨hv, rfl⟩
    exact ⟨v, hv, rfl⟩

/-- What the map holds: a directory that was seen, with the latest of its times. -/
theorem lookup_byDir {k : List Component} (h : (byDir l).lookup k = some r) :
    r.dir = k ∧ (∃ v ∈ l, v.dir = k ∧ v.2 = r.2) ∧
      ∀ v ∈ l, v.dir = k → v.2 ≤ r.2 := by
  rw [byDir, Gather.lookup_merged] at h
  obtain ⟨⟨v, hv, htime⟩, hmax⟩ := Gather.isGreatest_of_fold1 snd_later h
  obtain ⟨w, hw, htext⟩ := Gather.exists_of_fold1 fst_later h
  rw [mem_under_dir] at hv hw
  refine ⟨?_, ⟨v, hv.1, hv.2, htime⟩, fun u hu hdir => hmax u (mem_under_dir.mpr ⟨hu, hdir⟩)⟩
  rw [← hw.2, Recent.dir, Recent.dir, htext]

theorem mem_byDir {k : List Component} : k ∈ byDir l ↔ k ∈ l.map Recent.dir := by
  rw [byDir, Gather.mem_merged, List.map_map]
  rfl

/-! ### The list of the map

A `BTreeMap` is listed in the order of its keys, and these are compared as paths. -/

theorem mem_inPathOrder {m : AList fun _ : List Component => Recent} :
    r ∈ inPathOrder m ↔ ∃ k, m.lookup k = some r := by
  rw [inPathOrder, List.mem_map]
  constructor
  · rintro ⟨⟨k, v⟩, hmem, rfl⟩
    exact ⟨k, AList.mem_lookup_iff.mpr ((List.mem_insertionSort _).mp hmem)⟩
  · rintro ⟨k, hk⟩
    exact ⟨⟨k, r⟩, (List.mem_insertionSort _).mpr (AList.mem_lookup_iff.mp hk), rfl⟩

/-- The directories of the list are the keys of the map. -/
theorem map_dir_inPathOrder (l : List Recent) :
    ((inPathOrder (byDir l)).map Recent.dir).Perm (byDir l).keys := by
  have hdir : ∀ e ∈ (byDir l).entries.insertionSort (fun a b => a.1 ≤ b.1),
      (Recent.dir ∘ Sigma.snd) e = e.1 := by
    intro e he
    exact (lookup_byDir (AList.mem_lookup_iff.mpr ((List.mem_insertionSort _).mp he))).1
  rw [inPathOrder, List.map_map, List.map_congr_left hdir]
  exact (List.perm_insertionSort _ _).map _

theorem keys_byDir_perm (l : List Recent) : (byDir l).keys.Perm (l.map Recent.dir).dedup := by
  refine (List.perm_ext_iff_of_nodup (byDir l).keys_nodup (List.nodup_dedup _)).mpr fun k => ?_
  rw [← AList.mem_keys, mem_byDir, List.mem_dedup]

theorem length_inPathOrder (l : List Recent) :
    (inPathOrder (byDir l)).length = (l.map Recent.dir).dedup.length := by
  rw [← List.length_map Recent.dir, (map_dir_inPathOrder l).length_eq,
    (keys_byDir_perm l).length_eq]

/-! ### The list of the modal

The latest ten of the entries; entries of one time stay in the order of their paths. -/

/-- The recents are different directories. -/
theorem nodup_extractRecents (value : Value) : ((extractRecents value).map Recent.dir).Nodup :=
  Gather.nodup_map_greatest
    ((map_dir_inPathOrder _).nodup_iff.mpr (byDir (sightings value)).keys_nodup)

/-- The text of a directory is one that was seen. -/
theorem exists_sighting_of_mem {value : Value} (h : r ∈ extractRecents value) :
    ∃ v ∈ sightings value, v.1 = r.1 := by
  obtain ⟨k, hk⟩ := mem_inPathOrder.mp (Gather.mem_of_mem_greatest h)
  rw [byDir, Gather.lookup_merged] at hk
  obtain ⟨w, hw, htext⟩ := Gather.exists_of_fold1 fst_later hk
  exact ⟨w, (mem_under_dir.mp hw).1, htext⟩

/-- **The recents are the ten latest directories.** They are different paths, each with the latest
time that can be read among the sessions of the directory; they come in descending order; there are
ten of them, or as many as there are directories with a time; and no directory left out has a later
time than one listed. -/
theorem extractRecents_spec (value : Value) :
    ((extractRecents value).map Recent.dir).Nodup ∧
    (∀ r ∈ extractRecents value, (∃ v ∈ sightings value, v.dir = r.dir ∧ v.2 = r.2) ∧
      ∀ v ∈ sightings value, v.dir = r.dir → ¬r.2.Before v.2) ∧
    (extractRecents value).Pairwise (fun a b => ¬a.2.Before b.2) ∧
    (extractRecents value).length =
      min 10 ((sightings value).map Recent.dir).dedup.length ∧
    ∀ v ∈ sightings value, (∀ r ∈ extractRecents value, r.dir ≠ v.dir) →
      ∀ r ∈ extractRecents value, ¬r.2.Before v.2 := by
  refine ⟨nodup_extractRecents value, fun r hr => ?_, ?_, ?_, fun v hv hcut r hr => ?_⟩
  · obtain ⟨k, hk⟩ := mem_inPathOrder.mp (Gather.mem_of_mem_greatest hr)
    obtain ⟨hdir, ⟨v, hv, hvdir, htime⟩, hmax⟩ := lookup_byDir hk
    refine ⟨⟨v, hv, hvdir.trans hdir.symm, htime⟩, fun u hu hudir => ?_⟩
    rw [← lt_iff_before, not_lt]
    exact hmax u hu (hudir.trans hdir)
  · refine (Gather.pairwise_greatest 10 _).imp fun {a b} h => ?_
    rw [← lt_iff_before, not_lt]
    exact h
  · rw [extractRecents, Gather.length_greatest, length_inPathOrder]
  · -- what the map holds for the directory is cut off
    have hkey : v.dir ∈ byDir (sightings value) := mem_byDir.mpr (List.mem_map_of_mem hv)
    obtain ⟨e, he⟩ := Option.isSome_iff_exists.mp (AList.lookup_isSome.mpr hkey)
    obtain ⟨hdir, -, hmax⟩ := lookup_byDir he
    have hnotMem : e ∉ extractRecents value := fun hmem => hcut e hmem hdir
    have hle := Gather.le_of_notMem_greatest (mem_inPathOrder.mpr ⟨_, he⟩) hnotMem hr
    rw [← lt_iff_before, not_lt]
    exact (hmax v hv rfl).trans hle

end Agentd.Recents
