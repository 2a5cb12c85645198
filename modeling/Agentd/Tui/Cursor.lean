import Agentd.Tui.Selection

/-!
# The selection is an index

Keys act on the session that is selected, and `selected` is the number of a row. When a session
ends its row goes, the rows below it move up, and the number stays unless it is past the end. So
the selection stays on its session when the row that goes is below it, and when it was on the last
row, which is where the number is corrected. When a row above goes in the middle of the list, the
selection is on the next session.

`Agentd.TuiState.keepsCursor_iff` says that no other event moves it.
-/

namespace Agentd

/-! ### A row goes from a list

The selection is an index, and the session under the cursor is the one at it. When a row goes that
is above the selected one, the index points to the next session, unless it was the last and is
clamped. In all other cases the session under the cursor, if it is still there, is there still. The
ids of the rows are distinct, so that one row goes. -/

section Erase

variable {α : Type*} [DecidableEq α]

/-- The number of a row, corrected when it is past the end of a list that is not empty. -/
def clamp (i length : ℕ) : ℕ :=
  if length ≤ i ∧ length ≠ 0 then length - 1 else i

/-- **The row `b` is still at its number, once `a` is gone, unless `a` was above it and
something below.** -/
theorem getElem?_erase_clamp_iff {u v : List α} {a b : α} (hnodup : (u ++ b :: v).Nodup)
    (hne : b ≠ a) :
    ((u ++ b :: v).erase a)[clamp u.length ((u ++ b :: v).erase a).length]? = some b ↔
      ¬(a ∈ u ∧ v ≠ []) := by
  by_cases ha : a ∈ u
  · have hpos := List.length_pos_of_mem ha
    have hlength := List.length_erase_of_mem ha
    rw [List.erase_append_left _ ha, and_iff_right ha, not_not]
    cases v with
    | nil =>
      -- the last row is one up
      have hclamp : clamp u.length (u.erase a ++ [b]).length = (u.erase a).length := by
        rw [clamp, List.length_append, List.length_singleton, if_pos ⟨by omega, by omega⟩]
        omega
      rw [hclamp, List.getElem?_append_right le_rfl, Nat.sub_self]
      exact iff_of_true rfl rfl
    | cons c v =>
      have hclamp : clamp u.length (u.erase a ++ b :: c :: v).length = u.length := by
        rw [clamp, if_neg]
        simp only [List.length_append, List.length_cons]
        omega
      have hnext : u.length - (u.erase a).length = 1 := by omega
      have hbc : b ≠ c := by
        have hbelow := (List.nodup_cons.mp (List.nodup_append.mp hnodup).2.1).1
        exact fun h => hbelow (h ▸ List.mem_cons_self)
      rw [hclamp, List.getElem?_append_right (by omega), hnext]
      exact iff_of_false (fun h => hbc (Option.some.inj h).symm) (List.cons_ne_nil c v)
  · have hclamp : clamp u.length (u ++ (b :: v).erase a).length = u.length := by
      rw [clamp, if_neg]
      rw [List.length_append, List.erase_cons_tail (by simpa using hne), List.length_cons]
      omega
    rw [List.erase_append_right _ ha, hclamp, List.getElem?_append_right le_rfl, Nat.sub_self,
      List.erase_cons_tail (by simpa using hne)]
    exact iff_of_true rfl fun h => ha h.1

end Erase

namespace TuiState

/-- The identifiers of the rows. -/
def rowIds (st : TuiState) : List Uuid :=
  st.sessions.map Session.id

/-- The identifier of the selected session. -/
def cursor (st : TuiState) : Option Uuid :=
  st.selectedSession.map Session.id

/-- The session under the cursor is the one at the selected row. -/
theorem cursor_eq (st : TuiState) : st.cursor = st.rowIds[st.selected]? :=
  (List.getElem?_map ..).symm

/-- **The selected session is still selected, if it is still listed.** -/
def KeepsCursor (st st' : TuiState) : Prop :=
  ∀ id, st.cursor = some id → id ∈ st'.rowIds → st'.cursor = some id

/-- The event ends a session that is listed above the selected one, and the selected one is not
the last. -/
def EndsAbove (st : TuiState) (event : Event) : Prop :=
  (event.kind = "session.killed" ∨ event.kind = "session.finished") ∧
    ∃ id, event.sessionId = some id ∧ id ∈ st.rowIds.take st.selected ∧
      st.selected + 1 < st.rowIds.length

/-! ### Events that end no session

Of the other events none removes or moves a line, and none moves the selection. At the most a line
comes at the end, and what was under the cursor is there still. -/

/-- Rows are added at the end at most, and the selection stays. -/
structure Grows (st st' : TuiState) : Prop where
  rowIds : st.rowIds <+: st'.rowIds
  selected : st'.selected = st.selected

variable {st st' : TuiState}

/-- Where the ids and the selection are what they were, nothing has been added either. -/
theorem Grows.of_ids (hids : st'.rowIds = st.rowIds) (hselected : st'.selected = st.selected) :
    st.Grows st' :=
  ⟨hids ▸ List.prefix_rfl, hselected⟩

/-- A state that stays the same grows, by nothing. -/
theorem Grows.refl (st : TuiState) : st.Grows st :=
  .of_ids rfl rfl

/-- **To grow is to keep the cursor.** -/
theorem Grows.keepsCursor (h : st.Grows st') : st.KeepsCursor st' := by
  obtain ⟨rows, hrows⟩ := h.rowIds
  intro id hid _
  rw [cursor_eq] at hid ⊢
  obtain ⟨hlt, -⟩ := List.getElem?_eq_some_iff.mp hid
  rw [h.selected, ← hrows, List.getElem?_append_left hlt]
  exact hid

/-- A line that is changed stays where it is. -/
theorem grows_modifySession (id : Uuid) {f : Session → Session} (hf : ∀ s, (f s).id = s.id) :
    st.Grows (st.modifySession id f) :=
  .of_ids (map_id_modifySession st id hf) rfl

/-- A session comes at the end, or takes the place of its own line. -/
theorem grows_applyCreated (now : Instant) (event : Event) :
    st.Grows (st.applyCreated now event) := by
  unfold applyCreated
  split
  · exact .refl st
  · rename_i s _
    dsimp only
    split_ifs with hhas
    · exact .of_ids (map_id_modifyFirst (fun _ _ => rfl) st.sessions) rfl
    · refine ⟨⟨[s.id], ?_⟩, rfl⟩
      change st.sessions.map Session.id ++ _ = (st.sessions ++ [s]).map Session.id
      rw [List.map_append, List.map_singleton]

/-- A session that is renamed keeps its row. -/
theorem grows_applyRenamed (now : Instant) (event : Event) :
    st.Grows (st.applyRenamed now event) := by
  unfold applyRenamed
  split
  · split_ifs
    · exact .of_ids (map_id_modifySession st _ fun _ => rfl) rfl
    · exact .refl st
  · exact .refl st

/-- A session whose status is set keeps its row, be it to finished. -/
theorem grows_setStatus (now : Instant) (id : Uuid) (status : SessionStatus) :
    st.Grows (st.setStatus now id status) := by
  unfold setStatus
  split_ifs
  · exact .of_ids (map_id_modifySession st _ fun _ => rfl) rfl
  · exact .refl st

/-- A reported status moves no row. -/
theorem grows_applyStatusChanged (now : Instant) (event : Event) :
    st.Grows (st.applyStatusChanged now event) := by
  unfold applyStatusChanged
  split
  · exact grows_setStatus now _ _
  · exact .refl st

/-- A dismissed error moves no row. -/
theorem grows_applyDismissed (now : Instant) (event : Event) :
    st.Grows (st.applyDismissed now event) := by
  unfold applyDismissed
  split
  · exact grows_setStatus now _ _
  · exact .refl st

/-- A task moves no row. -/
theorem grows_applyTaskChanged (now : Instant) (event : Event) :
    st.Grows (st.applyTaskChanged now event) := by
  unfold applyTaskChanged
  split
  · split_ifs
    · exact .of_ids (map_id_modifySession st _ fun _ => rfl) rfl
    · exact .refl st
  · exact .refl st

/-- Usage moves no row. -/
theorem grows_applyUsageUpdated (event : Event) : st.Grows (st.applyUsageUpdated event) := by
  unfold applyUsageUpdated
  split
  · exact .refl st
  · exact grows_modifySession _ fun _ => rfl

/-- The plugins are listed apart, so that one that comes moves no row. -/
theorem grows_applyPluginConnected (event : Event) :
    st.Grows (st.applyPluginConnected event) := by
  unfold applyPluginConnected
  split
  · exact .refl st
  · split_ifs
    · exact .of_ids rfl rfl
    · exact .of_ids rfl rfl

/-- A plugin that goes moves no row either. -/
theorem grows_applyPluginDisconnected (event : Event) :
    st.Grows (st.applyPluginDisconnected event) := by
  unfold applyPluginDisconnected
  split
  · exact .refl st
  · exact .of_ids rfl rfl

/-- **An event that ends no session moves no row.** -/
theorem grows_applyEvent (now : Instant) {event : Event}
    (h : ¬(event.kind = "session.killed" ∨ event.kind = "session.finished")) :
    st.Grows (st.applyEvent now event) := by
  have hgrows {st' : TuiState} (h : st.Grows st') : st.Grows { st' with dirty := true } :=
    ⟨h.rowIds, h.selected⟩
  refine hgrows ?_
  rw [if_neg h]
  split_ifs
  · exact grows_applyCreated now event
  · exact grows_applyRenamed now event
  · exact grows_applyStatusChanged now event
  · exact grows_applyDismissed now event
  · exact grows_applyTaskChanged now event
  · exact grows_applyUsageUpdated event
  · exact grows_applyPluginConnected event
  · exact grows_applyPluginDisconnected event
  · exact .refl st

/-! ### Events that end one

`session.killed` and `session.finished` remove the line of their session, and nothing says where the
cursor should go: it stays at its index. -/

/-- All lines but that of the session are left. -/
theorem sessions_applyEnded (st : TuiState) {event : Event} {id : Uuid}
    (hid : event.sessionId = some id) :
    (st.applyEnded event).sessions = st.sessions.filter fun s => s.id ≠ id := by
  rw [applyEnded, hid]
  rfl

/-- What is left when a session ends. -/
theorem rowIds_applyEnded (h : st.IdsNodup) {event : Event} {id : Uuid}
    (hid : event.sessionId = some id) : (st.applyEnded event).rowIds = st.rowIds.erase id := by
  rw [rowIds, sessions_applyEnded st hid]
  exact h.map_id_filter id

/-- The index is clamped to what is left. -/
theorem selected_applyEnded (st : TuiState) {event : Event} {id : Uuid}
    (hid : event.sessionId = some id) :
    (st.applyEnded event).selected = clamp st.selected (st.applyEnded event).rowIds.length := by
  have hselected : (st.applyEnded event).selected =
      if (st.sessions.filter fun s => s.id ≠ id).length ≤ st.selected ∧
          (st.sessions.filter fun s => s.id ≠ id) ≠ []
        then (st.sessions.filter fun s => s.id ≠ id).length - 1 else st.selected := by
    rw [applyEnded, hid]
    rfl
  have hempty := List.length_eq_zero_iff (l := st.sessions.filter fun s => s.id ≠ id)
  rw [hselected, rowIds, List.length_map, sessions_applyEnded st hid, clamp]
  exact if_congr (and_congr_right fun _ => (not_congr hempty).symm) rfl rfl

/-- The two events do the same. -/
theorem applyEvent_of_ended (st : TuiState) (now : Instant) {event : Event}
    (h : event.kind = "session.killed" ∨ event.kind = "session.finished") :
    st.applyEvent now event = { st.applyEnded event with dirty := true } := by
  rw [applyEvent, if_neg, if_neg, if_pos h]
  · rcases h with h | h <;> rw [h] <;> decide
  · rcases h with h | h <;> rw [h] <;> decide

/-- **The end of a session moves the selection to another one when the row is above, and
the selected row is not the last.** -/
theorem keepsCursor_applyEnded_iff (h : st.IdsNodup) {event : Event} {id : Uuid}
    (hid : event.sessionId = some id) :
    st.KeepsCursor (st.applyEnded event) ↔
      ¬(id ∈ st.rowIds.take st.selected ∧ st.selected + 1 < st.rowIds.length) := by
  have hids := rowIds_applyEnded h hid
  have hselected := selected_applyEnded st hid
  rw [hids] at hselected
  rw [KeepsCursor, cursor_eq, cursor_eq, hids, hselected]
  rcases lt_or_ge st.selected st.rowIds.length with hlt | hge
  · have hsplit : st.rowIds = st.rowIds.take st.selected ++
        st.rowIds[st.selected] :: st.rowIds.drop (st.selected + 1) := by
      rw [List.getElem_cons_drop, List.take_append_drop]
    have hnodup : st.rowIds.Nodup := h
    have hlength : (st.rowIds.take st.selected).length = st.selected :=
      List.length_take_of_le hlt.le
    have hlast : st.rowIds.drop (st.selected + 1) ≠ [] ↔ st.selected + 1 < st.rowIds.length := by
      rw [Ne, List.drop_eq_nil_iff, not_le]
    rw [List.getElem?_eq_getElem hlt]
    by_cases hsame : st.rowIds[st.selected] = id
    · -- the selected session is the one that ends
      refine iff_of_true (fun a ha hmem => ?_) fun habove => ?_
      · rw [← Option.some.inj ha, hsame] at hmem
        exact absurd hmem hnodup.not_mem_erase
      · rw [hsplit, hsame] at hnodup
        exact (List.nodup_append.mp hnodup).2.2 _ habove.1 _ List.mem_cons_self rfl
    · have hclamp := getElem?_erase_clamp_iff (hsplit ▸ hnodup) hsame
      rw [← hsplit, hlength, hlast] at hclamp
      refine Iff.trans ⟨fun h => h _ rfl ?_, fun h a ha _ => ?_⟩ hclamp
      · exact (List.mem_erase_of_ne hsame).mpr (List.getElem_mem hlt)
      · rwa [← Option.some.inj ha]
  · -- no session is selected
    refine iff_of_true (fun a ha => ?_) (by omega)
    rw [List.getElem?_eq_none hge] at ha
    cases ha

/-- **An event moves the selection to another session exactly when it ends one above it, and the
selected one is not the last.** The cursor is a position, and a session that goes from above it lets
all the others move up by one. At the end of the list the position is corrected, which puts it back
on the session it was on. -/
theorem keepsCursor_iff (st : TuiState) (h : st.IdsNodup) (now : Instant) (event : Event) :
    st.KeepsCursor (st.applyEvent now event) ↔ ¬st.EndsAbove event := by
  by_cases hkind : event.kind = "session.killed" ∨ event.kind = "session.finished"
  · rw [applyEvent_of_ended st now hkind, EndsAbove, and_iff_right hkind]
    change st.KeepsCursor (st.applyEnded event) ↔ _
    cases hid : event.sessionId with
    | none =>
      have hsame : st.applyEnded event = st := by
        rw [applyEnded, hid]
      rw [hsame]
      refine iff_of_true (Grows.refl st).keepsCursor ?_
      rintro ⟨_, hnone, -⟩
      cases hnone
    | some id =>
      rw [keepsCursor_applyEnded_iff h hid]
      refine not_congr ⟨fun habove => ⟨id, rfl, habove⟩, ?_⟩
      rintro ⟨id', hid', habove⟩
      rwa [Option.some.inj hid']
  · exact iff_of_true (grows_applyEvent now hkind).keepsCursor fun h => hkind h.1

/-- Three sessions, of which the second is selected. -/
def threeSessions : TuiState :=
  let sessions :=
    [Mutate.newSession .opencode "/home/u/a" "a" (.noon (.ofTimeLow 1) 2026),
     Mutate.newSession .opencode "/home/u/b" "b" (.noon (.ofTimeLow 2) 2026),
     Mutate.newSession .opencode "/home/u/c" "c" (.noon (.ofTimeLow 3) 2026)]
  { sessions, selected := 1, counters := StatusCounters.fromSessions sessions }

/-- The three sessions are distinct, and the second one is selected. -/
theorem sound_threeSessions : threeSessions.Sound where
  ids := by
    unfold IdsNodup
    decide
  counters := rfl
  flash _ hid := absurd hid (AList.notMem_empty _)
  selected := Or.inr (by decide)

/-- A session ends. -/
def ending (id : Uuid) : Event :=
  ⟨"session.finished", some id, .null, .noonOf 2026⟩

/-- The last of them ends. -/
theorem keepsCursor_threeSessions :
    threeSessions.KeepsCursor (threeSessions.applyEvent 0 (ending (.ofTimeLow 3))) ↔
      ¬threeSessions.EndsAbove (ending (.ofTimeLow 3)) :=
  keepsCursor_iff _ sound_threeSessions.ids 0 _

/-- The first of them ends, and the third is selected. -/
theorem not_keepsCursor : ¬∀ (st : TuiState) (now : Instant) (event : Event), st.Sound →
    st.KeepsCursor (st.applyEvent now event) := by
  intro h
  have hkept := h threeSessions 0 (ending (.ofTimeLow 1)) sound_threeSessions (.ofTimeLow 2)
    (by decide) (by decide)
  exact absurd hkept (by decide)

end TuiState

end Agentd
