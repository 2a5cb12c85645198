import Agentd.Handlers.Step
import Agentd.Tui.Line

/-!
# What holds of a dashboard at all times

Events, ticks of the clock and keys that move the selection may come in any order, and an
event may say anything. `Agentd.TuiState.Sound` is what all of them keep: no session is listed
twice, the counters count the list, only listed sessions are highlighted, and the
selection is a row of the list.

Only an event about the end of a session shortens the list. There the selection depends on
the identifiers: a list with no identifier twice loses at most one row, so one that becomes
empty had its first row selected.
-/

namespace Agentd

open Json

/-- What can happen to a dashboard. -/
inductive TuiInput
  | event (now : Instant) (event : Event)
  | tick (now : Instant)
  | key (key : SelectionKey)

namespace TuiState

/-- The dashboard after one of these. -/
def step (st : TuiState) : TuiInput → TuiState
  | .event now event => st.applyEvent now event
  | .tick now => st.tickFlash now
  | .key key => st.handleKey key

/-- **The representation invariant** of the dashboard. -/
structure Sound (st : TuiState) : Prop where
  ids : st.IdsNodup
  counters : st.counters = StatusCounters.fromSessions st.sessions
  flash : ∀ id ∈ st.flashUntil, id ∈ st.sessions.map Session.id
  selected : st.selected = 0 ∨ st.selected < st.sessions.length

/-- In a list that is not empty the first row can be selected, and so a row is. -/
theorem Sound.isSome_selectedSession {st : TuiState} (h : st.Sound) (hne : st.sessions ≠ []) :
    st.selectedSession.isSome := by
  have hpos : 0 < st.sessions.length := List.length_pos_iff.mpr hne
  have hlt : st.selected < st.sessions.length := by
    rcases h.selected with hzero | hlt
    · omega
    · exact hlt
  rw [selectedSession, List.getElem?_eq_getElem hlt, Option.isSome_some]

/-- **A dashboard that was just opened is in order**, when the snapshot has each session once. -/
theorem sound_fromSnapshot {snap : Value} (h : (fromSnapshot snap).IdsNodup) :
    (fromSnapshot snap).Sound where
  ids := h
  counters := rfl
  flash _ hid := absurd hid (AList.notMem_empty _)
  selected := Or.inl rfl

/-! ### Rows changed in place

A change of one line moves the counters by what the status of that line was and is; the reducer
counts anew instead, after every event that may have changed a status, and leaves the counters alone
after the others. Both are right, which takes that the other events change no status. -/

/-- Counting does not see a change that leaves the statuses alone. -/
theorem fromSessions_modifyFirst {p : Session → Bool} {f : Session → Session}
    (hf : ∀ s, (f s).status = s.status) (l : List Session) :
    StatusCounters.fromSessions (modifyFirst p f l) = StatusCounters.fromSessions l := by
  unfold StatusCounters.fromSessions
  generalize ({} : StatusCounters) = c
  induction l generalizing c with
  | nil => rfl
  | cons s l ih =>
    by_cases hp : p s
    · simp only [modifyFirst, hp, if_true, List.foldl_cons, hf s]
    · simp only [modifyFirst, hp, Bool.false_eq_true, if_false, List.foldl_cons, ih]

/-- A session is on the screen when its id is among those of the lines. -/
theorem has_iff_mem {st : TuiState} {id : Uuid} :
    st.has id = true ↔ id ∈ st.sessions.map Session.id := by
  simp [has]

/-- A change of a line that keeps the id moves nothing. -/
theorem map_id_modifySession (st : TuiState) (id : Uuid) {f : Session → Session}
    (hf : ∀ s, (f s).id = s.id) :
    (st.modifySession id f).sessions.map Session.id = st.sessions.map Session.id :=
  map_id_modifyFirst (fun s hs => (hf s).trans hs) st.sessions

/-- What stays when a session ends: its identifier goes. -/
theorem IdsNodup.map_id_filter {st : TuiState} (h : st.IdsNodup) (id : Uuid) :
    (st.sessions.filter fun s => s.id ≠ id).map Session.id =
      (st.sessions.map Session.id).erase id := by
  rw [List.Nodup.erase_eq_filter h, List.filter_map]
  congr 1
  refine List.filter_congr fun s _ => ?_
  simp [bne, BEq.beq]

namespace Sound

variable {st : TuiState} (h : st.Sound)
include h

/-- A state that lists the same identifiers, is counted, and highlights one session of the
list more at most. -/
theorem of_ids {st' : TuiState} (hids : st'.sessions.map Session.id = st.sessions.map Session.id)
    (hcounters : st'.counters = StatusCounters.fromSessions st'.sessions)
    (hflash : ∀ id ∈ st'.flashUntil, id ∈ st.flashUntil ∨ st.has id = true)
    (hselected : st'.selected = st.selected) : st'.Sound where
  ids := by
    unfold IdsNodup
    rw [hids]
    exact h.ids
  counters := hcounters
  flash id hid := by
    rw [hids]
    rcases hflash id hid with hold | hhas
    · exact h.flash id hold
    · exact has_iff_mem.mp hhas
  selected := by
    have hlength : st'.sessions.length = st.sessions.length := by
      rw [← List.length_map (f := Session.id), hids, List.length_map]
    rw [hselected, hlength]
    exact h.selected

/-- A listed session changed in place, and highlighted, with its status left alone. -/
theorem modifySession_flash (now : Instant) (id : Uuid) {f : Session → Session}
    (hid : ∀ s, (f s).id = s.id) (hstatus : ∀ s, (f s).status = s.status) (hhas : st.has id = true) :
    ((st.modifySession id f).flash id now).Sound := by
  refine h.of_ids (map_id_modifySession st id hid) ?_ (fun id' hid' => ?_) rfl
  · exact h.counters.trans (fromSessions_modifyFirst hstatus st.sessions).symm
  · rcases (AList.mem_insert _).mp hid' with rfl | hold
    · exact Or.inr hhas
    · exact Or.inl hold

/-! ### Events

One lemma for each arm of `apply_event`. The selection is clamped where lines are removed, and stays
where they are added or changed; the counters are counted anew where a status may have changed. -/

/-- A session that comes is counted, and does not move the selection. -/
theorem applyCreated (now : Instant) (event : Event) : (st.applyCreated now event).Sound := by
  unfold TuiState.applyCreated
  split
  · exact h
  · rename_i s _
    dsimp only
    split_ifs with hhas
    · refine h.of_ids ?_ rfl (fun id hid => Or.inl hid) rfl
      exact map_id_modifyFirst (fun _ _ => rfl) st.sessions
    · -- the list gets longer, so what was selected still is
      have hlength : (st.sessions ++ [s]).length = st.sessions.length + 1 := by simp
      refine ⟨?_, rfl, fun id hid => ?_, ?_⟩
      · have hids := idsNodup_applyCreated h.ids now event
        unfold TuiState.applyCreated at hids
        rename_i hs
        simp only [hs, hhas, Bool.false_eq_true, if_false] at hids
        exact hids
      · show id ∈ (st.sessions ++ [s]).map Session.id
        rw [List.map_append, List.mem_append]
        rcases (AList.mem_insert _).mp hid with rfl | hold
        · exact Or.inr (List.mem_singleton.mpr rfl)
        · exact Or.inl (h.flash id hold)
      · show st.selected = 0 ∨ st.selected < (st.sessions ++ [s]).length
        rw [hlength]
        exact h.selected.imp_right Nat.lt_succ_of_lt

/-- A name is not counted, so that the counters stay right. -/
theorem applyRenamed (now : Instant) (event : Event) : (st.applyRenamed now event).Sound := by
  unfold TuiState.applyRenamed
  split
  · split_ifs with hhas
    · exact h.modifySession_flash now _ (fun _ => rfl) (fun _ => rfl) hhas
    · exact h
  · exact h

/-- A task is not counted either. -/
theorem applyTaskChanged (now : Instant) (event : Event) :
    (st.applyTaskChanged now event).Sound := by
  unfold TuiState.applyTaskChanged
  split
  · split_ifs with hhas
    · exact h.modifySession_flash now _ (fun _ => rfl) (fun _ => rfl) hhas
    · exact h
  · exact h

/-- The sessions that stay when one ends: at most one goes. -/
theorem length_le_filter_add_one (id : Uuid) :
    st.sessions.length ≤ (st.sessions.filter fun s => s.id ≠ id).length + 1 := by
  have hlength := congrArg List.length (h.ids.map_id_filter id)
  rw [List.length_map] at hlength
  rw [hlength, List.length_erase, List.length_map]
  split_ifs
  · omega
  · omega

/-- A session that goes may have been the last line, and then the selection moves up. -/
theorem applyEnded (event : Event) : (st.applyEnded event).Sound := by
  have hids := idsNodup_applyEnded h.ids event
  unfold TuiState.applyEnded at hids ⊢
  split
  · exact h
  · rename_i id hid
    simp only [hid] at hids
    refine ⟨hids, rfl, fun id' hid' => ?_, ?_⟩
    · obtain ⟨hne, hold⟩ := AList.mem_erase.mp hid'
      obtain ⟨s, hs, rfl⟩ := List.mem_map.mp (h.flash id' hold)
      exact List.mem_map_of_mem (List.mem_filter.mpr ⟨hs, by simpa using hne⟩)
    · have hlength := h.length_le_filter_add_one id
      have hselected := h.selected
      show ite _ _ _ = 0 ∨ ite _ _ _ < (st.sessions.filter fun s => s.id ≠ id).length
      split_ifs with hlast
      · have hpos := List.length_pos_iff.mpr hlast.2
        omega
      · rw [not_and, not_not] at hlast
        by_cases hle : (st.sessions.filter fun s => s.id ≠ id).length ≤ st.selected
        · -- the list became empty, and its only row was the first
          rw [hlast hle, List.length_nil] at hlength ⊢
          omega
        · exact Or.inr (not_le.mp hle)

/-- A status that is set is counted. -/
theorem setStatus (now : Instant) (id : Uuid) (status : SessionStatus) :
    (st.setStatus now id status).Sound := by
  unfold TuiState.setStatus
  split_ifs with hhas
  · refine h.of_ids (map_id_modifySession st id fun _ => rfl) rfl (fun id' hid' => ?_) rfl
    rcases (AList.mem_insert _).mp hid' with rfl | hold
    · exact Or.inr hhas
    · exact Or.inl hold
  · exact h

/-- A status there is not is passed over. -/
theorem applyStatusChanged (now : Instant) (event : Event) :
    (st.applyStatusChanged now event).Sound := by
  unfold TuiState.applyStatusChanged
  split
  · exact h.setStatus now _ _
  · exact h

/-- A dismissal is a change to idle. -/
theorem applyDismissed (now : Instant) (event : Event) : (st.applyDismissed now event).Sound := by
  unfold TuiState.applyDismissed
  split
  · exact h.setStatus now _ _
  · exact h

/-- Usage is no part of what is counted. -/
theorem applyUsageUpdated (event : Event) : (st.applyUsageUpdated event).Sound := by
  unfold TuiState.applyUsageUpdated
  split
  · exact h
  · refine h.of_ids (map_id_modifySession st _ fun _ => rfl) ?_ (fun id hid => Or.inl hid) rfl
    refine h.counters.trans (Eq.symm (fromSessions_modifyFirst ?_ st.sessions))
    exact fun _ => rfl

/-- What changes nothing but the plugins and `dirty`. -/
theorem of_same {st' : TuiState} (hsessions : st'.sessions = st.sessions)
    (hcounters : st'.counters = st.counters) (hflash : st'.flashUntil = st.flashUntil)
    (hselected : st'.selected = st.selected) : st'.Sound := by
  refine h.of_ids (by rw [hsessions]) (by rw [hcounters, hsessions, h.counters])
    (fun id hid => Or.inl (hflash ▸ hid)) hselected

/-- **No event breaks the invariant**, whatever its kind, session and payload. -/
theorem applyEvent (now : Instant) (event : Event) : (st.applyEvent now event).Sound := by
  unfold TuiState.applyEvent
  refine @of_same (ite _ _ _) ?_ _ rfl rfl rfl rfl
  split_ifs
  · exact h.applyCreated now event
  · exact h.applyRenamed now event
  · exact h.applyEnded event
  · exact h.applyStatusChanged now event
  · exact h.applyDismissed now event
  · exact h.applyTaskChanged now event
  · exact h.applyUsageUpdated event
  · unfold applyPluginConnected
    split
    · exact h
    · split_ifs
      · exact h.of_same rfl rfl rfl rfl
      · exact h.of_same rfl rfl rfl rfl
  · unfold applyPluginDisconnected
    split
    · exact h
    · exact h.of_same rfl rfl rfl rfl
  · exact h

/-! ### The clock and the keyboard

Neither a tick nor a selection key adds or removes a line. -/

/-- A flash ends with its time. -/
theorem tickFlash (now : Instant) : (st.tickFlash now).Sound := by
  refine h.of_ids rfl h.counters (fun id hid => Or.inl ?_) rfl
  exact (List.filter_sublist.map Sigma.fst).subset hid

/-- The keys move the selection within the lines, and stay at the ends. -/
theorem handleKey (key : SelectionKey) : (st.handleKey key).Sound := by
  refine ⟨h.ids, h.counters, h.flash, ?_⟩
  have hselected := h.selected
  have hlast (hne : st.sessions ≠ []) : 0 < st.sessions.length := List.length_pos_iff.mpr hne
  show (st.handleKey key).selected = 0 ∨ (st.handleKey key).selected < st.sessions.length
  unfold TuiState.handleKey
  cases key with
  | j | down =>
    dsimp only
    split_ifs with hempty
    · exact hselected
    · have := hlast hempty
      omega
  | k | up => dsimp only; omega
  | g => exact Or.inl rfl
  | G =>
    dsimp only
    split_ifs with hempty
    · exact hselected
    · have := hlast hempty
      omega

/-- **Nothing that can happen to a dashboard breaks the invariant.** -/
theorem step (i : TuiInput) : (st.step i).Sound := by
  cases i with
  | event now event => exact h.applyEvent now event
  | tick now => exact h.tickFlash now
  | key key => exact h.handleKey key

end Sound

/-- **A dashboard is sound at all times**, when its snapshot lists no session twice. So a row is
selected whenever there is one. The inputs are events of the daemon, ticks and the keys that move
the selection, in any order; the counters, the flashes and the position are kept in step with the
rows by every one of them. -/
theorem sound_run {snap : Value} (h : (fromSnapshot snap).IdsNodup) (l : List TuiInput) :
    (Machine.run step (fromSnapshot snap) l).Sound ∧
      ((Machine.run step (fromSnapshot snap) l).sessions ≠ [] →
        (Machine.run step (fromSnapshot snap) l).selectedSession.isSome) := by
  have hsound := Machine.run_invariant (P := Sound) (fun _ i hst => hst.step i) l _
    (sound_fromSnapshot h)
  exact ⟨hsound, hsound.isSome_selectedSession⟩

/-- A snapshot of two sessions. -/
def twoSessions : Value :=
  .object [("sessions", .array
    [(Mutate.newSession .opencode "/home/u/a" "a" (.noon (.ofTimeLow 1) 2026)).toValue,
     (Mutate.newSession .codex "/home/u/b" "b" (.noon (.ofTimeLow 2) 2026)).toValue])]

/-- The last of two sessions is selected, then killed, then the other one. -/
theorem sound_run_killed :
    let l : List TuiInput := [.key .G,
      .event 0 ⟨"session.killed", some (.ofTimeLow 2), .null, .noonOf 2026⟩,
      .event 1 ⟨"session.killed", some (.ofTimeLow 1), .null, .noonOf 2026⟩, .tick 2]
    (Machine.run step (fromSnapshot twoSessions) l).Sound ∧
      ((Machine.run step (fromSnapshot twoSessions) l).sessions ≠ [] →
        (Machine.run step (fromSnapshot twoSessions) l).selectedSession.isSome) := by
  refine sound_run ?_ _
  have hsessions : (fromSnapshot twoSessions).sessions =
      [Mutate.newSession .opencode "/home/u/a" "a" (.noon (.ofTimeLow 1) 2026),
       Mutate.newSession .codex "/home/u/b" "b" (.noon (.ofTimeLow 2) 2026)] := by
    simp only [fromSnapshot, twoSessions, Value.get, Value.asArray, List.find?, decide_true,
      Option.map_some, Option.bind_some, Option.getD_some, List.filterMap_cons,
      Session.fromValue_toValue, List.filterMap_nil]
    rfl
  unfold IdsNodup
  rw [hsessions]
  decide

end TuiState

end Agentd
