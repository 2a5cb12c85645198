import Agentd.Tui.Cell
import Agentd.Tui.State

/-!
# The line of one session on the screen

`Agentd.Event.edit?` is the edit an event stands for on the line of one session, and
`Agentd.TuiState.cell_applyEvent` says that the reducer makes it. Of the eleven kinds of event
the reducer knows, eight are about lines; the usage of a session and the plugins are not
on them.

What is seen of a session is a register for each field, and an edit writes one of them, or puts or
removes the whole line. The reducer finds the line by its id; that there is one line at most for
each id is kept by every event, so that to find it is to find the only one.
-/

namespace Agentd

/-- What is shown of a session. -/
def Session.view (s : Session) : View where
  name := s.displayName
  status := s.status.toText
  task := s.currentTask

/-- The line of a session, if it is on the screen. -/
def TuiState.cell (st : TuiState) (id : Uuid) : Option View :=
  (st.sessions.find? fun s => s.id = id).map Session.view

/-- What an event does to the line of a session. -/
def Event.edit? (event : Event) (id : Uuid) : Option Edit :=
  if event.kind = "session.created" ∨ event.kind = "session.discovered" then
    (Session.fromValue event.payload).bind fun s => if s.id = id then some (.put s.view) else none
  else if event.sessionId ≠ some id then none
  else if event.kind = "session.renamed" then
    (event.payload.getStr "display_name").map fun name => .patch (.name name)
  else if event.kind = "session.killed" ∨ event.kind = "session.finished" then some .finish
  else if event.kind = "session.status_changed" then
    ((event.payload.getStr "status").bind SessionStatus.ofName?).map fun status =>
      .patch (.status status.toText)
  else if event.kind = "session.dismissed_error" then
    some (.patch (.status SessionStatus.idle.toText))
  else if event.kind = "session.task_changed" then
    (event.payload.getStr "task").map fun task => .patch (.task task)
  else none

/-- What events do to the line of a session. -/
def editsOf (events : List Event) (id : Uuid) : List Edit :=
  events.filterMap fun e => e.edit? id

@[simp] theorem editsOf_nil (id : Uuid) : editsOf [] id = [] :=
  rfl

/-- An event edits the line of one session at most, that which it names. -/
theorem editsOf_cons (e : Event) (events : List Event) (id : Uuid) :
    editsOf (e :: events) id = (e.edit? id).toList ++ editsOf events id := by
  unfold editsOf
  rw [List.filterMap_cons]
  cases e.edit? id <;> rfl

theorem editsOf_append (events events' : List Event) (id : Uuid) :
    editsOf (events ++ events') id = editsOf events id ++ editsOf events' id :=
  List.filterMap_append

section ModifyFirst

variable {id id' : Uuid} {f : Session → Session} (hf : ∀ s, s.id = id → (f s).id = id)
include hf

/-- The reducer looks for the line by its id, and so does the reader: what is found afterwards is
the changed line, provided the change keeps the id. -/
theorem find?_modifyFirst_self (l : List Session) :
    (modifyFirst (fun s => s.id = id) f l).find? (fun s => s.id = id) =
      (l.find? fun s => s.id = id).map f := by
  induction l with
  | nil => rfl
  | cons s l ih =>
    by_cases h : s.id = id
    · simp [modifyFirst, h, hf s h]
    · simp [modifyFirst, h, ih]

/-- The lines of the other sessions are found as they were. -/
theorem find?_modifyFirst_of_ne (hne : id' ≠ id) (l : List Session) :
    (modifyFirst (fun s => s.id = id) f l).find? (fun s => s.id = id') =
      l.find? fun s => s.id = id' := by
  induction l with
  | nil => rfl
  | cons s l ih =>
    by_cases h : s.id = id
    · simp [modifyFirst, h, hf s h, hne.symm]
    · by_cases h' : s.id = id'
      · simp [modifyFirst, h', hne]
      · simp [modifyFirst, h, h', ih]

/-- No line moves, and none gets another id. -/
theorem map_id_modifyFirst (l : List Session) :
    (modifyFirst (fun s => s.id = id) f l).map Session.id = l.map Session.id := by
  induction l with
  | nil => rfl
  | cons s l ih =>
    by_cases h : s.id = id
    · simp [modifyFirst, h, hf s h]
    · simp [modifyFirst, h, ih]

end ModifyFirst

namespace TuiState

/-- A session is on the screen when there is a line for it. -/
theorem has_iff {st : TuiState} {id : Uuid} :
    st.has id = true ↔ (st.sessions.find? fun s => s.id = id).isSome := by
  simp [has, List.any_eq_true, List.find?_isSome]

/-- What is not on the screen has no cell. -/
theorem cell_eq_none_of_not_has {st : TuiState} {id : Uuid} (h : ¬st.has id = true) :
    st.cell id = none := by
  rw [has_iff, Option.not_isSome_iff_eq_none] at h
  rw [cell, h, Option.map_none]

/-- The counters in the header are no part of a line. -/
@[simp] theorem cell_recomputeCounters (st : TuiState) (id : Uuid) :
    st.recomputeCounters.cell id = st.cell id :=
  rfl

/-- A change of the first session with an identifier is a change of its line. -/
theorem cell_modifySession {st : TuiState} {id' : Uuid} {f : Session → Session} {g : View → View}
    (hf : ∀ s, s.id = id' → (f s).id = id') (hg : ∀ s, (f s).view = g s.view) (id : Uuid) :
    (st.modifySession id' f).cell id = if id' = id then (st.cell id).map g else st.cell id := by
  unfold cell modifySession
  split_ifs with h
  · subst h
    dsimp only
    rw [find?_modifyFirst_self hf, Option.map_map, Option.map_map]
    congr 1
    funext s
    exact hg s
  · dsimp only
    rw [find?_modifyFirst_of_ne hf (Ne.symm h)]

/-- A patch of the session an event names, if it is on the screen. -/
theorem cell_patch (st : TuiState) (now : Instant) (id' : Uuid) {f : Session → Session} {p : Patch}
    (hf : ∀ s, (f s).id = s.id) (hg : ∀ s, (f s).view = s.view.patch p) (id : Uuid) :
    (if st.has id' then (st.modifySession id' f).flash id' now else st).cell id =
      (if some id' = some id then some (Edit.patch p) else none).elim (st.cell id)
        (Edit.onScreen (st.cell id)) := by
  simp only [Option.some.injEq]
  by_cases hhas : st.has id'
  · rw [if_pos hhas]
    refine (cell_modifySession (g := fun v => v.patch p) (fun s h => (hf s).trans h) hg id).trans ?_
    split_ifs <;> rfl
  · rw [if_neg hhas]
    split_ifs with h
    · -- a patch of a line that is not there leaves it so
      subst h
      rw [cell_eq_none_of_not_has hhas]
      rfl
    · rfl

/-- `session.created` and `session.discovered` carry the session whole: it takes the place of the
line that is there, or comes at the end, so that an event the snapshot has overtaken is harmless. -/
theorem cell_applyCreated (st : TuiState) (now : Instant) {event : Event}
    (h : event.kind = "session.created" ∨ event.kind = "session.discovered") (id : Uuid) :
    (st.applyCreated now event).cell id =
      (event.edit? id).elim (st.cell id) (Edit.onScreen (st.cell id)) := by
  rw [Event.edit?, if_pos h]
  unfold applyCreated
  cases Session.fromValue event.payload with
  | none => rfl
  | some s =>
    dsimp only
    rw [cell_recomputeCounters, Option.bind_some]
    by_cases hhas : st.has s.id
    · -- one that was there is replaced where it stands
      rw [if_pos hhas, cell_modifySession (g := fun _ => s.view) (fun _ _ => rfl) fun _ => rfl]
      split_ifs with hid
      · subst hid
        obtain ⟨s', hs'⟩ := Option.isSome_iff_exists.mp (has_iff.mp hhas)
        rw [cell, hs']
        rfl
      · rfl
    · rw [if_neg hhas]
      -- a session that was not there goes to the end
      have hcell : ({ st.flash s.id now with sessions := st.sessions ++ [s] } : TuiState).cell id =
          if s.id = id then some s.view else st.cell id := by
        unfold cell
        rw [List.find?_append]
        split_ifs with hid
        · subst hid
          have hnone := cell_eq_none_of_not_has hhas
          rw [cell, Option.map_eq_none_iff] at hnone
          simp [hnone]
        · simp [hid]
      rw [hcell]
      split_ifs <;> rfl

/-- A session that has ended leaves the list. -/
theorem cell_applyEnded (st : TuiState) (event : Event) (id : Uuid) :
    (st.applyEnded event).cell id =
      if event.sessionId = some id then none else st.cell id := by
  unfold applyEnded
  cases event.sessionId with
  | none => rfl
  | some id' =>
    -- every session with the identifier goes, should there be several
    show ((st.sessions.filter fun s => s.id ≠ id').find? fun s => s.id = id).map Session.view = _
    rw [List.find?_filter]
    by_cases hid : id' = id
    · subst hid
      simp
    · simp only [Option.some.injEq, hid, if_false]
      unfold cell
      congr 2
      funext s
      by_cases h : s.id = id
      · simp [h, Ne.symm hid]
      · simp [h]

/-- A status is set on the line of the session, if there is one. An event about a session the
dashboard has not heard of is lost. -/
theorem cell_setStatus (st : TuiState) (now : Instant) (id' : Uuid) (status : SessionStatus)
    (id : Uuid) : (st.setStatus now id' status).cell id =
      (if some id' = some id then some (Edit.patch (.status status.toText)) else none).elim
        (st.cell id) (Edit.onScreen (st.cell id)) := by
  rw [← st.cell_patch now id' (f := fun s => { s with status }) (fun _ => rfl) fun _ => rfl]
  unfold setStatus
  split_ifs <;> rfl

/-- A rename does to the line what `Event.edit?` says. -/
theorem cell_applyRenamed (st : TuiState) (now : Instant) {event : Event}
    (h : event.kind = "session.renamed") (id : Uuid) :
    (st.applyRenamed now event).cell id =
      (event.edit? id).elim (st.cell id) (Edit.onScreen (st.cell id)) := by
  have hedit : event.edit? id = if event.sessionId = some id then
      (event.payload.getStr "display_name").map fun name => .patch (.name name) else none := by
    simp [Event.edit?, h]
  rw [hedit]
  unfold applyRenamed
  cases event.sessionId with
  | none => rfl
  | some id' =>
    cases event.payload.getStr "display_name" with
    | none => simp
    | some name =>
      exact st.cell_patch now id' (f := fun s => { s with displayName := name }) (fun _ => rfl)
        (fun _ => rfl) id

/-- So does a change of status; one to a status there is not is passed over by both. -/
theorem cell_applyStatusChanged (st : TuiState) (now : Instant) {event : Event}
    (h : event.kind = "session.status_changed") (id : Uuid) :
    (st.applyStatusChanged now event).cell id =
      (event.edit? id).elim (st.cell id) (Edit.onScreen (st.cell id)) := by
  have hedit : event.edit? id = if event.sessionId = some id then
      ((event.payload.getStr "status").bind SessionStatus.ofName?).map fun status =>
        .patch (.status status.toText) else none := by
    simp [Event.edit?, h]
  rw [hedit]
  unfold applyStatusChanged
  cases event.sessionId with
  | none => rfl
  | some id' =>
    cases (event.payload.getStr "status").bind SessionStatus.ofName? with
    | none => simp
    | some status => exact st.cell_setStatus now id' status id

/-- A dismissed error is a change of status to idle. -/
theorem cell_applyDismissed (st : TuiState) (now : Instant) {event : Event}
    (h : event.kind = "session.dismissed_error") (id : Uuid) :
    (st.applyDismissed now event).cell id =
      (event.edit? id).elim (st.cell id) (Edit.onScreen (st.cell id)) := by
  have hedit : event.edit? id = if event.sessionId = some id then
      some (.patch (.status SessionStatus.idle.toText)) else none := by
    simp [Event.edit?, h]
  rw [hedit]
  unfold applyDismissed
  cases event.sessionId with
  | none => rfl
  | some id' => exact st.cell_setStatus now id' .idle id

/-- A change of the task, to another text. -/
theorem cell_applyTaskChanged (st : TuiState) (now : Instant) {event : Event}
    (h : event.kind = "session.task_changed") (id : Uuid) :
    (st.applyTaskChanged now event).cell id =
      (event.edit? id).elim (st.cell id) (Edit.onScreen (st.cell id)) := by
  have hedit : event.edit? id = if event.sessionId = some id then
      (event.payload.getStr "task").map fun task => .patch (.task task) else none := by
    simp [Event.edit?, h]
  rw [hedit]
  unfold applyTaskChanged
  cases event.sessionId with
  | none => rfl
  | some id' =>
    cases event.payload.getStr "task" with
    | none => simp
    | some task =>
      exact st.cell_patch now id' (f := fun s => { s with currentTask := some task })
        (fun _ => rfl) (fun _ => rfl) id

/-- The usage of a session is not on its line. -/
theorem cell_applyUsageUpdated (st : TuiState) (event : Event) (id : Uuid) :
    (st.applyUsageUpdated event).cell id = st.cell id := by
  unfold applyUsageUpdated
  cases event.sessionId with
  | none => rfl
  | some id' =>
    have hcell (f : Session → Session) (hid : ∀ s, (f s).id = s.id)
        (hview : ∀ s, (f s).view = s.view) : (st.modifySession id' f).cell id = st.cell id := by
      rw [cell_modifySession (g := fun v => v) (fun s h => (hid s).trans h) hview]
      simp
    exact hcell _ (fun _ => rfl) fun _ => rfl

/-- The plugins are listed apart from the sessions. -/
theorem cell_applyPluginConnected (st : TuiState) (event : Event) (id : Uuid) :
    (st.applyPluginConnected event).cell id = st.cell id := by
  unfold applyPluginConnected
  split
  · rfl
  · split_ifs <;> rfl

theorem cell_applyPluginDisconnected (st : TuiState) (event : Event) (id : Uuid) :
    (st.applyPluginDisconnected event).cell id = st.cell id := by
  unfold applyPluginDisconnected
  split <;> rfl

/-- **An event edits the line of a session as `Agentd.Event.edit?` says**, at whatever
instant it is applied. -/
theorem cell_applyEvent (st : TuiState) (now : Instant) (event : Event) (id : Uuid) :
    (st.applyEvent now event).cell id =
      (event.edit? id).elim (st.cell id) (Edit.onScreen (st.cell id)) := by
  unfold applyEvent
  show TuiState.cell (ite _ _ _) id = _
  split_ifs with hcreated hrenamed hended hstatus hdismissed htask husage hconnected hgone
  · exact st.cell_applyCreated now hcreated id
  · exact st.cell_applyRenamed now hrenamed id
  · rw [cell_applyEnded, Event.edit?, if_neg hcreated, if_neg hrenamed, if_pos hended]
    split_ifs <;> simp_all [Edit.onScreen]
  · exact st.cell_applyStatusChanged now hstatus id
  · exact st.cell_applyDismissed now hdismissed id
  · exact st.cell_applyTaskChanged now htask id
  · rw [cell_applyUsageUpdated]
    simp [Event.edit?, husage]
  · rw [cell_applyPluginConnected]
    simp [Event.edit?, hconnected]
  · rw [cell_applyPluginDisconnected]
    simp [Event.edit?, hgone]
  · simp [Event.edit?, hcreated, hrenamed, hended, hstatus, hdismissed, htask]

/-- **Events edit the line of a session one after the other.** -/
theorem cell_applyEvents (events : List (Instant × Event)) (id : Uuid) : ∀ st : TuiState,
    (st.applyEvents events).cell id =
      (editsOf (events.map Prod.snd) id).foldl Edit.onScreen (st.cell id) := by
  induction events with
  | nil => intro st; rfl
  | cons e events ih =>
    intro st
    refine (ih _).trans ?_
    rw [cell_applyEvent, List.map_cons, editsOf_cons]
    cases e.2.edit? id <;> rfl

/-! ### The sessions on the screen

Every handler of the reducer looks for the first line with an id, and changes or removes that one.
That it is the only one with this id is kept by all of them, and is what makes a line of the screen
a cell. -/

/-- No session is on the screen twice. -/
def IdsNodup (st : TuiState) : Prop :=
  (st.sessions.map Session.id).Nodup

section Nodup

variable {st : TuiState} (h : st.IdsNodup)
include h

/-- A change that keeps the id keeps the ids distinct. -/
theorem idsNodup_modifySession (id : Uuid) {f : Session → Session}
    (hf : ∀ s, s.id = id → (f s).id = id) : (st.modifySession id f).IdsNodup := by
  unfold IdsNodup modifySession
  rwa [map_id_modifyFirst hf]

/-- A line is added for a session that has none, or not at all. -/
theorem idsNodup_applyCreated (now : Instant) (event : Event) :
    (st.applyCreated now event).IdsNodup := by
  unfold applyCreated
  split
  · exact h
  · rename_i s _
    dsimp only
    split_ifs with hhas
    · exact idsNodup_modifySession h s.id fun _ _ => rfl
    · have hnew : s.id ∉ st.sessions.map Session.id := by
        simpa [has] using hhas
      show ((st.sessions ++ [s]).map Session.id).Nodup
      rw [List.map_append, List.map_singleton, ← List.concat_eq_append, List.nodup_concat]
      exact ⟨hnew, h⟩

theorem idsNodup_applyRenamed (now : Instant) (event : Event) :
    (st.applyRenamed now event).IdsNodup := by
  unfold applyRenamed
  split
  · split_ifs
    · exact idsNodup_modifySession h _ fun _ h => h
    · exact h
  · exact h

/-- A line is removed. -/
theorem idsNodup_applyEnded (event : Event) : (st.applyEnded event).IdsNodup := by
  unfold applyEnded
  split
  · exact h
  · exact (List.filter_sublist.map Session.id).nodup h

theorem idsNodup_setStatus (now : Instant) (id : Uuid) (status : SessionStatus) :
    (st.setStatus now id status).IdsNodup := by
  unfold setStatus
  split_ifs
  · exact idsNodup_modifySession h id fun _ h => h
  · exact h

theorem idsNodup_applyStatusChanged (now : Instant) (event : Event) :
    (st.applyStatusChanged now event).IdsNodup := by
  unfold applyStatusChanged
  split
  · exact idsNodup_setStatus h _ _ _
  · exact h

theorem idsNodup_applyDismissed (now : Instant) (event : Event) :
    (st.applyDismissed now event).IdsNodup := by
  unfold applyDismissed
  split
  · exact idsNodup_setStatus h _ _ _
  · exact h

theorem idsNodup_applyTaskChanged (now : Instant) (event : Event) :
    (st.applyTaskChanged now event).IdsNodup := by
  unfold applyTaskChanged
  split
  · split_ifs
    · exact idsNodup_modifySession h _ fun _ h => h
    · exact h
  · exact h

theorem idsNodup_applyUsageUpdated (event : Event) : (st.applyUsageUpdated event).IdsNodup := by
  unfold applyUsageUpdated
  split
  · exact h
  · exact idsNodup_modifySession h _ fun _ h => h

/-- **No event puts a session on the screen twice.** -/
theorem idsNodup_applyEvent (now : Instant) (event : Event) :
    (st.applyEvent now event).IdsNodup := by
  unfold applyEvent
  show IdsNodup (ite _ _ _)
  split_ifs
  · exact idsNodup_applyCreated h now event
  · exact idsNodup_applyRenamed h now event
  · exact idsNodup_applyEnded h event
  · exact idsNodup_applyStatusChanged h now event
  · exact idsNodup_applyDismissed h now event
  · exact idsNodup_applyTaskChanged h now event
  · exact idsNodup_applyUsageUpdated h event
  -- what is done to the plugins is not done to the sessions
  · unfold applyPluginConnected
    split
    · exact h
    · split_ifs <;> exact h
  · unfold applyPluginDisconnected
    split <;> exact h
  · exact h

end Nodup

/-- **However many events are applied, no session is on the screen twice.** -/
theorem idsNodup_applyEvents (events : List (Instant × Event)) : ∀ {st : TuiState},
    st.IdsNodup → (st.applyEvents events).IdsNodup := by
  induction events with
  | nil => exact fun h => h
  | cons e events ih => exact fun h => ih (idsNodup_applyEvent h e.1 e.2)

end TuiState

end Agentd
