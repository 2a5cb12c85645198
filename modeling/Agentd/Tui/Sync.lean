import Agentd.Runs.Finished
import Agentd.Tui.Line

/-!
# Rows and the events about them

The handlers against the reducer: the events a request emits edit the line of a session as
the request edited its row, and the edits fit the row when the request revives no session
(`Agentd.synced_handle`). Both extend to runs (`Agentd.cell_run`, `Agentd.fitting_emitted`).

The two sides are written independently in the source, and nothing but the texts of the kinds and of
the payloads connects them. That they agree is therefore proved for each kind of event against the
handler that emits it, and a kind that is added on one side only would be noticed here.
-/

namespace Agentd

open Json
open Plugin (Report)

/-- What a dashboard would show of a row. -/
def SessionRow.view (r : SessionRow) : View where
  name := r.displayName
  status := r.status
  task := r.currentTask

/-- The row of a session as a dashboard would show it. -/
def Db.cell (db : Db) (id : Uuid) : Option View :=
  (db.row? id).map SessionRow.view

/-- What a change does to the line of the session. -/
def Change.edit? : Change → Option Edit
  | rename name => some (.patch (.name name))
  | status new _ => some (.patch (.status new.toText))
  | task text _ => some (.patch (.task text))
  | usage .. => none
  | finish _ => some .finish

/-! ### Events

Each event of a handler says what the handler did to a row. What the reducer makes of it is computed
from the text and the payload of the event; here it is seen to be the same. -/

/-- An event about no row edits no line. -/
theorem Event.edit?_of_inert {e : Event} (h : e.Inert) (id : Uuid) : e.edit? id = none := by
  rcases h with h | h | h <;> simp [edit?, h]

/-- An event that stands for a change edits the line of its session as the change does. -/
theorem Event.edit?_of_describes {e : Event} {c : Change} {id' : Uuid}
    (hid : e.sessionId = some id') (h : e.Describes c) (id : Uuid) :
    e.edit? id = if id' = id then c.edit? else none := by
  have getStr (key s : String) : Value.getStr (.object [(key, .string s)]) key = some s := by
    simp [Value.getStr, Value.get, Value.asStr]
  cases c with
  | rename name =>
    obtain ⟨hkind, hpayload⟩ := h
    simp [edit?, hkind, hid, hpayload, getStr, Change.edit?]
  | status new at_ =>
    rcases h with ⟨hkind, hpayload⟩ | ⟨hkind, rfl⟩
    · simp [edit?, hkind, hid, hpayload, getStr, Change.edit?]
    · simp [edit?, hkind, hid, Change.edit?]
  | task text at_ =>
    obtain ⟨hkind, hpayload⟩ := h
    simp [edit?, hkind, hid, hpayload, getStr, Change.edit?]
  | usage used total cost at_ =>
    have hkind : e.kind = "session.usage_updated" := h
    simp [edit?, hkind, Change.edit?]
  | finish at_ => rcases h with hkind | hkind <;> simp [edit?, hkind, hid, Change.edit?]

/-- The event about a new session puts its line. -/
theorem Event.edit?_of_toValue {e : Event} {s : Session} (hpayload : e.payload = s.toValue)
    (hkind : e.kind = "session.created" ∨ e.kind = "session.discovered") (id : Uuid) :
    e.edit? id = if s.id = id then some (.put s.view) else none := by
  rw [edit?, if_pos hkind, hpayload, Session.fromValue_toValue]
  rfl

/-! ### Rows

A row is seen by a dashboard as its name, status and task. A change of the row is an edit of these
three, or of none. -/

/-- What a change does to a row is an edit of what is seen of it. -/
theorem Change.view_apply (c : Change) (r : SessionRow) :
    some (c.apply r).view = c.edit?.elim (some r.view) (Edit.onRow (some r.view)) := by
  cases c <;> rfl

/-- So a change edits one cell and leaves the others. -/
theorem cell_change {db : Db} {id' : Uuid} {row : SessionRow} (hrow : db.row? id' = some row)
    (c : Change) (id : Uuid) :
    (db.change id' c).cell id =
      (if id' = id then c.edit? else none).elim (db.cell id) (Edit.onRow (db.cell id)) := by
  have hrow' : db.sessions.find? id'.toText = some row := hrow
  by_cases hid : id' = id
  · subst hid
    rw [if_pos rfl, Db.cell, Db.row?, Db.change, KeyedTable.find?_modify_self hrow', Option.map_some,
      Change.view_apply, Db.cell, hrow]
    rfl
  · have hne : id.toText ≠ id'.toText := fun h => hid (Uuid.toText_inj.mp h).symm
    rw [if_neg hid, Db.cell, Db.row?, Db.change, KeyedTable.find?_modify_of_ne hne]
    rfl

/-- A row inserted for a session puts its view. -/
theorem cell_insertSession {db db' : Db} {s : Session} (h : db.insertSession s = .ok db')
    (id : Uuid) : db.cell s.id = none ∧
      db'.cell id = if s.id = id then some s.view else db.cell id := by
  obtain ⟨row, t, hrow, ht, rfl⟩ := insertSession_eq_ok.mp h
  have henc := sessionToRow_eq_ok hrow
  have hview : row.view = s.view := by
    unfold SessionRow.view Session.view
    rw [henc.displayName, henc.status, henc.currentTask]
  constructor
  · obtain ⟨hfree, -⟩ := KeyedTable.insert?_eq_some.mp ht
    rw [Db.cell, Option.map_eq_none_iff]
    exact KeyedTable.find?_eq_none.mpr fun r hr hid => hfree r hr (Or.inl (henc.id.trans hid.symm))
  · -- the row of any other session is found where it was
    unfold Db.cell Db.row?
    dsimp only
    split_ifs with hid
    · subst hid
      rw [← henc.id, KeyedTable.find?_insert?_self ht, Option.map_some, hview]
    · have hne : row.id ≠ id.toText := fun heq => hid (Uuid.toText_inj.mp (henc.id.symm.trans heq))
      rw [KeyedTable.find?_insert?_of_ne ht hne]

/-- What is seen is in the table of the sessions. -/
theorem cell_congr {db db' : Db} (h : db'.sessions = db.sessions) (id : Uuid) :
    db'.cell id = db.cell id := by
  unfold Db.cell Db.row?
  rw [h]

/-! ### One request

For each of the kinds of footprint a handler can leave: what the events edit is what the rows were
edited by. -/

/-- A request that revives no session changes a status only while the session lives. -/
theorem live_or_finished_of_change? {db : Db} {i : Input} (h : ¬Revives db i) {row : SessionRow}
    (hrow : row ∈ db.sessions.rows) {new : SessionStatus} {at_ : Rfc3339.DateTime}
    (hc : i.change? row = some (.status new at_)) :
    row.status ≠ "finished" ∨ new.toText = "finished" := by
  by_contra hcon
  rw [not_or, not_not, SessionStatus.toText_eq_finished] at hcon
  obtain ⟨hstatus, hnew⟩ := hcon
  -- a dismissal needs the status `errored`, so only a report can have done it
  cases Input.cause_of_change? hrow hc with
  | dismiss hdismiss =>
    obtain ⟨-, -, s, -, -, -, hs, herrored⟩ := hdismiss
    rw [status_of_finished hs hstatus] at herrored
    cases herrored
  | @report rep _ hrep hchange =>
    obtain ⟨hasks, -⟩ := Plugin.Report.change?_eq_status_iff.mp hchange
    exact h ⟨rep, row, new, hrep, hstatus, hasks, hnew⟩

/-- The edit of a change fits the row the change is made to. -/
theorem fits_of_change? {db : Db} {i : Input} (h : ¬Revives db i) {id : Uuid} {row : SessionRow}
    (hrow : db.row? id = some row) {c : Change} (hc : i.change? row = some c) {ed : Edit}
    (hed : c.edit? = some ed) : ed.Fits (db.cell id) := by
  have hcell : db.cell id = some row.view := by rw [Db.cell, hrow, Option.map_some]
  rw [hcell]
  cases c with
  | status new at_ =>
    obtain rfl := Option.some.inj hed
    exact ⟨row.view, rfl, live_or_finished_of_change? h (KeyedTable.find?_eq_some.mp hrow).1 hc⟩
  | rename name => obtain rfl := Option.some.inj hed; rfl
  | task text at_ => obtain rfl := Option.some.inj hed; rfl
  | usage used total cost at_ => cases hed
  | finish at_ => obtain rfl := Option.some.inj hed; rfl

/-- What a request did to the row of a session is what its events do to the line. -/
structure Synced (db db' : Db) (events : List Event) (revives : Prop) (id : Uuid) : Prop where
  cell : db'.cell id = (editsOf events id).foldl Edit.onRow (db.cell id)
  fitting : ¬revives → Fitting (db.cell id) (editsOf events id)

/-- Nothing that is shown happened. -/
theorem Synced.of_quiet {db db' : Db} {events : List Event} {revives : Prop} (id : Uuid)
    (hsessions : db'.sessions = db.sessions) (hevents : ∀ e ∈ events, e.Inert) :
    Synced db db' events revives id := by
  have hnil : editsOf events id = [] :=
    List.filterMap_eq_nil_iff.mpr fun e he => Event.edit?_of_inert (hevents e he) id
  constructor
  · rw [hnil, cell_congr hsessions]
    rfl
  · rw [hnil]
    exact fun _ => trivial

/-- A row was changed, and one event stands for the change. -/
theorem Synced.of_change {db db' : Db} {i : Input} {id' : Uuid} {row : SessionRow} {c : Change}
    {e : Event} (id : Uuid) (hrow : db.row? id' = some row) (hc : i.change? row = some c)
    (hsessions : db'.sessions = (db.change id' c).sessions) (hid : e.sessionId = some id')
    (hdescribes : e.Describes c) : Synced db db' [e] (Revives db i) id := by
  have hedits : editsOf [e] id = (if id' = id then c.edit? else none).toList := by
    rw [editsOf_cons, e.edit?_of_describes hid hdescribes]
    exact List.append_nil _
  constructor
  · rw [hedits, cell_congr hsessions, cell_change hrow]
    cases (if id' = id then c.edit? else none) <;> rfl
  · intro hlive
    rw [hedits]
    split_ifs with heq
    · subst heq
      cases hed : c.edit? with
      | none => trivial
      | some ed => exact ⟨fits_of_change? hlive hrow hc hed, trivial⟩
    · trivial

/-- A session was inserted and announced. -/
theorem Synced.of_insert {db db' : Db} {s : Session} {e : Event} {revives : Prop} (id : Uuid)
    (hdb : db.insertSession s = .ok db') (hpayload : e.payload = s.toValue)
    (hkind : e.kind = "session.created" ∨ e.kind = "session.discovered") :
    Synced db db' [e] revives id := by
  obtain ⟨hnew, hcell⟩ := cell_insertSession hdb id
  have hedits : editsOf [e] id = (if s.id = id then some (Edit.put s.view) else none).toList := by
    rw [editsOf_cons, e.edit?_of_toValue hpayload hkind]
    exact List.append_nil _
  constructor
  · rw [hedits, hcell]
    split_ifs <;> rfl
  · intro _
    rw [hedits]
    split_ifs with heq
    · subst heq
      exact ⟨hnew, trivial⟩
    · trivial

/-- **The events of a request edit the line of a session as the request edited its row.** -/
theorem synced_handle (db : Db) (i : Input) (id : Uuid) :
    Synced db (next db i) (handle db i).events (Revives db i) id := by
  have hnone (events : List Event) (h : events = []) : ∀ e ∈ events, e.Inert := by
    rw [h]
    exact fun _ he => absurd he List.not_mem_nil
  cases handle_footprint db i with
  | refused _ hdb hevents => exact .of_quiet id (congrArg Db.sessions hdb) (hnone _ hevents)
  | answered _ hsessions hevents => exact .of_quiet id hsessions hevents
  | logged _ _ _ _ _ hsessions hevents => exact .of_quiet id hsessions (hnone _ hevents)
  | inserted s kind _ hdb hkind hevents =>
    rw [hevents]
    exact .of_insert id hdb rfl hkind
  | updated _ _ id' row c e _ _ htarget hrow hact hdb hevents hid hdescribes =>
    rw [hevents]
    exact .of_change id hrow ((Input.change?_of_row? htarget hrow).trans hact)
      (congrArg Db.sessions hdb) hid hdescribes
  | reported rep row c e hrep hchange hsessions hevents hid hdescribes =>
    rw [hevents]
    exact .of_change id hrep.row? (hrep.change?.trans hchange) hsessions hid hdescribes

/-! ### Runs

By induction on the requests, the cells of the table are what the emitted events make of those
before. -/

/-- **The events of a run edit the line of a session as the run edited its row.** -/
theorem cell_run (id : Uuid) (l : List Input) : ∀ db : Db,
    (Machine.run next db l).cell id = (editsOf (emitted db l) id).foldl Edit.onRow (db.cell id) := by
  induction l with
  | nil => intro db; rfl
  | cons i l ih =>
    intro db
    rw [Machine.run_cons, ih, (synced_handle db i id).cell, emitted_cons, editsOf_append,
      List.foldl_append]

/-- **The edits fit the row**, in a run that revives no session. -/
theorem fitting_emitted (id : Uuid) (l : List Input) : ∀ {db : Db},
    Machine.Along next (fun db i => ¬Revives db i) db l →
      Fitting (db.cell id) (editsOf (emitted db l) id) := by
  induction l with
  | nil => intro db _; exact trivial
  | cons i l ih =>
    rintro db ⟨hi, hl⟩
    have hsynced := synced_handle db i id
    rw [emitted_cons, editsOf_append, fitting_append, ← hsynced.cell]
    exact ⟨hsynced.fitting hi, ih hl⟩

end Agentd
