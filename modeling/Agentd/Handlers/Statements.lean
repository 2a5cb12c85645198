import Agentd.Foundations.Program
import Agentd.Handlers.Footprint

/-!
# The handlers that check first, statement by statement

`session.dismiss_error`, `session.kill` and `session.report_event` read a row, look at it and
write to it. Every handler works on a connection of its own and opens no
SQL transaction, so other handlers run between its statements. Here the three are programs of
their SQL statements. `Agentd.run_transaction` says that they are the handlers of
`Agentd.Mutate` and `Agentd.Plugin` when nothing comes in between.

A statement is a label, the write it makes, and the program that goes on with what it has read.
Nothing is kept of the state between two statements but what is in that program, as in a function
that awaits between its queries. That the programs compute the handlers ties the interleaved runs to
the model of everything else.
-/

namespace Agentd

open Json Rfc3339
open Plugin (Report)

/-- The SQL statements of a handler. -/
inductive Statement
  /-- The read a handler decides on. -/
  | read
  /-- The insertion into `session_events`. -/
  | log
  | update
  /-- The read of the updated row, for the answer. -/
  | readBack
deriving DecidableEq

/-- A handler, statement by statement. -/
abbrev Transaction :=
  Program Statement Db (Except ProtocolError Value)

namespace Transaction

/-- A `SELECT`. -/
def query {α : Type} (label : Statement) (q : Db → α) (k : α → Transaction) : Transaction :=
  .step label id fun db => k (q db)

/-- An `UPDATE`, which changes nothing when it fails. -/
def execute (update : Db → Except RepoError Db) (failed next : Transaction) : Transaction :=
  .step .update (fun db => (update db).toOption.getD db) fun db => match update db with
    | .ok _ => next
    | .error _ => failed

/-- The check of the two handlers of the control socket: `k` gets the session that
the request names. -/
def onSession (params : Value) (k : Uuid → Session → Transaction) : Transaction :=
  match params.getStr "id" with
  | none => .done (.error .invalidParams)
  | some idStr =>
  match Uuid.parseStr idStr with
  | none => .done (.error .invalidParams)
  | some id =>
  query .read (·.getSession id) fun
  | .ok (some session) => k id session
  | _ => .done (.error .sessionNotFound)

/-- The two handlers of the control socket once the check is passed. -/
def updateAndReply (id : Uuid) (update : Db → Except RepoError Db) : Transaction :=
  execute update (.done (.error .internalError)) <|
    query .readBack (·.getSession id) fun row => .done (Mutate.replyRow row .internalError)

/-- `session.dismiss_error`. -/
def sessionDismissError (params : Value) (amb : Ambient) : Transaction :=
  onSession params fun id session =>
    if session.status ≠ .errored then .done (.error .invalidParams)
    else updateAndReply id (·.updateStatus id .idle amb.rowNow)

/-- `session.kill`. The call to tmux, which is no SQL statement, comes before the update. -/
def sessionKill (params : Value) (amb : Ambient) : Transaction :=
  onSession params fun id session =>
    if session.status.isTerminal then .done (.error .sessionNotFound)
    else updateAndReply id (·.markFinished id amb.rowNow)

/-- The answer to a report that was taken. -/
def accepted (eventId : ℕ) : Transaction :=
  .done (.ok (.object [("accepted", .bool true), ("event_id", .string (toString eventId))]))

/-- The side effects of a report, once it is in the event log. -/
def applyReport (rep : Report) (eventId : ℕ) : Transaction :=
  if rep.kind = "session.status_changed" then
    match rep.payload.getStr "status" with
    | none => accepted eventId
    | some s =>
    match SessionStatus.ofName? s with
    | none => .done (.error .invalidParams)
    | some new =>
    execute (·.updateStatus rep.id new rep.ts) (.done (.error .internalError)) (accepted eventId)
  else if rep.kind = "session.task_changed" then
    match rep.payload.getStr "task" with
    | none => accepted eventId
    | some task =>
    execute (·.updateTask rep.id (some task) rep.ts) (.done (.error .internalError))
      (accepted eventId)
  else if rep.kind = "session.usage_updated" then
    let used := (rep.payload.get "used").bind Value.asU64
    let total := (rep.payload.get "total").bind Value.asU64
    let cost := (rep.payload.get "cost_usd").bind Value.asF64
    execute (·.updateUsage rep.id used total cost rep.ts) (.done (.error .internalError))
      (accepted eventId)
  else if rep.kind = "session.finished" then
    execute (·.markFinished rep.id rep.ts) (.done (.error .internalError)) (accepted eventId)
  else accepted eventId

/-- A report that passed the check, from the event log on. -/
def logAndApply (rep : Report) (amb : Ambient) : Transaction :=
  .step .log (fun db => match db.insertEvent rep.id rep.kind rep.payload amb.sqlNow with
    | .error _ => db
    | .ok (_, db) => db) fun db =>
  match db.insertEvent rep.id rep.kind rep.payload amb.sqlNow with
  | .error _ => .done (.error .internalError)
  | .ok (eventId, _) => applyReport rep eventId

/-- `session.report_event`. -/
def sessionReportEvent (params : Value) (pluginName : String) (amb : Ambient) : Transaction :=
  match Report.ofParams params amb.rowNow with
  | none => .done (.error .invalidParams)
  | some rep =>
  query .read (·.getSession rep.id) fun
  | .error _ => .done (.error .internalError)
  | .ok none => .done (.error .sessionNotFound)
  | .ok (some session) =>
    if rep.Mutating ∧ session.owner ≠ some pluginName then .done (.error .pluginNotAuthoritative)
    else logAndApply rep amb

end Transaction

/-- The statements of a request of one of the three methods. -/
def Input.transaction? (i : Input) : Option Transaction :=
  match i.request with
  | .control method params =>
    if method = Method.sessionDismissError then some (.sessionDismissError params i.amb)
    else if method = Method.sessionKill then some (.sessionKill params i.amb)
    else none
  | .plugin name method params =>
    if method = Method.sessionReportEvent then some (.sessionReportEvent params name i.amb)
    else none

/-- **One of the three methods**, with its statements. -/
theorem Input.transaction?_cases {i : Input} {tx : Transaction} (h : i.transaction? = some tx) :
    (∃ params, i.request = .control Method.sessionDismissError params ∧
      tx = .sessionDismissError params i.amb) ∨
    (∃ params, i.request = .control Method.sessionKill params ∧ tx = .sessionKill params i.amb) ∨
    ∃ name params, i.request = .plugin name Method.sessionReportEvent params ∧
      tx = .sessionReportEvent params name i.amb := by
  unfold transaction? at h
  split at h
  · rename_i method params hreq
    split_ifs at h with hdismiss hkill
    · exact Or.inl ⟨params, hdismiss ▸ hreq, (Option.some.inj h).symm⟩
    · exact Or.inr (Or.inl ⟨params, hkill ▸ hreq, (Option.some.inj h).symm⟩)
  · rename_i name method params hreq
    split_ifs at h with hreport
    exact Or.inr (Or.inr ⟨name, params, hreport ▸ hreq, (Option.some.inj h).symm⟩)

/-! ### Handlers that have the database to themselves

Run without interruption, the programs give the reply and the database of the handlers. What a
handler emits is not in the programs, as it comes after the last statement. -/

namespace Transaction

theorem run_execute (update : Db → Except RepoError Db) (failed next : Transaction) (db : Db) :
    (execute update failed next).run db = match update db with
      | .ok db' => next.run db'
      | .error _ => failed.run db := by
  unfold execute
  rw [Program.run_step]
  cases update db <;> rfl

/-- Past the check the row is updated and read back. -/
theorem run_updateAndReply (id : Uuid) (update : Db → Except RepoError Db) (db : Db) :
    (updateAndReply id update).run db = match update db with
      | .ok db' => (Mutate.replyRow (db'.getSession id) .internalError, db')
      | .error _ => (.error .internalError, db) := by
  unfold updateAndReply
  rw [run_execute]
  cases update db <;> rfl

/-- The check is the one of `Agentd.Mutate.requestedSession`. -/
theorem run_onSession (params : Value) (k : Uuid → Session → Transaction) (db : Db) :
    (onSession params k).run db = match Mutate.requestedSession params db with
      | .error e => (.error e, db)
      | .ok (id, session) => (k id session).run db := by
  unfold onSession Mutate.requestedSession
  cases params.getStr "id" with
  | none => rfl
  | some idStr =>
    cases hid : Uuid.parseStr idStr with
    | none => simp only [hid, Program.run_done]
    | some id =>
      simp only [hid, query, Program.run_step, id_eq]
      cases db.getSession id with
      | error e => rfl
      | ok session =>
        cases session with
        | none => rfl
        | some session => rfl

theorem run_applyReport (rep : Report) (eventId : ℕ) (amb : Ambient) (db : Db) :
    (applyReport rep eventId).run db =
      ((Plugin.applyReport rep db eventId amb).reply, (Plugin.applyReport rep db eventId amb).db) := by
  unfold applyReport Plugin.applyReport
  split_ifs with hstatus htask husage hfinish
  · cases rep.payload.getStr "status" with
    | none => rfl
    | some s =>
      cases hname : SessionStatus.ofName? s with
      | none => simp only [hname, Program.run_done, refuse]
      | some new =>
        simp only [hname, run_execute]
        cases db.updateStatus rep.id new rep.ts <;> rfl
  · cases rep.payload.getStr "task" with
    | none => rfl
    | some task =>
      simp only [run_execute]
      cases db.updateTask rep.id (some task) rep.ts <;> rfl
  · simp only [run_execute]
    split <;> simp only [*] <;> rfl
  · simp only [run_execute]
    cases db.markFinished rep.id rep.ts <;> rfl
  · rfl

end Transaction

/-- **The statements of a request, with nothing in between, are its handler.** -/
theorem run_transaction {i : Input} {tx : Transaction} (h : i.transaction? = some tx) (db : Db) :
    tx.run db = ((handle db i).reply, (handle db i).db) := by
  obtain ⟨request, amb⟩ := i
  rcases Input.transaction?_cases h with ⟨params, hreq, rfl⟩ | ⟨params, hreq, rfl⟩ |
    ⟨name, params, hreq, rfl⟩
  · obtain rfl : request = _ := hreq
    show _ = ((Mutate.sessionDismissError params db amb).reply,
      (Mutate.sessionDismissError params db amb).db)
    unfold Transaction.sessionDismissError Mutate.sessionDismissError
    rw [Transaction.run_onSession]
    cases Mutate.requestedSession params db with
    | error e => rfl
    | ok found =>
      obtain ⟨id, session⟩ := found
      dsimp only
      split_ifs
      · rfl
      · rw [Transaction.run_updateAndReply]
        cases db.updateStatus id .idle amb.rowNow <;> rfl
  · obtain rfl : request = _ := hreq
    show _ = ((Mutate.sessionKill params db amb).reply, (Mutate.sessionKill params db amb).db)
    unfold Transaction.sessionKill Mutate.sessionKill
    rw [Transaction.run_onSession]
    cases Mutate.requestedSession params db with
    | error e => rfl
    | ok found =>
      obtain ⟨id, session⟩ := found
      dsimp only
      split_ifs
      · rfl
      · rw [Transaction.run_updateAndReply]
        cases db.markFinished id amb.rowNow <;> rfl
  · obtain rfl : request = _ := hreq
    show _ = ((Plugin.sessionReportEvent params db name amb).reply,
      (Plugin.sessionReportEvent params db name amb).db)
    unfold Transaction.sessionReportEvent Plugin.sessionReportEvent
    cases Report.ofParams params amb.rowNow with
    | none => rfl
    | some rep =>
      simp only [Transaction.query, Program.run_step, id_eq]
      cases db.getSession rep.id with
      | error e => rfl
      | ok session =>
        cases session with
        | none => rfl
        | some session =>
          dsimp only
          split_ifs
          · rfl
          · unfold Transaction.logAndApply
            rw [Program.run_step]
            cases db.insertEvent rep.id rep.kind rep.payload amb.sqlNow with
            | error e => rfl
            | ok logged => exact Transaction.run_applyReport rep logged.1 amb logged.2

end Agentd
