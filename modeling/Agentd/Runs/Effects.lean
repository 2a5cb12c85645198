import Agentd.Handlers.Statements
import Agentd.Runs.Atomic
import Agentd.Runs.Finished

/-!
# When a request takes effect

`session.dismiss_error`, `session.kill` and `session.report_event` each make one check on the
row of their session (`Agentd.Input.Passes`) and then write to it at most once. So
each of them takes effect at one of its statements: at the `UPDATE`, or, when there is nothing
to change, at the read. Before it the request is `Agentd.Pending`, afterwards `Agentd.Settled`,
and `Agentd.Pending.step` and `Agentd.Settled.step` say what a single statement does, whatever
happened since the last one.

A dismissal or a kill reads the row, updates it and reads it back for the answer; a report reads the
row, logs, and updates. Between these statements others come, so that what a request does depends on
the row at its check and at its update, and what it answers on the row at each of its statements.
-/

namespace Agentd

open Json Rfc3339
open Plugin (Report)
open Transaction

/-- The check a request makes on the row of its session. -/
def Input.Passes (i : Input) (row : SessionRow) : Prop :=
  ∃ s, rowToSession row = .ok s ∧ match i.request with
    | .control method _ =>
      if method = Method.sessionDismissError then s.status = .errored else ¬s.status.isTerminal
    | .plugin name _ params =>
      ∀ rep, Report.ofParams params i.amb.rowNow = some rep → rep.Mutating → s.owner = some name

/-- The change a report that passed its check makes. -/
def Plugin.Report.effect? (rep : Report) (amb : Ambient) : Option Change :=
  if amb.sqlNow.isSome then rep.change? else none

/-- What a report that passed its check fails for: the log does not take it, or it says what
cannot be stored. -/
def Plugin.Report.Fails (rep : Report) (amb : Ambient) : Prop :=
  amb.sqlNow = none ∨ rep.UnknownStatus ∨ rep.OversizedUsage

/-- A report has an effect when it can be logged, and its payload stands for a change. -/
theorem Plugin.Report.effect?_eq_some {rep : Report} {amb : Ambient} {c : Change} :
    rep.effect? amb = some c ↔ (∃ now, amb.sqlNow = some now) ∧ rep.change? = some c := by
  unfold effect?
  split_ifs with hclock
  · exact (and_iff_right (Option.isSome_iff_exists.mp hclock)).symm
  · refine iff_of_false (by simp) fun h => hclock ?_
    exact Option.isSome_iff_exists.mpr h.1

/-- Nothing but the check can go wrong: the stamp of a request of the control socket can be
read back, and a report comes when the log takes it and names a status there is and counts
that can be stored. -/
def Input.Completes (i : Input) : Prop :=
  match i.request with
  | .control _ _ => i.amb.rowNow.FourDigitYear
  | .plugin _ _ params =>
    ∀ rep, Report.ofParams params i.amb.rowNow = some rep → ¬rep.Fails i.amb

/-- The answer is an error. -/
def Refused (r : Except ProtocolError Value) : Prop :=
  ∃ e, r = .error e

/-- An answer is no refusal. -/
theorem not_refused_ok (v : Value) : ¬Refused (.ok v) := by
  rintro ⟨e, he⟩
  cases he

/-- An error is a refusal, whichever it is. -/
theorem refused_error (e : ProtocolError) : Refused (.error e) :=
  ⟨e, rfl⟩

/-- A row that was changed and is read back gives an answer exactly when it decodes. -/
theorem refused_replyRow {db : Db} {id : Uuid} {row : SessionRow} (hrow : db.row? id = some row)
    (missing : ProtocolError) :
    Refused (Mutate.replyRow (db.getSession id) missing) ↔ ¬row.Decodes :=
  isError_of_replyRow (o := { db, reply := Mutate.replyRow (db.getSession id) missing }) hrow rfl

/-! ### What follows the check

The check reads the row, and what follows is fixed by it, up to the values in the row at the time of
the update. A request whose check fails does nothing, whatever comes between. -/

/-- What a request does once it passed its check. -/
inductive Input.Rest (i : Input) (id : Uuid) : Transaction → Prop
  | control {method : String} {params : Value} {c : Change} {update : Db → Except RepoError Db}
      (hreq : i.request = .control method params)
      (hupdate : ∀ {db row}, db.row? id = some row → update db = .ok (db.change id c))
      (hact : ∀ {row}, i.Passes row → i.act row = some c)
      (hstamp : c.stamp? = some i.amb.rowNow) (hcounts : c.CountsNonneg) :
      Rest i id (updateAndReply id update)
  | report {name params rep} (hreq : i.request = .plugin name Method.sessionReportEvent params)
      (hrep : Report.ofParams params i.amb.rowNow = some rep) (hid : rep.id = id) :
      Rest i id (logAndApply rep i.amb)

/-- A row on which the check passes decodes. -/
theorem Input.Passes.decodes {i : Input} {row : SessionRow} (h : i.Passes row) : row.Decodes := by
  obtain ⟨s, hs, -⟩ := h
  exact (rowToSession_ok hs).1

/-- The check, on a row that decodes. -/
theorem Input.passes_iff {i : Input} {row : SessionRow} {s : Session}
    (hs : rowToSession row = .ok s) :
    i.Passes row ↔ match i.request with
      | .control method _ =>
        if method = Method.sessionDismissError then s.status = .errored else ¬s.status.isTerminal
      | .plugin name _ params =>
        ∀ rep, Report.ofParams params i.amb.rowNow = some rep → rep.Mutating →
          s.owner = some name := by
  constructor
  · rintro ⟨s', hs', h⟩
    rw [hs, Except.ok.injEq] at hs'
    exact hs' ▸ h
  · exact fun h => ⟨s, hs, h⟩

/-- A dismissal passes its check on a session in error. -/
theorem Input.passes_dismissal_iff {i : Input} {params : Value}
    (hreq : i.request = .control Method.sessionDismissError params) {row : SessionRow} {s : Session}
    (hs : rowToSession row = .ok s) : i.Passes row ↔ s.status = .errored := by
  rw [Input.passes_iff hs, hreq]
  exact iff_of_eq (if_pos rfl)

/-- A kill passes its check on a session that has not finished. -/
theorem Input.passes_kill_iff {i : Input} {params : Value}
    (hreq : i.request = .control Method.sessionKill params) {row : SessionRow} {s : Session}
    (hs : rowToSession row = .ok s) : i.Passes row ↔ ¬s.status.isTerminal := by
  rw [Input.passes_iff hs, hreq]
  exact iff_of_eq (if_neg (by decide))

/-- A report that passes its check asks for the change it makes. -/
theorem Input.Passes.act {i : Input} {row : SessionRow} (h : i.Passes row) {name : String}
    {params : Value} {rep : Report}
    (hreq : i.request = .plugin name Method.sessionReportEvent params)
    (hrep : Report.ofParams params i.amb.rowNow = some rep) : i.act row = rep.effect? i.amb := by
  obtain ⟨s, hs, hpass⟩ := h
  rw [hreq] at hpass
  rw [Input.act, hreq, Plugin.Report.effect?]
  simp only [if_pos, hrep, hs, Except.toOption, Option.bind_some]
  by_cases howner : s.owner = some name
  · simp only [howner, true_and]
  · -- not the owner, so the report is of a kind that changes nothing
    cases hchange : rep.change? with
    | none => rw [ite_self, ite_self]
    | some c => exact absurd (hpass rep hrep (Plugin.Report.mutating_of_change? hchange)) howner

/-- A dismissal that passes its check makes the session idle. -/
theorem Input.Passes.act_dismissal {i : Input} {row : SessionRow} (h : i.Passes row)
    {params : Value} (hreq : i.request = .control Method.sessionDismissError params) :
    i.act row = some (.status .idle i.amb.rowNow) := by
  obtain ⟨s, hs, -⟩ := id h
  have herrored := (Input.passes_dismissal_iff hreq hs).mp h
  rw [Input.act, hreq]
  simp only [show Method.sessionDismissError ≠ Method.sessionRename by decide, if_false, if_true,
    hs, Except.toOption, Option.bind_some, herrored]

/-- A kill that passes its check finishes the session. -/
theorem Input.Passes.act_kill {i : Input} {row : SessionRow} (h : i.Passes row) {params : Value}
    (hreq : i.request = .control Method.sessionKill params) :
    i.act row = some (.finish i.amb.rowNow) := by
  obtain ⟨s, hs, -⟩ := id h
  have hlive := (Input.passes_kill_iff hreq hs).mp h
  rw [Input.act, hreq]
  simp only [show Method.sessionKill ≠ Method.sessionRename by decide,
    show Method.sessionKill ≠ Method.sessionDismissError by decide, if_false, if_true, hs,
    Except.toOption, Option.bind_some, hlive, Bool.false_eq_true]

/-- A finished session is not killed. -/
theorem Input.not_passes_of_finished {i : Input} {row : SessionRow} {params : Value}
    (hreq : i.request = .control Method.sessionKill params) (h : row.status = "finished") :
    ¬i.Passes row := by
  intro hpass
  obtain ⟨s, hs, -⟩ := id hpass
  refine (Input.passes_kill_iff hreq hs).mp hpass ?_
  rw [status_of_finished hs h]
  rfl

/-- An error is all that is dismissed. -/
theorem Input.Passes.status_of_dismissal {i : Input} {row : SessionRow} (h : i.Passes row)
    {params : Value} (hreq : i.request = .control Method.sessionDismissError params) :
    row.status = SessionStatus.errored.toText := by
  obtain ⟨s, hs, -⟩ := id h
  have herrored := (Input.passes_dismissal_iff hreq hs).mp h
  exact SessionStatus.ofName?_eq_some.mp (herrored ▸ (rowToSession_ok hs).2.status)

/-- A request that does not pass its check asks for nothing. -/
theorem Input.act_eq_none_of_not_passes {i : Input} {tx : Transaction}
    (h : i.transaction? = some tx) {row : SessionRow} (hnot : ¬i.Passes row) : i.act row = none := by
  by_contra hne
  obtain ⟨c, hc⟩ := Option.ne_none_iff_exists'.mp hne
  apply hnot
  rcases Input.transaction?_cases h with ⟨params, hreq, -⟩ | ⟨params, hreq, -⟩ |
    ⟨name, params, hreq, -⟩
  · rw [Input.act, hreq] at hc
    dsimp only at hc
    rw [if_neg (by decide), if_pos rfl] at hc
    obtain ⟨s, hs, hc⟩ := Option.bind_eq_some_iff.mp hc
    split_ifs at hc with hstatus
    refine ⟨s, Except.toOption_eq_some.mp hs, ?_⟩
    rw [hreq]
    exact (if_pos rfl).mpr hstatus
  · rw [Input.act, hreq] at hc
    dsimp only at hc
    rw [if_neg (by decide), if_neg (by decide), if_pos rfl] at hc
    obtain ⟨s, hs, hc⟩ := Option.bind_eq_some_iff.mp hc
    split_ifs at hc with hterm
    refine ⟨s, Except.toOption_eq_some.mp hs, ?_⟩
    rw [hreq]
    exact hterm
  · rw [Input.act, hreq] at hc
    dsimp only at hc
    rw [if_pos rfl] at hc
    obtain ⟨rep, hrep, hc⟩ := Option.bind_eq_some_iff.mp hc
    obtain ⟨s, hs, hc⟩ := Option.bind_eq_some_iff.mp hc
    split_ifs at hc with howner
    refine ⟨s, Except.toOption_eq_some.mp hs, ?_⟩
    rw [hreq]
    exact fun _ _ _ => howner.1

/-- The check of the control socket: a read, and the rest for a session that is found. -/
theorem onSession_eq_read {params : Value} {id : Uuid}
    (ht : (params.getStr "id").bind Uuid.parseStr = some id) (k : Uuid → Session → Transaction) :
    ∃ next, onSession params k = .step .read (fun db => db) next ∧ ∀ db : Db,
      (∃ row s, db.row? id = some row ∧ rowToSession row = .ok s ∧ next db = k id s) ∨
        (∀ row, db.row? id = some row → ∀ s, rowToSession row ≠ .ok s) ∧
          ∃ e, next db = .done (.error e) := by
  obtain ⟨idStr, hid, huuid⟩ := Option.bind_eq_some_iff.mp ht
  unfold onSession
  simp only [hid, huuid]
  refine ⟨_, rfl, fun db => ?_⟩
  dsimp only
  cases hget : db.getSession id with
  | error e =>
    refine Or.inr ⟨fun row hrow s hs => ?_, _, rfl⟩
    rw [getSession_eq_some.mpr ⟨row, hrow, hs⟩] at hget
    cases hget
  | ok found =>
    cases found with
    | none =>
      refine Or.inr ⟨fun row hrow => ?_, _, rfl⟩
      rw [getSession_eq_none.mp hget] at hrow
      cases hrow
    | some s =>
      obtain ⟨row, hrow, hs⟩ := getSession_eq_some.mp hget
      exact Or.inl ⟨row, s, hrow, hs, rfl⟩

/-- What a read of the row of a session leads to: the rest of the request when it passes
the check on the row, and otherwise an error. -/
def Input.ReadsThen (i : Input) (id : Uuid) (rest : Transaction) (next : Db → Transaction) : Prop :=
  ∀ db : Db, (∃ row, db.row? id = some row ∧ i.Passes row ∧ next db = rest) ∨
    (∀ row, db.row? id = some row → ¬i.Passes row) ∧ ∃ e, next db = .done (.error e)

/-- A handler of the control socket, whose check is the one of `Agentd.Input.Passes`. -/
theorem readsThen_of_control {i : Input} {id : Uuid} {method : String} {params : Value}
    (hreq : i.request = .control method params) (ht : i.target? = some id)
    {fails : Session → Prop} [DecidablePred fails] {e : ProtocolError} (rest : Uuid → Transaction)
    (hcheck : ∀ {row s}, rowToSession row = .ok s → (i.Passes row ↔ ¬fails s)) :
    ∃ next, (onSession params fun id session =>
        if fails session then .done (.error e) else rest id) = .step .read (fun db => db) next ∧
      i.ReadsThen id (rest id) next := by
  rw [Input.target?, hreq] at ht
  obtain ⟨next, hnext, hread⟩ := onSession_eq_read ht fun id session =>
    if fails session then .done (.error e) else rest id
  refine ⟨next, hnext, fun db => ?_⟩
  rcases hread db with ⟨row, s, hrow, hs, h⟩ | ⟨hnone, h⟩
  · rw [h]
    by_cases hfails : fails s
    · refine Or.inr ⟨fun row' hrow' hpasses => ?_, e, if_pos hfails⟩
      rw [hrow, Option.some.injEq] at hrow'
      exact (hcheck hs).mp (hrow' ▸ hpasses) hfails
    · exact Or.inl ⟨row, hrow, (hcheck hs).mpr hfails, if_neg hfails⟩
  · refine Or.inr ⟨fun row hrow hpasses => ?_, h⟩
    obtain ⟨s, hs, -⟩ := hpasses
    exact hnone row hrow s hs

/-- `session.report_event` reads the row of the session the report names. -/
theorem readsThen_of_report {i : Input} {name : String} {params : Value} {rep : Report}
    (hreq : i.request = .plugin name Method.sessionReportEvent params)
    (hrep : Report.ofParams params i.amb.rowNow = some rep) :
    ∃ next, sessionReportEvent params name i.amb = .step .read (fun db => db) next ∧
      i.ReadsThen rep.id (logAndApply rep i.amb) next := by
  have hpasses {row : SessionRow} {s : Session} (hs : rowToSession row = .ok s) :
      i.Passes row ↔ ¬(rep.Mutating ∧ s.owner ≠ some name) := by
    rw [not_and, not_ne_iff]
    rw [Input.passes_iff hs, hreq]
    constructor
    · exact fun hpass => hpass rep hrep
    · intro howner rep' hrep'
      rw [hrep, Option.some.injEq] at hrep'
      exact hrep' ▸ howner
  unfold sessionReportEvent
  simp only [hrep]
  refine ⟨_, rfl, fun db => ?_⟩
  dsimp only
  cases hget : db.getSession rep.id with
  | error e =>
    refine Or.inr ⟨fun row hrow ⟨s, hs, _⟩ => ?_, _, rfl⟩
    rw [getSession_eq_some.mpr ⟨row, hrow, hs⟩] at hget
    cases hget
  | ok found =>
    cases found with
    | none =>
      refine Or.inr ⟨fun row hrow => ?_, _, rfl⟩
      rw [getSession_eq_none.mp hget] at hrow
      cases hrow
    | some s =>
      obtain ⟨row, hrow, hs⟩ := getSession_eq_some.mp hget
      by_cases hforeign : rep.Mutating ∧ s.owner ≠ some name
      · refine Or.inr ⟨fun row' hrow' hpass => ?_, _, if_pos hforeign⟩
        rw [hrow, Option.some.injEq] at hrow'
        exact (hpasses hs).mp (hrow' ▸ hpass) hforeign
      · exact Or.inl ⟨row, hrow, (hpasses hs).mpr hforeign, if_neg hforeign⟩

/-- **Each of the three requests reads the row of its session first, and goes on exactly when
it passes the check.** -/
theorem Input.transaction_eq_read {i : Input} {tx : Transaction} {id : Uuid}
    (h : i.transaction? = some tx) (ht : i.target? = some id) :
    ∃ rest next, i.Rest id rest ∧ tx = .step .read (fun db => db) next ∧
      i.ReadsThen id rest next := by
  rcases Input.transaction?_cases h with ⟨params, hreq, rfl⟩ | ⟨params, hreq, rfl⟩ |
    ⟨name, params, hreq, rfl⟩
  · obtain ⟨next, hnext, hread⟩ := readsThen_of_control (e := .invalidParams) hreq ht
      (fun id => updateAndReply id (·.updateStatus id .idle i.amb.rowNow))
      fun hs => (Input.passes_dismissal_iff hreq hs).trans not_ne_iff.symm
    have hrest : i.Rest id (updateAndReply id (·.updateStatus id .idle i.amb.rowNow)) :=
      .control hreq updateSession_of_row? (fun hpass => hpass.act_dismissal hreq) rfl trivial
    exact ⟨_, next, hrest, hnext, hread⟩
  · obtain ⟨next, hnext, hread⟩ := readsThen_of_control (e := .sessionNotFound) hreq ht
      (fun id => updateAndReply id (·.markFinished id i.amb.rowNow))
      (Input.passes_kill_iff hreq)
    have hrest : i.Rest id (updateAndReply id (·.markFinished id i.amb.rowNow)) :=
      .control hreq updateSession_of_row? (fun hpass => hpass.act_kill hreq) rfl trivial
    exact ⟨_, next, hrest, hnext, hread⟩
  · rw [Input.target?, hreq] at ht
    obtain ⟨rep, hrep, hid⟩ := Option.map_eq_some_iff.mp ht
    obtain ⟨next, hnext, hread⟩ := readsThen_of_report hreq hrep
    rw [hid] at hread
    exact ⟨_, next, .report hreq hrep hid, hnext, hread⟩

/-! ### What a request does on its own

Run without interruption, the statements of a request compute its handler. What is left is to say
what they do to the row. -/

/-- The row of the session of a request, afterwards. -/
def Input.rowAfter (i : Input) (row : SessionRow) : SessionRow :=
  (i.act row).elim row (Change.apply row)

/-- A report that passed its check changes the row as it says, and fails when it says what
cannot be stored. -/
theorem run_logAndApply {rep : Report} (amb : Ambient) {db : Db} {row : SessionRow}
    (hrow : db.row? rep.id = some row) :
    ((logAndApply rep amb).run db).2.row? rep.id =
        some ((rep.effect? amb).elim row (Change.apply row)) ∧
      (Refused ((logAndApply rep amb).run db).1 ↔ rep.Fails amb) := by
  unfold Plugin.Report.effect? Plugin.Report.Fails
  cases hnow : amb.sqlNow with
  | none =>
    have hrun : (logAndApply rep amb).run db = (.error .internalError, db) := by
      unfold logAndApply
      rw [Program.run_step, hnow, insertEvent_none hrow]
      rfl
    rw [hrun]
    exact ⟨hrow, iff_of_true (refused_error _) (Or.inl rfl)⟩
  | some now =>
  have hrow' : (db.logged rep now).row? rep.id = some row := hrow
  have hrun : (logAndApply rep amb).run db =
      (applyReport rep (db.lastEventId + 1)).run (db.logged rep now) := by
    unfold logAndApply
    rw [Program.run_step, hnow, insertEvent_some hrow]
  rw [hrun, run_applyReport rep _ amb]
  simp only [Option.isSome_some, if_true, reduceCtorEq, false_or]
  cases hchange : rep.change? with
  | some c =>
    obtain ⟨e, -, -, happly⟩ := applyReport_of_change? (db.lastEventId + 1) amb hrow' hchange
    rw [happly]
    refine ⟨row?_change c hrow', iff_of_false (not_refused_ok _) fun hbad => ?_⟩
    have hnone := (applyReport_of_bad (db.lastEventId + 1) amb db hbad).1
    rw [hchange] at hnone
    cases hnone
  | none =>
    by_cases hbad : rep.UnknownStatus ∨ rep.OversizedUsage
    · obtain ⟨-, e, happly⟩ := applyReport_of_bad (db.lastEventId + 1) amb
        (db.logged rep now) hbad
      rw [happly]
      exact ⟨hrow', iff_of_true (refused_error e) hbad⟩
    · rw [not_or] at hbad
      rw [applyReport_of_none _ amb hchange hbad.1 hbad.2]
      exact ⟨hrow', iff_of_false (not_refused_ok _) (not_or.mpr hbad)⟩

/-- What follows the check changes the row as the request asks, and fails when the request
cannot be completed. -/
theorem Input.Rest.run {i : Input} {id : Uuid} {rest : Transaction} (h : i.Rest id rest) {db : Db}
    {row : SessionRow} (hrow : db.row? id = some row) (hpass : i.Passes row) :
    (rest.run db).2.row? id = some (i.rowAfter row) ∧
      (Refused (rest.run db).1 ↔ ¬i.Completes) := by
  unfold Input.rowAfter Input.Completes
  cases h with
  | control hreq hupdate hact hstamp hcounts =>
    rename_i method params c update
    rw [run_updateAndReply, hupdate hrow, hact hpass, hreq]
    refine ⟨row?_change c hrow, (refused_replyRow (row?_change c hrow) _).trans (not_congr ?_)⟩
    rw [Change.decodes_apply_iff hpass.decodes hcounts, hstamp]
    exact ⟨fun hyear => hyear _ rfl, fun hyear t ht => Option.some.inj ht ▸ hyear⟩
  | report hreq hrep hid =>
    subst hid
    rw [hpass.act hreq hrep, hreq]
    refine ⟨(run_logAndApply i.amb hrow).1, (run_logAndApply i.amb hrow).2.trans
      ⟨fun hbad hc => hc _ hrep hbad, fun hnot => ?_⟩⟩
    by_contra hgood
    refine hnot fun rep' hrep' => ?_
    rw [hrep, Option.some.injEq] at hrep'
    exact hrep' ▸ hgood

section Alone

variable {i : Input} {tx : Transaction} {id : Uuid} (h : i.transaction? = some tx)
  (ht : i.target? = some id)
include h ht

/-- A request changes the row of its session as it asks to. -/
theorem row?_run_transaction (db : Db) :
    (tx.run db).2.row? id = (db.row? id).map i.rowAfter := by
  obtain ⟨rest, next, hrest, rfl, hread⟩ := Input.transaction_eq_read h ht
  rw [Program.run_step]
  rcases hread db with ⟨row, hrow, hpass, hnext⟩ | ⟨hnot, e, hnext⟩
  · rw [hnext, (hrest.run hrow hpass).1, hrow, Option.map_some]
  · rw [hnext, Program.run_done]
    cases hrow : db.row? id with
    | none => rfl
    | some row =>
      rw [Option.map_some, Input.rowAfter, Input.act_eq_none_of_not_passes h (hnot row hrow),
        Option.elim_none]

/-- A request succeeds when its session passes the check and nothing else goes wrong. -/
theorem refused_run_transaction (db : Db) :
    Refused (tx.run db).1 ↔ ¬∃ row, db.row? id = some row ∧ i.Passes row ∧ i.Completes := by
  obtain ⟨rest, next, hrest, rfl, hread⟩ := Input.transaction_eq_read h ht
  rw [Program.run_step]
  rcases hread db with ⟨row, hrow, hpass, hnext⟩ | ⟨hnot, e, hnext⟩
  · rw [hnext, (hrest.run hrow hpass).2]
    refine not_congr ⟨fun hc => ⟨row, hrow, hpass, hc⟩, ?_⟩
    rintro ⟨-, -, -, hc⟩
    exact hc
  · rw [hnext, Program.run_done]
    refine iff_of_true (refused_error e) ?_
    rintro ⟨row, hrow, hpass, -⟩
    exact hnot row hrow hpass

end Alone

/-! ### What a request does among others

Each statement is followed through the state its request is in. An update changes the row as the
request says, whatever the row has become; the answer is an error when the row that is read back
does not decode. -/

/-- The side effect of a report that makes a change is one `UPDATE`. -/
theorem Transaction.applyReport_eq_execute {rep : Report} {c : Change} (h : rep.change? = some c)
    (eventId : ℕ) :
    ∃ update, applyReport rep eventId =
        execute update (.done (.error .internalError)) (accepted eventId) ∧
      ∀ {db : Db} {row}, db.row? rep.id = some row → update db = .ok (db.change rep.id c) := by
  unfold Plugin.Report.change? at h
  unfold applyReport
  split_ifs at h ⊢ with hstatus htask husage hfinish
  · obtain ⟨new, hnew, rfl⟩ := Option.map_eq_some_iff.mp h
    obtain ⟨s, hs, hname⟩ := Option.bind_eq_some_iff.mp hnew
    simp only [hs, hname]
    exact ⟨_, rfl, updateSession_of_row?⟩
  · obtain ⟨task, htext, rfl⟩ := Option.map_eq_some_iff.mp h
    simp only [htext]
    exact ⟨_, rfl, updateSession_of_row?⟩
  · cases hused : bindU64 rep.used with
    | error e => simp [hused] at h
    | ok used =>
      cases htotal : bindU64 rep.total with
      | error e => simp [hused, htotal] at h
      | ok total =>
        simp only [hused, htotal, Option.some.injEq] at h
        subst h
        refine ⟨fun db => db.updateUsage rep.id rep.used rep.total rep.cost rep.ts, rfl, ?_⟩
        intro db row hrow
        unfold Db.updateUsage
        simp only [hused, htotal]
        exact updateSession_of_row? hrow
  · obtain rfl := Option.some.inj h
    exact ⟨_, rfl, updateSession_of_row?⟩

/-- The side effect of a report that makes no change is none, or an `UPDATE` that fails. -/
theorem Transaction.applyReport_eq_done_or_fails {rep : Report} (h : rep.change? = none)
    (eventId : ℕ) :
    (∃ r, applyReport rep eventId = .done r ∧
      (Refused r ↔ rep.UnknownStatus ∨ rep.OversizedUsage)) ∨
    (rep.UnknownStatus ∨ rep.OversizedUsage) ∧ ∃ update next, applyReport rep eventId =
        execute update (.done (.error .internalError)) next ∧ ∀ db, ∃ e, update db = .error e := by
  unfold Plugin.Report.change? at h
  unfold applyReport
  split_ifs at h ⊢ with hstatus htask husage hfinish
  · have hgood : ¬rep.OversizedUsage := fun hover =>
      absurd (hover.1.symm.trans hstatus) (by decide)
    cases hs : rep.payload.getStr "status" with
    | none =>
      refine Or.inl ⟨_, rfl, iff_of_false (not_refused_ok _) (not_or.mpr ⟨?_, hgood⟩)⟩
      rintro ⟨-, s, hs', -⟩
      rw [hs] at hs'
      cases hs'
    | some s =>
      cases hname : SessionStatus.ofName? s with
      | none =>
        simp only [hname]
        exact Or.inl ⟨_, rfl, iff_of_true (refused_error _) (Or.inl ⟨hstatus, s, hs, hname⟩)⟩
      | some new => simp [hs, hname] at h
  · cases htext : rep.payload.getStr "task" with
    | none =>
      refine Or.inl ⟨_, rfl, iff_of_false (not_refused_ok _) (not_or.mpr ⟨?_, ?_⟩)⟩
      · exact fun hunknown => hstatus hunknown.1
      · exact fun hover => absurd (hover.1.symm.trans htask) (by decide)
    | some task => simp [htext] at h
  · by_cases hover : rep.OversizedUsage
    · refine Or.inr ⟨Or.inr hover, _, _, rfl, fun db => ?_⟩
      obtain ⟨-, n, hn, hle⟩ := hover
      unfold Db.updateUsage
      rcases hn with hn | hn
      · have hused := bindU64_of_le hn hle
        unfold Plugin.Report.used at hused
        simp only [hused]
        exact ⟨_, rfl⟩
      · have htotal := bindU64_of_le hn hle
        unfold Plugin.Report.total at htotal
        cases hused : bindU64 ((rep.payload.get "used").bind Value.asU64) <;> simp [htotal]
    · exfalso
      obtain ⟨used, hused⟩ : ∃ y, bindU64 rep.used = .ok y :=
        exists_bindU64 fun ⟨n, hn, hle⟩ => hover ⟨husage, n, Or.inl hn, hle⟩
      obtain ⟨total, htotal⟩ : ∃ y, bindU64 rep.total = .ok y :=
        exists_bindU64 fun ⟨n, hn, hle⟩ => hover ⟨husage, n, Or.inr hn, hle⟩
      simp [hused, htotal] at h
  · refine Or.inl ⟨_, rfl, iff_of_false (not_refused_ok _) (not_or.mpr ⟨?_, ?_⟩)⟩
    · exact fun hunknown => hstatus hunknown.1
    · exact fun hover => husage hover.1

/-- A request that is still to take effect. -/
inductive Pending (i : Input) (id : Uuid) (stored : Prop) : Transaction → Prop
  | start {tx : Transaction} (h : i.transaction? = some tx) : Pending i id stored tx
  | updating {method : String} {params : Value} {c : Change} {update : Db → Except RepoError Db}
      (hstored : stored) (hreq : i.request = .control method params)
      (hupdate : ∀ {db row}, db.row? id = some row → update db = .ok (db.change id c))
      (hact : ∀ {row}, i.Passes row → i.act row = some c) :
      Pending i id stored (updateAndReply id update)
  | logging {name params rep c} (hstored : stored)
      (hreq : i.request = .plugin name Method.sessionReportEvent params)
      (hrep : Report.ofParams params i.amb.rowNow = some rep) (hid : rep.id = id)
      (hchange : rep.effect? i.amb = some c) : Pending i id stored (logAndApply rep i.amb)
  | applying {name params rep c} (hstored : stored)
      (hreq : i.request = .plugin name Method.sessionReportEvent params)
      (hrep : Report.ofParams params i.amb.rowNow = some rep) (hid : rep.id = id)
      (hchange : rep.effect? i.amb = some c) (eventId : ℕ) :
      Pending i id stored (applyReport rep eventId)

/-- A request that has taken effect, and whether it will be refused. -/
inductive Settled (i : Input) (id : Uuid) (stored refused : Prop) : Transaction → Prop
  | done {r : Except ProtocolError Value} (h : Refused r ↔ refused) :
      Settled i id stored refused (.done r)
  | readingBack {method params} (hstored : stored) (hreq : i.request = .control method params)
      (h : ¬i.Completes ↔ refused) :
      Settled i id stored refused (query .readBack (·.getSession id) fun row =>
        .done (Mutate.replyRow row .internalError))
  | logging {rep : Report} (hstored : stored) (hid : rep.id = id)
      (hchange : rep.effect? i.amb = none) (h : rep.Fails i.amb ↔ refused) :
      Settled i id stored refused (logAndApply rep i.amb)
  | applying {rep : Report} (hchange : rep.change? = none)
      (h : rep.UnknownStatus ∨ rep.OversizedUsage ↔ refused) (eventId : ℕ) :
      Settled i id stored refused (applyReport rep eventId)

/-- A report of a stored session is logged, whatever comes of it, unless SQLite does not write
the time. -/
theorem logAndApply_eq (rep : Report) (amb : Ambient) :
    ∃ write next, logAndApply rep amb = .step .log write next ∧
      ∀ {db : Db} {row}, db.row? rep.id = some row →
        (write db).row? rep.id = some row ∧
          ((∃ now, amb.sqlNow = some now) ∧ next db = applyReport rep (db.lastEventId + 1) ∨
            amb.sqlNow = none ∧ next db = .done (.error .internalError)) := by
  refine ⟨_, _, rfl, fun {db row} hrow => ?_⟩
  cases amb.sqlNow with
  | none =>
    rw [insertEvent_none hrow]
    exact ⟨hrow, Or.inr ⟨rfl, rfl⟩⟩
  | some now =>
    rw [insertEvent_some hrow]
    exact ⟨hrow, Or.inl ⟨⟨now, rfl⟩, rfl⟩⟩

section Step

variable {i : Input} {tx : Transaction} {id : Uuid} {stored : Prop} {db : Db} {label : Statement}
  {write : Db → Db} {next : Db → Transaction}

/-- A request makes its change to its row. -/
theorem row?_change_eq_run (htx : i.transaction? = some tx) (ht : i.target? = some id)
    {row : SessionRow} (hrow : db.row? id = some row) {c : Change}
    (hact : i.act row = some c) : (db.change id c).row? id = (tx.run db).2.row? id := by
  rw [row?_run_transaction htx ht, hrow, Option.map_some, Input.rowAfter, hact]
  exact row?_change c hrow

/-- A request that passes the check of its row is refused when it cannot complete. -/
theorem refused_run_iff_of_passes (htx : i.transaction? = some tx) (ht : i.target? = some id)
    {row : SessionRow} (hrow : db.row? id = some row) (hpass : i.Passes row) :
    ¬i.Completes ↔ Refused (tx.run db).1 := by
  rw [refused_run_transaction htx ht]
  refine not_congr ⟨fun hcompletes => ⟨row, hrow, hpass, hcompletes⟩, ?_⟩
  rintro ⟨-, -, -, hcompletes⟩
  exact hcompletes

/-- A report that makes a change completes. -/
theorem completes_of_change? {name : String} {params : Value} {rep : Report} {c : Change}
    (hreq : i.request = .plugin name Method.sessionReportEvent params)
    (hrep : Report.ofParams params i.amb.rowNow = some rep) (heffect : rep.effect? i.amb = some c)
    (eventId : ℕ) (db : Db) : i.Completes := by
  obtain ⟨⟨now, hnow⟩, hchange⟩ := Plugin.Report.effect?_eq_some.mp heffect
  rw [Input.Completes, hreq]
  rintro rep' hrep' (hnone | hbad)
  · rw [hnow] at hnone
    cases hnone
  · rw [hrep, Option.some.injEq] at hrep'
    have hnone := (applyReport_of_bad eventId i.amb db (hrep' ▸ hbad)).1
    rw [hchange] at hnone
    cases hnone

/-- **A statement of a request that is still to take effect** does nothing to the row, or
all that the request would do to it. -/
theorem Pending.step (htx : i.transaction? = some tx) (ht : i.target? = some id)
    (h : Pending i id stored (.step label write next))
    (hinv : (∃ row, db.row? id = some row) ↔ stored)
    (hcalm : label = .update → ∀ row, db.row? id = some row → i.Passes row) :
    (write db).row? id = db.row? id ∧ Pending i id stored (next db) ∨
      (write db).row? id = (tx.run db).2.row? id ∧
        Settled i id stored (Refused (tx.run db).1) (next db) ∧
        (label = .update ∨ ∀ row, db.row? id = some row → i.act row = none) := by
  generalize hx : Program.step label write next = x at h
  cases h with
  | start h =>
    rw [h, Option.some.injEq] at htx
    subst htx
    obtain ⟨rest, next', hrest, rfl, hread⟩ := Input.transaction_eq_read h ht
    obtain ⟨rfl, rfl, rfl⟩ := Program.step.inj hx
    rw [Program.run_step]
    rcases hread db with ⟨row, hrow, hpass, hnext⟩ | ⟨hnot, e, hnext⟩
    · have hstored := hinv.mp ⟨row, hrow⟩
      rw [hnext]
      cases hrest with
      | control hreq hupdate hact => exact Or.inl ⟨rfl, .updating hstored hreq hupdate hact⟩
      | @report name params rep hreq hrep hid =>
        cases hchange : rep.effect? i.amb with
        | some c => exact Or.inl ⟨rfl, .logging hstored hreq hrep hid hchange⟩
        | none =>
          -- nothing is left that counts, so the read decides
          subst hid
          have hrun := run_logAndApply i.amb hrow
          rw [hchange, Option.elim_none] at hrun
          refine Or.inr ⟨hrow.trans hrun.1.symm, .logging hstored rfl hchange hrun.2.symm,
            Or.inr fun row' hrow' => ?_⟩
          rw [hrow, Option.some.injEq] at hrow'
          rw [← hrow', hpass.act hreq hrep, hchange]
    · rw [hnext]
      exact Or.inr ⟨rfl, .done Iff.rfl,
        Or.inr fun row hrow => Input.act_eq_none_of_not_passes h (hnot row hrow)⟩
  | @updating method params c update hstored hreq hupdate hact =>
    obtain ⟨rfl, rfl, rfl⟩ := Program.step.inj hx
    obtain ⟨row, hrow⟩ := hinv.mpr hstored
    have hpass := hcalm rfl row hrow
    dsimp only
    rw [hupdate hrow]
    exact Or.inr ⟨row?_change_eq_run htx ht hrow (hact hpass),
      .readingBack hstored hreq (refused_run_iff_of_passes htx ht hrow hpass), Or.inl rfl⟩
  | @logging name params rep c hstored hreq hrep hid hchange =>
    obtain ⟨write', next', heq, hlog⟩ := logAndApply_eq rep i.amb
    obtain ⟨rfl, rfl, rfl⟩ := Program.step.inj (hx.trans heq)
    obtain ⟨row, hrow⟩ := hinv.mpr hstored
    obtain ⟨hwrite, ⟨-, hnext⟩ | ⟨hnone, -⟩⟩ := hlog (hid ▸ hrow)
    · rw [hid] at hwrite
      rw [hwrite, hrow, hnext]
      exact Or.inl ⟨rfl, .applying hstored hreq hrep hid hchange _⟩
    · obtain ⟨⟨now, hnow⟩, -⟩ := Plugin.Report.effect?_eq_some.mp hchange
      rw [hnow] at hnone
      cases hnone
  | @applying name params rep c hstored hreq hrep hid hchange eventId =>
    obtain ⟨update, heq, hupdate⟩ :=
      applyReport_eq_execute (Plugin.Report.effect?_eq_some.mp hchange).2 eventId
    obtain ⟨rfl, rfl, rfl⟩ := Program.step.inj (hx.trans heq)
    obtain ⟨row, hrow⟩ := hinv.mpr hstored
    have hpass := hcalm rfl row hrow
    have hact : i.act row = some c := (hpass.act hreq hrep).trans hchange
    have hcompletes := completes_of_change? hreq hrep hchange eventId db
    have hnot : ¬Refused (tx.run db).1 := fun hrefused =>
      (refused_run_iff_of_passes htx ht hrow hpass).mpr hrefused hcompletes
    subst hid
    dsimp only
    rw [hupdate hrow]
    exact Or.inr ⟨row?_change_eq_run htx ht hrow hact,
      .done (iff_of_false (not_refused_ok _) hnot), Or.inl rfl⟩

/-- **A statement of a request that has taken effect** does nothing to the row, and leaves
the answer as it is settled. -/
theorem Settled.step {refused : Prop} (h : Settled i id stored refused (.step label write next))
    (hinv : (∃ row, db.row? id = some row) ↔ stored)
    (hcalm : label = .readBack → ∀ row, db.row? id = some row →
      (row.Decodes ↔ i.amb.rowNow.FourDigitYear)) :
    (write db).row? id = db.row? id ∧ Settled i id stored refused (next db) := by
  generalize hx : Program.step label write next = x at h
  cases h with
  | done => cases hx
  | readingBack hstored hreq h =>
    obtain ⟨rfl, rfl, rfl⟩ := Program.step.inj hx
    obtain ⟨row, hrow⟩ := hinv.mpr hstored
    refine ⟨rfl, .done ((refused_replyRow hrow _).trans ?_)⟩
    rw [← h, Input.Completes, hreq]
    exact not_congr (hcalm rfl row hrow)
  | @logging rep hstored hid hchange h =>
    obtain ⟨write', next', heq, hlog⟩ := logAndApply_eq rep i.amb
    obtain ⟨rfl, rfl, rfl⟩ := Program.step.inj (hx.trans heq)
    obtain ⟨row, hrow⟩ := hinv.mpr hstored
    obtain ⟨hwrite, ⟨⟨now, hnow⟩, hnext⟩ | ⟨hnone, hnext⟩⟩ := hlog (hid ▸ hrow)
    · rw [hid] at hwrite
      rw [hwrite, hrow, hnext]
      unfold Plugin.Report.effect? at hchange
      unfold Plugin.Report.Fails at h
      simp only [hnow, Option.isSome_some, if_true, reduceCtorEq, false_or] at hchange h
      exact ⟨rfl, .applying hchange h _⟩
    · rw [hid] at hwrite
      rw [hwrite, hrow, hnext]
      exact ⟨rfl, .done (iff_of_true (refused_error _) (h.mp (Or.inl hnone)))⟩
  | @applying rep hchange h eventId =>
    rcases applyReport_eq_done_or_fails hchange eventId with
      ⟨r, heq, -⟩ | ⟨hbad, update, next', heq, hfail⟩
    · rw [heq] at hx
      cases hx
    · obtain ⟨rfl, rfl, rfl⟩ := Program.step.inj (hx.trans heq)
      obtain ⟨e, he⟩ := hfail db
      dsimp only
      rw [he]
      exact ⟨rfl, .done (iff_of_true (refused_error _) (h.mp hbad))⟩

end Step

/-- A request is not at its end before it took effect. -/
theorem Pending.ne_done {i : Input} {id : Uuid} {stored : Prop} {x : Transaction}
    (ht : i.target? = some id) (h : Pending i id stored x) (r : Except ProtocolError Value) :
    x ≠ .done r := by
  intro hx
  cases h with
  | start h =>
    obtain ⟨_, _, _, heq, _⟩ := Input.transaction_eq_read h ht
    cases heq.symm.trans hx
  | updating => cases hx
  | logging => cases hx
  | applying _ _ _ _ hchange eventId =>
    obtain ⟨_, heq, _⟩ := applyReport_eq_execute (Plugin.Report.effect?_eq_some.mp hchange).2 eventId
    cases heq.symm.trans hx

/-- At its end a request answers as it was settled. -/
theorem Settled.refused_iff {i : Input} {id : Uuid} {stored refused : Prop} {x : Transaction}
    (h : Settled i id stored refused x) {r : Except ProtocolError Value} (hx : x = .done r) :
    Refused r ↔ refused := by
  cases h with
  | done h => exact Program.done.inj hx ▸ h
  | readingBack => cases hx
  | logging => cases hx
  | applying hchange h eventId =>
    rcases applyReport_eq_done_or_fails hchange eventId with ⟨r', heq, hr'⟩ |
      ⟨-, _, _, heq, -⟩
    · exact Program.done.inj (heq.symm.trans hx) ▸ hr'.trans h
    · cases heq.symm.trans hx

end Agentd
