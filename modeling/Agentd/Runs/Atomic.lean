import Agentd.Runs.Readable

/-!
# What it takes for an error answer to be atomic

A request that is answered with an error should have done nothing. A handler has three
ways to fail after it wrote:

* `session.report_event` logs the report before it looks at the status it names or stores
  its token counts – unless the log itself refuses it, as it does at a time that SQLite does not
  write;
* `session.rename` reads the renamed row back for its answer, also when the row did not
  decode before;
* `session.dismiss_error` and `session.kill` stamp the row with the daemon's clock, and the
  row they read back no longer decodes when its year has not four digits.

`Agentd.atomic_iff` says that these are all (`Agentd.FailsLate`).
-/

namespace Agentd

open Json Rfc3339
open Plugin (Report)

/-- If the answer is an error, then the tables are as before and nothing was emitted. -/
def Atomic (db : Db) (i : Input) : Prop :=
  (handle db i).IsError →
    (handle db i).db.sessions = db.sessions ∧
      (handle db i).db.sessionEvents = db.sessionEvents ∧
      (handle db i).db.plugins = db.plugins ∧ (handle db i).events = []

/-- The requests that fail after they wrote. -/
inductive FailsLate (db : Db) (i : Input) : Prop
  /-- A report of the owner with a status there is not, or a count of 2⁶³ or more, at a time that
  SQLite writes. -/
  | logged {rep : Report} {row : SessionRow} (h : OwnerReport db i rep row)
      (hbad : rep.UnknownStatus ∨ rep.OversizedUsage)
  /-- A rename of a session whose row does not decode. -/
  | renamed {row : SessionRow} {name : String} (h : Renames db i row name) (hbad : ¬row.Decodes)
  /-- A dismissal or a kill while the year of the daemon's clock has not four digits. -/
  | stamped {row : SessionRow} (h : Dismisses db i row ∨ Kills db i row)
      (hbad : ¬i.amb.rowNow.FourDigitYear)

/-- A row that was changed and is read back gives an answer exactly when it decodes. -/
theorem isError_of_replyRow {db : Db} {id : Uuid} {row : SessionRow} {o : Outcome}
    {missing : ProtocolError} (hrow : db.row? id = some row)
    (hreply : o.reply = Mutate.replyRow (db.getSession id) missing) :
    o.IsError ↔ ¬row.Decodes := by
  unfold Outcome.IsError
  rw [hreply, ← exists_rowToSession_iff, Db.getSession, hrow]
  cases hs : rowToSession row with
  | error e => simp [hs, Mutate.replyRow]
  | ok s => simp [hs, Mutate.replyRow]

theorem row?_change {db : Db} {id : Uuid} {row : SessionRow} (c : Change)
    (h : db.row? id = some row) : (db.change id c).row? id = some (c.apply row) := by
  have hfind := @KeyedTable.find?_modify_self _ _ _ _ _ _ db.sessions id.toText (Change.apply · c)
    c.keeps row h
  exact hfind

/-- A change through the control socket is announced, and answered with an error exactly
when the row it leaves does not decode. -/
theorem Cause.outcome {db : Db} {i : Input} {row : SessionRow} {c : Change} {method : String}
    {params : Value} (hreq : i.request = .control method params) (hrow : row ∈ db.sessions.rows)
    (h : Cause db i row c) :
    (handle db i).events ≠ [] ∧ ((handle db i).IsError ↔ ¬(c.apply row).Decodes) := by
  have hnotidle (hidle : i.Idle db) : False := by
    have hchange := hidle.change row hrow
    rw [h.change?] at hchange
    cases hchange
  cases handle_footprint db i with
  | refused hidle => exact (hnotidle hidle).elim
  | answered hidle => exact (hnotidle hidle).elim
  | logged _ _ _ _ hidle => exact (hnotidle hidle).elim
  | inserted s _ hs =>
    have hchange := h.change?
    rw [Input.change?, Input.act_eq_none_of_newSession? hs, ite_self] at hchange
    cases hchange
  | updated _ _ id row' c' e missing _ htarget hrow' hact hdb hevents _ _ hreply =>
    -- the row that was read back is the one the change was made to
    have hrow'' : row' = row := by
      refine db.sessions.eq_of_key_eq (KeyedTable.find?_eq_some.mp hrow').1 hrow ?_
      rw [(KeyedTable.find?_eq_some.mp hrow').2]
      have hchange := h.change?
      unfold Input.change? at hchange
      split_ifs at hchange with ht
      rw [htarget] at ht
      exact Option.some.inj ht
    subst hrow''
    have hc : c' = c := by
      have hchange := (Input.change?_of_row? htarget hrow').trans hact
      rw [h.change?] at hchange
      exact (Option.some.inj hchange).symm
    subst hc
    rw [hdb] at hreply
    exact ⟨by simp [hevents], isError_of_replyRow (row?_change c' hrow') hreply⟩
  | reported rep _ _ _ hrep =>
    -- a report does not come through the control socket
    obtain ⟨_, _, hplugin, -⟩ := hrep
    rw [hreq] at hplugin
    cases hplugin

/-- A change through the control socket leaves a row that does not decode only when
the request fails late. -/
theorem Cause.failsLate {db : Db} {i : Input} {row : SessionRow} {c : Change} {method : String}
    {params : Value} (hreq : i.request = .control method params) (h : Cause db i row c)
    (hbad : ¬(c.apply row).Decodes) : FailsLate db i := by
  have hstamp (s : Session) (hs : rowToSession row = .ok s) (hc : c.stamp? = some i.amb.rowNow) :
      ¬i.amb.rowNow.FourDigitYear := by
    rw [Change.decodes_apply_iff (rowToSession_ok hs).1 h.countsNonneg, hc] at hbad
    exact fun hyear => hbad fun t ht => Option.some.inj ht ▸ hyear
  cases h with
  | rename h => exact .renamed h (mt Change.decodes_rename_iff.mpr hbad)
  | dismiss h =>
    obtain ⟨_, _, s, -, -, -, hs, -⟩ := id h
    exact .stamped (Or.inl h) (hstamp s hs rfl)
  | kill h =>
    obtain ⟨_, _, s, -, -, -, hs, -⟩ := id h
    exact .stamped (Or.inr h) (hstamp s hs rfl)
  | report h _ =>
    obtain ⟨_, _, hplugin, -⟩ := h
    rw [hreq] at hplugin
    cases hplugin

/-- A request that fails late is not atomic. -/
theorem FailsLate.not_atomic {db : Db} {i : Input} (h : FailsLate db i) : ¬Atomic db i := by
  intro hatomic
  -- a change that goes wrong when it is read back was announced all the same
  have hchange {row : SessionRow} {c : Change} {method : String} {params : Value}
      (hreq : i.request = .control method params) (hrow : row ∈ db.sessions.rows)
      (hcause : Cause db i row c) (hbad : ¬(c.apply row).Decodes) : False := by
    obtain ⟨hevents, hiff⟩ := hcause.outcome hreq hrow
    exact hevents (hatomic (hiff.mpr hbad)).2.2.2
  have hstamp {row : SessionRow} {s : Session} {c : Change} (hs : rowToSession row = .ok s)
      (hcause : Cause db i row c) (hc : c.stamp? = some i.amb.rowNow)
      (hbad : ¬i.amb.rowNow.FourDigitYear) : ¬(c.apply row).Decodes := by
    rw [Change.decodes_apply_iff (rowToSession_ok hs).1 hcause.countsNonneg]
    exact fun hyear => hbad (hyear _ hc)
  cases h with
  | @logged rep row h hbad =>
    obtain ⟨now, hhandle⟩ := handle_of_ownerReport h
    obtain ⟨-, e, happly⟩ := applyReport_of_bad (db.lastEventId + 1) i.amb (db.logged rep now) hbad
    rw [Atomic, hhandle, happly] at hatomic
    -- the log is longer by the report, and nothing rolls it back
    have hlog : db.sessionEvents ++ _ = db.sessionEvents := (hatomic ⟨e, rfl⟩).2.1
    simp at hlog
  | @renamed row name h hbad =>
    obtain ⟨_, _, hreq, -, -, hrow⟩ := id h
    exact hchange hreq (KeyedTable.find?_eq_some.mp hrow).1 (.rename h)
      (mt Change.decodes_rename_iff.mp hbad)
  | @stamped row h hbad =>
    rcases h with h | h
    · obtain ⟨_, _, _, hreq, -, hrow, hs, -⟩ := id h
      exact hchange hreq (KeyedTable.find?_eq_some.mp hrow).1 (.dismiss h)
        (hstamp hs (.dismiss h) rfl hbad)
    · obtain ⟨_, _, _, hreq, -, hrow, hs, -⟩ := id h
      exact hchange hreq (KeyedTable.find?_eq_some.mp hrow).1 (.kill h)
        (hstamp hs (.kill h) rfl hbad)

/-- **An error answer is atomic exactly when the request does not fail late.** The database is any,
reachable or not, and so is the input. Most of the errors are found before anything is written; the
three ways that are left are those of `FailsLate`, and each of them does leave something behind. -/
theorem atomic_iff (db : Db) (i : Input) : Atomic db i ↔ ¬FailsLate db i := by
  constructor
  · exact fun hatomic hlate => hlate.not_atomic hatomic
  · intro hlate herror
    cases handle_footprint db i with
    | refused _ hdb hevents =>
      rw [hdb]
      exact ⟨rfl, rfl, rfl, hevents⟩
    | answered _ _ _ hreply => exact absurd herror hreply
    | logged rep row hrep hbad => exact absurd (.logged hrep hbad) hlate
    | inserted _ _ _ _ _ _ hreply => exact absurd herror hreply
    | updated method params id row c _ _ hreq htarget hrow hact =>
      have hmem := (KeyedTable.find?_eq_some.mp hrow).1
      have hcause := Input.cause_of_change? hmem ((Input.change?_of_row? htarget hrow).trans hact)
      have hbad := (hcause.outcome hreq hmem).2.mp herror
      exact absurd (hcause.failsLate hreq hbad) hlate
    | reported _ _ _ _ _ _ _ _ _ _ hreply => exact absurd herror hreply

/-- The owner of a session reports a status there is not. -/
def unknownStatus : Input :=
  ⟨.reportStatus "opencode" (.ofTimeLow 1) "sleeping", .noon (.ofTimeLow 2) 2026⟩

set_option maxRecDepth 2000 in
/-- A refused report stays in the event log. -/
theorem not_atomic_reachable : ¬∀ db, Reachable db → ∀ i, Atomic db i := by
  intro h
  let start : List Input :=
    [⟨.discover "opencode" "main" "%1" "/home/u/proj", .noon (.ofTimeLow 1) 2026⟩]
  have herror : (handle (Machine.run next Db.fresh start) unknownStatus).IsError := by decide
  have hlog := (h _ (Machine.reachable_run Db.fresh start) unknownStatus herror).2.1
  have hlength := congrArg List.length hlog
  revert hlength
  decide

end Agentd
