import Agentd.Runs.Finished

/-!
# What it takes for an error to stay until it is dismissed

`SessionStatus::Errored` is documented as sticky until dismissed, and the handler of
`session.dismiss_error` is built on it: it is the way out of an error besides the end of the
session. But `session.report_event` writes the status the owner reports whatever the row
holds, so a session in error is taken out of it by the next report.

`Agentd.errored_kept_iff` – errors stay along a run exactly when none of its requests is
`Agentd.Unsticks`, a report that a session in error is starting, idle, working or waiting.
-/

namespace Agentd

open Json Rfc3339
open Plugin (Report)

/-- The request ends the session of `row`: it kills it, or its owner reports it finished, as an
event or as a status. -/
def Ends (db : Db) (i : Input) (row : SessionRow) : Prop :=
  Kills db i row ∨
    ∃ rep, OwnerReport db i rep row ∧ (rep.kind = "session.finished" ∨ rep.AsksStatus .finished)

/-- A session in error stays so, is dismissed, or ends. -/
def Sticky (db : Db) (i : Input) : Prop :=
  ∀ row ∈ db.sessions.rows, row.status = "errored" →
    ∀ row' ∈ (next db i).sessions.rows, row'.id = row.id → row'.status ≠ "errored" →
      Dismisses db i row ∧ row'.status = "idle" ∨ Ends db i row ∧ row'.status = "finished"

/-- The owner of a session in error reports that it is in another status, and has not
finished. -/
def Unsticks (db : Db) (i : Input) : Prop :=
  ∃ rep row new, OwnerReport db i rep row ∧ row.status = "errored" ∧ rep.AsksStatus new ∧
    new ≠ .errored ∧ new ≠ .finished

/-- A change of a row in error that takes it out of error is a dismissal or the end of the
session, when it is not one of the reports. -/
theorem Cause.sticky {db : Db} {i : Input} {row : SessionRow} {c : Change} (h : Cause db i row c)
    (hstatus : row.status = "errored") (hunsticks : ¬Unsticks db i)
    (hne : (c.apply row).status ≠ "errored") :
    Dismisses db i row ∧ (c.apply row).status = "idle" ∨
      Ends db i row ∧ (c.apply row).status = "finished" := by
  cases h with
  | rename _ => exact absurd hstatus hne
  | dismiss h => exact Or.inl ⟨h, rfl⟩
  | kill h => exact Or.inr ⟨Or.inl h, rfl⟩
  | @report rep _ hrep hchange =>
    cases c with
    | rename name => exact absurd hstatus hne
    | status new at_ =>
      obtain ⟨hasks, -⟩ := Plugin.Report.change?_eq_status_iff.mp hchange
      have herrored : new ≠ .errored := by
        rintro rfl
        exact hne rfl
      have hnew : new = .finished := by
        by_contra hlive
        exact hunsticks ⟨rep, row, new, hrep, hstatus, hasks, herrored, hlive⟩
      subst hnew
      exact Or.inr ⟨Or.inr ⟨rep, hrep, Or.inr hasks⟩, rfl⟩
    | task text at_ => exact absurd hstatus hne
    | usage used total cost at_ => exact absurd hstatus hne
    | finish at_ =>
      obtain ⟨hkind, -⟩ := Plugin.Report.change?_eq_finish_iff.mp hchange
      exact Or.inr ⟨Or.inr ⟨rep, hrep, Or.inl hkind⟩, rfl⟩

/-- **A request leaves errors sticky exactly when it is no report that takes a session out
of error.** -/
theorem sticky_next_iff (db : Db) (i : Input) : Sticky db i ↔ ¬Unsticks db i := by
  constructor
  · rintro hsticky ⟨rep, row, new, hrep, hstatus, hasks, herrored, hlive⟩
    have hchange := Plugin.Report.change?_eq_status_iff.mpr ⟨hasks, rfl⟩
    have hedit := Input.edit_of_change?_eq_some (hrep.change?.trans hchange)
    have hnow : (i.edit row).status = new.toText := by rw [hedit]; rfl
    have hne : (i.edit row).status ≠ "errored" := by
      rw [hnow]
      exact fun h => herrored (SessionStatus.toText_injective h)
    rcases hsticky row hrep.mem hstatus _ (edit_mem_next hrep.mem i) (i.edit_id row) hne with
      ⟨⟨_, _, _, hreq, -⟩, -⟩ | ⟨-, hfinished⟩
    · -- a dismissal is no report
      obtain ⟨_, _, hplugin, -⟩ := hrep
      rw [hplugin] at hreq
      cases hreq
    · rw [hnow, SessionStatus.toText_eq_finished] at hfinished
      exact hlive hfinished
  · intro hunsticks row hrow hstatus row' hrow' hid hne
    obtain rfl := eq_edit_of_mem_next hrow hrow' hid
    cases hc : i.change? row with
    | none =>
      rw [Input.edit_of_change?_eq_none hc] at hne
      exact absurd hstatus hne
    | some c =>
      rw [Input.edit_of_change?_eq_some hc] at hne ⊢
      exact (Input.cause_of_change? hrow hc).sticky hstatus hunsticks hne

/-- **Errors stay until they are dismissed, at every request of a run, exactly when none of its
requests reports a session out of error.** The run starts from a fresh database, and its requests
are any of any plugin and of any control client. Only the owner of a session can do it, with a
status that is neither an error nor the end. -/
theorem errored_kept_iff (l : List Input) :
    Machine.Along next Sticky Db.fresh l ↔
      Machine.Along next (fun db i => ¬Unsticks db i) Db.fresh l :=
  ⟨Machine.Along.mono (fun db i => (sticky_next_iff db i).mp) l Db.fresh,
    Machine.Along.mono (fun db i => (sticky_next_iff db i).mpr) l Db.fresh⟩

/-- A session is discovered, and its owner reports an error. -/
def erroredRun : List Input :=
  let id := Uuid.ofTimeLow 1
  let amb := Ambient.noon id 2026
  [⟨.discover "opencode" "main" "%1" "/home/u/proj", amb⟩,
   ⟨.reportStatus "opencode" id "errored", amb⟩]

/-- Its owner then reports it working. -/
def unsticking : Input :=
  ⟨.reportStatus "opencode" (.ofTimeLow 1) "working", .noon (.ofTimeLow 2) 2026⟩

set_option maxRecDepth 2000 in
/-- An error does not stay until it is dismissed: the next report of the owner clears it. -/
theorem errored_not_kept : ¬∀ db, Reachable db → ∀ i, Sticky db i := by
  intro h
  have hbefore : ∃ row ∈ (Machine.run next Db.fresh erroredRun).sessions.rows,
      row.status = "errored" := by decide
  have hafter : ∀ row ∈ (next (Machine.run next Db.fresh erroredRun) unsticking).sessions.rows,
      row.status = "working" := by decide
  obtain ⟨row, hrow, hstatus⟩ := hbefore
  have hedit := edit_mem_next hrow unsticking
  have hworking := hafter _ hedit
  rcases h _ (Machine.reachable_run Db.fresh erroredRun) unsticking row hrow hstatus _ hedit
    (Input.edit_id _ row) (by rw [hworking]; decide) with ⟨-, hidle⟩ | ⟨-, hfinished⟩
  · rw [hworking] at hidle
    exact absurd hidle (by decide)
  · rw [hworking] at hfinished
    exact absurd hfinished (by decide)

end Agentd
