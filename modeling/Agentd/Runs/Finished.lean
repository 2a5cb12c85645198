import Agentd.Handlers.Footprint

/-!
# What it takes for a session to stay finished

`SessionStatus::Finished` is documented as terminal and immutable, and `finished_at` as
set when the status becomes `finished`. Both are invariants of runs that
`session.report_event` can break, as it writes the status the agent reports whatever the
row holds:

* `Agentd.finished_kept_iff` – a run keeps every finished session finished, since the same
  time, exactly when none of its requests is `Agentd.Revives` or `Agentd.Refinishes`;
* `Agentd.finishedAt_set_iff` – in every state of a run the finished sessions are those with
  a `finished_at`, exactly when none of its requests is `Agentd.FlipsFinished`.

Each condition is about the request and the row it names before the request.
-/

namespace Agentd

open Json Rfc3339
open Plugin (Report)

/-! ### Finished stays finished

The relation between two states is that every session which was finished is finished still, since
the same time. It is reflexive and transitive, so that a run keeps it between any two of its states
exactly when every step does. -/

/-- Every session finished in `db` is finished in `db'`, since the same time. -/
def KeepsFinished (db db' : Db) : Prop :=
  ∀ row ∈ db.sessions.rows, row.status = "finished" →
    ∃ row' ∈ db'.sessions.rows, row'.id = row.id ∧ row'.status = "finished" ∧
      row'.finishedAt = row.finishedAt

/-- The owner of a finished session reports another status of it. -/
def Revives (db : Db) (i : Input) : Prop :=
  ∃ rep row new, OwnerReport db i rep row ∧ row.status = "finished" ∧
    rep.AsksStatus new ∧ new ≠ .finished

/-- The owner of a finished session reports that it finished, at another time. -/
def Refinishes (db : Db) (i : Input) : Prop :=
  ∃ rep row, OwnerReport db i rep row ∧ row.status = "finished" ∧
    rep.kind = "session.finished" ∧ row.finishedAt ≠ some (toRfc3339 rep.ts)

theorem KeepsFinished.refl (db : Db) : KeepsFinished db db :=
  fun row hrow hstatus => ⟨row, hrow, rfl, hstatus, rfl⟩

theorem KeepsFinished.trans {db₁ db₂ db₃ : Db} (h₁ : KeepsFinished db₁ db₂)
    (h₂ : KeepsFinished db₂ db₃) : KeepsFinished db₁ db₃ := by
  intro row hrow hstatus
  obtain ⟨row₂, hrow₂, hid₂, hstatus₂, hat₂⟩ := h₁ row hrow hstatus
  obtain ⟨row₃, hrow₃, hid₃, hstatus₃, hat₃⟩ := h₂ row₂ hrow₂ hstatus₂
  exact ⟨row₃, hrow₃, hid₃.trans hid₂, hstatus₃, hat₃.trans hat₂⟩

/-- A step keeps the finished sessions when the edit of each does. -/
theorem keepsFinished_next_iff_edit {db : Db} {i : Input} :
    KeepsFinished db (next db i) ↔ ∀ row ∈ db.sessions.rows, row.status = "finished" →
      (i.edit row).status = "finished" ∧ (i.edit row).finishedAt = row.finishedAt := by
  constructor
  · intro h row hrow hstatus
    obtain ⟨row', hrow', hid, hkept⟩ := h row hrow hstatus
    exact eq_edit_of_mem_next hrow hrow' hid ▸ hkept
  · intro h row hrow hstatus
    exact ⟨i.edit row, edit_mem_next hrow i, i.edit_id row, h row hrow hstatus⟩

/-- A row of a finished session decodes to a finished session, if it does. -/
theorem status_of_finished {row : SessionRow} {s : Session} (hs : rowToSession row = .ok s)
    (h : row.status = "finished") : s.status = .finished := by
  have hname := (rowToSession_ok hs).2.status
  rw [h] at hname
  exact (Option.some.inj hname).symm

/-- A change of a finished session leaves it as it finished, if it is no report. -/
theorem Cause.keeps_finished_of {db : Db} {i : Input} {row : SessionRow} {c : Change}
    (h : Cause db i row c) (hstatus : row.status = "finished")
    (hreport : ∀ rep, OwnerReport db i rep row → rep.change? = some c →
      (c.apply row).status = "finished" ∧ (c.apply row).finishedAt = row.finishedAt) :
    (c.apply row).status = "finished" ∧ (c.apply row).finishedAt = row.finishedAt := by
  cases h with
  | rename _ => exact ⟨hstatus, rfl⟩
  | dismiss h =>
    -- the handler only dismisses what is in error
    obtain ⟨-, -, s, -, -, -, hs, herrored⟩ := h
    rw [status_of_finished hs hstatus] at herrored
    cases herrored
  | kill h =>
    -- the handler only kills what has not finished
    obtain ⟨-, -, s, -, -, -, hs, hlive⟩ := h
    exact absurd (status_of_finished hs hstatus) hlive
  | @report rep _ hrep hchange => exact hreport rep hrep hchange

/-- So does a report that neither revives nor refinishes it. -/
theorem Cause.keeps_finished {db : Db} {i : Input} {row : SessionRow} {c : Change}
    (h : Cause db i row c) (hstatus : row.status = "finished") (hrevives : ¬Revives db i)
    (hrefinishes : ¬Refinishes db i) :
    (c.apply row).status = "finished" ∧ (c.apply row).finishedAt = row.finishedAt := by
  refine h.keeps_finished_of hstatus fun rep hrep hchange => ?_
  cases c with
  | rename name => exact absurd hchange Plugin.Report.change?_ne_rename
  | status new at_ =>
    obtain ⟨hasks, -⟩ := Plugin.Report.change?_eq_status_iff.mp hchange
    have hnew : new = .finished := by
      by_contra hne
      exact hrevives ⟨rep, row, new, hrep, hstatus, hasks, hne⟩
    exact ⟨SessionStatus.toText_eq_finished.mpr hnew, rfl⟩
  | task text at_ => exact ⟨hstatus, rfl⟩
  | usage used total cost at_ => exact ⟨hstatus, rfl⟩
  | finish at_ =>
    -- finishing again writes the status it has, and the time of the report
    obtain ⟨hkind, rfl⟩ := Plugin.Report.change?_eq_finish_iff.mp hchange
    refine ⟨rfl, ?_⟩
    by_contra hne
    exact hrefinishes ⟨rep, row, hrep, hstatus, hkind, fun heq => hne heq.symm⟩

/-- A report that revives or refinishes a session does not keep it. -/
theorem not_keepsFinished_next {db : Db} {i : Input} (h : Revives db i ∨ Refinishes db i) :
    ¬KeepsFinished db (next db i) := by
  rw [keepsFinished_next_iff_edit]
  intro hkept
  rcases h with ⟨rep, row, new, hrep, hstatus, hasks, hnew⟩ | ⟨rep, row, hrep, hstatus, hkind, hat⟩
  · have hchange := Plugin.Report.change?_eq_status_iff.mpr ⟨hasks, rfl⟩
    have hsame := (hkept row hrep.mem hstatus).1
    rw [Input.edit_of_change?_eq_some (hrep.change?.trans hchange)] at hsame
    exact hnew (SessionStatus.toText_eq_finished.mp hsame)
  · have hchange := Plugin.Report.change?_eq_finish_iff.mpr ⟨hkind, rfl⟩
    have hsame := (hkept row hrep.mem hstatus).2
    rw [Input.edit_of_change?_eq_some (hrep.change?.trans hchange)] at hsame
    exact hat hsame.symm

/-- **A request keeps the finished sessions exactly when it is no report that revives
or refinishes one.** -/
theorem keepsFinished_next_iff (db : Db) (i : Input) :
    KeepsFinished db (next db i) ↔ ¬(Revives db i ∨ Refinishes db i) := by
  refine ⟨fun hkept h => not_keepsFinished_next h hkept, fun h => ?_⟩
  rw [not_or] at h
  refine keepsFinished_next_iff_edit.mpr fun row hrow hstatus => ?_
  exact Input.edit_rule (P := fun r => r.status = "finished" ∧ r.finishedAt = row.finishedAt)
    ⟨hstatus, rfl⟩ fun c hc => (Input.cause_of_change? hrow hc).keeps_finished hstatus h.1 h.2

/-- **A run keeps every finished session as it finished, from any state of it to any
later one, exactly when none of its requests revives or refinishes a session.** -/
theorem finished_kept_iff (l : List Input) :
    (∀ l₁ l₂ l₃, l = l₁ ++ l₂ ++ l₃ →
      KeepsFinished (Machine.run next Db.fresh l₁) (Machine.run next Db.fresh (l₁ ++ l₂))) ↔
      Machine.Along next (fun db i => ¬(Revives db i ∨ Refinishes db i)) Db.fresh l :=
  (Machine.along_iff_forall_between KeepsFinished.refl (fun _ _ _ => KeepsFinished.trans)
    keepsFinished_next_iff l Db.fresh).symm

/-- A session is discovered, and finishes. -/
def finishingRun : List Input :=
  let id := Uuid.ofTimeLow 1
  [⟨.discover "opencode" "main" "%1" "/home/u/proj", .noon id 2026⟩,
   ⟨.report "opencode" id "session.finished" .null, .noon id 2026⟩]

/-- Its owner then reports it idle. -/
def reviving : Input :=
  ⟨.reportStatus "opencode" (.ofTimeLow 1) "idle", .noon (.ofTimeLow 2) 2026⟩

set_option maxRecDepth 2000 in
/-- A finished session does not stay finished whatever is asked for: its owner revives it. -/
theorem finished_not_kept :
    ¬∀ (l : List Input) (i : Input),
      KeepsFinished (Machine.run next Db.fresh l) (next (Machine.run next Db.fresh l) i) := by
  intro h
  have hbefore : ∃ row ∈ (Machine.run next Db.fresh finishingRun).sessions.rows,
      row.status = "finished" := by decide
  have hafter : ∀ row ∈ (next (Machine.run next Db.fresh finishingRun) reviving).sessions.rows,
      row.status ≠ "finished" := by decide
  obtain ⟨row, hrow, hstatus⟩ := hbefore
  obtain ⟨row', hrow', -, hstatus', -⟩ := h finishingRun reviving row hrow hstatus
  exact hafter row' hrow' hstatus'

/-! ### Finished at

The status and the time of the end are written together by `mark_finished`, and the status alone by
`update_status`. So the two go apart when a report of a status is what takes a session into or out
of `finished`. -/

/-- The finished sessions are those with a `finished_at`. -/
def FinishedAtSet (db : Db) : Prop :=
  ∀ row ∈ db.sessions.rows, row.status = "finished" ↔ row.finishedAt.isSome

/-- The owner of a session reports a status that takes it into or out of `finished`. -/
def FlipsFinished (db : Db) (i : Input) : Prop :=
  ∃ rep row new, OwnerReport db i rep row ∧ rep.AsksStatus new ∧
    ¬(row.status = "finished" ↔ new = .finished)

/-- The edit of a row whose status and `finished_at` agree makes them disagree only by
a report that flips the status. -/
theorem finishedAtSet_edit {db : Db} {i : Input} (hflip : ¬FlipsFinished db i) {row : SessionRow}
    (hrow : row ∈ db.sessions.rows) (h : row.status = "finished" ↔ row.finishedAt.isSome) :
    (i.edit row).status = "finished" ↔ (i.edit row).finishedAt.isSome := by
  refine Input.edit_rule (P := fun r => r.status = "finished" ↔ r.finishedAt.isSome) h
    fun c hc => ?_
  cases Input.cause_of_change? hrow hc with
  | rename _ => exact h
  | dismiss hdismiss =>
    -- in error before and idle after, so finished neither time
    obtain ⟨-, -, s, -, -, -, hs, herrored⟩ := hdismiss
    have hlive : row.status ≠ "finished" := by
      intro hstatus
      rw [status_of_finished hs hstatus] at herrored
      cases herrored
    have hidle : SessionStatus.idle.toText ≠ "finished" := by decide
    exact iff_of_false hidle fun hat => hlive (h.mpr hat)
  | kill _ => exact iff_of_true rfl rfl
  | @report rep _ hrep hchange =>
    cases c with
    | rename name => exact h
    | status new at_ =>
      obtain ⟨hasks, -⟩ := Plugin.Report.change?_eq_status_iff.mp hchange
      have hsame : row.status = "finished" ↔ new = .finished := by
        by_contra hne
        exact hflip ⟨rep, row, new, hrep, hasks, hne⟩
      exact SessionStatus.toText_eq_finished.trans (hsame.symm.trans h)
    | task text at_ => exact h
    | usage used total cost at_ => exact h
    | finish at_ => exact iff_of_true rfl rfl

/-- **From a state where `finished_at` is right, a request keeps it right exactly when
it does not flip the status of a session into or out of `finished`.** -/
theorem finishedAtSet_next_iff (db : Db) (i : Input) (h : FinishedAtSet db) :
    FinishedAtSet (next db i) ↔ ¬FlipsFinished db i := by
  have hnew (s : Session) (row : SessionRow) (hs : i.newSession? = some s)
      (hrow : sessionToRow s = .ok row) : row.status = "finished" ↔ row.finishedAt.isSome := by
    have henc := sessionToRow_eq_ok hrow
    have hfresh := isNew_of_newSession? hs
    rw [henc.status, henc.finishedAt, hfresh.status, hfresh.finishedAt]
    decide
  unfold FinishedAtSet
  rw [forall_next_rows hnew]
  constructor
  · rintro hedit ⟨rep, row, new, hrep, hasks, hne⟩
    have hchange := Plugin.Report.change?_eq_status_iff.mpr ⟨hasks, rfl⟩
    have hrow := hedit row hrep.mem
    rw [Input.edit_of_change?_eq_some (hrep.change?.trans hchange)] at hrow
    -- the status changes and `finished_at` does not
    have hnow : new = .finished ↔ row.finishedAt.isSome := by
      rw [← SessionStatus.toText_eq_finished]
      exact hrow
    exact hne ((h row hrep.mem).trans hnow.symm)
  · exact fun hflip row hrow => finishedAtSet_edit hflip hrow (h row hrow)

/-- **In every state of a run the finished sessions are those with a `finished_at`,
exactly when none of its requests flips a session into or out of `finished`.** -/
theorem finishedAt_set_iff (l : List Input) :
    Machine.Throughout next FinishedAtSet Db.fresh l ↔
      Machine.Along next (fun db i => ¬FlipsFinished db i) Db.fresh l :=
  Machine.throughout_iff_along finishedAtSet_next_iff l Db.fresh
    fun _ hrow => absurd hrow List.not_mem_nil

/-- A session whose owner reports the status `finished`. -/
def flippingRun : List Input :=
  let id := Uuid.ofTimeLow 1
  let amb := Ambient.noon id 2026
  [⟨.discover "opencode" "main" "%1" "/home/u/proj", amb⟩,
   ⟨.reportStatus "opencode" id "finished", amb⟩]

set_option maxRecDepth 2000 in
/-- A session can be finished and have no `finished_at`. -/
theorem finishedAt_not_set : ¬∀ db, Reachable db → FinishedAtSet db := by
  intro h
  have hrun : ∃ row ∈ (Machine.run next Db.fresh flippingRun).sessions.rows,
      row.status = "finished" ∧ row.finishedAt = none := by decide
  obtain ⟨row, hrow, hstatus, hat⟩ := hrun
  have hset := (h _ (Machine.reachable_run Db.fresh flippingRun) row hrow).mp hstatus
  rw [hat] at hset
  cases hset

end Agentd
