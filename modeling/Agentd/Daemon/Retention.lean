import Agentd.Daemon.Boot
import Agentd.Foundations.TextOrder
import Agentd.Runs.EventLog
import Agentd.Runs.Finished
import Agentd.Runs.Owners
import Agentd.Sdk.Client

/-!
# How long a finished session is kept

`tombstone_gc` deletes a finished session when its `finished_at` is less, as text, than the
time thirty days before the boot. What a plugin writes there through the SDK is the first of
January of the year, so that all of the year's sessions are thirty days old when February begins.

`Agentd.retained_iff` says that a session finished at some time is kept by a boot in the thirty days
after exactly when that boot is in January of the same year (`Agentd.Spared`). After the year 9999
no session finishes by a report: the log of the daemon refuses it, as SQLite does not write the
time.

The events of the session go with it, by the cascade of the schema, and no report on it is made in
the meantime. What is left to see is that no other request touches the row or its events, which is a
matter of the footprints of the handlers, and that a boot deletes by its cutoff alone.
-/

namespace Agentd

open Json Numeral Rfc3339
open AgentdClient (yearOf stampOf)
open Plugin (Report)

/-! ### The cutoff

It is computed by SQLite from the clock, thirty days back, and compared up to its date with the date
of the stamp. The stamp is the first of January, so the comparison is one of years and of months. -/

/-- An instant as SQLite writes it, without a fraction. -/
def sqliteText (t : DateTime) : List Char :=
  yearText t.date.year ++ '-' :: (numeral 10 2 t.date.month ++ '-' :: (numeral 10 2 t.date.day ++
    ' ' :: (numeral 10 2 t.hour ++ ':' :: (numeral 10 2 t.minute ++ ':' ::
      numeral 10 2 t.second))))

/-- `datetime('now')`, which is `NULL` after the year 9999. -/
def datetimeNow (now : ℕ) : Option String :=
  if yearOf now ≤ 9999 then some (String.ofList (sqliteText (.ofNanos now))) else none

theorem isSome_datetimeNow {now : ℕ} : (datetimeNow now).isSome ↔ yearOf now ≤ 9999 := by
  unfold datetimeNow
  split_ifs with h
  · exact iff_of_true rfl h
  · exact iff_of_false (by simp) h

/-- Thirty days before. -/
def thirtyDaysBefore (now : ℕ) : DateTime :=
  .ofNanos (now - 30 * DateTime.nanosPerDay)

/-- `datetime('now', '-30 days')`. After the year 9999 it is `NULL`, which nothing is less than,
nor than the empty text. -/
def cutoff (now : ℕ) : String :=
  if (thirtyDaysBefore now).date.year ≤ 9999 then
    String.ofList (sqliteText (thirtyDaysBefore now))
  else ""

/-- **In years of four digits `finished_at` is less than a cutoff when its day is**: what comes
after the date is a letter here and a blank there, whatever the times. -/
theorem lt_sqliteText_iff {s t : DateTime} (hs : s.FourDigitYear) (ht : t.FourDigitYear) :
    toRfc3339 s < String.ofList (sqliteText t) ↔ s.date.toDays < t.date.toDays := by
  have hblank : ¬ 'T' < ' ' := by decide
  have hsep : 'T' ≠ ' ' := by decide
  rw [String.lt_iff, toRfc3339, String.toList_ofList, String.toList_ofList, isoText_eq, sqliteText,
    date_append_lt_iff hs ht, List.cons_lt_cons_iff]
  simp only [hblank, hsep, false_and, and_false, or_false]

/-- The fields of the day of a clock. -/
def dayOf (now : ℕ) : Date :=
  (DateTime.ofNanos now).date

/-- **A boot spares a session finished before**: it is in January of the same year. -/
def Spared (finished boot : ℕ) : Prop :=
  (dayOf boot).year = yearOf finished ∧ (dayOf boot).month = 1

theorem toDays_dayOf (now : ℕ) : (dayOf now).toDays = now / DateTime.nanosPerDay :=
  DateTime.toDays_ofNanos now

theorem toDays_thirtyDaysBefore (now : ℕ) :
    (thirtyDaysBefore now).date.toDays = (dayOf now).toDays - 30 := by
  rw [thirtyDaysBefore, DateTime.toDays_ofNanos, toDays_dayOf, DateTime.nanosPerDay]
  omega

theorem year_nonneg_thirtyDaysBefore (now : ℕ) : 0 ≤ (thirtyDaysBefore now).date.year := by
  have hstart : (DateTime.newYear 0).date.toDays ≤ (thirtyDaysBefore now).date.toDays := by
    have hzero : (DateTime.newYear 0).date.toDays = -719528 := rfl
    rw [toDays_thirtyDaysBefore, toDays_dayOf, hzero, DateTime.nanosPerDay]
    omega
  exact Date.year_le_of_toDays_le hstart

/-- **When a boot spares a session**, in days. -/
theorem spared_iff {finished boot : ℕ} :
    Spared finished boot ↔ Date.yearStart (yearOf finished) ≤ boot / DateTime.nanosPerDay ∧
      boot / DateTime.nanosPerDay < Date.yearStart (yearOf finished) + 31 := by
  rw [Spared, Date.january_iff, toDays_dayOf]

/-- The boot is in the thirty days after. -/
structure Window (finished boot : ℕ) : Prop where
  le : finished ≤ boot
  lt : boot < finished + 30 * DateTime.nanosPerDay

/-- The cutoff is before the session finished. -/
theorem Window.year_le {finished boot : ℕ} (h : Window finished boot) :
    (thirtyDaysBefore boot).date.year ≤ yearOf finished := by
  have hlt := h.lt
  refine Date.year_le_of_toDays_le ?_
  rw [toDays_thirtyDaysBefore, toDays_dayOf, DateTime.toDays_ofNanos]
  rw [DateTime.nanosPerDay] at hlt ⊢
  omega

/-- **In the thirty days after a session finished, its `finished_at` is less than the cutoff
except in January.** -/
theorem lt_cutoff_iff {finished boot : ℕ} (hyear : yearOf finished ≤ 9999)
    (h : Window finished boot) :
    toRfc3339 (stampOf finished) < cutoff boot ↔ ¬Spared finished boot := by
  have hnonneg := year_nonneg_thirtyDaysBefore boot
  -- four digits, and the boot is after the beginning of the year
  have hfirst := AgentdClient.le_yearOf finished
  have hle : (dayOf finished).toDays ≤ (dayOf boot).toDays := by
    rw [toDays_dayOf, toDays_dayOf]
    exact Int.ediv_le_ediv (by decide) (Int.ofNat_le.mpr h.le)
  have hstart := (dayOf finished).yearStart_le
  have hcut : (thirtyDaysBefore boot).date.year ≤ 9999 := h.year_le.trans hyear
  rw [Spared, stampOf, cutoff, if_pos hyear, if_pos hcut,
    lt_sqliteText_iff (AgentdClient.fourDigitYear_newYear hyear) ⟨hnonneg, hcut⟩,
    DateTime.toDays_newYear, toDays_thirtyDaysBefore, Date.january_iff]
  change Date.yearStart (yearOf finished) ≤ _ at hstart
  omega

/-! ### A finished session through requests and boots

Between its end and a boot nobody reports on the session, and all other requests leave a finished
row as it is: a kill and a dismissal refuse it, and a rename changes its name only. -/

/-- A report on the session, by whoever it is. -/
def Input.ReportsOn (i : Input) (id : Uuid) : Prop :=
  ∃ name params rep, i.request = .plugin name Method.sessionReportEvent params ∧
    Report.ofParams params i.amb.rowNow = some rep ∧ rep.id = id

namespace Retention

/-- What can happen after the session finished. -/
inductive Action
  | request (i : Input)
  /-- The daemon boots, at so many nanoseconds after the epoch. -/
  | boot (now : ℕ)

/-- One step. Of the boot this is `tombstone_gc`. -/
def step (db : Db) : Action → Db
  | .request i => next db i
  | .boot now => db.tombstoneGc (cutoff now)

/-- What may follow: no report on the session, and boots in the thirty days after it
finished. -/
def Allowed (id : Uuid) (finished : ℕ) : Action → Prop
  | .request i => ¬i.ReportsOn id
  | .boot now => Window finished now

/-- The session is there, and the events it had. -/
def Retained (id : Uuid) (log : List EventRow) (db : Db) : Prop :=
  (∃ row ∈ db.sessions.rows, row.id = id.toText) ∧ ∀ e ∈ log, e ∈ db.sessionEvents

/-- The report of the SDK that a session finished, at the time it came to the daemon. -/
def finishReport (plugin : String) (id : Uuid) (payload : Value) (amb : Ambient) (now : ℕ) :
    Input :=
  ⟨.plugin plugin Method.sessionReportEvent
    (AgentdClient.reportEvent id "session.finished" payload now),
    { amb with rowNow := .ofNanos now, sqlNow := datetimeNow now }⟩

/-- The events of a session. -/
def eventsOf (db : Db) (id : Uuid) : List EventRow :=
  db.sessionEvents.filter fun e => e.sessionId = id.toText

/-- The session is finished since the time stamped on it, and its events are there. -/
structure Standing (id : Uuid) (stamp : String) (log : List EventRow) (db : Db) : Prop where
  row : ∃ row ∈ db.sessions.rows, row.id = id.toText ∧ row.status = "finished" ∧
    row.finishedAt = some stamp
  log : ∀ e ∈ log, e ∈ db.sessionEvents

variable {id : Uuid} {stamp : String} {log : List EventRow} {db : Db}

theorem Standing.retained (h : Standing id stamp log db) : Retained id log db := by
  obtain ⟨row, hrow, hid, -⟩ := h.row
  exact ⟨⟨row, hrow, hid⟩, h.log⟩

/-- Only a report changes how a session finished. -/
theorem edit_finished {i : Input} {row : SessionRow} (hi : ¬i.ReportsOn id)
    (hrow : row ∈ db.sessions.rows) (hid : row.id = id.toText) (hstatus : row.status = "finished") :
    (i.edit row).status = "finished" ∧ (i.edit row).finishedAt = row.finishedAt := by
  refine Input.edit_rule (P := fun r => r.status = "finished" ∧ r.finishedAt = row.finishedAt)
    ⟨hstatus, rfl⟩ fun c hc => ?_
  refine (Input.cause_of_change? hrow hc).keeps_finished_of hstatus fun rep hrep _ => ?_
  obtain ⟨name, params, hreq, hparams, hfound, -⟩ := hrep
  have htext : rep.id.toText = id.toText :=
    (KeyedTable.find?_eq_some.mp hfound).2.symm.trans hid
  exact absurd ⟨name, params, rep, hreq, hparams, Uuid.toText_inj.mp htext⟩ hi

theorem standing_next (h : Standing id stamp log db) {i : Input} (hi : ¬i.ReportsOn id) :
    Standing id stamp log (next db i) := by
  obtain ⟨row, hrow, hid, hstatus, hat⟩ := h.row
  obtain ⟨hstatus', hat'⟩ := edit_finished hi hrow hid hstatus
  refine ⟨⟨i.edit row, edit_mem_next hrow i, (i.edit_id row).trans hid, hstatus',
    hat'.trans hat⟩, fun e he => ?_⟩
  exact (sessionEvents_prefix_next db i).subset (h.log e he)

/-- What is left in the table after `tombstone_gc`. -/
theorem mem_tombstoneGc {cutoff : String} {row : SessionRow} :
    row ∈ (db.tombstoneGc cutoff).sessions.rows ↔ row ∈ db.sessions.rows ∧
      ¬(row.status = "finished" ∧ ∃ at_, row.finishedAt = some at_ ∧ at_ < cutoff) := by
  change row ∈ db.sessions.rows.filter _ ↔ _
  rw [List.mem_filter]
  refine and_congr_right fun _ => ?_
  cases row.finishedAt with
  | none => simp
  | some at_ => simp [imp_iff_not_or]

theorem standing_tombstoneGc (h : Standing id stamp log db)
    (hlog : ∀ e ∈ log, e.sessionId = id.toText) {cutoff : String} (hcutoff : ¬stamp < cutoff) :
    Standing id stamp log (db.tombstoneGc cutoff) := by
  obtain ⟨row, hrow, hid, hstatus, hat⟩ := h.row
  have hkept : row ∈ (db.tombstoneGc cutoff).sessions.rows := by
    refine mem_tombstoneGc.mpr ⟨hrow, ?_⟩
    rintro ⟨-, at_, hat', hlt⟩
    rw [hat, Option.some_inj] at hat'
    exact hcutoff (hat' ▸ hlt)
  refine ⟨⟨row, hkept, hid, hstatus, hat⟩, fun e he => ?_⟩
  refine List.mem_filter.mpr ⟨h.log e he, decide_eq_true ?_⟩
  rw [hlog e he, ← hid]
  exact List.mem_map_of_mem hkept

theorem not_retained_tombstoneGc (h : Standing id stamp log db) {cutoff : String}
    (hcutoff : stamp < cutoff) : ¬Retained id log (db.tombstoneGc cutoff) := by
  rintro ⟨⟨row', hrow', hid'⟩, -⟩
  obtain ⟨row, hrow, hid, hstatus, hat⟩ := h.row
  obtain ⟨hmem, hspared⟩ := mem_tombstoneGc.mp hrow'
  obtain rfl := db.sessions.eq_of_key_eq hmem hrow (hid'.trans hid.symm)
  exact hspared ⟨hstatus, stamp, hat, hcutoff⟩

/-- **A session is kept as long as every boot spares it.** -/
theorem throughout_retained_iff {finished : ℕ} (hyear : yearOf finished ≤ 9999)
    (hlog : ∀ e ∈ log, e.sessionId = id.toText) (l : List Action) :
    ∀ {db : Db}, Standing id (toRfc3339 (stampOf finished)) log db →
      (∀ a ∈ l, Allowed id finished a) →
      (Machine.Throughout step (Retained id log) db l ↔
        ∀ now, .boot now ∈ l → Spared finished now) := by
  induction l with
  | nil => exact fun h _ => iff_of_true h.retained fun now hnow => absurd hnow List.not_mem_nil
  | cons a l ih =>
    intro db h hl
    rw [List.forall_mem_cons] at hl
    cases a with
    | request i =>
      have hnext := ih (standing_next h hl.1) hl.2
      rw [Machine.Throughout, and_iff_right h.retained]
      refine hnext.trans (forall_congr' fun now => ?_)
      rw [List.mem_cons, or_iff_right (by exact Action.noConfusion)]
    | boot now =>
      by_cases hspared : Spared finished now
      · have hcutoff : ¬toRfc3339 (stampOf finished) < cutoff now :=
          fun hlt => (lt_cutoff_iff hyear hl.1).mp hlt hspared
        have hnext := ih (standing_tombstoneGc h hlog hcutoff) hl.2
        rw [Machine.Throughout, and_iff_right h.retained]
        refine hnext.trans ⟨fun hrest later hlater => ?_, fun hall later hlater =>
          hall later (List.mem_cons_of_mem _ hlater)⟩
        rcases List.mem_cons.mp hlater with heq | hmem
        · exact Action.boot.inj heq ▸ hspared
        · exact hrest later hmem
      · refine iff_of_false (fun hkept => ?_) fun hall =>
          hspared (hall now List.mem_cons_self)
        exact not_retained_tombstoneGc h ((lt_cutoff_iff hyear hl.1).mpr hspared) hkept.2.head

/-- A report that is accepted, and needs the owner, is one of the owner. -/
theorem exists_ownerReport {i : Input} {name : String} {params : Value} {rep : Report}
    (hreq : i.request = .plugin name Method.sessionReportEvent params)
    (hrep : Report.ofParams params i.amb.rowNow = some rep) (hmutating : rep.Mutating)
    (hok : ¬(handle db i).IsError) : ∃ row, OwnerReport db i rep row := by
  have hhandle : handle db i = Plugin.sessionReportEvent params db name i.amb := by
    rw [handle, hreq]
    rfl
  rw [hhandle, Plugin.sessionReportEvent] at hok
  simp only [hrep] at hok
  split at hok
  · exact absurd (isError_of_reply rfl) hok
  · exact absurd (isError_of_reply rfl) hok
  · next s hget =>
    split_ifs at hok with hforeign
    · exact absurd (isError_of_reply rfl) hok
    · obtain ⟨row, hrow, hs⟩ := getSession_eq_some.mp hget
      cases hnow : i.amb.sqlNow with
      | none =>
        simp only [hnow, insertEvent_none hrow] at hok
        exact absurd (isError_of_reply rfl) hok
      | some now =>
        exact ⟨row, name, params, hreq, hrep, hrow, s, hs,
          by_contra fun howner => hforeign ⟨hmutating, howner⟩, by rw [hnow]; rfl⟩

/-- The owner's report that a session finished is accepted. -/
theorem accepted_finish {plugin : String} (payload : Value) (amb : Ambient) {finished : ℕ}
    (hyear : yearOf finished ≤ 9999)
    (h : (db.getSession id).toOption.join.bind Session.owner = some plugin) :
    ¬(handle db (finishReport plugin id payload amb finished)).IsError := by
  obtain ⟨s, hs, howner⟩ := Option.bind_eq_some_iff.mp h
  obtain ⟨row, hrow, hsession⟩ := getSession_eq_some.mp
    (Except.toOption_eq_some.mp (Option.join_eq_some_iff.mp hs))
  have hrep := AgentdClient.ofParams_reportEvent id "session.finished" payload finished
  have hkind : ∀ kind, kind ≠ "session.finished" → ∀ P : Prop,
      ¬("session.finished" = kind ∧ P) := fun _ hne _ hc => hne hc.1.symm
  exact accepted_of_owner ((owner_of_rowToSession hsession).symm.trans howner) hrep hrow
    (exists_rowToSession_iff.mp ⟨s, hsession⟩) (isSome_datetimeNow.mpr hyear)
    (hkind _ (by decide) _) (hkind _ (by decide) _)

/-- A report is accepted in years of four digits only. -/
theorem yearOf_le_of_accepted {plugin : String} {payload : Value} {amb : Ambient} {finished : ℕ}
    (hok : ¬(handle db (finishReport plugin id payload amb finished)).IsError) :
    yearOf finished ≤ 9999 := by
  have hrep := AgentdClient.ofParams_reportEvent id "session.finished" payload finished
  obtain ⟨row, hreport⟩ := exists_ownerReport (i := finishReport plugin id payload amb finished)
    rfl hrep (Or.inr (Or.inr (Or.inr rfl))) hok
  obtain ⟨-, -, -, -, -, -, -, -, hclock⟩ := hreport
  exact isSome_datetimeNow.mp hclock

theorem standing_finish {plugin : String} {payload : Value} {amb : Ambient} {finished : ℕ}
    (hok : ¬(handle db (finishReport plugin id payload amb finished)).IsError) :
    Standing id (toRfc3339 (stampOf finished))
      (eventsOf (next db (finishReport plugin id payload amb finished)) id)
      (next db (finishReport plugin id payload amb finished)) := by
  have hrep := AgentdClient.ofParams_reportEvent id "session.finished" payload finished
  obtain ⟨row, hreport⟩ := exists_ownerReport (i := finishReport plugin id payload amb finished)
    rfl hrep (Or.inr (Or.inr (Or.inr rfl))) hok
  have hchange := hreport.change?.trans (Report.change?_eq_finish_iff.mpr ⟨rfl, rfl⟩)
  have hrow := edit_mem_next hreport.mem (finishReport plugin id payload amb finished)
  rw [Input.edit_of_change?_eq_some hchange] at hrow
  refine ⟨⟨_, hrow, ?_, rfl, rfl⟩, fun e he => (List.mem_filter.mp he).1⟩
  exact (Change.apply_id _ _).trans (KeyedTable.find?_eq_some.mp hreport.row?).2

end Retention

/-- **A finished session is kept, with its events, exactly when every boot of the thirty days after
spares it.** Before the report the database is any, and after it come any requests that are no
reports on the session, and boots at any time of the thirty days. The stamp that the SDK writes is
the first of January of the year, which a boot in any other month finds too old. -/
theorem retained_iff (db : Db) (plugin : String) (id : Uuid) (payload : Value) (amb : Ambient)
    (finished : ℕ)
    (hok : ¬(handle db (Retention.finishReport plugin id payload amb finished)).IsError)
    (l : List Retention.Action) (hl : ∀ a ∈ l, Retention.Allowed id finished a) :
    Machine.Throughout Retention.step
      (Retention.Retained id
        (Retention.eventsOf (next db (Retention.finishReport plugin id payload amb finished)) id))
      (next db (Retention.finishReport plugin id payload amb finished)) l ↔
    ∀ now, .boot now ∈ l → Spared finished now := by
  have hyear := Retention.yearOf_le_of_accepted hok
  refine Retention.throughout_retained_iff hyear (fun e he => ?_) l (Retention.standing_finish hok) hl
  exact of_decide_eq_true (List.mem_filter.mp he).2

namespace Retention

/-- A session is discovered. -/
def discovering : List Input :=
  [⟨.discover "opencode" "main" "%1" "/home/u/proj", .noon (.ofTimeLow 1) 2026⟩]

set_option maxRecDepth 2000 in
theorem owner_discovering : ((Machine.run next Db.fresh discovering).getSession
    (.ofTimeLow 1)).toOption.join.bind Session.owner = some "opencode" := by
  decide

/-- At noon of the fifth of January 2026, in nanoseconds. -/
def january : ℕ := 1767614400000000000

theorem yearOf_january : yearOf january = 2026 :=
  (AgentdClient.yearOf_eq_iff _ _).mpr ⟨by decide, by decide⟩

/-- At noon of the tenth of September 2026. -/
def september : ℕ := 1789041600000000000

theorem yearOf_september : yearOf september = 2026 :=
  (AgentdClient.yearOf_eq_iff _ _).mpr ⟨by decide, by decide⟩

end Retention

/-- A session that finishes in January, and a boot ten days later. -/
theorem retained_january :
    Machine.Throughout Retention.step
      (Retention.Retained (.ofTimeLow 1)
        (Retention.eventsOf (next (Machine.run next Db.fresh Retention.discovering)
          (Retention.finishReport "opencode" (.ofTimeLow 1) .null (.noon (.ofTimeLow 2) 2026)
            Retention.january)) (.ofTimeLow 1)))
      (next (Machine.run next Db.fresh Retention.discovering)
        (Retention.finishReport "opencode" (.ofTimeLow 1) .null (.noon (.ofTimeLow 2) 2026)
          Retention.january))
      [.boot (Retention.january + 10 * DateTime.nanosPerDay)] ↔
    ∀ now, .boot now ∈ [Retention.Action.boot (Retention.january + 10 * DateTime.nanosPerDay)] →
      Spared Retention.january now :=
  retained_iff _ "opencode" (.ofTimeLow 1) .null (.noon (.ofTimeLow 2) 2026) Retention.january
    (Retention.accepted_finish _ _ (by rw [Retention.yearOf_january]; decide)
      Retention.owner_discovering) _
    (List.forall_mem_singleton.mpr ⟨by decide, by decide⟩)

/-- A session that finishes in September is deleted by a boot at that very moment. -/
theorem not_retained_september :
    ¬∀ (l : List Input) (plugin : String) (id : Uuid) (payload : Value) (amb : Ambient)
      (finished boot : ℕ),
      ¬(handle (Machine.run next Db.fresh l)
        (Retention.finishReport plugin id payload amb finished)).IsError →
      finished ≤ boot → boot < finished + 30 * DateTime.nanosPerDay →
      Retention.Retained id
        (Retention.eventsOf (next (Machine.run next Db.fresh l)
          (Retention.finishReport plugin id payload amb finished)) id)
        ((next (Machine.run next Db.fresh l)
          (Retention.finishReport plugin id payload amb finished)).tombstoneGc (cutoff boot)) := by
  intro h
  have hyear : yearOf Retention.september ≤ 9999 := by
    rw [Retention.yearOf_september]
    decide
  have hspared : ¬Spared Retention.september Retention.september := by
    rw [spared_iff, Retention.yearOf_september]
    decide
  have hok := Retention.accepted_finish .null (.noon (.ofTimeLow 2) 2026) hyear
    Retention.owner_discovering
  exact Retention.not_retained_tombstoneGc (Retention.standing_finish hok)
    ((lt_cutoff_iff hyear ⟨le_rfl, by decide⟩).mpr hspared)
    (h Retention.discovering "opencode" (.ofTimeLow 1) .null (.noon (.ofTimeLow 2) 2026)
      Retention.september Retention.september hok le_rfl (by decide))

end Agentd
