import Agentd.Daemon.Retention

/-!
# How exact the stamp is

`chrono_now` goes as far as the year and leaves it there, so the stamp is the time in one second of
every year (`Agentd.AgentdClient.exact_iff`). To the daemon two reports of one year were made at one
time, and what it stores is later for the later one only when a new year has begun between them.
`Agentd.AgentdClient.stamp_iff` is both.

The stamp is never later than the time, and never earlier than it by more than a year. Whoever
computes with such times computes with years: the order of two reports, the age of a session, the
order of a list by last activity.
-/

namespace Agentd.AgentdClient

open Json Rfc3339
open Plugin (Report)

/-- The second a clock shows. -/
def second (now : ℕ) : DateTime :=
  .ofNanos (now / 1000000000 * 1000000000 : ℕ)

/-- **The stamp is accepted, and is the second it was made in.** -/
def Exact (now : ℕ) : Prop :=
  parseFromRfc3339 (chronoNow now) = some (second now)

/-- The clock shows the first second of a year of four digits. -/
def BeginsYear (now : ℕ) : Prop :=
  ∃ y : ℤ, y ≤ 9999 ∧ (now / 1000000000 : ℕ) = Date.yearStart y * 86400

theorem newYear_eq_second_iff (y : ℤ) (now : ℕ) :
    DateTime.newYear y = second now ↔ (now / 1000000000 : ℕ) = Date.yearStart y * 86400 := by
  rw [second, ← DateTime.toNanos_inj (DateTime.nano_newYear_lt y) (DateTime.nano_ofNanos_lt _),
    DateTime.toNanos_newYear, DateTime.toNanos_ofNanos, DateTime.nanosPerDay]
  omega

/-- **The stamp is exact in the first second of a year, and in no other.** -/
theorem exact_iff (now : ℕ) : Exact now ↔ BeginsYear now := by
  constructor
  · intro h
    rw [Exact] at h
    by_cases hyear : yearOf now ≤ 9999
    · rw [parse_chronoNow hyear, Option.some_inj, newYear_eq_second_iff] at h
      exact ⟨yearOf now, hyear, h⟩
    · rw [parse_chronoNow_eq_none (not_le.mp hyear)] at h
      cases h
  · rintro ⟨y, hy, hsecond⟩
    have hlong : Date.yearStart y < Date.yearStart (y + 1) := by
      rw [Date.yearStart, Date.yearStart]
      omega
    have hyear : yearOf now = y := by
      rw [yearOf_eq_iff, DateTime.nanosPerDay]
      omega
    rw [Exact, parse_chronoNow (hyear ▸ hy), hyear, Option.some_inj, newYear_eq_second_iff]
    exact hsecond

/-! ### What the daemon stores -/

/-- A report of the SDK, as it comes in. -/
def input (plugin : String) (id : Uuid) (kind : String) (payload : Value) (amb : Ambient)
    (now : ℕ) : Input :=
  ⟨.plugin plugin Method.sessionReportEvent (reportEvent id kind payload now),
    { amb with rowNow := .ofNanos now, sqlNow := datetimeNow now }⟩

/-- The report is the owner's, and changes the row of the session. -/
def Applies (db : Db) (i : Input) (id : Uuid) : Prop :=
  ∃ rep row c, rep.id = id ∧ OwnerReport db i rep row ∧ rep.change? = some c

/-- `last_event_at` of a session, as it is read. -/
def lastEventAt (db : Db) (id : Uuid) : Option DateTime :=
  (db.row? id).bind fun row => row.lastEventAt.bind parseFromRfc3339

/-- **What is stored of a report is its stamp.** -/
theorem lastEventAt_next {db : Db} {plugin : String} {id : Uuid} {kind : String} {payload : Value}
    {amb : Ambient} {now : ℕ} (h : Applies db (input plugin id kind payload amb now) id) :
    lastEventAt (next db (input plugin id kind payload amb now)) id =
      parseFromRfc3339 (toRfc3339 (stampOf now)) := by
  obtain ⟨rep, row, c, hid, hrep, hchange⟩ := h
  have hts : rep.ts = stampOf now := by
    obtain ⟨_, _, hreq, hparams, -⟩ := hrep
    obtain ⟨-, -, rfl⟩ := Request.plugin.inj hreq
    have hsame := (ofParams_reportEvent id kind payload now).symm.trans hparams
    rw [← Option.some.inj hsame]
  have hfound : (next db (input plugin id kind payload amb now)).row? id = some (c.apply row) := by
    have hmem := edit_mem_next hrep.mem (input plugin id kind payload amb now)
    rw [Input.edit_of_change?_eq_some (hrep.change?.trans hchange)] at hmem
    refine KeyedTable.find?_eq_some.mpr ⟨hmem, ?_⟩
    rw [Change.apply_id, ← hid]
    exact (KeyedTable.find?_eq_some.mp hrep.row?).2
  have hstamp : (c.apply row).lastEventAt = some (toRfc3339 rep.ts) := by
    have hc := Plugin.Report.stamp?_of_change? hchange
    cases c with
    | rename name => cases hc
    | status new at_ => rw [← Option.some.inj hc]; rfl
    | task text at_ => rw [← Option.some.inj hc]; rfl
    | usage used total cost at_ => rw [← Option.some.inj hc]; rfl
    | finish at_ => rw [← Option.some.inj hc]; rfl
  rw [lastEventAt, hfound, Option.bind_some, hstamp, Option.bind_some, hts]

/-- The owner's report that the session finished is one of those. -/
theorem applies_finish {db : Db} {plugin : String} {id : Uuid} {payload : Value} {amb : Ambient}
    {now : ℕ} (hyear : yearOf now ≤ 9999)
    (h : (db.getSession id).toOption.join.bind Session.owner = some plugin) :
    Applies db (input plugin id "session.finished" payload amb now) id := by
  have hok := Retention.accepted_finish payload amb hyear h
  have hparams := ofParams_reportEvent id "session.finished" payload now
  obtain ⟨row, hrep⟩ := Retention.exists_ownerReport
    (i := input plugin id "session.finished" payload amb now) rfl hparams
    (Or.inr (Or.inr (Or.inr rfl))) hok
  exact ⟨_, row, _, rfl, hrep, Report.change?_eq_finish_iff.mpr ⟨rfl, rfl⟩⟩

/-- The stamp that is stored can be read in years of four digits. -/
theorem parse_stampOf (now : ℕ) : parseFromRfc3339 (toRfc3339 (stampOf now)) =
    if yearOf now ≤ 9999 then some (.newYear (yearOf now)) else none := by
  rw [stampOf]
  split_ifs with h
  · exact parseFromRfc3339_toRfc3339 (fourDigitYear_newYear h)
  · exact parseFromRfc3339_toRfc3339_eq_none fun hfour => h hfour.2

theorem newYear_before_iff (y z : ℤ) : (DateTime.newYear y).Before (.newYear z) ↔ y < z := by
  have hstart : Date.yearStart y < Date.yearStart z ↔ y < z := by
    rw [Date.yearStart, Date.yearStart]
    omega
  rw [DateTime.before_iff_toNanos (DateTime.nano_newYear_lt y) (DateTime.nano_newYear_lt z),
    DateTime.toNanos_newYear, DateTime.toNanos_newYear, ← hstart, DateTime.nanosPerDay]
  omega

/-- **The stamp of the SDK is exact in the first second of a year only, and of two reports the
daemon stores the later as later only when it was made in a later year**, and years have
four digits. -/
theorem stamp_iff (now : ℕ) :
    (Exact now ↔ BeginsYear now) ∧
    ∀ (db db' : Db) (plugin plugin' : String) (id id' : Uuid) (kind kind' : String)
      (payload payload' : Value) (amb amb' : Ambient) (now' : ℕ),
      Applies db (input plugin id kind payload amb now) id →
      Applies db' (input plugin' id' kind' payload' amb' now') id' →
      now / 1000000000 < now' / 1000000000 →
      ((∃ t t', lastEventAt (next db (input plugin id kind payload amb now)) id = some t ∧
          lastEventAt (next db' (input plugin' id' kind' payload' amb' now')) id' = some t' ∧
          t.Before t') ↔
        yearOf now < yearOf now' ∧ yearOf now' ≤ 9999) := by
  refine ⟨exact_iff now, ?_⟩
  intro db db' plugin plugin' id id' kind kind' payload payload' amb amb' now' h h' _
  rw [lastEventAt_next h, lastEventAt_next h', parse_stampOf, parse_stampOf]
  split_ifs with hyear hyear' hyear'
  · constructor
    · rintro ⟨t, t', ht, ht', hbefore⟩
      rw [← Option.some.inj ht, ← Option.some.inj ht', newYear_before_iff] at hbefore
      exact ⟨hbefore, hyear'⟩
    · rintro ⟨hlt, -⟩
      exact ⟨_, _, rfl, rfl, (newYear_before_iff _ _).mpr hlt⟩
  · refine iff_of_false ?_ fun h => hyear' h.2
    rintro ⟨_, _, -, ⟨⟩, -⟩
  · refine iff_of_false ?_ (by omega)
    rintro ⟨_, _, ⟨⟩, -⟩
  · refine iff_of_false ?_ (by omega)
    rintro ⟨_, _, ⟨⟩, -⟩

theorem yearOf_epoch : yearOf 0 = 1970 :=
  (yearOf_eq_iff _ _).mpr ⟨by decide, by decide⟩

/-- The epoch, and a report in January 2026 after one then. -/
theorem stamp_epoch :
    (Exact 0 ↔ BeginsYear 0) ∧
    ((∃ t t',
        lastEventAt (next (Machine.run next Db.fresh Retention.discovering)
          (input "opencode" (.ofTimeLow 1) "session.finished" .null (.noon (.ofTimeLow 2) 2026) 0))
          (.ofTimeLow 1) = some t ∧
        lastEventAt (next (Machine.run next Db.fresh Retention.discovering)
          (input "opencode" (.ofTimeLow 1) "session.finished" .null (.noon (.ofTimeLow 2) 2026)
            Retention.january)) (.ofTimeLow 1) = some t' ∧
        t.Before t') ↔
      yearOf 0 < yearOf Retention.january ∧ yearOf Retention.january ≤ 9999) :=
  ⟨(stamp_iff 0).1, (stamp_iff 0).2 _ _ _ _ _ _ _ _ _ _ _ _ _
    (applies_finish (by rw [yearOf_epoch]; decide) Retention.owner_discovering)
    (applies_finish (by rw [Retention.yearOf_january]; decide) Retention.owner_discovering)
    (by decide)⟩

/-- A day after the epoch the stamp is the epoch. -/
theorem not_exact_secondDay : ¬∀ now, Exact now := by
  intro h
  have hyear : yearOf 86400000000000 = 1970 := (yearOf_eq_iff _ _).mpr ⟨by decide, by decide⟩
  have hexact := h 86400000000000
  rw [Exact, parse_chronoNow (by rw [hyear]; decide), hyear, Option.some_inj,
    newYear_eq_second_iff] at hexact
  exact absurd hexact (by decide)

end Agentd.AgentdClient
