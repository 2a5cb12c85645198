import Agentd.Foundations.Calendar
import Agentd.Handlers.Step

/-!
# The time stamp of the plugin SDK

`AgentdClient::report_event` sends a `ts` that it makes itself, without a calendar library:
`chrono_now` counts the years since 1970 and writes the first of January of the year it is
in, whatever the day is (`Agentd.AgentdClient.chronoNow_eq`). The daemon reads that as the
beginning of the year, and takes it for the time of the report
(`Agentd.AgentdClient.ofParams_reportEvent`). Only when the year has more than four
digits can it not be read, and the daemon looks at its own clock.
-/

namespace Agentd.AgentdClient

open Json Numeral Rfc3339
open Plugin (Report)

/-- The days of a year in the loop of `chrono_now`. -/
def yearDays (y : ℕ) : ℕ :=
  let leap := (y % 4 == 0 && y % 100 != 0) || y % 400 == 0
  if leap then 366 else 365

/-- A year has days. -/
theorem yearDays_pos (y : ℕ) : 0 < yearDays y := by
  unfold yearDays
  dsimp only
  split <;> omega

/-- The loop of `chrono_now`. -/
def countYears (y d : ℕ) : ℕ :=
  if d < yearDays y then y else countYears (y + 1) (d - yearDays y)
termination_by d
decreasing_by
  have := yearDays_pos y
  omega

/-- `chrono_now`, on a clock that shows so many nanoseconds since the epoch. -/
def chronoNow (now : ℕ) : String :=
  let secs := now / 1000000000
  let days := secs / 86400
  String.ofList (padded 10 1 (countYears 1970 days) ++ "-01-01T00:00:00Z".toList)

/-- The parameters that `report_event` sends. -/
def reportEvent (sessionId : Uuid) (kind : String) (payload : Value) (now : ℕ) : Value :=
  .object [("payload", payload), ("session_id", .string sessionId.toText),
    ("ts", .string (chronoNow now)), ("type", .string kind)]

/-- It has as many as the calendar gives it. -/
theorem yearDays_eq (y : ℕ) : (yearDays y : ℤ) = Date.yearStart (y + 1) - Date.yearStart y := by
  have hleap : ((y % 4 == 0 && y % 100 != 0) || y % 400 == 0) = isLeap y := by
    rw [Bool.eq_iff_iff]
    simp only [isLeap, Bool.or_eq_true, Bool.and_eq_true, beq_iff_eq, bne_iff_ne]
    omega
  rw [Date.yearStart_succ, Date.monthStart_thirteen, yearDays, hleap]
  omega

/-- The loop ends in the year of the day. -/
theorem countYears_eq (t : Date) (y d : ℕ) (h : t.toDays = Date.yearStart y + d) :
    (countYears y d : ℤ) = t.year := by
  induction y, d using countYears.induct with
  | case1 y d hlt =>
    rw [countYears, if_pos hlt]
    refine ((t.year_eq_iff y).mpr ?_).symm
    have hdays := yearDays_eq y
    omega
  | case2 y d hge ih =>
    rw [countYears, if_neg hge]
    refine ih ?_
    have hdays := yearDays_eq y
    push_cast
    omega

/-- The year a clock is in. -/
def yearOf (now : ℕ) : ℤ :=
  (DateTime.ofNanos now).date.year

/-- **The loop that takes off one year after the other ends at the year of the time.** -/
theorem countYears_now (now : ℕ) :
    (countYears 1970 (now / 1000000000 / 86400) : ℤ) = yearOf now := by
  refine countYears_eq _ _ _ ?_
  have hepoch : Date.yearStart (1970 : ℕ) = 0 := rfl
  rw [DateTime.toDays_ofNanos, hepoch, DateTime.nanosPerDay]
  omega

/-- The year of a clock, from its days. -/
theorem yearOf_eq_iff (now : ℕ) (y : ℤ) : yearOf now = y ↔
    Date.yearStart y ≤ now / DateTime.nanosPerDay ∧
      now / DateTime.nanosPerDay < Date.yearStart (y + 1) := by
  rw [← DateTime.toDays_ofNanos]
  exact (DateTime.ofNanos now).date.year_eq_iff y

/-- Time begins in 1970. -/
theorem le_yearOf (now : ℕ) : 1970 ≤ yearOf now := by
  have hepoch : Date.epoch.toDays = 0 := rfl
  refine Date.year_le_of_toDays_le (t := Date.epoch) ?_
  rw [hepoch, DateTime.toDays_ofNanos]
  exact Int.ediv_nonneg (Int.natCast_nonneg now) (Int.natCast_nonneg _)

/-- What follows the year in a stamp is the first of January at midnight. -/
theorem suffix_eq : "-01-01T00:00:00Z".toList = '-' :: (numeral 10 2 1 ++ '-' :: (numeral 10 2 1 ++
    'T' :: (numeral 10 2 0 ++ ':' :: (numeral 10 2 0 ++ ':' :: (numeral 10 2 0 ++ ['Z']))))) := by
  decide

/-- **The stamp is the beginning of the year**, where that has four digits. -/
theorem chronoNow_eq {now : ℕ} (h : yearOf now ≤ 9999) :
    chronoNow now = toJsonText (.newYear (yearOf now)) := by
  have hlow := le_yearOf now
  have hyear := countYears_now now
  rw [chronoNow, toJsonText]
  generalize countYears 1970 (now / 1000000000 / 86400) = y at hyear
  have htext : yearText (yearOf now) = padded 10 1 y := by
    rw [yearText, if_pos (by omega), ← hyear, Int.toNat_natCast,
      padded_eq (k := 3) (by omega) (by omega) (by omega)]
  rw [isoText_newYear, suffix_eq, htext]

/-- Until the year 9999 the beginning of a year shows four digits. -/
theorem fourDigitYear_newYear {now : ℕ} (h : yearOf now ≤ 9999) :
    (DateTime.newYear (yearOf now)).FourDigitYear :=
  ⟨(by omega : (0 : ℤ) ≤ 1970).trans (le_yearOf now), h⟩

/-- **Until the year 9999 a stamp is read as the beginning of its year**, whatever the day. -/
theorem parse_chronoNow {now : ℕ} (h : yearOf now ≤ 9999) :
    parseFromRfc3339 (chronoNow now) = some (.newYear (yearOf now)) := by
  rw [chronoNow_eq h, parseFromRfc3339_toJsonText (fourDigitYear_newYear h)]

/-- A year of five digits is taken for one of four, and a separator is missed after it. -/
theorem parse_chronoNow_eq_none {now : ℕ} (h : 9999 < yearOf now) :
    parseFromRfc3339 (chronoNow now) = none := by
  have hyear := countYears_now now
  rw [chronoNow, parseFromRfc3339, String.toList_ofList]
  generalize countYears 1970 (now / 1000000000 / 86400) = y at hyear
  obtain ⟨v, d, tail, hd, hscan⟩ := scan_padded (b := 10) (n := y) (k := 4) (by omega) (by omega)
    (by omega) 1 "-01-01T00:00:00Z".toList
  have hdash : ∀ d : Fin 10, Nat.digitChar d ≠ '-' := by decide
  rw [parse, dateFields, strictYear, hscan]
  simp only [Option.map_some, Option.bind_eq_bind, Option.bind_some, char,
    if_neg (hdash ⟨d, hd⟩), Option.bind_none]

/-- What the daemon takes for the time of a report made now. -/
def stampOf (now : ℕ) : DateTime :=
  if yearOf now ≤ 9999 then .newYear (yearOf now) else .ofNanos now

/-- **A report of the SDK, as the daemon reads it.** -/
theorem ofParams_reportEvent (id : Uuid) (kind : String) (payload : Value) (now : ℕ) :
    Report.ofParams (reportEvent id kind payload now) (.ofNanos now) =
      some ⟨id, kind, payload, stampOf now⟩ := by
  have hts : (parseFromRfc3339 (chronoNow now)).getD (.ofNanos now) = stampOf now := by
    rw [stampOf]
    split_ifs with h
    · rw [parse_chronoNow h, Option.getD_some]
    · rw [parse_chronoNow_eq_none (not_le.mp h), Option.getD_none]
  have hid : (reportEvent id kind payload now).getStr "session_id" = some id.toText := rfl
  have hkind : (reportEvent id kind payload now).getStr "type" = some kind := rfl
  have hpayload : (reportEvent id kind payload now).get "payload" = some payload := rfl
  have hstamp : (reportEvent id kind payload now).getStr "ts" = some (chronoNow now) := rfl
  rw [Report.ofParams, hid, hkind, hpayload, hstamp]
  simp only [Option.bind_eq_bind, Option.bind_some, Option.getD_some, Uuid.parseStr_toText, hts]

end Agentd.AgentdClient
