import Agentd.Foundations.Rfc3339
import Mathlib.Logic.Function.Iterate

/-!
# Counting days

Days are counted from the first of January 1970. `Rfc3339.Date.ofDays` finds the day with a
given number by going from one day to the next, and `Rfc3339.Date.toDays` computes the number
from year, month and day. That one undoes the other (`Rfc3339.Date.toDays_ofDays`) makes a
question about the fields of a day into one about numbers:

* `Rfc3339.Date.year_eq_iff` – a year is an interval of days;
* `Rfc3339.Date.january_iff` – the first month of a year is the first thirty-one of them.

`Rfc3339.DateTime.ofNanos` is the instant a number of nanoseconds from that day.
-/

namespace Rfc3339

namespace Date

/-- The day so many days after the first of 1970, or before it. -/
def ofDays : ℤ → Date
  | .ofNat n => succ^[n] epoch
  | .negSucc n => pred^[n + 1] epoch

/-- The number of the first day of a year. -/
def yearStart (y : ℤ) : ℤ :=
  365 * (y - 1970) + ((y - 1) / 4 - (y - 1) / 100 + (y - 1) / 400 - 477)

/-- The days of a year before a month. -/
def monthStart (y : ℤ) (m : ℕ) : ℕ :=
  ((List.range (m - 1)).map fun k => daysInMonth y (k + 1)).sum

/-- The number of a day. -/
def toDays (t : Date) : ℤ :=
  yearStart t.year + (monthStart t.year t.month + (t.day - 1) : ℕ)

/-! ### Months and years

Days are counted from the first of January 1970. A year begins with the days of the years before it,
a month with the days of the months before it, and both counts are monotone, so that a date can be
found by them. -/

/-- January begins with the year. -/
theorem monthStart_one (y : ℤ) : monthStart y 1 = 0 :=
  rfl

/-- A month begins when the one before it is over. -/
theorem monthStart_succ (y : ℤ) {m : ℕ} (hm : 1 ≤ m) :
    monthStart y (m + 1) = monthStart y m + daysInMonth y m := by
  obtain ⟨m, rfl⟩ : ∃ i, m = i + 1 := ⟨m - 1, by omega⟩
  rw [monthStart, monthStart, Nat.add_sub_cancel, Nat.add_sub_cancel, List.range_succ,
    List.map_append, List.sum_append]
  rfl

/-- Later months begin later. -/
theorem monthStart_mono (y : ℤ) {m n : ℕ} (hm : 1 ≤ m) (h : m ≤ n) :
    monthStart y m ≤ monthStart y n := by
  induction n, h using Nat.le_induction with
  | base => exact le_rfl
  | succ n hmn ih =>
    rw [monthStart_succ y (hm.trans hmn)]
    exact ih.trans (Nat.le_add_right _ _)

/-- The days of a year. -/
theorem monthStart_thirteen (y : ℤ) : monthStart y 13 = if isLeap y then 366 else 365 := by
  cases h : isLeap y <;> simp [monthStart, daysInMonth, h, List.range_succ]

/-- A year begins when the twelve months of the one before are over. -/
theorem yearStart_succ (y : ℤ) :
    yearStart (y + 1) = yearStart y + (monthStart y 13 : ℕ) := by
  rw [monthStart_thirteen, yearStart, yearStart]
  have hleap : isLeap y = true ↔ y % 4 = 0 ∧ (y % 100 ≠ 0 ∨ y % 400 = 0) := by
    simp [isLeap]
  split_ifs with h
  · have := hleap.mp h
    omega
  · rw [hleap] at h
    omega

/-- Later years begin later. -/
theorem yearStart_mono {y z : ℤ} (h : y ≤ z) : yearStart y ≤ yearStart z := by
  rw [yearStart, yearStart]
  omega

/-! ### A day after another

The successor of a date is the next day, or the first of the next month, or the first of January.
Its number is one more in all three cases, which is what ties the counting to the calendar. -/

/-- A day of a month comes before the next month begins. -/
theorem monthStart_add_day_le (t : Date) :
    monthStart t.year t.month + t.day ≤ monthStart t.year (t.month + 1) := by
  rw [monthStart_succ _ t.month_pos]
  exact Nat.add_le_add_left t.day_le _

/-- **The day after has the next number.** -/
theorem toDays_succ (t : Date) : t.succ.toDays = t.toDays + 1 := by
  have hpos := t.day_pos
  have hle := t.day_le
  unfold succ
  split_ifs with hday hmonth
  · rw [toDays, toDays]
    dsimp only
    omega
  · have hstart := monthStart_succ t.year t.month_pos
    rw [toDays, toDays]
    dsimp only
    omega
  · -- the last day of December
    have hdec : t.month = 12 := by
      have := t.month_le
      omega
    have hstart : monthStart t.year 13 = monthStart t.year 12 + daysInMonth t.year 12 :=
      monthStart_succ t.year (by omega)
    have hyear := yearStart_succ t.year
    rw [hdec] at hday hle
    change yearStart (t.year + 1) + (monthStart (t.year + 1) 1 + (1 - 1) : ℕ) = t.toDays + 1
    rw [toDays, hdec, monthStart_one]
    omega

/-- The day before has the previous one. -/
theorem toDays_pred (t : Date) : t.pred.toDays = t.toDays - 1 := by
  have hpos := t.day_pos
  unfold pred
  split_ifs with hday hmonth
  · rw [toDays, toDays]
    dsimp only
    omega
  · have hstart := monthStart_succ t.year (m := t.month - 1) (by omega)
    have hlast := one_le_daysInMonth t.year (t.month - 1)
    rw [Nat.sub_add_cancel t.month_pos] at hstart
    change yearStart t.year +
      (monthStart t.year (t.month - 1) + (daysInMonth t.year (t.month - 1) - 1) : ℕ) = t.toDays - 1
    rw [toDays]
    omega
  · -- the first day of January
    have hjan : t.month = 1 := by
      have := t.month_pos
      omega
    have hstart : monthStart (t.year - 1) 13 = monthStart (t.year - 1) 12 + 31 :=
      monthStart_succ (t.year - 1) (by omega)
    have hyear := yearStart_succ (t.year - 1)
    rw [Int.sub_add_cancel] at hyear
    change yearStart (t.year - 1) + (monthStart (t.year - 1) 12 + (31 - 1) : ℕ) = t.toDays - 1
    rw [toDays, hjan, monthStart_one]
    omega

/-- **A day found by its number has it.** -/
theorem toDays_ofDays (n : ℤ) : (ofDays n).toDays = n := by
  have hepoch : epoch.toDays = 0 := rfl
  cases n with
  | ofNat n =>
    change (succ^[n] epoch).toDays = n
    induction n with
    | zero => exact hepoch
    | succ n ih =>
      rw [Function.iterate_succ_apply', toDays_succ, ih]
      rfl
  | negSucc n =>
    change (pred^[n + 1] epoch).toDays = Int.negSucc n
    induction n with
    | zero => exact (toDays_pred epoch).trans (by rw [hepoch]; rfl)
    | succ n ih =>
      rw [Function.iterate_succ_apply', toDays_pred, ih]
      rfl

/-! ### What a number says about the fields

The year of a day can be read off its number by comparison with the beginnings of years. What the
program asks of a date is never more than that: whether its year has four digits, whether it is
January, and which of two days comes first. -/

/-- A day does not come before its year begins. -/
theorem yearStart_le (t : Date) : yearStart t.year ≤ t.toDays :=
  Int.le_add_of_nonneg_right (Int.natCast_nonneg _)

/-- A day comes before the next year begins. -/
theorem lt_yearStart_succ (t : Date) : t.toDays < yearStart (t.year + 1) := by
  have hmonth := t.monthStart_add_day_le
  have hyear := monthStart_mono t.year (by omega) (Nat.succ_le_succ t.month_le)
  have hpos := t.day_pos
  rw [yearStart_succ, toDays]
  change monthStart t.year (t.month + 1) ≤ monthStart t.year 13 at hyear
  omega

/-- So a later day has no earlier year. -/
theorem year_le_of_toDays_le {t u : Date} (h : t.toDays ≤ u.toDays) : t.year ≤ u.year := by
  by_contra hlt
  have hstart := yearStart_mono (show u.year + 1 ≤ t.year by omega)
  have hlast := u.lt_yearStart_succ
  have hfirst := t.yearStart_le
  omega

/-- A year is an interval of days. -/
theorem year_eq_iff (t : Date) (y : ℤ) :
    t.year = y ↔ yearStart y ≤ t.toDays ∧ t.toDays < yearStart (y + 1) := by
  constructor
  · rintro rfl
    exact ⟨t.yearStart_le, t.lt_yearStart_succ⟩
  · rintro ⟨hfirst, hlast⟩
    have hle := t.yearStart_le
    have hlt := t.lt_yearStart_succ
    rcases lt_trichotomy t.year y with h | h | h
    · have := yearStart_mono (show t.year + 1 ≤ y by omega)
      omega
    · exact h
    · have := yearStart_mono (show y + 1 ≤ t.year by omega)
      omega

/-- January is the first thirty-one days of a year. -/
theorem month_eq_one_iff (t : Date) : t.month = 1 ↔ t.toDays < yearStart t.year + 31 := by
  have hpos := t.month_pos
  rw [toDays]
  constructor
  · intro h
    have hday := t.day_le
    rw [h] at hday ⊢
    have hjan : daysInMonth t.year 1 = 31 := rfl
    have hdaypos := t.day_pos
    rw [monthStart_one]
    omega
  · intro h
    by_contra hne
    have hmono := monthStart_mono t.year (show 1 ≤ 2 by omega) (show 2 ≤ t.month by omega)
    have htwo : monthStart t.year 2 = 31 := rfl
    omega

/-- January is the first thirty-one days of a year. -/
theorem january_iff (t : Date) (y : ℤ) :
    (t.year = y ∧ t.month = 1) ↔ yearStart y ≤ t.toDays ∧ t.toDays < yearStart y + 31 := by
  have hlong : yearStart y + 31 ≤ yearStart (y + 1) := by
    rw [yearStart, yearStart]
    omega
  rw [month_eq_one_iff]
  constructor
  · rintro ⟨rfl, h⟩
    exact ⟨t.yearStart_le, h⟩
  · rintro ⟨hfirst, hlast⟩
    have hyear := (t.year_eq_iff y).mpr ⟨hfirst, by omega⟩
    exact ⟨hyear, hyear ▸ hlast⟩

end Date

namespace DateTime

/-- The nanoseconds of a day. -/
def nanosPerDay : ℕ :=
  86400000000000

/-- The instant so many nanoseconds after the beginning of 1970, or before it. -/
def ofNanos (n : ℤ) : DateTime where
  date := .ofDays (n / nanosPerDay)
  hour := (n % nanosPerDay / 3600000000000).toNat
  minute := (n % 3600000000000 / 60000000000).toNat
  second := (n % 60000000000 / 1000000000).toNat
  nano := (n % 1000000000).toNat
  hour_lt := by
    rw [nanosPerDay]
    omega
  minute_lt := by omega
  second_lt := by omega
  nano_lt := by omega
  leap_second := by omega

/-- A count of nanoseconds shows the day it falls on, rounded down also before 1970. -/
theorem toDays_ofNanos (n : ℤ) : (ofNanos n).date.toDays = n / nanosPerDay :=
  Date.toDays_ofDays _

end DateTime

/-- The text of the beginning of a year. -/
theorem isoText_newYear (y : ℤ) (zone : List Char) :
    isoText (.newYear y) zone = yearText y ++ '-' :: (Numeral.numeral 10 2 1 ++ '-' ::
      (Numeral.numeral 10 2 1 ++ 'T' :: (Numeral.numeral 10 2 0 ++ ':' ::
        (Numeral.numeral 10 2 0 ++ ':' :: (Numeral.numeral 10 2 0 ++ zone))))) := by
  have hfraction : fractionText (0 % 1000000000) = [] := by
    rw [Nat.zero_mod, fractionText, if_pos rfl]
  rw [isoText_eq]
  simp only [DateTime.newYear, hfraction, Nat.zero_div, Nat.add_zero, List.nil_append]

end Rfc3339
