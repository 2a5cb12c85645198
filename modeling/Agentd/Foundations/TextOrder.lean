import Agentd.Foundations.Calendar
import Mathlib.Tactic.Ring

/-!
# The order of instants and of their texts

`Rfc3339.DateTime.Before` is the order of instants. As long as their years have four digits,
`Rfc3339.toRfc3339` carries it over to the order of texts (`Rfc3339.toRfc3339_lt_iff`): all fields
have a fixed width but the fraction, and where a shorter fraction ends there is a sign, which
comes before the point and before every digit.

Text in another format is another matter. `Rfc3339.date_append_lt_iff` compares two texts that
begin with a date, whatever comes after it.

All texts compared are those of `to_rfc3339` in UTC or of SQLite's `datetime`, whose fields have
fixed widths for years of four digits. What has no fixed width is the fraction of a second, and it
ends with the sign of the offset, which is less than any digit: so a shorter fraction is less than a
longer one that begins with it, as it should be.
-/

namespace Numeral

/-- A digit comes after a sign and a point. -/
theorem sign_lt_digitChar : ∀ d : Fin 10,
    '+' < Nat.digitChar d ∧ ¬Nat.digitChar d < '+' ∧ Nat.digitChar d ≠ '+' := by
  decide

/-- Two fractions of `k` and of `j` digits, by their leading digits and the others. -/
theorem fraction_lt_iff {X Y d e r s : ℕ} (hr : r < X) (hs : s < Y) :
    (d * X + r) * (Y * 10) < (e * Y + s) * (X * 10) ↔ d < e ∨ d = e ∧ r * Y < s * X := by
  have hX : 0 < X := by omega
  have hY : 0 < Y := by omega
  have hrY : r * Y < X * Y := Nat.mul_lt_mul_of_pos_right hr hY
  have hsX : s * X < X * Y := by
    rw [mul_comm X Y]
    exact Nat.mul_lt_mul_of_pos_right hs hX
  have hleft : (d * X + r) * (Y * 10) = (d * (X * Y) + r * Y) * 10 := by ring
  have hright : (e * Y + s) * (X * 10) = (e * (X * Y) + s * X) * 10 := by ring
  rw [hleft, hright, Nat.mul_lt_mul_right (by omega : 0 < 10)]
  rcases lt_trichotomy d e with h | rfl | h
  · have hle : (d + 1) * (X * Y) ≤ e * (X * Y) := Nat.mul_le_mul_right _ h
    rw [Nat.add_mul, one_mul] at hle
    exact iff_of_true (by omega) (Or.inl h)
  · rw [or_iff_right (lt_irrefl _), and_iff_right rfl]
    omega
  · have hle : (e + 1) * (X * Y) ≤ d * (X * Y) := Nat.mul_le_mul_right _ h
    rw [Nat.add_mul, one_mul] at hle
    exact iff_of_false (by omega) (by omega)

/-- **Numerals of any two widths that a sign ends are in the order of the fractions they stand
for**, and of two that stand for the same the shorter comes first. -/
theorem numeral_sign_lt_iff (k : ℕ) : ∀ {j m n : ℕ} (s : List Char), m < 10 ^ k → n < 10 ^ j →
    (numeral 10 k m ++ '+' :: s < numeral 10 j n ++ '+' :: s ↔
      m * 10 ^ j < n * 10 ^ k ∨ m * 10 ^ j = n * 10 ^ k ∧ k < j) := by
  induction k with
  | zero =>
    intro j m n s hm hn
    obtain rfl : m = 0 := by simpa using hm
    cases j with
    | zero =>
      obtain rfl : n = 0 := by simpa using hn
      simp [numeral]
    | succ j =>
      rw [numeral_succ (by omega) hn, numeral, List.nil_append, List.cons_append,
        List.cons_lt_cons_iff]
      refine iff_of_true (Or.inl (sign_lt_digitChar ⟨_, leading_lt (by omega) hn⟩).1) ?_
      rw [zero_mul, pow_zero, mul_one]
      omega
  | succ k ih =>
    intro j m n s hm hn
    have hdm := leading_lt (by omega) hm
    cases j with
    | zero =>
      obtain rfl : n = 0 := by simpa using hn
      have hsign := sign_lt_digitChar ⟨_, hdm⟩
      rw [numeral_succ (by omega) hm, numeral, List.nil_append, List.cons_append,
        List.cons_lt_cons_iff]
      refine iff_of_false ?_ (by simp)
      rintro (hlt | ⟨heq, -⟩)
      · exact hsign.2.1 hlt
      · exact hsign.2.2 heq
    | succ j =>
      have hdn := leading_lt (by omega) hn
      have hlt := digitChar_lt_iff ⟨m / 10 ^ k, by omega⟩ ⟨n / 10 ^ j, by omega⟩
      have heq := digitChar_inj ⟨m / 10 ^ k, by omega⟩ ⟨n / 10 ^ j, by omega⟩
      have hmk : m % 10 ^ k < 10 ^ k := Nat.mod_lt _ (Nat.pow_pos (by omega))
      have hnj : n % 10 ^ j < 10 ^ j := Nat.mod_lt _ (Nat.pow_pos (by omega))
      rw [Fin.mk_lt_mk] at hlt
      rw [Fin.mk.injEq] at heq
      rw [numeral_succ (by omega) hm, numeral_succ (by omega) hn, List.cons_append,
        List.cons_append, List.cons_lt_cons_iff, hlt, heq, ih s hmk hnj]
      have hfirst := fraction_lt_iff (d := m / 10 ^ k) (e := n / 10 ^ j) hmk hnj
      have hsecond := fraction_lt_iff (d := n / 10 ^ j) (e := m / 10 ^ k) hnj hmk
      rw [Nat.div_add_mod', Nat.div_add_mod'] at hfirst hsecond
      rw [pow_succ, pow_succ, Nat.succ_lt_succ_iff]
      generalize m * (10 ^ j * 10) = x at hfirst hsecond ⊢
      generalize n * (10 ^ k * 10) = y at hfirst hsecond ⊢
      generalize m % 10 ^ k * 10 ^ j = r at hfirst hsecond ⊢
      generalize n % 10 ^ j * 10 ^ k = s at hfirst hsecond ⊢
      omega

end Numeral

namespace Rfc3339

open Numeral

/-! ### Days

Dates are compared by year, month and day, in this order, as their texts are, and as the numbers of
the days are. -/

/-- Days are in the order of year, month and day. -/
theorem Date.toDays_lt_iff {d e : Date} : d.toDays < e.toDays ↔
    d.year < e.year ∨ d.year = e.year ∧ (d.month < e.month ∨ d.month = e.month ∧ d.day < e.day) := by
  have key : ∀ {d e : Date}, d.year < e.year ∨ d.year = e.year ∧
      (d.month < e.month ∨ d.month = e.month ∧ d.day < e.day) → d.toDays < e.toDays := by
    rintro d e (h | ⟨hy, h | ⟨hm, h⟩⟩)
    · have hstart := yearStart_mono (show d.year + 1 ≤ e.year by omega)
      exact d.lt_yearStart_succ.trans_le (hstart.trans e.yearStart_le)
    · have hlast := d.monthStart_add_day_le
      have hmono := monthStart_mono d.year (by omega) (show d.month + 1 ≤ e.month from h)
      have hd := d.day_pos
      have he := e.day_pos
      rw [toDays, toDays, ← hy]
      omega
    · have hd := d.day_pos
      rw [toDays, toDays, ← hy, ← hm]
      omega
  refine ⟨fun h => ?_, key⟩
  by_contra hne
  have hcases : (e.year < d.year ∨ e.year = d.year ∧
      (e.month < d.month ∨ e.month = d.month ∧ e.day < d.day)) ∨
      (d.year = e.year ∧ d.month = e.month ∧ d.day = e.day) := by
    omega
  rcases hcases with hback | ⟨hy, hm, hd⟩
  · exact lt_asymm h (key hback)
  · rw [toDays, toDays, hy, hm, hd] at h
    exact lt_irrefl _ h

/-- A date is its three fields. -/
theorem Date.eq_iff {d e : Date} :
    d = e ↔ d.year = e.year ∧ d.month = e.month ∧ d.day = e.day := by
  cases d
  cases e
  simp only [Date.mk.injEq]

/-- A day is known by its number. -/
theorem Date.toDays_inj {d e : Date} : d.toDays = e.toDays ↔ d = e := by
  refine ⟨fun h => ?_, congrArg _⟩
  have hlt := mt toDays_lt_iff.mpr (not_lt.mpr h.ge)
  have hgt := mt toDays_lt_iff.mpr (not_lt.mpr h.le)
  rw [eq_iff]
  omega

/-- **Texts that begin with a date are in the order of the dates**, and where those are the same
in the order of what follows. -/
theorem date_append_lt_iff {d e : Date} (hd : 0 ≤ d.year ∧ d.year ≤ 9999)
    (he : 0 ≤ e.year ∧ e.year ≤ 9999) (s t : List Char) :
    yearText d.year ++ '-' :: (numeral 10 2 d.month ++ '-' :: (numeral 10 2 d.day ++ s)) <
        yearText e.year ++ '-' :: (numeral 10 2 e.month ++ '-' :: (numeral 10 2 e.day ++ t)) ↔
      d.toDays < e.toDays ∨ d = e ∧ s < t := by
  have hmonth : d.month < 10 ^ 2 ∧ e.month < 10 ^ 2 := by
    have := d.month_le
    have := e.month_le
    omega
  have hday : d.day < 10 ^ 2 ∧ e.day < 10 ^ 2 := ⟨d.day_lt, e.day_lt⟩
  have hyear : d.year.toNat < 10 ^ 4 ∧ e.year.toNat < 10 ^ 4 := by omega
  have hdash : ¬ '-' < '-' := by decide
  rw [yearText, yearText, if_pos hd, if_pos he,
    numeral_append_lt_iff (by omega) (by omega) 4 _ _ hyear.1 hyear.2, List.cons_lt_cons_iff,
    numeral_append_lt_iff (by omega) (by omega) 2 _ _ hmonth.1 hmonth.2, List.cons_lt_cons_iff,
    numeral_append_lt_iff (by omega) (by omega) 2 _ _ hday.1 hday.2, Date.toDays_lt_iff,
    Date.eq_iff]
  simp only [hdash, false_or, true_and]
  have hlt : d.year.toNat < e.year.toNat ↔ d.year < e.year := by omega
  have heq : d.year.toNat = e.year.toNat ↔ d.year = e.year := by omega
  rw [hlt, heq, or_assoc, and_assoc, and_assoc, ← and_or_left, or_assoc, ← and_or_left]

/-! ### Instants

An instant is a day and a time of the day, and its number of nanoseconds orders instants as the two
do, in this order. A leap second is written as a fraction of the second before it, which is why the
second of the day alone does not do. -/

namespace DateTime

/-- The seconds since midnight. -/
def secondOfDay (t : DateTime) : ℕ :=
  t.hour * 3600 + t.minute * 60 + t.second

/-- A day has 86400 seconds. -/
theorem secondOfDay_lt (t : DateTime) : t.secondOfDay < 86400 := by
  have hhour := t.hour_lt
  have hminute := t.minute_lt
  have hsecond := t.second_lt
  rw [secondOfDay]
  omega

/-- `DateTime::lt`, by the day, the second and the nanosecond. -/
def Before (t u : DateTime) : Prop :=
  t.date.toDays < u.date.toDays ∨ t.date.toDays = u.date.toDays ∧
    (t.secondOfDay < u.secondOfDay ∨ t.secondOfDay = u.secondOfDay ∧ t.nano < u.nano)

instance (t u : DateTime) : Decidable (t.Before u) :=
  inferInstanceAs (Decidable (_ ∨ _ ∧ (_ ∨ _ ∧ _)))

/-- An instant is known by its day, its second and its nanosecond. -/
theorem eq_of_parts {t u : DateTime} (hdays : t.date.toDays = u.date.toDays)
    (hsecond : t.secondOfDay = u.secondOfDay) (hnano : t.nano = u.nano) : t = u := by
  have hdate := Date.toDays_inj.mp hdays
  unfold secondOfDay at hsecond
  have hfields : t.hour = u.hour ∧ t.minute = u.minute ∧ t.second = u.second := by
    have := t.minute_lt
    have := t.second_lt
    have := u.minute_lt
    have := u.second_lt
    omega
  cases t
  cases u
  rw [mk.injEq]
  exact ⟨hdate, hfields.1, hfields.2.1, hfields.2.2, hnano⟩

/-- The nanoseconds since the beginning of 1970. -/
def toNanos (t : DateTime) : ℤ :=
  t.date.toDays * nanosPerDay + t.secondOfDay * 1000000000 + t.nano

/-- Leap seconds aside, instants are in the order of their nanoseconds. -/
theorem before_iff_toNanos {t u : DateTime} (ht : t.nano < 1000000000)
    (hu : u.nano < 1000000000) : t.Before u ↔ t.toNanos < u.toNanos := by
  have htsec := t.secondOfDay_lt
  have husec := u.secondOfDay_lt
  rw [Before, toNanos, toNanos, nanosPerDay]
  omega

/-- An instant that is made from a number has this number. -/
theorem toNanos_ofNanos (n : ℤ) : (ofNanos n).toNanos = n := by
  rw [toNanos, toDays_ofNanos]
  unfold secondOfDay ofNanos nanosPerDay
  dsimp only
  omega

/-- Leap seconds aside, an instant is known by its nanoseconds. -/
theorem toNanos_inj {t u : DateTime} (ht : t.nano < 1000000000) (hu : u.nano < 1000000000) :
    t.toNanos = u.toNanos ↔ t = u := by
  refine ⟨fun h => ?_, congrArg _⟩
  have htsec := t.secondOfDay_lt
  have husec := u.secondOfDay_lt
  rw [toNanos, toNanos, nanosPerDay] at h
  exact eq_of_parts (by omega) (by omega) (by omega)

/-- An instant that is made from a number has a proper fraction of a second, and no leap second. -/
theorem nano_ofNanos_lt (n : ℤ) : (ofNanos n).nano < 1000000000 := by
  rw [ofNanos]
  dsimp only
  omega

/-- The beginning of a year has a proper fraction of a second, namely none. -/
theorem nano_newYear_lt (y : ℤ) : (newYear y).nano < 1000000000 := by
  change 0 < 1000000000
  omega

/-- The beginning of a year is on its first day. -/
theorem toDays_newYear (y : ℤ) : (newYear y).date.toDays = Date.yearStart y := by
  change Date.yearStart y + (Date.monthStart y 1 + (1 - 1) : ℕ) = Date.yearStart y
  rw [Date.monthStart_one]
  omega

/-- The beginning of a year is at the first nanosecond of its first day. -/
theorem toNanos_newYear (y : ℤ) : (newYear y).toNanos = Date.yearStart y * nanosPerDay := by
  rw [toNanos, toDays_newYear]
  unfold secondOfDay newYear
  dsimp only
  omega

end DateTime

/-! ### Texts

The text of an instant is the text of its date and time, followed by the fraction and the offset.
Two of them are compared field by field, which is to compare the instants. -/

/-- A fraction is as many digits as it takes. -/
theorem fractionText_eq {n : ℕ} (hn : n < 1000000000) :
    n = 0 ∧ fractionText n = [] ∨
      ∃ k m, k ≤ 9 ∧ m < 10 ^ k ∧ m * 10 ^ (9 - k) = n ∧ 0 < n ∧
        fractionText n = '.' :: numeral 10 k m := by
  unfold fractionText
  split_ifs with hzero hmilli hmicro
  · exact Or.inl ⟨hzero, rfl⟩
  · exact Or.inr ⟨3, n / 1000000, by omega, by omega, by omega, by omega, rfl⟩
  · exact Or.inr ⟨6, n / 1000, by omega, by omega, by omega, by omega, rfl⟩
  · exact Or.inr ⟨9, n, by omega, by omega, by omega, by omega, rfl⟩

/-- **Fractions before a sign are in the order of their nanoseconds.** -/
theorem fractionText_lt_iff {m n : ℕ} (hm : m < 1000000000) (hn : n < 1000000000)
    (s : List Char) :
    fractionText m ++ '+' :: s < fractionText n ++ '+' :: s ↔ m < n := by
  have hpoint : '+' < '.' := by decide
  have hsign : ¬ '.' < '+' := by decide
  rcases eq_or_ne m n with rfl | hne
  · exact iff_of_false (List.lt_irrefl _) (lt_irrefl _)
  rcases fractionText_eq hm with ⟨rfl, hmtext⟩ | ⟨k, a, hk, ha, hak, hmpos, hmtext⟩
  · rcases fractionText_eq hn with ⟨rfl, -⟩ | ⟨j, b, -, -, -, hnpos, hntext⟩
    · exact absurd rfl hne
    · rw [hmtext, hntext, List.nil_append, List.cons_append, List.cons_lt_cons_iff]
      exact iff_of_true (Or.inl hpoint) hnpos
  · rcases fractionText_eq hn with ⟨rfl, hntext⟩ | ⟨j, b, hj, hb, hbj, -, hntext⟩
    · rw [hmtext, hntext, List.nil_append, List.cons_append, List.cons_lt_cons_iff]
      refine iff_of_false ?_ (by omega)
      rintro (hlt | ⟨heq, -⟩)
      · exact hsign hlt
      · exact absurd heq (by decide)
    · -- both have digits, which are compared as fractions of a second
      have hscale : 0 < 10 ^ (9 - k) * 10 ^ (9 - j) :=
        Nat.mul_pos (Nat.pow_pos (by omega)) (Nat.pow_pos (by omega))
      have hleft : a * 10 ^ j * (10 ^ (9 - k) * 10 ^ (9 - j)) = m * 10 ^ 9 := by
        rw [← hak, ← pow_sub_mul_pow 10 hj]
        ring
      have hright : b * 10 ^ k * (10 ^ (9 - k) * 10 ^ (9 - j)) = n * 10 ^ 9 := by
        rw [← hbj, ← pow_sub_mul_pow 10 hk]
        ring
      have hlt : a * 10 ^ j < b * 10 ^ k ↔ m < n := by
        rw [← Nat.mul_lt_mul_right hscale, hleft, hright, Nat.mul_lt_mul_right (by omega)]
      have heq : a * 10 ^ j ≠ b * 10 ^ k := by
        intro h
        rw [h, hright] at hleft
        omega
      rw [hmtext, hntext, List.cons_append, List.cons_append, List.cons_lt_cons_iff,
        or_iff_right (by decide : ¬ '.' < '.'), and_iff_right rfl, numeral_sign_lt_iff k s ha hb, hlt,
        or_iff_left fun h => heq h.1]

/-- **The texts of instants are in the order of the instants**, where the years have four
digits. -/
theorem toRfc3339_lt_iff {t u : DateTime} (ht : t.FourDigitYear) (hu : u.FourDigitYear) :
    toRfc3339 t < toRfc3339 u ↔ t.Before u := by
  have hhour : t.hour < 10 ^ 2 ∧ u.hour < 10 ^ 2 := by
    have := t.hour_lt
    have := u.hour_lt
    omega
  have hminute : t.minute < 10 ^ 2 ∧ u.minute < 10 ^ 2 := by
    have := t.minute_lt
    have := u.minute_lt
    omega
  have hsecond : t.second + t.nano / 1000000000 < 10 ^ 2 ∧
      u.second + u.nano / 1000000000 < 10 ^ 2 := by
    have := t.second_lt
    have := u.second_lt
    have := t.nano_lt
    have := u.nano_lt
    omega
  have hcolon : ¬ ':' < ':' := by decide
  have hsep : ¬ 'T' < 'T' := by decide
  rw [String.lt_iff, toRfc3339, toRfc3339, String.toList_ofList, String.toList_ofList, isoText_eq,
    isoText_eq, date_append_lt_iff ht hu, List.cons_lt_cons_iff,
    numeral_append_lt_iff (by omega) (by omega) 2 _ _ hhour.1 hhour.2, List.cons_lt_cons_iff,
    numeral_append_lt_iff (by omega) (by omega) 2 _ _ hminute.1 hminute.2, List.cons_lt_cons_iff,
    numeral_append_lt_iff (by omega) (by omega) 2 _ _ hsecond.1 hsecond.2,
    fractionText_lt_iff (Nat.mod_lt _ (by omega)) (Nat.mod_lt _ (by omega)), DateTime.Before,
    Date.toDays_inj]
  simp only [hcolon, hsep, false_or, true_and]
  refine or_congr_right (and_congr_right fun _ => ?_)
  -- a leap second is the sixtieth, and after the fifty-ninth
  obtain ⟨_, th, tm, ts, tn, -, htm, hts, htn, htl⟩ := t
  obtain ⟨_, uh, um, us, un, -, hum, hus, hun, hul⟩ := u
  have hleap : ts + tn / 1000000000 < us + un / 1000000000 ∨
      ts + tn / 1000000000 = us + un / 1000000000 ∧ tn % 1000000000 < un % 1000000000 ↔
        ts < us ∨ ts = us ∧ tn < un := by
    omega
  unfold DateTime.secondOfDay
  dsimp only
  rw [hleap]
  clear hleap htn hun htl hul
  omega

/-- An instant is known by its text, where the year has four digits. -/
theorem toRfc3339_inj {t u : DateTime} (ht : t.FourDigitYear) (hu : u.FourDigitYear)
    (h : toRfc3339 t = toRfc3339 u) : t = u := by
  have hparse := parseFromRfc3339_toRfc3339 ht
  rw [h, parseFromRfc3339_toRfc3339 hu] at hparse
  exact (Option.some.inj hparse).symm

end Rfc3339
