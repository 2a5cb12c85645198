import Agentd.Foundations.Numeral
import Mathlib.Tactic.IntervalCases

/-!
# Dates, instants and RFC 3339 text

UTC instants as calendar fields (`Rfc3339.DateTime`), the text they are written
as (`Rfc3339.toRfc3339`, `Rfc3339.toJsonText`) and the two readers of such text:

| reader | year | theorem |
|---|---|---|
| `Rfc3339.parseFromRfc3339` | exactly four digits | `Rfc3339.parseFromRfc3339_toRfc3339` |
| `Rfc3339.fromStr` | four digits, or a sign and any number | `Rfc3339.fromStr_toJsonText` |

The writer prints years outside `0 .. 9999` with a sign, so the strict reader does
**not** invert it everywhere: `Rfc3339.parseFromRfc3339_toRfc3339_eq_none` says that
it fails exactly there. Nothing keeps a program away from that edge, since a text with a
four-digit year may carry a UTC offset and the conversion to UTC moves the year
by one (`Rfc3339.DateTime.subMinutes`).

The formats and their edge cases are those of the `chrono` crate: fractions of
three, six or nine digits, a second of sixty for a leap second, offsets with `Z`,
`+`, `-` or the minus sign.
-/

namespace Rfc3339

open Numeral

/-! ### The calendar

The proleptic Gregorian calendar, with the year zero and years before it, as `chrono` has it. -/

/-- Leap years of the proleptic Gregorian calendar. -/
def isLeap (y : ℤ) : Bool :=
  y % 4 == 0 && (y % 100 != 0 || y % 400 == 0)

/-- The number of days of a month. -/
def daysInMonth (y : ℤ) (m : ℕ) : ℕ :=
  match m with
  | 2 => if isLeap y then 29 else 28
  | 4 | 6 | 9 | 11 => 30
  | _ => 31

theorem one_le_daysInMonth (y : ℤ) (m : ℕ) : 1 ≤ daysInMonth y m := by
  unfold daysInMonth
  split
  · split <;> omega
  · omega
  · omega
  · omega
  · omega
  · omega

/-- A day of the proleptic Gregorian calendar. -/
structure Date where
  /-- Year, with a year `0` and negative years before it. -/
  year : ℤ
  /-- Month, from `1`. -/
  month : ℕ
  /-- Day of the month, from `1`. -/
  day : ℕ
  month_pos : 1 ≤ month
  month_le : month ≤ 12
  day_pos : 1 ≤ day
  day_le : day ≤ daysInMonth year month
deriving DecidableEq

namespace Date

/-- The day with the given year, month and day of the month, if there is one. -/
def ofYmd? (y : ℤ) (m d : ℕ) : Option Date :=
  if h : (1 ≤ m ∧ m ≤ 12) ∧ 1 ≤ d ∧ d ≤ daysInMonth y m then
    some ⟨y, m, d, h.1.1, h.1.2, h.2.1, h.2.2⟩
  else none

theorem ofYmd?_self (t : Date) : ofYmd? t.year t.month t.day = some t :=
  dif_pos ⟨⟨t.month_pos, t.month_le⟩, t.day_pos, t.day_le⟩

theorem day_lt (t : Date) : t.day < 100 := by
  have h := t.day_le
  have hm : daysInMonth t.year t.month ≤ 31 := by
    unfold daysInMonth
    split
    · split <;> omega
    · omega
    · omega
    · omega
    · omega
    · omega
  omega

/-- The day after. -/
def succ (t : Date) : Date :=
  if h : t.day + 1 ≤ daysInMonth t.year t.month then
    { t with day := t.day + 1, day_pos := by omega, day_le := h }
  else if h' : t.month + 1 ≤ 12 then
    ⟨t.year, t.month + 1, 1, by omega, h', le_rfl, one_le_daysInMonth _ _⟩
  else
    ⟨t.year + 1, 1, 1, le_rfl, by omega, le_rfl, one_le_daysInMonth _ _⟩

/-- The day before. -/
def pred (t : Date) : Date :=
  if h : 1 < t.day then
    { t with day := t.day - 1, day_pos := by omega, day_le := by have := t.day_le; omega }
  else if h' : 1 < t.month then
    ⟨t.year, t.month - 1, daysInMonth t.year (t.month - 1), by omega,
      by have := t.month_le; omega, one_le_daysInMonth _ _, le_rfl⟩
  else
    ⟨t.year - 1, 12, 31, by omega, le_rfl, by omega, le_rfl⟩

/-- The first day of 1970. -/
def epoch : Date :=
  ⟨1970, 1, 1, le_rfl, by omega, le_rfl, one_le_daysInMonth _ _⟩

/-- The day a carry of whole days away: the day before, the day itself or the
day after, which is all a time-zone conversion needs. -/
def carry (t : Date) (days : ℤ) : Date :=
  if days < 0 then t.pred else if 0 < days then t.succ else t

end Date

/-- A UTC instant, as its calendar fields. A leap second is the fifty-ninth second
with a nanosecond count of a thousand million or more. -/
structure DateTime where
  date : Date
  hour : ℕ
  minute : ℕ
  second : ℕ
  nano : ℕ
  hour_lt : hour < 24
  minute_lt : minute < 60
  second_lt : second < 60
  nano_lt : nano < 2000000000
  leap_second : 1000000000 ≤ nano → second = 59
deriving DecidableEq

namespace DateTime

/-- The beginning of a year. -/
def newYear (year : ℤ) : DateTime where
  date := ⟨year, 1, 1, le_rfl, by omega, le_rfl, one_le_daysInMonth year 1⟩
  hour := 0
  minute := 0
  second := 0
  nano := 0
  hour_lt := by omega
  minute_lt := by omega
  second_lt := by omega
  nano_lt := by omega
  leap_second := by omega

/-- Noon of the first day of a year. -/
def noonOf (year : ℤ) : DateTime where
  date := ⟨year, 1, 1, le_rfl, by omega, le_rfl, one_le_daysInMonth year 1⟩
  hour := 12
  minute := 0
  second := 0
  nano := 0
  hour_lt := by omega
  minute_lt := by omega
  second_lt := by omega
  nano_lt := by omega
  leap_second := by omega

/-- The instant of a local time `off` minutes ahead of UTC. -/
def subMinutes (t : DateTime) (off : ℤ) : DateTime :=
  let m : ℤ := t.hour * 60 + t.minute - off
  { t with
    date := t.date.carry (m / 1440)
    hour := (m % 1440 / 60).toNat
    minute := (m % 1440 % 60).toNat
    hour_lt := by omega
    minute_lt := by omega }

theorem subMinutes_zero (t : DateTime) : t.subMinutes 0 = t := by
  obtain ⟨date, hour, minute, second, nano, hh, hm, hs, hn, hl⟩ := t
  have hdays : ((hour : ℤ) * 60 + minute - 0) / 1440 = 0 := by omega
  have hhour : (((hour : ℤ) * 60 + minute - 0) % 1440 / 60).toNat = hour := by omega
  have hminute : (((hour : ℤ) * 60 + minute - 0) % 1440 % 60).toNat = minute := by omega
  simp only [subMinutes, hdays, hhour, hminute, Date.carry, lt_irrefl, if_false]

/-- The year is one the four-digit form can write. -/
def FourDigitYear (t : DateTime) : Prop :=
  0 ≤ t.date.year ∧ t.date.year ≤ 9999

instance (t : DateTime) : Decidable t.FourDigitYear :=
  inferInstanceAs (Decidable (_ ∧ _))

end DateTime

/-! ### Writing

`to_rfc3339` writes a year of four digits as it is, and any other with a sign; a fraction is written
with three, six or nine digits, or left out. -/

/-- A year: four digits, or a sign and at least four where four do not do. -/
def yearText (y : ℤ) : List Char :=
  if 0 ≤ y ∧ y ≤ 9999 then numeral 10 4 y.toNat
  else (if 0 ≤ y then '+' else '-') :: padded 10 4 y.natAbs

/-- A fraction of a second: none, or three, six or nine digits, whichever loses
nothing. -/
def fractionText (nano : ℕ) : List Char :=
  if nano = 0 then []
  else if nano % 1000000 = 0 then '.' :: numeral 10 3 (nano / 1000000)
  else if nano % 1000 = 0 then '.' :: numeral 10 6 (nano / 1000)
  else '.' :: numeral 10 9 nano

/-- Date and time of an instant, followed by `zone`. -/
def isoText (t : DateTime) (zone : List Char) : List Char :=
  -- a leap second is written as the second sixty
  let leap := t.nano / 1000000000
  yearText t.date.year ++ '-' :: (numeral 10 2 t.date.month ++ '-' :: (numeral 10 2 t.date.day ++
    'T' :: (numeral 10 2 t.hour ++ ':' :: (numeral 10 2 t.minute ++ ':' ::
      (numeral 10 2 (t.second + leap) ++ (fractionText (t.nano % 1000000000) ++ zone))))))

/-- `DateTime::to_rfc3339`. -/
def toRfc3339 (t : DateTime) : String :=
  String.ofList (isoText t ['+', '0', '0', ':', '0', '0'])

/-- The text of an instant in JSON, which writes UTC as `Z`. -/
def toJsonText (t : DateTime) : String :=
  String.ofList (isoText t ['Z'])

/-! ### Reading

The parser takes the forms of RFC 3339 that `chrono` accepts, which are more than it writes: a small
letter or a blank before the time, any offset, any number of digits in a fraction. -/

/-- Consume one given character. -/
def char (c : Char) : List Char → Option (List Char)
  | [] => none
  | d :: s => if d = c then some s else none

/-- Consume the separator of date and time. -/
def separator : List Char → Option (List Char)
  | [] => none
  | d :: s => if d = 'T' ∨ d = 't' ∨ d = ' ' then some s else none

/-- Drop the digits at the front. -/
def skipDigits (s : List Char) : List Char :=
  s.dropWhile fun c => (digitVal 10 c).isSome

/-- Scan between one and `k` digits, scaling the number to `k` digits. -/
def scanScaled (k : ℕ) (s : List Char) : Option (ℕ × List Char) :=
  match s with
  | [] => none
  | c :: s => (digitVal 10 c).map fun d => go (k - 1) d s
where
  /-- The digits after the first. -/
  go : ℕ → ℕ → List Char → ℕ × List Char
    | 0, acc, s => (acc, s)
    | k + 1, acc, [] => (acc * 10 ^ (k + 1), [])
    | k + 1, acc, c :: s => match digitVal 10 c with
        | some d => go k (acc * 10 + d) s
        | none => (acc * 10 ^ (k + 1), c :: s)

/-- An optional fraction of a second, in nanoseconds; digits past the ninth are
ignored. -/
def fraction : List Char → Option (ℕ × List Char)
  | '.' :: s => (scanScaled 9 s).map fun p => (p.1, skipDigits p.2)
  | s => some (0, s)

/-- A UTC offset, in minutes. -/
def offset : List Char → Option (ℤ × List Char)
  | 'Z' :: s | 'z' :: s => some (0, s)
  | '+' :: s => amount s
  | '-' :: s | '−' :: s => (amount s).map fun p => (-p.1, p.2)
  | _ => none
where
  /-- Hours and minutes after the sign; less than a day. -/
  amount (s : List Char) : Option (ℤ × List Char) := do
    let (h, s) ← scan 10 2 s
    let s ← char ':' s
    let (m, s) ← scan 10 2 s
    if h < 24 ∧ m < 60 then some (h * 60 + m, s) else none

/-- The year of the strict format: exactly four digits. -/
def strictYear (s : List Char) : Option (ℤ × List Char) :=
  (scan 10 4 s).map fun p => ((p.1 : ℤ), p.2)

/-- The year of the relaxed format: four digits, or a sign and any number of
them. -/
def relaxedYear : List Char → Option (ℤ × List Char)
  | '+' :: s => let p := scanAll 10 0 s; some ((p.1 : ℤ), p.2)
  | '-' :: s => let p := scanAll 10 0 s; some (-(p.1 : ℤ), p.2)
  | s => strictYear s

/-- The instant of the fields read, if they are in range. A second of sixty is
the leap second after the fifty-ninth. -/
def assemble (y : ℤ) (mo d h mi s nano : ℕ) (off : ℤ) : Option DateTime :=
  (Date.ofYmd? y mo d).bind fun date =>
    if hr : h < 24 ∧ mi < 60 ∧ s < 60 ∧ nano < 1000000000 then
      some (DateTime.subMinutes ⟨date, h, mi, s, nano, hr.1, hr.2.1, hr.2.2.1, by omega,
        by omega⟩ off)
    else if hr : h < 24 ∧ mi < 60 ∧ s = 60 ∧ nano < 1000000000 then
      some (DateTime.subMinutes ⟨date, h, mi, 59, nano + 1000000000, hr.1, hr.2.1, by omega,
        by omega, fun _ => rfl⟩ off)
    else none

/-- Year, month and day. -/
def dateFields (year : List Char → Option (ℤ × List Char)) (s : List Char) :
    Option ((ℤ × ℕ × ℕ) × List Char) := do
  let (y, s) ← year s
  let s ← char '-' s
  let (mo, s) ← scan 10 2 s
  let s ← char '-' s
  let (d, s) ← scan 10 2 s
  some ((y, mo, d), s)

/-- Hour, minute, second and nanosecond. -/
def timeFields (s : List Char) : Option ((ℕ × ℕ × ℕ × ℕ) × List Char) := do
  let (h, s) ← scan 10 2 s
  let s ← char ':' s
  let (mi, s) ← scan 10 2 s
  let s ← char ':' s
  let (sec, s) ← scan 10 2 s
  let (nano, s) ← fraction s
  some ((h, mi, sec, nano), s)

/-- A date and time with a UTC offset, read to the end of the text and converted
to UTC. -/
def parse (year : List Char → Option (ℤ × List Char)) (s : List Char) : Option DateTime := do
  let ((y, mo, d), s) ← dateFields year s
  let s ← separator s
  let ((h, mi, sec, nano), s) ← timeFields s
  let (off, s) ← offset s
  if s = [] then assemble y mo d h mi sec nano off else none

/-- `DateTime::parse_from_rfc3339`, with the conversion to UTC its callers make. -/
def parseFromRfc3339 (s : String) : Option DateTime :=
  parse strictYear s.toList

/-- The reader of instants in JSON. Of the relaxed grammar this is the part that
admits signed years of any length; blanks between the fields are not read. -/
def fromStr (s : String) : Option DateTime :=
  parse relaxedYear s.toList

/-! ### Reading back what was written

A time in UTC with a year of four digits reads back. For other years the sign is in the way of one
of the two readers. -/

section RoundTrip

/-- A two-digit field scans back. -/
theorem scan_two {n : ℕ} (hn : n < 100) (rest : List Char) :
    scan 10 2 (numeral 10 2 n ++ rest) = some (n, rest) :=
  scan_numeral (by omega) (by omega) hn rest

/-- The digits of a fraction, followed by a character that is no digit, are read
to the last and scaled. -/
theorem scanScaled_go {c : Char} (hc : digitVal 10 c = none) (rest : List Char) (k : ℕ) :
    ∀ (j n acc : ℕ), k ≤ j → n < 10 ^ k →
      scanScaled.go j acc (numeral 10 k n ++ c :: rest) =
        ((acc * 10 ^ k + n) * 10 ^ (j - k), c :: rest) := by
  induction k with
  | zero =>
    intro j n acc _ hn
    obtain rfl : n = 0 := by simpa using hn
    cases j with
    | zero => simp [numeral, scanScaled.go]
    | succ j => simp [numeral, scanScaled.go, hc]
  | succ k ih =>
    intro j n acc hkj hn
    obtain ⟨j, rfl⟩ : ∃ i, j = i + 1 := ⟨j - 1, by omega⟩
    have hval : digitVal 10 (Nat.digitChar (n / 10 ^ k)) = some (n / 10 ^ k) :=
      digitVal_digitChar (by omega) (leading_lt (by omega) hn)
    simp only [numeral_succ (by omega : 0 < 10) hn, List.cons_append, scanScaled.go, hval]
    rw [ih j _ _ (by omega) (Nat.mod_lt n (Nat.pow_pos (by omega))), horner, Nat.add_sub_add_right]

theorem scanScaled_numeral {c : Char} (hc : digitVal 10 c = none) (rest : List Char) {k n : ℕ}
    (hk : k < 9) (hn : n < 10 ^ (k + 1)) :
    scanScaled 9 (numeral 10 (k + 1) n ++ c :: rest) = some (n * 10 ^ (8 - k), c :: rest) := by
  have hval : digitVal 10 (Nat.digitChar (n / 10 ^ k)) = some (n / 10 ^ k) :=
    digitVal_digitChar (by omega) (leading_lt (by omega) hn)
  have hsum : n / 10 ^ k * 10 ^ k + n % 10 ^ k = n := Nat.div_add_mod' n (10 ^ k)
  simp only [numeral_succ (by omega : 0 < 10) hn, List.cons_append, scanScaled, hval,
    Option.map_some]
  rw [scanScaled_go hc rest k 8 _ _ (by omega) (Nat.mod_lt n (Nat.pow_pos (by omega))), hsum]

theorem skipDigits_cons {c : Char} (hc : digitVal 10 c = none) (rest : List Char) :
    skipDigits (c :: rest) = c :: rest := by
  simp [skipDigits, hc]

/-- **A printed fraction reads back to its nanoseconds**, whichever of the four
widths it was printed in. -/
theorem fraction_fractionText {n : ℕ} (hn : n < 1000000000) {c : Char}
    (hc : digitVal 10 c = none) (hdot : c ≠ '.') (rest : List Char) :
    fraction (fractionText n ++ c :: rest) = some (n, c :: rest) := by
  unfold fractionText
  split_ifs with h0 h3 h6
  · subst h0
    simp only [List.nil_append, fraction]
    split
    · rename_i heq
      exact absurd (List.cons.inj heq).1 hdot
    · rfl
  · have hval : n / 1000000 * 10 ^ (8 - 2) = n := by omega
    simp only [List.cons_append, fraction]
    rw [scanScaled_numeral hc rest (by omega) (by omega), hval]
    simp [skipDigits_cons hc]
  · have hval : n / 1000 * 10 ^ (8 - 5) = n := by omega
    simp only [List.cons_append, fraction]
    rw [scanScaled_numeral hc rest (by omega) (by omega), hval]
    simp [skipDigits_cons hc]
  · have hval : n * 10 ^ (8 - 8) = n := by omega
    simp only [List.cons_append, fraction]
    rw [scanScaled_numeral hc rest (by omega) (by omega), hval]
    simp [skipDigits_cons hc]

/-- The fields of an instant assemble to it, at offset zero. -/
theorem assemble_fields (t : DateTime) :
    assemble t.date.year t.date.month t.date.day t.hour t.minute
      (t.second + t.nano / 1000000000) (t.nano % 1000000000) 0 = some t := by
  obtain ⟨date, hour, minute, second, nano, hh, hm, hs, hn, hl⟩ := t
  simp only [assemble, Date.ofYmd?_self, Option.bind_some]
  rcases lt_or_ge nano 1000000000 with hlt | hge
  · have hdiv : nano / 1000000000 = 0 := by omega
    have hmod : nano % 1000000000 = nano := by omega
    simp only [hdiv, hmod, add_zero]
    rw [dif_pos ⟨hh, hm, hs, hlt⟩, DateTime.subMinutes_zero]
  · have hdiv : nano / 1000000000 = 1 := by omega
    have hmod : nano % 1000000000 + 1000000000 = nano := by omega
    obtain rfl : second = 59 := hl hge
    simp only [hdiv, hmod]
    rw [dif_neg (by omega), dif_pos ⟨hh, hm, trivial, by omega⟩, DateTime.subMinutes_zero]

/-- Date and time of an instant, in the two halves the reader takes them in. -/
theorem isoText_eq (t : DateTime) (zone : List Char) :
    isoText t zone = yearText t.date.year ++ '-' :: (numeral 10 2 t.date.month ++ '-' ::
      (numeral 10 2 t.date.day ++ 'T' :: (numeral 10 2 t.hour ++ ':' :: (numeral 10 2 t.minute ++
        ':' :: (numeral 10 2 (t.second + t.nano / 1000000000) ++
          (fractionText (t.nano % 1000000000) ++ zone)))))) :=
  rfl

theorem dateFields_text {year : List Char → Option (ℤ × List Char)} (t : Date)
    (hyear : ∀ rest, year (yearText t.year ++ '-' :: rest) = some (t.year, '-' :: rest))
    (rest : List Char) :
    dateFields year (yearText t.year ++ '-' :: (numeral 10 2 t.month ++ '-' ::
      (numeral 10 2 t.day ++ rest))) = some ((t.year, t.month, t.day), rest) := by
  have hmonth : t.month < 100 := by
    have := t.month_le
    omega
  rw [dateFields, hyear]
  simp only [char, if_true, Option.bind_eq_bind, Option.bind_some, scan_two hmonth,
    scan_two t.day_lt]

theorem timeFields_text (t : DateTime) {c : Char} (hc : digitVal 10 c = none) (hdot : c ≠ '.')
    (rest : List Char) :
    timeFields (numeral 10 2 t.hour ++ ':' :: (numeral 10 2 t.minute ++ ':' ::
      (numeral 10 2 (t.second + t.nano / 1000000000) ++
        (fractionText (t.nano % 1000000000) ++ c :: rest)))) =
      some ((t.hour, t.minute, t.second + t.nano / 1000000000, t.nano % 1000000000), c :: rest) := by
  have hhour : t.hour < 100 := by
    have := t.hour_lt
    omega
  have hminute : t.minute < 100 := by
    have := t.minute_lt
    omega
  have hsec : t.second + t.nano / 1000000000 < 100 := by
    have := t.second_lt
    have := t.nano_lt
    omega
  have hnano : t.nano % 1000000000 < 1000000000 := Nat.mod_lt _ (by omega)
  rw [timeFields, scan_two hhour]
  simp only [char, if_true, Option.bind_eq_bind, Option.bind_some, scan_two hminute,
    scan_two hsec, fraction_fractionText hnano hc hdot]

/-- **The fields of a written instant read back**, with a reader of years that reads
back its year. -/
theorem parse_isoText {year : List Char → Option (ℤ × List Char)} (t : DateTime)
    (hyear : ∀ rest, year (yearText t.date.year ++ '-' :: rest) = some (t.date.year, '-' :: rest))
    {c : Char} {rest : List Char} (hc : digitVal 10 c = none) (hdot : c ≠ '.')
    (hoff : offset (c :: rest) = some (0, [])) :
    parse year (isoText t (c :: rest)) = some t := by
  rw [isoText_eq, parse, dateFields_text t.date hyear]
  simp only [Option.bind_eq_bind, Option.bind_some, separator, true_or, if_true,
    timeFields_text t hc hdot, hoff]
  exact assemble_fields t

/-- A year the reader refuses makes it refuse the whole text. -/
theorem parse_eq_none {year : List Char → Option (ℤ × List Char)} {s : List Char}
    (h : year s = none) : parse year s = none := by
  rw [parse, dateFields, h]
  rfl

theorem strictYear_yearText {y : ℤ} (h : 0 ≤ y ∧ y ≤ 9999) (rest : List Char) :
    strictYear (yearText y ++ rest) = some (y, rest) := by
  have hn : y.toNat < 10 ^ 4 := by omega
  have hcast : ((y.toNat : ℕ) : ℤ) = y := Int.toNat_of_nonneg h.1
  rw [yearText, if_pos h, strictYear, scan_numeral (by omega) (by omega) hn, Option.map_some, hcast]

theorem strictYear_yearText_eq_none {y : ℤ} (h : ¬(0 ≤ y ∧ y ≤ 9999)) (rest : List Char) :
    strictYear (yearText y ++ rest) = none := by
  rw [yearText, if_neg h, strictYear, List.cons_append]
  split_ifs
  · rw [scan_eq_none_of_head (by decide), Option.map_none]
  · rw [scan_eq_none_of_head (by decide), Option.map_none]

/-- Text that begins with a digit has its year read as the strict reader does. -/
theorem relaxedYear_of_digit {c : Char} {d : ℕ} (hc : digitVal 10 c = some d)
    (rest : List Char) : relaxedYear (c :: rest) = strictYear (c :: rest) := by
  unfold relaxedYear
  split
  · rename_i heq
    rw [(List.cons.inj heq).1] at hc
    exact absurd (hc.symm.trans (by decide : _ = none)) (by simp)
  · rename_i heq
    rw [(List.cons.inj heq).1] at hc
    exact absurd (hc.symm.trans (by decide : _ = none)) (by simp)
  · rfl

theorem relaxedYear_yearText (y : ℤ) (rest : List Char) :
    relaxedYear (yearText y ++ '-' :: rest) = some (y, '-' :: rest) := by
  have hdash : digitVal 10 '-' = none := by decide
  by_cases h : 0 ≤ y ∧ y ≤ 9999
  · have hn : y.toNat < 10 ^ (3 + 1) := by omega
    have hval : digitVal 10 (Nat.digitChar (y.toNat / 10 ^ 3)) = some (y.toNat / 10 ^ 3) :=
      digitVal_digitChar (by omega) (leading_lt (by omega) hn)
    rw [← strictYear_yearText h, yearText, if_pos h, numeral_succ (by omega) hn, List.cons_append,
      relaxedYear_of_digit hval]
  · rw [yearText, if_neg h]
    split_ifs with hpos
    · simp only [List.cons_append, relaxedYear]
      rw [scanAll_padded (by omega) (by omega) hdash]
      simp only [Option.some.injEq, Prod.mk.injEq, and_true]
      omega
    · simp only [List.cons_append, relaxedYear]
      rw [scanAll_padded (by omega) (by omega) hdash]
      simp only [Option.some.injEq, Prod.mk.injEq, and_true]
      omega

/-- **The strict reader inverts the writer on four-digit years.** -/
theorem parseFromRfc3339_toRfc3339 {t : DateTime} (h : t.FourDigitYear) :
    parseFromRfc3339 (toRfc3339 t) = some t := by
  rw [parseFromRfc3339, toRfc3339, String.toList_ofList]
  exact parse_isoText t (fun rest => strictYear_yearText h _) (by decide) (by decide) (by decide)

/-- It also reads the writer of JSON, on those. -/
theorem parseFromRfc3339_toJsonText {t : DateTime} (h : t.FourDigitYear) :
    parseFromRfc3339 (toJsonText t) = some t := by
  rw [parseFromRfc3339, toJsonText, String.toList_ofList]
  exact parse_isoText t (fun rest => strictYear_yearText h _) (by decide) (by decide) (by decide)

/-- **The strict reader refuses every other year**: the writer puts a sign where
it expects a digit. -/
theorem parseFromRfc3339_toRfc3339_eq_none {t : DateTime} (h : ¬t.FourDigitYear) :
    parseFromRfc3339 (toRfc3339 t) = none := by
  rw [parseFromRfc3339, toRfc3339, String.toList_ofList]
  exact parse_eq_none (strictYear_yearText_eq_none h _)

/-- A written instant is readable exactly when its year has four digits. -/
theorem isSome_parseFromRfc3339 {t : DateTime} :
    (parseFromRfc3339 (toRfc3339 t)).isSome ↔ t.FourDigitYear := by
  by_cases h : t.FourDigitYear
  · simp [parseFromRfc3339_toRfc3339 h, h]
  · simp [parseFromRfc3339_toRfc3339_eq_none h, h]

/-- **The reader of JSON inverts its writer on every instant.** -/
theorem fromStr_toJsonText (t : DateTime) : fromStr (toJsonText t) = some t := by
  rw [fromStr, toJsonText, String.toList_ofList]
  exact parse_isoText t (fun rest => relaxedYear_yearText _ rest) (by decide) (by decide)
    (by decide)

end RoundTrip

end Rfc3339
