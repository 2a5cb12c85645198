import Mathlib.Data.Nat.Log
import Mathlib.Tactic.Linarith

/-!
# Fixed-width numerals

Text formats that print a number in a fixed number of digits (dates, clock times,
hexadecimal identifiers) all read back the same way: take that many characters,
each of them a digit of the base. This file prints such numerals
(`Numeral.numeral`), scans them (`Numeral.scan`) and proves the one fact every
format needs, `Numeral.scan_numeral`: scanning a printed numeral returns the
number and leaves the rest of the text alone.

Bases up to sixteen are covered, with lower-case letters printed and letters of
either case read. `Numeral.scanAll` is the scanner of the formats whose numerals have no
fixed width and end at the first character that is not a digit.
-/

namespace Numeral

/-! ### Digits

A digit is read in any base up to sixteen, in either case, and is written in lower case. -/

/-- The value of a character as a hexadecimal digit. -/
def hexVal (c : Char) : Option ℕ :=
  if '0' ≤ c ∧ c ≤ '9' then some (c.toNat - '0'.toNat)
  else if 'a' ≤ c ∧ c ≤ 'f' then some (c.toNat - 'a'.toNat + 10)
  else if 'A' ≤ c ∧ c ≤ 'F' then some (c.toNat - 'A'.toNat + 10)
  else none

/-- The value of a character as a digit of base `b`. -/
def digitVal (b : ℕ) (c : Char) : Option ℕ :=
  (hexVal c).filter (· < b)

theorem hexVal_digitChar : ∀ d : Fin 16, hexVal (Nat.digitChar d) = some (d : ℕ) := by
  decide

/-- A printed digit has the value it was printed from. -/
theorem digitVal_digitChar {b d : ℕ} (hb : b ≤ 16) (hd : d < b) :
    digitVal b (Nat.digitChar d) = some d := by
  have h : hexVal (Nat.digitChar d) = some d := hexVal_digitChar ⟨d, by omega⟩
  simp [digitVal, h, hd]

/-! ### Printing and scanning a fixed number of digits

The fields of dates and of ids have fixed widths, with leading zeros. A number that fits its width
is scanned as it was printed, with whatever follows left over. -/

/-- The last `k` digits of `n` in base `b`, most significant first. -/
def numeral (b : ℕ) : ℕ → ℕ → List Char
  | 0, _ => []
  | k + 1, n => Nat.digitChar (n / b ^ k % b) :: numeral b k (n % b ^ k)

/-- Scan exactly `k` digits of base `b`, continuing the number `acc`. -/
def scanFrom (b : ℕ) : ℕ → ℕ → List Char → Option (ℕ × List Char)
  | 0, acc, s => some (acc, s)
  | _ + 1, _, [] => none
  | k + 1, acc, c :: s => (digitVal b c).bind fun d => scanFrom b k (acc * b + d) s

/-- Scan exactly `k` digits of base `b`. -/
def scan (b k : ℕ) (s : List Char) : Option (ℕ × List Char) :=
  scanFrom b k 0 s

@[simp] theorem length_numeral (b k n : ℕ) : (numeral b k n).length = k := by
  induction k generalizing n with
  | zero => rfl
  | succ k ih => simp [numeral, ih]

/-- The leading digit of a number of `k + 1` digits. -/
theorem leading_lt {b k n : ℕ} (hb : 0 < b) (hn : n < b ^ (k + 1)) : n / b ^ k < b := by
  rw [Nat.div_lt_iff_lt_mul (Nat.pow_pos hb), mul_comm, ← pow_succ]
  exact hn

/-- Reading the leading digit and then the others continues the number read so
far. -/
theorem horner (b k n acc : ℕ) :
    (acc * b + n / b ^ k) * b ^ k + n % b ^ k = acc * b ^ (k + 1) + n := by
  have h := Nat.div_add_mod n (b ^ k)
  rw [pow_succ]
  linarith [mul_comm (b ^ k) (n / b ^ k), mul_assoc acc b (b ^ k), mul_comm b (b ^ k)]

/-- A numeral begins with the leading digit, which has its own value. -/
theorem numeral_succ {b k n : ℕ} (hb : 0 < b) (hn : n < b ^ (k + 1)) :
    numeral b (k + 1) n = Nat.digitChar (n / b ^ k) :: numeral b k (n % b ^ k) := by
  rw [numeral, Nat.mod_eq_of_lt (leading_lt hb hn)]

theorem scanFrom_numeral {b : ℕ} (hb : 0 < b) (hb' : b ≤ 16) (k : ℕ) :
    ∀ (n acc : ℕ) (rest : List Char), n < b ^ k →
      scanFrom b k acc (numeral b k n ++ rest) = some (acc * b ^ k + n, rest) := by
  induction k with
  | zero =>
    intro n acc rest hn
    have h0 : n = 0 := by simpa using hn
    simp [numeral, scanFrom, h0]
  | succ k ih =>
    intro n acc rest hn
    have hval := digitVal_digitChar hb' (leading_lt hb hn)
    simp only [numeral_succ hb hn, List.cons_append, scanFrom, hval, Option.bind_some]
    rw [ih _ _ rest (Nat.mod_lt n (Nat.pow_pos hb)), horner]

/-- **A printed numeral scans back to its number**, and the scan stops right after
it. -/
theorem scan_numeral {b k n : ℕ} (hb : 0 < b) (hb' : b ≤ 16) (hn : n < b ^ k)
    (rest : List Char) : scan b k (numeral b k n ++ rest) = some (n, rest) := by
  rw [scan, scanFrom_numeral hb hb' k n 0 rest hn, zero_mul, zero_add]

/-- A scan that begins at a character that is no digit fails. -/
theorem scan_eq_none_of_head {b k : ℕ} {c : Char} (hc : digitVal b c = none)
    (rest : List Char) : scan b (k + 1) (c :: rest) = none := by
  simp [scan, scanFrom, hc]

/-! ### Numerals of any width

A count is printed with as many digits as it needs, and scanned to the first character that is none.
-/

/-- The digits of `n` in base `b`, at least `w` of them. -/
def padded (b w n : ℕ) : List Char :=
  numeral b (max w (Nat.log b n + 1)) n

/-- Scan every digit there is, continuing the number `acc`. -/
def scanAll (b : ℕ) : ℕ → List Char → ℕ × List Char
  | acc, [] => (acc, [])
  | acc, c :: s => match digitVal b c with
      | some d => scanAll b (acc * b + d) s
      | none => (acc, c :: s)

theorem scanAll_of_scanFrom {b : ℕ} {rest : List Char}
    (hstop : ∀ acc, scanAll b acc rest = (acc, rest)) (k : ℕ) :
    ∀ (acc v : ℕ) (s : List Char), scanFrom b k acc s = some (v, rest) →
      scanAll b acc s = (v, rest) := by
  induction k with
  | zero =>
    intro acc v s h
    obtain ⟨rfl, rfl⟩ : acc = v ∧ s = rest := by simpa [scanFrom] using h
    exact hstop acc
  | succ k ih =>
    intro acc v s h
    cases s with
    | nil => simp [scanFrom] at h
    | cons c s =>
      cases hd : digitVal b c with
      | none => simp [scanFrom, hd] at h
      | some d =>
        simp only [scanFrom, hd, Option.bind_some] at h
        simp only [scanAll, hd]
        exact ih _ _ _ h

/-- A printed numeral of any width scans back, when the scan stops after it. -/
theorem scanAll_padded_append {b w n : ℕ} (hb : 1 < b) (hb' : b ≤ 16) {rest : List Char}
    (hstop : ∀ acc, scanAll b acc rest = (acc, rest)) :
    scanAll b 0 (padded b w n ++ rest) = (n, rest) := by
  have hn : n < b ^ max w (Nat.log b n + 1) :=
    (Nat.lt_pow_succ_log_self hb n).trans_le
      (Nat.pow_le_pow_right (by omega) (le_max_right _ _))
  refine scanAll_of_scanFrom hstop (max w (Nat.log b n + 1)) 0 n _ ?_
  exact scan_numeral (by omega) hb' hn rest

/-- **A printed numeral of any width scans back**, when what follows it does not
begin with a digit. -/
theorem scanAll_padded {b w n : ℕ} (hb : 1 < b) (hb' : b ≤ 16) {c : Char}
    (hc : digitVal b c = none) (rest : List Char) :
    scanAll b 0 (padded b w n ++ c :: rest) = (n, c :: rest) :=
  scanAll_padded_append hb hb' fun acc => by simp [scanAll, hc]

theorem scanAll_padded_nil {b w n : ℕ} (hb : 1 < b) (hb' : b ≤ 16) :
    scanAll b 0 (padded b w n) = (n, []) := by
  have h : scanAll b 0 (padded b w n ++ []) = (n, []) :=
    scanAll_padded_append hb hb' fun _ => rfl
  rwa [List.append_nil] at h

/-- A numeral is digits only. -/
theorem exists_digit_of_mem_numeral {b : ℕ} (hb : 0 < b) (k : ℕ) : ∀ {n : ℕ} {c : Char},
    c ∈ numeral b k n → ∃ d < b, c = Nat.digitChar d := by
  induction k with
  | zero => exact fun h => absurd h List.not_mem_nil
  | succ k ih =>
    intro n c h
    rcases List.mem_cons.mp h with rfl | hmem
    · exact ⟨_, Nat.mod_lt _ hb, rfl⟩
    · exact ih hmem

theorem padded_eq {b w n k : ℕ} (hw : w ≤ k + 1) (hlow : b ^ k ≤ n) (hhigh : n < b ^ (k + 1)) :
    padded b w n = numeral b (k + 1) n := by
  rw [padded, Nat.log_eq_of_pow_le_of_lt_pow hlow hhigh, max_eq_right hw]

/-- A scan of the first digits of a numeral leaves the others. -/
theorem scanFrom_prefix {b : ℕ} (hb : 0 < b) (hb' : b ≤ 16) (j : ℕ) (rest : List Char) (k : ℕ) :
    ∀ n acc : ℕ, ∃ v m, scanFrom b k acc (numeral b (k + j) n ++ rest) =
      some (v, numeral b j m ++ rest) := by
  induction k with
  | zero => exact fun n acc => ⟨acc, n, by rw [Nat.zero_add, scanFrom]⟩
  | succ k ih =>
    intro n acc
    have hval := digitVal_digitChar hb' (Nat.mod_lt (n / b ^ (k + j)) hb)
    obtain ⟨v, m, h⟩ := ih (n % b ^ (k + j)) (acc * b + n / b ^ (k + j) % b)
    refine ⟨v, m, ?_⟩
    rw [Nat.add_right_comm, numeral, List.cons_append, scanFrom, hval, Option.bind_some, h]

/-- A scan for fewer digits than a number has stops before a digit. -/
theorem scan_padded {b n k : ℕ} (hb : 1 < b) (hb' : b ≤ 16) (h : b ^ k ≤ n) (w : ℕ)
    (rest : List Char) : ∃ v d tail, d < b ∧
      scan b k (padded b w n ++ rest) = some (v, Nat.digitChar d :: tail) := by
  have hpos : 0 < b := by omega
  have hlog : k ≤ Nat.log b n := Nat.le_log_of_pow_le hb h
  obtain ⟨j, hj⟩ : ∃ j, max w (Nat.log b n + 1) = k + (j + 1) :=
    ⟨max w (Nat.log b n + 1) - k - 1, by omega⟩
  obtain ⟨v, m, hscan⟩ := scanFrom_prefix hpos hb' (j + 1) rest k n 0
  refine ⟨v, m / b ^ j % b, numeral b j (m % b ^ j) ++ rest, Nat.mod_lt _ hpos, ?_⟩
  rw [scan, padded, hj, hscan]
  rfl

/-! ### The order of text

Numerals of one width are in the order of their numbers, as texts. This is why times that are
written with fixed widths can be compared as texts. -/

theorem digitChar_lt_iff : ∀ d e : Fin 16, Nat.digitChar d < Nat.digitChar e ↔ d < e := by
  decide

theorem digitChar_inj : ∀ d e : Fin 16, Nat.digitChar d = Nat.digitChar e ↔ d = e := by
  decide

/-- Numbers compare as their quotients do, and then their remainders. -/
theorem lt_iff_div_mod (p m n : ℕ) :
    m < n ↔ m / p < n / p ∨ m / p = n / p ∧ m % p < n % p := by
  have hm := Nat.div_add_mod m p
  have hn := Nat.div_add_mod n p
  rcases lt_trichotomy (m / p) (n / p) with h | h | h
  · exact iff_of_true (lt_of_not_ge fun hle => absurd (Nat.div_le_div_right hle) (not_le_of_gt h))
      (Or.inl h)
  · rw [h] at hm
    rw [or_iff_right (by omega), and_iff_right h]
    omega
  · refine iff_of_false (fun hlt => ?_) (by omega)
    exact absurd (Nat.div_le_div_right hlt.le) (not_le_of_gt h)

/-- **Numerals of one width are in the order of their numbers**, as text. -/
theorem numeral_append_lt_iff {b : ℕ} (hb : 0 < b) (hb' : b ≤ 16) (k : ℕ) :
    ∀ {m n : ℕ} (s t : List Char), m < b ^ k → n < b ^ k →
      (numeral b k m ++ s < numeral b k n ++ t ↔ m < n ∨ m = n ∧ s < t) := by
  induction k with
  | zero =>
    intro m n s t hm hn
    obtain rfl : m = 0 := by simpa using hm
    obtain rfl : n = 0 := by simpa using hn
    simp [numeral]
  | succ k ih =>
    intro m n s t hm hn
    have hpow : 0 < b ^ k := Nat.pow_pos hb
    have hdm := (leading_lt hb hm).trans_le hb'
    have hdn := (leading_lt hb hn).trans_le hb'
    have hlt := digitChar_lt_iff ⟨m / b ^ k, hdm⟩ ⟨n / b ^ k, hdn⟩
    have heq := digitChar_inj ⟨m / b ^ k, hdm⟩ ⟨n / b ^ k, hdn⟩
    rw [Fin.mk_lt_mk] at hlt
    rw [Fin.mk.injEq] at heq
    have hsame : m = n ↔ m / b ^ k = n / b ^ k ∧ m % b ^ k = n % b ^ k := by
      refine ⟨fun h => h ▸ ⟨rfl, rfl⟩, fun ⟨hd, hr⟩ => ?_⟩
      rw [← Nat.div_add_mod m (b ^ k), ← Nat.div_add_mod n (b ^ k), hd, hr]
    rw [numeral_succ hb hm, numeral_succ hb hn, List.cons_append, List.cons_append,
      List.cons_lt_cons_iff, hlt, heq, ih s t (Nat.mod_lt _ hpow) (Nat.mod_lt _ hpow),
      lt_iff_div_mod (b ^ k) m n, hsame, or_assoc, and_assoc, ← and_or_left]

end Numeral
