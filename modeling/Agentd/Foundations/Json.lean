import Mathlib.Algebra.Group.Nat.Defs
import Mathlib.Data.Option.Basic
import Mathlib.Tactic.SplitIfs

/-!
# JSON values

JSON as a program sees it after parsing: `Json.Value`, with the accessors of
`serde_json` (`get`, `as_str`, `as_u64`, `as_f64`). Numbers keep the three
representations that library gives them, since the accessors tell them apart: a
non-negative integer is a `u64`, a negative one an `i64`, everything else a finite
double.

Doubles are their bit patterns. The only operation on them is the conversion of an
integer, which rounds to nearest with ties to even (`Json.F64.ofNat`).
-/

namespace Json

/-! ### Doubles -/

/-- A double, as its IEEE 754 bit pattern. -/
structure F64 where
  bits : BitVec 64
deriving DecidableEq

namespace F64

/-- Neither an infinity nor a NaN: the exponent is not all ones. -/
def IsFinite (x : F64) : Prop :=
  x.bits.toNat / 2 ^ 52 % 2 ^ 11 ≠ 2047

instance (x : F64) : Decidable x.IsFinite :=
  inferInstanceAs (Decidable (_ ≠ _))

/-- No number: the exponent is all ones and the fraction is not zero. -/
def IsNaN (x : F64) : Prop :=
  ¬x.IsFinite ∧ x.bits.toNat % 2 ^ 52 ≠ 0

instance (x : F64) : Decidable x.IsNaN :=
  inferInstanceAs (Decidable (_ ∧ _))

/-- The double nearest to a natural number, ties to even. -/
def ofNat (n : ℕ) : F64 :=
  if n = 0 then ⟨0⟩
  else
    let e := Nat.log2 n
    if e ≤ 52 then ⟨BitVec.ofNat 64 ((e + 1023) * 2 ^ 52 + (n * 2 ^ (52 - e) - 2 ^ 52))⟩
    else
      let unit := 2 ^ (e - 52)
      let q := n / unit
      let r := n % unit
      -- a significand rounded up to `2 ^ 53` carries into the exponent
      let m := if unit < 2 * r ∨ (2 * r = unit ∧ q % 2 = 1) then q + 1 else q
      ⟨BitVec.ofNat 64 ((e + 1023) * 2 ^ 52 + (m - 2 ^ 52))⟩

/-- The double with the sign bit set. -/
def neg (x : F64) : F64 :=
  ⟨x.bits ||| BitVec.ofNat 64 (2 ^ 63)⟩

/-- Below the bit pattern of infinity. -/
theorem isFinite_of_lt {x : F64} (h : x.bits.toNat < 2047 * 2 ^ 52) : x.IsFinite := by
  unfold IsFinite
  omega

/-- A natural number that fits a `u64` is far from infinity. -/
theorem bits_ofNat_lt {n : ℕ} (hn : n < 2 ^ 64) : (ofNat n).bits.toNat < 2047 * 2 ^ 52 := by
  unfold ofNat
  split_ifs with hzero
  · decide
  · have hlog : n < 2 ^ (Nat.log2 n + 1) := Nat.lt_log2_self
    have hlog' : Nat.log2 n < 64 := (Nat.log2_lt hzero).mpr hn
    -- a significand has 53 bits, whether the number is shifted up or down to it
    have hup (he : Nat.log2 n ≤ 52) : n * 2 ^ (52 - Nat.log2 n) < 2 ^ 53 := by
      have hpow : 2 ^ (Nat.log2 n + 1) * 2 ^ (52 - Nat.log2 n) = 2 ^ 53 := by
        rw [← Nat.pow_add]
        congr 1
        omega
      exact hpow ▸ Nat.mul_lt_mul_of_pos_right hlog (Nat.two_pow_pos _)
    have hdown (he : ¬Nat.log2 n ≤ 52) : n / 2 ^ (Nat.log2 n - 52) < 2 ^ 53 := by
      have hpow : 2 ^ (Nat.log2 n + 1) = 2 ^ (Nat.log2 n - 52) * 2 ^ 53 := by
        rw [← Nat.pow_add]
        congr 1
        omega
      exact Nat.div_lt_of_lt_mul (hpow ▸ hlog)
    dsimp only
    split_ifs with he hround
    · have hm := hup he
      rw [BitVec.toNat_ofNat]
      exact Nat.lt_of_le_of_lt (Nat.mod_le _ _) (by omega)
    · have hm := hdown he
      rw [BitVec.toNat_ofNat]
      exact Nat.lt_of_le_of_lt (Nat.mod_le _ _) (by omega)
    · have hm := hdown he
      rw [BitVec.toNat_ofNat]
      exact Nat.lt_of_le_of_lt (Nat.mod_le _ _) (by omega)

theorem isFinite_ofNat {n : ℕ} (hn : n < 2 ^ 64) : (ofNat n).IsFinite :=
  isFinite_of_lt (bits_ofNat_lt hn)

theorem isFinite_neg {x : F64} (h : x.bits.toNat < 2047 * 2 ^ 52) : x.neg.IsFinite := by
  have hbits : x.neg.bits.toNat = 2 ^ 63 + x.bits.toNat := by
    have hor := Nat.two_pow_add_eq_or_of_lt (i := 63) (show x.bits.toNat < 2 ^ 63 by omega) 1
    rw [Nat.mul_one] at hor
    rw [hor, Nat.or_comm]
    exact BitVec.toNat_or _ _
  unfold IsFinite
  rw [hbits]
  omega

end F64

/-! ### Values -/

/-- A JSON number. -/
inductive Number
  /-- A non-negative integer, a `u64`. -/
  | posInt (n : UInt64)
  /-- A negative integer that fits an `i64`: `-(n + 1)`. -/
  | negInt (n : ℕ) (h : n < 2 ^ 63)
  /-- Any other number. -/
  | float (x : F64) (h : x.IsFinite)
deriving DecidableEq

/-- A JSON value. The keys of an object are distinct. -/
inductive Value
  | null
  | bool (b : Bool)
  | number (n : Number)
  | string (s : String)
  | array (items : List Value)
  | object (fields : List (String × Value))

namespace Value

/-- `Value::get` with a key: `none` on anything but an object. -/
def get (v : Value) (key : String) : Option Value :=
  match v with
  | object fields => (fields.find? fun f => f.1 = key).map Prod.snd
  | _ => none

/-- `Value::as_str`. -/
def asStr : Value → Option String
  | string s => some s
  | _ => none

/-- `Value::as_array`. -/
def asArray : Value → Option (List Value)
  | array items => some items
  | _ => none

/-- `Value::as_u64`: negative integers and doubles are not converted. -/
def asU64 : Value → Option UInt64
  | number (.posInt n) => some n
  | _ => none

/-- `Value::as_f64`: every number is converted. -/
def asF64 : Value → Option F64
  | number (.posInt n) => some (F64.ofNat n.toNat)
  | number (.negInt n _) => some (F64.ofNat (n + 1)).neg
  | number (.float x _) => some x
  | _ => none

/-- The string under a key, `v.get(key).and_then(Value::as_str)`. -/
def getStr (v : Value) (key : String) : Option String :=
  (v.get key).bind asStr

/-- `Value::from` of a `u64`. -/
def ofU64 (n : UInt64) : Value :=
  number (.posInt n)

/-- `Value::from` of an `f64`: JSON has no infinities and no NaN. -/
def ofF64 (x : F64) : Value :=
  if h : x.IsFinite then number (.float x h) else null

@[simp] theorem asU64_ofU64 (n : UInt64) : (ofU64 n).asU64 = some n :=
  rfl

@[simp] theorem asF64_ofF64 {x : F64} (h : x.IsFinite) : (ofF64 x).asF64 = some x := by
  rw [ofF64, dif_pos h, asF64]

@[simp] theorem asStr_string (s : String) : (string s).asStr = some s :=
  rfl

/-- A number read from JSON is finite. -/
theorem isFinite_of_asF64 {v : Value} {x : F64} (h : v.asF64 = some x) : x.IsFinite := by
  unfold asF64 at h
  split at h
  · rw [← Option.some.inj h]
    exact F64.isFinite_ofNat (UInt64.toNat_lt _)
  · rename_i n hn
    rw [← Option.some.inj h]
    exact F64.isFinite_neg (F64.bits_ofNat_lt (by omega))
  · rename_i hx
    rw [← Option.some.inj h]
    exact hx
  · cases h

/-! ### Objects with optional fields -/

/-- An object of the fields that have a value. -/
def objectOf (fields : List (String × Option Value)) : Value :=
  object (fields.filterMap fun f => f.2.map fun x => (f.1, x))

/-- An optional field read back: absent and `null` are both no value. -/
def getOpt {α : Type} (v : Value) (key : String) (decode : Value → Option α) :
    Option (Option α) :=
  match v.get key with
  | none | some null => some none
  | some x => (decode x).map some

/-- **A field of an object is looked up as in the list of fields it was built
from**, when their keys are distinct. -/
theorem get_objectOf {fields : List (String × Option Value)} (h : (fields.map Prod.fst).Nodup)
    (key : String) :
    (objectOf fields).get key = (fields.find? fun f => f.1 = key).bind Prod.snd := by
  simp only [objectOf, get]
  induction fields with
  | nil => rfl
  | cons f fields ih =>
    obtain ⟨k, v⟩ := f
    rw [List.map_cons, List.nodup_cons] at h
    have ih := ih h.2
    by_cases hk : k = key
    · subst hk
      cases v with
      | some x => simp
      | none =>
        -- no later field has the key of the one that was left out
        have hnone : (fields.find? fun f => f.1 = k) = none := by
          rw [List.find?_eq_none]
          intro f hf
          simp only [decide_eq_true_eq]
          exact fun heq => h.1 (List.mem_map.mpr ⟨f, hf, heq⟩)
        rw [hnone] at ih
        simpa using ih
    · cases v with
      | some x => simpa [List.find?_cons, hk] using ih
      | none => simpa [List.find?_cons, hk] using ih

theorem getStr_of_get {v : Value} {key s : String} (h : v.get key = some (string s)) :
    v.getStr key = some s := by
  rw [getStr, h, Option.bind_some, asStr_string]

/-- An optional field whose values are written by `f`, never as `null`, and read
back by `decode`. -/
theorem getOpt_of_get {α : Type} {v : Value} {key : String} {decode : Value → Option α}
    {x : Option α} {f : α → Value} (h : v.get key = x.map f) (hnull : ∀ a, f a ≠ null)
    (hdecode : ∀ a, decode (f a) = some a) : v.getOpt key decode = some x := by
  unfold getOpt
  rw [h]
  cases x with
  | none => rfl
  | some a =>
    rw [Option.map_some]
    split
    · rename_i heq
      exact absurd heq (by simp)
    · rename_i heq
      exact absurd (Option.some.inj heq) (hnull a)
    · rename_i y _ heq
      rw [← Option.some.inj heq, hdecode, Option.map_some]

end Value

end Json
