import Agentd.Foundations.Numeral

/-!
# UUIDs and their text

A UUID as the five groups of its hyphenated form, the text it prints as
(`Uuid.toText`) and the reader of the `uuid` crate (`Uuid.parseStr`), which takes
the hyphenated form bare, in braces or as a URN, and the form without hyphens.
`Uuid.parseStr_toText` says that printed text reads back, so
`Uuid.toText_injective`: a column that holds printed UUIDs identifies them.

The reader accepts more texts than the printer makes, in upper case as well as in lower case. An id
that came in through one of the other forms is stored in the printed form, and this is why ids are
compared as texts without harm wherever the program has printed them itself.
-/

open Numeral

/-- A UUID, by the groups of its hyphenated form. -/
structure Uuid where
  timeLow : Fin (16 ^ 8)
  timeMid : Fin (16 ^ 4)
  timeHigh : Fin (16 ^ 4)
  clockSeq : Fin (16 ^ 4)
  node : Fin (16 ^ 12)
deriving DecidableEq

namespace Uuid

/-- The UUID that is a number in its first group and zero in the others. -/
def ofTimeLow (n : ℕ) : Uuid :=
  ⟨Fin.ofNat _ n, 0, 0, 0, 0⟩

/-- The hyphenated lower-case form, as characters. -/
def chars (u : Uuid) : List Char :=
  numeral 16 8 u.timeLow ++ '-' :: (numeral 16 4 u.timeMid ++ '-' :: (numeral 16 4 u.timeHigh ++
    '-' :: (numeral 16 4 u.clockSeq ++ '-' :: numeral 16 12 u.node)))

/-- `Uuid::to_string`. -/
def toText (u : Uuid) : String :=
  String.ofList u.chars

/-- One group of `k` hexadecimal digits. -/
def group (k : ℕ) (s : List Char) : Option (Fin (16 ^ k) × List Char) :=
  (scan 16 k s).bind fun p => if h : p.1 < 16 ^ k then some (⟨p.1, h⟩, p.2) else none

/-- Consume a hyphen. -/
def hyphen : List Char → Option (List Char)
  | '-' :: s => some s
  | _ => none

/-- The five groups, with `sep` between them, to the end of the text. -/
def groups (sep : List Char → Option (List Char)) (s : List Char) : Option Uuid := do
  let (timeLow, s) ← group 8 s
  let s ← sep s
  let (timeMid, s) ← group 4 s
  let s ← sep s
  let (timeHigh, s) ← group 4 s
  let s ← sep s
  let (clockSeq, s) ← group 4 s
  let s ← sep s
  let (node, s) ← group 12 s
  if s = [] then some ⟨timeLow, timeMid, timeHigh, clockSeq, node⟩ else none

/-- The text between a pair of braces. -/
def unbrace : List Char → Option (List Char)
  | '{' :: s => if s.getLast? = some '}' then some s.dropLast else none
  | _ => none

/-- The text after the prefix of a URN. -/
def unurn : List Char → Option (List Char)
  | 'u' :: 'r' :: 'n' :: ':' :: 'u' :: 'u' :: 'i' :: 'd' :: ':' :: s => some s
  | _ => none

/-- `Uuid::parse_str`: the length of the text says which of the forms it is. -/
def parseStr (s : String) : Option Uuid :=
  match s.toList.length with
  | 32 => groups some s.toList
  | 36 => groups hyphen s.toList
  | 38 => (unbrace s.toList).bind (groups hyphen)
  | 45 => (unurn s.toList).bind (groups hyphen)
  | _ => none

/-! ### Printed text reads back

The printed form is one of those the reader takes. So printing is injective, and ids can be compared
as texts. -/

theorem group_numeral {k : ℕ} (n : Fin (16 ^ k)) (rest : List Char) :
    group k (numeral 16 k n ++ rest) = some (n, rest) := by
  rw [group, scan_numeral (by omega) (by omega) n.isLt, Option.bind_some]
  exact dif_pos n.isLt

theorem length_chars (u : Uuid) : u.chars.length = 36 := by
  simp [chars]

theorem groups_chars (u : Uuid) : groups hyphen u.chars = some u := by
  have hnode : group 12 (numeral 16 12 u.node) = some (u.node, []) := by
    simpa using group_numeral u.node []
  rw [groups, chars]
  simp only [Option.bind_eq_bind, group_numeral, hnode, Option.bind_some, hyphen, if_true]

/-- **A printed UUID reads back.** -/
theorem parseStr_toText (u : Uuid) : parseStr u.toText = some u := by
  rw [parseStr, toText, String.toList_ofList, length_chars]
  exact groups_chars u

/-- **Printed text identifies a UUID.** -/
theorem toText_injective : Function.Injective toText := by
  intro u v h
  have hu := parseStr_toText u
  rw [h, parseStr_toText v] at hu
  exact (Option.some.inj hu).symm

@[simp] theorem toText_inj {u v : Uuid} : u.toText = v.toText ↔ u = v :=
  toText_injective.eq_iff

end Uuid
