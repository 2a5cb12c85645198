import Agentd.Foundations.Json
import Agentd.Foundations.Numeral

/-!
# JSON as text

What a program relies on when it sends a value as text and another one parses it (`Json.JsonText`):
the text is on one line, and that of an object of moderate depth without fractions reads back, while
no part of it does (`Json.JsonText.Exact`). A number with a fraction need not read back, as a parser
may round it. The fields of an object come in the order of their keys, since that is how
`serde_json` keeps them (`Json.KeyBefore`).

`Json.JsonText.compact` is a printer and a parser of which this is true. The printer leaves
no blanks, as usual on a wire, and the parser knows no others than the printer leaves. Text that
goes on is parsed as before (`Json.readFields_append`), so that a first part of an object is none.
-/

namespace Json

open Numeral

/-! ### What is relied on

A way of writing JSON text is used through one property: what is written as a line is read back as
the value it was. That it is so takes more of a value than that it is one: a number with a fraction
may be read as another, a key may come twice, the nesting may be too deep, and keys come back in the
order of the map and not in that in which they were written. The values of the program that matter
are plain in this sense, which is a property of their shape, and can be checked. -/

/-- Text before text, by the code points. -/
def precedes : List Char → List Char → Bool
  | _, [] => false
  | [], _ :: _ => true
  | a :: s, b :: t => if a = b then precedes s t else decide (a.toNat < b.toNat)

/-- The order of the keys of an object, which is a `BTreeMap`. -/
def KeyBefore (key key' : String) : Prop :=
  precedes key.toList key'.toList = true

instance (key key' : String) : Decidable (KeyBefore key key') :=
  inferInstanceAs (Decidable (_ = true))

/-- No deeper than `n`, with no fractions in it, and with the keys in their order. -/
inductive Value.Plain : ℕ → Value → Prop
  | null (n : ℕ) : Plain n null
  | bool (n : ℕ) (b : Bool) : Plain n (bool b)
  | posInt (n : ℕ) (k : UInt64) : Plain n (number (.posInt k))
  | negInt (n k : ℕ) (h : k < 2 ^ 63) : Plain n (number (.negInt k h))
  | string (n : ℕ) (s : String) : Plain n (string s)
  | array (n : ℕ) (items : List Value) (h : ∀ v ∈ items, Plain n v) : Plain (n + 1) (array items)
  | object (n : ℕ) (fields : List (String × Value)) (h : ∀ f ∈ fields, Plain n f.2)
      (hkeys : (fields.map Prod.fst).Pairwise KeyBefore) : Plain (n + 1) (object fields)

/-- A value that is plain to some depth is plain to any greater one. -/
theorem Value.Plain.mono {n : ℕ} {v : Value} (h : v.Plain n) : ∀ {m : ℕ}, n ≤ m → v.Plain m := by
  induction h with
  | null n => exact fun _ => .null _
  | bool n b => exact fun _ => .bool _ b
  | posInt n k => exact fun _ => .posInt _ k
  | negInt n k hk => exact fun _ => .negInt _ k hk
  | string n s => exact fun _ => .string _ s
  | array n items _ ih =>
    intro m hm
    obtain ⟨m, rfl⟩ := Nat.exists_eq_add_of_le' (Nat.le_of_add_left_le hm)
    exact .array m items fun v hv => ih v hv (by omega)
  | object n fields _ hkeys ih =>
    intro m hm
    obtain ⟨m, rfl⟩ := Nat.exists_eq_add_of_le' (Nat.le_of_add_left_le hm)
    exact .object m fields (fun f hf => ih f hf (by omega)) hkeys

/-- The check of this. -/
def Value.isPlain : ℕ → Value → Bool
  | _, .null | _, .bool _ | _, .number (.posInt _) | _, .number (.negInt _ _) | _, .string _ => true
  | _, .number (.float _ _) => false
  | 0, .array _ | 0, .object _ => false
  | n + 1, .array items => items.all (isPlain n)
  | n + 1, .object fields =>
    fields.all (fun f => isPlain n f.2) && decide ((fields.map Prod.fst).Pairwise KeyBefore)

/-- The check is enough for it. -/
theorem Value.plain_of_isPlain {n : ℕ} : ∀ {v : Value}, v.isPlain n = true → v.Plain n := by
  induction n with
  | zero =>
    intro v h
    cases v with
    | null => exact .null 0
    | bool b => exact .bool 0 b
    | number x =>
      cases x with
      | posInt k => exact .posInt 0 k
      | negInt k hk => exact .negInt 0 k hk
      | float => cases h
    | string s => exact .string 0 s
    | array items => cases h
    | object fields => cases h
  | succ n ih =>
    intro v h
    cases v with
    | null => exact .null _
    | bool b => exact .bool _ b
    | number x =>
      cases x with
      | posInt k => exact .posInt _ k
      | negInt k hk => exact .negInt _ k hk
      | float => cases h
    | string s => exact .string _ s
    | array items => exact .array n items fun v hv => ih (List.all_eq_true.mp h v hv)
    | object fields =>
      obtain ⟨hfields, hkeys⟩ := Bool.and_eq_true_iff.mp h
      exact .object n fields (fun f hf => ih (List.all_eq_true.mp hfields f hf))
        (of_decide_eq_true hkeys)

/-- Text reads as the value, and no first part of it reads as any. -/
def Exact (fromStr : List Char → Option Value) (text : List Char) (v : Value) : Prop :=
  fromStr text = some v ∧ ∀ part, part <+: text → part ≠ text → fromStr part = none

/-- A printer and a parser of JSON. -/
structure JsonText where
  fromStr : List Char → Option Value
  text : Value → List Char
  newline_notMem : ∀ v, '\n' ∉ text v
  text_object : ∀ fields, ∃ s, text (.object fields) = '\x7b' :: (s ++ ['\x7d'])
  exact_object : ∀ fields, (Value.object fields).Plain 127 →
    Exact fromStr (text (.object fields)) (.object fields)

/-! ### The printer

`serde_json` escapes what has to be escaped and nothing else, writes no blanks, and writes the
fields in the order in which the map has them. A number with a fraction is written as it is and not
modelled further: nothing plain has one. -/

/-- A character in a string. -/
def escape (c : Char) : List Char :=
  if c = '"' ∨ c = '\\' then ['\\', c]
  else if c.toNat < 32 then '\\' :: 'u' :: numeral 16 4 c.toNat
  else [c]

/-- A string after the quotation mark that begins it. -/
def writeChars (s : List Char) : List Char :=
  s.flatMap escape ++ ['"']

/-- A comma, except before the first. -/
def comma (first : Bool) : List Char :=
  if first then [] else [',']

mutual

def write : Value → List Char
  | .null => "null".toList
  | .bool true => "true".toList
  | .bool false => "false".toList
  | .number (.posInt n) => padded 10 1 n.toNat
  | .number (.negInt n _) => '-' :: padded 10 1 (n + 1)
  -- fractions are beyond this printer
  | .number (.float _ _) => "0.0".toList
  | .string s => '"' :: writeChars s.toList
  | .array items => '[' :: writeItems true items
  | .object fields => '\x7b' :: writeFields true fields

/-- The rest of an array. -/
def writeItems : Bool → List Value → List Char
  | _, [] => [']']
  | first, v :: items => comma first ++ (write v ++ writeItems false items)

/-- The rest of an object. -/
def writeFields : Bool → List (String × Value) → List Char
  | _, [] => ['\x7d']
  | first, (key, v) :: fields =>
    comma first ++ '"' :: (writeChars key.toList ++ ':' :: (write v ++ writeFields false fields))

end

/-! ### The parser

A parser by recursive descent, for text as the printer writes it, without blanks and without
fractions. As each call may take up no more than the text that is left, the number of characters
bounds the recursion, which is structural in it. -/

/-- This character comes next. -/
def expect (c : Char) : List Char → Option (List Char)
  | [] => none
  | a :: s => if a = c then some s else none

/-- This word comes next. -/
def expectAll : List Char → List Char → Option (List Char)
  | [], s => some s
  | c :: word, s => (expect c s).bind (expectAll word)

/-- A comma comes next, except before the first. -/
def skipComma (first : Bool) (s : List Char) : Option (List Char) :=
  expectAll (comma first) s

/-- A character of a string, after a backslash. -/
def escaped : List Char → Option (Char × List Char)
  | [] => none
  | c :: s =>
    if c = '"' ∨ c = '\\' then some (c, s)
    else if c = 'u' then (scan 16 4 s).map fun r => (Char.ofNat r.1, r.2)
    else none

/-- The next character of a string. -/
def unescape : List Char → Option (Char × List Char)
  | [] => none
  | c :: s =>
    if c = '\\' then escaped s
    else if c = '"' ∨ c.toNat < 32 then none
    else some (c, s)

/-- A string after its quotation mark, and what follows it. -/
def readChars : ℕ → List Char → Option (List Char × List Char)
  | 0, _ => none
  | n + 1, s =>
    match expect '"' s with
    | some s => some ([], s)
    | none => do
      let (c, s) ← unescape s
      let (cs, s) ← readChars n s
      some (c :: cs, s)

/-- An integer that is not negative. -/
def readNumber (s : List Char) : Option (Value × List Char) :=
  let (k, rest) := scanAll 10 0 s
  if k < 2 ^ 64 then some (.ofU64 (.ofNat k), rest) else none

/-- A negative integer after its sign. -/
def readNegative (s : List Char) : Option (Value × List Char) :=
  let (k, rest) := scanAll 10 0 s
  if h : k - 1 < 2 ^ 63 then some (.number (.negInt (k - 1) h), rest) else none

mutual

def readValue : ℕ → List Char → Option (Value × List Char)
  | 0, _ => none
  | _ + 1, [] => none
  | n + 1, c :: s =>
    if c = 'n' then (expectAll "ull".toList s).map fun s => (.null, s)
    else if c = 't' then (expectAll "rue".toList s).map fun s => (.bool true, s)
    else if c = 'f' then (expectAll "alse".toList s).map fun s => (.bool false, s)
    else if c = '"' then (readChars n s).map fun r => (.string (String.ofList r.1), r.2)
    else if c = '[' then (readItems n true s).map fun r => (.array r.1, r.2)
    else if c = '\x7b' then (readFields n true s).map fun r => (.object r.1, r.2)
    else if c = '-' then readNegative s
    else if (digitVal 10 c).isSome then readNumber (c :: s)
    else none

def readItems : ℕ → Bool → List Char → Option (List Value × List Char)
  | 0, _, _ => none
  | n + 1, first, s =>
    match expect ']' s with
    | some s => some ([], s)
    | none => do
      let s ← skipComma first s
      let (v, s) ← readValue n s
      let (items, s) ← readItems n false s
      some (v :: items, s)

def readFields : ℕ → Bool → List Char → Option (List (String × Value) × List Char)
  | 0, _, _ => none
  | n + 1, first, s =>
    match expect '\x7d' s with
    | some s => some ([], s)
    | none => do
      let s ← skipComma first s
      let s ← expect '"' s
      let (key, s) ← readChars n s
      let s ← expect ':' s
      let (v, s) ← readValue n s
      let (fields, s) ← readFields n false s
      some ((String.ofList key, v) :: fields, s)

end

/-- The value that a text is, all of it. -/
def parseText (s : List Char) : Option Value :=
  match readValue s.length s with
  | some (v, []) => some v
  | _ => none

/-! ### Text that goes on

A parser that finds a value at the beginning of a text finds the same value when the text goes on,
with what was added left over. For a number this takes that a character follows already, since
digits that are added would be part of it. The proof is by induction on the fuel, for values, items
and fields at once (`GoesOn`). -/

section Append

variable {c : Char} {s rest u : List Char}

/-- A character that was found is found again. -/
theorem expect_append (h : expect c s = some rest) (u : List Char) :
    expect c (s ++ u) = some (rest ++ u) := by
  cases s with
  | nil => cases h
  | cons a s =>
    rw [expect] at h
    split_ifs at h with ha
    rw [List.cons_append, expect, if_pos ha, Option.some.inj h]

/-- One that was not found because another is there is not found either; only at the end of the text
could it still come. -/
theorem expect_append_eq_none (h : expect c s = none) (hs : s ≠ []) (u : List Char) :
    expect c (s ++ u) = none := by
  cases s with
  | nil => exact absurd rfl hs
  | cons a s =>
    rw [expect] at h
    split_ifs at h with ha
    rw [List.cons_append, expect, if_neg ha]

/-- So is a word. -/
theorem expectAll_append {word : List Char} (h : expectAll word s = some rest) (u : List Char) :
    expectAll word (s ++ u) = some (rest ++ u) := by
  induction word generalizing s with
  | nil => rw [expectAll, ← Option.some.inj h]
  | cons c word ih =>
    obtain ⟨t, ht, hrest⟩ := Option.bind_eq_some_iff.mp h
    rw [expectAll, expect_append ht, Option.bind_some]
    exact ih hrest

/-- So are a fixed number of digits. -/
theorem scanFrom_append {b k acc v : ℕ} (h : scanFrom b k acc s = some (v, rest)) (u : List Char) :
    scanFrom b k acc (s ++ u) = some (v, rest ++ u) := by
  induction k generalizing acc s with
  | zero =>
    obtain ⟨rfl, rfl⟩ := Prod.mk.inj (Option.some.inj h)
    rfl
  | succ k ih =>
    cases s with
    | nil => cases h
    | cons c s =>
      obtain ⟨d, hd, hrest⟩ := Option.bind_eq_some_iff.mp h
      rw [List.cons_append, scanFrom, hd, Option.bind_some]
      exact ih hrest

/-- So is what stands for an escaped character. -/
theorem escaped_append {a : Char} (h : escaped s = some (a, rest)) (u : List Char) :
    escaped (s ++ u) = some (a, rest ++ u) := by
  cases s with
  | nil => cases h
  | cons c s =>
    rw [escaped] at h
    rw [List.cons_append, escaped]
    split_ifs at h ⊢ with hplain hcode
    · obtain ⟨rfl, rfl⟩ := Prod.mk.inj (Option.some.inj h)
      rfl
    · obtain ⟨⟨v, t⟩, hscan, heq⟩ := Option.map_eq_some_iff.mp h
      obtain ⟨rfl, rfl⟩ := Prod.mk.inj heq
      rw [scan, scanFrom_append hscan, Option.map_some]

/-- So is a character of a string, escaped or not. -/
theorem unescape_append {a : Char} (h : unescape s = some (a, rest)) (u : List Char) :
    unescape (s ++ u) = some (a, rest ++ u) := by
  cases s with
  | nil => cases h
  | cons c s =>
    rw [unescape] at h
    rw [List.cons_append, unescape]
    split_ifs at h ⊢ with hback hquote
    · exact escaped_append h u
    · obtain ⟨rfl, rfl⟩ := Prod.mk.inj (Option.some.inj h)
      rfl

/-- So is a string, which its closing quote ends. -/
theorem readChars_append {n m : ℕ} (hm : n ≤ m) {cs : List Char}
    (h : readChars n s = some (cs, rest)) (u : List Char) :
    readChars m (s ++ u) = some (cs, rest ++ u) := by
  induction n generalizing m s cs with
  | zero => cases h
  | succ n ih =>
    obtain ⟨m, rfl⟩ := Nat.exists_eq_add_of_le' (Nat.le_of_add_left_le hm)
    rw [readChars] at h ⊢
    cases hend : expect '"' s with
    | some t =>
      rw [hend, Option.some.injEq, Prod.mk.injEq] at h
      rw [expect_append hend, h.1, h.2]
    | none =>
      rw [hend] at h
      obtain ⟨⟨a, t⟩, hchar, h⟩ := Option.bind_eq_some_iff.mp h
      obtain ⟨⟨as, t'⟩, hrest, h⟩ := Option.bind_eq_some_iff.mp h
      obtain ⟨rfl, rfl⟩ := Prod.mk.inj (Option.some.inj h)
      have hs : s ≠ [] := by
        rintro rfl
        cases hchar
      rw [expect_append_eq_none hend hs]
      simp only [Option.bind_eq_bind, unescape_append hchar, Option.bind_some,
        ih (by omega : n ≤ m) hrest]

/-- Digits are read as far as there are any, so that they have to be followed by something else. -/
theorem scanAll_append {b : ℕ} {a : Char} {acc v : ℕ} (h : scanAll b acc s = (v, a :: rest))
    (u : List Char) : scanAll b acc (s ++ u) = (v, a :: rest ++ u) := by
  induction s generalizing acc with
  | nil => cases h
  | cons c s ih =>
    rw [scanAll] at h
    rw [List.cons_append, scanAll]
    cases hd : digitVal b c with
    | some d =>
      rw [hd] at h
      exact ih h
    | none =>
      rw [hd, Prod.mk.injEq, List.cons.injEq] at h
      obtain ⟨rfl, rfl, rfl⟩ := h
      rfl

/-- A number that something follows is read the same when the text goes on. -/
theorem readNumber_append {a : Char} {v : Value} (h : readNumber s = some (v, a :: rest))
    (u : List Char) : readNumber (s ++ u) = some (v, a :: rest ++ u) := by
  unfold readNumber at h ⊢
  rcases hscan : scanAll 10 0 s with ⟨k, t⟩
  rw [hscan] at h
  dsimp only at h
  split_ifs at h with hk
  obtain ⟨rfl, rfl⟩ := Prod.mk.inj (Option.some.inj h)
  rw [scanAll_append hscan]
  exact if_pos hk

/-- A negative number is, too; its minus sign has been taken before. -/
theorem readNegative_append {a : Char} {v : Value} (h : readNegative s = some (v, a :: rest))
    (u : List Char) : readNegative (s ++ u) = some (v, a :: rest ++ u) := by
  unfold readNegative at h ⊢
  rcases hscan : scanAll 10 0 s with ⟨k, t⟩
  rw [hscan] at h
  dsimp only at h
  split_ifs at h with hk
  obtain ⟨rfl, rfl⟩ := Prod.mk.inj (Option.some.inj h)
  rw [scanAll_append hscan]
  exact dif_pos hk

end Append

/-- What `n` steps of the parser make of text, they and more make of it when it goes on: of the
rest of an array or an object, and of a value that something follows. -/
structure GoesOn (n : ℕ) : Prop where
  value : ∀ m ≥ n, ∀ s v a rest u, readValue n s = some (v, a :: rest) →
    readValue m (s ++ u) = some (v, a :: rest ++ u)
  items : ∀ m ≥ n, ∀ first s items rest u, readItems n first s = some (items, rest) →
    readItems m first (s ++ u) = some (items, rest ++ u)
  fields : ∀ m ≥ n, ∀ first s fields rest u, readFields n first s = some (fields, rest) →
    readFields m first (s ++ u) = some (fields, rest ++ u)

namespace GoesOn

variable {n : ℕ}

/-- Nothing is read from no text. -/
theorem ne_nil_of_readItems {first : Bool} {s rest : List Char} {items : List Value}
    (h : readItems n first s = some (items, rest)) : s ≠ [] := by
  rintro rfl
  cases n with
  | zero => cases h
  | succ n =>
    cases first
    · cases h
    · obtain ⟨r, hr, -⟩ := Option.bind_eq_some_iff.mp h
      cases n <;> cases hr

/-- Where fields are read something is there: at the least the brace that closes them. -/
theorem ne_nil_of_readFields {first : Bool} {s rest : List Char} {fields : List (String × Value)}
    (h : readFields n first s = some (fields, rest)) : s ≠ [] := by
  rintro rfl
  cases n with
  | zero => cases h
  | succ n => cases first <;> cases h

/-- One step of the induction, for a value: every branch of the parser goes on with what it has
found. -/
theorem readValue_succ (ih : GoesOn n) (m : ℕ) (hm : n ≤ m) (s : List Char) (v : Value) (a : Char)
    (rest u : List Char) (h : readValue (n + 1) s = some (v, a :: rest)) :
    readValue (m + 1) (s ++ u) = some (v, a :: rest ++ u) := by
  cases s with
  | nil => cases h
  | cons c s =>
    rw [readValue] at h
    rw [List.cons_append, readValue]
    have word {w : List Char} {x : Value}
        (hw : (expectAll w s).map (fun s => (x, s)) = some (v, a :: rest)) :
        (expectAll w (s ++ u)).map (fun s => (x, s)) = some (v, a :: rest ++ u) := by
      obtain ⟨t, ht, heq⟩ := Option.map_eq_some_iff.mp hw
      obtain ⟨rfl, rfl⟩ := Prod.mk.inj heq
      rw [expectAll_append ht, Option.map_some]
    split_ifs at h ⊢ with hnull htrue hfalse hstring harray hobject hminus hdigit
    · exact word h
    · exact word h
    · exact word h
    · obtain ⟨⟨cs, t⟩, hread, heq⟩ := Option.map_eq_some_iff.mp h
      obtain ⟨rfl, rfl⟩ := Prod.mk.inj heq
      rw [readChars_append hm hread, Option.map_some]
    · obtain ⟨⟨items, t⟩, hread, heq⟩ := Option.map_eq_some_iff.mp h
      obtain ⟨rfl, rfl⟩ := Prod.mk.inj heq
      rw [ih.items m hm _ _ _ _ u hread, Option.map_some]
    · obtain ⟨⟨fields, t⟩, hread, heq⟩ := Option.map_eq_some_iff.mp h
      obtain ⟨rfl, rfl⟩ := Prod.mk.inj heq
      rw [ih.fields m hm _ _ _ _ u hread, Option.map_some]
    · exact readNegative_append h u
    · exact readNumber_append h u

/-- For the items of an array: the bracket ends them, or a comma and a value come first. -/
theorem readItems_succ (ih : GoesOn n) (m : ℕ) (hm : n ≤ m) (first : Bool) (s : List Char)
    (items : List Value) (rest u : List Char)
    (h : readItems (n + 1) first s = some (items, rest)) :
    readItems (m + 1) first (s ++ u) = some (items, rest ++ u) := by
  have hs : s ≠ [] := ne_nil_of_readItems h
  rw [readItems] at h ⊢
  cases hend : expect ']' s with
  | some t =>
    rw [hend, Option.some.injEq, Prod.mk.injEq] at h
    rw [expect_append hend, h.1, h.2]
  | none =>
    rw [hend] at h
    obtain ⟨t₁, hcomma, h⟩ := Option.bind_eq_some_iff.mp h
    obtain ⟨⟨v, t₂⟩, hvalue, h⟩ := Option.bind_eq_some_iff.mp h
    obtain ⟨⟨vs, t₃⟩, hitems, h⟩ := Option.bind_eq_some_iff.mp h
    obtain ⟨rfl, rfl⟩ := Prod.mk.inj (Option.some.inj h)
    -- more items, or the end, follow the value
    obtain ⟨a, t₂', rfl⟩ := List.exists_cons_of_ne_nil (ne_nil_of_readItems hitems)
    rw [expect_append_eq_none hend hs]
    simp only [Option.bind_eq_bind, skipComma, expectAll_append hcomma, Option.bind_some,
      ih.value m hm _ _ _ _ u hvalue, ih.items m hm _ _ _ _ u hitems]

/-- For the fields of an object: the brace ends them, or a comma, a key, a colon and a value come
first. -/
theorem readFields_succ (ih : GoesOn n) (m : ℕ) (hm : n ≤ m) (first : Bool) (s : List Char)
    (fields : List (String × Value)) (rest u : List Char)
    (h : readFields (n + 1) first s = some (fields, rest)) :
    readFields (m + 1) first (s ++ u) = some (fields, rest ++ u) := by
  have hs : s ≠ [] := ne_nil_of_readFields h
  rw [readFields] at h ⊢
  cases hend : expect '\x7d' s with
  | some t =>
    rw [hend, Option.some.injEq, Prod.mk.injEq] at h
    rw [expect_append hend, h.1, h.2]
  | none =>
    rw [hend] at h
    obtain ⟨t₁, hcomma, h⟩ := Option.bind_eq_some_iff.mp h
    obtain ⟨t₂, hquote, h⟩ := Option.bind_eq_some_iff.mp h
    obtain ⟨⟨key, t₃⟩, hkey, h⟩ := Option.bind_eq_some_iff.mp h
    obtain ⟨t₄, hcolon, h⟩ := Option.bind_eq_some_iff.mp h
    obtain ⟨⟨v, t₅⟩, hvalue, h⟩ := Option.bind_eq_some_iff.mp h
    obtain ⟨⟨fs, t₆⟩, hfields, h⟩ := Option.bind_eq_some_iff.mp h
    obtain ⟨rfl, rfl⟩ := Prod.mk.inj (Option.some.inj h)
    obtain ⟨a, t₅', rfl⟩ := List.exists_cons_of_ne_nil (ne_nil_of_readFields hfields)
    rw [expect_append_eq_none hend hs]
    simp only [Option.bind_eq_bind, skipComma, expectAll_append hcomma, Option.bind_some,
      expect_append hquote, readChars_append hm hkey, expect_append hcolon,
      ih.value m hm _ _ _ _ u hvalue, ih.fields m hm _ _ _ _ u hfields]

end GoesOn

/-- **Text that goes on is parsed as before.** -/
theorem goesOn (n : ℕ) : GoesOn n := by
  induction n with
  | zero =>
    refine ⟨fun _ _ _ _ _ _ _ h => ?_, fun _ _ _ _ _ _ _ h => ?_, fun _ _ _ _ _ _ _ h => ?_⟩
    · cases h
    · cases h
    · cases h
  | succ n ih =>
    refine ⟨fun m hm => ?_, fun m hm => ?_, fun m hm => ?_⟩
    · obtain ⟨m, rfl⟩ := Nat.exists_eq_add_of_le' (Nat.le_of_add_left_le hm)
      exact ih.readValue_succ m (by omega)
    · obtain ⟨m, rfl⟩ := Nat.exists_eq_add_of_le' (Nat.le_of_add_left_le hm)
      exact ih.readItems_succ m (by omega)
    · obtain ⟨m, rfl⟩ := Nat.exists_eq_add_of_le' (Nat.le_of_add_left_le hm)
      exact ih.readFields_succ m (by omega)

/-! ### What is printed reads back

By induction on the value, with anything that may follow: the parser takes the text that was printed
and leaves what follows. A number is what makes this delicate, since it ends where the digits do;
what follows it in printed text is a comma, a bracket or a brace (`Follow`). -/

/-- The character that is expected is taken. -/
theorem expect_cons (c : Char) (s : List Char) : expect c (c :: s) = some s :=
  if_pos rfl

/-- Another one is not. -/
theorem expect_of_ne {a c : Char} (h : a ≠ c) (s : List Char) : expect c (a :: s) = none :=
  if_neg h

/-- A word is read back. -/
theorem expectAll_self (word s : List Char) : expectAll word (word ++ s) = some s := by
  induction word with
  | nil => rfl
  | cons c word ih => rw [List.cons_append, expectAll, expect_cons, Option.bind_some, ih]

/-- Nothing else begins with a digit. -/
theorem digitChar_notMem : ∀ d : Fin 10, Nat.digitChar d ∉ "ntf\"[\x7b-]".toList := by
  decide

/-- A digit is none of the characters by which the parser tells the kinds of values apart. -/
theorem digitChar_ne (d : Fin 10) {c : Char} (hc : c ∈ "ntf\"[\x7b-]".toList) :
    Nat.digitChar d ≠ c := by
  rintro rfl
  exact digitChar_notMem d hc

/-- A number that is written begins with a digit. -/
theorem padded_eq_cons (w n : ℕ) : ∃ (d : Fin 10) (s : List Char),
    padded 10 (w + 1) n = Nat.digitChar d :: s := by
  obtain ⟨k, hk⟩ : ∃ k, max (w + 1) (Nat.log 10 n + 1) = k + 1 :=
    ⟨max (w + 1) (Nat.log 10 n + 1) - 1, by omega⟩
  refine ⟨⟨n / 10 ^ k % 10, Nat.mod_lt _ (by decide)⟩, numeral 10 k (n % 10 ^ k), ?_⟩
  rw [padded, hk, numeral]

/-- What stands for a character in a string is not empty, and does not begin with the quote that
would end it. -/
theorem escape_eq_cons (c : Char) : ∃ a s, escape c = a :: s ∧ a ≠ '"' := by
  unfold escape
  split_ifs with hmark hcontrol
  · exact ⟨_, _, rfl, by decide⟩
  · exact ⟨_, _, rfl, by decide⟩
  · exact ⟨_, _, rfl, fun heq => hmark (Or.inl heq)⟩

/-- **A character is read back, however it was escaped.** -/
theorem unescape_escape (c : Char) (rest : List Char) :
    unescape (escape c ++ rest) = some (c, rest) := by
  unfold escape
  split_ifs with hmark hcontrol
  · rw [List.cons_append, unescape, if_pos rfl, List.cons_append, escaped, if_pos hmark,
      List.nil_append]
  · have hscan : scan 16 4 (numeral 16 4 c.toNat ++ rest) = some (c.toNat, rest) :=
      scan_numeral (by decide) (by decide) (by omega) rest
    rw [List.cons_append, unescape, if_pos rfl, List.cons_append, escaped, if_neg (by decide),
      if_pos rfl, hscan, Option.map_some, Char.ofNat_toNat]
  · rw [not_or] at hmark
    rw [List.cons_append, unescape, if_neg hmark.2,
      if_neg (not_or.mpr ⟨hmark.1, hcontrol⟩), List.nil_append]

/-- A string is written character by character. -/
theorem writeChars_cons (c : Char) (s : List Char) :
    writeChars (c :: s) = escape c ++ writeChars s := by
  simp [writeChars]

/-- **A string is read back**, by induction on its characters: each takes one round at the least. -/
theorem readChars_writeChars (s rest : List Char) {n : ℕ} (hn : (writeChars s).length ≤ n) :
    readChars n (writeChars s ++ rest) = some (s, rest) := by
  induction s generalizing n with
  | nil =>
    obtain ⟨n, rfl⟩ := Nat.exists_eq_add_of_le' (show 1 ≤ n from hn)
    rfl
  | cons c s ih =>
    obtain ⟨a, t, ha, hmark⟩ := escape_eq_cons c
    rw [writeChars_cons, ha, List.length_append, List.length_cons] at hn
    obtain ⟨n, rfl⟩ := Nat.exists_eq_add_of_le' (show 1 ≤ n by omega)
    have hnone : expect '"' (escape c ++ (writeChars s ++ rest)) = none := by
      rw [ha, List.cons_append, expect_of_ne hmark]
    rw [writeChars_cons, List.append_assoc, readChars, hnone]
    simp only [Option.bind_eq_bind, unescape_escape, Option.bind_some,
      ih (by omega : (writeChars s).length ≤ n)]

/-- What a value is followed by. -/
def Follow (c : Char) : Prop :=
  digitVal 10 c = none

instance (c : Char) : Decidable (Follow c) :=
  inferInstanceAs (Decidable (_ = _))

/-- A number that is not negative is read back when no digit follows. -/
theorem readNumber_padded {c : Char} (hc : Follow c) (n : UInt64) (rest : List Char) :
    readNumber (padded 10 1 n.toNat ++ c :: rest) = some (.number (.posInt n), c :: rest) := by
  rw [readNumber, scanAll_padded (by decide) (by decide) hc]
  dsimp only
  rw [if_pos n.toNat_lt, Value.ofU64, UInt64.ofNat_toNat]

/-- A negative one is too; it is stored as the number below its absolute value. -/
theorem readNegative_padded {c : Char} (hc : Follow c) {n : ℕ} (hn : n < 2 ^ 63)
    (rest : List Char) : readNegative (padded 10 1 (n + 1) ++ c :: rest) =
      some (.number (.negInt n hn), c :: rest) := by
  rw [readNegative, scanAll_padded (by decide) (by decide) hc]
  exact dif_pos hn

/-- No value is written as something that could be taken for the end of an array. -/
theorem write_eq_cons (v : Value) : ∃ c s, write v = c :: s ∧ c ≠ ']' := by
  cases v with
  | null => exact ⟨_, _, by rw [write]; rfl, by decide⟩
  | bool b => cases b <;> exact ⟨_, _, by rw [write]; rfl, by decide⟩
  | number n =>
    cases n with
    | posInt n =>
      obtain ⟨d, s, hs⟩ := padded_eq_cons 0 n.toNat
      exact ⟨_, _, by rw [write, hs], digitChar_ne d (by decide)⟩
    | negInt n h => exact ⟨_, _, by rw [write], by decide⟩
    | float x h => exact ⟨_, _, by rw [write]; rfl, by decide⟩
  | string s => exact ⟨_, _, by rw [write], by decide⟩
  | array items => exact ⟨_, _, by rw [write], by decide⟩
  | object fields => exact ⟨_, _, by rw [write], by decide⟩

/-- What is printed for the value reads back, before anything that may follow it. -/
def Back (v : Value) : Prop :=
  ∀ c rest n, Follow c → (write v).length ≤ n → readValue n (write v ++ c :: rest) =
    some (v, c :: rest)

/-- The comma before all items but the first is read back. -/
theorem skipComma_comma (first : Bool) (s : List Char) :
    skipComma first (comma first ++ s) = some s :=
  expectAll_self (comma first) s

/-- A comma may follow a number, as it does between the items of an array. -/
theorem follow_comma : Follow ',' := by
  decide

/-- What comes after an item begins with a comma or ends the array. -/
theorem writeItems_eq_cons (items : List Value) :
    ∃ c s, writeItems false items = c :: s ∧ Follow c := by
  cases items with
  | nil => exact ⟨']', [], by rw [writeItems], by decide⟩
  | cons v items => exact ⟨',', _, by rw [writeItems]; rfl, follow_comma⟩

/-- What closes an object, or goes on with it, may follow a number as well. -/
theorem writeFields_eq_cons (fields : List (String × Value)) :
    ∃ c s, writeFields false fields = c :: s ∧ Follow c := by
  cases fields with
  | nil => exact ⟨'\x7d', [], by rw [writeFields], by decide⟩
  | cons f fields => exact ⟨',', _, by rw [writeFields]; rfl, follow_comma⟩

/-- The items of an array are read back when each of them is. -/
theorem readItems_writeItems {items : List Value} (h : ∀ v ∈ items, Back v) (first : Bool)
    (rest : List Char) {n : ℕ} (hn : (writeItems first items).length ≤ n) :
    readItems n first (writeItems first items ++ rest) = some (items, rest) := by
  induction items generalizing first n with
  | nil =>
    rw [writeItems] at hn ⊢
    obtain ⟨n, rfl⟩ := Nat.exists_eq_add_of_le' (show 1 ≤ n from hn)
    rfl
  | cons v items ih =>
    rw [List.forall_mem_cons] at h
    obtain ⟨a, t, ha, hne⟩ := write_eq_cons v
    obtain ⟨c, t', hc, hfollow⟩ := writeItems_eq_cons items
    rw [writeItems, List.length_append, List.length_append] at hn
    have hlen : (writeItems false items).length = t'.length + 1 := by rw [hc, List.length_cons]
    have hpos : (write v).length = t.length + 1 := by rw [ha, List.length_cons]
    obtain ⟨n, rfl⟩ := Nat.exists_eq_add_of_le' (show 1 ≤ n by omega)
    have hend : expect ']' (writeItems first (v :: items) ++ rest) = none := by
      rw [writeItems, ha]
      cases first
      · rfl
      · exact expect_of_ne hne _
    have hvalue : readValue n (write v ++ (writeItems false items ++ rest)) =
        some (v, writeItems false items ++ rest) := by
      rw [hc, List.cons_append]
      exact h.1 c _ n hfollow (by omega)
    rw [readItems, hend, writeItems]
    simp only [Option.bind_eq_bind, List.append_assoc, skipComma_comma, Option.bind_some, hvalue,
      ih h.2 false (by omega : (writeItems false items).length ≤ n)]

/-- The fields of an object are, likewise. -/
theorem readFields_writeFields {fields : List (String × Value)} (h : ∀ f ∈ fields, Back f.2)
    (first : Bool) (rest : List Char) {n : ℕ} (hn : (writeFields first fields).length ≤ n) :
    readFields n first (writeFields first fields ++ rest) = some (fields, rest) := by
  induction fields generalizing first n with
  | nil =>
    rw [writeFields] at hn ⊢
    obtain ⟨n, rfl⟩ := Nat.exists_eq_add_of_le' (show 1 ≤ n from hn)
    rfl
  | cons f fields ih =>
    obtain ⟨key, v⟩ := f
    have hback : Back v := h _ List.mem_cons_self
    obtain ⟨c, t', hc, hfollow⟩ := writeFields_eq_cons fields
    rw [writeFields, List.length_append, List.length_cons, List.length_append, List.length_cons,
      List.length_append] at hn
    obtain ⟨n, rfl⟩ := Nat.exists_eq_add_of_le' (show 1 ≤ n by omega)
    have hend : expect '\x7d' (writeFields first ((key, v) :: fields) ++ rest) = none := by
      rw [writeFields]
      cases first
      · rfl
      · exact expect_of_ne (by decide) _
    have hvalue : readValue n (write v ++ (writeFields false fields ++ rest)) =
        some (v, writeFields false fields ++ rest) := by
      rw [hc, List.cons_append]
      exact hback c _ n hfollow (by omega)
    have hkey : readChars n (writeChars key.toList ++
        (':' :: (write v ++ (writeFields false fields ++ rest)))) =
        some (key.toList, ':' :: (write v ++ (writeFields false fields ++ rest))) :=
      readChars_writeChars _ _ (by omega)
    rw [readFields, hend, writeFields]
    simp only [Option.bind_eq_bind, List.append_assoc, List.cons_append, skipComma_comma,
      Option.bind_some, expect_cons, hkey, hvalue, String.ofList_toList,
      ih (fun f hf => h f (List.mem_cons_of_mem _ hf)) false
        (by omega : (writeFields false fields).length ≤ n)]

/-- **What is printed for a value without fractions reads back.** -/
theorem Value.Plain.back {n : ℕ} {v : Value} (h : v.Plain n) : Back v := by
  induction h with
  | null n =>
    intro c rest m _ hm
    rw [write] at hm ⊢
    obtain ⟨m, rfl⟩ := Nat.exists_eq_add_of_le' (show 1 ≤ m from (by decide : 1 ≤ 4).trans hm)
    rfl
  | bool n b =>
    intro c rest m _ hm
    cases b with
    | true =>
      rw [write] at hm ⊢
      obtain ⟨m, rfl⟩ := Nat.exists_eq_add_of_le' (show 1 ≤ m from (by decide : 1 ≤ 4).trans hm)
      rfl
    | false =>
      rw [write] at hm ⊢
      obtain ⟨m, rfl⟩ := Nat.exists_eq_add_of_le' (show 1 ≤ m from (by decide : 1 ≤ 5).trans hm)
      rfl
  | posInt n k =>
    intro c rest m hc hm
    rw [write] at hm ⊢
    obtain ⟨d, s, hs⟩ := padded_eq_cons 0 k.toNat
    rw [hs, List.length_cons] at hm
    obtain ⟨m, rfl⟩ := Nat.exists_eq_add_of_le' (show 1 ≤ m by omega)
    have hne (a : Char) (ha : a ∈ "ntf\"[\x7b-]".toList) : Nat.digitChar d ≠ a :=
      digitChar_ne d ha
    have hdigit : (digitVal 10 (Nat.digitChar d)).isSome := by
      rw [digitVal_digitChar (by decide) d.isLt]
      rfl
    have hread := readNumber_padded hc k rest
    rw [hs, List.cons_append] at hread
    rw [hs, List.cons_append, readValue, if_neg (hne 'n' (by decide)), if_neg (hne 't' (by decide)),
      if_neg (hne 'f' (by decide)), if_neg (hne '"' (by decide)), if_neg (hne '[' (by decide)),
      if_neg (hne '\x7b' (by decide)), if_neg (hne '-' (by decide)), if_pos hdigit, hread]
  | negInt n k hk =>
    intro c rest m hc hm
    rw [write] at hm ⊢
    obtain ⟨m, rfl⟩ := Nat.exists_eq_add_of_le' (show 1 ≤ m from Nat.le_of_add_left_le hm)
    rw [List.cons_append, readValue]
    exact readNegative_padded hc hk rest
  | string n s =>
    intro c rest m _ hm
    rw [write, List.length_cons] at hm
    obtain ⟨m, rfl⟩ := Nat.exists_eq_add_of_le' (show 1 ≤ m by omega)
    rw [write, List.cons_append, readValue]
    have hread := readChars_writeChars s.toList (c :: rest) (n := m) (by omega)
    simp [hread]
  | array n items _ ih =>
    intro c rest m _ hm
    rw [write, List.length_cons] at hm
    obtain ⟨m, rfl⟩ := Nat.exists_eq_add_of_le' (show 1 ≤ m by omega)
    rw [write, List.cons_append, readValue]
    have hread := readItems_writeItems ih true (c :: rest) (n := m) (by omega)
    simp [hread]
  | object n fields _ _ ih =>
    intro c rest m _ hm
    rw [write, List.length_cons] at hm
    obtain ⟨m, rfl⟩ := Nat.exists_eq_add_of_le' (show 1 ≤ m by omega)
    rw [write, List.cons_append, readValue]
    have hread := readFields_writeFields ih true (c :: rest) (n := m) (by omega)
    simp [hread]

/-- The fields of a plain object are read back, each as the value it is. -/
theorem Value.Plain.back_of_fields {n : ℕ} {fields : List (String × Value)}
    (h : (Value.object fields).Plain n) : ∀ f ∈ fields, Back f.2 := by
  cases h with
  | object n fields h _ => exact fun f hf => (h f hf).back

/-- A line that begins with a brace is an object and nothing more. -/
theorem parseText_cons (s : List Char) : parseText ('\x7b' :: s) =
    match readFields s.length true s with
    | some (fields, []) => some (.object fields)
    | _ => none := by
  rw [parseText, List.length_cons, readValue]
  rcases readFields s.length true s with _ | ⟨fields, _ | ⟨a, rest⟩⟩ <;> rfl

/-- **An object reads back, and no part of its text is JSON.** -/
theorem exact_write {n : ℕ} {fields : List (String × Value)} (h : (Value.object fields).Plain n) :
    Exact parseText (write (.object fields)) (.object fields) := by
  have hread {m : ℕ} (hm : (writeFields true fields).length ≤ m) :
      readFields m true (writeFields true fields) = some (fields, []) := by
    have hback := readFields_writeFields h.back_of_fields true [] hm
    rwa [List.append_nil] at hback
  rw [write]
  constructor
  · rw [parseText_cons, hread (Nat.le_refl _)]
  · rintro part ⟨more, hmore⟩ hne
    cases part with
    | nil => rfl
    | cons c part =>
      rw [List.cons_append, List.cons.injEq] at hmore
      obtain ⟨rfl, hmore⟩ := hmore
      have hrest : more ≠ [] := by
        rintro rfl
        rw [List.append_nil] at hmore
        exact hne (by rw [hmore])
      rw [parseText_cons]
      rcases hpart : readFields part.length true part with _ | ⟨fs, _ | ⟨a, rest⟩⟩
      · rfl
      · -- what is read of a part is read of the whole, and more is left
        have hlen : part.length ≤ (writeFields true fields).length := by
          rw [← hmore, List.length_append]
          omega
        have hwhole := (goesOn part.length).fields _ hlen true part fs [] more hpart
        rw [hmore, hread (Nat.le_refl _), Option.some.injEq, Prod.mk.injEq] at hwhole
        exact absurd hwhole.2.symm hrest
      · rfl

/-! ### On one line

A line feed ends a frame, so that none may be within it. It is escaped in a string, and there are no
blanks outside. -/

/-- No digit is a line feed, in any of the bases in which numbers are written. -/
theorem digitChar_ne_newline : ∀ d : Fin 16, Nat.digitChar d ≠ '\n' := by
  decide

/-- A numeral has no line feed in it, as it is made of digits. -/
theorem newline_notMem_numeral {b : ℕ} (hb : 0 < b) (hb' : b ≤ 16) (k n : ℕ) :
    '\n' ∉ numeral b k n := by
  intro hmem
  obtain ⟨d, hd, heq⟩ := exists_digit_of_mem_numeral hb k hmem
  exact digitChar_ne_newline ⟨d, by omega⟩ heq.symm

/-- In a string it is escaped. -/
theorem newline_notMem_writeChars (s : List Char) : '\n' ∉ writeChars s := by
  have hescape (c : Char) : '\n' ∉ escape c := by
    unfold escape
    split_ifs with hmark hcontrol
    · rintro (_ | ⟨_, _ | ⟨_, ⟨⟩⟩⟩)
      exact absurd hmark (by decide)
    · simp [newline_notMem_numeral]
    · rw [List.mem_singleton]
      rintro rfl
      exact hcontrol (by decide)
  rw [writeChars, List.mem_append, List.mem_flatMap, not_or]
  exact ⟨fun ⟨c, _, hc⟩ => hescape c hc, by decide⟩

mutual

theorem newline_notMem_write : ∀ v, '\n' ∉ write v
  | .null => by rw [write]; decide
  | .bool true => by rw [write]; decide
  | .bool false => by rw [write]; decide
  | .number (.posInt n) => by
    rw [write, padded]
    exact newline_notMem_numeral (by decide) (by decide) _ _
  | .number (.negInt n _) => by
    rw [write, padded, List.mem_cons, not_or]
    exact ⟨by decide, newline_notMem_numeral (by decide) (by decide) _ _⟩
  | .number (.float _ _) => by rw [write]; decide
  | .string s => by
    rw [write, List.mem_cons, not_or]
    exact ⟨by decide, newline_notMem_writeChars _⟩
  | .array items => by
    rw [write, List.mem_cons, not_or]
    exact ⟨by decide, newline_notMem_writeItems true items⟩
  | .object fields => by
    rw [write, List.mem_cons, not_or]
    exact ⟨by decide, newline_notMem_writeFields true fields⟩

theorem newline_notMem_writeItems : ∀ first items, '\n' ∉ writeItems first items
  | _, [] => by rw [writeItems]; decide
  | first, v :: items => by
    rw [writeItems, List.mem_append, List.mem_append, not_or, not_or]
    exact ⟨by cases first <;> decide, newline_notMem_write v,
      newline_notMem_writeItems false items⟩

theorem newline_notMem_writeFields : ∀ first fields, '\n' ∉ writeFields first fields
  | _, [] => by rw [writeFields]; decide
  | first, (key, v) :: fields => by
    have hkey := newline_notMem_writeChars key.toList
    have hvalue := newline_notMem_write v
    have hfields := newline_notMem_writeFields false fields
    have hcomma : '\n' ∉ comma first := by cases first <;> decide
    rw [writeFields]
    simp only [List.mem_append, List.mem_cons, hcomma, hkey, hvalue, hfields, or_false]
    decide

end

/-- An object ends with its brace, and so is not cut short by the trimming of a line. -/
theorem writeFields_eq_concat (fields : List (String × Value)) :
    ∀ first, ∃ s, writeFields first fields = s ++ ['\x7d'] := by
  induction fields with
  | nil => exact fun _ => ⟨[], by rw [writeFields]; rfl⟩
  | cons f fields ih =>
    obtain ⟨key, v⟩ := f
    intro first
    obtain ⟨s, hs⟩ := ih false
    refine ⟨comma first ++ '"' :: (writeChars key.toList ++ ':' :: (write v ++ s)), ?_⟩
    rw [writeFields, hs]
    simp only [List.append_assoc, List.cons_append]

/-- A printer and a parser as they are relied on. -/
def JsonText.compact : JsonText where
  fromStr := parseText
  text := write
  newline_notMem := newline_notMem_write
  text_object fields := by
    obtain ⟨s, hs⟩ := writeFields_eq_concat fields true
    exact ⟨s, by rw [write, hs]⟩
  exact_object _ h := exact_write h

end Json
