import Mathlib.Data.List.Basic
import Mathlib.Tactic.SplitIfs

/-!
# Decoding UTF-8

Bytes become characters one byte at a time. Between two bytes the decoder knows the character it
is in, if any: how many bytes are to come, and which values the next may have. A byte that cannot
go on with it makes what was read of it malformed, and is looked at anew. So each malformed piece is
as long as some character begins, and this is where `String::from_utf8_lossy` puts one replacement
character (`Utf8.fromUtf8Lossy`), while `str::from_utf8` refuses the text (`Utf8.fromUtf8`).

What was encoded is decoded to itself, by both (`Utf8.fromUtf8_encode`,
`Utf8.fromUtf8Lossy_encode`).
-/

namespace Utf8

/-- A character that has begun. -/
structure Begun where
  /-- How many bytes come after the next. -/
  more : ℕ
  low : ℕ
  high : ℕ
  value : ℕ
deriving DecidableEq

/-- The first byte of a character: what it completes, with `none` for what is malformed, and what
it begins. -/
def first (b : UInt8) : List (Option Char) × Option Begun :=
  let n := b.toNat
  if n < 0x80 then ([some (Char.ofNat n)], none)
  -- a continuation, or the beginning of too long a form
  else if n < 0xc2 then ([none], none)
  else if n < 0xe0 then ([], some ⟨0, 0x80, 0xbf, n - 0xc0⟩)
  else if n = 0xe0 then ([], some ⟨1, 0xa0, 0xbf, n - 0xe0⟩)
  -- no surrogates
  else if n = 0xed then ([], some ⟨1, 0x80, 0x9f, n - 0xe0⟩)
  else if n < 0xf0 then ([], some ⟨1, 0x80, 0xbf, n - 0xe0⟩)
  else if n = 0xf0 then ([], some ⟨2, 0x90, 0xbf, n - 0xf0⟩)
  else if n < 0xf4 then ([], some ⟨2, 0x80, 0xbf, n - 0xf0⟩)
  else if n = 0xf4 then ([], some ⟨2, 0x80, 0x8f, n - 0xf0⟩)
  else ([none], none)

/-- One byte. -/
def step : Option Begun → UInt8 → List (Option Char) × Option Begun
  | none, b => first b
  | some p, b =>
    let n := b.toNat
    if p.low ≤ n ∧ n ≤ p.high then
      let value := p.value * 64 + (n - 0x80)
      match p.more with
      | 0 => ([some (Char.ofNat value)], none)
      | more + 1 => ([], some ⟨more, 0x80, 0xbf, value⟩)
    else (none :: (first b).1, (first b).2)

/-- The characters of bytes, with `none` for each malformed piece. -/
def decode : Option Begun → List UInt8 → List (Option Char)
  | none, [] => []
  | some _, [] => [none]
  | p, b :: bs => (step p b).1 ++ decode (step p b).2 bs

/-- `String::from_utf8_lossy`. -/
def fromUtf8Lossy (bs : List UInt8) : List Char :=
  (decode none bs).map fun c => c.getD (Char.ofNat 0xfffd)

/-- `str::from_utf8`. -/
def fromUtf8 (bs : List UInt8) : Option (List Char) :=
  if none ∈ decode none bs then none else some (fromUtf8Lossy bs)

/-! ### What was encoded

Decoding goes byte by byte, with what has begun of a character as its state. After the encoding of a
character nothing has begun, and the character has come out, whatever its length; so the encoding of
a text decodes to that text, strictly and lossily alike. The lengths are those of the standard: one
byte below 0x80, and two, three or four after a first byte that says so. -/

/-- The bytes of text. -/
def encode (s : List Char) : List UInt8 :=
  s.flatMap String.utf8EncodeChar

/-- A byte may end a character, and then the decoding goes on from what it leaves begun. -/
theorem decode_cons (p : Option Begun) (b : UInt8) (bs : List UInt8) :
    decode p (b :: bs) = (step p b).1 ++ decode (step p b).2 bs := by
  cases p <;> rfl

/-- A number below 256 is that of its byte. -/
theorem toNat_ofNat {n : ℕ} (h : n < 256) : (UInt8.ofNat n).toNat = n :=
  UInt8.toNat_ofNat_of_lt' h

/-- The last byte of a character. -/
theorem decode_last {low high value n : ℕ} (hlow : low ≤ n) (hhigh : n ≤ high) (hbyte : n < 256)
    (bs : List UInt8) :
    decode (some ⟨0, low, high, value⟩) (UInt8.ofNat n :: bs) =
      some (Char.ofNat (value * 64 + (n - 0x80))) :: decode none bs := by
  have hn : (UInt8.ofNat n).toNat = n := toNat_ofNat hbyte
  have hrange : low ≤ (UInt8.ofNat n).toNat ∧ (UInt8.ofNat n).toNat ≤ high := by
    rw [hn]
    exact ⟨hlow, hhigh⟩
  rw [decode_cons, step]
  dsimp only
  rw [if_pos hrange, hn]
  rfl

/-- A byte in the middle. -/
theorem decode_middle {more low high value n : ℕ} (hlow : low ≤ n) (hhigh : n ≤ high)
    (hbyte : n < 256) (bs : List UInt8) :
    decode (some ⟨more + 1, low, high, value⟩) (UInt8.ofNat n :: bs) =
      decode (some ⟨more, 0x80, 0xbf, value * 64 + (n - 0x80)⟩) bs := by
  have hn : (UInt8.ofNat n).toNat = n := toNat_ofNat hbyte
  have hrange : low ≤ (UInt8.ofNat n).toNat ∧ (UInt8.ofNat n).toNat ≤ high := by
    rw [hn]
    exact ⟨hlow, hhigh⟩
  rw [decode_cons, step]
  dsimp only
  rw [if_pos hrange, hn]
  rfl

/-- A first byte from 0xc2 to 0xdf begins a character of two bytes; the two below it would begin an
encoding that is too long. -/
theorem first_two : ∀ h < 32, 2 ≤ h →
    first (UInt8.ofNat (h + 0xc0)) = ([], some ⟨0, 0x80, 0xbf, h⟩) := by
  decide

/-- The beginning of a character of three bytes leaves the second the values that such a character
can have there. -/
theorem first_three : ∀ h < 16, first (UInt8.ofNat (h + 0xe0)) =
    ([], some ⟨1, if h = 0 then 0xa0 else 0x80, if h = 13 then 0x9f else 0xbf, h⟩) := by
  decide

/-- A first byte from 0xf0 to 0xf4 begins a character of four bytes. The second one is bounded so
that no shorter encoding, and nothing past the last character, is let through. -/
theorem first_four : ∀ h < 5, first (UInt8.ofNat (h + 0xf0)) =
    ([], some ⟨2, if h = 0 then 0x90 else 0x80, if h = 4 then 0x8f else 0xbf, h⟩) := by
  decide

/-- **What was encoded is decoded to itself**, one character first. -/
theorem decode_encodeChar (c : Char) (bs : List UInt8) :
    decode none (String.utf8EncodeChar c ++ bs) = some c :: decode none bs := by
  have hvalid : c.toNat < 0xd800 ∨ 0xdfff < c.toNat ∧ c.toNat < 0x110000 := c.valid
  have hback {v : ℕ} (hv : v = c.toNat) : some (Char.ofNat v) = some c := by
    rw [hv, Char.ofNat_toNat]
  have hval : c.val.toNat = c.toNat := rfl
  simp only [String.utf8EncodeChar, hval]
  generalize c.toNat = v at *
  split_ifs with h₁ h₂ h₃
  · have hn : (UInt8.ofNat v).toNat = v := toNat_ofNat (by omega)
    rw [List.singleton_append, decode_cons, step, first, hn]
    rw [if_pos (by omega), hback rfl]
    rfl
  · have hfirst := first_two (v / 64 % 0x20) (by omega) (by omega)
    rw [List.cons_append, List.singleton_append, decode_cons, step, hfirst, List.nil_append,
      decode_last (by omega) (by omega) (by omega), hback (by omega)]
  · have hfirst := first_three (v / 4096 % 0x10) (by omega)
    rw [List.cons_append, List.cons_append, List.singleton_append, decode_cons, step, hfirst,
      List.nil_append, decode_middle (by split_ifs <;> omega) (by split_ifs <;> omega) (by omega),
      decode_last (by omega) (by omega) (by omega), hback (by omega)]
  · have hfirst := first_four (v / 262144 % 0x08) (by omega)
    rw [List.cons_append, List.cons_append, List.cons_append, List.singleton_append, decode_cons,
      step, hfirst, List.nil_append,
      decode_middle (by split_ifs <;> omega) (by split_ifs <;> omega) (by omega),
      decode_middle (by omega) (by omega) (by omega),
      decode_last (by omega) (by omega) (by omega), hback (by omega)]

/-- **A text that was encoded decodes to itself**, with no byte replaced. -/
theorem decode_encode (s : List Char) : decode none (encode s) = s.map some := by
  induction s with
  | nil => rfl
  | cons c s ih =>
    rw [encode, List.flatMap_cons, decode_encodeChar, List.map_cons, ← ih, encode]

/-- The decoder that replaces what it cannot decode finds nothing to replace in text that was
encoded. -/
theorem fromUtf8Lossy_encode (s : List Char) : fromUtf8Lossy (encode s) = s := by
  rw [fromUtf8Lossy, decode_encode, List.map_map]
  exact List.map_id s

/-- The decoder that refuses what it cannot decode accepts text that was encoded. -/
theorem fromUtf8_encode (s : List Char) : fromUtf8 (encode s) = some s := by
  have hwell : none ∉ decode none (encode s) := by
    rw [decode_encode]
    exact fun h => by simp at h
  rw [fromUtf8, if_neg hwell, fromUtf8Lossy_encode]

/-! ### Text that is cut

What is read from a socket may end within a character. The part up to the last whole character is
text; a character that is cut off is refused by the one decoder, and replaced by the other. A byte
below 0x80 is never part of a longer character, which is why lines can be found in bytes. -/

/-- A text is encoded character by character. -/
theorem encode_cons (c : Char) (s : List Char) :
    encode (c :: s) = String.utf8EncodeChar c ++ encode s :=
  rfl

/-- Parts of a text are encoded one after the other. -/
theorem encode_append (s t : List Char) : encode (s ++ t) = encode s ++ encode t :=
  List.flatMap_append

/-- A character that is cut is malformed. -/
theorem decode_cut {c : Char} {bs : List UInt8} (h : bs <+: String.utf8EncodeChar c)
    (hne : bs ≠ String.utf8EncodeChar c) (hnil : bs ≠ []) : decode none bs = [none] := by
  have hvalid : c.toNat < 0xd800 ∨ 0xdfff < c.toNat ∧ c.toNat < 0x110000 := c.valid
  have hval : c.val.toNat = c.toNat := rfl
  simp only [String.utf8EncodeChar, hval] at h hne
  generalize c.toNat = v at *
  split_ifs at h hne with h₁ h₂ h₃
  · simp only [List.prefix_cons_iff, List.prefix_nil, hnil, false_or] at h
    obtain ⟨t, rfl, rfl⟩ := h
    exact absurd rfl hne
  · have hfirst := first_two (v / 64 % 0x20) (by omega) (by omega)
    simp only [List.prefix_cons_iff, List.prefix_nil, hnil, false_or] at h
    obtain ⟨t, rfl, rfl | ⟨t, rfl, rfl⟩⟩ := h
    · rw [decode_cons, step, hfirst]
      rfl
    · exact absurd rfl hne
  · have hfirst := first_three (v / 4096 % 0x10) (by omega)
    simp only [List.prefix_cons_iff, List.prefix_nil, hnil, false_or] at h
    obtain ⟨t, rfl, rfl | ⟨t, rfl, rfl | ⟨t, rfl, rfl⟩⟩⟩ := h
    · rw [decode_cons, step, hfirst]
      rfl
    · rw [decode_cons, step, hfirst, List.nil_append,
        decode_middle (by split_ifs <;> omega) (by split_ifs <;> omega) (by omega)]
      rfl
    · exact absurd rfl hne
  · have hfirst := first_four (v / 262144 % 0x08) (by omega)
    simp only [List.prefix_cons_iff, List.prefix_nil, hnil, false_or] at h
    obtain ⟨t, rfl, rfl | ⟨t, rfl, rfl | ⟨t, rfl, rfl | ⟨t, rfl, rfl⟩⟩⟩⟩ := h
    · rw [decode_cons, step, hfirst]
      rfl
    · rw [decode_cons, step, hfirst, List.nil_append,
        decode_middle (by split_ifs <;> omega) (by split_ifs <;> omega) (by omega)]
      rfl
    · rw [decode_cons, step, hfirst, List.nil_append,
        decode_middle (by split_ifs <;> omega) (by split_ifs <;> omega) (by omega),
        decode_middle (by omega) (by omega) (by omega)]
      rfl
    · exact absurd rfl hne

/-- **A prefix of encoded text is encoded text, or is refused.** -/
theorem none_mem_decode_cut {s : List Char} {bs : List UInt8} (h : bs <+: encode s) :
    (∃ t, t <+: s ∧ bs = encode t) ∨ none ∈ decode none bs := by
  induction s generalizing bs with
  | nil => exact Or.inl ⟨[], List.prefix_rfl, List.prefix_nil.mp h⟩
  | cons c s ih =>
    obtain ⟨more, hmore⟩ := h
    rw [encode_cons] at hmore
    rcases List.append_eq_append_iff.mp hmore with ⟨l, hcut, -⟩ | ⟨bs', rfl, hrest⟩
    · replace hcut : bs <+: String.utf8EncodeChar c := ⟨l, hcut.symm⟩
      by_cases hnil : bs = []
      · exact Or.inl ⟨[], List.nil_prefix, hnil⟩
      · by_cases hne : bs = String.utf8EncodeChar c
        · refine Or.inl ⟨[c], ?_, ?_⟩
          · exact (List.prefix_cons_inj c).mpr List.nil_prefix
          · rw [encode_cons, hne]
            exact (List.append_nil _).symm
        · rw [decode_cut hcut hne hnil]
          exact Or.inr List.mem_cons_self
    · rw [decode_encodeChar]
      rcases ih ⟨more, hrest.symm⟩ with ⟨t, ht, rfl⟩ | hbad
      · exact Or.inl ⟨c :: t, (List.prefix_cons_inj c).mpr ht, (encode_cons c t).symm⟩
      · exact Or.inr (List.mem_cons_of_mem _ hbad)

/-- **Encoded text that is cut is text, cut between two characters, or malformed.** -/
theorem fromUtf8_cut {s t : List Char} {bs : List UInt8} (h : bs <+: encode s)
    (ht : fromUtf8 bs = some t) : t <+: s ∧ bs = encode t := by
  rcases none_mem_decode_cut h with ⟨t', ht', rfl⟩ | hbad
  · rw [fromUtf8_encode, Option.some.injEq] at ht
    exact ⟨ht ▸ ht', ht ▸ rfl⟩
  · rw [fromUtf8, if_pos hbad] at ht
    cases ht

/-- A byte below `0x80` stands for its character only. -/
theorem mem_encodeChar_ascii {b : UInt8} (hb : b.toNat < 0x80) {c : Char}
    (h : b ∈ String.utf8EncodeChar c) : c = Char.ofNat b.toNat := by
  have hval : c.val.toNat = c.toNat := rfl
  have hchar : c = Char.ofNat c.toNat := (Char.ofNat_toNat c).symm
  simp only [String.utf8EncodeChar, hval] at h
  have hbyte {n : ℕ} (hn : n < 256) (heq : b = UInt8.ofNat n) : b.toNat = n := by
    rw [heq, toNat_ofNat hn]
  split_ifs at h with h₁ h₂ h₃
  · rw [List.mem_singleton] at h
    rw [hbyte (by omega) h, ← hchar]
  · simp only [List.mem_cons, List.not_mem_nil, or_false] at h
    rcases h with h | h
    · have := hbyte (by omega) h
      omega
    · have := hbyte (by omega) h
      omega
  · simp only [List.mem_cons, List.not_mem_nil, or_false] at h
    rcases h with h | h | h
    · have := hbyte (by omega) h
      omega
    · have := hbyte (by omega) h
      omega
    · have := hbyte (by omega) h
      omega
  · simp only [List.mem_cons, List.not_mem_nil, or_false] at h
    rcases h with h | h | h | h
    · have := hbyte (by omega) h
      omega
    · have := hbyte (by omega) h
      omega
    · have := hbyte (by omega) h
      omega
    · have := hbyte (by omega) h
      omega

/-- A byte below 0x80 is in the encoding of its own character only. -/
theorem notMem_encode_ascii {b : UInt8} (hb : b.toNat < 0x80) {s : List Char}
    (h : Char.ofNat b.toNat ∉ s) : b ∉ encode s := by
  intro hmem
  obtain ⟨c, hc, hbc⟩ := List.mem_flatMap.mp hmem
  exact h (mem_encodeChar_ascii hb hbc ▸ hc)

/-! ### A byte of its own

The converse, for bytes that may be no text at all: a byte below 0x80 ends whatever has begun, and
is a character by itself. So a line feed is found in bytes where it is in the text, also when the
text before it is broken. -/

/-- What follows a first byte is above the bytes that are characters. -/
theorem low_first (b : UInt8) : ∀ q ∈ (first b).2, 0x80 ≤ q.low := by
  unfold first
  dsimp only
  split_ifs <;> rintro q ⟨⟩ <;> simp

/-- What has begun is never gone on with by a byte below 0x80. -/
theorem low_step (p : Option Begun) (b : UInt8) : ∀ q ∈ (step p b).2, 0x80 ≤ q.low := by
  cases p with
  | none => exact low_first b
  | some p =>
    rw [step]
    dsimp only
    split_ifs
    · cases p.more with
      | zero => rintro q ⟨⟩
      | succ more =>
        rintro q ⟨⟩
        exact Nat.le_refl _
    · exact low_first b

/-- A byte below 0x80 is a character by itself. -/
theorem first_ascii {b : UInt8} (h : b.toNat < 0x80) :
    first b = ([some (Char.ofNat b.toNat)], none) := by
  rw [first, if_pos h]

/-- A byte below 0x80 comes out as the last character, whatever came before it and however that was
broken off. -/
theorem decode_concat_ascii {b : UInt8} (h : b.toNat < 0x80) (bs : List UInt8) :
    ∀ p : Option Begun, (∀ q ∈ p, 0x80 ≤ q.low) →
      decode p (bs ++ [b]) = decode p bs ++ [some (Char.ofNat b.toNat)] := by
  induction bs with
  | nil =>
    intro p hp
    rw [List.nil_append, decode_cons]
    cases p with
    | none =>
      rw [step, first_ascii h]
      rfl
    | some q =>
      have hlow := hp q rfl
      rw [step]
      dsimp only
      rw [if_neg (by omega), first_ascii h]
      rfl
  | cons a bs ih =>
    intro p hp
    rw [List.cons_append, decode_cons, decode_cons, ih _ (low_step p a), List.append_assoc]

/-- Text and a byte that is a character. -/
theorem fromUtf8_concat_ascii {b : UInt8} (h : b.toNat < 0x80) (bs : List UInt8) :
    fromUtf8 (bs ++ [b]) = (fromUtf8 bs).map fun s => s ++ [Char.ofNat b.toNat] := by
  have hdecode := decode_concat_ascii h bs none (fun q hq => nomatch hq)
  have hmem : none ∈ decode none (bs ++ [b]) ↔ none ∈ decode none bs := by
    rw [hdecode]
    simp
  by_cases hbad : none ∈ decode none bs
  · rw [fromUtf8, fromUtf8, if_pos (hmem.mpr hbad), if_pos hbad, Option.map_none]
  · rw [fromUtf8, fromUtf8, if_neg (fun hb => hbad (hmem.mp hb)), if_neg hbad, Option.map_some,
      fromUtf8Lossy, hdecode, List.map_append]
    rfl

end Utf8
