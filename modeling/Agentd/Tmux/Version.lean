import Agentd.Foundations.Utf8
import Agentd.Watcher.Listing

/-!
# The version of tmux

`tmux_version_ok` reads what `tmux -V` prints: it strips the name, splits at the dots and parses
the first two pieces, and a piece that is no number counts as zero. A release of tmux may have a
letter behind its minor number, and such a piece is no number.

`Agentd.tmuxVersionOk_iff` – a release is told right from wrong unless its major number is two,
its minor number six or more and a letter follows: `tmux 2.9a` is refused.
-/

namespace Agentd

open Numeral Watcher

/-! ### The check

The source strips the name from what `tmux -V` prints, splits what is left at the dots, and reads
the first two pieces as numbers of 32 bits. A piece with a letter in it is no number, and what is no
number counts as zero. -/

/-- What a command that ran left behind. -/
structure CommandOutput where
  success : Bool
  stdout : List UInt8

/-- A number among the pieces between the dots, zero by default. -/
def versionPart (part : Option (List Char)) : ℕ :=
  (part.bind parseU32).getD 0

/-- What `tmux_version_ok` makes of the text. -/
def versionTextOk (s : List Char) : Bool :=
  match (s.dropWhile isWhitespace).dropPrefix? "tmux ".toList with
  | none => false
  | some rest =>
    let parts := (trim rest).splitOn '.'
    let major := versionPart parts[0]?
    let minor := versionPart parts[1]?
    2 < major || (major == 2 && 6 ≤ minor)

/-- `tmux_version_ok`, from what running `tmux -V` gave, `none` when it did not start. -/
def tmuxVersionOk : Option CommandOutput → Bool
  | none => false
  | some out => if !out.success then false else versionTextOk (Utf8.fromUtf8Lossy out.stdout)

/-! ### The releases

What a released tmux says of itself: its name, two numbers with a dot between them, perhaps a
letter, as in `3.3a`, and white space around all of it. -/

/-- A version string, as tmux releases are named. -/
structure VersionString where
  lead : List Char := []
  major : ℕ
  /-- The numbers may have leading zeros. -/
  majorWidth : ℕ := 1
  minor : ℕ
  minorWidth : ℕ := 1
  suffix : Option Char := none
  trail : List Char := []
  major_lt : major < 2 ^ 32
  minor_lt : minor < 2 ^ 32
  suffix_letter : ∀ c ∈ suffix, 'a' ≤ c ∧ c ≤ 'z'
  lead_white : ∀ c ∈ lead, isWhitespace c
  trail_white : ∀ c ∈ trail, isWhitespace c

namespace VersionString

variable (v : VersionString)

/-- The piece after the dot. -/
def minorPart : List Char :=
  padded 10 v.minorWidth v.minor ++ v.suffix.toList

/-- What stands after the name. -/
def numbers : List Char :=
  padded 10 v.majorWidth v.major ++ '.' :: v.minorPart

def text : List Char :=
  v.lead ++ ("tmux ".toList ++ (v.numbers ++ v.trail))

/-- Two six, or later. -/
def Supported : Prop :=
  2 < v.major ∨ v.major = 2 ∧ 6 ≤ v.minor

end VersionString

/-! ### White space around text

The output ends with a line feed, which is trimmed. -/

/-- White space before a text that begins with none is dropped, and nothing else. -/
theorem dropWhile_white {lead s : List Char} (hlead : ∀ c ∈ lead, isWhitespace c)
    (hs : ∀ c ∈ s.head?, ¬isWhitespace c) : (lead ++ s).dropWhile isWhitespace = s := by
  rw [List.dropWhile_append_of_pos hlead]
  cases s with
  | nil => rfl
  | cons c s => exact List.dropWhile_cons_of_neg (hs c rfl)

/-- White space after a text that ends with none is dropped, and nothing else. -/
theorem trimEnd_append_white {s trail : List Char} (hs : ∀ c ∈ s.getLast?, ¬isWhitespace c)
    (htrail : ∀ c ∈ trail, isWhitespace c) : trimEnd (s ++ trail) = s := by
  have hrev : (trail.reverse ++ s.reverse).dropWhile isWhitespace = s.reverse :=
    dropWhile_white (by simpa using htrail) (by simpa using hs)
  rw [trimEnd, List.reverse_append, hrev, List.reverse_reverse]

/-- Text without white space at its ends is what is left of it when some is put after it. -/
theorem trim_append_white {s trail : List Char} (htrail : ∀ c ∈ trail, isWhitespace c)
    (hne : s ≠ []) (hhead : ∀ c ∈ s.head?, ¬isWhitespace c)
    (hlast : ∀ c ∈ s.getLast?, ¬isWhitespace c) : trim (s ++ trail) = s := by
  have hhead' : ∀ c ∈ (s ++ trail).head?, ¬isWhitespace c := by
    rw [List.head?_append_of_ne_nil _ hne]
    exact hhead
  have hstart : (s ++ trail).dropWhile isWhitespace = s ++ trail :=
    dropWhile_white (List.forall_mem_nil _) hhead'
  rw [trim, hstart, trimEnd_append_white hlast htrail]

/-! ### What the check reads

The text of a version has one dot, with the major number before it and the rest after. The rest is a
number exactly when no letter follows. -/

/-- A digit is neither white space nor a dot. -/
theorem digitChar_plain : ∀ d : Fin 10, ¬isWhitespace (Nat.digitChar d) ∧ Nat.digitChar d ≠ '.' := by
  decide

/-- No character of a number is white space or a dot. -/
theorem plain_of_mem_padded {w n : ℕ} {c : Char} (h : c ∈ padded 10 w n) :
    ¬isWhitespace c ∧ c ≠ '.' := by
  obtain ⟨d, hd, rfl⟩ := exists_digit_of_mem_numeral (by omega) _ h
  exact digitChar_plain ⟨d, hd⟩

/-- A letter is no white space, no dot and no digit. -/
theorem plain_of_letter {c : Char} (h : 'a' ≤ c ∧ c ≤ 'z') :
    ¬isWhitespace c ∧ c ≠ '.' ∧ digitVal 10 c = none := by
  have hlow : 97 ≤ c.toNat := h.1
  have hhigh : c.toNat ≤ 122 := h.2
  refine ⟨?_, ?_, ?_⟩
  · simp only [isWhitespace, Bool.or_eq_true, Bool.and_eq_true, decide_eq_true_eq, beq_iff_eq]
    omega
  · rintro rfl
    exact absurd hlow (by decide)
  · have hdigit : ¬('0' ≤ c ∧ c ≤ '9') := fun hd => by
      have hle : c.toNat ≤ 57 := hd.2
      omega
    rw [digitVal, hexVal, if_neg hdigit]
    split_ifs
    · rw [Option.filter_some, if_neg]
      simp
    · rw [Option.filter_some, if_neg]
      simp
    · rfl

namespace VersionString

variable {v : VersionString}

/-- No character of the minor number and its letter is white space or a dot. -/
theorem plain_of_mem_minorPart {c : Char} (h : c ∈ v.minorPart) : ¬isWhitespace c ∧ c ≠ '.' := by
  rcases List.mem_append.mp h with hdigit | hletter
  · exact plain_of_mem_padded hdigit
  · have hplain := plain_of_letter (v.suffix_letter c (Option.mem_toList.mp hletter))
    exact ⟨hplain.1, hplain.2.1⟩

/-- The number behind the dot is read when no letter follows it. -/
theorem parseU32_minorPart (v : VersionString) :
    parseU32 v.minorPart = if v.suffix.isSome then none else some v.minor := by
  rw [minorPart]
  rcases hsuffix : v.suffix with _ | c
  · rw [Option.toList_none, List.append_nil]
    exact parseU32_padded v.minorWidth v.minor_lt
  · have hscan := scanAll_padded (w := v.minorWidth) (n := v.minor) (by omega) (by omega)
      (plain_of_letter (v.suffix_letter c hsuffix)).2.2 []
    have hplus : (padded 10 v.minorWidth v.minor ++ [c]).head? ≠ some '+' := by
      rw [List.head?_append_of_ne_nil _ (padded_ne_nil _ _)]
      exact fun h => notMem_padded (fun d => (ne_of_digitChar d).2.2) _ (List.mem_of_head? h)
    have hne : padded 10 v.minorWidth v.minor ++ [c] ≠ [] := by simp
    rw [Option.toList_some, parseU32]
    simp only [if_neg hplus, if_neg hne, hscan]
    rfl

/-- So the version is cut in two. -/
theorem splitOn_numbers (v : VersionString) :
    v.numbers.splitOn '.' = [padded 10 v.majorWidth v.major, v.minorPart] := by
  have hmajor : '.' ∉ padded 10 v.majorWidth v.major := fun h => (plain_of_mem_padded h).2 rfl
  have hminor : '.' ∉ v.minorPart := fun h => (plain_of_mem_minorPart h).2 rfl
  rw [numbers, List.splitOn_append_cons_of_beq _ _ (beq_self_eq_true _),
    List.splitOn_eq_singleton hmajor, List.splitOn_eq_singleton hminor]
  rfl

/-- Something comes after the dot. -/
theorem minorPart_ne_nil (v : VersionString) : v.minorPart ≠ [] := by
  simp [minorPart, padded_ne_nil]

/-- What follows the version is trimmed. -/
theorem trim_numbers (v : VersionString) : trim (v.numbers ++ v.trail) = v.numbers := by
  refine trim_append_white v.trail_white (by simp [numbers]) ?_ ?_
  · rw [numbers, List.head?_append_of_ne_nil _ (padded_ne_nil _ _)]
    exact fun c hc => (plain_of_mem_padded (List.mem_of_head? hc)).1
  · have hne : '.' :: v.minorPart ≠ [] := List.cons_ne_nil _ _
    rw [numbers, List.getLast?_append_of_ne_nil _ hne, List.getLast?_cons_of_ne_nil
      v.minorPart_ne_nil]
    exact fun c hc => (plain_of_mem_minorPart (List.mem_of_getLast? hc)).1

/-- What the check makes of a release: a letter makes the minor number zero. -/
theorem versionTextOk_text (v : VersionString) :
    versionTextOk v.text ↔
      2 < v.major ∨ v.major = 2 ∧ 6 ≤ (if v.suffix.isSome then 0 else v.minor) := by
  have hdrop : v.text.dropWhile isWhitespace = "tmux ".toList ++ (v.numbers ++ v.trail) := by
    refine dropWhile_white v.lead_white ?_
    rintro _ ⟨⟩
    decide
  have hname : ("tmux ".toList ++ (v.numbers ++ v.trail)).dropPrefix? "tmux ".toList =
      some (v.numbers ++ v.trail) :=
    List.dropPrefix?_append_of_beq _ (beq_self_eq_true _)
  have hmajor : versionPart (some (padded 10 v.majorWidth v.major)) = v.major := by
    rw [versionPart, Option.bind_some, parseU32_padded _ v.major_lt, Option.getD_some]
  have hminor : versionPart (some v.minorPart) = if v.suffix.isSome then 0 else v.minor := by
    rw [versionPart, Option.bind_some, parseU32_minorPart]
    split_ifs <;> rfl
  rw [versionTextOk, hdrop, hname]
  simp only [trim_numbers, splitOn_numbers, List.getElem?_cons_zero, List.getElem?_cons_succ,
    hmajor, hminor, Bool.or_eq_true, Bool.and_eq_true, decide_eq_true_eq, beq_iff_eq]

end VersionString

/-- **The check agrees with the order of releases exactly when no letter hides the minor number of a
two point six or later.** The version is two numbers of 32 bits and a letter that may be missing,
printed as tmux prints it. A minor number with a letter after it does not parse, and counts as zero.
-/
theorem tmuxVersionOk_iff (v : VersionString) :
    (tmuxVersionOk (some ⟨true, Utf8.encode v.text⟩) ↔ v.Supported) ↔
      ¬(v.major = 2 ∧ 6 ≤ v.minor ∧ v.suffix.isSome) := by
  have hrun : tmuxVersionOk (some ⟨true, Utf8.encode v.text⟩) = versionTextOk v.text := by
    rw [tmuxVersionOk, Utf8.fromUtf8Lossy_encode]
    rfl
  rw [hrun, v.versionTextOk_text, VersionString.Supported]
  split_ifs with hsuffix
  · simp only [hsuffix, and_true]
    omega
  · simp [hsuffix]

/-- `tmux 2.9a`. -/
def tmux29a : VersionString where
  major := 2
  minor := 9
  suffix := some 'a'
  major_lt := by omega
  minor_lt := by omega
  suffix_letter := by simp
  lead_white := by simp
  trail_white := by simp

/-- **A release after two point six is refused.** -/
theorem refused_release :
    ¬∀ v : VersionString, tmuxVersionOk (some ⟨true, Utf8.encode v.text⟩) ↔ v.Supported := by
  intro h
  have hsupported : tmux29a.Supported := .inr ⟨rfl, by decide⟩
  have hok := (h tmux29a).mpr hsupported
  rw [tmuxVersionOk, Utf8.fromUtf8Lossy_encode] at hok
  revert hok
  decide

end Agentd
