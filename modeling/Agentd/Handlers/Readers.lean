import Agentd.Handlers.Chunks
import Agentd.Handlers.Framing

/-!
# Three readers of one line

A line of JSON is read in three places. `framing::read_message` parses its bytes;
`read_request` of the control router and the loop of `handle_plugin_connection` decode it first, and
parse what `str::trim` leaves. The first two check the length, and what `trim` takes off is more
than JSON calls white space.

`Agentd.readersAgree_iff` says for which lines the three agree.

The parser is `serde_json`, of which `Agentd.JsonReader` says as much as this takes: bytes are
parsed as the text they encode, there may be white space around a value, and white space of any
other kind cannot stand at the ends of one.
-/

namespace Agentd

open Framing Ipc Json Router Utf8

/-- White space in JSON. -/
def jsonBlank (c : Char) : Bool :=
  c = '\t' || c = '\n' || c = '\r' || c = ' '

/-- `serde_json::from_slice` and `serde_json::from_str`. -/
structure JsonReader where
  fromSlice : List UInt8 → Option Value
  fromStr : List Char → Option Value
  fromSlice_eq : ∀ bytes, fromSlice bytes = (fromUtf8 bytes).bind fromStr
  fromStr_nil : fromStr [] = none
  blank_cons : ∀ c s, jsonBlank c → fromStr (c :: s) = fromStr s
  blank_concat : ∀ c s, jsonBlank c → fromStr (s ++ [c]) = fromStr s
  foreign_cons : ∀ c s, Watcher.isWhitespace c → ¬jsonBlank c → fromStr (c :: s) = none
  foreign_concat : ∀ c s, Watcher.isWhitespace c → ¬jsonBlank c → fromStr (s ++ [c]) = none

/-- One round of the loop of `handle_plugin_connection`, with what is left to read. The line comes
before the time is up. -/
def readFrame (fromStr : List Char → Option Value) (bytes : List UInt8) :
    Option (Value × List UInt8) :=
  let (buf, rest) := readUntil newline bytes
  match fromUtf8 buf with
  | none => none
  | some line =>
    if buf = [] then none else (fromStr (Watcher.trim line)).map fun msg => (msg, rest)

/-! ### The verdicts

Three readers are asked for the same line: that of the framing module, that of a request on the
control socket, and that of the lines of a plugin. Their verdict is the value they take the line
for, or that they refuse it. -/

section

variable (J : JsonReader)

/-- What `read_message` makes of the line, `none` for an error. -/
def messageVerdict (bytes : List UInt8) : Option Value :=
  (readMessage J.fromSlice bytes).1.bind Except.toOption

/-- What `read_request` makes of what the reads bring. -/
def requestVerdict (reads : List Observed) : Option Value :=
  (readRequest J.fromStr ⟨0, reads⟩).map Prod.fst

/-- What the connection of a plugin makes of the line. -/
def frameVerdict (bytes : List UInt8) : Option Value :=
  (readFrame J.fromStr bytes).map Prod.fst

/-- The three readers yield the same value or reject the line, and none accepts one that is too
long. -/
structure ReadersAgree (bytes : List UInt8) (reads : List Observed) : Prop where
  request : messageVerdict J bytes = requestVerdict J reads
  frame : requestVerdict J reads = frameVerdict J bytes
  long : maxLineBytes < bytes.length → messageVerdict J bytes = none ∧
    requestVerdict J reads = none ∧ frameVerdict J bytes = none

/-- What `trim` takes off. -/
def trimmedOff (text : List Char) : List Char :=
  text.takeWhile Watcher.isWhitespace ++
    (text.dropWhile Watcher.isWhitespace).rtakeWhile Watcher.isWhitespace

/-- Trimmed text that is JSON, in a line that is too long or has other white space around it than
JSON knows. -/
def Lax (bytes : List UInt8) : Prop :=
  ∃ text, fromUtf8 bytes = some text ∧ (J.fromStr (Watcher.trim text)).isSome ∧
    (maxLineBytes < bytes.length ∨ ∃ c ∈ trimmedOff text, ¬jsonBlank c)

end

/-! ### White space around a value

JSON has four blanks, and `str::trim` removes all the white space there is in Unicode. So a reader
that trims first is more lenient than one that does not, when foreign blanks are at an end; with
JSON's own blanks they agree, as `serde_json` passes over these. -/

namespace JsonReader

variable (J : JsonReader)

/-- JSON's blanks before a value are passed over. -/
theorem fromStr_lead {lead : List Char} (h : ∀ c ∈ lead, jsonBlank c) (s : List Char) :
    J.fromStr (lead ++ s) = J.fromStr s := by
  induction lead with
  | nil => rfl
  | cons c lead ih =>
    rw [List.forall_mem_cons] at h
    rw [List.cons_append, J.blank_cons c _ h.1, ih h.2]

/-- JSON's blanks after a value are passed over. -/
theorem fromStr_trail {trail : List Char} (h : ∀ c ∈ trail, jsonBlank c) (s : List Char) :
    J.fromStr (s ++ trail) = J.fromStr s := by
  induction trail using List.reverseRecOn with
  | nil => rw [List.append_nil]
  | append_singleton trail c ih =>
    rw [List.forall_mem_append, List.forall_mem_singleton] at h
    rw [← List.append_assoc, J.blank_concat c _ h.2, ih h.1]

/-- White space that is none of JSON's, before a value, makes it none. -/
theorem fromStr_foreign_lead {lead : List Char} (hwhite : ∀ c ∈ lead, Watcher.isWhitespace c)
    (h : ∃ c ∈ lead, ¬jsonBlank c) (s : List Char) : J.fromStr (lead ++ s) = none := by
  induction lead with
  | nil => exact absurd h (by simp)
  | cons c lead ih =>
    rw [List.forall_mem_cons] at hwhite
    rw [List.cons_append]
    by_cases hblank : jsonBlank c
    · rw [J.blank_cons c _ hblank]
      rw [List.exists_mem_cons_iff, or_iff_right (not_not.mpr hblank)] at h
      exact ih hwhite.2 h
    · exact J.foreign_cons c _ hwhite.1 hblank

/-- White space that is none of JSON's, after a value, makes it none. -/
theorem fromStr_foreign_trail {trail : List Char} (hwhite : ∀ c ∈ trail, Watcher.isWhitespace c)
    (h : ∃ c ∈ trail, ¬jsonBlank c) (s : List Char) : J.fromStr (s ++ trail) = none := by
  induction trail using List.reverseRecOn with
  | nil => exact absurd h (by simp)
  | append_singleton trail c ih =>
    rw [List.forall_mem_append, List.forall_mem_singleton] at hwhite
    rw [← List.append_assoc]
    by_cases hblank : jsonBlank c
    · rw [J.blank_concat c _ hblank]
      obtain ⟨d, hd, hforeign⟩ := h
      rcases List.mem_append.mp hd with hold | hnew
      · exact ih hwhite.1 ⟨d, hold, hforeign⟩
      · rw [List.mem_singleton.mp hnew] at hforeign
        exact absurd hblank hforeign
    · exact J.foreign_concat c _ hwhite.2 hblank

/-- Text is what `trim` leaves, with what it takes off around it. -/
theorem trim_parts (text : List Char) :
    text = text.takeWhile Watcher.isWhitespace ++ (Watcher.trim text ++
      (text.dropWhile Watcher.isWhitespace).rtakeWhile Watcher.isWhitespace) := by
  have hright : Watcher.trim text ++
      (text.dropWhile Watcher.isWhitespace).rtakeWhile Watcher.isWhitespace =
        text.dropWhile Watcher.isWhitespace :=
    List.rdropWhile_append_rtakeWhile
  rw [hright, List.takeWhile_append_dropWhile]

/-- Where JSON knows the white space, text parses as what is left when it is trimmed. -/
theorem fromStr_trim {text : List Char} (h : ∀ c ∈ trimmedOff text, jsonBlank c) :
    J.fromStr text = J.fromStr (Watcher.trim text) := by
  rw [trimmedOff, List.forall_mem_append] at h
  conv_lhs => rw [trim_parts text]
  rw [J.fromStr_lead h.1, J.fromStr_trail h.2]

/-- Where JSON does not, it does not parse. -/
theorem fromStr_of_foreign {text : List Char} (h : ∃ c ∈ trimmedOff text, ¬jsonBlank c) :
    J.fromStr text = none := by
  have hlead : ∀ c ∈ text.takeWhile Watcher.isWhitespace, Watcher.isWhitespace c := fun c hc =>
    List.mem_takeWhile_imp hc
  have htrail : ∀ c ∈ (text.dropWhile Watcher.isWhitespace).rtakeWhile Watcher.isWhitespace,
      Watcher.isWhitespace c := fun c hc => List.mem_rtakeWhile_imp hc
  obtain ⟨c, hc, hforeign⟩ := h
  rw [trim_parts text]
  rcases List.mem_append.mp hc with hleft | hright
  · exact J.fromStr_foreign_lead hlead ⟨c, hleft, hforeign⟩ _
  · rw [← List.append_assoc]
    exact J.fromStr_foreign_trail htrail ⟨c, hright, hforeign⟩ _

/-- A byte of white space after a text makes no difference. -/
theorem fromSlice_concat {b : UInt8} (hascii : b.toNat < 0x80)
    (h : jsonBlank (Char.ofNat b.toNat)) (bytes : List UInt8) :
    J.fromSlice (bytes ++ [b]) = J.fromSlice bytes := by
  rw [J.fromSlice_eq, J.fromSlice_eq, fromUtf8_concat_ascii hascii, Option.bind_map]
  refine congrArg _ (funext fun s => ?_)
  exact J.blank_concat _ s h

/-- Nor do the line ends that are popped. -/
theorem fromSlice_rdropWhile (bytes : List UInt8) :
    J.fromSlice (bytes.rdropWhile isLineEnd) = J.fromSlice bytes := by
  induction bytes using List.reverseRecOn with
  | nil => rfl
  | append_singleton bytes b ih =>
    by_cases hend : isLineEnd b
    · have hblank : b.toNat < 0x80 ∧ jsonBlank (Char.ofNat b.toNat) := by
        rw [isLineEnd, Bool.or_eq_true, decide_eq_true_eq, decide_eq_true_eq] at hend
        rcases hend with rfl | rfl <;> decide
      rw [List.rdropWhile_concat_pos _ _ _ hend, ih, J.fromSlice_concat hblank.1 hblank.2]
    · rw [List.rdropWhile_concat_neg _ _ _ hend]

end JsonReader

/-! ### One line

Each verdict on a line that ends with its line feed, in terms of the text of the line. -/

section Line

variable {J : JsonReader} {line : List UInt8} {reads : List Observed}

/-- The framing module bounds the length, and does not trim. -/
theorem messageVerdict_line (h : newline ∉ line) :
    messageVerdict J (line ++ [newline]) =
      if maxLineBytes < (line ++ [newline]).length then none
      else (fromUtf8 (line ++ [newline])).bind J.fromStr := by
  rw [messageVerdict, readMessage_line h, Option.bind_some, parseLine]
  split_ifs with hlong
  · rfl
  · rw [J.fromSlice_rdropWhile, ← J.fromSlice_eq]
    cases J.fromSlice (line ++ [newline]) <;> rfl

/-- `read_request` reads the line, or something that is too long as well. -/
theorem requestVerdict_eq_parseRequest (h : newline ∉ line)
    (hreads : arrived reads = line ++ [newline]) (hunbroken : Observed.wouldBlock ∉ reads) :
    requestVerdict J reads = parseRequest J.fromStr (line ++ [newline]) := by
  have hrequest : Observed.wouldBlock ∉ requestReads reads := fun hmem =>
    hunbroken ((List.takeWhile_prefix _).subset hmem)
  rw [requestVerdict, readRequest]
  by_cases hlong : maxLineBytes + 1 ≤ ([] ++ line).length
  · have hnone : parseRequest J.fromStr (line ++ [newline]) = none :=
      parseRequest_of_long (by rw [List.length_append]; exact Nat.lt_of_lt_of_le hlong (by simp))
    rw [hnone]
    rcases readLine_of_not hreads h List.not_mem_nil (.inr hlong) 0 with heq | ⟨cut, c, heq, hcut⟩
    · rw [heq]
      rfl
    · rw [heq]
      dsimp only
      rw [parseRequest_of_long (by omega)]
      rfl
  · rw [readLine_eq_some hreads h hrequest List.not_mem_nil (Nat.lt_of_not_le hlong) 0]
    simp [Option.map_map, Function.comp_def]

/-- The reader of a request bounds the length, and trims. -/
theorem requestVerdict_line (h : newline ∉ line) (hreads : arrived reads = line ++ [newline])
    (hunbroken : Observed.wouldBlock ∉ reads) :
    requestVerdict J reads =
      if maxLineBytes < (line ++ [newline]).length then none
      else (fromUtf8 (line ++ [newline])).bind fun text => J.fromStr (Watcher.trim text) := by
  rw [requestVerdict_eq_parseRequest h hreads hunbroken]
  split_ifs with hlong
  · exact parseRequest_of_long hlong
  · rw [parseRequest, if_neg (by simp)]
    cases fromUtf8 (line ++ [newline]) with
    | none => rfl
    | some text =>
      dsimp only
      rw [if_neg hlong, Option.bind_some]
      split_ifs with hblank
      · rw [hblank, J.fromStr_nil]
      · rfl

/-- The reader of a plugin's lines trims, and has no bound. -/
theorem frameVerdict_line (h : newline ∉ line) :
    frameVerdict J (line ++ [newline]) =
      (fromUtf8 (line ++ [newline])).bind fun text => J.fromStr (Watcher.trim text) := by
  rw [frameVerdict, readFrame, readUntil_line h]
  dsimp only
  cases fromUtf8 (line ++ [newline]) with
  | none => rfl
  | some text => simp [Option.map_map, Function.comp_def]

end Line

/-- **The readers agree on a line exactly when it is not lax**: when its text, trimmed, is no JSON,
or the line is short enough and has no white space around its text but what JSON knows. -/
theorem readersAgree_iff (J : JsonReader) (line : List UInt8) (reads : List Observed)
    (hline : newline ∉ line) (hreads : arrived reads = line ++ [newline])
    (hunbroken : Observed.wouldBlock ∉ reads) :
    ReadersAgree J (line ++ [newline]) reads ↔ ¬Lax J (line ++ [newline]) := by
  have hmessage := messageVerdict_line (J := J) hline
  have hrequest := requestVerdict_line (J := J) hline hreads hunbroken
  have hframe := frameVerdict_line (J := J) hline
  cases htext : fromUtf8 (line ++ [newline]) with
  | none =>
    rw [htext] at hmessage hrequest hframe
    simp only [Option.bind_none, ite_self] at hmessage hrequest hframe
    refine iff_of_true ⟨by rw [hmessage, hrequest], by rw [hrequest, hframe],
      fun _ => ⟨hmessage, hrequest, hframe⟩⟩ ?_
    rintro ⟨text, hsome, -⟩
    rw [htext] at hsome
    cases hsome
  | some text =>
    rw [htext] at hmessage hrequest hframe
    simp only [Option.bind_some] at hmessage hrequest hframe
    have hlax : Lax J (line ++ [newline]) ↔ (J.fromStr (Watcher.trim text)).isSome ∧
        (maxLineBytes < (line ++ [newline]).length ∨
          ∃ c ∈ trimmedOff text, ¬jsonBlank c) := by
      simp [Lax, htext]
    rw [hlax]
    have hnone (h : ¬(J.fromStr (Watcher.trim text)).isSome) :
        J.fromStr (Watcher.trim text) = none :=
      Option.not_isSome_iff_eq_none.mp h
    by_cases hlong : maxLineBytes < (line ++ [newline]).length
    · -- only the connection of a plugin does not look at the length
      rw [if_pos hlong] at hmessage hrequest
      rw [and_iff_left (.inl hlong)]
      constructor
      · rintro ⟨-, -, hall⟩ hsome
        rw [← hframe, (hall hlong).2.2] at hsome
        cases hsome
      · intro h
        rw [hnone h] at hframe
        exact ⟨by rw [hmessage, hrequest], by rw [hrequest, hframe],
          fun _ => ⟨hmessage, hrequest, hframe⟩⟩
    · rw [if_neg hlong] at hmessage hrequest
      rw [or_iff_right hlong]
      by_cases hforeign : ∃ c ∈ trimmedOff text, ¬jsonBlank c
      · -- only `read_message` sees the white space
        rw [J.fromStr_of_foreign hforeign] at hmessage
        rw [and_iff_left hforeign]
        constructor
        · rintro ⟨hsame, -, -⟩ hsome
          rw [← hrequest, ← hsame, hmessage] at hsome
          cases hsome
        · intro h
          rw [hnone h] at hrequest hframe
          exact ⟨by rw [hmessage, hrequest], by rw [hrequest, hframe], fun h => absurd h hlong⟩
      · have hblank : ∀ c ∈ trimmedOff text, jsonBlank c := by
          simpa only [not_exists, not_and, not_not] using hforeign
        rw [J.fromStr_trim hblank] at hmessage
        exact iff_of_true ⟨by rw [hmessage, hrequest], by rw [hrequest, hframe],
          fun h => absurd h hlong⟩ (fun h => hforeign h.2)

/-! ### A reader of empty objects

A parser that knows one value, as a reader to try the statements on: it passes over JSON's blanks as
`serde_json` does. -/

namespace JsonReader

/-- Text without the white space of JSON around it. -/
def strip (s : List Char) : List Char :=
  (s.dropWhile jsonBlank).rdropWhile jsonBlank

/-- A blank at the beginning is stripped. -/
theorem strip_cons {c : Char} (h : jsonBlank c) (s : List Char) :
    strip (c :: s) = strip s := by
  rw [strip, List.dropWhile_cons_of_pos h, strip]

/-- A blank at the end is stripped. -/
theorem strip_concat {c : Char} (h : jsonBlank c) (s : List Char) :
    strip (s ++ [c]) = strip s := by
  rw [strip, strip, List.dropWhile_append]
  split_ifs with hnil
  · rw [List.isEmpty_iff.mp hnil, List.dropWhile_cons_of_pos h]
    rfl
  · rw [List.rdropWhile_concat_pos _ _ _ h]

/-- A character that is no white space of JSON stays where it is. -/
theorem head?_strip_cons {c : Char} (h : ¬jsonBlank c) (s : List Char) :
    (strip (c :: s)).head? = some c := by
  rw [strip, List.dropWhile_cons_of_neg h]
  induction s using List.reverseRecOn with
  | nil => rw [List.rdropWhile_singleton, if_neg h]; rfl
  | append_singleton s d ih =>
    rw [← List.cons_append, List.rdropWhile_concat]
    split_ifs
    · exact ih
    · rfl

/-- What is no blank stays at the end. -/
theorem getLast?_strip_concat {c : Char} (h : ¬jsonBlank c) (s : List Char) :
    (strip (s ++ [c])).getLast? = some c := by
  rw [strip, List.dropWhile_append]
  split_ifs
  · rw [List.dropWhile_cons_of_neg h, List.rdropWhile_singleton, if_neg h]
    rfl
  · rw [List.rdropWhile_concat_neg _ _ _ h, List.getLast?_concat]

/-- The empty object, with white space around it. -/
def parseBraces (s : List Char) : Option Value :=
  if strip s = ['\x7b', '\x7d'] then some (.object []) else none

/-- Nothing else is a value. -/
theorem parseBraces_eq_none {s : List Char} (h : strip s ≠ ['\x7b', '\x7d']) :
    parseBraces s = none :=
  if_neg h

/-- A parser that knows the empty object. -/
def braces : JsonReader where
  fromSlice bytes := (fromUtf8 bytes).bind parseBraces
  fromStr := parseBraces
  fromSlice_eq _ := rfl
  fromStr_nil := rfl
  blank_cons c s h := by rw [parseBraces, strip_cons h, parseBraces]
  blank_concat c s h := by rw [parseBraces, strip_concat h, parseBraces]
  foreign_cons c s hwhite h := by
    refine parseBraces_eq_none fun heq => ?_
    have hhead := head?_strip_cons h s
    rw [heq] at hhead
    rw [← Option.some.inj hhead] at hwhite
    revert hwhite
    decide
  foreign_concat c s hwhite h := by
    refine parseBraces_eq_none fun heq => ?_
    have hlast := getLast?_strip_concat h s
    rw [heq] at hlast
    rw [← Option.some.inj hlast] at hwhite
    revert hwhite
    decide

end JsonReader

/-- The readers agree on an empty object. -/
theorem readersAgree_braces :
    ReadersAgree .braces ([123, 125] ++ [newline]) [.data 123 [125, 10]] := by
  refine (readersAgree_iff .braces [123, 125] [.data 123 [125, 10]] (by decide) rfl
    (by decide)).mpr ?_
  rintro ⟨text, htext, -, hor⟩
  have hchars : fromUtf8 ([123, 125] ++ [newline]) = some ['\x7b', '\x7d', '\n'] := by decide
  obtain rfl := Option.some.inj (hchars.symm.trans htext)
  have hoff : trimmedOff ['\x7b', '\x7d', '\n'] = ['\n'] := by decide
  rcases hor with hlong | ⟨c, hc, hforeign⟩
  · exact absurd hlong (by decide)
  · rw [hoff, List.mem_singleton] at hc
    subst hc
    exact hforeign (by decide)

/-- **A vertical tab before an empty object**: `read_message` refuses the line, the other two take
it. -/
theorem readers_disagree :
    ¬∀ (J : JsonReader) (line : List UInt8) (reads : List Observed), newline ∉ line →
      arrived reads = line ++ [newline] → Observed.wouldBlock ∉ reads →
        ReadersAgree J (line ++ [newline]) reads := by
  intro h
  have hsame := (h .braces [11, 123, 125] [.data 11 [123, 125, 10]] (by decide) rfl
    (by decide)).request
  have hrequest : (requestVerdict .braces [.data 11 [123, 125, 10]]).isSome := by decide
  rw [← hsame] at hrequest
  revert hrequest
  decide

end Agentd
