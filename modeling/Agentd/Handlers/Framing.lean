import Agentd.Foundations.Framing
import Agentd.Handlers.Client
import Mathlib.Data.List.DropRight

/-!
# Messages on a stream

`ipc/framing.rs`: a message is one line of JSON. `write_message` appends the text and a line feed;
`read_message` takes a line, refuses it when it is too long with the line feed, takes the line ends
off and parses what is left. Reading comes from memory, so that only the end of the stream and the
two errors of the format can come up.

How `serde_json` writes and reads a value is left open: `toVec` and `fromSlice` are parameters, and
`Agentd.Ipc.readMessages_written` asks of them only that a value that is written reads back and
has no line end in it.
-/

namespace Agentd.Ipc

open Framing Json

/-- `FramingError`. -/
inductive FramingError
  | lineTooLong
  | json
deriving DecidableEq

/-- What is popped from the end of a line. -/
def isLineEnd (b : UInt8) : Bool :=
  b = newline || b = 13

section

variable (toVec : Value → List UInt8) (fromSlice : List UInt8 → Option Value)

/-- The message in a line that was read. -/
def parseLine (line : List UInt8) : Except FramingError Value :=
  if maxLineBytes < line.length then .error .lineTooLong
  else
    match fromSlice (line.rdropWhile isLineEnd) with
    | some v => .ok v
    | none => .error .json

/-- `read_message`, and what is left to read. -/
def readMessage (bytes : List UInt8) : Option (Except FramingError Value) × List UInt8 :=
  let (buf, rest) := readUntil newline bytes
  if buf = [] then (none, rest) else (some (parseLine fromSlice buf), rest)

/-- `write_message`, at the end of what was written before. -/
def writeMessage (out : List UInt8) (msg : Value) : List UInt8 :=
  out ++ toVec msg ++ [newline]

/-- `read_message`, so many times. -/
def readMessages : ℕ → List UInt8 → List (Option (Except FramingError Value)) × List UInt8
  | 0, bytes => ([], bytes)
  | n + 1, bytes =>
    let (msg, rest) := readMessage fromSlice bytes
    let (msgs, rest) := readMessages n rest
    (msg :: msgs, rest)

/-- `write_message`, for each of some messages. -/
def written (msgs : List Value) : List UInt8 :=
  msgs.foldl (writeMessage toVec) []

end

variable {toVec : Value → List UInt8} {fromSlice : List UInt8 → Option Value}

/-- A message is read up to its line feed, and the rest is left. -/
theorem readMessage_line {line : List UInt8} (h : newline ∉ line) (rest : List UInt8) :
    readMessage fromSlice (line ++ newline :: rest) =
      (some (parseLine fromSlice (line ++ [newline])), rest) := by
  rw [readMessage, readUntil_line h]
  dsimp only
  rw [if_neg (by simp)]

/-- A line without line ends in it is parsed as it is. -/
theorem parseLine_line {line : List UInt8} (h : ∀ b ∈ line, ¬isLineEnd b)
    (hfits : line.length + 1 ≤ maxLineBytes) :
    parseLine fromSlice (line ++ [newline]) = match fromSlice line with
      | some v => .ok v
      | none => .error .json := by
  have hlast : ∀ hne : line ≠ [], ¬isLineEnd (line.getLast hne) := fun hne =>
    h _ (List.getLast_mem hne)
  have hpop : (line ++ [newline]).rdropWhile isLineEnd = line := by
    rw [List.rdropWhile_concat_pos _ _ _ (by decide), List.rdropWhile_eq_self_iff.mpr hlast]
  rw [parseLine, if_neg (by rw [List.length_append, List.length_singleton]; omega), hpop]

/-- Messages are written one line each. -/
theorem written_cons (msg : Value) (msgs : List Value) :
    written toVec (msg :: msgs) = toVec msg ++ newline :: written toVec msgs := by
  have hshift : ∀ (l : List Value) (out : List UInt8),
      l.foldl (writeMessage toVec) out = out ++ l.foldl (writeMessage toVec) [] := by
    intro l
    induction l with
    | nil => exact fun out => (List.append_nil out).symm
    | cons v l ih =>
      intro out
      rw [List.foldl_cons, List.foldl_cons, ih, ih (writeMessage toVec [] v)]
      simp [writeMessage]
  rw [written, List.foldl_cons, hshift, ← written]
  simp [writeMessage]

/-- The messages that were written come first, whatever is read after them. -/
theorem readMessages_written_append {msgs : List Value}
    (hplain : ∀ v ∈ msgs, ∀ b ∈ toVec v, ¬isLineEnd b)
    (hback : ∀ v ∈ msgs, fromSlice (toVec v) = some v)
    (hfits : ∀ v ∈ msgs, (toVec v).length + 1 ≤ maxLineBytes) (n : ℕ) (more : List UInt8) :
    readMessages fromSlice (msgs.length + n) (written toVec msgs ++ more) =
      (msgs.map (fun v => some (.ok v)) ++ (readMessages fromSlice n more).1,
        (readMessages fromSlice n more).2) := by
  induction msgs with
  | nil => simp [written]
  | cons v msgs ih =>
    rw [List.forall_mem_cons] at hplain hback hfits
    have hnewline : newline ∉ toVec v := fun hmem => hplain.1 newline hmem (by decide)
    have hparse : parseLine fromSlice (toVec v ++ [newline]) = .ok v := by
      rw [parseLine_line hplain.1 hfits.1, hback.1]
    rw [written_cons, List.append_assoc, List.cons_append, List.length_cons, Nat.add_right_comm,
      readMessages, readMessage_line hnewline]
    dsimp only
    rw [ih hplain.2 hback.2 hfits.2, hparse]
    rfl

/-- **Messages that fit are read as they were written**, and then the stream ends; and bytes that
follow them do not change what they are. The writer and the parser of JSON are parameters: what is
needed of them is that a text holds no line end and reads back, and that the line is within the
limit. -/
theorem readMessages_written (toVec : Value → List UInt8) (fromSlice : List UInt8 → Option Value)
    (msgs : List Value) (hplain : ∀ v ∈ msgs, ∀ b ∈ toVec v, ¬isLineEnd b)
    (hback : ∀ v ∈ msgs, fromSlice (toVec v) = some v)
    (hfits : ∀ v ∈ msgs, (toVec v ++ [newline]).length ≤ maxLineBytes) :
    readMessages fromSlice (msgs.length + 1) (written toVec msgs) =
        (msgs.map (fun v => some (.ok v)) ++ [none], []) ∧
      ∀ more, readMessages fromSlice msgs.length (written toVec msgs ++ more) =
        (msgs.map (fun v => some (.ok v)), more) := by
  have hfits' : ∀ v ∈ msgs, (toVec v).length + 1 ≤ maxLineBytes := fun v hv => by
    simpa only [List.length_append, List.length_singleton] using hfits v hv
  constructor
  · have hread := readMessages_written_append hplain hback hfits' 1 []
    rw [List.append_nil] at hread
    exact hread
  · intro more
    have hread := readMessages_written_append hplain hback hfits' 0 more
    rw [Nat.add_zero] at hread
    rw [hread, readMessages, List.append_nil]

/-- Two empty objects. -/
theorem readMessages_written_braces :
    readMessages (fun bytes => if bytes = [123, 125] then some (.object []) else none) 3
        (written (fun _ => [123, 125]) [.object [], .object []]) =
      ([some (.ok (.object [])), some (.ok (.object [])), none], []) :=
  (readMessages_written (fun _ => [123, 125])
    (fun bytes => if bytes = [123, 125] then some (.object []) else none)
    [.object [], .object []] (by simp [isLineEnd, newline]) (by simp) (by simp [maxLineBytes])).1

end Agentd.Ipc
