import Agentd.Foundations.Utf8
import Agentd.Protocol
import Agentd.Watcher.Model

/-!
# A connection of the control socket

`handle_client` reads one request, and answers it; after `subscribe` it goes on as
`run_subscribe`, which reads what the client sends on the same connection. The two read
differently. `read_request` is a `read_line` through buffers of its own, and what these hold
after the line is dropped with them. `read_line_nonblocking` starts with an empty buffer at every
call, and returns at the first line feed it has, or when there is nothing to read.

The listener is one of `tokio`, and `into_std` leaves a connection as it was accepted:
non-blocking. So both readers may find that there is nothing yet. What the reads of a connection
find is a list of `Agentd.Observed`, after which there is the end of the stream. The sizes of the
buffers only bound what one read brings, so a read brings any number of bytes here; one that is
interrupted is made again and does not count. Cloning the connection and setting it non-blocking
succeed.
-/

namespace Agentd

open Json Utf8

/-- `MAX_LINE_BYTES`. -/
def maxLineBytes : ℕ := 1048576

/-- What a read of a connection finds. -/
inductive Observed
  /-- Some bytes, one at least. -/
  | data (byte : UInt8) (more : List UInt8)
  | wouldBlock
deriving DecidableEq

/-- The bytes it brings. -/
def Observed.bytes : Observed → List UInt8
  | data byte more => byte :: more
  | wouldBlock => []

/-- A connection as it is read. -/
structure Conn where
  /-- How many reads were made. -/
  made : ℕ
  /-- What the next ones find, before the end of the stream. -/
  ahead : List Observed

/-- The line feed. -/
def newline : UInt8 := 10

namespace Router

/-! ### The request

`read_request` takes a line through a buffer of its own, of at most `MAX_LINE_BYTES`, and parses it.
-/

/-- `read_line` through `take(limit)`, with the line feed; `none` is an error. What was read after
the line feed is lost. -/
def readLine (limit : ℕ) : List UInt8 → ℕ → List Observed → Option (List UInt8 × Conn)
  | buf, made, [] => some (buf, ⟨made + 1, []⟩)
  | _, _, .wouldBlock :: _ => none
  | buf, made, .data byte more :: ahead =>
    let buf := (buf ++ byte :: more).take limit
    if newline ∈ buf then some (buf.takeWhile (· ≠ newline) ++ [newline], ⟨made + 1, ahead⟩)
    else if buf.length = limit then some (buf, ⟨made + 1, ahead⟩)
    else readLine limit buf (made + 1) ahead

section FromStr

/- `serde_json::from_str`, of text without white space around it. -/
variable (fromStr : List Char → Option Value)

/-- The request in a line: the part of `read_request` after the read. -/
def parseRequest (line : List UInt8) : Option Value :=
  if line = [] then none
  else match fromUtf8 line with
    | none => none
    | some text =>
      if maxLineBytes < line.length then none
      else
        let trimmed := Watcher.trim text
        if trimmed = [] then none else fromStr trimmed

/-- `read_request`. -/
def readRequest (c : Conn) : Option (Value × Conn) :=
  match readLine (maxLineBytes + 1) [] c.made c.ahead with
  | none => none
  | some (line, c) => (parseRequest fromStr line).map fun req => (req, c)

/-! ### Streaming

`run_subscribe` looks for a line and for an event in turn. The event half is given by what it finds
in its channel and whether it can write it. -/

/-- `is_unsubscribe_frame`. -/
def isUnsubscribeFrame (line : List Char) : Bool :=
  match fromStr (Watcher.trim line) with
  | none => false
  | some v => v.getStr "method" == some Method.unsubscribe

end FromStr

/-- `ReadLine`. -/
inductive ReadLine
  | line (line : List Char)
  | eof
  | wouldBlock
  | error

/-- `read_line_nonblocking`, with what `buf` holds. -/
def readLineNonblocking : List UInt8 → ℕ → List Observed → ReadLine × Conn
  | buf, made, [] =>
    (if buf = [] then .eof else .line (fromUtf8Lossy buf), ⟨made + 1, []⟩)
  | buf, made, .wouldBlock :: ahead =>
    (if buf = [] then .wouldBlock else .line (fromUtf8Lossy buf), ⟨made + 1, ahead⟩)
  | buf, made, .data byte more :: ahead =>
    let buf := buf ++ byte :: more
    if newline ∈ buf then
      (.line (fromUtf8Lossy (buf.takeWhile (· ≠ newline))), ⟨made + 1, ahead⟩)
    else if maxLineBytes < buf.length then (.error, ⟨made + 1, ahead⟩)
    else readLineNonblocking buf (made + 1) ahead

theorem length_ahead_le (buf : List UInt8) (made : ℕ) (ahead : List Observed) :
    (readLineNonblocking buf made ahead).2.ahead.length ≤ ahead.length - 1 := by
  induction ahead generalizing buf made with
  | nil => exact Nat.le_refl 0
  | cons o ahead ih =>
    cases o with
    | wouldBlock => exact Nat.le_refl ahead.length
    | data byte more =>
      rw [readLineNonblocking]
      split
      · exact Nat.le_refl ahead.length
      · split
        · exact Nat.le_refl ahead.length
        · exact (ih _ _).trans (Nat.sub_le _ _)

/-- What `rx.try_recv` gives, and whether an event can be written. -/
inductive TryRecv
  | event (written : Bool)
  | empty
  | disconnected
deriving DecidableEq

/-- The loop of `run_subscribe` goes on after it. -/
def TryRecv.goesOn : TryRecv → Bool
  | event written => written
  | empty => true
  | disconnected => false

/-- The events of a subscriber, and the connection they are written to. -/
structure Outgoing where
  /-- The answer to `subscribe` can be written. -/
  ackWritten : Bool
  /-- What `rx.try_recv` gives when so many reads have been made. -/
  tryRecv : ℕ → TryRecv

variable (fromStr : List Char → Option Value) (out : Outgoing)

/-- Whether a pass of the loop of `run_subscribe` breaks off. -/
def breaksOff : ReadLine × Conn → Bool
  | (.eof, _) => true
  | (.error, _) => true
  | (.wouldBlock, c) => !(out.tryRecv c.made).goesOn
  | (.line line, c) => isUnsubscribeFrame fromStr line || !(out.tryRecv c.made).goesOn

/-- The loop of `run_subscribe`. -/
def subscribeLoop (c : Conn) : Conn :=
  let got := readLineNonblocking [] c.made c.ahead
  if breaksOff fromStr out got = true then got.2 else subscribeLoop got.2
termination_by c.ahead.length
decreasing_by
  rename_i h
  have hle := length_ahead_le [] c.made c.ahead
  have hne : c.ahead ≠ [] := by
    intro hnil
    refine h ?_
    simp only [got, hnil]
    rfl
  have hpos := List.length_pos_iff.mpr hne
  omega

/-- `run_subscribe`: the connection when it leaves streaming mode, if it gets there. -/
def runSubscribe (c : Conn) : Option Conn :=
  if out.ackWritten then some (subscribeLoop fromStr out c) else none

/-! ### The connection

A read finds some bytes, or nothing at the moment; after the last one comes the end of the stream.
The reader of the request and the loop after it make their reads on the same connection. -/

/-- What becomes of a connection. -/
inductive Handled
  /-- It is closed without an answer. -/
  | closed
  /-- It is closed after one answer. -/
  | answered
  /-- It streams events, until so many reads were made. -/
  | streamed (reads : ℕ)
deriving DecidableEq

/-- `handle_client`, by what the reads of the connection find. -/
def handleClient (reads : List Observed) : Handled :=
  match readRequest fromStr ⟨0, reads⟩ with
  | none => .closed
  | some (req, c) =>
    match req.getStr "method" with
    | none => .answered
    | some method =>
      if method = Method.subscribe then
        match runSubscribe fromStr out c with
        | none => .closed
        | some left => .streamed left.made
      else .answered

end Router

end Agentd
