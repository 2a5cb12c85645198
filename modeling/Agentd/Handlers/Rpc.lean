import Agentd.Foundations.JsonText
import Agentd.Foundations.Pipe
import Agentd.Handlers.Basic
import Agentd.Handlers.Client
import Agentd.Tmux.Version
import Mathlib.Data.List.DropRight

/-!
# Requests and answers

The messages of JSON-RPC as the clients of the daemon write them and as the daemon answers, and
the lines they are sent as. An answer is about an error exactly when it has the field `error`, and
of an error there are its code and its text (`Agentd.ProtocolError`).

A message that reads back (`Agentd.Rpc.ReadsBack`) does so with the line feed and without, and when
its line is cut off, nothing is read (`Agentd.Rpc.parse_cut`).

A message is a JSON object on a line of its own. Requests, answers and events are written by
`serde_json::to_vec` and read by `from_str` after the line has been trimmed; a message is the same
on both sides when its text reads back (`Agentd.Rpc.ReadsBack`), which is a property of the value
and not of the connection.
-/

namespace Agentd

open Json Utf8 Watcher

namespace ProtocolError

/-- `ProtocolError::code`. -/
def code : ProtocolError → ℤ
  | parseError => -32700
  | invalidRequest => -32600
  | methodNotFound => -32601
  | invalidParams => -32602
  | internalError => -32603
  | sessionNotFound => -32001
  | pluginNotAllowed => -32002
  | permissionDenied => -32003
  | pluginNotAuthoritative => -32004
  | daemonShuttingDown => -32005

/-- `ProtocolError::default_message`. -/
def defaultMessage : ProtocolError → String
  | parseError => "parse error"
  | invalidRequest => "invalid request"
  | methodNotFound => "method not found"
  | invalidParams => "invalid params"
  | internalError => "internal error"
  | sessionNotFound => "session not found"
  | pluginNotAllowed => "plugin not in allowlist"
  | permissionDenied => "permission denied"
  | pluginNotAuthoritative => "plugin not authoritative for session"
  | daemonShuttingDown => "daemon shutting down"

/-- An error as text, `Display`. -/
def display (e : ProtocolError) : String :=
  toString e.code ++ ": " ++ e.defaultMessage

/-- The codes tell the errors apart. -/
theorem code_injective : Function.Injective code := by
  intro d e h
  cases d <;> cases e <;> first | rfl | exact absurd h (by decide)

/-- Every code is a negative number of five digits. -/
theorem code_bounds (e : ProtocolError) : -32700 ≤ e.code ∧ e.code ≤ -32001 := by
  cases e <;> decide

/-- The code as a JSON number. -/
def codeValue (e : ProtocolError) : Value :=
  .number (.negInt (-e.code - 1).toNat (by have := e.code_bounds; omega))

/-- The error in an answer. -/
def toValue (e : ProtocolError) : Value :=
  .object [("code", e.codeValue), ("message", .string e.display)]

end ProtocolError

namespace Rpc

/-! ### Messages

The fields by which the two sides know each other's messages. The keys of every object are written
in the order of their texts, in which `serde_json` keeps them. -/

/-- A request. -/
def request (id : UInt64) (method : String) (params : Value) : Value :=
  .object [("id", .ofU64 id), ("jsonrpc", .string "2.0"), ("method", .string method),
    ("params", params)]

/-- `json_rpc_result`. -/
def jsonRpcResult (id result : Value) : Value :=
  .object [("id", id), ("jsonrpc", .string "2.0"), ("result", result)]

/-- `json_rpc_error`. -/
def jsonRpcError (id : Value) (err : ProtocolError) : Value :=
  .object [("error", err.toValue), ("id", id), ("jsonrpc", .string "2.0")]

/-- The answer to a request with this `id`. -/
def response (id : Value) : Except ProtocolError Value → Value
  | .ok result => jsonRpcResult id result
  | .error err => jsonRpcError id err

/-- The `id` of a message, `null` when it has none. -/
def idOf (msg : Value) : Value :=
  (msg.get "id").getD .null

/-- The `params` of a message. -/
def paramsOf (msg : Value) : Value :=
  (msg.get "params").getD .null

section

variable (id : UInt64) (method : String) (params : Value)

@[simp] theorem idOf_request : idOf (request id method params) = .ofU64 id :=
  rfl

@[simp] theorem getStr_method_request : (request id method params).getStr "method" = some method :=
  rfl

@[simp] theorem paramsOf_request : paramsOf (request id method params) = params :=
  rfl

end

/-- A text is plain to any depth. -/
theorem plain_string (n : ℕ) (s : String) : (Value.string s).Plain n :=
  .string n s

/-- An object is plain when its keys are in order and its fields are plain, one level less deep. -/
theorem plain_object {n : ℕ} {fields : List (String × Value)}
    (hkeys : (fields.map Prod.fst).Pairwise KeyBefore) (h : ∀ f ∈ fields, f.2.Plain n) :
    (Value.object fields).Plain (n + 1) :=
  .object n fields h hkeys

/-- An error is plain. -/
theorem plain_error (e : ProtocolError) (n : ℕ) : e.toValue.Plain (n + 1) := by
  refine plain_object (by simp only [List.map_cons, List.map_nil]; decide) ?_
  rw [List.forall_mem_cons, List.forall_mem_singleton]
  exact ⟨.negInt n _ _, plain_string n _⟩

/-- An answer is plain when what it answers is. -/
theorem plain_response {n : ℕ} {id : Value} (hid : id.Plain (n + 1))
    {reply : Except ProtocolError Value} (h : ∀ v, reply = .ok v → v.Plain (n + 1)) :
    (response id reply).Plain (n + 2) := by
  cases reply with
  | ok v =>
    refine plain_object (by simp only [List.map_cons, List.map_nil]; decide) ?_
    simp only [List.forall_mem_cons]
    exact ⟨hid, plain_string _ _, h v rfl, List.forall_mem_nil _⟩
  | error e =>
    refine plain_object (by simp only [List.map_cons, List.map_nil]; decide) ?_
    simp only [List.forall_mem_cons]
    exact ⟨plain_error e n, hid, plain_string _ _, List.forall_mem_nil _⟩

/-! ### Lines

A line is the text of a message with a line feed after it. It has no other line feed, and begins and
ends with a brace, so that to trim it is to take the line feed off. -/

section Lines

variable (J : JsonText)

/-- `serde_json::to_vec`. -/
def toVec (v : Value) : List UInt8 :=
  encode (J.text v)

/-- What a reader makes of a line, `none` for an error: `serde_json::from_str(line.trim())`, when
there is a line and it is text. -/
def parse (line : List UInt8) : Option Value :=
  if line = [] then none else (fromUtf8 line).bind fun text => J.fromStr (trim text)

/-- The message is an object that reads back, and no part of it does. -/
def ReadsBack (v : Value) : Prop :=
  (∃ fields, v = .object fields) ∧ Exact J.fromStr (J.text v) v

variable {J} {v : Value}

/-- A plain object reads back, by what is asked of a way of writing. -/
theorem readsBack_of_plain {fields : List (String × Value)}
    (h : (Value.object fields).Plain 127) : ReadsBack J (.object fields) :=
  ⟨⟨fields, rfl⟩, J.exact_object fields h⟩

/-- A message has no line feed in it. -/
theorem newline_notMem_toVec (v : Value) : newline ∉ toVec J v :=
  notMem_encode_ascii (b := newline) (by decide) (J.newline_notMem v)

/-- What a message begins and ends with is not trimmed. -/
theorem not_isWhitespace_brace : ¬isWhitespace '\x7b' ∧ ¬isWhitespace '\x7d' := by
  decide

/-- A message is not the empty line, which would be taken for the end of the connection. -/
theorem ReadsBack.toVec_ne_nil (h : ReadsBack J v) : toVec J v ≠ [] := by
  obtain ⟨⟨fields, rfl⟩, -⟩ := h
  obtain ⟨s, hs⟩ := J.text_object fields
  rw [toVec, hs, encode_cons]
  exact fun heq => absurd (List.append_eq_nil_iff.mp heq).1 (by decide)

/-- `trim` takes off what is behind a message, and nothing of it. -/
theorem ReadsBack.trim_append (h : ReadsBack J v) {trail : List Char}
    (htrail : ∀ c ∈ trail, isWhitespace c) : trim (J.text v ++ trail) = J.text v := by
  obtain ⟨⟨fields, rfl⟩, -⟩ := h
  obtain ⟨s, hs⟩ := J.text_object fields
  refine trim_append_white htrail ?_ ?_ ?_
  · rw [hs]
    exact List.cons_ne_nil _ _
  · rw [hs]
    rintro c ⟨⟩
    exact not_isWhitespace_brace.1
  · rw [hs, List.getLast?_cons, List.getLast?_concat]
    rintro c ⟨⟩
    exact not_isWhitespace_brace.2

/-- A message without its line feed is read as well: the connection may end before it comes. -/
theorem parse_toVec (h : ReadsBack J v) : parse J (toVec J v) = some v := by
  have htrim : trim (J.text v) = J.text v := by
    have happend : trim (J.text v ++ []) = J.text v :=
      h.trim_append fun _ hc => absurd hc List.not_mem_nil
    rwa [List.append_nil] at happend
  rw [parse, if_neg h.toVec_ne_nil, toVec, fromUtf8_encode, Option.bind_some, htrim, h.2.1]

/-- A line feed is one byte. -/
theorem encode_newline : encode ['\n'] = [newline] := by
  decide

/-- **A line is read as the message it was made from.** -/
theorem parse_line (h : ReadsBack J v) : parse J (toVec J v ++ [newline]) = some v := by
  have htrim : trim (J.text v ++ ['\n']) = J.text v := by
    refine h.trim_append ?_
    rw [List.forall_mem_singleton]
    decide
  rw [parse, if_neg (by simp), toVec, ← encode_newline, ← encode_append, fromUtf8_encode,
    Option.bind_some, htrim, h.2.1]

/-- **Of a message that is cut off nothing is read.** -/
theorem parse_cut (h : ReadsBack J v) {part : List UInt8} (hpart : part <+: toVec J v)
    (hne : part ≠ toVec J v) : parse J part = none := by
  rw [parse]
  split_ifs with hnil
  · rfl
  cases htext : fromUtf8 part with
  | none => rfl
  | some text =>
    obtain ⟨hpre, hbytes⟩ := fromUtf8_cut hpart htext
    -- the text begins as the message does, so `trim` takes off its end only
    obtain ⟨⟨fields, rfl⟩, hexact⟩ := h
    obtain ⟨s, hs⟩ := J.text_object fields
    have htext_ne : text ≠ [] := by
      rintro rfl
      exact hnil hbytes
    obtain ⟨c, t, rfl⟩ := List.exists_cons_of_ne_nil htext_ne
    have hc : c = '\x7b' := by
      rw [hs, List.cons_prefix_cons] at hpre
      exact hpre.1
    have hdrop : (c :: t).dropWhile isWhitespace = c :: t := by
      rw [hc]
      exact List.dropWhile_cons_of_neg not_isWhitespace_brace.1
    have htrim : trim (c :: t) <+: c :: t := by
      rw [trim, hdrop]
      exact List.rdropWhile_prefix isWhitespace (c :: t)
    rw [Option.bind_some]
    refine hexact.2 _ (htrim.trans hpre) fun heq => hne ?_
    rw [hbytes, toVec]
    rw [heq] at htrim
    rw [hpre.eq_of_length_le htrim.length_le]

/-- An answer reads back whose `id` and result have no fractions and little depth. -/
theorem readsBack_response {id : Value} (hid : id.Plain 1) {reply : Except ProtocolError Value}
    (h : ∀ v, reply = .ok v → v.Plain 1) : ReadsBack J (response id reply) := by
  have hplain : (response id reply).Plain 127 :=
    (plain_response (n := 0) hid h).mono (by decide)
  cases reply <;> exact readsBack_of_plain hplain

/-! ### A message in a pipe

What arrives of a single message in a connection is a part of its line. The reader waits for the
line feed or the end; a part of a message that is not all of it is no message, since its last brace
is missing. -/

variable {p p' : Pipe UInt8} {l : List UInt8}

/-- Where nothing comes, only the end is read. -/
theorem parse_of_carries_nil (h : p.Carries newline []) (hread : p.readLine newline = some (l, p')) :
    parse J l = none ∧ p.closed = true ∧ p'.Carries newline [] ∧ p'.closed = p.closed := by
  rcases h.readLine_cases hread with ⟨line, rest, hlines, -⟩ | ⟨hclosed, -, hl, hrest, hclosed'⟩
  · cases hlines
  · refine ⟨?_, hclosed, hrest, hclosed'.trans hclosed.symm⟩
    rw [hl, h.content_nil]
    exact if_pos rfl

/-- Where a message comes first, it is read, or the end before it is whole. -/
theorem parse_of_carries {lines : List (List UInt8)} (hback : ReadsBack J v)
    (h : p.Carries newline (toVec J v :: lines)) (hread : p.readLine newline = some (l, p')) :
    (parse J l = some v ∨ parse J l = none ∧ p.closed = true) ∧ p'.Carries newline lines ∧
      p'.closed = p.closed := by
  have hclosed := Pipe.closed_readLine hread
  rcases h.readLine_cases hread with
    ⟨line, rest, hlines, rfl, hrest, -⟩ | ⟨hgone, hnewline, rfl, hrest, -⟩
  · obtain ⟨rfl, rfl⟩ := List.cons.inj hlines
    exact ⟨Or.inl (parse_line hback), hrest, hclosed⟩
  · refine ⟨?_, hrest.mono_nil (fun line hline => h.plain line (List.mem_cons_of_mem _ hline))
      (hclosed.trans hgone), hclosed⟩
    have hpart : p.content <+: toVec J v := by
      rcases h.head_cases with ⟨-, hpart⟩ | ⟨rest, hcontent, -⟩
      · exact hpart
      · exact absurd (by simp [hcontent]) hnewline
    by_cases hwhole : p.content = toVec J v
    · rw [hwhole]
      exact Or.inl (parse_toVec hback)
    · exact Or.inr ⟨parse_cut hback hpart hwhole, hgone⟩

end Lines

end Rpc

end Agentd
