import Agentd.Foundations.Pipe
import Agentd.Handlers.Rpc
import Agentd.Handlers.Step

/-!
# The connection of a plugin

A plugin holds one connection to its socket and makes its calls on it one after the other.
`AgentdClient::call` writes a line and reads one; `handle_plugin_connection` reads a line, handles
the request in it, and writes the answer. Neither side looks at the `id` of what it reads, so a call
gets what comes next, whatever it is.

A `Agentd.PluginConnection` is both ends, with the bytes between them. Bytes go out and arrive in
pieces of any size, what others ask of the daemon is handled at any time, the handler of the
connection may end at any time, as it does after fifteen seconds of silence or when the daemon is
killed, and so may the plugin. The database and the order in which it was asked are kept in
`history`.

`Agentd.PluginConnection.Served` says what is in order on a connection: nothing is handled that was
not asked, nothing twice and nothing out of order, and what a call returns, other than an error of
the connection, is what the daemon answered to it. It holds of every state
(`Agentd.PluginConnection.served_once_run`), and as long as both ends are there no call waits in
vain (`Agentd.PluginConnection.returns_run`).
-/

namespace Agentd

open Json Utf8

/-- `ClientError`, as `AgentdClient::call` returns it. -/
inductive CallError
  /-- An error of the connection, or its end. -/
  | io
  | json
  /-- An answer that is an error. -/
  | rpc (err : Value)

/-- What was asked of the database, in order: by the plugin, or by others. -/
inductive Entry
  | own (method : String) (params : Value) (amb : Ambient)
  | foreign (i : Input)

namespace Entry

/-- The request an entry is about. -/
def input (name : String) : Entry → Input
  | own method params amb => ⟨.plugin name method params, amb⟩
  | foreign i => i

/-- What the plugin asked. -/
def asked? : Entry → Option (String × Value)
  | own method params _ => some (method, params)
  | foreign _ => none

end Entry

/-- What the plugin asked, of all that was. -/
def asked (history : List Entry) : List (String × Value) :=
  history.filterMap Entry.asked?

/-- The daemon's answers to what the plugin asked. -/
def replies (name : String) : Db → List Entry → List (Except ProtocolError Value)
  | _, [] => []
  | db, e :: history =>
    let o := handle db (e.input name)
    match e with
    | .own .. => o.reply :: replies name o.db history
    | .foreign _ => replies name o.db history

/-- The two ends of the connection of a plugin. -/
structure PluginConnection where
  db : Db
  /-- `next_id` of the client. -/
  nextId : UInt64
  /-- A call waits for its answer. -/
  waiting : Bool
  /-- What the calls returned. -/
  returned : List (Except CallError Value)
  /-- To the daemon. -/
  requests : Pipe UInt8
  /-- To the plugin. -/
  answers : Pipe UInt8
  /-- `handle_plugin_connection` runs. -/
  serving : Bool
  /-- The plugin runs. -/
  alive : Bool
  /-- The calls that were made. -/
  issued : List (String × Value)
  /-- What was asked of the database. -/
  history : List Entry

namespace PluginConnection

/-- What happens on the connection or around it. -/
inductive Move
  | call (method : String) (params : Value)
  /-- So many bytes of a request go out, or arrive. -/
  | send (n : ℕ)
  | arrive (n : ℕ)
  /-- The handler reads a line, if one is there. -/
  | serve (amb : Ambient)
  /-- So many bytes of an answer go out, or arrive. -/
  | reply (n : ℕ)
  | deliver (n : ℕ)
  /-- The call that waits reads a line, if one is there. -/
  | resume
  /-- The call that waits cannot write its request. -/
  | breakOff
  /-- `handle_plugin_connection` ends. -/
  | hangUp
  /-- The plugin ends. -/
  | leave
  /-- Others ask something of the daemon. -/
  | foreign (i : Input)

/-- The request of a call reads back, under whatever `id`. -/
def Move.ReadsBack (J : JsonText) : Move → Prop
  | .call method params => ∀ id, Rpc.ReadsBack J (Rpc.request id method params)
  | _ => True

/-- A step that moves bytes, or an end that goes on. -/
def Move.Internal : Move → Prop
  | .send _ | .arrive _ | .serve _ | .reply _ | .deliver _ | .resume => True
  | _ => False

/-- A connection that was accepted just now. -/
def start (db : Db) : PluginConnection where
  db := db
  nextId := 1
  waiting := false
  returned := []
  requests := .fresh
  answers := .fresh
  serving := true
  alive := true
  issued := []
  history := []

section Step

variable (J : JsonText) (name : String)

/-- What `call` makes of the line it reads. -/
def received (line : List UInt8) : Except CallError Value :=
  if line = [] ∨ fromUtf8 line = none then .error .io
  else match Rpc.parse J line with
  | none => .error .json
  | some resp => match resp.get "error" with
    | some err => .error (.rpc err)
    | none => .ok ((resp.get "result").getD .null)

/-- The method of a request, empty when it has none. -/
def methodOf (msg : Value) : String :=
  (msg.getStr "method").getD ""

/-- The request in a message. -/
def entryOf (msg : Value) (amb : Ambient) : Entry :=
  .own (methodOf msg) (Rpc.paramsOf msg) amb

/-- The next line to write. -/
def line (v : Value) : List UInt8 :=
  Rpc.toVec J v ++ [newline]

/-- One round of the loop of `handle_plugin_connection`, after the read. -/
def handleLine (s : PluginConnection) (line : List UInt8) (amb : Ambient) : PluginConnection :=
  match Rpc.parse J line with
  | none => { s with serving := false, answers := s.answers.close }
  | some msg =>
    let o := handle s.db ((entryOf msg amb).input name)
    { s with
      db := o.db
      history := s.history ++ [entryOf msg amb]
      answers := s.answers.write (PluginConnection.line J (Rpc.response (Rpc.idOf msg) o.reply)) }

/-- What happens. -/
def step (s : PluginConnection) : Move → PluginConnection
  | .call method params =>
    if s.alive = true ∧ s.waiting = false then
      { s with
        nextId := s.nextId + 1
        waiting := true
        issued := s.issued ++ [(method, params)]
        requests := s.requests.write (line J (Rpc.request s.nextId method params)) }
    else s
  | .send n => { s with requests := s.requests.send n }
  | .arrive n => { s with requests := s.requests.arrive n }
  | .serve amb =>
    -- the answer to the request before has been written
    if s.serving = true ∧ s.answers.unsent = [] then
      match s.requests.readLine newline with
      | none => s
      | some (line, requests) => handleLine J name { s with requests } line amb
    else s
  | .reply n => { s with answers := s.answers.send n }
  | .deliver n => { s with answers := s.answers.arrive n }
  | .resume =>
    if s.alive = true ∧ s.waiting = true ∧ s.requests.unsent = [] then
      match s.answers.readLine newline with
      | none => s
      | some (line, answers) =>
        { s with answers, waiting := false, returned := s.returned ++ [received J line] }
    else s
  | .breakOff =>
    if s.alive = true ∧ s.waiting = true ∧ s.serving = false ∧ s.requests.unsent ≠ [] then
      { s with
        waiting := false
        returned := s.returned ++ [.error .io]
        requests := { s.requests with unsent := [] } }
    else s
  | .hangUp => { s with serving := false, answers := s.answers.close }
  | .leave => { s with alive := false, requests := s.requests.close }
  | .foreign i => { s with db := next s.db i, history := s.history ++ [.foreign i] }

end Step

/-! ### What is in order

The history has the requests as they were handled, those of the plugin and those of others between
them. What the plugin asked is a sublist of it, in order, and the answers are those that the
handlers gave at these places. -/

/-- What a call returns for an answer. -/
def result : Except ProtocolError Value → Except CallError Value
  | .ok value => .ok value
  | .error err => .error (.rpc err.toValue)

/-- A call returned something the daemon said. -/
def Answered : Except CallError Value → Prop
  | .ok _ | .error (.rpc _) => True
  | .error .io | .error .json => False

/-- **What the plugin asked and what it was told**, on a connection that was accepted when the
database was `db₀`. -/
structure Served (name : String) (db₀ : Db) (s : PluginConnection) : Prop where
  /-- The database is that of the requests in `history`, one after the other. -/
  db : s.db = Machine.run next db₀ (s.history.map (Entry.input name))
  /-- The daemon was asked what the plugin asked, in the order it was, and nothing twice. -/
  inOrder : asked s.history <+: s.issued
  /-- The requests that were handled were answered, the last one perhaps not yet. -/
  ahead : (asked s.history).length ≤ s.returned.length + 1
  /-- An answer that a call returns is the daemon's to the request of this call. -/
  answered : ∀ (k : ℕ) r, s.returned[k]? = some r → Answered r →
    (replies name db₀ s.history)[k]?.map result = some r
  /-- A call that returns an error of the connection is the last one that may have been handled. -/
  ending : ∀ (k : ℕ) r, s.returned[k]? = some r → ¬Answered r → (asked s.history).length ≤ k + 1

section History

variable (name : String)

/-- What was asked in a history is what was asked in its parts. -/
theorem asked_append (l₁ l₂ : List Entry) : asked (l₁ ++ l₂) = asked l₁ ++ asked l₂ :=
  List.filterMap_append

/-- The answers of a history are those of its parts, the later ones from the database the first part
leaves. -/
theorem replies_append (l₁ l₂ : List Entry) : ∀ db, replies name db (l₁ ++ l₂) =
    replies name db l₁ ++
      replies name (Machine.run next db (l₁.map (Entry.input name))) l₂ := by
  induction l₁ with
  | nil => exact fun _ => rfl
  | cons e l₁ ih =>
    intro db
    cases e with
    | own method params amb =>
      rw [List.cons_append, replies, ih, replies, List.cons_append]
      rfl
    | foreign i =>
      rw [List.cons_append, replies, ih, replies]
      rfl

/-- Each call has one answer. -/
theorem length_replies (l : List Entry) : ∀ db, (replies name db l).length = (asked l).length := by
  induction l with
  | nil => exact fun _ => rfl
  | cons e l ih =>
    intro db
    cases e with
    | own method params amb => exact congrArg (· + 1) (ih _)
    | foreign i => exact ih _

/-- The last request is handled last. -/
theorem run_input_concat (db : Db) (l : List Entry) (e : Entry) :
    Machine.run next db ((l ++ [e]).map (Entry.input name)) =
      next (Machine.run next db (l.map (Entry.input name))) (e.input name) := by
  rw [List.map_append, List.map_singleton, Machine.run_concat]

end History

/-! ### Answers are plain

What a handler answers has no number with a fraction in it and is not nested deeply, so that it
reads back. This is seen handler by handler. -/

/-- An answer of the daemon that says yes is an object without depth and fractions. -/
def PlainReply (o : Outcome) : Prop :=
  ∀ v, o.reply = .ok v → v.Plain 1

/-- A refusal is answered with an error, which is plain. -/
theorem plainReply_refuse (db : Db) (e : ProtocolError) : PlainReply (refuse db e) := by
  intro v h
  cases h

/-- A report that was accepted is answered with the number of its event. -/
theorem plainReply_accept (db : Db) (eventId : ℕ) (events : List Event) :
    PlainReply (Plugin.accept db eventId events) := by
  rintro v ⟨⟩
  refine Rpc.plain_object (by simp only [List.map_cons, List.map_nil]; decide) ?_
  simp only [List.forall_mem_cons]
  exact ⟨.bool 0 true, Rpc.plain_string 0 _, List.forall_mem_nil _⟩

/-- A report has a plain answer, whatever its kind and however it fails. -/
theorem plainReply_applyReport (rep : Plugin.Report) (db : Db) (eventId : ℕ) (amb : Ambient) :
    PlainReply (Plugin.applyReport rep db eventId amb) := by
  unfold Plugin.applyReport
  dsimp only
  repeat' split
  all_goals first | exact plainReply_accept _ _ _ | exact plainReply_refuse _ _

/-- **Every answer to a plugin is plain.** -/
theorem plainReply_handle (name method : String) (params : Value) (db : Db) (amb : Ambient) :
    PlainReply (handle db ⟨.plugin name method params, amb⟩) := by
  change PlainReply (Plugin.dispatch method params db name amb)
  unfold Plugin.dispatch
  split_ifs
  · unfold Plugin.pluginHello
    split
    · exact plainReply_refuse _ _
    split_ifs
    · exact plainReply_refuse _ _
    · rintro v ⟨⟩
      refine Rpc.plain_object (by simp only [List.map_cons, List.map_nil]; decide) ?_
      simp only [List.forall_mem_cons]
      exact ⟨.posInt 0 5, .bool 0 true, Rpc.plain_string 0 _, List.forall_mem_nil _⟩
  · unfold Plugin.sessionDiscover
    dsimp only
    repeat' split
    all_goals first
      | exact plainReply_refuse _ _
      | rintro v ⟨⟩
        refine Rpc.plain_object (by simp only [List.map_cons, List.map_nil]; decide) ?_
        simp only [List.forall_mem_cons]
        exact ⟨.bool 0 true, Rpc.plain_string 0 _, List.forall_mem_nil _⟩
  · unfold Plugin.sessionReportEvent
    repeat' split
    all_goals first | exact plainReply_refuse _ _ | exact plainReply_applyReport _ _ _ _
  · rintro v ⟨⟩
    refine Rpc.plain_object (by simp only [List.map_cons, List.map_nil]; decide) ?_
    simp only [List.forall_mem_cons]
    exact ⟨.posInt 0 0, .posInt 0 0, .bool 0 true, .bool 0 false, List.forall_mem_nil _⟩
  · rintro v ⟨⟩
    refine Rpc.plain_object (by simp only [List.map_cons, List.map_nil]; decide) ?_
    simp only [List.forall_mem_singleton]
    exact .bool 0 true
  · exact plainReply_refuse _ _

/-! ### The call that is under way

One call is made at a time, since the client waits for its answer. So the connection is in one of
three phases, and what is in its two pipes is at most one request or one answer, in parts perhaps.
Each move is looked at in each phase. -/

section Invariant

variable (J : JsonText) (name : String) (db₀ : Db)

/-- Where the last call is. -/
inductive Phase (s : PluginConnection) : Prop
  /-- It has returned. -/
  | idle (hwaiting : s.waiting = false) (hanswers : s.answers.Carries newline [])
    (hopen : s.serving = true → s.requests.Carries newline [] ∧ asked s.history = s.issued)
  /-- Its request is on the way. -/
  | asking (id : UInt64) (method : String) (params : Value) (hwaiting : s.waiting = true)
    (hanswers : s.answers.Carries newline [])
    (hback : Rpc.ReadsBack J (Rpc.request id method params))
    (hopen : s.serving = true →
      s.requests.Carries newline [Rpc.toVec J (Rpc.request id method params)] ∧
        s.issued = asked s.history ++ [(method, params)])
  /-- The answer is on the way. -/
  | answering (id : UInt64) (reply : Except ProtocolError Value) (hwaiting : s.waiting = true)
    (hanswers : s.answers.Carries newline [Rpc.toVec J (Rpc.response (.ofU64 id) reply)])
    (hback : Rpc.ReadsBack J (Rpc.response (.ofU64 id) reply))
    (hreply : (replies name db₀ s.history)[s.returned.length]? = some reply)
    (hissued : asked s.history = s.issued) (hrequests : s.requests.Carries newline [])

/-- What is kept besides. -/
structure Kept (s : PluginConnection) : Prop extends Served name db₀ s where
  count : s.issued.length = s.returned.length + s.waiting.toNat
  openRequests : s.alive = true → s.requests.closed = false
  openAnswers : s.serving = true → s.answers.closed = false
  intact : s.serving = true → ∀ r ∈ s.returned, Answered r
  phase : Phase J name db₀ s

variable {J name db₀} {s : PluginConnection}

/-- A new connection is idle. -/
theorem kept_start : Kept J name db₀ (start db₀) where
  db := rfl
  inOrder := List.prefix_rfl
  ahead := Nat.zero_le _
  answered k r h := by cases h
  ending k r h := by cases h
  count := rfl
  openRequests _ := rfl
  openAnswers _ := rfl
  intact _ r h := absurd h List.not_mem_nil
  phase := .idle rfl Pipe.carries_fresh fun _ => ⟨Pipe.carries_fresh, rfl⟩

/-- A message that reads back, as a line. -/
theorem newline_notMem (v : Value) : newline ∉ Rpc.toVec J v :=
  Rpc.newline_notMem_toVec v

/-- A request of somebody else is handled at once, and passes the connection by. -/
theorem Kept.foreign (h : Kept J name db₀ s) (i : Input) :
    Kept J name db₀ (step J name s (.foreign i)) := by
  have hasked : asked (s.history ++ [.foreign i]) = asked s.history := by
    rw [asked_append]
    exact List.append_nil _
  have hreplies : replies name db₀ (s.history ++ [.foreign i]) = replies name db₀ s.history := by
    rw [replies_append]
    exact List.append_nil _
  refine
    { db := ?_, inOrder := ?_, ahead := ?_, answered := ?_, ending := ?_, count := h.count,
      openRequests := h.openRequests, openAnswers := h.openAnswers, intact := h.intact,
      phase := ?_ }
  · dsimp only [step]
    rw [run_input_concat, ← h.db]
    rfl
  · exact hasked ▸ h.inOrder
  · exact hasked ▸ h.ahead
  · exact hreplies ▸ h.answered
  · exact hasked ▸ h.ending
  · cases h.phase with
    | idle hw ha ho => exact .idle hw ha fun hs => ⟨(ho hs).1, hasked.trans (ho hs).2⟩
    | asking id method params hw ha hb ho =>
      refine .asking id method params hw ha hb fun hs => ⟨(ho hs).1, ?_⟩
      exact (ho hs).2.trans (congrArg (· ++ _) hasked.symm)
    | answering id reply hw ha hb hr hi ho =>
      exact .answering id reply hw ha hb ((congrArg (·[_]?) hreplies).trans hr) (hasked.trans hi) ho

/-- What happens to the bytes on the way, and an end that goes. -/
theorem Kept.of_pipes (h : Kept J name db₀ s) {requests answers : Pipe UInt8} {serving alive : Bool}
    (hrequests : ∀ lines, s.requests.Carries newline lines → requests.Carries newline lines)
    (hanswers : ∀ lines, s.answers.Carries newline lines → answers.Carries newline lines)
    (hserving : serving = true → s.serving = true ∧ answers.closed = s.answers.closed)
    (halive : alive = true → s.alive = true ∧ requests.closed = s.requests.closed) :
    Kept J name db₀ { s with requests, answers, serving, alive } where
  db := h.db
  inOrder := h.inOrder
  ahead := h.ahead
  answered := h.answered
  ending := h.ending
  count := h.count
  openRequests ha := (halive ha).2.trans (h.openRequests (halive ha).1)
  openAnswers hs := (hserving hs).2.trans (h.openAnswers (hserving hs).1)
  intact hs := h.intact (hserving hs).1
  phase := by
    cases h.phase with
    | idle hw ha ho =>
      refine .idle hw (hanswers _ ha) fun hs => ?_
      exact ⟨hrequests _ (ho (hserving hs).1).1, (ho (hserving hs).1).2⟩
    | asking id method params hw ha hb ho =>
      refine .asking id method params hw (hanswers _ ha) hb fun hs => ?_
      exact ⟨hrequests _ (ho (hserving hs).1).1, (ho (hserving hs).1).2⟩
    | answering id reply hw ha hb hr hi ho =>
      exact .answering id reply hw (hanswers _ ha) hb hr hi (hrequests _ ho)

/-- Bytes of the request that are sent are still bytes of the same line. -/
theorem Kept.send (h : Kept J name db₀ s) (n : ℕ) : Kept J name db₀ (step J name s (.send n)) :=
  h.of_pipes (fun _ hc => hc.send n) (fun _ hc => hc) (fun hs => ⟨hs, rfl⟩) fun ha => ⟨ha, rfl⟩

/-- Bytes of the request that arrive are still bytes of the same line. -/
theorem Kept.arrive (h : Kept J name db₀ s) (n : ℕ) :
    Kept J name db₀ (step J name s (.arrive n)) :=
  h.of_pipes (fun _ hc => hc.arrive n) (fun _ hc => hc) (fun hs => ⟨hs, rfl⟩) fun ha => ⟨ha, rfl⟩

/-- Bytes of the answer that are sent are still bytes of the same line. -/
theorem Kept.reply (h : Kept J name db₀ s) (n : ℕ) : Kept J name db₀ (step J name s (.reply n)) :=
  h.of_pipes (fun _ hc => hc) (fun _ hc => hc.send n) (fun hs => ⟨hs, rfl⟩) fun ha => ⟨ha, rfl⟩

/-- Bytes of the answer that arrive are still bytes of the same line. -/
theorem Kept.deliver (h : Kept J name db₀ s) (n : ℕ) :
    Kept J name db₀ (step J name s (.deliver n)) :=
  h.of_pipes (fun _ hc => hc) (fun _ hc => hc.arrive n) (fun hs => ⟨hs, rfl⟩) fun ha => ⟨ha, rfl⟩

/-- When the daemon goes, what it has written may arrive still, and nothing else will. -/
theorem Kept.hangUp (h : Kept J name db₀ s) : Kept J name db₀ (step J name s .hangUp) :=
  h.of_pipes (fun _ hc => hc) (fun _ hc => hc.close) (fun hs => by cases hs) fun ha => ⟨ha, rfl⟩

/-- When the plugin goes, the call it made returns to nobody. -/
theorem Kept.leave (h : Kept J name db₀ s) : Kept J name db₀ (step J name s .leave) :=
  h.of_pipes (fun _ hc => hc.close) (fun _ hc => hc) (fun hs => ⟨hs, rfl⟩) fun ha => by cases ha

/-- Nobody looks at requests once the handler is gone. -/
theorem Kept.of_gone (h : Kept J name db₀ { s with serving := false, answers := s.answers.close })
    {requests : Pipe UInt8} (hrest : requests.Carries newline [])
    (hclosed : requests.closed = s.requests.closed) :
    Kept J name db₀ { s with requests, serving := false, answers := s.answers.close } where
  db := h.db
  inOrder := h.inOrder
  ahead := h.ahead
  answered := h.answered
  ending := h.ending
  count := h.count
  openRequests ha := hclosed.trans (h.openRequests ha)
  openAnswers hs := by cases hs
  intact hs := by cases hs
  phase := by
    cases h.phase with
    | idle hw ha ho => exact .idle hw ha fun hs => by cases hs
    | asking id method params hw ha hb ho =>
      exact .asking id method params hw ha hb fun hs => by cases hs
    | answering id reply hw ha hb hr hi ho =>
      exact .answering id reply hw ha hb hr hi hrest

/-- A call begins. -/
theorem Kept.call (h : Kept J name db₀ s) {method : String} {params : Value}
    (hback : ∀ id, Rpc.ReadsBack J (Rpc.request id method params)) :
    Kept J name db₀ (step J name s (.call method params)) := by
  rw [step]
  split_ifs with hcan
  swap
  · exact h
  obtain ⟨halive, hwaiting⟩ := hcan
  have hidle : s.answers.Carries newline [] ∧ (s.serving = true →
      s.requests.Carries newline [] ∧ asked s.history = s.issued) := by
    cases h.phase with
    | idle _ ha ho => exact ⟨ha, ho⟩
    | asking _ _ _ hw => exact absurd hw (by simp [hwaiting])
    | answering _ _ hw => exact absurd hw (by simp [hwaiting])
  refine
    { db := h.db, inOrder := h.inOrder.trans (List.prefix_append _ _), ahead := h.ahead,
      answered := h.answered, ending := h.ending, count := ?_, openRequests := h.openRequests,
      openAnswers := h.openAnswers, intact := h.intact,
      phase := .asking s.nextId method params rfl hidle.1 (hback _) fun hs => ⟨?_, ?_⟩ }
  · have hcount := h.count
    rw [hwaiting] at hcount
    rw [List.length_append, hcount]
    rfl
  · exact (hidle.2 hs).1.write (h.openRequests halive) (newline_notMem _)
  · dsimp only
    rw [(hidle.2 hs).2]

/-! ### A line is read

The daemon reads a line, handles the request on it and writes its answer; the client reads a line
and takes it for the answer to its call. A line that is cut off cannot be parsed, and is answered as
such, or makes the call fail. -/

/-- What cannot be parsed counts as no answer. -/
theorem received_of_none {l : List UInt8} (h : Rpc.parse J l = none) :
    ¬Answered (received J l) := by
  unfold received
  split_ifs
  · exact id
  · rw [h]
    exact id

/-- A line that is an answer is read as that answer. -/
theorem received_response {l : List UInt8} {id : Value} {reply : Except ProtocolError Value}
    (h : Rpc.parse J l = some (Rpc.response id reply)) : received J l = result reply := by
  have hread : ¬(l = [] ∨ fromUtf8 l = none) := by
    rintro (hnil | hbad)
    · rw [Rpc.parse, if_pos hnil] at h
      cases h
    · rw [Rpc.parse, hbad, Option.bind_none, ite_self] at h
      cases h
  rw [received, if_neg hread, h]
  cases reply <;> rfl

/-- What the daemon answers counts as answered, errors of its own included. -/
theorem answered_result (reply : Except ProtocolError Value) : Answered (result reply) := by
  cases reply <;> trivial

/-- What was answered stays answered. -/
theorem getElem?_map_append {α β : Type} {l : List α} {f : α → β} {k : ℕ} {b : β}
    (h : l[k]?.map f = some b) (l' : List α) : (l ++ l')[k]?.map f = some b := by
  obtain ⟨a, ha, hb⟩ := Option.map_eq_some_iff.mp h
  obtain ⟨hk, -⟩ := List.getElem?_eq_some_iff.mp ha
  rw [List.getElem?_append_left hk, ha, Option.map_some, hb]

/-- The request of the call is handled. -/
theorem Kept.handled (h : Kept J name db₀ s) (hserving : s.serving = true)
    (hwaiting : s.waiting = true) {id : UInt64} {method : String} {params : Value}
    (hissued : s.issued = asked s.history ++ [(method, params)])
    (hanswers : s.answers.Carries newline []) {requests : Pipe UInt8}
    (hrequests : requests.Carries newline []) (hclosed : requests.closed = s.requests.closed)
    {l : List UInt8} (hparse : Rpc.parse J l = some (Rpc.request id method params))
    (amb : Ambient) : Kept J name db₀ (handleLine J name { s with requests } l amb) := by
  have hentry : entryOf (Rpc.request id method params) amb = .own method params amb := rfl
  rw [handleLine, hparse]
  dsimp only
  rw [hentry, Rpc.idOf_request]
  generalize ho : handle s.db ((Entry.own method params amb).input name) = o
  have hasked : asked (s.history ++ [.own method params amb]) = s.issued := by
    rw [asked_append, hissued]
    rfl
  have hreplies : replies name db₀ (s.history ++ [.own method params amb]) =
      replies name db₀ s.history ++ [o.reply] := by
    rw [replies_append, ← h.db, ← ho]
    rfl
  have hcount : (asked s.history).length = s.returned.length := by
    have hcount := h.count
    rw [hissued, hwaiting, List.length_append] at hcount
    exact Nat.succ.inj hcount
  have hback : Rpc.ReadsBack J (Rpc.response (.ofU64 id) o.reply) := by
    refine Rpc.readsBack_response (.posInt 1 id) fun v hv => ?_
    rw [← ho] at hv
    exact plainReply_handle name method params s.db amb v hv
  refine
    { db := ?_, inOrder := ?_, ahead := ?_, answered := ?_, ending := ?_, count := h.count,
      openRequests := ?_, openAnswers := h.openAnswers, intact := h.intact,
      phase := .answering id o.reply hwaiting ?_ hback ?_ hasked hrequests }
  · dsimp only
    rw [run_input_concat, ← h.db, ← ho]
    rfl
  · rw [hasked]
  · rw [hasked, hissued, List.length_append, hcount]
    rfl
  · intro k r hr hans
    dsimp only
    rw [hreplies]
    exact getElem?_map_append (h.answered k r hr hans) _
  · intro k r hr hnot
    exact absurd (h.intact hserving r (List.mem_of_getElem? hr)) hnot
  · exact fun halive => hclosed.trans (h.openRequests halive)
  · exact hanswers.write (h.openAnswers hserving) (newline_notMem _)
  · dsimp only
    rw [hreplies, List.getElem?_append_right (by rw [length_replies, hcount]),
      length_replies, hcount, Nat.sub_self]
    rfl

/-- The handler gives up what it cannot read. -/
theorem Kept.refused (h : Kept J name db₀ s) {requests : Pipe UInt8}
    (hrest : requests.Carries newline []) (hclosed : requests.closed = s.requests.closed) {l : List UInt8}
    (hparse : Rpc.parse J l = none) (amb : Ambient) :
    Kept J name db₀ (handleLine J name { s with requests } l amb) := by
  rw [handleLine, hparse]
  exact h.hangUp.of_gone hrest hclosed

/-- The daemon serves the request there is, if all of it has come. -/
theorem Kept.serve (h : Kept J name db₀ s) (amb : Ambient) :
    Kept J name db₀ (step J name s (.serve amb)) := by
  rw [step]
  split_ifs with hcan
  swap
  · exact h
  obtain ⟨hserving, -⟩ := hcan
  cases hread : s.requests.readLine newline with
  | none => exact h
  | some r =>
    obtain ⟨l, requests⟩ := r
    dsimp only
    cases h.phase with
    | idle hw ha ho =>
      obtain ⟨hparse, -, hrest, hclosed⟩ := Rpc.parse_of_carries_nil (J := J) (ho hserving).1 hread
      exact h.refused hrest hclosed hparse amb
    | asking id method params hw ha hb ho =>
      obtain ⟨hparse, hrest, hclosed⟩ := Rpc.parse_of_carries hb (ho hserving).1 hread
      rcases hparse with hparse | ⟨hparse, -⟩
      · exact h.handled hserving hw (ho hserving).2 ha hrest hclosed hparse amb
      · exact h.refused hrest hclosed hparse amb
    | answering id reply hw ha hb hr hi ho =>
      obtain ⟨hparse, -, hrest, hclosed⟩ := Rpc.parse_of_carries_nil (J := J) ho hread
      exact h.refused hrest hclosed hparse amb

/-- The call returns: what was answered to it, or an error when the handler is gone. -/
theorem Kept.returns (h : Kept J name db₀ s) (hwaiting : s.waiting = true)
    {r : Except CallError Value}
    (hr : (Answered r ∧ (replies name db₀ s.history)[s.returned.length]?.map result = some r) ∨
      (¬Answered r ∧ s.serving = false))
    {requests answers : Pipe UInt8} (hanswers : answers.Carries newline [])
    (hclosed : answers.closed = s.answers.closed)
    (hrequests : requests.closed = s.requests.closed)
    (hopen : s.serving = true → requests.Carries newline [] ∧ asked s.history = s.issued) :
    Kept J name db₀ { s with
      requests, answers, waiting := false, returned := s.returned ++ [r] } := by
  have hnew {k : ℕ} {r' : Except CallError Value} (hk : (s.returned ++ [r])[k]? = some r') :
      s.returned[k]? = some r' ∨ k = s.returned.length ∧ r = r' := by
    rw [List.getElem?_append] at hk
    split_ifs at hk with hlt
    · exact Or.inl hk
    · obtain ⟨hone, heq⟩ := List.getElem?_eq_some_iff.mp hk
      rw [List.length_singleton] at hone
      have hlen : k = s.returned.length := by omega
      subst hlen
      refine Or.inr ⟨rfl, ?_⟩
      simpa using heq
  refine
    { db := h.db, inOrder := h.inOrder, ahead := ?_, answered := ?_, ending := ?_, count := ?_,
      openRequests := fun ha => hrequests.trans (h.openRequests ha),
      openAnswers := fun hs => hclosed.trans (h.openAnswers hs), intact := ?_,
      phase := .idle rfl hanswers hopen }
  · rw [List.length_append]
    exact h.ahead.trans (by omega)
  · intro k r' hk hans
    rcases hnew hk with hk | ⟨rfl, rfl⟩
    · exact h.answered k r' hk hans
    · exact (hr.resolve_right fun hnot => hnot.1 hans).2
  · intro k r' hk hnot
    rcases hnew hk with hk | ⟨rfl, rfl⟩
    · exact h.ending k r' hk hnot
    · exact h.ahead
  · have hcount := h.count
    rw [hwaiting] at hcount
    rw [List.length_append, hcount]
    rfl
  · intro hs r' hmem
    rcases List.mem_append.mp hmem with hmem | hmem
    · exact h.intact hs r' hmem
    · rw [List.mem_singleton.mp hmem]
      exact (hr.resolve_right fun hnot => absurd (hs.symm.trans hnot.2) (by decide)).1

/-- The client returns from its call with what it has read. -/
theorem Kept.resume (h : Kept J name db₀ s) : Kept J name db₀ (step J name s .resume) := by
  rw [step]
  split_ifs with hcan
  swap
  · exact h
  obtain ⟨-, hwaiting, -⟩ := hcan
  cases hread : s.answers.readLine newline with
  | none => exact h
  | some r =>
    obtain ⟨l, answers⟩ := r
    have hgone (hclosed : s.answers.closed = true) : s.serving = false := by
      rw [← Bool.not_eq_true]
      intro hs
      rw [h.openAnswers hs] at hclosed
      cases hclosed
    cases h.phase with
    | idle hw => exact absurd hwaiting (by simp [hw])
    | asking id method params hw ha hb ho =>
      obtain ⟨hparse, hclosed, hrest, hsame⟩ := Rpc.parse_of_carries_nil (J := J) ha hread
      refine h.returns hwaiting (Or.inr ⟨received_of_none hparse, hgone hclosed⟩) hrest hsame rfl
        fun hs => ?_
      rw [hgone hclosed] at hs
      cases hs
    | answering id reply hw ha hb hreply hi ho =>
      obtain ⟨hparse, hrest, hsame⟩ := Rpc.parse_of_carries hb ha hread
      refine h.returns hwaiting ?_ hrest hsame rfl fun _ => ⟨ho, hi⟩
      rcases hparse with hparse | ⟨hparse, hclosed⟩
      · rw [received_response hparse, hreply]
        exact Or.inl ⟨answered_result reply, rfl⟩
      · exact Or.inr ⟨received_of_none hparse, hgone hclosed⟩

/-- A call that breaks off returns an error of the connection. -/
theorem Kept.breakOff (h : Kept J name db₀ s) : Kept J name db₀ (step J name s .breakOff) := by
  rw [step]
  split_ifs with hcan
  swap
  · exact h
  obtain ⟨-, hwaiting, hserving, hunsent⟩ := hcan
  have hnot : s.serving = true → False := fun hs => absurd (hs.symm.trans hserving) (by decide)
  cases h.phase with
  | idle hw => exact absurd hwaiting (by simp [hw])
  | asking id method params hw ha hb ho =>
    have hlost : ¬Answered (.error .io) := fun hans => hans
    exact h.returns hwaiting (Or.inr ⟨hlost, hserving⟩) ha rfl rfl fun hs => (hnot hs).elim
  | answering id reply hw ha hb hreply hi ho =>
    -- the request has been read, so all of it has gone out
    have hcontent := ho.content_nil
    exact absurd (List.append_eq_nil_iff.mp hcontent).2 hunsent

/-- **Every move keeps what is in order**, as long as what is asked reads back. -/
theorem Kept.step (h : Kept J name db₀ s) {m : Move} (hm : m.ReadsBack J) :
    Kept J name db₀ (step J name s m) := by
  cases m with
  | call method params => exact h.call hm
  | send n => exact h.send n
  | arrive n => exact h.arrive n
  | serve amb => exact h.serve amb
  | reply n => exact h.reply n
  | deliver n => exact h.deliver n
  | resume => exact h.resume
  | breakOff => exact h.breakOff
  | hangUp => exact h.hangUp
  | leave => exact h.leave
  | foreign i => exact h.foreign i

/-- So it is in every run. -/
theorem kept_run (l : List Move) (hl : ∀ m ∈ l, m.ReadsBack J) :
    Kept J name db₀ (Machine.run (PluginConnection.step J name) (start db₀) l) :=
  List.foldlRecOn l _ kept_start fun _ hs m hm => hs.step (hl m hm)

/-! ### No call waits in vain

While both ends are there, a call that waits can be brought to its return: the bytes of the request
are sent and arrive, the daemon serves it, and the bytes of the answer go back. Each part is a run
of moves that the two ends make by themselves. -/

/-- The call has returned in the state `t`, with an answer. -/
def ReturnsIn (s t : PluginConnection) : Prop :=
  t.waiting = false ∧ ∃ r, Answered r ∧ t.returned = s.returned ++ [r]

/-- An answer that was written gets through. -/
theorem returns_of_written (halive : s.alive = true) (hwaiting : s.waiting = true)
    (hunsent : s.requests.unsent = []) {id : Value} {reply : Except ProtocolError Value}
    (hback : Rpc.ReadsBack J (Rpc.response id reply))
    (hanswers : s.answers.Carries newline [Rpc.toVec J (Rpc.response id reply)])
    (hopen : s.answers.closed = false) :
    ReturnsIn s (Machine.run (step J name) s [.reply s.answers.unsent.length,
      .deliver (s.answers.flight ++ s.answers.unsent).length, .resume]) := by
  obtain ⟨answers, hread⟩ := hanswers.exists_readLine hopen
  rw [Machine.run_cons, Machine.run_cons, Machine.run_cons, Machine.run_nil]
  simp only [step, halive, hwaiting, hunsent, and_self, if_true, hread]
  exact ⟨rfl, _, answered_result reply,
    congrArg (s.returned ++ [·]) (received_response (Rpc.parse_line hback))⟩

/-- A call whose answer is on the way. -/
theorem Kept.returns_of_answering (h : Kept J name db₀ s) (hserving : s.serving = true)
    (halive : s.alive = true) (hwaiting : s.waiting = true) (hissued : asked s.history = s.issued) :
    ∃ l : List Move, (∀ m ∈ l, m.Internal) ∧
      ReturnsIn s (Machine.run (PluginConnection.step J name) s l) := by
  cases h.phase with
  | idle hw => exact absurd hwaiting (by simp [hw])
  | asking id method params hw ha hb ho =>
    have hlen := congrArg List.length (ho hserving).2
    rw [hissued, List.length_append, List.length_singleton] at hlen
    omega
  | answering id reply hw ha hb hreply hi ho =>
    have hunsent : s.requests.unsent = [] := (List.append_eq_nil_iff.mp ho.content_nil).2
    refine ⟨_, ?_, returns_of_written halive hwaiting hunsent hb ha (h.openAnswers hserving)⟩
    simp only [List.forall_mem_cons]
    exact ⟨trivial, trivial, trivial, List.forall_mem_nil _⟩

/-- The handler reads the request of the call. -/
theorem Kept.answered_of_line (h : Kept J name db₀ s) (hserving : s.serving = true)
    (halive : s.alive = true) {id : UInt64} {method : String} {params : Value}
    (hwaiting : s.waiting = true) (hanswers : s.answers.Carries newline [])
    (hback : Rpc.ReadsBack J (Rpc.request id method params))
    (hrequests : s.requests.Carries newline [Rpc.toVec J (Rpc.request id method params)])
    (hissued : s.issued = asked s.history ++ [(method, params)]) {requests : Pipe UInt8}
    (hread : s.requests.readLine newline =
      some (Rpc.toVec J (Rpc.request id method params) ++ [newline], requests)) (amb : Ambient) :
    let t := PluginConnection.step J name s (.serve amb)
    Kept J name db₀ t ∧ t.serving = true ∧ t.alive = true ∧ t.waiting = true ∧
      t.returned = s.returned ∧ asked t.history = t.issued := by
  have hunsent : s.answers.unsent = [] := (List.append_eq_nil_iff.mp hanswers.content_nil).2
  obtain ⟨-, hrest, hclosed⟩ := Rpc.parse_of_carries hback hrequests hread
  have hparse := Rpc.parse_line hback
  have hkept := h.handled hserving hwaiting hissued hanswers hrest hclosed hparse amb
  dsimp only
  rw [PluginConnection.step, if_pos ⟨hserving, hunsent⟩, hread]
  refine ⟨hkept, ?_⟩
  dsimp only
  rw [handleLine, hparse]
  exact ⟨hserving, halive, hwaiting, rfl, (asked_append _ _).trans hissued.symm⟩

/-- A call whose request is on the way. -/
theorem Kept.answered_of_asking (h : Kept J name db₀ s) (hserving : s.serving = true)
    (halive : s.alive = true) {id : UInt64} {method : String} {params : Value}
    (hwaiting : s.waiting = true) (hanswers : s.answers.Carries newline [])
    (hback : Rpc.ReadsBack J (Rpc.request id method params))
    (hrequests : s.requests.Carries newline [Rpc.toVec J (Rpc.request id method params)])
    (hissued : s.issued = asked s.history ++ [(method, params)]) (amb : Ambient) :
    let t := Machine.run (PluginConnection.step J name) s [.send s.requests.unsent.length,
      .arrive (s.requests.flight ++ s.requests.unsent).length, .serve amb]
    Kept J name db₀ t ∧ t.serving = true ∧ t.alive = true ∧ t.waiting = true ∧
      t.returned = s.returned ∧ asked t.history = t.issued := by
  obtain ⟨requests, hread⟩ := hrequests.exists_readLine (h.openRequests halive)
  have hlater := (h.send s.requests.unsent.length).arrive
    (s.requests.flight ++ s.requests.unsent).length
  exact hlater.answered_of_line hserving halive hwaiting hanswers hback
    ((hrequests.send _).arrive _) hissued hread amb

/-- A call that waits while both ends are there needs nothing but its bytes to go on. -/
theorem Kept.exists_returns (h : Kept J name db₀ s) (hserving : s.serving = true)
    (halive : s.alive = true) (hwaiting : s.waiting = true) : ∃ l : List Move,
      (∀ m ∈ l, m.Internal) ∧ ReturnsIn s (Machine.run (PluginConnection.step J name) s l) := by
  cases h.phase with
  | idle hw => exact absurd hwaiting (by simp [hw])
  | asking id method params hw ha hb ho =>
    have hserved := h.answered_of_asking hserving halive hw ha hb (ho hserving).1
      (ho hserving).2 (.noon (.ofTimeLow 0) 2024)
    obtain ⟨ht, hserving', halive', hwaiting', hreturned, hissued⟩ := hserved
    obtain ⟨l', hl', hreturns⟩ := ht.returns_of_answering hserving' halive' hwaiting' hissued
    refine ⟨[.send s.requests.unsent.length,
      .arrive (s.requests.flight ++ s.requests.unsent).length,
      .serve (.noon (.ofTimeLow 0) 2024)] ++ l', ?_, ?_⟩
    · rw [List.forall_mem_append]
      simp only [List.forall_mem_cons]
      exact ⟨⟨trivial, trivial, trivial, List.forall_mem_nil _⟩, hl'⟩
    · rw [Machine.run_append]
      rwa [ReturnsIn, hreturned] at hreturns
  | answering id reply hw ha hb hreply hi ho =>
    exact h.returns_of_answering hserving halive hwaiting hi

end Invariant

/-! ### The results

What was kept is read off at the end of a run. -/

/-- **Exactly once, in order.** Whatever becomes of the bytes and of the two ends, what the plugin
asked is handled in the order it was asked and nothing of it twice, and what a call returns that is
no error of the connection is the daemon's answer to that very call. -/
theorem served_once_run (J : JsonText) (name : String) (db₀ : Db) (l : List Move)
    (hl : ∀ m ∈ l, m.ReadsBack J) :
    Served name db₀ (Machine.run (step J name) (start db₀) l) :=
  (kept_run l hl).toServed

/-- A request reads back whose parameters have no fractions and moderate depth. -/
theorem readsBack_request (J : JsonText) (id : UInt64) (method : String) {params : Value}
    (h : params.Plain 126) : Rpc.ReadsBack J (Rpc.request id method params) := by
  have hkeys : ["id", "jsonrpc", "method", "params"].Pairwise KeyBefore := by decide
  refine Rpc.readsBack_of_plain (Rpc.plain_object hkeys ?_)
  simp only [List.forall_mem_cons]
  exact ⟨.posInt _ id, Rpc.plain_string _ _, Rpc.plain_string _ _, h, List.forall_mem_nil _⟩

/-- The request of a heartbeat reads back. -/
theorem readsBack_heartbeat (J : JsonText) (id : UInt64) :
    Rpc.ReadsBack J (Rpc.request id Method.pluginHeartbeat (.object [])) :=
  readsBack_request J id _ (Rpc.plain_object List.Pairwise.nil (List.forall_mem_nil _))

/-- The request of a discovery reads back, whatever the texts in it. -/
theorem readsBack_discover (J : JsonText) (id : UInt64) (tmuxSession tmuxPaneId workingDir : String) :
    Rpc.ReadsBack J (Rpc.request id Method.sessionDiscover
      (discoverParams tmuxSession tmuxPaneId workingDir)) := by
  have hkeys : ["tmux_pane_id", "tmux_session", "working_dir"].Pairwise KeyBefore := by decide
  refine readsBack_request J id _ (Rpc.plain_object hkeys ?_)
  simp only [List.forall_mem_cons]
  exact ⟨Rpc.plain_string _ _, Rpc.plain_string _ _, Rpc.plain_string _ _, List.forall_mem_nil _⟩

/-- A session that is discovered, and a ping, both cut into pieces on the way. -/
def discoverAndPing : List Move :=
  [.call Method.sessionDiscover (discoverParams "main" "%1" "/home/u/proj"), .send 20, .arrive 7,
    .send 300, .arrive 300, .serve (.noon (.ofTimeLow 1) 2026), .reply 300, .deliver 9,
    .deliver 300, .resume, .call Method.pluginHeartbeat (.object []), .send 100, .arrive 100,
    .serve (.noon (.ofTimeLow 2) 2026), .reply 300, .deliver 300, .resume]

/-- A discovery and a heartbeat, with their bytes cut in pieces. -/
theorem served_once_run_discover :
    Served "opencode" Db.fresh (Machine.run (step .compact "opencode") (start Db.fresh)
      discoverAndPing) := by
  refine served_once_run .compact "opencode" Db.fresh _ ?_
  simp only [discoverAndPing, List.forall_mem_cons]
  exact ⟨fun id => readsBack_discover .compact id _ _ _, trivial, trivial, trivial, trivial, trivial,
    trivial, trivial, trivial, trivial, fun id => readsBack_heartbeat .compact id, trivial, trivial,
    trivial, trivial, trivial, trivial, List.forall_mem_nil _⟩

/-- **No call waits in vain.** In any state of a run in which a call waits and both ends are there,
it needs nothing but its bytes to go on. -/
theorem returns_run (J : JsonText) (name : String) (db₀ : Db) (l : List Move)
    (hl : ∀ m ∈ l, m.ReadsBack J)
    (hserving : (Machine.run (step J name) (start db₀) l).serving = true)
    (halive : (Machine.run (step J name) (start db₀) l).alive = true)
    (hwaiting : (Machine.run (step J name) (start db₀) l).waiting = true) :
    ∃ l' : List Move, (∀ m ∈ l', m.Internal) ∧
      ReturnsIn (Machine.run (step J name) (start db₀) l)
        (Machine.run (step J name) (start db₀) (l ++ l')) := by
  have hkept : Kept J name db₀ (Machine.run (step J name) (start db₀) l) := kept_run l hl
  obtain ⟨l', hl', hreturns⟩ := hkept.exists_returns hserving halive hwaiting
  exact ⟨l', hl', by rwa [Machine.run_append]⟩

/-- A ping of which half has gone out. -/
theorem returns_run_heartbeat : ∃ l' : List Move, (∀ m ∈ l', m.Internal) ∧
    ReturnsIn (Machine.run (step .compact "opencode") (start Db.fresh)
        [.call Method.pluginHeartbeat (.object []), .send 20])
      (Machine.run (step .compact "opencode") (start Db.fresh)
        ([.call Method.pluginHeartbeat (.object []), .send 20] ++ l')) := by
  refine returns_run .compact "opencode" Db.fresh _ ?_ rfl rfl rfl
  simp only [List.forall_mem_cons]
  exact ⟨readsBack_heartbeat .compact, trivial, List.forall_mem_nil _⟩

end PluginConnection

end Agentd
