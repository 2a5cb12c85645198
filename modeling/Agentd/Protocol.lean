import Agentd.Foundations.Json
import Agentd.Foundations.Rfc3339
import Agentd.Foundations.Uuid

/-!
# The protocol crate

The data that crosses the daemon's sockets: agent types, session statuses and
sources with their wire names, the errors of a JSON-RPC answer, the method names,
and `Agentd.Session` with its JSON form.

A session's JSON form reads back (`Agentd.Session.fromValue_toValue`), up to a cost that
is no finite number: JSON cannot carry one. This is what lets a dashboard rebuild sessions
from a snapshot or from the payload of an event.

The field order of an object is that of its keys, as a map of `serde_json` keeps them without its
feature `preserve_order`. Unknown fields are passed over by the reader, and missing ones are none
where the source has a default for them.
-/

namespace Agentd

open Json Rfc3339

/-! ### Agent types -/

/-- Which coding agent a session is bound to. -/
inductive AgentType
  | opencode
  | claudeCode
  | codex
  | aider
deriving DecidableEq

namespace AgentType

/-- `AgentType::as_str`, which is also the name in JSON and of the plugin. -/
def asStr : AgentType → String
  | opencode => "opencode"
  | claudeCode => "claude-code"
  | codex => "codex"
  | aider => "aider"

/-- The agent type of a name: the match the handlers and the row reader make. -/
def ofName? : String → Option AgentType
  | "opencode" => some opencode
  | "claude-code" => some claudeCode
  | "codex" => some codex
  | "aider" => some aider
  | _ => none

/-- The text of a type names it. -/
@[simp] theorem ofName?_asStr (a : AgentType) : ofName? a.asStr = some a := by
  cases a <;> rfl

/-- A name stands for an agent type exactly when it is the name of its plugin. -/
theorem ofName?_eq_some {n : String} {a : AgentType} : ofName? n = some a ↔ n = a.asStr := by
  constructor
  · intro h
    unfold ofName? at h
    split at h
    · rw [← Option.some.inj h]; rfl
    · rw [← Option.some.inj h]; rfl
    · rw [← Option.some.inj h]; rfl
    · rw [← Option.some.inj h]; rfl
    · simp at h
  · rintro rfl
    exact ofName?_asStr a

end AgentType

/-! ### Session statuses -/

/-- Normalized session status. -/
inductive SessionStatus
  | starting
  | idle
  | working
  | waitingForUser
  | errored
  | finished
deriving DecidableEq

namespace SessionStatus

/-- The name of a status on the wire and in the database. -/
def toText : SessionStatus → String
  | starting => "starting"
  | idle => "idle"
  | working => "working"
  | waitingForUser => "waiting_for_user"
  | errored => "errored"
  | finished => "finished"

/-- The status of a name: the match made by the row reader, by the report handler
and by the JSON reader. -/
def ofName? : String → Option SessionStatus
  | "starting" => some starting
  | "idle" => some idle
  | "working" => some working
  | "waiting_for_user" => some waitingForUser
  | "errored" => some errored
  | "finished" => some finished
  | _ => none

/-- `SessionStatus::is_terminal`. -/
def isTerminal (s : SessionStatus) : Bool :=
  s = finished

/-- The text of a status names it. -/
@[simp] theorem ofName?_toText (s : SessionStatus) : ofName? s.toText = some s := by
  cases s <;> rfl

/-- No two statuses have one text. -/
theorem toText_injective : Function.Injective toText := by
  intro s t h
  have hs := ofName?_toText s
  rw [h, ofName?_toText t] at hs
  exact (Option.some.inj hs).symm

/-- A name stands for a status exactly when it is the one that status prints as. -/
theorem ofName?_eq_some {n : String} {s : SessionStatus} : ofName? n = some s ↔ n = s.toText := by
  constructor
  · intro h
    unfold ofName? at h
    split at h
    · rw [← Option.some.inj h]; rfl
    · rw [← Option.some.inj h]; rfl
    · rw [← Option.some.inj h]; rfl
    · rw [← Option.some.inj h]; rfl
    · rw [← Option.some.inj h]; rfl
    · rw [← Option.some.inj h]; rfl
    · simp at h
  · rintro rfl
    exact ofName?_toText s

/-- The text of one status is compared with in SQL. -/
theorem toText_eq_finished {s : SessionStatus} : s.toText = "finished" ↔ s = finished := by
  rw [← toText_injective.eq_iff]
  rfl

end SessionStatus

/-! ### Session sources -/

/-- How a session was created. -/
inductive SessionSource
  | cli
  | discovered
  | resumed
deriving DecidableEq

namespace SessionSource

/-- The name of a source in JSON. -/
def toText : SessionSource → String
  | cli => "cli"
  | discovered => "discovered"
  | resumed => "resumed"

/-- The source of a name. -/
def ofName? : String → Option SessionSource
  | "cli" => some cli
  | "discovered" => some discovered
  | "resumed" => some resumed
  | _ => none

/-- The text of a source names it. -/
@[simp] theorem ofName?_toText (s : SessionSource) : ofName? s.toText = some s := by
  cases s <;> rfl

end SessionSource

/-! ### Errors -/

/-- The errors that cross the IPC boundary. -/
inductive ProtocolError
  | parseError
  | invalidRequest
  | methodNotFound
  | invalidParams
  | internalError
  | sessionNotFound
  | pluginNotAllowed
  | permissionDenied
  | pluginNotAuthoritative
  | daemonShuttingDown
deriving DecidableEq

/-! ### Method names -/

namespace Method

def stateSnapshot : String := "state.snapshot"
def sessionGet : String := "session.get"
def sessionListActive : String := "session.list_active"
def sessionEvents : String := "session.events"
def daemonStatus : String := "daemon.status"
def pluginList : String := "plugin.list"
def metrics : String := "metrics"
def sessionCreate : String := "session.create"
def sessionRename : String := "session.rename"
def sessionJump : String := "session.jump"
def sessionKill : String := "session.kill"
def sessionDismissError : String := "session.dismiss_error"
def daemonShutdown : String := "daemon.shutdown"
def subscribe : String := "subscribe"
def unsubscribe : String := "unsubscribe"
def pluginHello : String := "plugin.hello"
def sessionReportEvent : String := "session.report_event"
def sessionDiscover : String := "session.discover"
def pluginHeartbeat : String := "plugin.heartbeat"
def pluginBye : String := "plugin.bye"
def event : String := "event"

end Method

/-- The parameters a plugin sends to discover a pane. -/
def discoverParams (tmuxSession tmuxPaneId workingDir : String) : Value :=
  .object [("tmux_pane_id", .string tmuxPaneId), ("tmux_session", .string tmuxSession),
    ("working_dir", .string workingDir)]

/-! ### Sessions -/

/-- A tracked coding-agent session. -/
structure Session where
  id : Uuid
  agentType : AgentType
  workingDir : String
  tmuxSession : Option String
  tmuxPaneId : Option String
  displayName : String
  status : SessionStatus
  currentTask : Option String
  model : Option String
  contextUsedTokens : Option UInt64
  contextTotalTokens : Option UInt64
  costUsd : Option F64
  source : SessionSource
  createdAt : DateTime
  lastEventAt : Option DateTime
  finishedAt : Option DateTime
  metadata : Value

namespace Session

/-- The fields of the JSON form of a session, those without a value included. -/
def fields (s : Session) : List (String × Option Value) :=
  [("agent_type", some (.string s.agentType.asStr)),
   ("context_total_tokens", s.contextTotalTokens.map .ofU64),
   ("context_used_tokens", s.contextUsedTokens.map .ofU64),
   ("cost_usd", s.costUsd.map .ofF64),
   ("created_at", some (.string (toJsonText s.createdAt))),
   ("current_task", s.currentTask.map .string),
   ("display_name", some (.string s.displayName)),
   ("finished_at", s.finishedAt.map fun t => .string (toJsonText t)),
   ("id", some (.string s.id.toText)),
   ("last_event_at", s.lastEventAt.map fun t => .string (toJsonText t)),
   ("metadata", some s.metadata),
   ("model", s.model.map .string),
   ("source", some (.string s.source.toText)),
   ("status", some (.string s.status.toText)),
   ("tmux_pane_id", s.tmuxPaneId.map .string),
   ("tmux_session", s.tmuxSession.map .string),
   ("working_dir", some (.string s.workingDir))]

/-- The JSON form of a session; optional fields without a value are left out. -/
def toValue (s : Session) : Value :=
  .objectOf s.fields

/-- The instant a JSON string stands for. -/
def instant (v : Value) : Option DateTime :=
  v.asStr.bind fromStr

/-- The session a JSON object stands for. -/
def fromValue (v : Value) : Option Session := do
  let id ← (v.getStr "id").bind Uuid.parseStr
  let agentType ← (v.getStr "agent_type").bind AgentType.ofName?
  let workingDir ← v.getStr "working_dir"
  let tmuxSession ← v.getOpt "tmux_session" Value.asStr
  let tmuxPaneId ← v.getOpt "tmux_pane_id" Value.asStr
  let displayName ← v.getStr "display_name"
  let status ← (v.getStr "status").bind SessionStatus.ofName?
  let currentTask ← v.getOpt "current_task" Value.asStr
  let model ← v.getOpt "model" Value.asStr
  let contextUsedTokens ← v.getOpt "context_used_tokens" Value.asU64
  let contextTotalTokens ← v.getOpt "context_total_tokens" Value.asU64
  let costUsd ← v.getOpt "cost_usd" Value.asF64
  let source ← (v.getStr "source").bind SessionSource.ofName?
  let createdAt ← (v.get "created_at").bind instant
  let lastEventAt ← v.getOpt "last_event_at" instant
  let finishedAt ← v.getOpt "finished_at" instant
  let metadata := (v.get "metadata").getD .null
  some { id, agentType, workingDir, tmuxSession, tmuxPaneId, displayName, status, currentTask,
         model, contextUsedTokens, contextTotalTokens, costUsd, source, createdAt, lastEventAt,
         finishedAt, metadata }

/-- The pane a session is bound to, if both of its parts are known. -/
def pane (s : Session) : Option (String × String) :=
  s.tmuxSession.bind fun session => s.tmuxPaneId.map fun pane => (session, pane)

/-- The session JSON can carry: a cost that is no finite number is lost. -/
def jsonable (s : Session) : Session :=
  { s with costUsd := s.costUsd.filter fun x => x.IsFinite }

/-- A field of a session is found under its key. -/
theorem get_toValue (s : Session) (key : String) :
    s.toValue.get key = (s.fields.find? fun f => f.1 = key).bind Prod.snd :=
  Value.get_objectOf (by simp only [fields, List.map_cons, List.map_nil]; decide) key

/-- A cost comes through JSON if it is finite; `serde_json` writes null for the others. -/
theorem getOpt_costUsd (s : Session) :
    s.toValue.getOpt "cost_usd" Value.asF64 = some (s.costUsd.filter fun x => x.IsFinite) := by
  have h : s.toValue.get "cost_usd" = s.costUsd.map .ofF64 := (get_toValue s _).trans rfl
  unfold Value.getOpt
  rw [h]
  cases s.costUsd with
  | none => rfl
  | some x =>
    by_cases hx : x.IsFinite
    · simp [Value.ofF64, hx, Value.asF64, Option.filter]
    · simp [Value.ofF64, hx, Option.filter]

/-- **The JSON form of a session reads back**, except for a cost that is no finite
number. -/
theorem fromValue_toValue (s : Session) : fromValue s.toValue = some s.jsonable := by
  have str {key n : String} (h : s.toValue.get key = some (.string n)) :
      s.toValue.getStr key = some n := Value.getStr_of_get h
  have optStr {key : String} {x : Option String} (h : s.toValue.get key = x.map .string) :
      s.toValue.getOpt key Value.asStr = some x :=
    Value.getOpt_of_get h (fun _ => Value.noConfusion) fun _ => rfl
  have optU64 {key : String} {x : Option UInt64} (h : s.toValue.get key = x.map .ofU64) :
      s.toValue.getOpt key Value.asU64 = some x :=
    Value.getOpt_of_get h (fun _ => Value.noConfusion) fun _ => rfl
  have optInstant {key : String} {x : Option DateTime}
      (h : s.toValue.get key = x.map fun t => .string (toJsonText t)) :
      s.toValue.getOpt key instant = some x :=
    Value.getOpt_of_get h (fun _ => Value.noConfusion) fun t => fromStr_toJsonText t
  have get := get_toValue s
  have hcreated : s.toValue.get "created_at" = some (.string (toJsonText s.createdAt)) :=
    (get _).trans rfl
  have hmetadata : s.toValue.get "metadata" = some s.metadata := (get _).trans rfl
  rw [fromValue, str ((get "id").trans rfl), str ((get "agent_type").trans rfl),
    str ((get "working_dir").trans rfl), optStr ((get "tmux_session").trans rfl),
    optStr ((get "tmux_pane_id").trans rfl), str ((get "display_name").trans rfl),
    str ((get "status").trans rfl), optStr ((get "current_task").trans rfl),
    optStr ((get "model").trans rfl), optU64 ((get "context_used_tokens").trans rfl),
    optU64 ((get "context_total_tokens").trans rfl), getOpt_costUsd,
    str ((get "source").trans rfl), hcreated, optInstant ((get "last_event_at").trans rfl),
    optInstant ((get "finished_at").trans rfl), hmetadata]
  simp only [Option.bind_eq_bind, Option.bind_some, Uuid.parseStr_toText, AgentType.ofName?_asStr,
    SessionStatus.ofName?_toText, SessionSource.ofName?_toText, instant, Value.asStr_string,
    fromStr_toJsonText, Option.getD_some]
  rfl

end Session

end Agentd
