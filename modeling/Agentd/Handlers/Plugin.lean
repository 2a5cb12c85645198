import Agentd.Handlers.Basic

/-!
# The methods of the plugin sockets

`handlers/plugin_handlers.rs`, method by method. The name of the calling plugin is
that of the socket its connection came in on.

A plugin is not asked who it is beyond that name. It may enter itself, discover a session and so
become its owner, and report on the sessions it owns; of a heartbeat and a farewell the daemon takes
no notice. A report is logged once its session has been found and, where its kind asks for it, its
owner been compared with the caller; the payload is looked at afterwards, and this is the only place
where a handler writes before its last check.
-/

namespace Agentd.Plugin

open Json Rfc3339

/-- `plugin.hello`. -/
def pluginHello (params : Value) (db : Db) (pluginName : String) (amb : Ambient) : Outcome :=
  match params.getStr "name" with
  | none => refuse db .invalidParams
  | some name =>
  if name ≠ pluginName then refuse db .pluginNotAllowed
  else
    let socketName := name ++ ".sock"
    let binary := "agentd-plugin-" ++ name
    { db := (db.upsertPlugin name binary socketName true).setLastConnected name amb.rowNow
      reply := .ok (.object [("heartbeat_interval_secs", .ofU64 5), ("ok", .bool true),
        ("plugin_id", .string name)])
      events := [⟨"plugin.connected", none, .object [("binary", .string binary),
        ("name", .string name), ("socket_name", .string socketName)], amb.busNow⟩] }

/-- The session `session.discover` inserts. -/
def discoveredSession (agentType : AgentType) (tmuxSession tmuxPaneId workingDir pluginName : String)
    (amb : Ambient) : Session where
  id := amb.freshId
  agentType := agentType
  workingDir := workingDir
  tmuxSession := some tmuxSession
  tmuxPaneId := some tmuxPaneId
  displayName := defaultName workingDir
  status := .starting
  currentTask := none
  model := none
  contextUsedTokens := none
  contextTotalTokens := none
  costUsd := none
  source := .discovered
  createdAt := amb.rowNow
  lastEventAt := none
  finishedAt := none
  metadata := .object [("plugin", .string pluginName)]

/-- `session.discover`. -/
def sessionDiscover (params : Value) (db : Db) (pluginName : String) (amb : Ambient) : Outcome :=
  match params.getStr "tmux_session" with
  | none => refuse db .invalidParams
  | some tmuxSession =>
  match params.getStr "tmux_pane_id" with
  | none => refuse db .invalidParams
  | some tmuxPaneId =>
  match params.getStr "working_dir" with
  | none => refuse db .invalidParams
  | some workingDir =>
  match AgentType.ofName? pluginName with
  | none => refuse db .pluginNotAllowed
  | some agentType =>
  let session := discoveredSession agentType tmuxSession tmuxPaneId workingDir pluginName amb
  match db.insertSession session with
  | .error _ => refuse db .internalError
  | .ok db =>
    { db
      reply := .ok (.object [("ok", .bool true), ("session_id", .string session.id.toText)])
      events := [⟨"session.discovered", some session.id, session.toValue, amb.busNow⟩] }

/-! ### Reports -/

/-- The parameters of `session.report_event`. -/
structure Report where
  id : Uuid
  kind : String
  payload : Value
  ts : DateTime

/-- The report a request makes. The agent's time stamp counts; the daemon's clock
stands in for one that is missing or does not parse. -/
def Report.ofParams (params : Value) (now : DateTime) : Option Report := do
  let sessionIdStr ← params.getStr "session_id"
  let kind ← params.getStr "type"
  let payload := (params.get "payload").getD .null
  let ts := ((params.getStr "ts").bind parseFromRfc3339).getD now
  let id ← Uuid.parseStr sessionIdStr
  some { id, kind, payload, ts }

/-- The kinds of report that change the session row, and that only its owner may
make. -/
def Report.Mutating (rep : Report) : Prop :=
  rep.kind = "session.status_changed" ∨ rep.kind = "session.task_changed" ∨
    rep.kind = "session.usage_updated" ∨ rep.kind = "session.finished"

instance (rep : Report) : Decidable rep.Mutating :=
  inferInstanceAs (Decidable (_ ∨ _ ∨ _ ∨ _))

/-- The answer to a report that was taken, after the events it emits. -/
def accept (db : Db) (eventId : ℕ) (events : List Event) : Outcome where
  db := db
  reply := .ok (.object [("accepted", .bool true), ("event_id", .string (toString eventId))])
  events := events

/-- The side effects of a report, per kind, once it is in the event log. -/
def applyReport (rep : Report) (db : Db) (eventId : ℕ) (amb : Ambient) : Outcome :=
  if rep.kind = "session.status_changed" then
    -- a report without the field it is about is taken and does nothing
    match rep.payload.getStr "status" with
    | none => accept db eventId []
    | some s =>
    match SessionStatus.ofName? s with
    | none => refuse db .invalidParams
    | some new =>
    match db.updateStatus rep.id new rep.ts with
    | .error _ => refuse db .internalError
    | .ok db => accept db eventId [⟨"session.status_changed", some rep.id,
        .object [("status", .string s)], amb.busNow⟩]
  else if rep.kind = "session.task_changed" then
    match rep.payload.getStr "task" with
    | none => accept db eventId []
    | some task =>
    match db.updateTask rep.id (some task) rep.ts with
    | .error _ => refuse db .internalError
    | .ok db => accept db eventId [⟨"session.task_changed", some rep.id,
        .object [("task", .string task)], amb.busNow⟩]
  else if rep.kind = "session.usage_updated" then
    let used := (rep.payload.get "used").bind Value.asU64
    let total := (rep.payload.get "total").bind Value.asU64
    let cost := (rep.payload.get "cost_usd").bind Value.asF64
    match db.updateUsage rep.id used total cost rep.ts with
    | .error _ => refuse db .internalError
    | .ok db => accept db eventId [⟨"session.usage_updated", some rep.id,
        .object [("cost_usd", (cost.map Value.ofF64).getD .null),
          ("total", (total.map Value.ofU64).getD .null),
          ("used", (used.map Value.ofU64).getD .null)], amb.busNow⟩]
  else if rep.kind = "session.finished" then
    match db.markFinished rep.id rep.ts with
    | .error _ => refuse db .internalError
    | .ok db => accept db eventId [⟨"session.finished", some rep.id, .object [], amb.busNow⟩]
  else accept db eventId []

/-- `session.report_event`. -/
def sessionReportEvent (params : Value) (db : Db) (pluginName : String) (amb : Ambient) :
    Outcome :=
  match Report.ofParams params amb.rowNow with
  | none => refuse db .invalidParams
  | some rep =>
  match db.getSession rep.id with
  | .error _ => refuse db .internalError
  | .ok none => refuse db .sessionNotFound
  | .ok (some session) =>
  if rep.Mutating ∧ session.owner ≠ some pluginName then refuse db .pluginNotAuthoritative
  else
  -- the log comes first, so what is refused from here on is in it
  match db.insertEvent rep.id rep.kind rep.payload amb.sqlNow with
  | .error _ => refuse db .internalError
  | .ok (eventId, db) => applyReport rep db eventId amb

/-! ### Dispatch -/

/-- `plugin.heartbeat`. -/
def pluginHeartbeat (db : Db) : Outcome where
  db := db
  reply := .ok (.object [("events_total", .ofU64 0), ("invalid_total", .ofU64 0),
    ("ok", .bool true), ("restart_required", .bool false)])

/-- `plugin.bye`. -/
def pluginBye (db : Db) : Outcome where
  db := db
  reply := .ok (.object [("ok", .bool true)])

/-- `plugin_handlers::dispatch`. -/
def dispatch (method : String) (params : Value) (db : Db) (pluginName : String) (amb : Ambient) :
    Outcome :=
  if method = Method.pluginHello then pluginHello params db pluginName amb
  else if method = Method.sessionDiscover then sessionDiscover params db pluginName amb
  else if method = Method.sessionReportEvent then sessionReportEvent params db pluginName amb
  else if method = Method.pluginHeartbeat then pluginHeartbeat db
  else if method = Method.pluginBye then pluginBye db
  else refuse db .methodNotFound

end Agentd.Plugin
