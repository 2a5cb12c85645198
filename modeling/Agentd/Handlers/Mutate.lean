import Agentd.Handlers.Basic

/-!
# The mutating methods of the control socket

`handlers/mutate.rs`, method by method.

A handler takes the parameters, the database and what it gets from outside, and gives an outcome:
the new database, the reply, the events and the calls to tmux. The checks stand in the order in
which the source makes them, since it is the first that fails which decides the error. A session is
looked for before it is looked at, and a row that does not decode counts as one that is not there.
`session.rename` is the exception: it updates first, and reads afterwards, so that a row which does
not decode is renamed and the answer is an error all the same.
-/

namespace Agentd.Mutate

open Json

/-- The answer that carries a row as it is after the update, or `missing` when the row
cannot be read back. -/
def replyRow (row : Except RepoError (Option Session)) (missing : ProtocolError) :
    Except ProtocolError Value :=
  match row with
  | .ok (some s) => .ok s.toValue
  | _ => .error missing

/-- The session `session.create` inserts. -/
def newSession (agentType : AgentType) (workingDir displayName : String) (amb : Ambient) :
    Session where
  id := amb.freshId
  agentType := agentType
  workingDir := workingDir
  tmuxSession := none
  tmuxPaneId := none
  displayName := displayName
  status := .starting
  currentTask := none
  model := none
  contextUsedTokens := none
  contextTotalTokens := none
  costUsd := none
  source := .cli
  createdAt := amb.rowNow
  lastEventAt := none
  finishedAt := none
  metadata := .object []

/-- `session.create`. -/
def sessionCreate (params : Value) (db : Db) (amb : Ambient) : Outcome :=
  match (params.getStr "agent_type").bind AgentType.ofName? with
  | none => refuse db .invalidParams
  | some agentType =>
  match params.getStr "working_dir" with
  | none => refuse db .invalidParams
  | some workingDir =>
  let displayName := (params.getStr "name").getD (defaultName workingDir)
  let session := newSession agentType workingDir displayName amb
  match db.insertSession session with
  | .error _ => refuse db .internalError
  | .ok db =>
    { db
      reply := .ok session.toValue
      events := [⟨"session.created", some session.id, session.toValue, amb.busNow⟩] }

/-- `session.rename`. -/
def sessionRename (params : Value) (db : Db) (amb : Ambient) : Outcome :=
  match params.getStr "id" with
  | none => refuse db .invalidParams
  | some idStr =>
  match params.getStr "name" with
  | none => refuse db .invalidParams
  | some name =>
  match Uuid.parseStr idStr with
  | none => refuse db .invalidParams
  | some id =>
  match db.updateRename id name with
  | .error _ => refuse db .sessionNotFound
  | .ok db =>
    -- the event goes out whether or not the row can be read back
    { db
      reply := replyRow (db.getSession id) .sessionNotFound
      events := [⟨"session.renamed", some id, .object [("display_name", .string name)],
        amb.busNow⟩] }

/-- The session a request names by `id`, or the error to answer with. -/
def requestedSession (params : Value) (db : Db) : Except ProtocolError (Uuid × Session) :=
  match params.getStr "id" with
  | none => .error .invalidParams
  | some idStr =>
  match Uuid.parseStr idStr with
  | none => .error .invalidParams
  | some id =>
  match db.getSession id with
  | .ok (some s) => .ok (id, s)
  | _ => .error .sessionNotFound

/-- `session.dismiss_error`. -/
def sessionDismissError (params : Value) (db : Db) (amb : Ambient) : Outcome :=
  match requestedSession params db with
  | .error e => refuse db e
  | .ok (id, session) =>
  if session.status ≠ .errored then refuse db .invalidParams
  else
  match db.updateStatus id .idle amb.rowNow with
  | .error _ => refuse db .internalError
  | .ok db =>
    { db
      reply := replyRow (db.getSession id) .internalError
      events := [⟨"session.dismissed_error", some id, .object [], amb.busNow⟩] }

/-- `session.jump`. -/
def sessionJump (params : Value) (db : Db) (amb : Ambient) : Outcome :=
  match requestedSession params db with
  | .error e => refuse db e
  | .ok (id, session) =>
  match session.tmuxSession with
  | none => refuse db .invalidParams
  | some target =>
    let call := TmuxCall.switchClient target
    if amb.tmux call then
      { db
        reply := .ok (.object [("ok", .bool true)])
        events := [⟨"session.jumped", some id, .object [], amb.busNow⟩]
        tmuxCalls := [call] }
    else { refuse db .sessionNotFound with tmuxCalls := [call] }

/-- `session.kill`. Whether tmux kills its session is not looked at. -/
def sessionKill (params : Value) (db : Db) (amb : Ambient) : Outcome :=
  match requestedSession params db with
  | .error e => refuse db e
  | .ok (id, session) =>
  if session.status.isTerminal then refuse db .sessionNotFound
  else
  let tmuxCalls := (session.tmuxSession.map TmuxCall.killSession).toList
  match db.markFinished id amb.rowNow with
  | .error _ => { refuse db .internalError with tmuxCalls }
  | .ok db =>
    { db
      reply := replyRow (db.getSession id) .internalError
      events := [⟨"session.killed", some id, .object [], amb.busNow⟩]
      tmuxCalls }

/-- `daemon.shutdown`. -/
def daemonShutdown (db : Db) (amb : Ambient) : Outcome where
  db := db
  reply := .ok (.object [("ok", .bool true)])
  events := [⟨"daemon.shutting_down", none, .object [], amb.busNow⟩]
  shutdown := true

/-- `mutate::dispatch`. -/
def dispatch (method : String) (params : Value) (db : Db) (amb : Ambient) : Outcome :=
  if method = Method.sessionCreate then sessionCreate params db amb
  else if method = Method.sessionRename then sessionRename params db amb
  else if method = Method.sessionDismissError then sessionDismissError params db amb
  else if method = Method.sessionJump then sessionJump params db amb
  else if method = Method.sessionKill then sessionKill params db amb
  else if method = Method.daemonShutdown then daemonShutdown db amb
  else refuse db .methodNotFound

end Agentd.Mutate
