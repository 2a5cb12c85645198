import Agentd.Db.Repo

/-!
# What a handler is given and what it does

A request handler of the daemon reads and writes the database, may call tmux, may emit
an event on the bus and answers. `Agentd.Outcome` collects these effects.

What a handler gets from outside the program while it runs – fresh identifiers, the
clock, the time SQLite stamps on an event row, tmux's answers – is one value
per request, `Agentd.Ambient`. The clock is read at most twice: once for the row
and once for the event on the bus.

Nothing in an outcome is hidden in a state: the database is an argument and a result, the events and
the calls to tmux are lists, and so a handler is a function whose every effect can be read off. What
a handler does not do (retry, wait, lock) it does not do in the source either.
-/

namespace Agentd

open Json Rfc3339

/-- One event on the bus. -/
structure Event where
  kind : String
  sessionId : Option Uuid
  payload : Value
  ts : DateTime

/-- A call to tmux. -/
inductive TmuxCall
  | switchClient (target : String)
  | killSession (name : String)
deriving DecidableEq

/-- What the world outside hands the handler of one request. -/
structure Ambient where
  /-- `Uuid::now_v7()`. -/
  freshId : Uuid
  /-- `chrono::Utc::now()`, as written to a row. -/
  rowNow : DateTime
  /-- `chrono::Utc::now()`, as stamped on an event. -/
  busNow : DateTime
  /-- `datetime('now')`, the default of `session_events.created_at`, which is `NULL` when the clock
  shows a year that SQLite does not write: one before 0 or after 9999. -/
  sqlNow : Option String
  /-- Whether tmux carries out a call. -/
  tmux : TmuxCall → Bool

/-- What handling a request did. -/
structure Outcome where
  /-- The database afterwards. -/
  db : Db
  /-- The answer. -/
  reply : Except ProtocolError Value
  /-- The events emitted on the bus, in order. -/
  events : List Event := []
  /-- The calls made to tmux, in order. -/
  tmuxCalls : List TmuxCall := []
  /-- Whether the static `SHUTDOWN` was set. -/
  shutdown : Bool := false

/-- An early return with an error. -/
def refuse (db : Db) (e : ProtocolError) : Outcome :=
  { db, reply := .error e }

/-- The answer is an error. -/
def Outcome.IsError (o : Outcome) : Prop :=
  ∃ e, o.reply = .error e

instance (o : Outcome) : Decidable o.IsError :=
  match h : o.reply with
  | .error e => isTrue ⟨e, h⟩
  | .ok _ => isFalse fun ⟨_, he⟩ => nomatch h.symm.trans he

/-- The owning plugin of a session, `metadata["plugin"]`. -/
def Session.owner (s : Session) : Option String :=
  s.metadata.getStr "plugin"

/-- The last component of a path, `Path::file_name`: empty components and `.` do not
count, `..` is no name. -/
def pathFileName (path : String) : Option String :=
  match ((path.toList.splitOn '/').filter fun c => c ≠ [] ∧ c ≠ ['.']).getLast? with
  | none | some ['.', '.'] => none
  | some c => some (String.ofList c)

/-- The name of a session nobody named: the last component of its directory. -/
def defaultName (workingDir : String) : String :=
  (pathFileName workingDir).getD "session"

example : defaultName "/home/u/proj/" = "proj" := by decide
example : defaultName "/" = "session" := by decide

end Agentd
