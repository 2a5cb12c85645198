import Agentd.Foundations.KeyedTable
import Agentd.Protocol

/-!
# The database

The tables of the first migration that the daemon reads and writes, with the
constraints the schema puts on them. The columns of a session hold what SQLite holds:
text for identifiers, statuses and timestamps, signed integers for token counts. A
column of JSON text is modelled by the value it encodes; text that is no JSON reads
back as `null`, and no writer stores any.

`Agentd.Db` carries its constraints: the primary keys of sessions and plugins and the
unique index over the tmux binding of a session, for rows that have one.
-/

namespace Agentd

open Json

/-- A row of `sessions`. -/
structure SessionRow where
  id : String
  agentType : String
  workingDir : String
  tmuxSession : Option String
  tmuxPaneId : Option String
  displayName : String
  status : String
  currentTask : Option String
  model : Option String
  contextUsedTokens : Option ℤ
  contextTotalTokens : Option ℤ
  costUsd : Option F64
  source : String
  createdAt : String
  lastEventAt : Option String
  finishedAt : Option String
  metadata : Value

namespace SessionRow

/-- The indexed value of `idx_sessions_tmux`: the pane a row is bound to, if both of
its columns are set. -/
def pane (r : SessionRow) : Option (String × String) :=
  r.tmuxSession.bind fun session => r.tmuxPaneId.map fun pane => (session, pane)

/-- The plugin that owns the session, `metadata["plugin"]`. -/
def owner (r : SessionRow) : Option String :=
  r.metadata.getStr "plugin"

end SessionRow

/-- A row of `session_events`. -/
structure EventRow where
  id : ℕ
  sessionId : String
  kind : String
  payload : Value
  createdAt : String

/-- A row of `plugins`. -/
structure PluginRow where
  name : String
  binary : String
  socketName : String
  autostart : Bool
  lastConnectedAt : Option String
  lastError : Option String

/-- The table `sessions`. -/
abbrev SessionTable :=
  KeyedTable SessionRow.id SessionRow.pane

/-- The table `plugins`, which has no unique index besides its key. -/
abbrev PluginTable :=
  KeyedTable PluginRow.name fun _ => (none : Option Unit)

/-- The contents of `state.db`. -/
structure Db where
  sessions : SessionTable
  sessionEvents : List EventRow
  /-- The last key `AUTOINCREMENT` gave out. -/
  lastEventId : ℕ
  plugins : PluginTable

namespace Db

/-- A freshly migrated database. -/
def fresh : Db where
  sessions := KeyedTable.empty _ _
  sessionEvents := []
  lastEventId := 0
  plugins := KeyedTable.empty _ _

/-- The row of a session. -/
def row? (db : Db) (id : Uuid) : Option SessionRow :=
  db.sessions.find? id.toText

end Db

end Agentd
