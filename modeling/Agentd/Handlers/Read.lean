import Agentd.Db.Repo

/-!
# The read-only methods of the control socket

`handlers/read.rs` with `State::capture`, and the first half of the boot step
`restart_respawn`, which reads the same rows. None of them writes.

Each reader of session rows goes through `Agentd.Db.listSessions`, so each answers
exactly when every stored row decodes.

An answer is none when the read fails, whatever it failed for, as in the source. The router takes
this for a method it does not know; `Agentd.Handlers.ErrorCodes` has what comes of that.
-/

namespace Agentd

open Json

/-- `State`: what a snapshot holds. -/
structure State where
  sessions : List Session
  plugins : List PluginRow

/-- `State::capture`. -/
def State.capture (db : Db) : Except RepoError State :=
  db.listSessions.map fun sessions => { sessions, plugins := db.listPlugins }

namespace Read

/-- Nullable text in a serialized record: `None` is written as `null`. -/
def nullable (s : Option String) : Value :=
  s.elim .null .string

/-- The JSON form of a `PluginRecord`. -/
def pluginRecord (p : PluginRow) : Value :=
  .object [("autostart", .bool p.autostart), ("binary", .string p.binary),
    ("last_connected_at", nullable p.lastConnectedAt), ("last_error", nullable p.lastError),
    ("name", .string p.name), ("socket_name", .string p.socketName)]

/-- The JSON form of an `EventRecord`, whose session identifier is parsed when the
row is read. -/
def eventRecord (e : EventRow) : Option Value :=
  (Uuid.parseStr e.sessionId).map fun id =>
    .object [("created_at", .string e.createdAt), ("id", .ofU64 (UInt64.ofNat e.id)),
      ("kind", .string e.kind), ("payload", e.payload), ("session_id", .string id.toText)]

/-- The session a read request names by `id`. -/
def requestedId (params : Value) : Option Uuid :=
  (params.getStr "id").bind Uuid.parseStr

/-- The answer to `state.snapshot`. -/
def snapshot (st : State) : Value :=
  .object [("plugins", .array (st.plugins.map pluginRecord)),
    ("sessions", .array (st.sessions.map Session.toValue))]

/-- `read::dispatch`: `none` for a method that is no read, and for a read that fails. -/
def dispatch (method : String) (params : Value) (db : Db) : Option Value :=
  if method = Method.stateSnapshot then
    (State.capture db).toOption.map snapshot
  else if method = Method.sessionGet then
    (requestedId params).bind fun id =>
      (db.getSession id).toOption.join.map Session.toValue
  else if method = Method.sessionListActive then
    db.listNonFinished.toOption.map fun sessions => .array (sessions.map Session.toValue)
  else if method = Method.sessionEvents then
    (requestedId params).bind fun id =>
      ((db.eventsForSession id).mapM eventRecord).map fun events =>
        .object [("events", .array events)]
  else if method = Method.daemonStatus then
    db.listSessions.toOption.map fun sessions =>
      .object [("session_count", .ofU64 (UInt64.ofNat sessions.length)), ("uptime_secs", .ofU64 0),
        ("version", .string "0.1.0")]
  else if method = Method.pluginList then
    some (.array (db.listPlugins.map pluginRecord))
  else if method = Method.metrics then
    some (.object [("status", .string "not yet implemented")])
  else none

end Read

/-- The plugins `restart_respawn` needs: the owners of the sessions that have not
finished, each once. Asking the supervisor for them is left out. -/
def restartRespawn (db : Db) : Except RepoError (List String) :=
  db.listNonFinished.map fun active =>
    ((active.filter fun s => s.status ≠ .finished).filterMap fun s =>
      s.metadata.getStr "plugin").dedup

/-! ### When the readers answer

All of them list the sessions, and fail when one row does not decode. -/

theorem listSessions_eq_ok {db : Db} {l : List Session} :
    db.listSessions = .ok l ↔ db.listRows.map rowToSession = l.map .ok := by
  rw [← Except.mapM_eq_ok]
  unfold Db.listSessions
  cases db.listRows.mapM rowToSession with
  | error e => exact ⟨nofun, nofun⟩
  | ok l' => exact ⟨fun h => congrArg _ (Except.ok.inj h), fun h => congrArg _ (Except.ok.inj h)⟩

@[simp] theorem mem_listRows {db : Db} {r : SessionRow} :
    r ∈ db.listRows ↔ r ∈ db.sessions.rows :=
  (List.perm_insertionSort _ _).mem_iff

/-- **`SessionRepo::list` succeeds exactly when every stored row decodes.** -/
theorem exists_listSessions_iff {db : Db} :
    (∃ l, db.listSessions = .ok l) ↔ ∀ r ∈ db.sessions.rows, r.Decodes := by
  simp only [listSessions_eq_ok, ← Except.mapM_eq_ok, Except.exists_mapM_eq_ok,
    exists_rowToSession_iff, mem_listRows]

/-- The three read methods that go through every session row. -/
def Read.ListsSessions (method : String) : Prop :=
  method = Method.stateSnapshot ∨ method = Method.sessionListActive ∨ method = Method.daemonStatus

/-- **A listing method answers exactly when every stored row decodes.** -/
theorem isSome_read_dispatch_iff {db : Db} {method : String} (h : Read.ListsSessions method)
    (params : Value) :
    (Read.dispatch method params db).isSome ↔ ∀ r ∈ db.sessions.rows, r.Decodes := by
  rw [← exists_listSessions_iff]
  rcases h with rfl | rfl | rfl
  · unfold Read.dispatch
    rw [if_pos rfl, State.capture]
    cases db.listSessions <;> simp [Except.map, Except.toOption]
  · unfold Read.dispatch
    rw [if_neg (by decide), if_neg (by decide), if_pos rfl, Db.listNonFinished]
    cases db.listSessions <;> simp [Except.map, Except.toOption]
  · unfold Read.dispatch
    rw [if_neg (by decide), if_neg (by decide), if_neg (by decide), if_neg (by decide),
      if_pos rfl]
    cases db.listSessions <;> simp [Except.toOption]

/-- The boot step reads its rows exactly when every stored row decodes. -/
theorem exists_restartRespawn_iff {db : Db} :
    (∃ names, restartRespawn db = .ok names) ↔ ∀ r ∈ db.sessions.rows, r.Decodes := by
  rw [← exists_listSessions_iff, restartRespawn, Db.listNonFinished]
  cases db.listSessions <;> simp [Except.map]

end Agentd
