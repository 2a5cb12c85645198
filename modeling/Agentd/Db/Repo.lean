import Agentd.Db.Schema
import Agentd.Foundations.Fallible
import Mathlib.Data.List.Sort

/-!
# The repositories

`SessionRepo`, `EventRepo` and `PluginRepo`: the SQL statements of the daemon, as
functions of the database, and the reader `Agentd.rowToSession` that turns a stored row
back into a session. The reader is strict: a status, a source or a timestamp it cannot
decode fails the whole query.

What a row must hold for that reader to accept it is `Agentd.SessionRow.Decodes`, and
`Agentd.exists_rowToSession_iff` says that nothing else matters.

An `UPDATE` names its row by the text of an id, and changes at most one, as ids are unique. Those
that take a count or a pane may fail, the former for what is bound and the latter for the unique
index, and then they change nothing; the others cannot fail on a row that is there. Times are bound
as text and compared as text.
-/

namespace Agentd

open Json Rfc3339

/-! ### Errors -/

/-- The errors of `rusqlite` that a statement of the daemon can end in. -/
inductive SqliteError
  /-- A column that does not convert to the type asked for. -/
  | fromSqlConversionFailure (column : ℕ)
  /-- A stored integer outside the range of the type asked for. -/
  | integralValueOutOfRange (column : ℕ) (value : ℤ)
  /-- A parameter SQLite cannot store: a `u64` that is no `i64`. -/
  | toSqlConversionFailure
  /-- A constraint of the schema. -/
  | constraintViolation
deriving DecidableEq

/-- `RepoError`. -/
inductive RepoError
  | sqlite (e : SqliteError)
  | notFound (id : Uuid)
deriving DecidableEq

/-! ### Reading a row -/

/-- A required column decoded by `f`. -/
def decodeColumn {α : Type} (column : ℕ) (x : Option α) : Except SqliteError α :=
  x.elim (.error (.fromSqlConversionFailure column)) .ok

/-- A nullable column of text decoded by `f`. -/
def decodeNullable {α : Type} (column : ℕ) (f : String → Option α) :
    Option String → Except SqliteError (Option α)
  | none => .ok none
  | some s => (decodeColumn column (f s)).map some

/-- `r.get::<Option<u64>>`: SQLite stores a signed integer. -/
def getU64 (column : ℕ) : Option ℤ → Except SqliteError (Option UInt64)
  | none => .ok none
  | some n => if 0 ≤ n then .ok (some (UInt64.ofNat n.toNat))
      else .error (.integralValueOutOfRange column n)

/-- The text of the column `source`, without the JSON quotes it is stored with. -/
def trimQuotes (s : String) : String :=
  String.ofList (((s.toList.dropWhile (· = '"')).reverse.dropWhile (· = '"')).reverse)

/-- `agent_type_from_str`. -/
def agentTypeFromStr (s : String) : Except SqliteError AgentType :=
  decodeColumn 1 (AgentType.ofName? s)

/-- `status_from_str`. -/
def statusFromStr (s : String) : Except SqliteError SessionStatus :=
  decodeColumn 6 (SessionStatus.ofName? s)

/-- `row_to_session`. -/
def rowToSession (r : SessionRow) : Except SqliteError Session := do
  let id ← decodeColumn 0 (Uuid.parseStr r.id)
  let agentType ← agentTypeFromStr r.agentType
  let status ← statusFromStr r.status
  -- the source is stored as a JSON string, quotes included
  let source ← decodeColumn 12 (SessionSource.ofName? (trimQuotes r.source))
  let contextUsedTokens ← getU64 9 r.contextUsedTokens
  let contextTotalTokens ← getU64 10 r.contextTotalTokens
  let createdAt ← decodeColumn 13 (parseFromRfc3339 r.createdAt)
  let lastEventAt ← decodeNullable 14 parseFromRfc3339 r.lastEventAt
  let finishedAt ← decodeNullable 15 parseFromRfc3339 r.finishedAt
  return {
    id, agentType, status, source, contextUsedTokens, contextTotalTokens, createdAt,
    lastEventAt, finishedAt
    workingDir := r.workingDir
    tmuxSession := r.tmuxSession
    tmuxPaneId := r.tmuxPaneId
    displayName := r.displayName
    currentTask := r.currentTask
    model := r.model
    costUsd := r.costUsd
    metadata := r.metadata }

/-- A column decodes to what its text was read as. -/
theorem decodeColumn_eq_ok {α : Type} {c : ℕ} {x : Option α} {a : α} :
    decodeColumn c x = .ok a ↔ x = some a := by
  cases x <;> simp [decodeColumn]

/-- The row is read as the session. -/
structure SessionRow.Holds (r : SessionRow) (s : Session) : Prop where
  id : Uuid.parseStr r.id = some s.id
  agentType : AgentType.ofName? r.agentType = some s.agentType
  workingDir : r.workingDir = s.workingDir
  tmuxSession : r.tmuxSession = s.tmuxSession
  tmuxPaneId : r.tmuxPaneId = s.tmuxPaneId
  displayName : r.displayName = s.displayName
  status : SessionStatus.ofName? r.status = some s.status
  currentTask : r.currentTask = s.currentTask
  model : r.model = s.model
  contextUsedTokens : getU64 9 r.contextUsedTokens = .ok s.contextUsedTokens
  contextTotalTokens : getU64 10 r.contextTotalTokens = .ok s.contextTotalTokens
  costUsd : r.costUsd = s.costUsd
  source : SessionSource.ofName? (trimQuotes r.source) = some s.source
  createdAt : parseFromRfc3339 r.createdAt = some s.createdAt
  lastEventAt : decodeNullable 14 parseFromRfc3339 r.lastEventAt = .ok s.lastEventAt
  finishedAt : decodeNullable 15 parseFromRfc3339 r.finishedAt = .ok s.finishedAt
  metadata : r.metadata = s.metadata

/-- **The reader returns a session exactly when each column holds its part of it.** -/
theorem rowToSession_eq_ok_iff {r : SessionRow} {s : Session} :
    rowToSession r = .ok s ↔ r.Holds s := by
  constructor
  · intro h
    unfold rowToSession at h
    obtain ⟨id, hid, h⟩ := Except.bind_eq_ok.mp h
    obtain ⟨agentType, hagent, h⟩ := Except.bind_eq_ok.mp h
    obtain ⟨status, hstatus, h⟩ := Except.bind_eq_ok.mp h
    obtain ⟨source, hsource, h⟩ := Except.bind_eq_ok.mp h
    obtain ⟨used, hused, h⟩ := Except.bind_eq_ok.mp h
    obtain ⟨total, htotal, h⟩ := Except.bind_eq_ok.mp h
    obtain ⟨created, hcreated, h⟩ := Except.bind_eq_ok.mp h
    obtain ⟨last, hlast, h⟩ := Except.bind_eq_ok.mp h
    obtain ⟨finished, hfinished, h⟩ := Except.bind_eq_ok.mp h
    obtain rfl := Except.ok.inj h
    rw [decodeColumn_eq_ok] at hid hsource hcreated
    rw [agentTypeFromStr, decodeColumn_eq_ok] at hagent
    rw [statusFromStr, decodeColumn_eq_ok] at hstatus
    exact ⟨hid, hagent, rfl, rfl, rfl, rfl, hstatus, rfl, rfl, hused, htotal, rfl, hsource,
      hcreated, hlast, hfinished, rfl⟩
  · intro h
    rw [rowToSession, agentTypeFromStr, statusFromStr, decodeColumn_eq_ok.mpr h.id,
      decodeColumn_eq_ok.mpr h.agentType, decodeColumn_eq_ok.mpr h.status,
      decodeColumn_eq_ok.mpr h.source, h.contextUsedTokens, h.contextTotalTokens,
      decodeColumn_eq_ok.mpr h.createdAt, h.lastEventAt, h.finishedAt, h.workingDir, h.tmuxSession,
      h.tmuxPaneId, h.displayName, h.currentTask, h.model, h.costUsd, h.metadata]
    rfl

/-- What the reader asks of a row. -/
structure SessionRow.Decodes (r : SessionRow) : Prop where
  id : (Uuid.parseStr r.id).isSome
  agentType : (AgentType.ofName? r.agentType).isSome
  status : (SessionStatus.ofName? r.status).isSome
  source : (SessionSource.ofName? (trimQuotes r.source)).isSome
  contextUsedTokens : ∀ n ∈ r.contextUsedTokens, 0 ≤ n
  contextTotalTokens : ∀ n ∈ r.contextTotalTokens, 0 ≤ n
  createdAt : (parseFromRfc3339 r.createdAt).isSome
  lastEventAt : ∀ s ∈ r.lastEventAt, (parseFromRfc3339 s).isSome
  finishedAt : ∀ s ∈ r.finishedAt, (parseFromRfc3339 s).isSome

/-- A column that may be null decodes when it is null or its text can be read. -/
theorem exists_decodeNullable {α : Type} {c : ℕ} {f : String → Option α} {x : Option String} :
    (∃ a, decodeNullable c f x = .ok a) ↔ ∀ s ∈ x, (f s).isSome := by
  cases x with
  | none => simp [decodeNullable]
  | some s => cases h : f s <;> simp [decodeNullable, decodeColumn, h, Except.map]

/-- A count decodes when it is null or not negative: a column of SQLite may hold what no `u64` is.
-/
theorem exists_getU64 {c : ℕ} {x : Option ℤ} :
    (∃ a, getU64 c x = .ok a) ↔ ∀ n ∈ x, 0 ≤ n := by
  cases x with
  | none => simp [getU64]
  | some n => by_cases h : 0 ≤ n <;> simp [getU64, h]

/-- What a row that decodes has in common with its session. -/
structure SessionRow.DecodesTo (r : SessionRow) (s : Session) : Prop where
  id : Uuid.parseStr r.id = some s.id
  status : SessionStatus.ofName? r.status = some s.status
  workingDir : s.workingDir = r.workingDir
  tmuxSession : s.tmuxSession = r.tmuxSession
  tmuxPaneId : s.tmuxPaneId = r.tmuxPaneId
  displayName : s.displayName = r.displayName
  currentTask : s.currentTask = r.currentTask
  metadata : s.metadata = r.metadata

/-- **A row that decodes has each of its columns in order.** -/
theorem rowToSession_ok {r : SessionRow} {s : Session} (h : rowToSession r = .ok s) :
    r.Decodes ∧ r.DecodesTo s := by
  have hholds := rowToSession_eq_ok_iff.mp h
  refine ⟨⟨?_, ?_, ?_, ?_, ?_, ?_, ?_, ?_, ?_⟩, ⟨hholds.id, hholds.status, hholds.workingDir.symm,
    hholds.tmuxSession.symm, hholds.tmuxPaneId.symm, hholds.displayName.symm,
    hholds.currentTask.symm, hholds.metadata.symm⟩⟩
  · exact Option.isSome_of_eq_some hholds.id
  · exact Option.isSome_of_eq_some hholds.agentType
  · exact Option.isSome_of_eq_some hholds.status
  · exact Option.isSome_of_eq_some hholds.source
  · exact exists_getU64.mp ⟨_, hholds.contextUsedTokens⟩
  · exact exists_getU64.mp ⟨_, hholds.contextTotalTokens⟩
  · exact Option.isSome_of_eq_some hholds.createdAt
  · exact exists_decodeNullable.mp ⟨_, hholds.lastEventAt⟩
  · exact exists_decodeNullable.mp ⟨_, hholds.finishedAt⟩

/-- **The reader accepts a row exactly when each of its columns decodes.** -/
theorem exists_rowToSession_iff {r : SessionRow} :
    (∃ s, rowToSession r = .ok s) ↔ r.Decodes := by
  constructor
  · rintro ⟨s, h⟩
    exact (rowToSession_ok h).1
  · intro h
    obtain ⟨id, hid⟩ := Option.isSome_iff_exists.mp h.id
    obtain ⟨agentType, hagent⟩ := Option.isSome_iff_exists.mp h.agentType
    obtain ⟨status, hstatus⟩ := Option.isSome_iff_exists.mp h.status
    obtain ⟨source, hsource⟩ := Option.isSome_iff_exists.mp h.source
    obtain ⟨used, hused⟩ := exists_getU64 (c := 9).mpr h.contextUsedTokens
    obtain ⟨total, htotal⟩ := exists_getU64 (c := 10).mpr h.contextTotalTokens
    obtain ⟨created, hcreated⟩ := Option.isSome_iff_exists.mp h.createdAt
    obtain ⟨last, hlast⟩ := exists_decodeNullable (c := 14).mpr h.lastEventAt
    obtain ⟨finished, hfinished⟩ := exists_decodeNullable (c := 15).mpr h.finishedAt
    let s : Session :=
      { id, agentType, status, source
        contextUsedTokens := used
        contextTotalTokens := total
        createdAt := created
        lastEventAt := last
        finishedAt := finished
        workingDir := r.workingDir
        tmuxSession := r.tmuxSession
        tmuxPaneId := r.tmuxPaneId
        displayName := r.displayName
        currentTask := r.currentTask
        model := r.model
        costUsd := r.costUsd
        metadata := r.metadata }
    have hholds : r.Holds s := ⟨hid, hagent, rfl, rfl, rfl, rfl, hstatus, rfl, rfl, hused, htotal,
      rfl, hsource, hcreated, hlast, hfinished, rfl⟩
    exact ⟨s, rowToSession_eq_ok_iff.mpr hholds⟩

/-! ### Writing a row -/

/-- A `u64` bound to a parameter: SQLite has room for those that are an `i64`. -/
def bindU64 : Option UInt64 → Except SqliteError (Option ℤ)
  | none => .ok none
  | some n => if n.toNat < 2 ^ 63 then .ok (some n.toNat) else .error .toSqlConversionFailure

/-- A double bound to a parameter: SQLite has no NaN. -/
def bindF64 (x : Option F64) : Option F64 :=
  x.filter fun x => ¬x.IsNaN

/-- A count is bound when there is room for it, and then as it is. -/
theorem bindU64_eq_ok {x : Option UInt64} {y : Option ℤ} :
    bindU64 x = .ok y ↔ (y = x.map fun n => (n.toNat : ℤ)) ∧ ∀ n ∈ x, n.toNat < 2 ^ 63 := by
  cases x with
  | none => simp [bindU64, eq_comm]
  | some n =>
    rw [bindU64]
    split_ifs with h
    · rw [Except.ok.injEq, eq_comm]
      refine ⟨fun hy => ⟨hy, fun m hm => ?_⟩, And.left⟩
      rw [← Option.some.inj hm]
      exact h
    · refine iff_of_false (fun hy => ?_) fun hy => h (hy.2 n rfl)
      cases hy

/-- A number is bound as it is. -/
theorem bindF64_eq_self {x : Option F64} (h : ∀ c ∈ x, c.IsFinite) : bindF64 x = x := by
  cases x with
  | none => rfl
  | some c =>
    have hnan : ¬c.IsNaN := fun hnan => hnan.1 (h c rfl)
    rw [bindF64, Option.filter_some, if_pos (decide_eq_true hnan)]

/-- The row `SessionRepo::insert` writes for a session. The source is stored as a
JSON string, quotes included. -/
def sessionToRow (s : Session) : Except SqliteError SessionRow := do
  let contextUsedTokens ← bindU64 s.contextUsedTokens
  let contextTotalTokens ← bindU64 s.contextTotalTokens
  return {
    contextUsedTokens, contextTotalTokens
    id := s.id.toText
    agentType := s.agentType.asStr
    workingDir := s.workingDir
    tmuxSession := s.tmuxSession
    tmuxPaneId := s.tmuxPaneId
    displayName := s.displayName
    status := s.status.toText
    currentTask := s.currentTask
    model := s.model
    costUsd := bindF64 s.costUsd
    source := String.ofList ('"' :: s.source.toText.toList ++ ['"'])
    createdAt := toRfc3339 s.createdAt
    lastEventAt := s.lastEventAt.map toRfc3339
    finishedAt := s.finishedAt.map toRfc3339
    metadata := s.metadata }

/-- The row written for a session, column by column, but for the token counts. -/
structure SessionRow.Encodes (r : SessionRow) (s : Session) : Prop where
  id : r.id = s.id.toText
  agentType : r.agentType = s.agentType.asStr
  pane : r.pane = s.pane
  displayName : r.displayName = s.displayName
  status : r.status = s.status.toText
  currentTask : r.currentTask = s.currentTask
  contextUsedTokens : ∀ n ∈ r.contextUsedTokens, 0 ≤ n
  contextTotalTokens : ∀ n ∈ r.contextTotalTokens, 0 ≤ n
  source : trimQuotes r.source = s.source.toText
  createdAt : r.createdAt = toRfc3339 s.createdAt
  lastEventAt : r.lastEventAt = s.lastEventAt.map toRfc3339
  finishedAt : r.finishedAt = s.finishedAt.map toRfc3339
  metadata : r.metadata = s.metadata

/-- What is bound for a count is not negative. -/
theorem nonneg_of_bindU64 {x : Option UInt64} {y : Option ℤ} (h : bindU64 x = .ok y) :
    ∀ n ∈ y, 0 ≤ n := by
  obtain ⟨rfl, -⟩ := bindU64_eq_ok.mp h
  intro n hn
  obtain ⟨m, -, rfl⟩ := Option.map_eq_some_iff.mp hn
  exact Int.natCast_nonneg _

/-- The quotes a source is stored with are those the reader trims. -/
theorem trimQuotes_quoted (source : SessionSource) :
    trimQuotes (String.ofList ('"' :: source.toText.toList ++ ['"'])) = source.toText := by
  cases source <;> decide

/-- A row that was written has the texts of the session's fields. -/
theorem sessionToRow_eq_ok {s : Session} {r : SessionRow} (h : sessionToRow s = .ok r) :
    r.Encodes s := by
  unfold sessionToRow at h
  obtain ⟨used, hused, h⟩ := Except.bind_eq_ok.mp h
  obtain ⟨total, htotal, h⟩ := Except.bind_eq_ok.mp h
  obtain rfl := Except.ok.inj h
  exact ⟨rfl, rfl, rfl, rfl, rfl, rfl, nonneg_of_bindU64 hused, nonneg_of_bindU64 htotal,
    trimQuotes_quoted _, rfl, rfl, rfl, rfl⟩

/-- The row of a session names its tmux session. -/
theorem tmuxSession_of_sessionToRow {s : Session} {row : SessionRow}
    (h : sessionToRow s = .ok row) : row.tmuxSession = s.tmuxSession := by
  unfold sessionToRow at h
  obtain ⟨_, -, h⟩ := Except.bind_eq_ok.mp h
  obtain ⟨_, -, h⟩ := Except.bind_eq_ok.mp h
  rw [← Except.ok.inj h]

/-- **A row written for a session reads back exactly when its stamps fall in the
years of four digits.** -/
theorem SessionRow.Encodes.decodes_iff {r : SessionRow} {s : Session} (h : r.Encodes s) :
    r.Decodes ↔ s.createdAt.FourDigitYear ∧ (∀ t ∈ s.lastEventAt, t.FourDigitYear) ∧
      ∀ t ∈ s.finishedAt, t.FourDigitYear := by
  constructor
  · intro hr
    refine ⟨?_, fun t ht => ?_, fun t ht => ?_⟩
    · exact isSome_parseFromRfc3339.mp (h.createdAt ▸ hr.createdAt)
    · exact isSome_parseFromRfc3339.mp (hr.lastEventAt _ (by rw [h.lastEventAt, ht]; rfl))
    · exact isSome_parseFromRfc3339.mp (hr.finishedAt _ (by rw [h.finishedAt, ht]; rfl))
  · rintro ⟨hcreated, hlast, hfinished⟩
    refine ⟨?_, ?_, ?_, ?_, h.contextUsedTokens, h.contextTotalTokens, ?_, fun t ht => ?_,
      fun t ht => ?_⟩
    · rw [h.id, Uuid.parseStr_toText]; rfl
    · rw [h.agentType, AgentType.ofName?_asStr]; rfl
    · rw [h.status, SessionStatus.ofName?_toText]; rfl
    · rw [h.source, SessionSource.ofName?_toText]; rfl
    · rw [h.createdAt]
      exact isSome_parseFromRfc3339.mpr hcreated
    · rw [h.lastEventAt] at ht
      obtain ⟨u, hu, rfl⟩ := Option.map_eq_some_iff.mp ht
      exact isSome_parseFromRfc3339.mpr (hlast u hu)
    · rw [h.finishedAt] at ht
      obtain ⟨u, hu, rfl⟩ := Option.map_eq_some_iff.mp ht
      exact isSome_parseFromRfc3339.mpr (hfinished u hu)

namespace Db

/-! ### `SessionRepo` -/

/-- `SessionRepo::insert`. -/
def insertSession (db : Db) (s : Session) : Except RepoError Db :=
  match sessionToRow s with
  | .error e => .error (.sqlite e)
  | .ok row => match db.sessions.insert? row with
      | none => .error (.sqlite .constraintViolation)
      | some sessions => .ok { db with sessions }

/-- `SessionRepo::get`. -/
def getSession (db : Db) (id : Uuid) : Except RepoError (Option Session) :=
  match db.row? id with
  | none => .ok none
  | some row => match rowToSession row with
      | .error e => .error (.sqlite e)
      | .ok s => .ok (some s)

/-- The rows in the order of `SessionRepo::list`, by the text of `created_at`. -/
def listRows (db : Db) : List SessionRow :=
  db.sessions.rows.insertionSort fun r s => r.createdAt ≤ s.createdAt

/-- `SessionRepo::list`. -/
def listSessions (db : Db) : Except RepoError (List Session) :=
  match db.listRows.mapM rowToSession with
  | .error e => .error (.sqlite e)
  | .ok sessions => .ok sessions

/-- `SessionRepo::list_non_finished`. -/
def listNonFinished (db : Db) : Except RepoError (List Session) :=
  db.listSessions.map fun sessions => sessions.filter fun s => !s.status.isTerminal

/-- An `UPDATE sessions SET … WHERE id = ?`, which fails when it changes no row. -/
def updateSession (db : Db) (id : Uuid) (f : SessionRow → SessionRow)
    (hf : KeyedTable.Keeps SessionRow.id SessionRow.pane f) : Except RepoError Db :=
  match db.row? id with
  | none => .error (.notFound id)
  | some _ => .ok { db with sessions := db.sessions.modify id.toText f hf }

/-- `SessionRepo::update_status`. -/
def updateStatus (db : Db) (id : Uuid) (status : SessionStatus) (at_ : DateTime) :
    Except RepoError Db :=
  db.updateSession id
    (fun r => { r with status := status.toText, lastEventAt := some (toRfc3339 at_) })
    fun _ => ⟨rfl, rfl⟩

/-- `SessionRepo::update_task`. -/
def updateTask (db : Db) (id : Uuid) (task : Option String) (at_ : DateTime) :
    Except RepoError Db :=
  db.updateSession id
    (fun r => { r with currentTask := task, lastEventAt := some (toRfc3339 at_) })
    fun _ => ⟨rfl, rfl⟩

/-- `SessionRepo::update_usage`. -/
def updateUsage (db : Db) (id : Uuid) (used total : Option UInt64) (cost : Option F64)
    (at_ : DateTime) : Except RepoError Db :=
  match bindU64 used, bindU64 total with
  | .ok used, .ok total =>
    db.updateSession id
      (fun r => { r with
        contextUsedTokens := used
        contextTotalTokens := total
        costUsd := bindF64 cost
        lastEventAt := some (toRfc3339 at_) })
      fun _ => ⟨rfl, rfl⟩
  | .error e, _ => .error (.sqlite e)
  | _, .error e => .error (.sqlite e)

/-- `SessionRepo::update_rename`. -/
def updateRename (db : Db) (id : Uuid) (name : String) : Except RepoError Db :=
  db.updateSession id (fun r => { r with displayName := name }) fun _ => ⟨rfl, rfl⟩

/-- `SessionRepo::mark_finished`. -/
def markFinished (db : Db) (id : Uuid) (at_ : DateTime) : Except RepoError Db :=
  db.updateSession id
    (fun r => { r with
      status := "finished"
      finishedAt := some (toRfc3339 at_)
      lastEventAt := some (toRfc3339 at_) })
    fun _ => ⟨rfl, rfl⟩

/-- `SessionRepo::update_tmux`, which may run into the unique index. -/
def updateTmux (db : Db) (id : Uuid) (session pane : Option String) : Except RepoError Db :=
  match db.row? id with
  | none => .error (.notFound id)
  | some _ =>
    match db.sessions.modify? id.toText
      fun r => { r with tmuxSession := session, tmuxPaneId := pane } with
    | none => .error (.sqlite .constraintViolation)
    | some sessions => .ok { db with sessions }

/-! ### `EventRepo` -/

/-- `EventRepo::insert`, with the time SQLite stamps on the row, which must not be `NULL`; the
session must exist. Returns the new row's key. -/
def insertEvent (db : Db) (id : Uuid) (kind : String) (payload : Value) (now : Option String) :
    Except RepoError (ℕ × Db) :=
  match db.row? id with
  | none => .error (.sqlite .constraintViolation)
  | some _ =>
  match now with
  -- the column `created_at` is `NOT NULL`
  | none => .error (.sqlite .constraintViolation)
  | some now =>
    let key := db.lastEventId + 1
    .ok (key, { db with
      sessionEvents := db.sessionEvents ++ [⟨key, id.toText, kind, payload, now⟩]
      lastEventId := key })

/-- `EventRepo::list_for_session`. -/
def eventsForSession (db : Db) (id : Uuid) : List EventRow :=
  (db.sessionEvents.filter fun e => e.sessionId = id.toText).insertionSort fun a b =>
    a.createdAt < b.createdAt ∨ a.createdAt = b.createdAt ∧ a.id ≤ b.id

/-! ### `PluginRepo` -/

/-- The update half of `PluginRepo::upsert`. -/
def setPlugin (db : Db) (name : String) (f : PluginRow → PluginRow)
    (hf : KeyedTable.Keeps PluginRow.name (fun _ => (none : Option Unit)) f) : Db :=
  { db with plugins := db.plugins.modify name f hf }

/-- `PluginRepo::upsert`. -/
def upsertPlugin (db : Db) (name binary socketName : String) (autostart : Bool) : Db :=
  match db.plugins.insert? ⟨name, binary, socketName, autostart, none, none⟩ with
  | some plugins => { db with plugins }
  | none => db.setPlugin name (fun p => { p with binary, socketName, autostart })
      fun _ => ⟨rfl, rfl⟩

/-- `PluginRepo::set_last_connected`. -/
def setLastConnected (db : Db) (name : String) (ts : DateTime) : Db :=
  db.setPlugin name (fun p => { p with lastConnectedAt := some (toRfc3339 ts) })
    fun _ => ⟨rfl, rfl⟩

/-- `PluginRepo::list`, by name. -/
def listPlugins (db : Db) : List PluginRow :=
  db.plugins.rows.insertionSort fun p q => p.name ≤ q.name

end Db

end Agentd
