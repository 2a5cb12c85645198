import Agentd.Tmux.Kill
import Mathlib.Data.Set.Basic

/-!
# What it takes for a session to be created as a whole or not at all

`create_session` writes to two stores, the database and the tmux server, and undoes in one what
fails in the other. It has a compensation for a `new_session` that fails and one for an
`update_tmux` that fails. But `RealTmux::new_session` is two commands, and when the second one
fails the session that the first one made stays; nothing is undone after the reload of the row;
and a compensation may fail itself, unseen.

`Agentd.allOrNothing_iff` – the call is all or nothing exactly when none of this happens
(`Agentd.Covered`).

All of the conditions are about the surroundings: which command of tmux fails, which statement of
SQLite does, and what tmux makes of a name. None of them is a value that the function computes, and
what the two stores held before matters only where a command or a statement fails for it.
-/

namespace Agentd

open Json Rfc3339

/-! ### The two stores

Every statement of `create_session` is on one of the two stores, and the world outside says for each
statement whether it fails. A statement that fails for what is in the store (a key that is taken, a
pane that is bound) does so besides. -/

/-- The statements of `create_session`. -/
inductive CreateStatement
  | insert
  | updateTmux
  | get
  | delete

/-- What the world outside hands `create_session`. -/
structure CreateWorld extends Ambient where
  /-- The error of a statement that fails for a reason other than the contents of the tables. -/
  sqlite : CreateStatement → Option SqliteError
  /-- The error of `new-session`, if it fails for a reason other than the name. -/
  newSessionFails : Option TmuxError
  /-- The error of `list-panes`, if it fails. -/
  listPanesFails : Option TmuxError
  /-- The number tmux gives the new pane. -/
  paneNumber : ℕ
  /-- The path tmux prints for it. -/
  panePath : String
  /-- How many panes are listed before it. -/
  position : ℕ

/-- The database and the tmux server. -/
structure Stores where
  db : Db
  server : TmuxServer

/-- A statement, unless the world makes it fail. -/
def CreateWorld.run {α : Type} (w : CreateWorld) (statement : CreateStatement)
    (x : Except RepoError α) : Except RepoError α :=
  match w.sqlite statement with
  | some e => .error (.sqlite e)
  | none => x

/-! ### `RealTmux::new_session`

It runs two commands, `new-session` and `list-panes`, and takes for the new pane the first that is
listed under the name it gave. tmux may have stored another name, as it does not keep a dot or a
colon. -/

/-- The name tmux stores for a session. -/
def storedName (name : String) : String :=
  String.ofList (name.toList.map fun c => if c = '.' then '_' else c)

/-- The pane of a new session. -/
def CreateWorld.newPane (w : CreateWorld) (name : String) : Pane :=
  ⟨storedName name, "%" ++ toString w.paneNumber, w.panePath⟩

/-- The server with a new session. -/
def CreateWorld.withSession (w : CreateWorld) (server : TmuxServer) (name : String) : TmuxServer :=
  server.take w.position ++ w.newPane name :: server.drop w.position

/-- The pane `new_session` takes for that of the session: the first that is listed under the
name. -/
def TmuxServer.firstPane (server : TmuxServer) (name : String) : Option String :=
  ((server.listPanes).find? fun p => p.session = name).map Pane.paneId

/-- `RealTmux::new_session`. -/
def newSession (w : CreateWorld) (server : TmuxServer) (name : String) :
    TmuxServer × Except TmuxError String :=
  match validateSessionName name with
  | .error e => (server, .error e)
  | .ok () =>
  match w.newSessionFails with
  | some e => (server, .error e)
  | none =>
  if storedName name ∈ server.sessionNames then
    (server, .error (.tmux ("duplicate session: " ++ storedName name)))
  else
  let server := w.withSession server name
  -- from here on the session is there, whatever is answered
  match w.listPanesFails with
  | some e => (server, .error e)
  | none =>
  match server.firstPane name with
  | none => (server, .error (.tmux ("no pane found for " ++ name)))
  | some paneId => (server, .ok paneId)

/-! ### `create_session`

The source, stage by stage: the check of the name, the insertion, the new tmux session, the binding,
the reload. After the first insertion each failure has a compensation of its own, or none. -/

/-- `CreateError`. -/
inductive CreateError
  | invalidName (name : String)
  | tmux (e : TmuxError)
  | db (e : RepoError)
  | internal (reason : String)

/-- The `DELETE` of a rollback, whose result nobody looks at. -/
def CreateWorld.deleteRow (w : CreateWorld) (db : Db) (id : Uuid) : Db :=
  match w.sqlite .delete with
  | some _ => db
  | none =>
    { db with
      sessions := db.sessions.filter fun r => r.id ≠ id.toText
      sessionEvents := db.sessionEvents.filter fun e => e.sessionId ≠ id.toText }

/-- `create_session`. -/
def createSession (resolve : TmuxServer → String → Option String) (w : CreateWorld)
    (agentType : AgentType) (workingDir : String) (displayName : Option String) (st : Stores) :
    Stores × Except CreateError Session :=
  let name := displayName.getD "session"
  match validateSessionName name with
  | .error _ => (st, .error (.invalidName name))
  | .ok () =>
  let session := Mutate.newSession agentType workingDir name w.toAmbient
  match w.run .insert (st.db.insertSession session) with
  | .error e => (st, .error (.db e))
  | .ok db =>
  match newSession w st.server name with
  | (server, .error e) => (⟨w.deleteRow db session.id, server⟩, .error (.tmux e))
  | (server, .ok paneId) =>
  match w.run .updateTmux (db.updateTmux session.id (some name) (some paneId)) with
  | .error e =>
    let server := server.obey resolve w.toAmbient (.killSession name)
    (⟨w.deleteRow db session.id, server⟩, .error (.db e))
  | .ok db =>
  match w.run .get (db.getSession session.id) with
  | .error e => (⟨db, server⟩, .error (.db e))
  | .ok none => (⟨db, server⟩, .error (.internal "session disappeared after update_tmux"))
  | .ok (some updated) =>
    (⟨db, server⟩, .ok { updated with tmuxSession := some name, tmuxPaneId := some paneId })

/-- **All or nothing**: an error leaves the sessions of both stores as they were; a success adds
one row, that of the session it returns, and one tmux session, and the row is bound to that
session and a pane of it. -/
def AllOrNothing (st : Stores) : Stores × Except CreateError Session → Prop
  | (st', .error _) =>
    st'.db.sessions.rows = st.db.sessions.rows ∧
      st'.server.sessionNames = st.server.sessionNames
  | (st', .ok s) =>
    ∃ row p, st'.db.sessions.rows = st.db.sessions.rows ++ [row] ∧ rowToSession row = .ok s ∧
      p ∈ st'.server ∧ p.session ∉ st.server.sessionNames ∧
      st'.server.sessionNames = insert p.session st.server.sessionNames ∧
      row.pane = some (p.session, p.paneId)

/-! ### When it is

The condition is put together from what fails at each stage and from what the compensation does
then. It is a condition on the world, and on the two stores as they were before. -/

section Covered

variable (resolve : TmuxServer → String → Option String) (w : CreateWorld) (st : Stores)
  (name : String)

/-- The row goes into the table. -/
def Inserts : Prop :=
  w.sqlite .insert = none ∧ st.db.row? w.freshId = none

/-- tmux makes no session. -/
def Refuses : Prop :=
  w.newSessionFails.isSome ∨ storedName name ∈ st.server.sessionNames

/-- The row cannot be bound to the pane. -/
def BindingFails (paneId : String) : Prop :=
  (w.sqlite .updateTmux).isSome ∨ ∃ row ∈ st.db.sessions.rows, row.pane = some (name, paneId)

/-- Whatever fails is made up for.

* When tmux makes no session, the row is deleted.
* When it makes one, its panes can be listed and one is listed under the name.
* When the row cannot be bound to the pane that is listed first, the row is deleted and tmux
  kills the new session.
* When it can, it can be reloaded; the clock shows a year of four digits, tmux keeps the name
  as it is, and the pane listed first is that of the new session. -/
def Covered : Prop :=
  ValidName name → Inserts w st →
    (Refuses w st name → w.sqlite .delete = none) ∧
    (¬Refuses w st name → w.listPanesFails = none ∧
      ∃ paneId, (w.withSession st.server name).firstPane name = some paneId ∧
        (BindingFails w st name paneId → w.sqlite .delete = none ∧
          w.tmux (.killSession name) = true ∧
          resolve (w.withSession st.server name) name = some (storedName name)) ∧
        (¬BindingFails w st name paneId → w.sqlite .get = none ∧ w.rowNow.FourDigitYear ∧
          storedName name = name ∧ paneId = (w.newPane name).paneId))

end Covered

/-! ### The tmux server

What the two commands do to the list of panes, and when a kill undoes it. A kill that is carried out
on another session of a name that tmux takes for a target undoes nothing. -/

section Server

variable {resolve : TmuxServer → String → Option String} {w : CreateWorld} {server : TmuxServer}
  {name : String}

theorem mem_withSession {p : Pane} :
    p ∈ w.withSession server name ↔ p = w.newPane name ∨ p ∈ server := by
  have hserver : p ∈ server ↔ p ∈ server.take w.position ∨ p ∈ server.drop w.position := by
    rw [← List.mem_append, List.take_append_drop]
  rw [CreateWorld.withSession, List.mem_append, List.mem_cons, hserver]
  exact or_left_comm

/-- `new-session` adds one session. -/
theorem sessionNames_withSession :
    (w.withSession server name).sessionNames = insert (storedName name) server.sessionNames := by
  ext n
  simp only [TmuxServer.sessionNames, Set.mem_ofPred_eq, Set.mem_insert_iff, mem_withSession]
  constructor
  · rintro ⟨p, rfl | hp, rfl⟩
    · exact Or.inl rfl
    · exact Or.inr ⟨p, hp, rfl⟩
  · rintro (rfl | ⟨p, hp, rfl⟩)
    · exact ⟨w.newPane name, Or.inl rfl, rfl⟩
    · exact ⟨p, Or.inr hp, rfl⟩

/-- The new pane is the only one of the new session. -/
theorem eq_newPane {p : Pane} (hfree : storedName name ∉ server.sessionNames)
    (hp : p ∈ w.withSession server name) (hsession : p.session = storedName name) :
    p = w.newPane name :=
  (mem_withSession.mp hp).resolve_right fun hp => hfree ⟨p, hp, hsession⟩

/-- A kill takes back what `new-session` added exactly when it is carried out and hits the new
session. -/
theorem sessionNames_killed_iff (hfree : storedName name ∉ server.sessionNames) :
    ((w.withSession server name).obey resolve w.toAmbient (.killSession name)).sessionNames =
        server.sessionNames ↔
      w.tmux (.killSession name) = true ∧
        resolve (w.withSession server name) name = some (storedName name) := by
  constructor
  · intro heq
    by_contra hspared
    refine hfree (heq ▸ ⟨w.newPane name, mem_obey_killSession.mpr ⟨?_, hspared⟩, rfl⟩)
    exact mem_withSession.mpr (Or.inl rfl)
  · rintro ⟨hcall, hresolve⟩
    ext n
    constructor
    · rintro ⟨p, hp, rfl⟩
      obtain ⟨hp, hspared⟩ := mem_obey_killSession.mp hp
      rcases mem_withSession.mp hp with rfl | hp
      · exact absurd ⟨hcall, hresolve⟩ hspared
      · exact ⟨p, hp, rfl⟩
    · rintro ⟨p, hp, rfl⟩
      refine ⟨p, mem_obey_killSession.mpr ⟨mem_withSession.mpr (Or.inr hp), ?_⟩, rfl⟩
      rintro ⟨-, hresolve'⟩
      rw [hresolve, Option.some.injEq] at hresolve'
      exact hfree ⟨p, hp, hresolve'.symm⟩

theorem sessionNames_withSession_ne (hfree : storedName name ∉ server.sessionNames) :
    (w.withSession server name).sessionNames ≠ server.sessionNames := by
  rw [sessionNames_withSession]
  exact fun heq => hfree (heq ▸ Set.mem_insert _ _)

end Server

/-- What `new_session` answers, and what it leaves: a session that is there may be answered with
an error. -/
theorem newSession_of_refuses {w : CreateWorld} {st : Stores} {name : String}
    (hvalid : ValidName name) (h : Refuses w st name) :
    ∃ e, newSession w st.server name = (st.server, .error e) := by
  unfold newSession
  simp only [show validateSessionName name = .ok () from hvalid]
  cases hfails : w.newSessionFails with
  | some e => exact ⟨e, rfl⟩
  | none =>
    have hdup : storedName name ∈ st.server.sessionNames :=
      h.resolve_left fun hsome => by rw [hfails] at hsome; cases hsome
    exact ⟨_, if_pos hdup⟩

theorem newSession_of_not_refuses {w : CreateWorld} {st : Stores} {name : String}
    (hvalid : ValidName name) (h : ¬Refuses w st name) :
    ∃ answer, newSession w st.server name = (w.withSession st.server name, answer) ∧
      ∀ paneId, answer = .ok paneId ↔
        w.listPanesFails = none ∧ (w.withSession st.server name).firstPane name = some paneId := by
  rw [Refuses, not_or, Option.not_isSome_iff_eq_none] at h
  unfold newSession
  simp only [show validateSessionName name = .ok () from hvalid, h.1, if_neg h.2]
  cases w.listPanesFails with
  | some e => exact ⟨_, rfl, fun paneId => iff_of_false nofun nofun⟩
  | none =>
    cases (w.withSession st.server name).firstPane name with
    | none => exact ⟨_, rfl, fun paneId => iff_of_false nofun nofun⟩
    | some paneId => exact ⟨_, rfl, fun paneId' => by simp⟩

/-! ### The table of sessions

What the insertion, the deletion and the binding do to the table, and when the second undoes the
first. A row that was inserted is the only one with its id, so that to delete it by its id deletes
it alone. -/

/-- The row of a session that is bound to a pane. -/
def SessionRow.bound (row : SessionRow) (name paneId : String) : SessionRow :=
  { row with tmuxSession := some name, tmuxPaneId := some paneId }

section Table

variable {w : CreateWorld} {agentType : AgentType} {workingDir name : String} {db db₁ : Db}

theorem newSession_id : (Mutate.newSession agentType workingDir name w.toAmbient).id = w.freshId :=
  rfl

theorem isNew_newSession :
    (Mutate.newSession agentType workingDir name w.toAmbient).IsNew w.toAmbient :=
  ⟨rfl, rfl, rfl, rfl, rfl, rfl, rfl⟩

/-- The row goes in exactly when its identifier is free: it has no pane yet. -/
theorem exists_insert_iff :
    (∃ db₁, db.insertSession (Mutate.newSession agentType workingDir name w.toAmbient) = .ok db₁) ↔
      db.row? w.freshId = none := by
  rw [exists_insertSession_iff isNew_newSession, Db.row?, KeyedTable.find?_eq_none, Db.Taken]
  constructor
  · intro h row hrow hid
    exact h ⟨row, hrow, Or.inl hid⟩
  · rintro h ⟨row, hrow, hid | ⟨hpane, -⟩⟩
    · exact h row hrow hid
    · cases hpane

/-- A deletion takes the row back exactly when it is carried out. -/
theorem rows_deleteRow_iff {row : SessionRow} {t : SessionTable}
    (ht : db.sessions.insert? row = some t)
    {id : Uuid} (hid : row.id = id.toText) :
    (w.deleteRow { db with sessions := t } id).sessions.rows = db.sessions.rows ↔
      w.sqlite .delete = none := by
  obtain ⟨hfree, hrows⟩ := KeyedTable.insert?_eq_some.mp ht
  unfold CreateWorld.deleteRow
  cases hdelete : w.sqlite .delete with
  | some e =>
    refine iff_of_false (fun heq => ?_) nofun
    change t.rows = db.sessions.rows at heq
    rw [hrows] at heq
    simpa using congrArg List.length heq
  | none =>
    refine iff_of_true ?_ rfl
    show t.rows.filter _ = db.sessions.rows
    rw [hrows, List.filter_append, List.filter_eq_self.mpr, List.filter_singleton]
    · simp [hid]
    · intro other hother
      rw [decide_eq_true_eq, ← hid]
      exact fun heq => hfree other hother (Or.inl heq.symm)

/-- Binding the new row to a pane runs into the index exactly when a row has the pane. -/
theorem updateTmux_inserted {row : SessionRow} {t : SessionTable}
    (ht : db.sessions.insert? row = some t) {id : Uuid} (hid : row.id = id.toText) (paneId : String) :
    Db.updateTmux { db with sessions := t } id (some name) (some paneId) =
      match db.sessions.insert? (row.bound name paneId) with
      | none => .error (.sqlite .constraintViolation)
      | some u => .ok { db with sessions := u } := by
  have hfind : Db.row? { db with sessions := t } id = some row := by
    rw [Db.row?, ← hid]
    exact KeyedTable.find?_insert?_self ht
  have hmodify : (t.modify? id.toText fun r =>
      { r with tmuxSession := some name, tmuxPaneId := some paneId }) =
        db.sessions.insert? (row.bound name paneId) := by
    rw [← hid]
    exact KeyedTable.modify?_of_insert? ht rfl
  cases hbound : db.sessions.insert? (row.bound name paneId) with
  | none => simp only [Db.updateTmux, hfind, hmodify, hbound]
  | some u => simp only [Db.updateTmux, hfind, hmodify, hbound]

theorem insert?_bound_eq_none_iff {row : SessionRow} {t : SessionTable}
    (ht : db.sessions.insert? row = some t) (paneId : String) :
    db.sessions.insert? (row.bound name paneId) = none ↔
      ∃ other ∈ db.sessions.rows, other.pane = some (name, paneId) := by
  obtain ⟨hfree, -⟩ := KeyedTable.insert?_eq_some.mp ht
  rw [KeyedTable.insert?_eq_none]
  constructor
  · rintro ⟨other, hother, hid | ⟨-, hpane⟩⟩
    · exact absurd (Or.inl hid) (hfree other hother)
    · exact ⟨other, hother, hpane.symm⟩
  · rintro ⟨other, hother, hpane⟩
    exact ⟨other, hother, Or.inr ⟨rfl, hpane.symm⟩⟩

end Table

/-! ### Stage by stage

For each stage, what the call comes to from there. The stages are then put together by the case
analysis of the source, and in each case the condition is seen to be what decides. -/

section Stages

variable (resolve : TmuxServer → String → Option String) {w : CreateWorld} {st : Stores}
  {agentType : AgentType} {workingDir name : String} {displayName : Option String}
  {row : SessionRow} {t : SessionTable}

/-- The call has inserted its row. -/
structure Inserted (w : CreateWorld) (st : Stores) (agentType : AgentType) (workingDir : String)
    (displayName : Option String) (name : String) (row : SessionRow) (t : SessionTable) : Prop where
  named : displayName.getD "session" = name
  valid : ValidName name
  statement : w.sqlite .insert = none
  encodes : sessionToRow (Mutate.newSession agentType workingDir name w.toAmbient) = .ok row
  inserts : st.db.sessions.insert? row = some t

namespace Inserted

variable (h : Inserted w st agentType workingDir displayName name row t)

include h

theorem id : row.id = w.freshId.toText :=
  (sessionToRow_eq_ok h.encodes).id

theorem rows : t.rows = st.db.sessions.rows ++ [row] :=
  (KeyedTable.insert?_eq_some.mp h.inserts).2

theorem run_insert :
    w.run .insert (st.db.insertSession (Mutate.newSession agentType workingDir name w.toAmbient)) =
      .ok { st.db with sessions := t } := by
  rw [CreateWorld.run, h.statement]
  exact insertSession_eq_ok.mpr ⟨row, t, h.encodes, h.inserts, rfl⟩

/-- `new_session` fails. -/
theorem createSession_of_tmux {server : TmuxServer} {e : TmuxError}
    (hnew : newSession w st.server name = (server, .error e)) :
    createSession resolve w agentType workingDir displayName st =
      (⟨w.deleteRow { st.db with sessions := t } w.freshId, server⟩, .error (.tmux e)) := by
  unfold createSession
  simp only [h.named, show validateSessionName name = .ok () from h.valid, h.run_insert, hnew,
    newSession_id]

/-- `update_tmux` fails. -/
theorem createSession_of_updateTmux {server : TmuxServer} {paneId : String} {e : RepoError}
    (hnew : newSession w st.server name = (server, .ok paneId))
    (hupdate : w.run .updateTmux (Db.updateTmux { st.db with sessions := t } w.freshId (some name)
      (some paneId)) = .error e) :
    createSession resolve w agentType workingDir displayName st =
      (⟨w.deleteRow { st.db with sessions := t } w.freshId,
        server.obey resolve w.toAmbient (.killSession name)⟩, .error (.db e)) := by
  unfold createSession
  simp only [h.named, show validateSessionName name = .ok () from h.valid, h.run_insert, hnew,
    newSession_id, hupdate]

/-- The row is bound. -/
theorem createSession_of_bound {server : TmuxServer} {paneId : String} {db₂ : Db}
    (hnew : newSession w st.server name = (server, .ok paneId))
    (hupdate : w.run .updateTmux (Db.updateTmux { st.db with sessions := t } w.freshId (some name)
      (some paneId)) = .ok db₂) :
    (∃ e, createSession resolve w agentType workingDir displayName st = (⟨db₂, server⟩, .error e)) ∧
        (∀ s, w.run .get (db₂.getSession w.freshId) ≠ .ok (some s)) ∨
      ∃ s, w.run .get (db₂.getSession w.freshId) = .ok (some s) ∧
        createSession resolve w agentType workingDir displayName st =
          (⟨db₂, server⟩, .ok { s with tmuxSession := some name, tmuxPaneId := some paneId }) := by
  unfold createSession
  simp only [h.named, show validateSessionName name = .ok () from h.valid, h.run_insert, hnew,
    newSession_id, hupdate]
  cases w.run .get (db₂.getSession w.freshId) with
  | error e => exact Or.inl ⟨⟨_, rfl⟩, fun _ => nofun⟩
  | ok found =>
    cases found with
    | none => exact Or.inl ⟨⟨_, rfl⟩, fun _ => nofun⟩
    | some s => exact Or.inr ⟨s, rfl, rfl⟩

omit h in
/-- A row that stays makes an error more than nothing. -/
theorem rows_ne {u : SessionTable} {row' : SessionRow} (hu : u.rows = st.db.sessions.rows ++ [row']) :
    u.rows ≠ st.db.sessions.rows := by
  intro heq
  rw [hu] at heq
  simpa using congrArg List.length heq

/-- When tmux makes no session, all depends on the deletion of the row. -/
theorem allOrNothing_of_refuses (hrefuses : Refuses w st name) :
    AllOrNothing st (createSession resolve w agentType workingDir displayName st) ↔
      w.sqlite .delete = none := by
  obtain ⟨e, hnew⟩ := newSession_of_refuses h.valid hrefuses
  rw [h.createSession_of_tmux resolve hnew, AllOrNothing, rows_deleteRow_iff h.inserts h.id]
  exact and_iff_left rfl

/-- A session whose pane is not found stays on the server. -/
theorem not_allOrNothing_of_unlisted {e : TmuxError} (hrefuses : ¬Refuses w st name)
    (hnew : newSession w st.server name = (w.withSession st.server name, .error e)) :
    ¬AllOrNothing st (createSession resolve w agentType workingDir displayName st) := by
  rw [h.createSession_of_tmux resolve hnew]
  exact fun hsame => sessionNames_withSession_ne (not_or.mp hrefuses).2 hsame.2

/-- When the row cannot be bound, all depends on the two compensations. -/
theorem allOrNothing_of_bindingFails {paneId : String} (hrefuses : ¬Refuses w st name)
    (hnew : newSession w st.server name = (w.withSession st.server name, .ok paneId))
    (hbinding : BindingFails w st name paneId) :
    AllOrNothing st (createSession resolve w agentType workingDir displayName st) ↔
      w.sqlite .delete = none ∧ w.tmux (.killSession name) = true ∧
        resolve (w.withSession st.server name) name = some (storedName name) := by
  have hupdate : ∃ e, w.run .updateTmux (Db.updateTmux { st.db with sessions := t } w.freshId
      (some name) (some paneId)) = .error e := by
    unfold CreateWorld.run
    cases hfails : w.sqlite .updateTmux with
    | some e => exact ⟨_, rfl⟩
    | none =>
      have htaken := hbinding.resolve_left fun hsome => by rw [hfails] at hsome; cases hsome
      refine ⟨.sqlite .constraintViolation, ?_⟩
      simp only [updateTmux_inserted h.inserts h.id,
        (insert?_bound_eq_none_iff h.inserts paneId).mpr htaken]
  obtain ⟨e, hupdate⟩ := hupdate
  rw [h.createSession_of_updateTmux resolve hnew hupdate, AllOrNothing,
    rows_deleteRow_iff h.inserts h.id, sessionNames_killed_iff (not_or.mp hrefuses).2]

/-- The reload reads the bound row. -/
theorem reload_iff {u : SessionTable} {paneId : String} {s : Session}
    (hu : st.db.sessions.insert? (row.bound name paneId) = some u) :
    w.run .get (Db.getSession { st.db with sessions := u } w.freshId) = .ok (some s) ↔
      w.sqlite .get = none ∧ rowToSession (row.bound name paneId) = .ok s := by
  have hfind : Db.row? { st.db with sessions := u } w.freshId = some (row.bound name paneId) := by
    rw [Db.row?, ← h.id]
    exact KeyedTable.find?_insert?_self hu
  unfold CreateWorld.run
  cases w.sqlite .get with
  | some e => exact iff_of_false nofun nofun
  | none => simp only [getSession_eq_some, hfind, Option.some.injEq, exists_eq_left', true_and]

/-- The bound row decodes when the clock shows a year of four digits. -/
theorem exists_reload_iff {u : SessionTable} {paneId : String}
    (hu : st.db.sessions.insert? (row.bound name paneId) = some u) :
    (∃ s, w.run .get (Db.getSession { st.db with sessions := u } w.freshId) = .ok (some s)) ↔
      w.sqlite .get = none ∧ w.rowNow.FourDigitYear := by
  have hrow := (sessionToRow_eq_ok h.encodes).decodes_iff
  have hdecodes : (row.bound name paneId).Decodes ↔ w.rowNow.FourDigitYear := by
    constructor
    · exact fun hbound => (hrow.mp { hbound with }).1
    · exact fun hyear => { hrow.mpr ⟨hyear, nofun, nofun⟩ with }
  simp only [h.reload_iff hu, exists_and_left]
  rw [exists_rowToSession_iff, hdecodes]

/-- When it can be bound, nothing is undone any more. -/
theorem allOrNothing_of_not_bindingFails {paneId : String} (hrefuses : ¬Refuses w st name)
    (hnew : newSession w st.server name = (w.withSession st.server name, .ok paneId))
    (hbinding : ¬BindingFails w st name paneId) :
    AllOrNothing st (createSession resolve w agentType workingDir displayName st) ↔
      w.sqlite .get = none ∧ w.rowNow.FourDigitYear ∧ storedName name = name ∧
        paneId = (w.newPane name).paneId := by
  rw [BindingFails, not_or, Option.not_isSome_iff_eq_none,
    ← insert?_bound_eq_none_iff h.inserts paneId, ← ne_eq, Option.ne_none_iff_exists'] at hbinding
  obtain ⟨hstatement, u, hu⟩ := hbinding
  have hupdate : w.run .updateTmux (Db.updateTmux { st.db with sessions := t } w.freshId (some name)
      (some paneId)) = .ok { st.db with sessions := u } := by
    rw [CreateWorld.run, hstatement, updateTmux_inserted h.inserts h.id, hu]
  have hrows : u.rows = st.db.sessions.rows ++ [row.bound name paneId] :=
    (KeyedTable.insert?_eq_some.mp hu).2
  have hfree := (not_or.mp hrefuses).2
  rw [← and_assoc, ← h.exists_reload_iff hu]
  rcases h.createSession_of_bound resolve hnew hupdate with ⟨⟨e, hresult⟩, hnone⟩ | ⟨s, hs, hresult⟩
  · rw [hresult]
    refine iff_of_false (fun hsame => rows_ne hrows hsame.1) ?_
    rintro ⟨⟨s, hs⟩, -⟩
    exact hnone s hs
  · rw [hresult, and_iff_right ⟨s, hs⟩]
    constructor
    · rintro ⟨row', p, hrows', -, hp, hnew, hnames, hpane⟩
      obtain rfl : row.bound name paneId = row' := by simpa [hrows] using hrows'
      obtain ⟨hname, hid⟩ := Prod.mk.inj (Option.some.inj hpane)
      have hstored : storedName name ∈ insert p.session st.server.sessionNames := by
        rw [← hnames, sessionNames_withSession]
        exact Set.mem_insert _ _
      have hsession : storedName name = p.session := hstored.resolve_right hfree
      exact ⟨hsession.trans hname.symm, hid.trans (congrArg Pane.paneId
        (eq_newPane hfree hp hsession.symm))⟩
    · rintro ⟨hstored, rfl⟩
      refine ⟨row.bound name _, w.newPane name, hrows, ?_, mem_withSession.mpr (Or.inl rfl), hfree,
        sessionNames_withSession, ?_⟩
      · -- the two fields that are set again are those of the row
        obtain ⟨-, hread⟩ := (h.reload_iff hu).mp hs
        have hsession : s.tmuxSession = some name := (rowToSession_ok hread).2.tmuxSession
        have hpane : s.tmuxPaneId = some (w.newPane name).paneId :=
          (rowToSession_ok hread).2.tmuxPaneId
        rw [hread, ← hsession, ← hpane]
      · show some (name, _) = some (storedName name, _)
        rw [hstored]

/-- Once the row is in the table, all depends on what tmux does and on what is made up for. -/
theorem allOrNothing_iff_of_inserted :
    AllOrNothing st (createSession resolve w agentType workingDir displayName st) ↔
      (Refuses w st name → w.sqlite .delete = none) ∧
      (¬Refuses w st name → w.listPanesFails = none ∧
        ∃ paneId, (w.withSession st.server name).firstPane name = some paneId ∧
          (BindingFails w st name paneId → w.sqlite .delete = none ∧
            w.tmux (.killSession name) = true ∧
            resolve (w.withSession st.server name) name = some (storedName name)) ∧
          (¬BindingFails w st name paneId → w.sqlite .get = none ∧ w.rowNow.FourDigitYear ∧
            storedName name = name ∧ paneId = (w.newPane name).paneId)) := by
  by_cases hrefuses : Refuses w st name
  · rw [h.allOrNothing_of_refuses resolve hrefuses]
    exact ⟨fun hdelete => ⟨fun _ => hdelete, fun hnot => absurd hrefuses hnot⟩,
      fun hcovered => hcovered.1 hrefuses⟩
  · rw [and_iff_right fun hyes => absurd hyes hrefuses, forall_prop_of_true hrefuses]
    obtain ⟨answer, hnew, hanswer⟩ := newSession_of_not_refuses h.valid hrefuses
    cases answer with
    | error e =>
      refine iff_of_false (h.not_allOrNothing_of_unlisted resolve hrefuses hnew) ?_
      rintro ⟨hlist, paneId, hfirst, -⟩
      cases (hanswer paneId).mpr ⟨hlist, hfirst⟩
    | ok paneId =>
      obtain ⟨hlist, hfirst⟩ := (hanswer paneId).mp rfl
      simp only [hlist, hfirst, Option.some.injEq, exists_eq_left', true_and]
      by_cases hbinding : BindingFails w st name paneId
      · rw [h.allOrNothing_of_bindingFails resolve hrefuses hnew hbinding,
          and_iff_left fun hnot => absurd hbinding hnot, forall_prop_of_true hbinding]
      · rw [h.allOrNothing_of_not_bindingFails resolve hrefuses hnew hbinding,
          and_iff_right fun hyes => absurd hyes hbinding, forall_prop_of_true hbinding]

end Inserted

end Stages

/-- A call that inserts no row does nothing. -/
theorem createSession_of_not_inserts (resolve : TmuxServer → String → Option String)
    {w : CreateWorld} {agentType : AgentType} {workingDir : String} {displayName : Option String}
    {st : Stores} (h : ¬(ValidName (displayName.getD "session") ∧ Inserts w st)) :
    ∃ e, createSession resolve w agentType workingDir displayName st = (st, .error e) := by
  unfold createSession
  cases hvalid : validateSessionName (displayName.getD "session") with
  | error e => exact ⟨.invalidName (displayName.getD "session"), by simp only [hvalid]⟩
  | ok _ =>
    have hinserts : ¬Inserts w st := fun hyes => h ⟨hvalid, hyes⟩
    have hins : ∃ e, w.run .insert (st.db.insertSession (Mutate.newSession agentType workingDir
        (displayName.getD "session") w.toAmbient)) = .error e := by
      unfold CreateWorld.run
      cases hstatement : w.sqlite .insert with
      | some e => exact ⟨_, rfl⟩
      | none =>
        cases hins : st.db.insertSession (Mutate.newSession agentType workingDir
            (displayName.getD "session") w.toAmbient) with
        | error e => exact ⟨e, rfl⟩
        | ok db₁ => exact absurd ⟨hstatement, exists_insert_iff.mp ⟨db₁, hins⟩⟩ hinserts
    obtain ⟨e, hins⟩ := hins
    exact ⟨.db e, by simp only [hvalid, hins]⟩

/-- **`create_session` is all or nothing exactly when whatever fails is made up for.** The
surroundings say of each statement and of each call of tmux whether it fails, and how tmux takes the
name of a target is a parameter. The condition reads only the two stores as they were and what the
surroundings will answer. -/
theorem allOrNothing_iff (resolve : TmuxServer → String → Option String) (w : CreateWorld)
    (agentType : AgentType) (workingDir : String) (displayName : Option String) (st : Stores) :
    AllOrNothing st (createSession resolve w agentType workingDir displayName st) ↔
      Covered resolve w st (displayName.getD "session") := by
  by_cases hstarts : ValidName (displayName.getD "session") ∧ Inserts w st
  · obtain ⟨hvalid, hstatement, hfree⟩ := id hstarts
    obtain ⟨db₁, hins⟩ : ∃ db₁, st.db.insertSession (Mutate.newSession agentType workingDir
        (displayName.getD "session") w.toAmbient) = .ok db₁ := exists_insert_iff.mpr hfree
    obtain ⟨row, t, hrow, ht, -⟩ := insertSession_eq_ok.mp hins
    have h : Inserted w st agentType workingDir displayName _ row t :=
      ⟨rfl, hvalid, hstatement, hrow, ht⟩
    rw [Covered, forall_prop_of_true hstarts.1, forall_prop_of_true hstarts.2]
    exact h.allOrNothing_iff_of_inserted resolve
  · obtain ⟨e, hresult⟩ : ∃ e, createSession resolve w agentType workingDir displayName st =
        (st, .error e) := createSession_of_not_inserts resolve hstarts
    rw [hresult]
    exact iff_of_true ⟨rfl, rfl⟩ fun hvalid hinserts => absurd ⟨hvalid, hinserts⟩ hstarts

/-- A world in which nothing fails. -/
def calmWorld : CreateWorld :=
  { Ambient.noon (.ofTimeLow 1) 2026 with
    sqlite := fun _ => none
    newSessionFails := none
    listPanesFails := none
    paneNumber := 1
    panePath := "/home/u/proj"
    position := 0 }

/-- The creation of a session named `my.proj`, with nothing there yet. -/
def dottedCreation : Stores × Except CreateError Session :=
  createSession TmuxServer.exactly calmWorld .opencode "/home/u/proj" (some "my.proj") ⟨Db.fresh, []⟩

set_option maxRecDepth 2000 in
/-- It fails, and leaves a tmux session behind that has the name tmux made of it. -/
theorem not_allOrNothing_dotted :
    ¬∀ w agentType workingDir displayName st,
      AllOrNothing st (createSession TmuxServer.exactly w agentType workingDir displayName st) := by
  intro h
  have hfailed : dottedCreation.2.toOption.isNone := by decide
  have hleft : "my_proj" ∈ dottedCreation.1.server.sessionNames := by decide
  have hcall : AllOrNothing ⟨Db.fresh, []⟩ dottedCreation := h _ _ _ _ _
  generalize dottedCreation = result at hfailed hleft hcall
  obtain ⟨st', answer⟩ := result
  cases answer with
  | ok s => cases hfailed
  | error e =>
    obtain ⟨-, hnames⟩ := hcall
    obtain ⟨p, hp, -⟩ : "my_proj" ∈ TmuxServer.sessionNames [] := hnames ▸ hleft
    cases hp

end Agentd
