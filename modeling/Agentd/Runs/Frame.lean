import Agentd.Handlers.Footprint
import Agentd.Handlers.Router

/-!
# What no request touches

Every `UPDATE` of the handlers names its columns, and none names the eight that say which session a
row is, where it runs and whose it is (`Agentd.SessionRow.SameSession`). `Agentd.bounded_footprint`
puts this together for all methods of both sockets: a request deletes no row, and inserts or changes
one at most. So over any run these columns stay as they were when the row was inserted.
-/

namespace Agentd

/-- The columns that are written once. -/
structure SessionRow.SameSession (r r' : SessionRow) : Prop where
  id : r'.id = r.id
  agentType : r'.agentType = r.agentType
  workingDir : r'.workingDir = r.workingDir
  tmuxSession : r'.tmuxSession = r.tmuxSession
  tmuxPaneId : r'.tmuxPaneId = r.tmuxPaneId
  source : r'.source = r.source
  createdAt : r'.createdAt = r.createdAt
  metadata : r'.metadata = r.metadata

namespace SessionRow.SameSession

variable {r r' r'' : SessionRow}

/-- A row that is not changed is of the same session. -/
theorem refl (r : SessionRow) : r.SameSession r :=
  ⟨rfl, rfl, rfl, rfl, rfl, rfl, rfl, rfl⟩

/-- A row that is changed twice is of the same session still. -/
theorem trans (h : r.SameSession r') (h' : r'.SameSession r'') : r.SameSession r'' :=
  ⟨h'.id.trans h.id, h'.agentType.trans h.agentType, h'.workingDir.trans h.workingDir,
    h'.tmuxSession.trans h.tmuxSession, h'.tmuxPaneId.trans h.tmuxPaneId,
    h'.source.trans h.source, h'.createdAt.trans h.createdAt, h'.metadata.trans h.metadata⟩

/-- The binding to a pane is among them. -/
theorem pane (h : r.SameSession r') : r'.pane = r.pane := by
  rw [SessionRow.pane, h.tmuxSession, h.tmuxPaneId, SessionRow.pane]

/-- So is the owner. -/
theorem owner (h : r.SameSession r') : r'.owner = r.owner := by
  rw [SessionRow.owner, h.metadata, SessionRow.owner]

end SessionRow.SameSession

/-- No change touches what says which session it is: its id, its type, its directory, its pane and
its owner. -/
theorem Change.sameSession_apply (c : Change) (r : SessionRow) : r.SameSession (c.apply r) := by
  cases c <;> exact ⟨rfl, rfl, rfl, rfl, rfl, rfl, rfl, rfl⟩

/-- Hence no request does. -/
theorem Input.sameSession_edit (i : Input) (r : SessionRow) : r.SameSession (i.edit r) := by
  exact edit_rule (P := r.SameSession) (.refl r) fun c _ => c.sameSession_apply r

namespace Db

/-- No row is deleted, and each is still about the same session. -/
def KeepsSessions (db db' : Db) : Prop :=
  ∀ row ∈ db.sessions.rows, ∃ row' ∈ db'.sessions.rows, row.SameSession row'

/-- One row at most is new or changed. -/
def TouchesOne (db db' : Db) : Prop :=
  ∀ row ∈ db'.sessions.rows, ∀ row' ∈ db'.sessions.rows,
    row ∉ db.sessions.rows → row' ∉ db.sessions.rows → row = row'

/-- Nothing is lost where nothing is done. -/
theorem KeepsSessions.refl (db : Db) : db.KeepsSessions db :=
  fun row hrow => ⟨row, hrow, .refl row⟩

/-- What is kept by two runs is kept by the one after the other. -/
theorem KeepsSessions.trans {db db' db'' : Db} (h : db.KeepsSessions db')
    (h' : db'.KeepsSessions db'') : db.KeepsSessions db'' := by
  intro row hrow
  obtain ⟨row', hrow', hsame⟩ := h row hrow
  obtain ⟨row'', hrow'', hsame'⟩ := h' row' hrow'
  exact ⟨row'', hrow'', hsame.trans hsame'⟩

/-- The row that is still there is the one with the same identifier. -/
theorem KeepsSessions.of_id {db db' : Db} (h : db.KeepsSessions db') {row row' : SessionRow}
    (hrow : row ∈ db.sessions.rows) (hrow' : row' ∈ db'.sessions.rows) (hid : row'.id = row.id) :
    row.SameSession row' := by
  obtain ⟨kept, hkept, hsame⟩ := h row hrow
  obtain rfl : row' = kept := db'.sessions.eq_of_key_eq hrow' hkept (hid.trans hsame.id.symm)
  exact hsame

end Db

/-- **No request deletes a row.** -/
theorem keepsSessions_next (db : Db) (i : Input) : db.KeepsSessions (next db i) :=
  fun row hrow => ⟨i.edit row, edit_mem_next hrow i, i.sameSession_edit row⟩

/-- A row that is changed is the one the request names. -/
theorem Input.target?_of_edit_ne {i : Input} {row : SessionRow} (h : i.edit row ≠ row) :
    i.target?.map Uuid.toText = some row.id := by
  by_contra hne
  refine h (edit_of_change?_eq_none ?_)
  rw [change?, if_neg hne]

/-- **A request changes one row at most**, that of the session it names. -/
theorem touchesOne_next (db : Db) (i : Input) : db.TouchesOne (next db i) := by
  intro row hrow row' hrow' hnew hnew'
  rcases next_rows db i with ⟨-, hrows⟩ | ⟨s, inserted, -, -, hins⟩
  · rw [hrows] at hrow hrow'
    obtain ⟨old, hold, rfl⟩ := List.mem_map.mp hrow
    obtain ⟨old', hold', rfl⟩ := List.mem_map.mp hrow'
    have htarget := Input.target?_of_edit_ne fun heq => hnew (heq.symm ▸ hold)
    have htarget' := Input.target?_of_edit_ne fun heq => hnew' (heq.symm ▸ hold')
    obtain rfl : old = old' :=
      db.sessions.eq_of_key_eq hold hold' (Option.some.inj (htarget.symm.trans htarget'))
    rfl
  · rw [(KeyedTable.insert?_eq_some.mp hins).2, List.mem_append, List.mem_singleton] at hrow hrow'
    exact (hrow.resolve_left hnew).trans (hrow'.resolve_left hnew').symm

/-- **A request keeps every session and touches one row at most, and over any run what is written
once stays.** The pane of a session and the plugin that owns it are such columns; no request of
either router changes them, and none deletes a row. Only a boot deletes rows, and it is no request.
-/
theorem bounded_footprint (db : Db) :
    (∀ i, db.KeepsSessions (served db i) ∧ db.TouchesOne (served db i)) ∧
      ∀ l, db.KeepsSessions (Machine.run served db l) ∧
        ∀ row ∈ db.sessions.rows, ∀ row' ∈ (Machine.run served db l).sessions.rows,
          row'.id = row.id → row'.pane = row.pane ∧ row'.owner = row.owner := by
  rw [served_eq]
  refine ⟨fun i => ⟨keepsSessions_next db i, touchesOne_next db i⟩, fun l => ?_⟩
  have hrun : db.KeepsSessions (Machine.run next db l) :=
    Machine.run_invariant (fun _ i h => h.trans (keepsSessions_next _ i)) l db (.refl db)
  refine ⟨hrun, fun row hrow row' hrow' hid => ?_⟩
  have hsame := hrun.of_id hrow hrow' hid
  exact ⟨hsame.pane, hsame.owner⟩

end Agentd
