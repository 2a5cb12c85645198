import Agentd.Handlers.Footprint

/-!
# When a pane can be tracked

A plugin registers a pane with `session.discover`, which inserts a session bound to the
pane. The unique index over bindings has no regard to the status of a row, and no
statement clears a binding, so a pane that was tracked once is taken for good:
`Agentd.discovers_iff` says that a well-formed discover of a pane succeeds exactly when
no row at all is bound to it – although watchers discover every newly appeared pane, also
in a place where a session has ended.
-/

namespace Agentd

open Json

/-- The parameters of a well-formed `session.discover`. -/
structure DiscoverParams (params : Value) (tmuxSession tmuxPaneId workingDir : String) : Prop where
  tmuxSession : params.getStr "tmux_session" = some tmuxSession
  tmuxPaneId : params.getStr "tmux_pane_id" = some tmuxPaneId
  workingDir : params.getStr "working_dir" = some workingDir

theorem wellFormed_discoverParams (tmuxSession tmuxPaneId workingDir : String) :
    DiscoverParams (discoverParams tmuxSession tmuxPaneId workingDir) tmuxSession tmuxPaneId
      workingDir :=
  ⟨rfl, rfl, rfl⟩

/-- The request inserts a session that has not finished, bound to the pane and owned
by the plugin, and answers with its identifier. -/
def Discovers (db : Db) (i : Input) (plugin tmuxSession tmuxPaneId : String) : Prop :=
  ∃ id row, (handle db i).reply =
      .ok (.object [("ok", .bool true), ("session_id", .string id.toText)]) ∧
    db.row? id = none ∧ (next db i).row? id = some row ∧ row.status ≠ "finished" ∧
    row.pane = some (tmuxSession, tmuxPaneId) ∧ row.owner = some plugin

section Discover

variable {db : Db} {plugin tmuxSession tmuxPaneId workingDir : String} {params : Value}
  {agentType : AgentType} (amb : Ambient)

/-- A well-formed discover inserts the discovered session, or fails. -/
theorem handle_discover (hagent : AgentType.ofName? plugin = some agentType)
    (hparams : DiscoverParams params tmuxSession tmuxPaneId workingDir) :
    handle db ⟨.plugin plugin Method.sessionDiscover params, amb⟩ =
      match db.insertSession (Plugin.discoveredSession agentType tmuxSession tmuxPaneId workingDir
        plugin amb) with
      | .error _ => refuse db .internalError
      | .ok db' =>
        { db := db'
          reply := .ok (.object [("ok", .bool true), ("session_id", .string amb.freshId.toText)])
          events := [⟨"session.discovered", some amb.freshId,
            (Plugin.discoveredSession agentType tmuxSession tmuxPaneId workingDir plugin
              amb).toValue, amb.busNow⟩] } := by
  show Plugin.sessionDiscover params db plugin amb = _
  unfold Plugin.sessionDiscover
  simp only [hparams.tmuxSession, hparams.tmuxPaneId, hparams.workingDir, hagent]
  rfl

/-- The discovered session is one of those that requests insert. -/
theorem isNew_discoveredSession :
    (Plugin.discoveredSession agentType tmuxSession tmuxPaneId workingDir plugin amb).IsNew amb :=
  ⟨rfl, rfl, rfl, rfl, rfl, rfl, rfl⟩

/-- The pane or the identifier of a discovered session is taken when a row has it. -/
theorem taken_discoveredSession_iff :
    db.Taken (Plugin.discoveredSession agentType tmuxSession tmuxPaneId workingDir plugin amb) ↔
      db.row? amb.freshId ≠ none ∨
        ∃ row ∈ db.sessions.rows, row.pane = some (tmuxSession, tmuxPaneId) := by
  have hrow : db.row? amb.freshId = none ↔ ∀ row ∈ db.sessions.rows, row.id ≠ amb.freshId.toText :=
    KeyedTable.find?_eq_none
  rw [ne_eq, hrow, not_forall₂]
  simp only [not_not]
  constructor
  · rintro ⟨row, hmem, hid | ⟨-, hpane⟩⟩
    · exact Or.inl ⟨row, hmem, hid⟩
    · exact Or.inr ⟨row, hmem, hpane⟩
  · rintro (⟨row, hmem, hid⟩ | ⟨row, hmem, hpane⟩)
    · exact ⟨row, hmem, Or.inl hid⟩
    · exact ⟨row, hmem, Or.inr ⟨rfl, hpane⟩⟩

/-- **A well-formed discover by a known plugin succeeds exactly when no row, of
whatever status, is bound to the pane**, and the fresh identifier is not stored. In a
state where no session that is not finished is bound to the pane, this is what stands
between a pane and its being tracked again. -/
theorem discovers_iff (hagent : AgentType.ofName? plugin = some agentType)
    (hparams : DiscoverParams params tmuxSession tmuxPaneId workingDir) :
    Discovers db ⟨.plugin plugin Method.sessionDiscover params, amb⟩ plugin tmuxSession
        tmuxPaneId ↔
      (∀ row ∈ db.sessions.rows, row.pane ≠ some (tmuxSession, tmuxPaneId)) ∧
        db.row? amb.freshId = none := by
  have hfree : (∀ row ∈ db.sessions.rows, row.pane ≠ some (tmuxSession, tmuxPaneId)) ∧
      db.row? amb.freshId = none ↔ ¬db.Taken (Plugin.discoveredSession agentType tmuxSession
        tmuxPaneId workingDir plugin amb) := by
    rw [taken_discoveredSession_iff, not_or, not_not, and_comm]
    simp only [not_exists, not_and, ne_eq]
  rw [hfree, ← exists_insertSession_iff (isNew_discoveredSession amb)]
  unfold Discovers next
  rw [handle_discover amb hagent hparams]
  constructor
  · rintro ⟨id, row, hreply, -⟩
    cases hins : db.insertSession (Plugin.discoveredSession agentType tmuxSession tmuxPaneId
        workingDir plugin amb) with
    | ok db' => exact ⟨db', rfl⟩
    | error e =>
      rw [hins] at hreply
      cases hreply
  · rintro ⟨db', hins⟩
    rw [hins]
    obtain ⟨row, t, hrow, ht, rfl⟩ := insertSession_eq_ok.mp hins
    have henc := sessionToRow_eq_ok hrow
    refine ⟨amb.freshId, row, rfl, ?_, ?_, ?_, henc.pane, ?_⟩
    · -- a stored identifier would have stopped the insertion
      by_contra hne
      exact ((exists_insertSession_iff (isNew_discoveredSession amb)).mp ⟨_, hins⟩)
        ((taken_discoveredSession_iff amb).mpr (Or.inl hne))
    · have hfind := KeyedTable.find?_insert?_self ht
      rw [henc.id] at hfind
      exact hfind
    · have hstarting : SessionStatus.starting.toText ≠ "finished" := by decide
      rw [henc.status]
      exact hstarting
    · rw [SessionRow.owner, henc.metadata]
      rfl

end Discover

/-- In a fresh database opencode can discover a pane. -/
theorem discovers_fresh :
    Discovers Db.fresh ⟨.discover "opencode" "main" "%1" "/home/u/proj",
      .noon (.ofTimeLow 1) 2026⟩ "opencode" "main" "%1" := by
  have hagent : AgentType.ofName? "opencode" = some .opencode := rfl
  refine (discovers_iff _ hagent (wellFormed_discoverParams "main" "%1" "/home/u/proj")).mpr
    ⟨fun _ hrow => absurd hrow List.not_mem_nil, rfl⟩

/-- The session of a pane, which finishes. -/
def finishedPane : List Input :=
  let id := Uuid.ofTimeLow 1
  [⟨.discover "opencode" "main" "%1" "/home/u/proj", .noon id 2026⟩,
   ⟨.report "opencode" id "session.finished" .null, .noon id 2026⟩]

/-- The discover of that pane afterwards. -/
def rediscovery : Input :=
  ⟨.discover "opencode" "main" "%1" "/home/u/proj", .noon (.ofTimeLow 2) 2026⟩

set_option maxRecDepth 2000 in
/-- A pane cannot be tracked again after its session has finished. -/
theorem not_rediscovered :
    ¬∀ db, Reachable db → ∀ tmuxSession tmuxPaneId,
      (∀ row ∈ db.sessions.rows, row.pane = some (tmuxSession, tmuxPaneId) →
        row.status = "finished") →
      ∀ plugin agentType, AgentType.ofName? plugin = some agentType →
      ∀ params workingDir, DiscoverParams params tmuxSession tmuxPaneId workingDir →
      ∀ amb, db.row? amb.freshId = none →
        Discovers db ⟨.plugin plugin Method.sessionDiscover params, amb⟩ plugin tmuxSession
          tmuxPaneId := by
  intro h
  have hended : ∀ row ∈ (Machine.run next Db.fresh finishedPane).sessions.rows,
      row.pane = some ("main", "%1") → row.status = "finished" := by decide
  have hrefused : (handle (Machine.run next Db.fresh finishedPane) rediscovery).IsError := by
    decide
  have hunused : ((Machine.run next Db.fresh finishedPane).row? rediscovery.amb.freshId).isNone := by
    decide
  obtain ⟨e, he⟩ := hrefused
  obtain ⟨id, row, hreply, -⟩ := h (Machine.run next Db.fresh finishedPane)
    (Machine.reachable_run Db.fresh finishedPane) "main" "%1" hended "opencode" .opencode rfl
    (discoverParams "main" "%1" "/home/u/proj") "/home/u/proj" (wellFormed_discoverParams _ _ _)
    rediscovery.amb (Option.isNone_iff_eq_none.mp hunused)
  have heq : Except.error e = Except.ok _ := he.symm.trans hreply
  cases heq

end Agentd
