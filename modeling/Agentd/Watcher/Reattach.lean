import Agentd.Handlers.Footprint
import Agentd.Watcher.Model

/-!
# The watcher against the daemon

After a restart the boot step spawns the plugins that own a live session, counting on a
plugin's own scan to pick its sessions up. The scan cannot: it knows a pane only by the
answer to a `session.discover`, which names a session inserted just now, and the pane of a
session is taken. `Agentd.Watcher.not_reattached` says that no session stored before the watcher
started is ever in its map, whatever tmux lists and whatever else is asked of the
daemon in between.

The map starts empty, and what comes into it is what a discovery was answered with. A discovery
inserts a row, which an id that is taken does not allow; so no answer names a session that was there
before. That is an invariant of the world and the map together, and holds under any requests of
others.
-/

namespace Agentd.Watcher

open Json

/-- What happens around the calls of a watcher: what the world supplies to each, and the
requests of others that come before it. -/
structure Surroundings where
  amb : ℕ → Ambient
  foreign : ℕ → List Input
  chronoNow : ℕ → String

/-- The daemon as a watcher finds it: its database, and how many calls were made. -/
structure World where
  db : Db
  calls : ℕ

/-- The daemon, as a client of the plugin opencode reaches it. -/
def daemon (env : Surroundings) : Client World where
  call w method params :=
    -- what others ask comes before the call, never in the middle of it
    let db := Machine.run next w.db (env.foreign w.calls)
    let o := handle db ⟨.plugin "opencode" method params, env.amb w.calls⟩
    (⟨o.db, w.calls + 1⟩, o.reply.toOption)
  chronoNow w := env.chronoNow w.calls

/-- **A watcher that starts against `db` has the session of `row` under the key of its
pane**, after some ticks. -/
def Reattached (env : Surroundings) (db : Db) (row : SessionRow) (panes : List OpencodePane)
    (ticks : List Tick) : Prop :=
  ∃ tmuxSession tmuxPaneId id status, row.pane = some (tmuxSession, tmuxPaneId) ∧
    (run (daemon env) panes ⟨db, 0⟩ ticks).2.lookup (paneKeyFrom tmuxSession tmuxPaneId) =
      some (id, status) ∧
    row.id = id.toText

/-- A row with the key `id` is stored. -/
def Stored (id : String) (db : Db) : Prop :=
  ∃ row ∈ db.sessions.rows, row.id = id

theorem stored_next {id : String} {db : Db} (h : Stored id db) (i : Input) :
    Stored id (next db i) := by
  obtain ⟨row, hrow, hid⟩ := h
  exact ⟨i.edit row, edit_mem_next hrow i, (i.edit_id row).trans hid⟩

theorem stored_run {id : String} {db : Db} (h : Stored id db) (l : List Input) :
    Stored id (Machine.run next db l) :=
  Machine.run_invariant (P := Stored id) (fun _ i h => stored_next h i) l db h

/-- A session that was inserted was not stored before. -/
theorem not_stored_of_insertSession {db db' : Db} {s : Session} {amb : Ambient}
    (hs : s.IsNew amb) (h : db.insertSession s = .ok db') : ¬Stored s.id.toText db := by
  rintro ⟨row, hrow, hid⟩
  exact (exists_insertSession_iff hs).mp ⟨db', h⟩ ⟨row, hrow, Or.inl hid⟩

theorem sessionIdOf_answer (id : Uuid) :
    sessionIdOf (.object [("ok", .bool true), ("session_id", .string id.toText)]) = some id :=
  Uuid.parseStr_toText id

/-- An answer to `session.discover` names a session that was not stored. -/
theorem not_stored_of_discover {db : Db} {name : String} {params v : Value} {amb : Ambient}
    {id : Uuid}
    (hv : (handle db ⟨.plugin name Method.sessionDiscover params, amb⟩).reply.toOption = some v)
    (hid : sessionIdOf v = some id) : ¬Stored id.toText db := by
  change (Plugin.sessionDiscover params db name amb).reply.toOption = some v at hv
  have hrefuse (e : ProtocolError) : ¬(refuse db e).reply.toOption = some v := nofun
  unfold Plugin.sessionDiscover at hv
  split at hv
  · exact absurd hv (hrefuse _)
  · split at hv
    · exact absurd hv (hrefuse _)
    · split at hv
      · exact absurd hv (hrefuse _)
      · split at hv
        · exact absurd hv (hrefuse _)
        · rename_i agentType _
          dsimp only at hv
          split at hv
          · exact absurd hv (hrefuse _)
          · rename_i db' hins
            -- the answer carries the identifier of the session inserted
            rw [Except.toOption, Option.some.injEq] at hv
            rw [← hv, sessionIdOf_answer, Option.some.injEq] at hid
            rw [← hid]
            exact not_stored_of_insertSession ⟨rfl, rfl, rfl, rfl, rfl, rfl, rfl⟩ hins

/-- The map of a watcher never has a session that was stored before it started. -/
theorem lookup_run_daemon {env : Surroundings} {db : Db} {old : String} (h : Stored old db)
    {panes : List OpencodePane} {ticks : List Tick} {key : String} {state : PaneState}
    (hkey : (run (daemon env) panes ⟨db, 0⟩ ticks).2.lookup key = some state) :
    state.1.toText ≠ old := by
  have hcall (w : World) (method : String) (params : Value) (hw : Stored old w.db) :
      Stored old ((daemon env).call w method params).1.db :=
    stored_next (stored_run hw _) _
  have hdiscover (w : World) (s p d : String) (v : Value) (id : Uuid) (hw : Stored old w.db)
      (hv : ((daemon env).discover w s p d).2 = some v) (hid : sessionIdOf v = some id) :
      id.toText ≠ old := by
    -- what was stored at the start still is, so it cannot be new
    rintro rfl
    exact not_stored_of_discover hv hid (stored_run hw _)
  have hholds : Holds (fun w => Stored old w.db) (fun id => id.toText ≠ old)
      (run (daemon env) panes ⟨db, 0⟩ ticks) := holds_run hcall hdiscover h panes ticks
  exact hholds.2 key state hkey

/-- **No session stored before the watcher started is ever reattached**, whatever tmux lists, in
whatever order the watcher looks, and whatever else is asked of the daemon. The watcher asks for a
discovery of every pane it does not know, and for a pane that a stored row holds the daemon refuses
to insert another. -/
theorem not_reattached (env : Surroundings) (db : Db) (row : SessionRow)
    (hrow : row ∈ db.sessions.rows) (panes : List OpencodePane) (ticks : List Tick) :
    ¬Reattached env db row panes ticks := by
  rintro ⟨tmuxSession, tmuxPaneId, id, status, -, hlookup, hid⟩
  exact lookup_run_daemon ⟨row, hrow, rfl⟩ hlookup hid.symm

/-- The daemon after opencode registered its pane. -/
def attachedDb : Db :=
  next Db.fresh ⟨.discover "opencode" "main" "%1" "/home/u/proj", .noon (.ofTimeLow 1) 2026⟩

/-- Nothing else happens around the calls of the restarted watcher. -/
def quiet : Surroundings where
  amb n := .noon (.ofTimeLow (n + 2)) 2026
  foreign _ := []
  chronoNow _ := "2026-01-01T00:00:00Z"

/-- The pane as the scan at the start finds it. -/
def foundPane : OpencodePane := ⟨"main", "%1", 4242, "/home/u/proj"⟩

/-- The pane as tmux lists it later. -/
def listedPane : RawPane := ⟨"main", "%1", 4242, "/home/u/proj", "opencode"⟩

/-- A live session of opencode is stored for the pane. -/
theorem attachedDb_live : ∃ row ∈ attachedDb.sessions.rows, row.status ≠ "finished" ∧
    row.owner = some "opencode" ∧ row.pane = some (foundPane.tmuxSession, foundPane.paneId) := by
  decide

/-- A live session of opencode, whose pane is in the scan at the start and in every later
listing, is not reattached. -/
theorem not_reattached_quiet : ∃ row ∈ attachedDb.sessions.rows, row.status ≠ "finished" ∧
    row.owner = some "opencode" ∧ row.pane = some (foundPane.tmuxSession, foundPane.paneId) ∧
      ¬Reattached quiet attachedDb row [foundPane] [.paneCheck (some [listedPane])] := by
  obtain ⟨row, hrow, hstatus, howner, hpane⟩ := attachedDb_live
  exact ⟨row, hrow, hstatus, howner, hpane, not_reattached quiet attachedDb row hrow _ _⟩

/-- It is not so that live sessions are reattached after a restart, whatever the
surroundings. -/
theorem reattach_fails :
    ¬∀ (env : Surroundings) (db : Db), Reachable db → ∀ row ∈ db.sessions.rows,
      row.status ≠ "finished" → row.owner = some "opencode" →
      ∀ pane : OpencodePane, row.pane = some (pane.tmuxSession, pane.paneId) →
      ∀ panes, pane ∈ panes → ∀ n listing,
        (∃ raw ∈ listing, raw.session = pane.tmuxSession ∧ raw.paneId = pane.paneId ∧
          isOpencodeComm raw.paneCurrentCommand) →
        Reattached env db row panes (List.replicate n (.paneCheck (some listing))) := by
  intro h
  obtain ⟨row, hrow, hstatus, howner, hpane⟩ := attachedDb_live
  have hreachable : Reachable attachedDb := (Machine.Reachable.refl Db.fresh).tail _
  have hcommand : isOpencodeComm listedPane.paneCurrentCommand := by decide
  obtain ⟨s, p, id, status, -, hlookup, hid⟩ :=
    h quiet attachedDb hreachable row hrow hstatus howner foundPane hpane [foundPane]
      (List.mem_singleton_self _) 1 [listedPane]
      ⟨listedPane, List.mem_singleton_self _, rfl, rfl, hcommand⟩
  exact lookup_run_daemon ⟨row, hrow, rfl⟩ hlookup hid.symm

end Agentd.Watcher
