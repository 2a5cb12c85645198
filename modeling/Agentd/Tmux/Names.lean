import Agentd.Handlers.Footprint
import Agentd.Tmux.Model

/-!
# The names that reach tmux

Two methods of the control socket hand tmux a name, `session.jump` and `session.kill`, and they
take it from the row of a session. `validate_session_name` is the check that `tmux.rs` puts at
this trust boundary, but nobody applies it to a row: `session.discover` stores whatever name a
plugin sends, and the two readers pass on what is stored.

`Agentd.validTargets_iff` – in every state of a run all that `mutate::dispatch` can hand to tmux
passes the check, exactly when no request of the run stores a name that does not.

A row is never given another tmux session, so that the invariant is one about insertions.
`session.create` is not among the requests that matter, since it stores no such name at all.
-/

namespace Agentd

open Json Rfc3339

/-! ### What is handed to tmux

The name goes from the row to the session, and from there to the command line, and is not looked at
on the way. -/

/-- The name a call hands to tmux. -/
def TmuxCall.target : TmuxCall → String
  | switchClient target | killSession target => target

namespace Mutate

variable (params : Value) (db : Db) (amb : Ambient)

theorem tmuxCalls_sessionCreate : (sessionCreate params db amb).tmuxCalls = [] := by
  unfold sessionCreate
  split
  · rfl
  · split
    · rfl
    · dsimp only
      split <;> rfl

theorem tmuxCalls_sessionRename : (sessionRename params db amb).tmuxCalls = [] := by
  unfold sessionRename
  split
  · rfl
  · split
    · rfl
    · split
      · rfl
      · split <;> rfl

theorem tmuxCalls_sessionDismissError : (sessionDismissError params db amb).tmuxCalls = [] := by
  unfold sessionDismissError
  split
  · rfl
  · split_ifs
    · rfl
    · split <;> rfl

theorem dispatch_sessionJump :
    dispatch Method.sessionJump params db amb = sessionJump params db amb := by
  unfold dispatch
  rw [if_neg (by decide), if_neg (by decide), if_neg (by decide), if_pos rfl]

variable {params db amb} {call : TmuxCall}

/-- A requested session is that of a row that decodes. -/
theorem exists_row_of_requestedSession {id : Uuid} {s : Session} {name : String}
    (h : requestedSession params db = .ok (id, s)) (hname : s.tmuxSession = some name) :
    ∃ row ∈ db.sessions.rows, row.Decodes ∧ row.tmuxSession = some name := by
  obtain ⟨-, row, hrow, hs⟩ :=
    requestedSession_eq_ok params db (.noon (.ofTimeLow 0) 0) Method.sessionJump h
  obtain ⟨hdecodes, hto⟩ := rowToSession_ok hs
  exact ⟨row, (KeyedTable.find?_eq_some.mp hrow).1, hdecodes, hto.tmuxSession ▸ hname⟩

theorem exists_row_of_sessionJump (h : call ∈ (sessionJump params db amb).tmuxCalls) :
    ∃ row ∈ db.sessions.rows, row.Decodes ∧ row.tmuxSession = some call.target := by
  unfold sessionJump at h
  split at h
  · cases h
  · rename_i id s hreq
    split at h
    · cases h
    · rename_i name hname
      have hcall : call = .switchClient name := by
        dsimp only at h
        split_ifs at h
        · exact List.mem_singleton.mp h
        · exact List.mem_singleton.mp h
      rw [hcall]
      exact exists_row_of_requestedSession hreq hname

theorem exists_row_of_sessionKill (h : call ∈ (sessionKill params db amb).tmuxCalls) :
    ∃ row ∈ db.sessions.rows, row.Decodes ∧ row.tmuxSession = some call.target := by
  unfold sessionKill at h
  split at h
  · cases h
  · rename_i id s hreq
    split_ifs at h
    · cases h
    · have hcall : call ∈ (s.tmuxSession.map TmuxCall.killSession).toList := by
        split at h <;> exact h
      rw [Option.mem_toList, Option.map_eq_some_iff] at hcall
      obtain ⟨name, hname, rfl⟩ := hcall
      exact exists_row_of_requestedSession hreq hname

/-- **Every name handed to tmux is that of a stored row that decodes.** -/
theorem exists_row_of_dispatch {method : String}
    (h : call ∈ (dispatch method params db amb).tmuxCalls) :
    ∃ row ∈ db.sessions.rows, row.Decodes ∧ row.tmuxSession = some call.target := by
  unfold dispatch at h
  split_ifs at h
  · rw [tmuxCalls_sessionCreate] at h
    cases h
  · rw [tmuxCalls_sessionRename] at h
    cases h
  · rw [tmuxCalls_sessionDismissError] at h
    cases h
  · exact exists_row_of_sessionJump h
  · exact exists_row_of_sessionKill h
  · cases h
  · cases h

end Mutate

/-- The parameters of a request that names a session. -/
def idParams (id : Uuid) : Value :=
  .object [("id", .string id.toText)]

/-- A jump hands tmux the name stored in the row. -/
theorem switchClient_mem_dispatch {db : Db} {id : Uuid} {row : SessionRow} {name : String}
    (hrow : db.row? id = some row) (hdecodes : row.Decodes) (hname : row.tmuxSession = some name)
    (amb : Ambient) :
    .switchClient name ∈ (Mutate.dispatch Method.sessionJump (idParams id) db amb).tmuxCalls := by
  obtain ⟨s, hs⟩ := exists_rowToSession_iff.mpr hdecodes
  have hreq : Mutate.requestedSession (idParams id) db = .ok (id, s) := by
    have hid : (idParams id).getStr "id" = some id.toText := rfl
    unfold Mutate.requestedSession
    simp only [hid, Uuid.parseStr_toText, getSession_eq_some.mpr ⟨row, hrow, hs⟩]
  have hs' : s.tmuxSession = some name := (rowToSession_ok hs).2.tmuxSession.trans hname
  rw [Mutate.dispatch_sessionJump]
  unfold Mutate.sessionJump
  simp only [hreq, hs']
  split_ifs
  · exact List.mem_singleton_self _
  · exact List.mem_singleton_self _

/-! ### Over a run

A name is stored when a session is inserted, and never changed. So the condition is on insertions,
and an insertion counts when its row can be read back, as otherwise no request comes to its name. -/

/-- All that a control request can hand to tmux passes the check. -/
def ValidTargets (db : Db) : Prop :=
  ∀ method params amb, ∀ call ∈ (Mutate.dispatch method params db amb).tmuxCalls,
    ValidName call.target

/-- Every stored name passes the check, if its row can be read. -/
def ValidNames (db : Db) : Prop :=
  ∀ row ∈ db.sessions.rows, row.Decodes → ∀ name, row.tmuxSession = some name → ValidName name

/-- **What is handed to tmux passes the check exactly when what is stored does.** -/
theorem validTargets_iff_validNames {db : Db} (hdb : db.CanonicalIds) :
    ValidTargets db ↔ ValidNames db := by
  constructor
  · intro h row hrow hdecodes name hname
    obtain ⟨id, hid⟩ := hdb row hrow
    have hfind : db.row? id = some row := KeyedTable.find?_eq_some.mpr ⟨hrow, hid⟩
    exact h Method.sessionJump (idParams id) (.noon id 2026) _
      (switchClient_mem_dispatch hfind hdecodes hname _)
  · intro h method params amb call hcall
    obtain ⟨row, hrow, hdecodes, hname⟩ := Mutate.exists_row_of_dispatch hcall
    exact h row hrow hdecodes _ hname

/-- The request inserts a session whose name for tmux does not pass the check, and whose row can
be read back. -/
def Taints (db : Db) (i : Input) : Prop :=
  ∃ s db' name, i.newSession? = some s ∧ db.insertSession s = .ok db' ∧
    s.tmuxSession = some name ∧ ¬ValidName name ∧ s.createdAt.FourDigitYear

/-- A new session can be read back when the clock shows a year of four digits. -/
theorem decodes_new_iff {i : Input} {s : Session} {row : SessionRow}
    (hs : i.newSession? = some s) (hrow : sessionToRow s = .ok row) :
    row.Decodes ↔ s.createdAt.FourDigitYear := by
  have hnew := isNew_of_newSession? hs
  rw [(sessionToRow_eq_ok hrow).decodes_iff, hnew.lastEventAt, hnew.finishedAt]
  exact ⟨And.left, fun h => ⟨h, nofun, nofun⟩⟩

/-- A row that decodes after a request did before. -/
theorem decodes_of_edit {db : Db} {i : Input} {row : SessionRow} (hrow : row ∈ db.sessions.rows)
    (h : (i.edit row).Decodes) : row.Decodes := by
  refine Input.edit_rule (P := fun r => r.Decodes → row.Decodes) id (fun c hc h => ?_) h
  -- but for a rename, the handler has read the row before it changes it
  cases Input.cause_of_change? hrow hc with
  | rename _ => exact Change.decodes_rename_iff.mp h
  | dismiss hdismiss =>
    obtain ⟨_, _, s, -, -, -, hs, -⟩ := hdismiss
    exact exists_rowToSession_iff.mp ⟨s, hs⟩
  | kill hkill =>
    obtain ⟨_, _, s, -, -, -, hs, -⟩ := hkill
    exact exists_rowToSession_iff.mp ⟨s, hs⟩
  | report hrep _ =>
    obtain ⟨_, _, -, -, -, s, hs, -⟩ := hrep
    exact exists_rowToSession_iff.mp ⟨s, hs⟩

/-- **From a state whose names pass the check, a request leaves such a state exactly when it
taints none.** -/
theorem validNames_next_iff (db : Db) (i : Input) (h : ValidNames db) :
    ValidNames (next db i) ↔ ¬Taints db i := by
  constructor
  · rintro hnext ⟨s, db', name, hs, hins, hname, hinvalid, hyear⟩
    obtain ⟨row, hmem, hrow⟩ := exists_inserted_mem_next hs hins
    have hdecodes := (decodes_new_iff hs hrow).mpr hyear
    exact hinvalid (hnext row hmem hdecodes name ((tmuxSession_of_sessionToRow hrow).trans hname))
  · intro htaints row' hrow' hdecodes name hname
    rcases mem_next_rows hrow' with ⟨row, hrow, rfl⟩ | ⟨s, db', hs, hnew, hins⟩
    · rw [Input.edit_tmuxSession] at hname
      exact h row hrow (decodes_of_edit hrow hdecodes) name hname
    · by_contra hinvalid
      rw [tmuxSession_of_sessionToRow hnew] at hname
      exact htaints ⟨s, db', name, hs, hins, hname, hinvalid, (decodes_new_iff hs hnew).mp hdecodes⟩

/-- **In every state of a run all that a control request can hand to tmux passes the check,
exactly when no request of the run stores a name that does not.** -/
theorem validTargets_iff (l : List Input) :
    Machine.Throughout next ValidTargets Db.fresh l ↔
      Machine.Along next (fun db i => ¬Taints db i) Db.fresh l := by
  refine Machine.throughout_iff_along_of_invariant (I := Db.CanonicalIds)
    (fun _ i h => canonicalIds_next h i) (fun db i hids h => ?_) l Db.fresh
    (fun _ hrow => absurd hrow List.not_mem_nil) fun _ _ _ _ hcall => ?_
  · rw [validTargets_iff_validNames hids] at h
    rw [validTargets_iff_validNames (canonicalIds_next hids i)]
    exact validNames_next_iff db i h
  · obtain ⟨_, hrow, -⟩ := Mutate.exists_row_of_dispatch hcall
    exact absurd hrow List.not_mem_nil

/-- A plugin discovers a pane in a tmux session whose name is a target of its own. -/
def taintingDiscover : Input :=
  ⟨.discover "opencode" "=main:0.1; kill-server" "%1" "/home/u/proj", .noon (.ofTimeLow 1) 2026⟩

set_option maxRecDepth 2000 in
/-- A jump hands tmux a name that a plugin made up. -/
theorem invalid_target_reachable : ¬∀ db, Reachable db → ValidTargets db := by
  intro h
  have hcall : TmuxCall.switchClient "=main:0.1; kill-server" ∈ (Mutate.dispatch Method.sessionJump
      (idParams (.ofTimeLow 1)) (next Db.fresh taintingDiscover)
      (.noon (.ofTimeLow 2) 2026)).tmuxCalls := by decide
  have hvalid := h _ (Machine.reachable_run Db.fresh [taintingDiscover]) _ _ _ _ hcall
  exact absurd hvalid (by decide)

end Agentd
