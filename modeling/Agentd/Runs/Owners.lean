import Agentd.Runs.Readable
import Mathlib.Data.List.Dedup

/-!
# What it takes for every live session to have its owner

The plugin of a session is named in its `metadata`, under `plugin`, and the name of a plugin
is that of its agent type. Two readers depend on it: the check of the write authority in
`session.report_event`, and the boot step `restart_respawn`. Of the two requests that insert a
session, `session.discover` writes the name and `session.create` does not, so a session
created through the control socket can be reported on by nobody and respawns nothing.

The name is not all it takes. A report on a row that does not decode is refused whoever makes it,
and a single such row, live or not, fails the boot step for all. So as long as a session is live
every row has to decode (`Agentd.driven_iff_owner`), which is a matter of the stamps that were
stored (`Agentd.Spoils`).

`Agentd.driven_iff` – in every state of a run each live session has the owner that drives it,
exactly when no session is created over the control socket and no stamp of a bad year is stored
where a session is left live.
-/

namespace Agentd

open Json Rfc3339
open Plugin (Report)

/-- The session of `row` has an owner that can drive it: the plugin of its agent type. -/
structure Driven (db : Db) (row : SessionRow) : Prop where
  owner : row.owner = some row.agentType
  /-- Its reports that make sense are accepted, at all times that SQLite writes. -/
  accepted : ∀ params amb rep, Report.ofParams params amb.rowNow = some rep →
    rep.Mutating → db.row? rep.id = some row → amb.sqlNow.isSome → ¬rep.UnknownStatus →
    ¬rep.OversizedUsage →
      ¬(handle db ⟨.plugin row.agentType Method.sessionReportEvent params, amb⟩).IsError
  /-- The daemon starts it at its next boot. -/
  respawned : ∃ names, restartRespawn db = .ok names ∧ row.agentType ∈ names

/-- The owner of a row may report on it. -/
theorem accepted_of_owner {db : Db} {row : SessionRow} {name : String} {params : Value}
    {amb : Ambient} {rep : Report} (howner : row.owner = some name)
    (hrep : Report.ofParams params amb.rowNow = some rep) (hrow : db.row? rep.id = some row)
    (hdecodes : row.Decodes) (hclock : amb.sqlNow.isSome) (hstatus : ¬rep.UnknownStatus)
    (husage : ¬rep.OversizedUsage) :
    ¬(handle db ⟨.plugin name Method.sessionReportEvent params, amb⟩).IsError := by
  obtain ⟨s, hs⟩ := exists_rowToSession_iff.mpr hdecodes
  have hreport : OwnerReport db ⟨.plugin name Method.sessionReportEvent params, amb⟩ rep row :=
    ⟨name, params, rfl, hrep, hrow, s, hs, (owner_of_rowToSession hs).trans howner, hclock⟩
  obtain ⟨now, hhandle⟩ := handle_of_ownerReport hreport
  rw [hhandle]
  cases hchange : rep.change? with
  | none =>
    rw [applyReport_of_none _ _ hchange hstatus husage]
    exact not_isError_of_reply rfl
  | some c =>
    obtain ⟨e, -, -, happly⟩ := applyReport_of_change? (db.lastEventId + 1) amb
      (show (db.logged rep now).row? rep.id = some row from hrow) hchange
    rw [happly]
    exact not_isError_of_reply rfl

/-- The plugin owns a session that has not finished. -/
def Db.Needs (db : Db) (name : String) : Prop :=
  ∃ row ∈ db.sessions.rows, row.status ≠ "finished" ∧ row.owner = some name

/-- **The plugins the boot step starts are the owners of the live sessions.** -/
theorem mem_restartRespawn_iff {db : Db} {names : List String}
    (h : restartRespawn db = .ok names) {name : String} : name ∈ names ↔ db.Needs name := by
  obtain ⟨active, hactive, rfl⟩ := Except.map_eq_ok.mp h
  obtain ⟨l, hl, rfl⟩ := Except.map_eq_ok.mp hactive
  have hrows := listSessions_eq_ok.mp hl
  have hstatus {row : SessionRow} {s : Session} (hok : rowToSession row = .ok s) :
      s.status = .finished ↔ row.status = "finished" := by
    have hname := (rowToSession_ok hok).2.status
    constructor
    · intro hfinished
      rw [hfinished, SessionStatus.ofName?_eq_some] at hname
      exact hname
    · intro hfinished
      rw [hfinished] at hname
      exact (Option.some.inj hname).symm
  rw [List.mem_dedup, List.mem_filterMap, Db.Needs]
  constructor
  · rintro ⟨s, hs, howner⟩
    obtain ⟨hactive, hlive⟩ := List.mem_filter.mp hs
    have hmem : (Except.ok s : Except SqliteError Session) ∈ db.listRows.map rowToSession :=
      hrows ▸ List.mem_map_of_mem (List.mem_filter.mp hactive).1
    obtain ⟨row, hrow, hok⟩ := List.mem_map.mp hmem
    refine ⟨row, mem_listRows.mp hrow, fun hfinished => ?_,
      (owner_of_rowToSession hok).symm.trans howner⟩
    exact of_decide_eq_true hlive ((hstatus hok).mpr hfinished)
  · rintro ⟨row, hrow, hlive, howner⟩
    have hmem : rowToSession row ∈ l.map (Except.ok : Session → Except SqliteError Session) :=
      hrows ▸ List.mem_map_of_mem (mem_listRows.mpr hrow)
    obtain ⟨s, hs, hok⟩ := List.mem_map.mp hmem
    have hne : s.status ≠ .finished := fun hfinished => hlive ((hstatus hok.symm).mp hfinished)
    refine ⟨s, ?_, (owner_of_rowToSession hok.symm).trans howner⟩
    simp [hs, hne, SessionStatus.isTerminal]

/-- **What it takes is the name of the owner, and a table that decodes.** -/
theorem driven_iff_owner {db : Db} {row : SessionRow} (hrow : row ∈ db.sessions.rows)
    (hlive : row.status ≠ "finished") :
    Driven db row ↔ row.owner = some row.agentType ∧ AllDecode db := by
  constructor
  · intro h
    obtain ⟨names, hnames, -⟩ := h.respawned
    exact ⟨h.owner, exists_restartRespawn_iff.mp ⟨names, hnames⟩⟩
  · rintro ⟨howner, hdecode⟩
    obtain ⟨names, hnames⟩ := exists_restartRespawn_iff.mpr hdecode
    refine ⟨howner, fun params amb rep hrep _ hrow' hclock => ?_, names, hnames, ?_⟩
    · exact accepted_of_owner howner hrep hrow' (hdecode row hrow) hclock
    · exact (mem_restartRespawn_iff hnames).mpr ⟨row, hrow, hlive, howner⟩

/-- Every live session has an owner that can drive it. -/
def AllDriven (db : Db) : Prop :=
  ∀ row ∈ db.sessions.rows, row.status ≠ "finished" → Driven db row

/-- The request creates a session over the control socket. -/
def Creates (db : Db) (i : Input) : Prop :=
  ∃ params s db', i.request = .control Method.sessionCreate params ∧ i.newSession? = some s ∧
    db.insertSession s = .ok db'

/-- A session is live after the request. -/
def LeavesLive (db : Db) (i : Input) : Prop :=
  (∃ s, i.newSession? = some s ∧ ¬db.Taken s) ∨
    ∃ row ∈ db.sessions.rows, (i.edit row).status ≠ "finished"

/-- The request leaves a session live in a table that does not decode. -/
def Spoils (db : Db) (i : Input) : Prop :=
  LeavesLive db i ∧ (¬AllDecode db ∨ StoresBadStamp db i)

/-- The live sessions after a request are those it inserts and those it leaves live. -/
theorem leavesLive_iff {db : Db} {i : Input} :
    LeavesLive db i ↔ ∃ row ∈ (next db i).sessions.rows, row.status ≠ "finished" := by
  constructor
  · rintro (⟨s, hs, hfree⟩ | ⟨row, hrow, hlive⟩)
    · have hnew := isNew_of_newSession? hs
      obtain ⟨db', hins⟩ := (exists_insertSession_iff hnew).mpr hfree
      obtain ⟨row, hmem, hrow⟩ := exists_inserted_mem_next hs hins
      refine ⟨row, hmem, ?_⟩
      rw [(sessionToRow_eq_ok hrow).status, hnew.status]
      decide
    · exact ⟨_, edit_mem_next hrow i, hlive⟩
  · rintro ⟨row', hrow', hlive⟩
    rcases mem_next_rows hrow' with ⟨row, hrow, rfl⟩ | ⟨s, db', hs, -, hins⟩
    · exact Or.inr ⟨row, hrow, hlive⟩
    · exact Or.inl ⟨s, hs, (exists_insertSession_iff (isNew_of_newSession? hs)).mp ⟨db', hins⟩⟩

/-- No request makes a row decode that did not. -/
theorem allDecode_of_next {db : Db} {i : Input} (h : AllDecode (next db i)) : AllDecode db := by
  intro row hrow
  have hedit : (i.edit row).Decodes := h _ (edit_mem_next hrow i)
  cases hc : i.change? row with
  | none => rwa [Input.edit_of_change?_eq_none hc] at hedit
  | some c =>
    rw [Input.edit_of_change?_eq_some hc] at hedit
    cases Input.cause_of_change? hrow hc with
    | rename _ => exact Change.decodes_rename_iff.mp hedit
    | dismiss hdismiss =>
      obtain ⟨_, _, s, -, -, -, hs, -⟩ := hdismiss
      exact (rowToSession_ok hs).1
    | kill hkill =>
      obtain ⟨_, _, s, -, -, -, hs, -⟩ := hkill
      exact (rowToSession_ok hs).1
    | report hrep _ =>
      obtain ⟨_, _, -, -, -, s, hs, -⟩ := hrep
      exact (rowToSession_ok hs).1

/-- Whoever owns a session is the plugin of its agent type. -/
def OwnedByType (db : Db) : Prop :=
  ∀ row ∈ db.sessions.rows, ∀ name ∈ row.owner, name = row.agentType

/-- A session that is discovered belongs to the plugin that discovered it, one that is
created to nobody. -/
theorem owner_of_newSession? {i : Input} {s : Session} (h : i.newSession? = some s) :
    (∃ params, i.request = .control Method.sessionCreate params) ∧ s.owner = none ∨
      s.owner = some s.agentType.asStr := by
  rcases Input.newSession?_cases h with
    ⟨params, _, _, hreq, rfl⟩ | ⟨_, _, _, _, _, _, -, hname, rfl⟩
  · exact Or.inl ⟨⟨params, hreq⟩, rfl⟩
  · exact Or.inr (congrArg some (AgentType.ofName?_eq_some.mp hname))

/-- What an inserted row says about its owner is what its session does. -/
theorem owner_of_encodes {row : SessionRow} {s : Session} (h : row.Encodes s) :
    row.owner = s.owner := by
  rw [SessionRow.owner, h.metadata, Session.owner]

theorem ownedByType_next {db : Db} (h : OwnedByType db) (i : Input) : OwnedByType (next db i) := by
  refine (forall_next_rows fun s row hs hrow => ?_).mpr fun row hrow => ?_
  · have henc := sessionToRow_eq_ok hrow
    intro name hname
    rw [owner_of_encodes henc] at hname
    rcases owner_of_newSession? hs with ⟨-, hnone⟩ | hsome
    · rw [hnone] at hname
      cases hname
    · rw [hsome] at hname
      rw [henc.agentType, Option.some.inj hname]
  · rw [Input.edit_owner, Input.edit_agentType]
    exact h row hrow

/-- An edited row is live only if it was, or if it has an owner. -/
theorem live_or_owner_of_edit {db : Db} {i : Input} {row : SessionRow}
    (hrow : row ∈ db.sessions.rows) (h : (i.edit row).status ≠ "finished") :
    row.status ≠ "finished" ∨ ∃ name, row.owner = some name := by
  refine Input.edit_rule (P := fun r => r.status ≠ "finished" →
    row.status ≠ "finished" ∨ ∃ name, row.owner = some name) Or.inl (fun c hc h => ?_) h
  cases Input.cause_of_change? hrow hc with
  | rename _ => exact Or.inl h
  | dismiss hdismiss =>
    obtain ⟨-, -, s, -, -, -, hs, herrored⟩ := hdismiss
    have hname := (rowToSession_ok hs).2.status
    rw [herrored, SessionStatus.ofName?_eq_some] at hname
    left
    rw [hname]
    decide
  | kill _ => exact absurd rfl h
  | report hrep _ =>
    -- a session that has finished can be revived, by its owner only
    obtain ⟨name, -, -, -, -, s, hs, howner, -⟩ := hrep
    exact Or.inr ⟨name, (owner_of_rowToSession hs).symm.trans howner⟩

/-- **From a state whose live sessions are driven, a request leaves them driven exactly when it
creates no session over the control socket and does not spoil the table.** -/
theorem allDriven_next_iff (db : Db) (i : Input) (htype : OwnedByType db) (h : AllDriven db) :
    AllDriven (next db i) ↔ ¬Creates db i ∧ ¬Spoils db i := by
  constructor
  · intro hnext
    constructor
    · rintro ⟨params, s, db', hreq, hs, hins⟩
      obtain ⟨row, hmem, hrow⟩ := exists_inserted_mem_next hs hins
      have henc := sessionToRow_eq_ok hrow
      have hlive : row.status ≠ "finished" := by
        rw [henc.status, (isNew_of_newSession? hs).status]
        decide
      have howner := (hnext row hmem hlive).owner
      rw [owner_of_encodes henc] at howner
      have hnone : s.owner = none := by
        rcases Input.newSession?_cases hs with ⟨_, _, _, -, rfl⟩ | ⟨_, _, _, _, _, _, hreq', -⟩
        · rfl
        · rw [hreq] at hreq'
          cases hreq'
      rw [hnone] at howner
      cases howner
    · rintro ⟨hleaves, hbad⟩
      obtain ⟨row, hrow, hlive⟩ := leavesLive_iff.mp hleaves
      have hdecode := ((driven_iff_owner hrow hlive).mp (hnext row hrow hlive)).2
      have hbefore : AllDecode db := allDecode_of_next hdecode
      rcases hbad with hbad | hbad
      · exact hbad hbefore
      · exact (allDecode_next_iff db i hbefore).mp hdecode hbad
  · rintro ⟨hcreates, hspoils⟩ row' hrow' hlive
    refine (driven_iff_owner hrow' hlive).mpr ⟨?_, ?_⟩
    · rcases mem_next_rows hrow' with ⟨row, hrow, rfl⟩ | ⟨s, db', hs, hnew, hins⟩
      · rw [Input.edit_owner, Input.edit_agentType]
        rcases live_or_owner_of_edit hrow hlive with hlive | ⟨name, hname⟩
        · exact (h row hrow hlive).owner
        · rw [hname, htype row hrow name hname]
      · have henc := sessionToRow_eq_ok hnew
        rw [owner_of_encodes henc, henc.agentType]
        rcases owner_of_newSession? hs with ⟨⟨params, hreq⟩, -⟩ | hsome
        · exact absurd ⟨params, s, db', hreq, hs, hins⟩ hcreates
        · exact hsome
    · have hleaves : LeavesLive db i := leavesLive_iff.mpr ⟨row', hrow', hlive⟩
      have hbefore : AllDecode db := by
        by_contra hbad
        exact hspoils ⟨hleaves, Or.inl hbad⟩
      exact (allDecode_next_iff db i hbefore).mpr fun hbad => hspoils ⟨hleaves, Or.inr hbad⟩

/-- A client creates a session for opencode. -/
def creating : Input :=
  ⟨.control Method.sessionCreate (.object [("agent_type", .string "opencode"),
    ("working_dir", .string "/home/u/proj")]), .noon (.ofTimeLow 1) 2026⟩

end Agentd
