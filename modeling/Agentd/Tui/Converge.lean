import Agentd.Handlers.Read
import Agentd.Tui.Sync

/-!
# Subscribing before the snapshot

A dashboard subscribes, takes a snapshot some time later, and applies all events since it
subscribed, those the snapshot already contains included. `Agentd.converges`: it ends with
the live sessions of the database, each with the name, the status and the task of its row,
if no change of status was accepted for a session that had already finished.

For one session this is `Agentd.live_replay`. What is added here is that a snapshot shows
each session as its row (`Agentd.cell_fromSnapshot`), and that what is live on the screen and
in the database can be read off session by session, as no identifier occurs twice and all
are written as the daemon writes them.
-/

namespace Agentd

open Json
open Plugin (Report)

/-! ### What is live

A dashboard and a table are compared by what is live in them: the ids with their names, statuses and
tasks. They are the same when they are in each single cell, which is what the edits are about. -/

/-- The sessions on the screen that have not finished, with what is shown of them. -/
def TuiState.liveViews (st : TuiState) : Set (String × View) :=
  {p | ∃ s ∈ st.sessions, s.status ≠ .finished ∧ p = (s.id.toText, s.view)}

/-- The sessions of the database that have not finished, with what would be shown. -/
def Db.liveViews (db : Db) : Set (String × View) :=
  {p | ∃ row ∈ db.sessions.rows, row.status ≠ "finished" ∧ p = (row.id, row.view)}

/-- A session on the screen is found under its identifier. -/
theorem TuiState.find?_of_mem {st : TuiState} (h : st.IdsNodup) {s : Session}
    (hs : s ∈ st.sessions) : (st.sessions.find? fun x => x.id = s.id) = some s := by
  cases hf : st.sessions.find? (fun x => x.id = s.id) with
  | none => simpa using List.find?_eq_none.mp hf s hs
  | some t =>
    have hid : t.id = s.id := by simpa using List.find?_some hf
    rw [List.inj_on_of_nodup_map h (List.mem_of_find?_eq_some hf) hs hid]

/-- The line of a session on the screen. -/
theorem TuiState.cell_of_mem {st : TuiState} (h : st.IdsNodup) {s : Session}
    (hs : s ∈ st.sessions) : st.cell s.id = some s.view := by
  rw [cell, find?_of_mem h hs, Option.map_some]

/-- What is live on a screen is live line by line. -/
theorem TuiState.mem_liveViews {st : TuiState} (h : st.IdsNodup) {id : Uuid} {v : View} :
    (id.toText, v) ∈ st.liveViews ↔ live (st.cell id) = some v := by
  constructor
  · rintro ⟨s, hs, hlive, hp⟩
    obtain ⟨hid, rfl⟩ := Prod.mk.inj hp
    obtain rfl := Uuid.toText_inj.mp hid
    rw [cell_of_mem h hs]
    exact live_some_of_live fun hfin => hlive (SessionStatus.toText_eq_finished.mp hfin)
  · intro h
    obtain ⟨s, hs, rfl⟩ := Option.map_eq_some_iff.mp (eq_some_of_live h)
    have hid : s.id = id := by simpa using List.find?_some hs
    refine ⟨s, List.mem_of_find?_eq_some hs, fun hfin => ?_, by rw [hid]⟩
    rw [cell, hs, Option.map_some, live_some_of_finished (by rw [Session.view, hfin]; rfl)] at h
    cases h

/-- What is live in the database is live row by row. -/
theorem Db.mem_liveViews {db : Db} {id : Uuid} {v : View} :
    (id.toText, v) ∈ db.liveViews ↔ live (db.cell id) = some v := by
  constructor
  · rintro ⟨row, hrow, hlive, hp⟩
    obtain ⟨hid, rfl⟩ := Prod.mk.inj hp
    have hfind : db.row? id = some row := KeyedTable.find?_eq_some.mpr ⟨hrow, hid.symm⟩
    rw [cell, hfind, Option.map_some]
    exact live_some_of_live hlive
  · intro h
    obtain ⟨row, hrow, rfl⟩ := Option.map_eq_some_iff.mp (eq_some_of_live h)
    obtain ⟨hmem, hid⟩ := KeyedTable.find?_eq_some.mp hrow
    refine ⟨row, hmem, fun hfin => ?_, by rw [hid]⟩
    rw [cell, hrow, Option.map_some, live_some_of_finished hfin] at h
    cases h

/-- Sets of pairs that begin with an identifier as it is printed are compared
identifier by identifier. -/
theorem eq_iff_of_ids {γ : Type} {A B : Set (String × γ)} (hA : ∀ p ∈ A, ∃ id : Uuid, p.1 = id.toText)
    (hB : ∀ p ∈ B, ∃ id : Uuid, p.1 = id.toText) :
    A = B ↔ ∀ (id : Uuid) (c : γ), (id.toText, c) ∈ A ↔ (id.toText, c) ∈ B := by
  constructor
  · rintro rfl id c
    rfl
  · intro h
    ext ⟨text, c⟩
    constructor
    · intro hp
      obtain ⟨id, rfl⟩ := hA _ hp
      exact (h id c).mp hp
    · intro hp
      obtain ⟨id, rfl⟩ := hB _ hp
      exact (h id c).mpr hp

/-- **Screen and database show the same live sessions exactly when they do session by
session.** -/
theorem liveViews_eq_iff {st : TuiState} {db : Db} (hst : st.IdsNodup) (hdb : db.CanonicalIds) :
    st.liveViews = db.liveViews ↔ ∀ id, live (st.cell id) = live (db.cell id) := by
  have hscreen : ∀ p ∈ st.liveViews, ∃ id : Uuid, p.1 = id.toText := by
    rintro _ ⟨s, -, -, rfl⟩
    exact ⟨s.id, rfl⟩
  have hrows : ∀ p ∈ db.liveViews, ∃ id : Uuid, p.1 = id.toText := by
    rintro _ ⟨row, hrow, -, rfl⟩
    exact hdb row hrow
  rw [eq_iff_of_ids hscreen hrows]
  simp only [TuiState.mem_liveViews hst, Db.mem_liveViews]
  exact forall_congr' fun id => ⟨fun h => Option.ext h, fun h v => by rw [h]⟩

/-! ### The snapshot

A snapshot has a line for every row, those of ended sessions included, and cannot be taken when some
row does not decode. Each line shows its row as it is. -/

/-- Rows that decode to one identifier are one row. -/
theorem eq_of_rowToSession_id {db : Db} (hdb : db.CanonicalIds) {r r' : SessionRow}
    (hr : r ∈ db.sessions.rows) (hr' : r' ∈ db.sessions.rows) {t t' : Session}
    (ht : rowToSession r = .ok t) (ht' : rowToSession r' = .ok t') (h : t.id = t'.id) : r = r' := by
  obtain ⟨id, hid⟩ := hdb r hr
  obtain ⟨id', hid'⟩ := hdb r' hr'
  have hparse := (rowToSession_ok ht).2.id
  have hparse' := (rowToSession_ok ht').2.id
  rw [hid, Uuid.parseStr_toText, Option.some.injEq] at hparse
  rw [hid', Uuid.parseStr_toText, Option.some.injEq] at hparse'
  refine db.sessions.eq_of_key_eq hr hr' ?_
  rw [hid, hid', hparse, hparse', h]

section Snapshot

variable {db : Db} {params snap : Value}
  (hsnap : Read.dispatch Method.stateSnapshot params db = some snap)
include hsnap

/-- The sessions of a snapshot are the rows, decoded. -/
theorem sessions_fromSnapshot :
    ∃ l : List Session, db.listRows.map rowToSession = l.map .ok ∧
      (TuiState.fromSnapshot snap).sessions = l.map Session.jsonable := by
  rw [Read.dispatch, if_pos rfl] at hsnap
  obtain ⟨st, hst, rfl⟩ := Option.map_eq_some_iff.mp hsnap
  rw [Except.toOption_eq_some] at hst
  obtain ⟨l, hl, rfl⟩ := Except.map_eq_ok.mp hst
  refine ⟨l, listSessions_eq_ok.mp hl, ?_⟩
  -- every session survives the way through the JSON of the snapshot
  show (l.map Session.toValue).filterMap Session.fromValue = _
  rw [List.filterMap_map, ← List.filterMap_eq_map]
  exact List.filterMap_congr fun s _ => s.fromValue_toValue

/-- A session is on a fresh screen exactly when a row decodes to it. -/
theorem mem_fromSnapshot {s : Session} :
    s ∈ (TuiState.fromSnapshot snap).sessions ↔
      ∃ row ∈ db.sessions.rows, ∃ t, rowToSession row = .ok t ∧ t.jsonable = s := by
  obtain ⟨l, hl, hsessions⟩ := sessions_fromSnapshot hsnap
  have hmem (t : Session) : t ∈ l ↔ ∃ row ∈ db.sessions.rows, rowToSession row = .ok t := by
    have hok : Function.Injective (Except.ok : Session → Except SqliteError Session) :=
      fun _ _ => Except.ok.inj
    rw [← List.mem_map_of_injective hok, ← hl, List.mem_map]
    simp only [mem_listRows]
  rw [hsessions, List.mem_map]
  constructor
  · rintro ⟨t, ht, rfl⟩
    obtain ⟨row, hrow, h⟩ := (hmem t).mp ht
    exact ⟨row, hrow, t, h, rfl⟩
  · rintro ⟨row, hrow, t, h, rfl⟩
    exact ⟨t, (hmem t).mpr ⟨row, hrow, h⟩, rfl⟩

/-- Every row is on a fresh screen. -/
theorem exists_mem_fromSnapshot {row : SessionRow} (hrow : row ∈ db.sessions.rows) :
    ∃ t, rowToSession row = .ok t ∧ t.jsonable ∈ (TuiState.fromSnapshot snap).sessions := by
  obtain ⟨l, hl, -⟩ := sessions_fromSnapshot hsnap
  have hmem : rowToSession row ∈ l.map (Except.ok : Session → Except SqliteError Session) :=
    hl ▸ List.mem_map_of_mem (mem_listRows.mpr hrow)
  obtain ⟨t, -, ht⟩ := List.mem_map.mp hmem
  exact ⟨t, ht.symm, (mem_fromSnapshot hsnap).mpr ⟨row, hrow, t, ht.symm, rfl⟩⟩

variable (hdb : db.CanonicalIds)
include hdb

/-- A snapshot shows no session twice. -/
theorem idsNodup_fromSnapshot : (TuiState.fromSnapshot snap).IdsNodup := by
  obtain ⟨l, hl, hsessions⟩ := sessions_fromSnapshot hsnap
  -- the identifiers are those of the rows, each decoded
  have hids : (l.map Session.id).map some =
      db.listRows.map fun r => (rowToSession r).toOption.map Session.id := by
    have h := congrArg (List.map fun x => x.toOption.map Session.id) hl
    rw [List.map_map, List.map_map] at h
    rw [List.map_map]
    exact h.symm
  have hrows : db.listRows.Nodup :=
    (List.perm_insertionSort _ _).nodup_iff.mpr (.of_map _ db.sessions.keys_nodup)
  unfold TuiState.IdsNodup
  rw [hsessions, List.map_map]
  refine List.Nodup.of_map some ?_
  show (((l.map Session.id).map some)).Nodup
  rw [hids]
  refine hrows.map_on fun r hr r' hr' h => ?_
  rw [mem_listRows] at hr hr'
  obtain ⟨t, ht, -⟩ := exists_mem_fromSnapshot hsnap hr
  obtain ⟨t', ht', -⟩ := exists_mem_fromSnapshot hsnap hr'
  rw [ht, ht'] at h
  exact eq_of_rowToSession_id hdb hr hr' ht ht' (Option.some.inj (show some t.id = some t'.id from h))

/-- **A snapshot shows each session as its row.** -/
theorem cell_fromSnapshot (id : Uuid) : (TuiState.fromSnapshot snap).cell id = db.cell id := by
  cases hrow : db.row? id with
  | some row =>
    obtain ⟨hmem, hid⟩ := KeyedTable.find?_eq_some.mp hrow
    obtain ⟨t, ht, hshown⟩ := exists_mem_fromSnapshot hsnap hmem
    have hto := (rowToSession_ok ht).2
    have hparse := hto.id
    rw [hid, Uuid.parseStr_toText, Option.some.injEq] at hparse
    have hcell := TuiState.cell_of_mem (idsNodup_fromSnapshot hsnap hdb) hshown
    have hview : t.view = row.view := by
      unfold Session.view SessionRow.view
      rw [hto.displayName, hto.currentTask, SessionStatus.ofName?_eq_some.mp hto.status]
    rw [Db.cell, hrow, Option.map_some, hparse, ← hview]
    exact hcell
  | none =>
    rw [Db.cell, hrow, Option.map_none, TuiState.cell, Option.map_eq_none_iff]
    refine List.find?_eq_none.mpr fun s hs hid => ?_
    obtain ⟨row, hmem, t, ht, rfl⟩ := (mem_fromSnapshot hsnap).mp hs
    obtain ⟨id', hid'⟩ := hdb row hmem
    have hparse := (rowToSession_ok ht).2.id
    rw [hid', Uuid.parseStr_toText, Option.some.injEq] at hparse
    have hsame : t.id = id := of_decide_eq_true hid
    exact KeyedTable.find?_eq_none.mp hrow row hmem (by rw [hid', hparse, hsame])

end Snapshot

/-! ### The dashboard

The events that the snapshot already contains are applied again. An edit that is done again changes
nothing, and one that was overtaken by another is overtaken again, so that the line ends as the row
is. Only a session that finished and was changed after that would differ, since its line is gone by
then. -/

/-- A change of status is accepted for a session that has already finished. -/
def ChangesFinished (db : Db) (i : Input) : Prop :=
  ∃ name params rep row, i.request = .plugin name Method.sessionReportEvent params ∧
    Report.ofParams params i.amb.rowNow = some rep ∧ rep.kind = "session.status_changed" ∧
    db.row? rep.id = some row ∧ row.status = "finished" ∧ ¬(handle db i).IsError

/-- A report that revives a session is accepted. -/
theorem changesFinished_of_revives {db : Db} {i : Input} (h : Revives db i) :
    ChangesFinished db i := by
  obtain ⟨rep, row, new, hrep, hstatus, hasks, -⟩ := h
  have hchange := Plugin.Report.change?_eq_status_iff.mpr ⟨hasks, rfl⟩
  obtain ⟨now, hhandle⟩ := handle_of_ownerReport hrep
  obtain ⟨e, -, -, happly⟩ := applyReport_of_change? (db.lastEventId + 1) i.amb
    (show (db.logged rep now).row? rep.id = some row from hrep.row?) hchange
  have hreply : ¬(handle db i).IsError := by
    rw [hhandle, happly]
    exact not_isError_of_reply rfl
  obtain ⟨name, params, hreq, hparams, hrow, -⟩ := hrep
  exact ⟨name, params, rep, row, hreq, hparams, hasks.1, hrow, hstatus, hreply⟩

/-- **Subscribe, then snapshot: the dashboard converges.** It subscribed at `d₀`, the
snapshot is from after `l₁`, and the events applied to it, each at some instant, are all those
emitted since `d₀`. -/
theorem converges {d₀ : Db} (h₀ : Reachable d₀) (l₁ l₂ : List Input)
    (hl : Machine.Along next (fun db i => ¬ChangesFinished db i) d₀ (l₁ ++ l₂))
    {params snap : Value}
    (hsnap : Read.dispatch Method.stateSnapshot params (Machine.run next d₀ l₁) = some snap)
    {events : List (Instant × Event)} (hevents : events.map Prod.snd = emitted d₀ (l₁ ++ l₂)) :
    ((TuiState.fromSnapshot snap).applyEvents events).liveViews =
      (Machine.run next d₀ (l₁ ++ l₂)).liveViews := by
  have hcanonical (l : List Input) : (Machine.run next d₀ l).CanonicalIds :=
    Machine.run_invariant (P := Db.CanonicalIds) (fun _ i hdb => canonicalIds_next hdb i) l d₀
      (canonicalIds_of_reachable h₀)
  have hnodup := idsNodup_fromSnapshot hsnap (hcanonical l₁)
  -- line by line: the events that the snapshot contains are the edits replayed
  refine (liveViews_eq_iff (TuiState.idsNodup_applyEvents events hnodup)
    (hcanonical _)).mpr fun id => ?_
  have hlive : Machine.Along next (fun db i => ¬Revives db i) d₀ (l₁ ++ l₂) :=
    hl.mono (fun _ _ hnot hrevives => hnot (changesFinished_of_revives hrevives)) _ _
  have hfit := fitting_emitted id _ hlive
  rw [TuiState.cell_applyEvents, hevents, cell_fromSnapshot hsnap (hcanonical l₁), cell_run,
    cell_run]
  rw [emitted_append, editsOf_append] at hfit ⊢
  exact live_replay hfit

/-- Where all are live, nothing that has finished is changed. -/
theorem not_changesFinished_of_live {db : Db} (h : ∀ row ∈ db.sessions.rows, row.status ≠ "finished")
    (i : Input) : ¬ChangesFinished db i := by
  rintro ⟨name, params, rep, row, -, -, -, hrow, hstatus, -⟩
  exact h row (KeyedTable.find?_eq_some.mp hrow).1 hstatus

/-- The snapshot a dashboard that is opened now gets. -/
def snapshotOf (db : Db) : Value :=
  (Read.dispatch Method.stateSnapshot .null db).getD .null

/-- A snapshot that is answered is that of the database. -/
theorem dispatch_snapshotOf {db : Db}
    (h : (Read.dispatch Method.stateSnapshot .null db).isSome) :
    Read.dispatch Method.stateSnapshot .null db = some (snapshotOf db) := by
  obtain ⟨snap, hsnap⟩ := Option.isSome_iff_exists.mp h
  rw [snapshotOf, hsnap, Option.getD_some]

/-- A session is discovered, and renamed twice. -/
def renamedRun : List Input :=
  let id := Uuid.ofTimeLow 1
  let amb := Ambient.noon id 2026
  [⟨.discover "opencode" "main" "%1" "/home/u/proj", amb⟩, ⟨.rename id "first", amb⟩,
   ⟨.rename id "second", amb⟩]

/-- Its owner then reports it working. -/
def reportWorking : Input :=
  ⟨.reportStatus "opencode" (.ofTimeLow 1) "working", .noon (.ofTimeLow 2) 2026⟩

/-- The snapshot in between. -/
def renamedSnapshot : Value :=
  (Read.dispatch Method.stateSnapshot .null (Machine.run next Db.fresh renamedRun)).getD .null

set_option maxRecDepth 4000 in
/-- Renamed twice, then snapshot: the replayed events first put the old name back. -/
theorem converges_renamed :
    ((TuiState.fromSnapshot renamedSnapshot).applyEvents
      ((emitted Db.fresh (renamedRun ++ [reportWorking])).map fun e => (0, e))).liveViews =
        (Machine.run next Db.fresh (renamedRun ++ [reportWorking])).liveViews := by
  have hsnap : (Read.dispatch Method.stateSnapshot .null
      (Machine.run next Db.fresh renamedRun)).isSome := by decide
  have hsome : Read.dispatch Method.stateSnapshot .null (Machine.run next Db.fresh renamedRun) =
      some renamedSnapshot := by
    obtain ⟨snap, h⟩ := Option.isSome_iff_exists.mp hsnap
    rw [renamedSnapshot, h, Option.getD_some]
  have hevents (es : List Event) : (es.map fun e => ((0, e) : Instant × Event)).map Prod.snd = es := by
    simp
  refine converges (Machine.Reachable.refl Db.fresh) renamedRun [reportWorking] ?_ hsome (hevents _)
  exact ⟨not_changesFinished_of_live (by decide) _, not_changesFinished_of_live (by decide) _,
    not_changesFinished_of_live (by decide) _, not_changesFinished_of_live (by decide) _, trivial⟩

end Agentd
