import Agentd.Tui.Converge

/-!
# Two dashboards

One dashboard took its snapshot a while ago and has applied every event since, the other has
just been opened. The reducer takes a session off the list when it is killed or reported
finished; the snapshot lists every row there is, those of ended sessions included. So a session
that has left the first list is on the second.

`Agentd.listed_iff` – the two list the same sessions exactly when none was killed or reported
finished in between.
-/

namespace Agentd

open Json Rfc3339
open Plugin (Report)

/-- The sessions listed. -/
def TuiState.ids (st : TuiState) : Set Uuid :=
  {id | ∃ s ∈ st.sessions, s.id = id}

/-- A session is listed when it has a line. -/
theorem TuiState.mem_ids {st : TuiState} {id : Uuid} : id ∈ st.ids ↔ (st.cell id).isSome := by
  rw [cell, Option.isSome_map, List.find?_isSome]
  simp only [decide_eq_true_eq]
  exact Iff.rfl

/-- The request kills a session, or its owner reports it finished. -/
def Removes (db : Db) (i : Input) : Prop :=
  ∃ row, Kills db i row ∨ ∃ rep, OwnerReport db i rep row ∧ rep.kind = "session.finished"

/-- It does so to the session with this identifier: it marks its row finished. -/
def RemovesAt (id : Uuid) (db : Db) (i : Input) : Prop :=
  ∃ row at_, db.row? id = some row ∧ i.change? row = some (.finish at_)

/-- To remove is to remove some session. -/
theorem removes_iff {db : Db} {i : Input} :
    Removes db i ↔ ∃ id, RemovesAt id db i := by
  constructor
  · rintro ⟨row, hkills | ⟨rep, hrep, hkind⟩⟩
    · obtain ⟨_, id, _, -, -, hrow, -⟩ := id hkills
      exact ⟨id, row, _, hrow, (Cause.kill hkills).change?⟩
    · exact ⟨rep.id, row, rep.ts, hrep.row?, hrep.change?.trans
        (Plugin.Report.change?_eq_finish_iff.mpr ⟨hkind, rfl⟩)⟩
  · rintro ⟨id, row, at_, hrow, hc⟩
    cases Input.cause_of_change? (KeyedTable.find?_eq_some.mp hrow).1 hc with
    | kill hkills => exact ⟨row, Or.inl hkills⟩
    | @report rep _ hrep hchange =>
      exact ⟨row, Or.inr ⟨rep, hrep, (Plugin.Report.change?_eq_finish_iff.mp hchange).1⟩⟩

/-! ### What the events of one request do to a line

The event of a request says what the request did to a row, or says nothing about it. So a line that
is patched stays, one that is finished goes, and one comes where a session is inserted. -/

/-- Events that are about no row edit no line. -/
theorem editsOf_of_inert {events : List Event} (h : ∀ e ∈ events, e.Inert) (id : Uuid) :
    editsOf events id = [] :=
  List.filterMap_eq_nil_iff.mpr fun e he => Event.edit?_of_inert (h e he) id

/-- The line of a stored session is edited as its row is changed. -/
theorem editsOf_of_change {db : Db} {i : Input} {id' id : Uuid} {row' row : SessionRow} {c : Change}
    {e : Event} (htarget : i.target? = some id') (hrow' : db.row? id' = some row')
    (hc : i.change? row' = some c) (hid : e.sessionId = some id') (hdescribes : e.Describes c)
    (hrow : db.row? id = some row) :
    editsOf [e] id = ((i.change? row).bind Change.edit?).toList := by
  rw [editsOf_cons, editsOf_nil, List.append_nil, e.edit?_of_describes hid hdescribes]
  split_ifs with heq
  · subst heq
    obtain rfl : row = row' := Option.some.inj (hrow.symm.trans hrow')
    rw [hc, Option.bind_some]
  · -- the request names another row
    have hnone : i.change? row = none := by
      rw [Input.change?, htarget, Option.map_some, (KeyedTable.find?_eq_some.mp hrow).2, if_neg]
      exact fun h => heq (Uuid.toText_inj.mp (Option.some.inj h))
    rw [hnone, Option.bind_none]

/-- What a request does to a row that is there, its event does to the line. -/
theorem editsOf_handle_of_row {db : Db} {id : Uuid} {row : SessionRow} (hrow : db.row? id = some row)
    (i : Input) :
    editsOf (handle db i).events id = ((i.change? row).bind Change.edit?).toList := by
  have hmem := (KeyedTable.find?_eq_some.mp hrow).1
  have hquiet (hidle : i.Idle db) (hinert : ∀ e ∈ (handle db i).events, e.Inert) :
      editsOf (handle db i).events id = ((i.change? row).bind Change.edit?).toList := by
    rw [editsOf_of_inert hinert, hidle.change row hmem]
    rfl
  cases handle_footprint db i with
  | refused hidle _ hevents => exact hquiet hidle (by rw [hevents]; exact nofun)
  | answered hidle _ hevents => exact hquiet hidle hevents
  | logged _ _ _ _ hidle _ hevents => exact hquiet hidle (by rw [hevents]; exact nofun)
  | inserted s kind hs hdb hkind hevents =>
    have hne : s.id ≠ id := by
      rintro rfl
      have hfree := (cell_insertSession hdb s.id).1
      rw [Db.cell, hrow] at hfree
      cases hfree
    have hact : i.change? row = none := by
      rw [Input.change?, Input.act_eq_none_of_newSession? hs, ite_self]
    rw [hevents, editsOf_cons, Event.edit?_of_toValue rfl hkind, if_neg hne, hact]
    rfl
  | updated _ _ id' row' c e _ _ htarget hrow' hact _ hevents hid hdescribes =>
    rw [hevents]
    exact editsOf_of_change htarget hrow' ((Input.change?_of_row? htarget hrow').trans hact) hid
      hdescribes hrow
  | reported rep row' c e hrep hchange _ hevents hid hdescribes =>
    rw [hevents]
    exact editsOf_of_change hrep.target? hrep.row? (hrep.change?.trans hchange) hid hdescribes hrow

/-- A session that is not stored gets a line when it is inserted, and from nothing else. -/
theorem editsOf_handle_of_missing {db : Db} {id : Uuid} (hrow : db.row? id = none) (i : Input) :
    editsOf (handle db i).events id = [] ∨ ∃ v, editsOf (handle db i).events id = [.put v] := by
  have hother {id' : Uuid} {row' : SessionRow} {c : Change} {e : Event}
      (hrow' : db.row? id' = some row') (hid : e.sessionId = some id') (hdescribes : e.Describes c) :
      editsOf [e] id = [] := by
    have hne : id' ≠ id := by
      rintro rfl
      rw [hrow] at hrow'
      cases hrow'
    rw [editsOf_cons, e.edit?_of_describes hid hdescribes, if_neg hne]
    rfl
  cases handle_footprint db i with
  | refused _ _ hevents => exact Or.inl (by rw [hevents]; rfl)
  | answered _ _ hevents => exact Or.inl (editsOf_of_inert hevents id)
  | logged _ _ _ _ _ _ hevents => exact Or.inl (by rw [hevents]; rfl)
  | inserted s kind _ _ hkind hevents =>
    rw [hevents, editsOf_cons, Event.edit?_of_toValue rfl hkind]
    split_ifs
    · exact Or.inr ⟨s.view, rfl⟩
    · exact Or.inl rfl
  | updated _ _ id' row' c e _ _ _ hrow' _ _ hevents hid hdescribes =>
    rw [hevents]
    exact Or.inl (hother hrow' hid hdescribes)
  | reported rep row' c e hrep _ _ hevents hid hdescribes =>
    rw [hevents]
    exact Or.inl (hother hrep.row? hid hdescribes)

/-! ### What they do over a run

A line is lost at an event that ends its session, while the row stays. So a dashboard lists what it
had and what came since, without what has been ended. -/

/-- A stored session stays stored. -/
theorem isSome_cell_next {db : Db} {id : Uuid} (h : (db.cell id).isSome) (i : Input) :
    ((next db i).cell id).isSome := by
  obtain ⟨row, hrow⟩ := Option.isSome_iff_exists.mp (Option.isSome_map ▸ h)
  obtain ⟨hmem, hid⟩ := KeyedTable.find?_eq_some.mp hrow
  have hnext : (next db i).row? id = some (i.edit row) :=
    KeyedTable.find?_eq_some.mpr ⟨edit_mem_next hmem i, (i.edit_id row).trans hid⟩
  rw [Db.cell, hnext]
  rfl

/-- A patch neither adds a line nor takes one away. -/
theorem isSome_patched (t : Option View) (p : Patch) :
    ((Edit.patch p).onScreen t).isSome = t.isSome :=
  Option.isSome_map

/-- **A session that has left the screen does not come back**, as its row is still there. -/
theorem lost_line (id : Uuid) (l : List Input) : ∀ {db : Db}, (db.cell id).isSome →
    (editsOf (emitted db l) id).foldl Edit.onScreen none = none ∧
      ((Machine.run next db l).cell id).isSome := by
  induction l with
  | nil => exact fun h => ⟨rfl, h⟩
  | cons i l ih =>
    intro db h
    obtain ⟨row, hrow⟩ := Option.isSome_iff_exists.mp (Option.isSome_map ▸ h)
    rw [emitted_cons, editsOf_append, List.foldl_append, Machine.run_cons,
      editsOf_handle_of_row hrow i]
    have hnone : (((i.change? row).bind Change.edit?).toList).foldl Edit.onScreen none = none := by
      cases hed : (i.change? row).bind Change.edit? with
      | none => rfl
      | some ed =>
        obtain ⟨c, -, hc⟩ := Option.bind_eq_some_iff.mp hed
        cases c with
        | usage => cases hc
        | rename | status | task | finish => obtain rfl := Option.some.inj hc; rfl
    rw [hnone]
    exact ih (isSome_cell_next h i)

/-- **A line stays on the screen as long as the row is not marked finished**: the one is there
after a run exactly when the other is, if they were before and no request of the run removes the
session. -/
theorem line_iff_row (id : Uuid) (l : List Input) : ∀ {db : Db} {t : Option View},
    (t.isSome ↔ (db.cell id).isSome) →
      ((((editsOf (emitted db l) id).foldl Edit.onScreen t).isSome ↔
        ((Machine.run next db l).cell id).isSome) ↔
          Machine.Along next (fun db i => ¬RemovesAt id db i) db l) := by
  induction l with
  | nil => exact fun h => iff_of_true h trivial
  | cons i l ih =>
    intro db t h
    rw [emitted_cons, editsOf_append, List.foldl_append, Machine.run_cons, Machine.Along]
    cases hrow : db.row? id with
    | none =>
      have hremoves : ¬RemovesAt id db i := by
        rintro ⟨row, _, hrow', -⟩
        rw [hrow] at hrow'
        cases hrow'
      rw [and_iff_right hremoves]
      have hcell : db.cell id = none := by rw [Db.cell, hrow, Option.map_none]
      have hnext := (synced_handle db i id).cell
      rw [hcell] at h hnext
      refine ih ?_
      rw [hnext]
      obtain rfl : t = none := by simpa using h
      rcases editsOf_handle_of_missing hrow i with hedits | ⟨v, hedits⟩
      · rw [hedits]
        rfl
      · rw [hedits]
        rfl
    | some row =>
      have hcell : (db.cell id).isSome := by rw [Db.cell, hrow]; rfl
      have hsome := isSome_cell_next hcell i
      rw [editsOf_handle_of_row hrow i]
      by_cases hremoves : RemovesAt id db i
      · have hat := hremoves
        obtain ⟨row', at_, hrow', hc⟩ := hat
        obtain rfl : row = row' := Option.some.inj (hrow.symm.trans hrow')
        rw [hc]
        obtain ⟨hscreen, hlast⟩ := lost_line id l hsome
        refine iff_of_false (fun hiff => ?_) fun hboth => hboth.1 hremoves
        have hline := hiff.mpr hlast
        change ((editsOf (emitted (next db i) l) id).foldl Edit.onScreen none).isSome = true at hline
        rw [hscreen] at hline
        cases hline
      · rw [and_iff_right hremoves]
        refine ih ?_
        rw [iff_true_right hsome]
        have ht := h.mpr hcell
        cases hed : (i.change? row).bind Change.edit? with
        | none => exact ht
        | some ed =>
          obtain ⟨c, hc, hed⟩ := Option.bind_eq_some_iff.mp hed
          cases c with
          | usage => cases hed
          | finish at_ => exact absurd ⟨row, at_, hrow, hc⟩ hremoves
          | rename | status | task =>
            obtain rfl := Option.some.inj hed
            exact (isSome_patched t _).trans ht

/-! ### Two dashboards

The one that is opened now lists every row. So the two agree exactly when nothing was ended in
between. -/

/-- **The dashboard that has followed the events and the one that is opened now list the same
sessions exactly when none was killed or reported finished since the first was opened.** -/
theorem listed_iff {d : Db} (hd : Reachable d) (l : List Input) {params params' snap snap' : Value}
    (hsnap : Read.dispatch Method.stateSnapshot params d = some snap)
    (hsnap' : Read.dispatch Method.stateSnapshot params' (Machine.run next d l) = some snap')
    {events : List (Instant × Event)} (hevents : events.map Prod.snd = emitted d l) :
    ((TuiState.fromSnapshot snap).applyEvents events).ids = (TuiState.fromSnapshot snap').ids ↔
      Machine.Along next (fun db i => ¬Removes db i) d l := by
  have hcanonical := canonicalIds_of_reachable hd
  have hcanonical' : (Machine.run next d l).CanonicalIds :=
    Machine.run_invariant (P := Db.CanonicalIds) (fun _ i hdb => canonicalIds_next hdb i) l d
      hcanonical
  simp only [removes_iff, not_exists]
  rw [Machine.along_forall, Set.ext_iff]
  refine forall_congr' fun id => ?_
  rw [TuiState.mem_ids, TuiState.mem_ids, TuiState.cell_applyEvents, hevents,
    cell_fromSnapshot hsnap hcanonical, cell_fromSnapshot hsnap' hcanonical']
  exact line_iff_row id l Iff.rfl

/-- Only a kill and a report can end a session. -/
theorem not_removes_of_request {db : Db} {i : Input}
    (hkill : ∀ params, i.request ≠ .control Method.sessionKill params)
    (hreport : ∀ name params, i.request ≠ .plugin name Method.sessionReportEvent params) :
    ¬Removes db i := by
  rintro ⟨row, ⟨params, _, _, hreq, -⟩ | ⟨rep, ⟨name, params, hreq, -⟩, -⟩⟩
  · exact hkill params hreq
  · exact hreport name params hreq

/-- Events that are applied at once. -/
def atOnce (events : List Event) : List (Instant × Event) :=
  events.map fun e => (0, e)

/-- Events that are applied at once are the events. -/
theorem atOnce_snd (events : List Event) : (atOnce events).map Prod.snd = events := by
  simp [atOnce]

set_option maxRecDepth 4000 in
/-- A session that is discovered and renamed is on both lists. -/
theorem listed_renamed :
    ((TuiState.fromSnapshot (snapshotOf Db.fresh)).applyEvents
      (atOnce (emitted Db.fresh renamedRun))).ids =
        (TuiState.fromSnapshot (snapshotOf (Machine.run next Db.fresh renamedRun))).ids := by
  refine (listed_iff (Machine.Reachable.refl Db.fresh) renamedRun
    (dispatch_snapshotOf (by decide)) (dispatch_snapshotOf (by decide)) (atOnce_snd _)).mpr ?_
  have hrename : Method.sessionRename ≠ Method.sessionKill := by decide
  have hdiscover : Method.sessionDiscover ≠ Method.sessionReportEvent := by decide
  refine ⟨not_removes_of_request nofun fun _ _ h => ?_, not_removes_of_request (fun _ h => ?_) nofun,
    not_removes_of_request (fun _ h => ?_) nofun, trivial⟩
  · exact hdiscover (Request.plugin.inj h).2.1
  · exact hrename (Request.control.inj h).1
  · exact hrename (Request.control.inj h).1

/-- A report is accepted for a session that has already finished. -/
def ReportsFinished (db : Db) (i : Input) : Prop :=
  ∃ name params rep row, i.request = .plugin name Method.sessionReportEvent params ∧
    Report.ofParams params i.amb.rowNow = some rep ∧ db.row? rep.id = some row ∧
    row.status = "finished" ∧ ¬(handle db i).IsError

/-- A session is discovered, and its owner reports it finished. -/
def finishedRun : List Input :=
  let id := Uuid.ofTimeLow 1
  [⟨.discover "opencode" "main" "%1" "/home/u/proj", .noon id 2026⟩,
   ⟨.report "opencode" id "session.finished" .null, .noon id 2026⟩]

set_option maxRecDepth 4000 in
/-- A session that has finished is back on the list when the dashboard is reopened. -/
theorem not_listed_finished :
    ¬∀ d, Reachable d → ∀ l, Machine.Along next (fun db i => ¬ReportsFinished db i) d l →
      ∀ params params' snap snap', Read.dispatch Method.stateSnapshot params d = some snap →
        Read.dispatch Method.stateSnapshot params' (Machine.run next d l) = some snap' →
        ∀ events : List (Instant × Event), events.map Prod.snd = emitted d l →
          ((TuiState.fromSnapshot snap).applyEvents events).ids =
            (TuiState.fromSnapshot snap').ids := by
  intro h
  have hlive {db : Db} (hrows : ∀ row ∈ db.sessions.rows, row.status ≠ "finished") (i : Input) :
      ¬ReportsFinished db i := by
    rintro ⟨_, _, _, row, -, -, hrow, hstatus, -⟩
    exact hrows row (KeyedTable.find?_eq_some.mp hrow).1 hstatus
  have heq := h _ (Machine.Reachable.refl Db.fresh) finishedRun
    ⟨hlive (by decide) _, hlive (by decide) _, trivial⟩ .null .null _ _
    (dispatch_snapshotOf (by decide)) (dispatch_snapshotOf (by decide)) _ (atOnce_snd _)
  have hback : (Uuid.ofTimeLow 1) ∈ (TuiState.fromSnapshot
      (snapshotOf (Machine.run next Db.fresh finishedRun))).ids := by
    rw [TuiState.mem_ids]
    decide
  have hgone : (Uuid.ofTimeLow 1) ∉ ((TuiState.fromSnapshot (snapshotOf Db.fresh)).applyEvents
      (atOnce (emitted Db.fresh finishedRun))).ids := by
    rw [TuiState.mem_ids]
    decide
  exact hgone (heq ▸ hback)

end Agentd
