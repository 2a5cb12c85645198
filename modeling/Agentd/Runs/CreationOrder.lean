import Agentd.Foundations.Gather
import Agentd.Foundations.TextOrder
import Agentd.Runs.RoundTrip
import Agentd.Tui.Converge
import Mathlib.Data.String.Basic

/-!
# The order of creation

`SessionRepo::list` sorts by the text of `created_at`. As long as the years have four digits that is
the order of the instants (`Rfc3339.toRfc3339_lt_iff`), and everything that goes through the
list has it too: a snapshot, the dashboard built from one, and the status line of a pane, for which
the last session of the list counts (`Agentd.StatusCache.lookup_byPane`).
-/

namespace Agentd

open Json Rfc3339

/-- Each `created_at` was written from an instant in a year of four digits. -/
def Db.CreatedStamped (db : Db) : Prop :=
  ∀ row ∈ db.sessions.rows, ∃ t : DateTime, t.FourDigitYear ∧ row.createdAt = toRfc3339 t

/-- No session was created before one that is listed before it. -/
def InCreationOrder (sessions : List Session) : Prop :=
  sessions.Pairwise fun a b => ¬b.createdAt.Before a.createdAt

/-- The list has each row once, as it decodes. -/
def Db.Lists (db : Db) (sessions : List Session) : Prop :=
  (sessions.map .ok).Perm (db.sessions.rows.map rowToSession)

/-! ### The list

`SessionRepo::list` sorts by the text of the time of creation. The sort is stable and loses nothing;
that it is the order of the instants is a property of their texts. -/

/-- Sorting loses no row. -/
theorem lists_of_listSessions {db : Db} {l : List Session} (h : db.listSessions = .ok l) :
    db.Lists l := by
  rw [Db.Lists, ← listSessions_eq_ok.mp h]
  exact (List.perm_insertionSort _ _).map _

/-- The rows are listed in the order of the text. -/
theorem pairwise_listRows (db : Db) : db.listRows.Pairwise fun r s => r.createdAt ≤ s.createdAt := by
  have htotal : Std.Total fun r s : SessionRow => r.createdAt ≤ s.createdAt :=
    ⟨fun r s => le_total r.createdAt s.createdAt⟩
  have htrans : IsTrans SessionRow fun r s => r.createdAt ≤ s.createdAt :=
    ⟨fun _ _ _ => le_trans⟩
  exact List.pairwise_insertionSort _ _

/-- The instant of a row is the one it was written from. -/
theorem createdAt_of_rowToSession {row : SessionRow} {s : Session} (hs : rowToSession row = .ok s)
    {t : DateTime} (ht : t.FourDigitYear) (hrow : row.createdAt = toRfc3339 t) :
    s.createdAt = t := by
  have hcreated := (rowToSession_eq_ok_iff.mp hs).createdAt
  rw [hrow, parseFromRfc3339_toRfc3339 ht] at hcreated
  exact (Option.some.inj hcreated).symm

/-- **The list is in the order of creation.** -/
theorem Db.CreatedStamped.inCreationOrder {db : Db} (h : db.CreatedStamped) {l : List Session}
    (hl : db.listSessions = .ok l) : InCreationOrder l := by
  have hmap : db.listRows.map rowToSession = l.map .ok := listSessions_eq_ok.mp hl
  have hsorted := pairwise_listRows db
  have hstamped : ∀ row ∈ db.listRows, ∃ t : DateTime, t.FourDigitYear ∧
      row.createdAt = toRfc3339 t := fun row hrow => h row (mem_listRows.mp hrow)
  generalize db.listRows = rows at hmap hsorted hstamped
  clear hl
  induction rows generalizing l with
  | nil =>
    rw [List.map_nil, eq_comm, List.map_eq_nil_iff] at hmap
    rw [hmap]
    exact List.Pairwise.nil
  | cons row rows ih =>
    obtain ⟨s, l, rfl, hs, hrest⟩ := List.map_eq_cons_iff.mp hmap.symm
    rw [List.forall_mem_cons] at hstamped
    rw [List.pairwise_cons] at hsorted
    refine List.Pairwise.cons (fun s' hs' => ?_) (ih hrest.symm hsorted.2 hstamped.2)
    obtain ⟨row', hrow', hread'⟩ := List.mem_map.mp (hrest ▸ List.mem_map_of_mem hs' :
      Except.ok s' ∈ rows.map rowToSession)
    obtain ⟨t, ht, htext⟩ := hstamped.1
    obtain ⟨t', ht', htext'⟩ := hstamped.2 row' hrow'
    have hle := hsorted.1 row' hrow'
    rw [htext, htext', ← not_lt, toRfc3339_lt_iff ht' ht] at hle
    rw [createdAt_of_rowToSession hs.symm ht htext, createdAt_of_rowToSession hread' ht' htext']
    exact hle

theorem InCreationOrder.filter {l : List Session} (h : InCreationOrder l) (p : Session → Bool) :
    InCreationOrder (l.filter p) :=
  List.Pairwise.sublist List.filter_sublist h

/-! ### The status line

A pane that several sessions have had is shown as the last of them that is listed, as the later
entry replaces the earlier one in the map. -/

/-- `FormattedStatus`. -/
structure FormattedStatus where
  agent : String
  status : SessionStatus
  task : Option String
  costUsd : Option F64

namespace StatusCache

/-- What is kept of a session. -/
def entry (s : Session) : FormattedStatus where
  agent := s.agentType.asStr
  status := s.status
  task := s.currentTask
  costUsd := s.costUsd

/-- The map that `rebuild` fills, in the order of the list. -/
def byPane (sessions : List Session) : AList fun _ : String => FormattedStatus :=
  sessions.foldl (fun cache s => s.tmuxPaneId.elim cache fun pane => cache.insert pane (entry s)) ∅

/-- `StatusCache::rebuild`, without the global summary. -/
def rebuild (db : Db) : Except RepoError (AList fun _ : String => FormattedStatus) :=
  db.listNonFinished.map byPane

theorem lookup_byPane_eq (sessions : List Session) (pane : String) :
    (byPane sessions).lookup pane =
      (Gather.lastWith Session.tmuxPaneId pane sessions).map entry :=
  Gather.lookup_latest sessions

/-- **The session created last has the pane.** -/
theorem lookup_byPane {sessions : List Session} (h : InCreationOrder sessions) {pane : String}
    {f : FormattedStatus} (hf : (byPane sessions).lookup pane = some f) :
    ∃ s ∈ sessions, s.tmuxPaneId = some pane ∧ f = entry s ∧
      ∀ s' ∈ sessions, s'.tmuxPaneId = some pane → ¬s.createdAt.Before s'.createdAt := by
  rw [lookup_byPane_eq] at hf
  obtain ⟨s, hs, hentry⟩ := Option.map_eq_some_iff.mp hf
  obtain ⟨before, after, rfl, hpane, hafter⟩ := Gather.exists_of_lastWith hs
  refine ⟨s, List.mem_append_right _ List.mem_cons_self, hpane, hentry.symm,
    fun s' hs' hpane' => ?_⟩
  rcases List.mem_append.mp hs' with hbefore | hrest
  · exact (List.pairwise_append.mp h).2.2 s' hbefore s List.mem_cons_self
  · rcases List.mem_cons.mp hrest with rfl | hmem
    · rw [DateTime.Before]
      omega
    · exact absurd hpane' (hafter s' hmem)

end StatusCache

/-! ### What goes through the list

Snapshot, dashboard and status lines take the list as it comes. So what is shown last was created
last, wherever one looks. -/

/-- The cost that JSON cannot carry has nothing to do with the order. -/
theorem InCreationOrder.map_jsonable {l : List Session} (h : InCreationOrder l) :
    InCreationOrder (l.map Session.jsonable) :=
  List.pairwise_map.mpr h

/-- **Texts of instants are in the order of the instants, and so the list, a snapshot, the dashboard
built from it and the status lines follow the order of creation.** Each of them has every session,
or every one that has not finished. -/
theorem creation_order :
    (∀ t u : DateTime, t.FourDigitYear → u.FourDigitYear →
      (toRfc3339 t < toRfc3339 u ↔ t.Before u)) ∧
    ∀ db : Db, db.CreatedStamped →
      (∀ l, db.listSessions = .ok l → InCreationOrder l ∧ db.Lists l) ∧
      (∀ l, db.listNonFinished = .ok l → InCreationOrder l ∧
        ∃ all, db.Lists all ∧ l = all.filter fun s => s.status ≠ .finished) ∧
      (∀ st, State.capture db = .ok st → InCreationOrder st.sessions ∧ db.Lists st.sessions) ∧
      (∀ params snap, Read.dispatch Method.stateSnapshot params db = some snap →
        InCreationOrder (TuiState.fromSnapshot snap).sessions ∧
        ∃ all, db.Lists all ∧ (TuiState.fromSnapshot snap).sessions = all.map Session.jsonable) ∧
      ∀ cache l, StatusCache.rebuild db = .ok cache → db.listNonFinished = .ok l →
        ∀ pane f, cache.lookup pane = some f →
          ∃ s ∈ l, s.tmuxPaneId = some pane ∧ f = StatusCache.entry s ∧
            ∀ s' ∈ l, s'.tmuxPaneId = some pane → ¬s.createdAt.Before s'.createdAt := by
  refine ⟨fun t u ht hu => toRfc3339_lt_iff ht hu, fun db h => ?_⟩
  have hlist : ∀ l, db.listSessions = .ok l → InCreationOrder l := fun _ hl => h.inCreationOrder hl
  have hactive : ∀ l, db.listNonFinished = .ok l → InCreationOrder l := by
    intro l hl
    obtain ⟨all, hall, rfl⟩ := Except.map_eq_ok.mp hl
    exact (hlist all hall).filter _
  refine ⟨fun l hl => ⟨hlist l hl, lists_of_listSessions hl⟩, fun l hl => ⟨hactive l hl, ?_⟩,
    fun st hst => ?_, fun params snap hsnap => ?_, fun cache l hcache hl pane f hf => ?_⟩
  · obtain ⟨all, hall, rfl⟩ := Except.map_eq_ok.mp hl
    refine ⟨all, lists_of_listSessions hall, ?_⟩
    simp [SessionStatus.isTerminal]
  · obtain ⟨all, hall, rfl⟩ := Except.map_eq_ok.mp hst
    exact ⟨hlist all hall, lists_of_listSessions hall⟩
  · obtain ⟨l, hrows, hsessions⟩ := sessions_fromSnapshot hsnap
    have hl := listSessions_eq_ok.mpr hrows
    rw [hsessions]
    exact ⟨(hlist l hl).map_jsonable, l, lists_of_listSessions hl, rfl⟩
  · rw [StatusCache.rebuild, hl] at hcache
    rw [← Except.ok.inj hcache] at hf
    exact StatusCache.lookup_byPane (hactive l hl) hf

/-- Two sessions are created, the second with a later clock. -/
def twoCreated : Db :=
  Machine.run next Db.fresh
    [⟨.control Method.sessionCreate (.object [("agent_type", .string "codex"),
        ("working_dir", .string "/home/u/a")]), .noon (.ofTimeLow 1) 2026⟩,
      ⟨.control Method.sessionCreate (.object [("agent_type", .string "aider"),
        ("working_dir", .string "/home/u/b")]), .noon (.ofTimeLow 2) 2027⟩]

set_option maxRecDepth 2000 in
/-- They are listed in that order. -/
theorem creation_order_twoCreated :
    (toRfc3339 (.noonOf 2026) < toRfc3339 (.noonOf 2027) ↔
      DateTime.Before (.noonOf 2026) (.noonOf 2027)) ∧
    ∀ l, twoCreated.listSessions = .ok l → InCreationOrder l ∧ twoCreated.Lists l := by
  have hrows : ∀ row ∈ twoCreated.sessions.rows, row.createdAt = toRfc3339 (.noonOf 2026) ∨
      row.createdAt = toRfc3339 (.noonOf 2027) := by
    decide
  have hstamped : twoCreated.CreatedStamped := by
    intro row hrow
    rcases hrows row hrow with h | h
    · exact ⟨_, by decide, h⟩
    · exact ⟨_, by decide, h⟩
  exact ⟨creation_order.1 _ _ (by decide) (by decide), (creation_order.2 _ hstamped).1⟩

end Agentd
