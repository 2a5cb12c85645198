import Agentd.Foundations.Gather
import Agentd.Runs.CreationOrder

/-!
# The status cache

`status/cache.rs`: the text tmux shows for a pane and for the whole daemon, out of a cache that
`StatusCache::rebuild` fills from the list of sessions. A rebuild reads first and writes then, so
one that cannot read leaves the cache as it was; one that can forgets all that was in it.

How two doubles are added and how one is written with two decimals is left open here, as the
parameters `add` and `fixed2`.

`Agentd.StatusCache.rebuild_spec` says what the lines are after a rebuild.
-/

namespace Agentd

open Json

namespace StatusCache

/-- `GlobalSummary`. -/
structure GlobalSummary where
  total : ℕ := 0
  byStatus : AList fun _ : SessionStatus => ℕ := ∅
  costUsd : F64 := .ofNat 0

/-- What is behind the two locks. -/
structure Content where
  byPane : AList fun _ : String => FormattedStatus := ∅
  global : GlobalSummary := {}

section

variable (add : F64 → F64 → F64) (fixed2 : F64 → String)

/-- One session in the loop of `rebuild`. -/
def note (c : Content) (s : Session) : Content where
  byPane := s.tmuxPaneId.elim c.byPane fun pane => c.byPane.insert pane (entry s)
  global :=
    { total := c.global.total + 1
      byStatus := Gather.bump c.global.byStatus s.status
      costUsd := s.costUsd.elim c.global.costUsd (add c.global.costUsd) }

/-- `StatusCache::rebuild`: how many panes there are, and the cache. -/
def Content.rebuild (c : Content) (db : Db) : Except RepoError ℕ × Content :=
  match db.listNonFinished with
  | .error e => (.error e, c)
  | .ok sessions =>
    let filled := sessions.foldl (note add) { c with byPane := ∅, global := {} }
    (.ok filled.byPane.keys.length, filled)

/-- `StatusCache::format_pane`. -/
def Content.formatPane (c : Content) (pane : String) : String :=
  match c.byPane.lookup pane with
  | some f =>
    match f.task with
    | some t => f.agent ++ " · " ++ t
    | none => f.agent
  | none => ""

/-- `StatusCache::format_global`. -/
def Content.formatGlobal (c : Content) : String :=
  let count (status : SessionStatus) := toString ((c.global.byStatus.lookup status).getD 0)
  let cost := "$" ++ fixed2 c.global.costUsd
  toString c.global.total ++ " agents · " ++ count .waitingForUser ++ " waiting · " ++
    count .working ++ " working · " ++ count .idle ++ " idle · " ++ count .errored ++
    " errored · " ++ cost

end

/-! ### What a session shows -/

/-- The agent and the task. -/
def line (s : Session) : String :=
  s.currentTask.elim s.agentType.asStr fun task => s.agentType.asStr ++ " · " ++ task

/-- A line of the status bar is never empty: it begins with the name of the agent. -/
theorem line_ne_empty (s : Session) : line s ≠ "" := by
  have hagent : s.agentType.asStr ≠ "" := by
    cases s.agentType <;> decide
  unfold line
  cases s.currentTask with
  | none => exact hagent
  | some task =>
    have htext : s.agentType.asStr.toList ≠ [] := fun h => hagent (String.toList_eq_nil_iff.mp h)
    intro h
    have hnil := congrArg String.toList h
    rw [Option.elim_some, String.toList_append, String.toList_append, List.append_assoc] at hnil
    exact htext (List.append_eq_nil_iff.mp hnil).1

/-! ### What a rebuild leaves

A rebuild goes over the live sessions in the order of the listing, and notes each under its pane. A
pane that two sessions have shows the later one; what was there before is dropped whole, or kept
whole when the listing fails. -/

section

variable (add : F64 → F64 → F64)

/-- The cache of a list of sessions. -/
def filled (sessions : List Session) : Content where
  byPane := byPane sessions
  global :=
    { total := sessions.length
      byStatus := Gather.tally (sessions.map Session.status)
      costUsd := (sessions.filterMap Session.costUsd).foldl add (.ofNat 0) }

/-- The last session of the listing is noted last. -/
theorem filled_concat (sessions : List Session) (s : Session) :
    filled add (sessions ++ [s]) = note add (filled add sessions) s := by
  have hpane : byPane (sessions ++ [s]) = s.tmuxPaneId.elim (byPane sessions)
      fun pane => (byPane sessions).insert pane (entry s) :=
    Gather.latest_concat sessions s
  have hcost : ((sessions ++ [s]).filterMap Session.costUsd).foldl add (.ofNat 0) =
      s.costUsd.elim ((sessions.filterMap Session.costUsd).foldl add (.ofNat 0))
        (add ((sessions.filterMap Session.costUsd).foldl add (.ofNat 0))) := by
    rw [List.filterMap_append, List.foldl_append]
    cases hs : s.costUsd <;> simp [hs]
  rw [filled, note, hpane, hcost, List.map_append, List.map_singleton, Gather.tally_concat,
    List.length_append, List.length_singleton]
  rfl

/-- The loop fills the cache from the list alone. -/
theorem foldl_note (sessions : List Session) :
    sessions.foldl (note add) {} = filled add sessions := by
  induction sessions using List.reverseRecOn with
  | nil => rfl
  | append_singleton sessions s ih => rw [List.foldl_append, ih, filled_concat]; rfl

/-- A rebuild that cannot list the sessions leaves everything as it is. -/
theorem rebuild_of_error {db : Db} {e : RepoError} (h : db.listNonFinished = .error e)
    (c : Content) : c.rebuild add db = (.error e, c) := by
  rw [Content.rebuild, h]

/-- One that can drops what was there, and answers how many panes it has noted. -/
theorem rebuild_of_ok {db : Db} {l : List Session} (h : db.listNonFinished = .ok l) (c : Content) :
    c.rebuild add db = (.ok (byPane l).keys.length, filled add l) := by
  rw [Content.rebuild, h]
  dsimp only
  rw [foldl_note]
  rfl

/-- A pane shows the last session that has it. -/
theorem formatPane_filled (l : List Session) (pane : String) :
    (filled add l).formatPane pane = (Gather.lastWith Session.tmuxPaneId pane l).elim "" line := by
  rw [Content.formatPane, filled]
  dsimp only
  rw [lookup_byPane_eq]
  cases Gather.lastWith Session.tmuxPaneId pane l with
  | none => rfl
  | some s =>
    simp only [Option.map_some, Option.elim_some, entry, line]
    cases s.currentTask <;> rfl

end

/-- **What a rebuild does**, whatever is in the cache. One that succeeds counts the sessions that
are not finished, in all and by their status, shows the last of them for each pane, and leaves
nothing of what was there; one that fails leaves every line as it was. -/
theorem rebuild_spec (add : F64 → F64 → F64) (fixed2 : F64 → String) (c : Content) (db : Db) :
    (∀ n, (c.rebuild add db).1 = .ok n → ∃ all, db.listSessions = .ok all ∧
      let l := all.filter fun s => s.status ≠ .finished
      let c' := (c.rebuild add db).2
      c'.global.total = l.length ∧ c'.global.total = Gather.total c'.global.byStatus ∧
      (∀ status, (c'.global.byStatus.lookup status).getD 0 =
        (l.map Session.status).count status) ∧
      (∀ pane, c'.formatPane pane ≠ "" ↔ ∃ s ∈ l, s.tmuxPaneId = some pane) ∧
      (∀ before s after pane, l = before ++ s :: after → s.tmuxPaneId = some pane →
        (∀ s' ∈ after, s'.tmuxPaneId ≠ some pane) → c'.formatPane pane = line s) ∧
      ∀ c₀ : Content, (c₀.rebuild add db).2 = c') ∧
    ∀ e, (c.rebuild add db).1 = .error e →
      (∀ pane, (c.rebuild add db).2.formatPane pane = c.formatPane pane) ∧
        (c.rebuild add db).2.formatGlobal fixed2 = c.formatGlobal fixed2 := by
  cases hread : db.listNonFinished with
  | error e =>
    have hrun := rebuild_of_error add hread c
    refine ⟨fun n hn => ?_, fun _ _ => ?_⟩
    · rw [hrun] at hn
      cases hn
    · rw [hrun]
      exact ⟨fun _ => rfl, rfl⟩
  | ok l =>
    have hrun := rebuild_of_ok add hread
    refine ⟨fun _ _ => ?_, fun e he => ?_⟩
    · obtain ⟨all, hall, rfl⟩ := Except.map_eq_ok.mp hread
      have hactive : (all.filter fun s => s.status ≠ .finished) =
          all.filter fun s => !s.status.isTerminal := by
        simp [SessionStatus.isTerminal]
      refine ⟨all, hall, ?_⟩
      dsimp only
      rw [hrun c, hactive]
      refine ⟨rfl, ?_, fun status => Gather.getD_lookup_tally _ _, fun pane => ?_,
        fun before s after pane hl hs hafter => ?_, fun c₀ => ?_⟩
      · exact ((Gather.total_tally _).trans (List.length_map _)).symm
      · rw [formatPane_filled, ← Gather.isSome_lastWith]
        cases Gather.lastWith Session.tmuxPaneId pane _ with
        | none => exact iff_of_false (fun h => h rfl) (by simp)
        | some s => exact iff_of_true (line_ne_empty s) rfl
      · rw [formatPane_filled, hl, Gather.lastWith_append_cons hs hafter, Option.elim_some]
      · rw [hrun c₀]
    · rw [hrun c] at he
      cases he

/-- A cache with a pane that no session has any more. -/
def outdated : Content where
  byPane := (∅ : AList fun _ : String => FormattedStatus).insert "%9" ⟨"codex", .idle, none, none⟩

/-- Two sessions in panes of one identifier, of two sessions of tmux. -/
def samePane : Db :=
  Machine.run next Db.fresh
    [⟨.discover "opencode" "main" "%1" "/home/u/proj", .noon (.ofTimeLow 1) 2026⟩,
      ⟨.discover "codex" "work" "%1" "/home/u/blog", .noon (.ofTimeLow 2) 2027⟩]

/-- A rebuild forgets the pane, and shows one of the two sessions for the pane they share. -/
theorem rebuild_spec_outdated :
    let c' := (outdated.rebuild (fun x _ => x) samePane).2
    outdated.formatPane "%9" = "codex" ∧ c'.formatPane "%9" = "" ∧ c'.formatPane "%1" ≠ "" ∧
      c'.global.total = 2 := by
  have hok : (outdated.rebuild (fun x _ => x) samePane).1.toOption = some 1 := by decide +kernel
  have hpanes : samePane.listSessions.toOption.map (List.map fun s => (s.tmuxPaneId, s.status)) =
      some [(some "%1", .starting), (some "%1", .starting)] := by decide +kernel
  obtain ⟨all, hall, htotal, -, -, hpane, -⟩ :=
    (rebuild_spec (fun x _ => x) (fun _ => "0.00") outdated samePane).1 1
      (Except.toOption_eq_some.mp hok)
  rw [hall, Except.toOption, Option.map_some, Option.some.injEq] at hpanes
  have hlive (s : Session) (hs : s ∈ all) : s.tmuxPaneId = some "%1" ∧ s.status ≠ .finished := by
    have hmem := List.mem_map_of_mem (f := fun s => (s.tmuxPaneId, s.status)) hs
    rw [hpanes, List.mem_cons, List.mem_singleton, or_self, Prod.mk.injEq] at hmem
    exact ⟨hmem.1, by rw [hmem.2]; decide⟩
  have hfilter : (all.filter fun s => s.status ≠ .finished) = all :=
    List.filter_eq_self.mpr fun s hs => decide_eq_true (hlive s hs).2
  have hlength : all.length = 2 := by
    have hlengths := congrArg List.length hpanes
    rwa [List.length_map] at hlengths
  rw [hfilter] at htotal hpane
  refine ⟨by decide, ?_, (hpane "%1").mpr ?_, htotal.trans hlength⟩
  · by_contra h
    obtain ⟨s, hs, hshows⟩ := (hpane "%9").mp h
    rw [(hlive s hs).1] at hshows
    exact absurd hshows (by decide)
  · obtain ⟨s, hs⟩ := List.exists_mem_of_length_pos (hlength ▸ Nat.zero_lt_two)
    exact ⟨s, hs, (hlive s hs).1⟩

end StatusCache

end Agentd
