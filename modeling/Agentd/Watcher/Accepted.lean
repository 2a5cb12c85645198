import Agentd.Foundations.Machine
import Agentd.Watcher.Trace

/-!
# Failed reports

The map of the watcher is changed whether or not the daemon took the report of the change, and
a pane may get a session when it has one already. So what is in the map is what the
daemon was told (`Agentd.Watcher.AcceptedView`) only as long as nothing of the kind happens:
`Agentd.Watcher.acceptedView_run` says that it is when every report was taken and every session
was given out for a pane without one.

The watcher does not ask again. A report that failed is not repeated, since the map already has the
new status; and a discovery that was answered with a second session for the same key takes the place
of the first one, which is then never reported on again.
-/

namespace Agentd.Watcher

/-! ### What the daemon accepted

The trace of a session has what was said; the accepted trace has what was said and taken. The map is
compared with the latter. -/

/-- The status in an event. -/
def Event.status? : Event → Option String
  | .statusChanged status => some status
  | _ => none

/-- The last status in a trace, `starting` when there is none. -/
def lastStatus (trace : List Event) : String :=
  (trace.filterMap Event.status?).getLast?.getD "starting"

/-- What the daemon accepted of a session. -/
def acceptedTrace (id : Uuid) (log : List Call) : List Event :=
  trace id (log.filter Call.accepted)

/-- **The map is what the daemon accepted**: a pane has the status that was accepted last
for its session, and every session that was given out is in the map or was accepted to be
finished. -/
structure AcceptedView (s : List Call × Known) : Prop where
  status : ∀ key id status, s.2.lookup key = some (id, status) →
    status.asStr = lastStatus (acceptedTrace id s.1)
  kept : ∀ id ∈ discoveredIds s.1, (∃ key status, s.2.lookup key = some (id, status)) ∨
    .finished ∈ acceptedTrace id s.1

/-! ### The condition

A call may be taken and still do harm: a discovery may be answered with a session for a pane that
has one. So a harmless call is one that is taken, and that gives out a session only for a pane
without one. -/

/-- A call gives out the session `id`, which is new, for a pane each earlier session of which was
reported as finished. -/
def Call.FindsFree (before : List Call) (call : Call) (id : Uuid) : Prop :=
  id ∉ discoveredIds before ∧ ∀ earlier ∈ before, earlier.key? = call.key? →
    ∀ old ∈ earlier.about?, old.2 = .discovered → .finished ∈ trace old.1 before

instance (before : List Call) (call : Call) (id : Uuid) : Decidable (call.FindsFree before id) :=
  inferInstanceAs (Decidable (_ ∧ _))

/-- What a call says of a session is accepted, and a session is given out for a free pane. -/
def Call.Harmless (before : List Call) (call : Call) : Prop :=
  ∀ about ∈ call.about?,
    call.accepted ∧ (about.2 = .discovered → call.FindsFree before about.1)

instance (before : List Call) (call : Call) : Decidable (call.Harmless before) :=
  inferInstanceAs (Decidable (∀ about ∈ call.about?, _))

/-- Every call is harmless, after those before it. -/
def Untroubled (log : List Call) : Prop :=
  Machine.Along (fun before call => before ++ [call]) (fun before call => call.Harmless before) []
    log

instance (log : List Call) : Decidable (Untroubled log) :=
  inferInstanceAs (Decidable (Machine.Along ..))

theorem untroubled_concat {log : List Call} {call : Call} :
    Untroubled (log ++ [call]) ↔ Untroubled log ∧ call.Harmless log := by
  have hrun (log before : List Call) :
      Machine.run (fun before call => before ++ [call]) before log = before ++ log := by
    induction log generalizing before with
    | nil => rw [Machine.run_nil, List.append_nil]
    | cons call log ih => rw [Machine.run_cons, ih, List.append_assoc, List.singleton_append]
  rw [Untroubled, Machine.along_append, hrun, List.nil_append]
  exact and_congr_right fun _ => and_iff_left trivial

/-! ### Nothing is lost

Without harm the accepted trace is the whole trace, and what is known of the map from the traces is
what the daemon accepted. -/

/-- What holds as long as every call is harmless. -/
structure Viewed (s : List Call × Known) : Prop where
  traced : Traced s
  /-- What was said of sessions was accepted. -/
  accepted : ∀ call ∈ s.1, call.about?.isSome → call.accepted
  /-- A session was given out for the pane it is under. -/
  placed : ∀ key state, s.2.lookup key = some state →
    ∃ call ∈ s.1, call.about? = some (state.1, .discovered) ∧ call.key? = some key
  kept : ∀ id ∈ discoveredIds s.1, (∃ key status, s.2.lookup key = some (id, status)) ∨
    .finished ∈ trace id s.1

theorem viewed_start : Viewed ([], ∅) where
  traced := traced_start
  accepted _ h := (List.not_mem_nil h).elim
  placed key state h := by
    rw [AList.lookup_empty] at h
    cases h
  kept _ h := (List.not_mem_nil h).elim

/-- What was said before still was. -/
theorem finished_mem_concat {id : Uuid} {log : List Call} (h : .finished ∈ trace id log)
    (call : Call) : .finished ∈ trace id (log ++ [call]) := by
  rw [trace_append]
  exact List.mem_append_left _ h

namespace Viewed

variable {log : List Call} {known : Known} (h : Viewed (log, known)) {call : Call} {key : String}
  {id : Uuid}
include h

/-- What a harmless call says is accepted. -/
theorem accepted_concat (hharmless : call.Harmless log) :
    ∀ other ∈ log ++ [call], other.about?.isSome → other.accepted := by
  intro other hother hsome
  rcases List.mem_append.mp hother with hother | hother
  · exact h.accepted other hother hsome
  · obtain rfl := List.mem_singleton.mp hother
    obtain ⟨about, habout⟩ := Option.isSome_iff_exists.mp hsome
    exact (hharmless about habout).1

theorem placed_concat (call : Call) {k : String} {state : PaneState}
    (hk : known.lookup k = some state) :
    ∃ other ∈ log ++ [call], other.about? = some (state.1, .discovered) ∧ other.key? = some k := by
  obtain ⟨other, hother, habout⟩ := h.placed k state hk
  exact ⟨other, List.mem_append_left _ hother, habout⟩

theorem pass (hharmless : call.Harmless log) (hcall : call.about? = none) :
    Viewed (log ++ [call], known) where
  traced := h.traced.pass hcall
  accepted := h.accepted_concat hharmless
  placed _ _ hk := h.placed_concat call hk
  kept other hother := by
    rw [discoveredIds_concat_of_none log hcall] at hother
    exact (h.kept other hother).imp_right fun hfinished => finished_mem_concat hfinished call

theorem discover (hharmless : call.Harmless log) (hcall : call.about? = some (id, .discovered))
    (hkey : call.key? = some key) : Viewed (log ++ [call], known.insert key (id, .starting)) := by
  obtain ⟨hid, hearlier⟩ := (hharmless _ hcall).2 rfl
  -- a session under the key would have been reported as finished
  have hfree (k : String) (state : PaneState) (hk : known.lookup k = some state) : k ≠ key := by
    rintro rfl
    obtain ⟨earlier, hmem, habout, hplace⟩ := h.placed k state hk
    have hfinished := hearlier earlier hmem (hplace.trans hkey.symm) _ habout rfl
    exact (h.traced.underWay k state.1 state.2 hk).finished_notMem hfinished
  refine ⟨h.traced.discover hcall hid, h.accepted_concat hharmless, fun k state hk => ?_,
    fun other hother => ?_⟩
  · rcases lookup_insert_eq_some.mp hk with ⟨rfl, rfl⟩ | ⟨-, hk⟩
    · exact ⟨call, List.mem_append_right _ (List.mem_singleton_self _), hcall, hkey⟩
    · exact h.placed_concat call hk
  · rw [discoveredIds_concat log hcall, List.mem_append, List.mem_singleton] at hother
    rcases hother with hother | rfl
    · rcases h.kept other hother with ⟨k, status, hk⟩ | hfinished
      · exact Or.inl ⟨k, status, lookup_insert_eq_some.mpr (Or.inr ⟨hfree k _ hk, hk⟩)⟩
      · exact Or.inr (finished_mem_concat hfinished call)
    · exact Or.inl ⟨key, .starting, lookup_insert_eq_some.mpr (Or.inl ⟨rfl, rfl⟩)⟩

theorem change (hharmless : call.Harmless log) {prev new : Status}
    (hknown : known.lookup key = some (id, prev)) (hnew : new ≠ prev)
    (hcall : call.about? = some (id, .statusChanged new.asStr)) :
    Viewed (log ++ [call], known.insert key (id, new)) := by
  refine ⟨h.traced.change hknown hnew hcall, h.accepted_concat hharmless, fun k state hk => ?_,
    fun other hother => ?_⟩
  · rcases lookup_insert_eq_some.mp hk with ⟨rfl, rfl⟩ | ⟨-, hk⟩
    · have hplaced := h.placed_concat call hknown
      exact hplaced
    · exact h.placed_concat call hk
  · rw [discoveredIds_concat_of_ne log hcall nofun] at hother
    rcases h.kept other hother with ⟨k, status, hk⟩ | hfinished
    · left
      by_cases heq : k = key
      · subst heq
        obtain ⟨rfl, -⟩ := Prod.mk.inj (Option.some.inj (hk.symm.trans hknown))
        exact ⟨k, new, lookup_insert_eq_some.mpr (Or.inl ⟨rfl, rfl⟩)⟩
      · exact ⟨k, status, lookup_insert_eq_some.mpr (Or.inr ⟨heq, hk⟩)⟩
    · exact Or.inr (finished_mem_concat hfinished call)

theorem finish (hharmless : call.Harmless log) {state : PaneState}
    (hknown : known.lookup key = some state) (hcall : call.about? = some (state.1, .finished)) :
    Viewed (log ++ [call], known.erase key) := by
  refine ⟨h.traced.finish hknown hcall, h.accepted_concat hharmless, fun k state hk => ?_,
    fun other hother => ?_⟩
  · exact h.placed_concat call (lookup_erase_eq_some.mp hk).2
  · rw [discoveredIds_concat_of_ne log hcall nofun] at hother
    rcases h.kept other hother with ⟨k, status, hk⟩ | hfinished
    · by_cases heq : k = key
      · -- the session that goes is the one reported
        subst heq
        obtain rfl := Option.some.inj (hk.symm.trans hknown)
        right
        rw [trace_concat log hcall, if_pos rfl]
        exact List.mem_append_right _ (List.mem_singleton_self _)
      · exact Or.inl ⟨k, status, lookup_erase_eq_some.mpr ⟨heq, hk⟩⟩
    · exact Or.inr (finished_mem_concat hfinished call)

end Viewed

variable {polled : List String}

/-- **What a harmless call keeps.** -/
theorem Viewed.move {s t : List Call × Known} (h : Viewed s) (hmove : Move polled s t)
    (huntroubled : Untroubled t.1) : Viewed t := by
  cases hmove with
  | pass hcall => exact h.pass (untroubled_concat.mp huntroubled).2 hcall
  | discover hcall hkey => exact h.discover (untroubled_concat.mp huntroubled).2 hcall hkey
  | change hknown hpolled hnew hcall =>
    exact h.change (untroubled_concat.mp huntroubled).2 hknown hnew hcall
  | finish hknown hcall => exact h.finish (untroubled_concat.mp huntroubled).2 hknown hcall

theorem Viewed.moves {s t : List Call × Known} (h : Viewed s) (hmoves : Moves polled s t)
    (huntroubled : Untroubled t.1) : Viewed t := by
  induction hmoves with
  | refl => exact h
  | tail _ hmove ih =>
    obtain ⟨call, hlog⟩ := hmove.exists_call
    have hbefore := (untroubled_concat.mp (hlog ▸ huntroubled)).1
    exact (ih hbefore).move hmove huntroubled

/-- The last status of a session under way is the one reported last. -/
theorem UnderWay.lastStatus_eq {last : String} {trace : List Event} (h : UnderWay last trace) :
    lastStatus trace = last := by
  obtain ⟨statuses, rfl, -, hlast⟩ := h
  have hmap : (statuses.map .statusChanged).filterMap Event.status? = statuses := by
    rw [List.filterMap_map]
    exact List.filterMap_some
  have hstatuses : (Event.discovered :: statuses.map .statusChanged).filterMap Event.status? =
      statuses := hmap
  rw [lastStatus, hstatuses]
  rw [List.getLast?_cons, Option.some.injEq] at hlast
  exact hlast

/-- Where everything that is said is accepted, the accepted trace is all of it. -/
theorem acceptedTrace_eq {log : List Call}
    (h : ∀ call ∈ log, call.about?.isSome → call.accepted) (id : Uuid) :
    acceptedTrace id log = trace id log := by
  unfold acceptedTrace trace
  rw [List.filterMap_filter]
  refine List.filterMap_congr fun call hcall => ?_
  split_ifs with haccepted
  · rfl
  · have hnone : call.about? = none := by
      rw [← Option.not_isSome_iff_eq_none]
      exact fun hsome => haccepted (h call hcall hsome)
    rw [hnone]
    rfl

theorem Viewed.acceptedView {s : List Call × Known} (h : Viewed s) : AcceptedView s where
  status key id status hkey := by
    rw [acceptedTrace_eq h.accepted]
    exact (h.traced.underWay key id status hkey).lastStatus_eq.symm
  kept id hid := by
    rw [acceptedTrace_eq h.accepted]
    exact h.kept id hid

variable {σ : Type}

/-- **The map is what the daemon accepted**, at the end of any list of ticks, if no report
failed so far and every session was given out for a pane that had none. -/
theorem acceptedView_run (c : Client σ) (panes : List OpencodePane) (w : σ) (ticks : List Tick)
    (huntroubled : Untroubled (run c.recorded panes (w, []) ticks).1.2) :
    AcceptedView (view (run c.recorded panes (w, []) ticks)) :=
  (viewed_start.moves (moves_run panes w ticks) huntroubled).acceptedView

/-- A pane that starts to work and goes away, while the daemon takes every report. -/
theorem acceptedView_taken : AcceptedView (view (run (numbering fun _ => true).recorded [devPane]
    (0, []) [.poll fun _ => "Compiling", .paneCheck (some [])])) :=
  acceptedView_run _ _ _ _ (by decide +kernel)

/-- **A report that fails is not made again**: the pane of a session is in the map as working,
and nothing the daemon accepted says so. -/
theorem not_acceptedView : ¬∀ (c : Client ℕ) (panes : List OpencodePane) (w : ℕ)
    (ticks : List Tick), AcceptedView (view (run c.recorded panes (w, []) ticks)) := by
  intro h
  have hview := h (numbering fun _ => false) [devPane] 0 [.poll fun _ => "Compiling"]
  have hstatus := hview.status "dev:%0" (.ofTimeLow 0) .working (by decide +kernel)
  exact absurd hstatus (by decide +kernel)

end Agentd.Watcher
