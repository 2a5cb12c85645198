import Agentd.Watcher.Log
import Mathlib.Data.List.Chain

/-!
# What the daemon is told of a session

A session begins with the answer that gives it out. Then come reports of its status, each of
another status than the one before, and at most one report of its end, after which
nothing comes (`Agentd.Watcher.WellFormed`). `Agentd.Watcher.wellFormed_trace` says so of every
run, whichever calls fail, so long as the daemon gives no session out twice.

The map `known` is what carries the proof: the sessions in it are those that are
under way, each under one key and with the status reported last (`Agentd.Watcher.Traced`).

The proof goes over the moves of a run and not over its loops. A move changes one key of the map and
makes one call at most, and the invariant is a sentence about each key; so there are four cases, and
the loops of the watcher do not appear in them.
-/

namespace Agentd.Watcher

open Relation

/-! ### Traces

The trace of a session is the list of what was said of it, in order. It grows at its end, and there
are three kinds of entries. -/

/-- The trace of a session that is under way, with the status that was reported last. -/
def UnderWay (last : String) (trace : List Event) : Prop :=
  ∃ statuses, trace = .discovered :: statuses.map .statusChanged ∧
    ("starting" :: statuses).IsChain (· ≠ ·) ∧ ("starting" :: statuses).getLast? = some last

/-- **What may be said of a session**: nothing; or that it was discovered, then its
statuses, each of which is another than the one before, the first of which is not
`starting`, and then possibly its end. -/
def WellFormed (trace : List Event) : Prop :=
  trace = [] ∨ ∃ statuses ending, trace = .discovered :: (statuses.map .statusChanged ++ ending) ∧
    ("starting" :: statuses).IsChain (· ≠ ·) ∧ (ending = [] ∨ ending = [.finished])

theorem underWay_discovered : UnderWay "starting" [.discovered] :=
  ⟨[], rfl, List.isChain_singleton _, rfl⟩

namespace UnderWay

variable {last : String} {trace : List Event} (h : UnderWay last trace)
include h

theorem ne_nil : trace ≠ [] := by
  obtain ⟨statuses, rfl, -⟩ := h
  exact List.cons_ne_nil _ _

theorem wellFormed : WellFormed trace := by
  obtain ⟨statuses, rfl, hchain, -⟩ := h
  exact Or.inr ⟨statuses, [], by rw [List.append_nil], hchain, Or.inl rfl⟩

theorem wellFormed_finished : WellFormed (trace ++ [.finished]) := by
  obtain ⟨statuses, rfl, hchain, -⟩ := h
  exact Or.inr ⟨statuses, [.finished], rfl, hchain, Or.inr rfl⟩

theorem finished_notMem : .finished ∉ trace := by
  obtain ⟨statuses, rfl, -⟩ := h
  simp

theorem statusChanged {status : String} (hne : status ≠ last) :
    UnderWay status (trace ++ [.statusChanged status]) := by
  obtain ⟨statuses, rfl, hchain, hlast⟩ := h
  refine ⟨statuses ++ [status], ?_, ?_, ?_⟩
  · rw [List.map_append, List.map_singleton, List.cons_append]
  · rw [← List.cons_append]
    refine hchain.append (List.isChain_singleton _) fun x hx y hy => ?_
    rw [hlast, Option.mem_some_iff] at hx
    rw [List.head?_cons, Option.mem_some_iff] at hy
    subst hx hy
    exact hne.symm
  · rw [← List.cons_append, List.getLast?_concat]

end UnderWay

/-- The text of a status tells which it is. -/
theorem asStr_injective : Function.Injective Status.asStr := by
  rintro (_ | _ | _ | _) (_ | _ | _ | _) h
  all_goals first | rfl | exact absurd h (by decide)

/-! ### The map follows the traces

The map has the sessions that are under way and the last status of each. It is what decides the next
entry of a trace, and so it is what the invariant is about. -/

/-- The sessions in the map are those under way. -/
structure Traced (s : List Call × Known) : Prop where
  wellFormed : ∀ id, WellFormed (trace id s.1)
  /-- Nothing is said of a session that was not given out. -/
  undiscovered : ∀ id, id ∉ discoveredIds s.1 → trace id s.1 = []
  underWay : ∀ key id status, s.2.lookup key = some (id, status) →
    UnderWay status.asStr (trace id s.1)
  /-- A session is under one key. -/
  distinct : ∀ key key' state state', s.2.lookup key = some state →
    s.2.lookup key' = some state' → state.1 = state'.1 → key = key'

theorem traced_start : Traced ([], ∅) where
  wellFormed _ := Or.inl rfl
  undiscovered _ _ := rfl
  underWay key id status h := by
    rw [AList.lookup_empty] at h
    cases h
  distinct key key' state state' h := by
    rw [AList.lookup_empty] at h
    cases h

namespace Traced

variable {log : List Call} {known : Known} (h : Traced (log, known)) {call : Call} {key : String}
  {id : Uuid}
include h

/-- Another pane has another session. -/
theorem ne_of_ne {state state' : PaneState} {k : String} (hknown : known.lookup key = some state)
    (hk : known.lookup k = some state') (hne : k ≠ key) : state'.1 ≠ state.1 :=
  fun heq => hne (h.distinct k key state' state hk hknown heq)

/-- A session that is under way was given out. -/
theorem mem_discoveredIds {state : PaneState} (hknown : known.lookup key = some state) :
    state.1 ∈ discoveredIds log := by
  by_contra hid
  exact (h.underWay key state.1 state.2 hknown).ne_nil (h.undiscovered state.1 hid)

/-- A call that fits its session keeps all traces well formed. -/
theorem wellFormed_concat {event : Event} (hcall : call.about? = some (id, event))
    (hself : WellFormed (trace id log ++ [event])) (other : Uuid) :
    WellFormed (trace other (log ++ [call])) := by
  rw [trace_concat log hcall]
  split_ifs
  · exact hself
  · exact h.wellFormed other

/-- A report is about a session that was given out. -/
theorem undiscovered_concat {event : Event} {state : PaneState}
    (hknown : known.lookup key = some state) (hcall : call.about? = some (state.1, event))
    (hevent : event ≠ .discovered) (other : Uuid) (hother : other ∉ discoveredIds (log ++ [call])) :
    trace other (log ++ [call]) = [] := by
  rw [discoveredIds_concat_of_ne log hcall hevent] at hother
  have hne : other ≠ state.1 := by
    rintro rfl
    exact hother (h.mem_discoveredIds hknown)
  rw [trace_concat log hcall, if_neg hne]
  exact h.undiscovered other hother

theorem pass (hcall : call.about? = none) : Traced (log ++ [call], known) where
  wellFormed other := by
    rw [trace_concat_of_none log hcall]
    exact h.wellFormed other
  undiscovered other hother := by
    rw [discoveredIds_concat_of_none log hcall] at hother
    rw [trace_concat_of_none log hcall]
    exact h.undiscovered other hother
  underWay key other status hkey := by
    rw [trace_concat_of_none log hcall]
    exact h.underWay key other status hkey
  distinct := h.distinct

/-- A session is given out that was not given out before. -/
theorem discover (hcall : call.about? = some (id, .discovered)) (hid : id ∉ discoveredIds log) :
    Traced (log ++ [call], known.insert key (id, .starting)) := by
  have hnew : trace id log = [] := h.undiscovered id hid
  have hbegins : UnderWay "starting" (trace id log ++ [.discovered]) := by
    rw [hnew]
    exact underWay_discovered
  -- no pane has it yet, as those that a pane has were given out
  have hunused (k : String) (state : PaneState) (hk : known.lookup k = some state) :
      state.1 ≠ id := by
    rintro rfl
    exact hid (h.mem_discoveredIds hk)
  refine ⟨h.wellFormed_concat hcall hbegins.wellFormed, fun other hother => ?_,
    fun k other status hk => ?_, fun k k' state state' hk hk' heq => ?_⟩
  · rw [discoveredIds_concat log hcall, List.mem_append, List.mem_singleton, not_or] at hother
    rw [trace_concat log hcall, if_neg hother.2]
    exact h.undiscovered other hother.1
  · rw [trace_concat log hcall]
    rcases lookup_insert_eq_some.mp hk with ⟨-, heq⟩ | ⟨-, hk⟩
    · obtain ⟨rfl, rfl⟩ := Prod.mk.inj heq
      rw [if_pos rfl]
      exact hbegins
    · rw [if_neg (hunused k _ hk)]
      exact h.underWay k other status hk
  · rcases lookup_insert_eq_some.mp hk with ⟨rfl, rfl⟩ | ⟨-, hold⟩
    · rcases lookup_insert_eq_some.mp hk' with ⟨rfl, -⟩ | ⟨-, hold'⟩
      · rfl
      · exact absurd heq.symm (hunused k' state' hold')
    · rcases lookup_insert_eq_some.mp hk' with ⟨-, rfl⟩ | ⟨-, hold'⟩
      · exact absurd heq (hunused k state hold)
      · exact h.distinct k k' state state' hold hold' heq

theorem change {prev new : Status} (hknown : known.lookup key = some (id, prev)) (hnew : new ≠ prev)
    (hcall : call.about? = some (id, .statusChanged new.asStr)) :
    Traced (log ++ [call], known.insert key (id, new)) := by
  have hunderWay := (h.underWay key id prev hknown).statusChanged (asStr_injective.ne hnew)
  refine ⟨h.wellFormed_concat hcall hunderWay.wellFormed,
    h.undiscovered_concat hknown hcall nofun, fun k other status hk => ?_,
    fun k k' state state' hk hk' heq => ?_⟩
  · rw [trace_concat log hcall]
    rcases lookup_insert_eq_some.mp hk with ⟨-, heq⟩ | ⟨hne, hk⟩
    · obtain ⟨rfl, rfl⟩ := Prod.mk.inj heq
      rw [if_pos rfl]
      exact hunderWay
    · rw [if_neg (h.ne_of_ne hknown hk hne)]
      exact h.underWay k other status hk
  · -- the slot keeps its session
    have hslot (k : String) (state : PaneState)
        (hk : (known.insert key (id, new)).lookup k = some state) :
        ∃ old, known.lookup k = some old ∧ old.1 = state.1 := by
      rcases lookup_insert_eq_some.mp hk with ⟨rfl, rfl⟩ | ⟨-, hold⟩
      · exact ⟨_, hknown, rfl⟩
      · exact ⟨state, hold, rfl⟩
    obtain ⟨old, hold, hid⟩ := hslot k state hk
    obtain ⟨old', hold', hid'⟩ := hslot k' state' hk'
    exact h.distinct k k' old old' hold hold' (hid.trans (heq.trans hid'.symm))

theorem finish {state : PaneState} (hknown : known.lookup key = some state)
    (hcall : call.about? = some (state.1, .finished)) :
    Traced (log ++ [call], known.erase key) := by
  have hends := (h.underWay key state.1 state.2 hknown).wellFormed_finished
  refine ⟨h.wellFormed_concat hcall hends, h.undiscovered_concat hknown hcall nofun,
    fun k other status hk => ?_, fun k k' state state' hk hk' heq => ?_⟩
  · obtain ⟨hne, hk⟩ := lookup_erase_eq_some.mp hk
    rw [trace_concat log hcall, if_neg (h.ne_of_ne hknown hk hne)]
    exact h.underWay k other status hk
  · exact h.distinct k k' state state' (lookup_erase_eq_some.mp hk).2
      (lookup_erase_eq_some.mp hk').2 heq

end Traced

/-! ### Runs

Every run is a list of moves, and each move keeps the invariant. That no session is given out twice
is asked of the whole list of calls, and so holds of each part of it. -/

variable {polled : List String}

/-- No call takes back a session that was given out. -/
theorem Move.discoveredIds_prefix {s t : List Call × Known} (h : Move polled s t) :
    discoveredIds s.1 <+: discoveredIds t.1 := by
  obtain ⟨call, hlog⟩ := h.exists_call
  unfold discoveredIds
  rw [hlog, List.filterMap_append]
  exact List.prefix_append _ _

/-- **What a single call keeps.** -/
theorem Traced.move {s t : List Call × Known} (h : Traced s) (hmove : Move polled s t)
    (hnodup : (discoveredIds t.1).Nodup) : Traced t := by
  cases hmove with
  | pass hcall => exact h.pass hcall
  | discover hcall hkey =>
    rw [discoveredIds_concat _ hcall, ← List.concat_eq_append, List.nodup_concat] at hnodup
    exact h.discover hcall hnodup.1
  | change hknown hpolled hnew hcall => exact h.change hknown hnew hcall
  | finish hknown hcall => exact h.finish hknown hcall

theorem Traced.moves {s t : List Call × Known} (h : Traced s) (hmoves : Moves polled s t)
    (hnodup : (discoveredIds t.1).Nodup) : Traced t := by
  induction hmoves with
  | refl => exact h
  | tail _ hmove ih =>
    exact (ih (hnodup.sublist hmove.discoveredIds_prefix.sublist)).move hmove hnodup

variable {σ : Type}

theorem traced_run (c : Client σ) (panes : List OpencodePane) (w : σ) (ticks : List Tick)
    (hdistinct : (discoveredIds (run c.recorded panes (w, []) ticks).1.2).Nodup) :
    Traced (view (run c.recorded panes (w, []) ticks)) :=
  traced_start.moves (moves_run panes w ticks) hdistinct

/-- **Every trace is well formed**, whatever tmux gives, in whatever order the watcher looks and
whichever calls fail, if the daemon gives no session out twice. The client is any with a state of
its own, so that nothing is assumed of the daemon but this one thing about the identifiers it
answers with. -/
theorem wellFormed_trace (c : Client σ) (panes : List OpencodePane) (w : σ) (ticks : List Tick)
    (hdistinct : (discoveredIds (run c.recorded panes (w, []) ticks).1.2).Nodup) (id : Uuid) :
    WellFormed (trace id (run c.recorded panes (w, []) ticks).1.2) :=
  (traced_run c panes w ticks hdistinct).wellFormed id

/-! ### A daemon to run against

A daemon that numbers the sessions it gives out, and takes a report or not as it is told. -/

/-- A daemon that gives out a new session to every `session.discover`, and takes a report
when `takes` says so, each time by how many calls there were. -/
def numbering (takes : ℕ → Bool) : Client ℕ where
  call n method _ :=
    (n + 1, if method = Method.sessionDiscover then
        some (.object [("ok", .bool true), ("session_id", .string (Uuid.ofTimeLow n).toText)])
      else if takes n then some (.object [("ok", .bool true)])
      else none)
  chronoNow _ := "2026-01-01T00:00:00Z"

/-- A pane with opencode in it. -/
def devPane : OpencodePane := ⟨"dev", "%0", 1, "/tmp/proj"⟩

/-- A pane that is listed twice at the start, starts to work and goes away, while every report
fails. -/
theorem wellFormed_trace_twice :
    WellFormed (trace (.ofTimeLow 1) (run (numbering fun _ => false).recorded [devPane, devPane]
      (0, []) [.poll fun _ => "Compiling", .paneCheck (some [])]).1.2) :=
  wellFormed_trace _ _ _ _ (by decide +kernel) _

example : trace (.ofTimeLow 1) (run (numbering fun _ => false).recorded [devPane, devPane]
    (0, []) [.poll fun _ => "Compiling", .paneCheck (some [])]).1.2 =
      [.discovered, .statusChanged "working", .finished] := by
  decide +kernel

end Agentd.Watcher
