import Agentd.Foundations.Observers
import Agentd.Tui.Converge

/-!
# Events out of the order of their writes

A handler writes to the database and then emits its event, and the two are not one step:
handlers run on threads of their own, and another may come in between. An
`Agentd.Flight` is the daemon with the events that have been written for and are still to be
emitted, in the order of the writes; any of them may be the next to be emitted.

Events are patches, so a dashboard that gets two of them in the wrong order keeps the older
value. `Agentd.inSync_run` says when this does not happen: when no event overtakes
one it interferes with (`Agentd.Event.Interferes`), and no request revives a session that had
finished, the dashboard is in sync again once all events are out. Events that do not interfere
commute before an observer of names and statuses, and
`Observer.view_overtake` puts them back in order.
-/

namespace Agentd

open Json
open Plugin (Report)

/-! ### The head of a line

Name and status are what a dashboard shows of a session in every state. To the name and the status
an edit either does nothing, or it sets one of them, or the line comes or goes; two edits commute
unless they set the same of the two, or one of them makes the line come or go. -/

/-- The name and the status of a session. -/
def View.head (v : View) : String × String :=
  (v.name, v.status)

/-- Name and status of a line on the screen are changed by what is seen of them. -/
def headObserver : Observer Edit.onScreen (Option (String × String)) where
  view c := c.map View.head
  congr := by
    intro c c' e h
    cases e with
    | put v => rfl
    | finish => rfl
    | patch p =>
      cases c with
      | none =>
        cases c' with
        | none => rfl
        | some v' => cases h
      | some v =>
        cases c' with
        | none => cases h
        | some v' =>
          obtain ⟨hname, hstatus⟩ := Prod.mk.inj (Option.some.inj h)
          cases p <;> simp [Edit.onScreen, View.patch, View.head, hname, hstatus]

/-- Whether a line is live can be told from its status. -/
theorem map_head_live (c : Option View) :
    (live c).map View.head = (headObserver.view c).filter fun h => h.2 ≠ "finished" := by
  cases c with
  | none => rfl
  | some v =>
    by_cases h : v.status = "finished"
    · rw [live_some_of_finished h]
      simp [headObserver, View.head, h, Option.filter]
    · rw [live_some_of_live h]
      simp [headObserver, View.head, h, Option.filter]

/-- **Screen and row stay in agreement** on the names and statuses of what is live, through
any fitting edits. -/
theorem map_head_live_foldl {es : List Edit} {t c : Option View}
    (h : (live t).map View.head = (live c).map View.head) (hfit : Fitting c es) :
    (live (es.foldl Edit.onScreen t)).map View.head =
      (live (es.foldl Edit.onRow c)).map View.head := by
  -- a line that looks like the one on the screen and agrees with the row altogether
  have hline : ∃ t', headObserver.view t' = headObserver.view t ∧ live t' = live c := by
    cases hc : live c with
    | none =>
      rw [hc, Option.map_none, Option.map_eq_none_iff] at h
      exact ⟨t, rfl, h⟩
    | some v =>
      rw [hc, Option.map_some] at h
      obtain ⟨u, hu, hhead⟩ := Option.map_eq_some_iff.mp h
      refine ⟨c, ?_, hc⟩
      rw [eq_some_of_live hc, eq_some_of_live hu]
      exact congrArg some hhead.symm
  obtain ⟨t', hview, hlive⟩ := hline
  rw [← live_foldl hlive hfit, map_head_live, map_head_live, headObserver.congr_foldl es hview]

namespace Edit

/-- The line comes to be. -/
def Announces : Edit → Prop
  | put _ => True
  | _ => False

/-- The line goes. -/
def Ends : Edit → Prop
  | finish => True
  | _ => False

/-- The name on the line is set. -/
def SetsName : Edit → Prop
  | put _ | patch (.name _) => True
  | _ => False

/-- The status on the line is set. -/
def SetsStatus : Edit → Prop
  | put _ | patch (.status _) => True
  | _ => False

/-- The order of the two edits shows in the name or the status. -/
def Interferes (e f : Edit) : Prop :=
  e.SetsName ∧ f.SetsName ∨ e.SetsStatus ∧ f.SetsStatus ∨ e.Announces ∧ f.Ends ∨
    e.Ends ∧ f.Announces

/-- **Edits that do not interfere commute**, as far as names and statuses go. -/
theorem commute_of_not_interferes {e f : Edit} (h : ¬e.Interferes f) : headObserver.Commute e f := by
  simp only [Interferes, not_or, not_and] at h
  obtain ⟨hname, hstatus, hends, hends'⟩ := h
  intro c
  cases e with
  | put v =>
    cases f with
    | put w => exact absurd trivial (hname trivial)
    | finish => exact absurd trivial (hends trivial)
    | patch p =>
      cases p with
      | name n => exact absurd trivial (hname trivial)
      | status s => exact absurd trivial (hstatus trivial)
      | task t => rfl
  | finish =>
    cases f with
    | put w => exact absurd trivial (hends' trivial)
    | finish => rfl
    | patch p => rfl
  | patch p =>
    cases f with
    | finish => rfl
    | put w =>
      cases p with
      | name n => exact absurd trivial (hname trivial)
      | status s => exact absurd trivial (hstatus trivial)
      | task t => rfl
    | patch q =>
      cases c with
      | none => rfl
      | some v =>
        -- two patches of one part interfere, of two parts they commute
        cases p <;> cases q
        · exact absurd trivial (hname trivial)
        · rfl
        · rfl
        · rfl
        · exact absurd trivial (hstatus trivial)
        · rfl
        · rfl
        · rfl
        · rfl

end Edit

/-! ### Events that interfere

An event is looked at through the edit it stands for. So whether two of them interfere can be told
from their kinds and from the session they name, without the state they meet. -/

namespace Event

/-- The event announces a session. -/
def Announces (e : Event) : Prop :=
  e.kind = "session.created" ∨ e.kind = "session.discovered"

/-- The event ends a session. -/
def Ends (e : Event) : Prop :=
  e.kind = "session.killed" ∨ e.kind = "session.finished"

/-- The event sets the name of a session. -/
def SetsName (e : Event) : Prop :=
  e.Announces ∨ e.kind = "session.renamed"

/-- The event sets the status of a session. -/
def SetsStatus (e : Event) : Prop :=
  e.Announces ∨ e.kind = "session.status_changed" ∨ e.kind = "session.dismissed_error"

/-- Both events are about one session, and a dashboard that gets them in the other order
shows another name or status of it, or whether it is there. -/
def Interferes (e f : Event) : Prop :=
  e.sessionId.isSome ∧ e.sessionId = f.sessionId ∧
    (e.SetsName ∧ f.SetsName ∨ e.SetsStatus ∧ f.SetsStatus ∨ e.Announces ∧ f.Ends ∨
      e.Ends ∧ f.Announces)

instance (e f : Event) : Decidable (e.Interferes f) := by
  unfold Interferes SetsName SetsStatus Announces Ends
  infer_instance

/-- The event names the session it is about. -/
def Coherent (e : Event) : Prop :=
  ∀ id ed, e.edit? id = some ed → e.sessionId = some id

/-- Only events that announce a session can name another one. -/
theorem coherent_of_not_announces {e : Event} (h : ¬e.Announces) : e.Coherent := by
  intro id ed hed
  unfold edit? at hed
  -- the other kinds are only looked at when the event names the session
  rw [if_neg (show ¬(_ ∨ _) from h)] at hed
  by_contra hne
  rw [if_pos hne] at hed
  cases hed

/-- The event does what its edit does. -/
theorem of_edit? {e : Event} {id : Uuid} {ed : Edit} (h : e.edit? id = some ed) :
    (ed.Announces → e.Announces) ∧ (ed.Ends → e.Ends) ∧ (ed.SetsName → e.SetsName) ∧
      (ed.SetsStatus → e.SetsStatus) := by
  unfold edit? at h
  split_ifs at h with hcreated hid hrenamed hended hstatus hdismissed htask
  · obtain ⟨s, -, hput⟩ := Option.bind_eq_some_iff.mp h
    split_ifs at hput
    obtain rfl := Option.some.inj hput
    exact ⟨fun _ => hcreated, False.elim, fun _ => Or.inl hcreated, fun _ => Or.inl hcreated⟩
  · obtain ⟨name, -, rfl⟩ := Option.map_eq_some_iff.mp h
    exact ⟨False.elim, False.elim, fun _ => Or.inr hrenamed, False.elim⟩
  · obtain rfl := Option.some.inj h
    exact ⟨False.elim, fun _ => hended, False.elim, False.elim⟩
  · obtain ⟨status, -, rfl⟩ := Option.map_eq_some_iff.mp h
    exact ⟨False.elim, False.elim, False.elim, fun _ => Or.inr (Or.inl hstatus)⟩
  · obtain rfl := Option.some.inj h
    exact ⟨False.elim, False.elim, False.elim, fun _ => Or.inr (Or.inr hdismissed)⟩
  · obtain ⟨task, -, rfl⟩ := Option.map_eq_some_iff.mp h
    exact ⟨False.elim, False.elim, False.elim, False.elim⟩

/-- **Events that do not interfere commute** on every line. -/
theorem commute_of_not_interferes {e f : Event} (he : e.Coherent) (hf : f.Coherent)
    (h : ¬e.Interferes f) {id : Uuid} {ed fd : Edit} (hed : e.edit? id = some ed)
    (hfd : f.edit? id = some fd) : headObserver.Commute ed fd := by
  obtain ⟨hann, hends, hname, hstatus⟩ := of_edit? hed
  obtain ⟨hann', hends', hname', hstatus'⟩ := of_edit? hfd
  refine Edit.commute_of_not_interferes fun hint => h ?_
  have hid := he id ed hed
  refine ⟨by rw [hid]; rfl, by rw [hid, hf id fd hfd], ?_⟩
  exact hint.imp (And.imp hname hname') (Or.imp (And.imp hstatus hstatus')
    (Or.imp (And.imp hann hends') (And.imp hends hann')))

end Event

/-- Every event a request emits names the session it is about. -/
theorem coherent_of_mem_events {db : Db} {i : Input} {e : Event}
    (he : e ∈ (handle db i).events) : e.Coherent := by
  -- what stands for a change does not announce
  have hnot {e : Event} {c : Change} (h : e.Describes c) : ¬e.Announces := by
    rintro hann
    cases c with
    | rename name => rcases hann with hk | hk <;> simp [Event.Describes, hk] at h
    | status new at_ => rcases hann with hk | hk <;> simp [Event.Describes, hk] at h
    | task text at_ => rcases hann with hk | hk <;> simp [Event.Describes, hk] at h
    | usage used total cost at_ => rcases hann with hk | hk <;> simp [Event.Describes, hk] at h
    | finish at_ => rcases hann with hk | hk <;> simp [Event.Describes, hk] at h
  cases handle_footprint db i with
  | refused _ _ hevents => rw [hevents] at he; cases he
  | logged _ _ _ _ _ _ hevents => rw [hevents] at he; cases he
  | answered _ _ hevents =>
    intro id ed hed
    rw [Event.edit?_of_inert (hevents e he)] at hed
    cases hed
  | inserted s kind _ _ hkind hevents =>
    rw [hevents, List.mem_singleton] at he
    subst he
    intro id ed hed
    rw [Event.edit?_of_toValue rfl hkind] at hed
    split_ifs at hed with hid
    rw [← hid]
  | updated _ _ _ _ _ _ _ _ _ _ _ _ hevents _ hdescribes =>
    rw [hevents, List.mem_singleton] at he
    exact he ▸ Event.coherent_of_not_announces (hnot hdescribes)
  | reported _ _ _ _ _ _ _ hevents _ hdescribes =>
    rw [hevents, List.mem_singleton] at he
    exact he ▸ Event.coherent_of_not_announces (hnot hdescribes)

/-! ### Handlers in flight

A handler writes to the database and emits its event afterwards, and others may do both in between.
The state has what was written and not yet emitted; a step is a write, which also makes the events
that are pending, or the emission of any of these. -/

/-- The daemon between the writes of requests and the events they emit. -/
structure Flight where
  db : Db
  /-- What was written for and is still to be emitted, in the order of the writes. -/
  pending : List Event
  /-- What was emitted, in order. -/
  bus : List Event

namespace Flight

/-- One step of a handler. -/
inductive Action
  /-- The database update of a request. -/
  | write (i : Input)
  /-- The emission of a pending event, of whichever handler comes first. -/
  | emit (n : ℕ)

/-- The daemon after a step. -/
def step (s : Flight) : Action → Flight
  | .write i =>
    { s with db := next s.db i, pending := s.pending ++ (handle s.db i).events }
  | .emit n => match s.pending[n]? with
    | none => s
    | some e => { s with pending := s.pending.eraseIdx n, bus := s.bus ++ [e] }

/-- The daemon with no request in flight. -/
def idle (db : Db) : Flight :=
  ⟨db, [], []⟩

/-- The step revives no session, and emits no event before one it interferes with. -/
def InOrder (s : Flight) : Action → Prop
  | .write i => ¬Revives s.db i
  | .emit n => ∀ f ∈ s.pending[n]?, ∀ e ∈ s.pending.take n, ¬e.Interferes f

instance (s : Flight) (n : ℕ) : Decidable (s.InOrder (.emit n)) :=
  inferInstanceAs (Decidable (∀ f ∈ s.pending[n]?, ∀ e ∈ s.pending.take n, ¬e.Interferes f))

/-- The dashboard that was `st₀` has the names and statuses of the database ahead of it,
when it gets all events in the order of their writes. -/
structure Tracks (st₀ : TuiState) (s : Flight) : Prop where
  canonical : s.db.CanonicalIds
  coherent : ∀ e ∈ s.pending, e.Coherent
  heads : ∀ id, (live ((editsOf (s.bus ++ s.pending) id).foldl Edit.onScreen (st₀.cell id))).map
    View.head = (live (s.db.cell id)).map View.head

theorem tracks_write {st₀ : TuiState} {s : Flight} (h : s.Tracks st₀) {i : Input}
    (hi : ¬Revives s.db i) : (s.step (.write i)).Tracks st₀ where
  canonical := canonicalIds_next h.canonical i
  coherent e he := by
    rcases List.mem_append.mp he with he | he
    · exact h.coherent e he
    · exact coherent_of_mem_events he
  heads id := by
    have hsynced := synced_handle s.db i id
    have hstep := map_head_live_foldl (h.heads id) (hsynced.fitting hi)
    rw [← hsynced.cell] at hstep
    rw [step, ← List.append_assoc, editsOf_append, List.foldl_append]
    exact hstep

/-- An emission takes one event out of those that are pending. -/
theorem step_emit {s : Flight} {n : ℕ} {f : Event} (hf : s.pending[n]? = some f) :
    ∃ fs, s.pending = s.pending.take n ++ f :: fs ∧
      s.step (.emit n) = ⟨s.db, s.pending.take n ++ fs, s.bus ++ [f]⟩ := by
  obtain ⟨hlt, rfl⟩ := List.getElem?_eq_some_iff.mp hf
  refine ⟨s.pending.drop (n + 1), ?_, ?_⟩
  · rw [← List.drop_eq_getElem_cons hlt, List.take_append_drop]
  · simp only [step, hf, List.eraseIdx_eq_take_drop_succ]

theorem tracks_emit {st₀ : TuiState} {s : Flight} (h : s.Tracks st₀) {n : ℕ}
    (hn : s.InOrder (.emit n)) : (s.step (.emit n)).Tracks st₀ := by
  cases hf : s.pending[n]? with
  | none =>
    have hstep : s.step (.emit n) = s := by simp only [step, hf]
    rwa [hstep]
  | some f =>
    obtain ⟨fs, hpending, hstep⟩ := step_emit hf
    have hn : ∀ e ∈ s.pending.take n, ¬e.Interferes f := hn f hf
    rw [hstep]
    -- from here on only the parts of the list of pending events matter
    generalize s.pending.take n = es at hn hpending
    have hcoherent := h.coherent
    rw [hpending] at hcoherent
    refine ⟨h.canonical, fun e he => hcoherent e ?_, fun id => ?_⟩
    · rcases List.mem_append.mp he with he | he
      · exact List.mem_append_left _ he
      · exact List.mem_append_right _ (List.mem_cons_of_mem _ he)
    · rw [← h.heads id, hpending, map_head_live, map_head_live]
      congr 1
      simp only [editsOf_append, editsOf_cons, editsOf_nil, List.foldl_append]
      cases hfd : f.edit? id with
      | none => rfl
      | some fd =>
        have hcommute : ∀ ed ∈ editsOf es id, headObserver.Commute ed fd := by
          intro ed hed
          obtain ⟨e, he, hed⟩ := List.mem_filterMap.mp hed
          exact Event.commute_of_not_interferes (hcoherent e (List.mem_append_left _ he))
            (hcoherent f (List.mem_append_right _ List.mem_cons_self)) (hn e he) hed hfd
        -- put back where it was written, it sees what it saw then
        have hmove := headObserver.view_overtake hcommute (editsOf fs id)
          ((editsOf s.bus id).foldl Edit.onScreen (st₀.cell id))
        simpa [List.foldl_append] using hmove

theorem tracks_run {st₀ : TuiState} {s : Flight} (h : s.Tracks st₀) {l : List Action}
    (hl : Machine.Along step InOrder s l) : (Machine.run step s l).Tracks st₀ := by
  refine (Machine.Along.throughout (P := Tracks st₀) (fun s a hs ha => ?_) l s hl h).last
  cases a with
  | write i => exact tracks_write hs ha
  | emit n => exact tracks_emit hs ha

end Flight

/-! ### In sync

The dashboard that gets all pending events in the order of their writes is the one that has to agree
with the database. That an emission out of this order leads to the same lines is what has to be
seen, and is so when it overtakes nothing that it interferes with. -/

/-- The live sessions on the screen, with name and status. -/
def TuiState.liveHeads (st : TuiState) : Set (String × String × String) :=
  {p | ∃ s ∈ st.sessions, s.status ≠ .finished ∧ p = (s.id.toText, s.displayName, s.status.toText)}

/-- The live sessions of the database, with name and status. -/
def Db.liveHeads (db : Db) : Set (String × String × String) :=
  {p | ∃ row ∈ db.sessions.rows, row.status ≠ "finished" ∧ p = (row.id, row.displayName, row.status)}

/-- The dashboard shows the live sessions, each once, with the name and the status of its
row. -/
structure InSync (st : TuiState) (db : Db) : Prop where
  nodup : st.IdsNodup
  heads : st.liveHeads = db.liveHeads

theorem TuiState.mem_liveHeads {st : TuiState} (hst : st.IdsNodup) {id : Uuid}
    {h : String × String} :
    (id.toText, h) ∈ st.liveHeads ↔ (live (st.cell id)).map View.head = some h := by
  rw [Option.map_eq_some_iff]
  simp only [← mem_liveViews hst]
  constructor
  · rintro ⟨s, hs, hlive, hp⟩
    obtain ⟨hid, rfl⟩ := Prod.mk.inj hp
    exact ⟨s.view, ⟨s, hs, hlive, by rw [hid]⟩, rfl⟩
  · rintro ⟨v, ⟨s, hs, hlive, hp⟩, rfl⟩
    obtain ⟨hid, rfl⟩ := Prod.mk.inj hp
    exact ⟨s, hs, hlive, by rw [hid]; rfl⟩

theorem Db.mem_liveHeads {db : Db} {id : Uuid} {h : String × String} :
    (id.toText, h) ∈ db.liveHeads ↔ (live (db.cell id)).map View.head = some h := by
  rw [Option.map_eq_some_iff]
  simp only [← mem_liveViews]
  constructor
  · rintro ⟨row, hrow, hlive, hp⟩
    obtain ⟨hid, rfl⟩ := Prod.mk.inj hp
    exact ⟨row.view, ⟨row, hrow, hlive, by rw [hid]⟩, rfl⟩
  · rintro ⟨v, ⟨row, hrow, hlive, hp⟩, rfl⟩
    obtain ⟨hid, rfl⟩ := Prod.mk.inj hp
    exact ⟨row, hrow, hlive, by rw [hid]; rfl⟩

theorem liveHeads_eq_iff {st : TuiState} {db : Db} (hst : st.IdsNodup) (hdb : db.CanonicalIds) :
    st.liveHeads = db.liveHeads ↔
      ∀ id, (live (st.cell id)).map View.head = (live (db.cell id)).map View.head := by
  have hscreen : ∀ p ∈ st.liveHeads, ∃ id : Uuid, p.1 = id.toText := by
    rintro _ ⟨s, -, -, rfl⟩
    exact ⟨s.id, rfl⟩
  have hrows : ∀ p ∈ db.liveHeads, ∃ id : Uuid, p.1 = id.toText := by
    rintro _ ⟨row, hrow, -, rfl⟩
    exact hdb row hrow
  rw [eq_iff_of_ids hscreen hrows]
  simp only [TuiState.mem_liveHeads hst, Db.mem_liveHeads]
  exact forall_congr' fun id => ⟨fun h => Option.ext h, fun h v => by rw [h]⟩

/-- A fresh snapshot is in sync. -/
theorem inSync_fromSnapshot {db : Db} (hdb : Reachable db) {params snap : Value}
    (hsnap : Read.dispatch Method.stateSnapshot params db = some snap) :
    InSync (.fromSnapshot snap) db := by
  have hcanonical := canonicalIds_of_reachable hdb
  have hnodup := idsNodup_fromSnapshot hsnap hcanonical
  refine ⟨hnodup, (liveHeads_eq_iff hnodup hcanonical).mpr fun id => ?_⟩
  rw [cell_fromSnapshot hsnap hcanonical]

/-- **A dashboard that was in sync is in sync again when all events are out**, if they
came in order: no event overtook one it interferes with, and no request revived a
session. -/
theorem inSync_run {d₀ : Db} {st₀ : TuiState} (h₀ : Reachable d₀) (hsync : InSync st₀ d₀)
    {l : List Flight.Action} (hl : Machine.Along Flight.step Flight.InOrder (.idle d₀) l)
    (hdone : (Machine.run Flight.step (.idle d₀) l).pending = [])
    {events : List (Instant × Event)}
    (hevents : events.map Prod.snd = (Machine.run Flight.step (.idle d₀) l).bus) :
    InSync (st₀.applyEvents events) (Machine.run Flight.step (.idle d₀) l).db := by
  have hcanonical := canonicalIds_of_reachable h₀
  have hstart : (Flight.idle d₀).Tracks st₀ :=
    ⟨hcanonical, fun _ he => absurd he List.not_mem_nil,
      (liveHeads_eq_iff hsync.nodup hcanonical).mp hsync.heads⟩
  have hend := Flight.tracks_run hstart hl
  have hnodup := TuiState.idsNodup_applyEvents events hsync.nodup
  refine ⟨hnodup, (liveHeads_eq_iff hnodup hend.canonical).mpr fun id => ?_⟩
  have hheads := hend.heads id
  rwa [hdone, List.append_nil, ← hevents, ← TuiState.cell_applyEvents] at hheads

theorem not_revives_of_live {db : Db} (h : ∀ row ∈ db.sessions.rows, row.status ≠ "finished")
    (i : Input) : ¬Revives db i := by
  rintro ⟨rep, row, new, hrep, hstatus, -⟩
  exact h row hrep.mem hstatus

/-- An empty screen is in sync with a database without sessions. -/
theorem inSync_fresh : InSync {} Db.fresh := by
  have hsnap : Read.dispatch Method.stateSnapshot .null Db.fresh =
      some (Read.snapshot ⟨[], []⟩) := rfl
  exact inSync_fromSnapshot (Machine.Reachable.refl Db.fresh) hsnap

/-- A session is discovered and announced, and renamed; then its owner reports it working, and
that event is out first. -/
def overtakingActions : List Flight.Action :=
  let id := Uuid.ofTimeLow 1
  let amb := Ambient.noon id 2026
  [.write ⟨.discover "opencode" "main" "%1" "/home/u/proj", amb⟩, .emit 0,
   .write ⟨.rename id "first", amb⟩, .write ⟨.reportStatus "opencode" id "working", amb⟩, .emit 1,
   .emit 0]

/-- Events that are all applied at one instant. -/
theorem map_snd_atOnce (es : List Event) :
    (es.map fun e => ((0, e) : Instant × Event)).map Prod.snd = es := by
  rw [List.map_map]
  exact List.map_id es

set_option maxRecDepth 4000 in
/-- A status may overtake a name. -/
theorem inSync_overtaking :
    InSync (TuiState.applyEvents {}
      ((Machine.run Flight.step (.idle Db.fresh) overtakingActions).bus.map fun e => (0, e)))
      (Machine.run Flight.step (.idle Db.fresh) overtakingActions).db := by
  refine inSync_run (Machine.Reachable.refl Db.fresh) inSync_fresh ?_ (by decide) (map_snd_atOnce _)
  exact ⟨not_revives_of_live (by decide) _, by decide, not_revives_of_live (by decide) _,
    not_revives_of_live (by decide) _, by decide, by decide, trivial⟩

/-- A session is discovered and announced, and renamed by two clients; the later name is out
first. -/
def twoRenames : List Flight.Action :=
  let id := Uuid.ofTimeLow 1
  let amb := Ambient.noon id 2026
  [.write ⟨.discover "opencode" "main" "%1" "/home/u/proj", amb⟩, .emit 0,
   .write ⟨.rename id "first", amb⟩, .write ⟨.rename id "second", amb⟩, .emit 1, .emit 0]

set_option maxRecDepth 4000 in
/-- Two renames of one session whose events come out in the other order leave the dashboard
with the older name. -/
theorem not_inSync_twoRenames :
    ¬∀ (d₀ : Db) (st₀ : TuiState) (l : List Flight.Action) (events : List (Instant × Event)),
      Reachable d₀ → InSync st₀ d₀ → (Machine.run Flight.step (.idle d₀) l).pending = [] →
      events.map Prod.snd = (Machine.run Flight.step (.idle d₀) l).bus →
      InSync (st₀.applyEvents events) (Machine.run Flight.step (.idle d₀) l).db := by
  intro h
  have hsync := h Db.fresh {} twoRenames
    ((Machine.run Flight.step (.idle Db.fresh) twoRenames).bus.map fun e => (0, e))
    (Machine.Reachable.refl Db.fresh) inSync_fresh (by decide) (map_snd_atOnce _)
  have hrow : ∃ row ∈ (Machine.run Flight.step (.idle Db.fresh) twoRenames).db.sessions.rows,
      row.status ≠ "finished" ∧ row.displayName = "second" := by decide +kernel
  have hscreen : ∀ s ∈ (TuiState.applyEvents {}
      ((Machine.run Flight.step (.idle Db.fresh) twoRenames).bus.map fun e => (0, e))).sessions,
      s.displayName ≠ "second" := by decide +kernel
  obtain ⟨row, hmem, hlive, hname⟩ := hrow
  have hlisted : (row.id, row.displayName, row.status) ∈ Db.liveHeads _ := ⟨row, hmem, hlive, rfl⟩
  rw [← hsync.heads] at hlisted
  obtain ⟨s, hs, -, hp⟩ := hlisted
  obtain ⟨-, hp⟩ := Prod.mk.inj hp
  exact hscreen s hs ((Prod.mk.inj hp).1.symm.trans hname)

end Agentd
