import Agentd.Watcher.Model
import Mathlib.Logic.Relation

/-!
# The calls of a watcher

Any client can be made to keep a list of the calls that are made through it
(`Agentd.Watcher.Client.recorded`). What a call is about is read from its parameters and its
answer as the daemon reads them, so that a trace leaves out no call about a session.

Whatever a run does comes in single calls, and a call changes the list of calls and the map
`known` in one of four ways (`Agentd.Watcher.Move`). `Agentd.Watcher.moves_run` is what every result
about the calls of a run is proved from.
-/

namespace Agentd.Watcher

open Json Relation

/-! ### Calls

A call is a method, its parameters and what came back. What it says of which session is read off
these, by the same lookups as the daemon makes, so that nothing about a call has to be trusted. -/

/-- A call, and its answer. -/
structure Call where
  method : String
  params : Value
  answer : Option Value

/-- What a call says of a session. -/
inductive Event
  /-- The session was given out by an answer to `session.discover`. -/
  | discovered
  | statusChanged (status : String)
  | finished
  /-- Any other report. -/
  | other
deriving DecidableEq

/-- The event in the parameters of `session.report_event`. -/
def eventOf (params : Value) : Event :=
  if params.getStr "type" = some "session.status_changed" then
    .statusChanged (((params.get "payload").bind fun payload => payload.getStr "status").getD "")
  else if params.getStr "type" = some "session.finished" then .finished
  else .other

namespace Call

/-- The session a call is about, and what it says of it. -/
def about? (call : Call) : Option (Uuid × Event) :=
  if call.method = Method.sessionDiscover then
    (call.answer.bind sessionIdOf).map fun id => (id, .discovered)
  else if call.method = Method.sessionReportEvent then
    ((call.params.getStr "session_id").bind Uuid.parseStr).map fun id => (id, eventOf call.params)
  else none

/-- The key of the pane that a `session.discover` is for. -/
def key? (call : Call) : Option String :=
  (call.params.getStr "tmux_session").bind fun session =>
    (call.params.getStr "tmux_pane_id").map fun pane => paneKeyFrom session pane

/-- The session that the answer to a `session.discover` names. -/
def discovered? (call : Call) : Option Uuid :=
  (call.about?.filter fun about => about.2 = .discovered).map (·.1)

theorem discovered?_eq_some {call : Call} {id : Uuid} :
    call.discovered? = some id ↔ call.about? = some (id, .discovered) := by
  unfold discovered?
  rcases call.about? with _ | ⟨id', event⟩
  · simp
  · simp [Option.filter_some, and_comm]

/-- The daemon did what the call asks for. -/
def accepted (call : Call) : Bool :=
  call.answer.isSome

/-- A call of `AgentdClient::discover`. -/
def discover (tmuxSession tmuxPaneId workingDir : String) (answer : Option Value) : Call :=
  ⟨Method.sessionDiscover, discoverParams tmuxSession tmuxPaneId workingDir, answer⟩

/-- A call of `AgentdClient::report_event`. -/
def report (id : Uuid) (kind : String) (payload : Value) (ts : String) (answer : Option Value) :
    Call :=
  ⟨Method.sessionReportEvent, .object [("payload", payload), ("session_id", .string id.toText),
    ("ts", .string ts), ("type", .string kind)], answer⟩

@[simp] theorem about?_discover (s p d : String) (answer : Option Value) :
    (discover s p d answer).about? = (answer.bind sessionIdOf).map fun id => (id, .discovered) :=
  rfl

@[simp] theorem key?_discover (s p d : String) (answer : Option Value) :
    (discover s p d answer).key? = some (paneKeyFrom s p) :=
  rfl

theorem about?_report (id : Uuid) (kind : String) (payload : Value) (ts : String)
    (answer : Option Value) :
    (report id kind payload ts answer).about? =
      some (id, eventOf (report id kind payload ts answer).params) := by
  have hmethod : (report id kind payload ts answer).method ≠ Method.sessionDiscover := by
    change Method.sessionReportEvent ≠ Method.sessionDiscover
    decide
  have hreport : (report id kind payload ts answer).method = Method.sessionReportEvent := rfl
  have hid : (report id kind payload ts answer).params.getStr "session_id" = some id.toText := rfl
  rw [about?, if_neg hmethod, if_pos hreport, hid, Option.bind_some, Uuid.parseStr_toText,
    Option.map_some]

/-- The report of a new status. -/
@[simp] theorem about?_statusChanged (id : Uuid) (status ts : String) (answer : Option Value) :
    (report id "session.status_changed" (.object [("status", .string status)]) ts answer).about? =
      some (id, .statusChanged status) :=
  about?_report ..

/-- The report of the end of a session. -/
@[simp] theorem about?_finished (id : Uuid) (ts : String) (answer : Option Value) :
    (report id "session.finished" (.object []) ts answer).about? = some (id, .finished) :=
  about?_report ..

end Call

/-- The sessions that answers to `session.discover` named. -/
def discoveredIds (log : List Call) : List Uuid :=
  log.filterMap Call.discovered?

/-- What was said of a session. -/
def trace (id : Uuid) (log : List Call) : List Event :=
  log.filterMap fun call => (call.about?.filter fun about => about.1 = id).map (·.2)

section Append

variable (log : List Call) {call : Call} {id : Uuid} {event : Event}

theorem trace_append (log' : List Call) (id : Uuid) :
    trace id (log ++ log') = trace id log ++ trace id log' :=
  List.filterMap_append

/-- A call adds to the trace of the session it is about. -/
theorem trace_concat (h : call.about? = some (id, event)) (other : Uuid) :
    trace other (log ++ [call]) =
      if other = id then trace id log ++ [event] else trace other log := by
  unfold trace
  rw [List.filterMap_append]
  split_ifs with heq
  · simp [h, heq]
  · simp [h, Ne.symm heq]

theorem trace_concat_of_none (h : call.about? = none) (id : Uuid) :
    trace id (log ++ [call]) = trace id log := by
  unfold trace
  rw [List.filterMap_append]
  simp [h]

theorem discoveredIds_concat (h : call.about? = some (id, .discovered)) :
    discoveredIds (log ++ [call]) = discoveredIds log ++ [id] := by
  unfold discoveredIds
  rw [List.filterMap_append]
  simp [Call.discovered?_eq_some.mpr h]

theorem discoveredIds_concat_of_none (h : call.about? = none) :
    discoveredIds (log ++ [call]) = discoveredIds log := by
  unfold discoveredIds
  rw [List.filterMap_append]
  simp [Call.discovered?, h]

/-- A report leaves the list of sessions as it is. -/
theorem discoveredIds_concat_of_ne (h : call.about? = some (id, event))
    (hne : event ≠ .discovered) : discoveredIds (log ++ [call]) = discoveredIds log := by
  unfold discoveredIds
  rw [List.filterMap_append]
  simp [Call.discovered?, h, hne]

end Append

/-! ### Recording

The recorded client answers as the client does. So a run through it is a run of the watcher, with
the list of its calls beside it. -/

variable {σ : Type}

/-- The client, which keeps a list of the calls made through it. -/
def Client.recorded (c : Client σ) : Client (σ × List Call) where
  call w method params :=
    let result := c.call w.1 method params
    ((result.1, w.2 ++ [⟨method, params, result.2⟩]), result.2)
  chronoNow w := c.chronoNow w.1

variable {c : Client σ}

/-! ### Moves

Four things can come of a call: it may pass everything by, discover a session under a key, change
the status of a key, or finish one. That every loop of the watcher is made of these is seen loop by
loop, once for all results about runs. -/

/-- What a call does to the calls made so far and to `known`. The status of a pane changes only
under one of the `polled` keys. -/
inductive Move (polled : List String) : List Call × Known → List Call × Known → Prop
  /-- A call that says nothing of a session. -/
  | pass {log : List Call} {known : Known} {call : Call} (hcall : call.about? = none) :
    Move polled (log, known) (log ++ [call], known)
  /-- A pane gets a session, whether or not it had one. -/
  | discover {log : List Call} {known : Known} {call : Call} {key : String} {id : Uuid}
    (hcall : call.about? = some (id, .discovered)) (hkey : call.key? = some key) :
    Move polled (log, known) (log ++ [call], known.insert key (id, .starting))
  /-- The status of a pane changes, whether or not the report of it is accepted. -/
  | change {log : List Call} {known : Known} {call : Call} {key : String} {id : Uuid}
    {prev new : Status} (hknown : known.lookup key = some (id, prev)) (hpolled : key ∈ polled)
    (hnew : new ≠ prev) (hcall : call.about? = some (id, .statusChanged new.asStr)) :
    Move polled (log, known) (log ++ [call], known.insert key (id, new))
  /-- A pane is forgotten, whether or not the report of it is accepted. -/
  | finish {log : List Call} {known : Known} {call : Call} {key : String} {state : PaneState}
    (hknown : known.lookup key = some state) (hcall : call.about? = some (state.1, .finished)) :
    Move polled (log, known) (log ++ [call], known.erase key)

/-- A move is one call. -/
theorem Move.exists_call {polled : List String} {s t : List Call × Known} (h : Move polled s t) :
    ∃ call, t.1 = s.1 ++ [call] := by
  cases h with
  | pass | discover | change | finish => exact ⟨_, rfl⟩

/-- The calls made and the map. -/
def view (s : (σ × List Call) × Known) : List Call × Known :=
  (s.1.2, s.2)

/-- A number of calls. -/
abbrev Moves (polled : List String) : List Call × Known → List Call × Known → Prop :=
  ReflTransGen (Move polled)

/-- The calls made before still are. -/
theorem Moves.log_isPrefix {polled : List String} {s t : List Call × Known} (h : Moves polled s t) :
    s.1 <+: t.1 := by
  induction h with
  | refl => exact List.prefix_refl _
  | tail _ hmove ih =>
    obtain ⟨call, hlog⟩ := hmove.exists_call
    rw [hlog]
    exact ih.trans (List.prefix_append _ _)

section Rounds

variable {polled : List String} (s : (σ × List Call) × Known)

theorem moves_foldl {α : Type} {f : (σ × List Call) × Known → α → (σ × List Call) × Known}
    {l : List α} (h : ∀ s, ∀ a ∈ l, Moves polled (view s) (view (f s a))) :
    Moves polled (view s) (view (l.foldl f s)) := by
  induction l generalizing s with
  | nil => exact .refl
  | cons a l ih =>
    refine (h s a List.mem_cons_self).trans (ih _ fun s b hb => ?_)
    exact h s b (List.mem_cons_of_mem _ hb)

/-- The answer to a `session.discover` decides what comes of the call. -/
theorem move_discover {log : List Call} {known : Known} (session pane dir : String)
    (answer : Option Value) :
    Move polled (log, known) (log ++ [.discover session pane dir answer],
      (answer.bind sessionIdOf).elim known fun id =>
        known.insert (paneKeyFrom session pane) (id, .starting)) := by
  cases hid : answer.bind sessionIdOf with
  | none => exact .pass (by rw [Call.about?_discover, hid, Option.map_none])
  | some id => exact .discover (by rw [Call.about?_discover, hid, Option.map_some]) rfl

/-- A round of the start-up loop is one `session.discover`. -/
theorem view_startUpPane (pane : OpencodePane) :
    ∃ answer, view (startUpPane c.recorded s pane) =
      (s.1.2 ++ [.discover pane.tmuxSession pane.paneId pane.workingDir answer],
        (answer.bind sessionIdOf).elim s.2 fun id =>
          s.2.insert (paneKey pane) (id, .starting)) := by
  rw [startUpPane_eq]
  exact ⟨(c.discover s.1.1 pane.tmuxSession pane.paneId pane.workingDir).2, rfl⟩

/-- So is a round of `discover_new_raw_panes` for a new key. -/
theorem view_discoverNewRawPane {newKeys : List String} {pane : RawPane}
    (hkey : paneKeyFrom pane.session pane.paneId ∈ newKeys) :
    ∃ answer, view (discoverNewRawPane c.recorded newKeys s pane) =
      (s.1.2 ++ [.discover pane.session pane.paneId pane.workingDir answer],
        (answer.bind sessionIdOf).elim s.2 fun id =>
          s.2.insert (paneKeyFrom pane.session pane.paneId) (id, .starting)) := by
  rw [discoverNewRawPane_of_mem hkey]
  exact ⟨(c.discover s.1.1 pane.session pane.paneId pane.workingDir).2, rfl⟩

theorem moves_startUpPane (pane : OpencodePane) :
    Moves polled (view s) (view (startUpPane c.recorded s pane)) := by
  obtain ⟨answer, hview⟩ := view_startUpPane (c := c) s pane
  rw [hview]
  exact .single (move_discover ..)

theorem moves_discoverNewRawPane (newKeys : List String) (pane : RawPane) :
    Moves polled (view s) (view (discoverNewRawPane c.recorded newKeys s pane)) := by
  by_cases hkey : paneKeyFrom pane.session pane.paneId ∈ newKeys
  · obtain ⟨answer, hview⟩ := view_discoverNewRawPane (c := c) s hkey
    rw [hview]
    exact .single (move_discover ..)
  · rw [discoverNewRawPane_of_notMem hkey]

theorem moves_emitFinished (key : String) :
    Moves polled (view s) (view (emitFinished c.recorded s key)) := by
  obtain ⟨⟨w, log⟩, known⟩ := s
  unfold emitFinished
  cases hknown : known.lookup key with
  | none => exact .refl
  | some state => exact .single (.finish hknown (Call.about?_finished ..))

theorem moves_pollPane (captured : String) {pane : OpencodePane} (hpane : paneKey pane ∈ polled) :
    Moves polled (view s) (view (pollPane c.recorded captured s pane)) := by
  obtain ⟨⟨w, log⟩, known⟩ := s
  unfold pollPane
  cases hknown : known.lookup (paneKey pane) with
  | none => exact .refl
  | some state =>
    obtain ⟨id, prev⟩ := state
    dsimp only
    cases parseStatus (lastLine captured) with
    | none => exact .refl
    | some new =>
      by_cases hnew : new = prev
      · simp only [if_pos hnew]
        exact .refl
      · simp only [if_neg hnew]
        exact .single (.change hknown hpane hnew (Call.about?_statusChanged ..))

end Rounds

/-- The keys that the polling loop goes through. -/
def polledKeys (panes : List OpencodePane) : List String :=
  panes.map paneKey

section Run

variable (panes : List OpencodePane) (s : (σ × List Call) × Known)

theorem moves_runPaneCheck (allPanes : Option (List RawPane)) (walk : Walk) :
    Moves (polledKeys panes) (view s) (view (runPaneCheck c.recorded s allPanes walk)) := by
  cases allPanes with
  | none => exact .refl
  | some listed =>
    exact (moves_foldl s fun s key _ => moves_emitFinished s key).trans
      (moves_foldl _ fun s pane _ => moves_discoverNewRawPane s _ pane)

theorem moves_tick (t : Tick) :
    Moves (polledKeys panes) (view s) (view (tick c.recorded panes s t)) := by
  cases t with
  | heartbeat => exact .single (.pass rfl)
  | paneCheck allPanes walk => exact moves_runPaneCheck panes s allPanes walk
  | poll captures =>
    refine moves_foldl s fun s round hround => moves_pollPane s _ ?_
    exact List.mem_map_of_mem (List.fst_mem_of_mem_zipIdx hround)

/-- **A run of the watcher comes in moves.** -/
theorem moves_run (w : σ) (ticks : List Tick) :
    Moves (polledKeys panes) ([], ∅) (view (run c.recorded panes (w, []) ticks)) :=
  (moves_foldl ((w, []), ∅) fun s pane _ => moves_startUpPane s pane).trans
    (moves_foldl _ fun s t _ => moves_tick panes s t)

end Run

end Agentd.Watcher
