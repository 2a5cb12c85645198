import Agentd.Handlers.Basic
import Mathlib.Data.List.AList

/-!
# The state of the dashboard

`tui/state.rs`: the state a dashboard builds from a snapshot and patches with events, and
the keys of `tui/input.rs` that move its selection. The two modals, the help flag and the
status message are left out, as none of these touches them. Instants are milliseconds.

What the reducer `Agentd.TuiState.applyEvent` does to the line of one session is in
`Agentd.Tui.Line`.

The reducer is a function of the state, the time and the event. It looks at the payload only as far
as the kind of the event requires, and passes over an event whose payload lacks what it needs, as
the source does with `if let`.
-/

namespace Agentd

open Json

namespace Tui

/-- `agentd_protocol::Plugin`. -/
structure Plugin where
  name : String
  binary : String
  socketName : String
deriving DecidableEq

/-- The plugin a JSON object stands for. -/
def Plugin.fromValue (v : Value) : Option Plugin := do
  let name ← v.getStr "name"
  let binary ← v.getStr "binary"
  let socketName ← v.getStr "socket_name"
  some { name, binary, socketName }

end Tui

/-- A reading of `std::time::Instant`, in milliseconds. -/
abbrev Instant := ℕ

/-- `FLASH_DURATION`. -/
def flashDuration : ℕ := 500

/-- `StatusCounters`. -/
structure StatusCounters where
  working : ℕ := 0
  waiting : ℕ := 0
  errored : ℕ := 0
  idle : ℕ := 0
  starting : ℕ := 0
  finished : ℕ := 0
deriving DecidableEq

/-- `StatusCounters::from_sessions`. -/
def StatusCounters.fromSessions (sessions : List Session) : StatusCounters :=
  sessions.foldl (fun c s =>
    match s.status with
    | .working => { c with working := c.working + 1 }
    | .waitingForUser => { c with waiting := c.waiting + 1 }
    | .errored => { c with errored := c.errored + 1 }
    | .idle => { c with idle := c.idle + 1 }
    | .starting => { c with starting := c.starting + 1 }
    | .finished => { c with finished := c.finished + 1 }) {}

/-- `TuiState`, without the fields that belong to the keyboard. -/
structure TuiState where
  sessions : List Session := []
  plugins : List Tui.Plugin := []
  selected : ℕ := 0
  counters : StatusCounters := {}
  flashUntil : AList fun _ : Uuid => Instant := ∅
  dirty : Bool := true

/-- `iter_mut().find(p)` and a change of what is found. -/
def modifyFirst {α : Type} (p : α → Bool) (f : α → α) : List α → List α
  | [] => []
  | a :: l => if p a then f a :: l else a :: modifyFirst p f l

namespace TuiState

/-- `TuiState::from_snapshot`. -/
def fromSnapshot (snap : Value) : TuiState :=
  let sessions := (((snap.get "sessions").bind Value.asArray).getD []).filterMap Session.fromValue
  let plugins := (((snap.get "plugins").bind Value.asArray).getD []).filterMap Tui.Plugin.fromValue
  { sessions, plugins, counters := StatusCounters.fromSessions sessions }

/-- `recompute_counters`. -/
def recomputeCounters (st : TuiState) : TuiState :=
  { st with counters := StatusCounters.fromSessions st.sessions }

/-- Highlight the row of a session. -/
def flash (st : TuiState) (id : Uuid) (now : Instant) : TuiState :=
  { st with flashUntil := st.flashUntil.insert id (now + flashDuration) }

/-- Some session has the identifier. -/
def has (st : TuiState) (id : Uuid) : Bool :=
  st.sessions.any fun s => s.id = id

/-- Change the first session with the identifier. -/
def modifySession (st : TuiState) (id : Uuid) (f : Session → Session) : TuiState :=
  { st with sessions := modifyFirst (fun s => s.id = id) f st.sessions }

/-- The arms for `session.created` and `session.discovered`. -/
def applyCreated (st : TuiState) (now : Instant) (event : Event) : TuiState :=
  match Session.fromValue event.payload with
  | none => st
  | some s =>
    let st :=
      if st.has s.id then st.modifySession s.id fun _ => s
      else { st.flash s.id now with sessions := st.sessions ++ [s] }
    st.recomputeCounters

/-- The arm for `session.renamed`. -/
def applyRenamed (st : TuiState) (now : Instant) (event : Event) : TuiState :=
  match event.sessionId, event.payload.getStr "display_name" with
  | some id, some name =>
    if st.has id then (st.modifySession id fun s => { s with displayName := name }).flash id now
    else st
  | _, _ => st

/-- The arms for `session.killed` and `session.finished`. -/
def applyEnded (st : TuiState) (event : Event) : TuiState :=
  match event.sessionId with
  | none => st
  | some id =>
    let sessions := st.sessions.filter fun s => s.id ≠ id
    let selected :=
      if sessions.length ≤ st.selected ∧ sessions ≠ [] then sessions.length - 1 else st.selected
    { st with sessions, selected, flashUntil := st.flashUntil.erase id }.recomputeCounters

/-- A status set on a session, highlighted and counted. -/
def setStatus (st : TuiState) (now : Instant) (id : Uuid) (status : SessionStatus) : TuiState :=
  if st.has id then
    ((st.modifySession id fun s => { s with status }).flash id now).recomputeCounters
  else st

/-- The arm for `session.status_changed`. -/
def applyStatusChanged (st : TuiState) (now : Instant) (event : Event) : TuiState :=
  match event.sessionId, (event.payload.getStr "status").bind SessionStatus.ofName? with
  | some id, some status => st.setStatus now id status
  | _, _ => st

/-- The arm for `session.dismissed_error`. -/
def applyDismissed (st : TuiState) (now : Instant) (event : Event) : TuiState :=
  match event.sessionId with
  | some id => st.setStatus now id .idle
  | none => st

/-- The arm for `session.task_changed`. -/
def applyTaskChanged (st : TuiState) (now : Instant) (event : Event) : TuiState :=
  match event.sessionId, event.payload.getStr "task" with
  | some id, some task =>
    if st.has id then
      (st.modifySession id fun s => { s with currentTask := some task }).flash id now
    else st
  | _, _ => st

/-- The arm for `session.usage_updated`: a count that is missing is left as it is. -/
def applyUsageUpdated (st : TuiState) (event : Event) : TuiState :=
  match event.sessionId with
  | none => st
  | some id => st.modifySession id fun s => { s with
      contextUsedTokens := ((event.payload.get "used").bind Value.asU64).or s.contextUsedTokens
      contextTotalTokens := ((event.payload.get "total").bind Value.asU64).or s.contextTotalTokens
      costUsd := ((event.payload.get "cost_usd").bind Value.asF64).or s.costUsd }

/-- The arm for `plugin.connected`. -/
def applyPluginConnected (st : TuiState) (event : Event) : TuiState :=
  match Tui.Plugin.fromValue event.payload with
  | none => st
  | some p =>
    if st.plugins.any fun x => x.name = p.name then
      { st with plugins := modifyFirst (fun x => x.name = p.name) (fun _ => p) st.plugins }
    else { st with plugins := st.plugins ++ [p] }

/-- The arm for `plugin.disconnected`. -/
def applyPluginDisconnected (st : TuiState) (event : Event) : TuiState :=
  match event.payload.getStr "name" with
  | none => st
  | some name => { st with plugins := st.plugins.filter fun p => p.name ≠ name }

/-- `TuiState::apply_event`, at the instant `now`. -/
def applyEvent (st : TuiState) (now : Instant) (event : Event) : TuiState :=
  let st :=
    if event.kind = "session.created" ∨ event.kind = "session.discovered" then
      st.applyCreated now event
    else if event.kind = "session.renamed" then st.applyRenamed now event
    else if event.kind = "session.killed" ∨ event.kind = "session.finished" then
      st.applyEnded event
    else if event.kind = "session.status_changed" then st.applyStatusChanged now event
    else if event.kind = "session.dismissed_error" then st.applyDismissed now event
    else if event.kind = "session.task_changed" then st.applyTaskChanged now event
    else if event.kind = "session.usage_updated" then st.applyUsageUpdated event
    else if event.kind = "plugin.connected" then st.applyPluginConnected event
    else if event.kind = "plugin.disconnected" then st.applyPluginDisconnected event
    else st
  { st with dirty := true }

/-- `TuiState::selected_session`. -/
def selectedSession (st : TuiState) : Option Session :=
  st.sessions[st.selected]?

/-- `TuiState::tick_flash`. -/
def tickFlash (st : TuiState) (now : Instant) : TuiState :=
  let flashUntil : AList fun _ : Uuid => Instant :=
    ⟨st.flashUntil.entries.filter fun e => now < e.2,
      st.flashUntil.nodupKeys.sublist List.filter_sublist⟩
  { st with
    flashUntil
    dirty := st.dirty || flashUntil.entries.length ≠ st.flashUntil.entries.length }

/-- Events applied one after the other, each at its instant. -/
def applyEvents (st : TuiState) (events : List (Instant × Event)) : TuiState :=
  events.foldl (fun st e => st.applyEvent e.1 e.2) st

end TuiState

/-- The keys of `handle_key` that move the selection. -/
inductive SelectionKey
  | j
  | down
  | k
  | up
  | g
  | G
deriving DecidableEq

/-- `handle_key` for such a key, with no modal open and no help on the screen. -/
def TuiState.handleKey (st : TuiState) (key : SelectionKey) : TuiState :=
  let selected :=
    match key with
    | .j | .down =>
      if st.sessions = [] then st.selected else min (st.selected + 1) (st.sessions.length - 1)
    | .k | .up => st.selected - 1
    | .g => 0
    | .G => if st.sessions = [] then st.selected else st.sessions.length - 1
  { st with selected, dirty := true }

end Agentd
