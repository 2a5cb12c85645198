import Agentd.Foundations.Json
import Agentd.Foundations.Uuid
import Agentd.Protocol
import Mathlib.Data.List.AList

/-!
# The opencode watcher

`watcher.rs` and the parts of `discovery.rs` it uses, function by function, over any
client: the daemon a watcher talks to is a state `w : σ` and a `Agentd.Watcher.Client σ` that
says how a call changes it and what is answered. `HashMap`s are `AList`s; where the order in
which a map is walked matters, it is a `Agentd.Watcher.Walk`.

A run of the watcher is `Agentd.Watcher.run`: the start-up loop, then the branches of the
`select!` loop in any order (`Agentd.Watcher.Tick`), with the text and the listings tmux
gives at each of them.
-/

namespace Agentd.Watcher

open Json

/-! ### Panes

What is known of a pane, and the key under which it is kept: the session and the id of the pane as
text, with a colon between. -/

/-- `OpencodePane`. -/
structure OpencodePane where
  tmuxSession : String
  paneId : String
  panePid : ℕ
  workingDir : String

/-- `RawPane`: a row of `tmux list-panes`. -/
structure RawPane where
  session : String
  paneId : String
  pid : ℕ
  workingDir : String
  paneCurrentCommand : String

/-- `pane_key_from`. -/
def paneKeyFrom (tmuxSession paneId : String) : String :=
  tmuxSession ++ ":" ++ paneId

/-- `pane_key`. -/
def paneKey (pane : OpencodePane) : String :=
  paneKeyFrom pane.tmuxSession pane.paneId

/-! ### Text

The functions on text that the watcher uses, as the standard library has them. -/

/-- `char::is_whitespace`. -/
def isWhitespace (c : Char) : Bool :=
  let n := c.toNat
  (9 ≤ n && n ≤ 13) || n == 0x20 || n == 0x85 || n == 0xa0 || n == 0x1680 ||
    (0x2000 ≤ n && n ≤ 0x200a) || n == 0x2028 || n == 0x2029 || n == 0x202f || n == 0x205f ||
    n == 0x3000

/-- `str::trim_end`. -/
def trimEnd (s : List Char) : List Char :=
  (s.reverse.dropWhile isWhitespace).reverse

/-- `str::trim`. -/
def trim (s : List Char) : List Char :=
  trimEnd (s.dropWhile isWhitespace)

/-- `str::eq_ignore_ascii_case`. -/
def eqIgnoreAsciiCase (s t : List Char) : Bool :=
  s.map Char.toLower == t.map Char.toLower

/-- `is_opencode_comm`. The first word of trimmed text is what stands before the first
white space. -/
def isOpencodeComm (comm : String) : Bool :=
  let trimmed := trim comm.toList
  eqIgnoreAsciiCase trimmed "opencode".toList ||
    eqIgnoreAsciiCase (trimmed.takeWhile fun c => !isWhitespace c) "opencode".toList

/-- `str::contains`. -/
def contains (s needle : List Char) : Bool :=
  s.tails.any fun t => needle.isPrefixOf t

/-- `str::lines`, up to an empty line and a `\r` at the end of the text, which no status
depends on. -/
def lines (s : List Char) : List (List Char) :=
  (s.splitOn '\n').map fun line =>
    if line.getLast? = some '\r' then line.dropLast else line

/-! ### Status of a pane

The last line that is not blank is looked through for the words that tell of work, then for those
that tell of an error, and then for a prompt at its end; the first that is found counts. -/

/-- `watcher::Status`. -/
inductive Status
  | starting
  | working
  | idle
  | errored
deriving DecidableEq

/-- `Status::as_str`. -/
def Status.asStr : Status → String
  | starting => "starting"
  | working => "working"
  | idle => "idle"
  | errored => "errored"

/-- `parse_status`. The words looked for are plain letters, so that lower-casing the
ASCII letters of the line is enough. -/
def parseStatus (line : List Char) : Option Status :=
  let lower := line.map Char.toLower
  let has (word : String) := contains lower word.toList
  if has "compiling" || has "building" || has "running" || has "loading" || has "processing" then
    some .working
  else if has "error" || has "panic" || has "failed" then some .errored
  else
    match (trimEnd line).getLast? with
    | some '❯' | some '>' => some .idle
    | _ => none

/-- The last line of a captured pane that is not blank, empty when there is none. -/
def lastLine (captured : String) : List Char :=
  ((lines captured.toList).reverse.find? fun line => trim line ≠ []).getD []

/-! ### The client

A client is a state and a function that makes a call: a method, its parameters, and perhaps an
answer. An error of the connection and an error of the daemon look alike to the watcher, as none. -/

/-- How the daemon answers the calls of `AgentdClient`: what a call leaves behind, and
the result, `none` for a call that fails. -/
structure Client (σ : Type) where
  call : σ → String → Value → σ × Option Value
  /-- `chrono_now()`. -/
  chronoNow : σ → String

variable {σ : Type}

namespace Client

/-- `AgentdClient::discover`. -/
def discover (c : Client σ) (w : σ) (tmuxSession tmuxPaneId workingDir : String) :
    σ × Option Value :=
  c.call w Method.sessionDiscover (discoverParams tmuxSession tmuxPaneId workingDir)

/-- `AgentdClient::report_event`. -/
def reportEvent (c : Client σ) (w : σ) (id : Uuid) (kind : String) (payload : Value) :
    σ × Option Value :=
  c.call w Method.sessionReportEvent (.object [("payload", payload),
    ("session_id", .string id.toText), ("ts", .string (c.chronoNow w)), ("type", .string kind)])

/-- `AgentdClient::heartbeat`. -/
def heartbeat (c : Client σ) (w : σ) : σ × Option Value :=
  c.call w Method.pluginHeartbeat (.object [])

end Client

/-- What is known of a pane: the session the daemon gave it, and its last status. -/
abbrev PaneState :=
  Uuid × Status

/-- The map `known`. -/
abbrev Known :=
  AList fun _ : String => PaneState

theorem lookup_insert_eq_some {known : Known} {key k : String} {state st : PaneState} :
    (known.insert key state).lookup k = some st ↔
      k = key ∧ state = st ∨ k ≠ key ∧ known.lookup k = some st := by
  by_cases heq : k = key
  · subst heq
    simp [AList.lookup_insert]
  · simp [AList.lookup_insert_ne heq, heq]

theorem lookup_erase_eq_some {known : Known} {key k : String} {st : PaneState} :
    (known.erase key).lookup k = some st ↔ k ≠ key ∧ known.lookup k = some st := by
  by_cases heq : k = key
  · subst heq
    simp [AList.lookup_erase]
  · simp [AList.lookup_erase_ne heq, heq]

/-- The session an answer to `session.discover` names. -/
def sessionIdOf (value : Value) : Option Uuid :=
  (value.getStr "session_id").bind Uuid.parseStr

/-! ### The loops

The start-up loop, the poll and the pane check, each as a fold over its list. -/

variable (c : Client σ)

/-- `discover_pane`. -/
def discoverPane (w : σ) (pane : OpencodePane) : σ × Option PaneState :=
  match c.discover w pane.tmuxSession pane.paneId pane.workingDir with
  | (w, some value) => (w, (sessionIdOf value).map fun id => (id, .starting))
  | (w, none) => (w, none)

/-- One round of the start-up loop of `run`. -/
def startUpPane (s : σ × Known) (pane : OpencodePane) : σ × Known :=
  match discoverPane c s.1 pane with
  | (w, some state) => (w, s.2.insert (paneKey pane) state)
  | (w, none) => (w, s.2)

/-- The order in which the keys of a map come. -/
structure Walk where
  shuffle : List String → List String
  perm : ∀ keys, (shuffle keys).Perm keys

/-- The keys come as the map lists them. -/
def Walk.asListed : Walk :=
  ⟨id, fun keys => .refl keys⟩

/-- `diff_pane_states`: the keys that vanished and those that are new. -/
def diffPaneStates (known : Known) (current : AList fun _ : String => String) :
    List String × List String :=
  let currentOpencode := current.keys.filter fun k => (current.lookup k).any isOpencodeComm
  (known.keys.filter fun k => k ∉ currentOpencode, currentOpencode.filter fun k => k ∉ known)

/-- One round of `emit_finished_for_vanished`. -/
def emitFinished (s : σ × Known) (key : String) : σ × Known :=
  match s.2.lookup key with
  | some (id, _) =>
    -- the key goes even when the report fails
    ((c.reportEvent s.1 id "session.finished" (.object [])).1, s.2.erase key)
  | none => s

/-- One round of `discover_new_raw_panes`. -/
def discoverNewRawPane (newKeys : List String) (s : σ × Known) (pane : RawPane) : σ × Known :=
  let key := paneKeyFrom pane.session pane.paneId
  if key ∉ newKeys then s
  else
    match c.discover s.1 pane.session pane.paneId pane.workingDir with
    | (w, some value) =>
      match sessionIdOf value with
      | some id => (w, s.2.insert key (id, .starting))
      | none => (w, s.2)
    | (w, none) => (w, s.2)

/-- The map of the listed panes to their commands; of two rows with one key the later
counts. -/
def currentPanes (panes : List RawPane) : AList fun _ : String => String :=
  panes.foldl (fun m p => m.insert (paneKeyFrom p.session p.paneId) p.paneCurrentCommand) ∅

/-- `run_pane_check`, with the listing tmux gives, `none` when it fails. -/
def runPaneCheck (s : σ × Known) (allPanes : Option (List RawPane)) (walk : Walk) : σ × Known :=
  match allPanes with
  | none => s
  | some panes =>
    -- both lists are of the map as it was before the round
    let (vanished, newKeys) := diffPaneStates s.2 (currentPanes panes)
    let s := (walk.shuffle vanished).foldl (emitFinished c) s
    panes.foldl (discoverNewRawPane c newKeys) s

/-- One round of the polling loop, with what `capture_pane` gives. -/
def pollPane (captured : String) (s : σ × Known) (pane : OpencodePane) : σ × Known :=
  match s.2.lookup (paneKey pane) with
  | none => s
  | some (id, prev) =>
    match parseStatus (lastLine captured) with
    | none => s
    | some new =>
      if new = prev then s
      else
        -- the new status is remembered even when the report fails
        ((c.reportEvent s.1 id "session.status_changed"
          (.object [("status", .string new.asStr)])).1, s.2.insert (paneKey pane) (id, new))

/-- One branch of the `select!` loop, with what tmux gives. -/
inductive Tick
  /-- The text captured in each round of the polling loop. -/
  | poll (captures : ℕ → String)
  | paneCheck (allPanes : Option (List RawPane)) (walk : Walk := .asListed)
  | heartbeat

/-- One branch of the `select!` loop. -/
def tick (panes : List OpencodePane) (s : σ × Known) : Tick → σ × Known
  | .poll captures =>
    panes.zipIdx.foldl (fun s round => pollPane c (captures round.2) s round.1) s
  | .paneCheck allPanes walk => runPaneCheck c s allPanes walk
  | .heartbeat => ((c.heartbeat s.1).1, s.2)

/-- `watcher::run` on the panes found at the start, through a list of ticks. -/
def run (panes : List OpencodePane) (w : σ) (ticks : List Tick) : σ × Known :=
  ticks.foldl (tick c panes) (panes.foldl (startUpPane c) (w, ∅))

/-! ### A discovery

A pane is discovered when the answer names a session; then it is put into the map as starting. -/

/-- A call of `session.discover`, and the map with the session it answers with. -/
def discovered (s : σ × Known) (session pane dir : String) : σ × Known :=
  let result := c.discover s.1 session pane dir
  (result.1, (result.2.bind sessionIdOf).elim s.2 fun id =>
    s.2.insert (paneKeyFrom session pane) (id, .starting))

/-- A round of the start-up loop is a discovery. -/
theorem startUpPane_eq (s : σ × Known) (pane : OpencodePane) :
    startUpPane c s pane = discovered c s pane.tmuxSession pane.paneId pane.workingDir := by
  unfold startUpPane discoverPane discovered
  generalize c.discover s.1 pane.tmuxSession pane.paneId pane.workingDir = result
  obtain ⟨w, answer⟩ := result
  rcases answer with _ | value
  · rfl
  · dsimp only [Option.bind_some]
    rcases sessionIdOf value with _ | id <;> rfl

section

variable {c} {newKeys : List String} {pane : RawPane}

/-- So is a round of `discover_new_raw_panes` for a new key. -/
theorem discoverNewRawPane_of_mem (hkey : paneKeyFrom pane.session pane.paneId ∈ newKeys)
    (s : σ × Known) :
    discoverNewRawPane c newKeys s pane =
      discovered c s pane.session pane.paneId pane.workingDir := by
  unfold discoverNewRawPane discovered
  rw [if_neg (not_not_intro hkey)]
  generalize c.discover s.1 pane.session pane.paneId pane.workingDir = result
  obtain ⟨w, answer⟩ := result
  rcases answer with _ | value
  · rfl
  · dsimp only [Option.bind_some]
    rcases sessionIdOf value with _ | id <;> rfl

/-- A row whose key is not new is passed over. -/
theorem discoverNewRawPane_of_notMem (hkey : paneKeyFrom pane.session pane.paneId ∉ newKeys)
    (s : σ × Known) : discoverNewRawPane c newKeys s pane = s := by
  unfold discoverNewRawPane
  rw [if_pos hkey]

end

/-! ### What every state of a run has

A property of the client's state and of the map is kept by a run when every call keeps the one, and
every change of the map the other. -/

section Invariant

variable {c} {I : σ → Prop} {P : Uuid → Prop}

/-- The world is in order, and so is every session in the map. -/
def Holds (I : σ → Prop) (P : Uuid → Prop) (s : σ × Known) : Prop :=
  I s.1 ∧ ∀ key state, s.2.lookup key = some state → P state.1

theorem Holds.insert {s : σ × Known} (h : Holds I P s) {w : σ} (hw : I w) (key : String)
    {state : PaneState} (hstate : P state.1) : Holds I P (w, s.2.insert key state) := by
  refine ⟨hw, fun k st hk => ?_⟩
  rcases lookup_insert_eq_some.mp hk with ⟨-, rfl⟩ | ⟨-, hk⟩
  · exact hstate
  · exact h.2 k st hk

theorem Holds.erase {s : σ × Known} (h : Holds I P s) {w : σ} (hw : I w) (key : String) :
    Holds I P (w, s.2.erase key) :=
  ⟨hw, fun k st hk => h.2 k st (lookup_erase_eq_some.mp hk).2⟩

theorem Holds.of_world {s : σ × Known} (h : Holds I P s) {w : σ} (hw : I w) : Holds I P (w, s.2) :=
  ⟨hw, h.2⟩

variable (hcall : ∀ w method params, I w → I (c.call w method params).1)
  (hdiscover : ∀ w s p d v id, I w → (c.discover w s p d).2 = some v → sessionIdOf v = some id →
    P id)
include hcall

theorem holds_emitFinished {s : σ × Known} (h : Holds I P s) (key : String) :
    Holds I P (emitFinished c s key) := by
  unfold emitFinished
  split
  · exact h.erase (hcall _ _ _ h.1) key
  · exact h

include hdiscover

theorem holds_discovered {s : σ × Known} (h : Holds I P s) (session pane dir : String) :
    Holds I P (discovered c s session pane dir) := by
  have hworld : I (c.discover s.1 session pane dir).1 := hcall _ _ _ h.1
  cases hid : (c.discover s.1 session pane dir).2.bind sessionIdOf with
  | none =>
    rw [discovered, hid]
    exact h.of_world hworld
  | some id =>
    obtain ⟨value, hvalue, hsession⟩ := Option.bind_eq_some_iff.mp hid
    rw [discovered, hid]
    exact h.insert hworld _ (hdiscover _ _ _ _ _ _ h.1 hvalue hsession)

theorem holds_startUpPane {s : σ × Known} (h : Holds I P s) (pane : OpencodePane) :
    Holds I P (startUpPane c s pane) := by
  rw [startUpPane_eq]
  exact holds_discovered hcall hdiscover h _ _ _

theorem holds_discoverNewRawPane {s : σ × Known} (h : Holds I P s) (newKeys : List String)
    (pane : RawPane) : Holds I P (discoverNewRawPane c newKeys s pane) := by
  by_cases hnew : paneKeyFrom pane.session pane.paneId ∈ newKeys
  · rw [discoverNewRawPane_of_mem hnew]
    exact holds_discovered hcall hdiscover h _ _ _
  · rw [discoverNewRawPane_of_notMem hnew]
    exact h

omit hdiscover in
theorem holds_pollPane {s : σ × Known} (h : Holds I P s) (captured : String)
    (pane : OpencodePane) : Holds I P (pollPane c captured s pane) := by
  unfold pollPane
  split
  · exact h
  · rename_i id prev hlookup
    split
    · exact h
    · split_ifs
      · exact h
      · -- the slot keeps its session
        have hid : P id := h.2 _ _ hlookup
        exact h.insert (hcall _ _ _ h.1) _ hid

theorem holds_tick (panes : List OpencodePane) {s : σ × Known} (h : Holds I P s) (t : Tick) :
    Holds I P (tick c panes s t) := by
  cases t with
  | poll captures =>
    exact List.foldlRecOn _ _ h fun s hs round _ => holds_pollPane hcall hs _ round.1
  | heartbeat => exact h.of_world (hcall _ _ _ h.1)
  | paneCheck allPanes walk =>
    cases allPanes with
    | none => exact h
    | some listed =>
      refine List.foldlRecOn listed _ ?_ fun s hs pane _ =>
        holds_discoverNewRawPane hcall hdiscover hs _ pane
      exact List.foldlRecOn _ _ h fun s hs key _ => holds_emitFinished hcall hs key

/-- **What every call keeps, a run of the watcher keeps**: a property `I` of the world,
and a property `P` of the sessions in the map, if it holds of each session that an answer
to `session.discover` names. -/
theorem holds_run {w : σ} (hw : I w) (panes : List OpencodePane) (ticks : List Tick) :
    Holds I P (run c panes w ticks) := by
  refine List.foldlRecOn ticks _ ?_ fun s hs t _ => holds_tick hcall hdiscover panes hs t
  refine List.foldlRecOn panes _ ⟨hw, fun key state hkey => ?_⟩ fun s hs pane _ =>
    holds_startUpPane hcall hdiscover hs pane
  rw [AList.lookup_empty] at hkey
  cases hkey

end Invariant

end Agentd.Watcher
