import Agentd.Handlers.Rpc
import Agentd.Tui.NewModal
import Agentd.Tui.Selection

/-!
# The keyboard of the dashboard

`tui/input.rs` and `tui/rename_modal.rs`. A key goes to the modal that is open, to the help on the
screen, or to the list of the sessions; `Agentd.Press` is what it comes to, which may be a call of
the daemon. No key breaks the invariant of the list, and at most one of the modals and the help is
there at a time (`Agentd.Dashboard.Sound`).

What the daemon makes of the calls is in `Agentd.Tui.Console`.

What a key does is not a function of the state alone: where a request is sent, the state that
results depends on the answer. So a key gives a `Agentd.Press`, which is done, or waits for an
answer and goes on with it; `Agentd.Press.Gives` speaks of every state that may result.
-/

namespace Agentd

open Json

/-- `KeyCode`, as far as the dashboard tells the codes apart. -/
inductive KeyCode
  | esc
  | enter
  | backspace
  | up
  | down
  | char (c : Char)
  | other

/-- `ControlClientError`, with the errors of the connection and of JSON as text. -/
inductive ControlClientError
  | io (text : String)
  | json (text : String)
  | rpc (code : ℤ) (message : String)
  | closed

namespace ControlClientError

/-- `Display`. -/
def display : ControlClientError → String
  | io text => "io: " ++ text
  | json text => "json: " ++ text
  | rpc code message => "rpc error " ++ toString code ++ ": " ++ message
  | closed => "connection closed"

/-- The error of an answer. -/
def ofProtocol (e : ProtocolError) : ControlClientError :=
  .rpc e.code e.display

end ControlClientError

/-! ### The modals -/

/-- `RenameModal`. -/
structure RenameModal where
  sessionId : Uuid
  input : String

/-- `RenameOutcome`. -/
inductive RenameOutcome
  | stay
  | cancel
  | commit (name : String)

namespace RenameModal

/-- The modal for a session: `rename_modal::open`, with the identifier set. -/
def opened (s : Session) : RenameModal :=
  ⟨s.id, s.displayName⟩

/-- What is left of the input when it is committed. -/
def trimmed (modal : RenameModal) : String :=
  .ofList (Watcher.trim modal.input.toList)

/-- `rename_modal::apply_key`. -/
def applyKey (modal : RenameModal) : KeyCode → RenameModal × RenameOutcome
  | .esc => (modal, .cancel)
  | .enter => (modal, if modal.trimmed = "" then .cancel else .commit modal.trimmed)
  | .backspace => ({ modal with input := .ofList modal.input.toList.dropLast }, .stay)
  | .char c => ({ modal with input := modal.input.push c }, .stay)
  | .up | .down | .other => (modal, .stay)

end RenameModal

/-- A key, to the new-session modal. -/
def KeyCode.modalKey : KeyCode → ModalKey
  | esc => .esc
  | enter => .enter
  | backspace => .backspace
  | char c => .char c
  | up | down | other => .other

/-! ### The dashboard -/

/-- `TuiState`, with the fields that belong to the keyboard. -/
structure Dashboard extends TuiState where
  showHelp : Bool := false
  renameModal : Option RenameModal := none
  newModal : Option NewModal := none
  statusMessage : Option (String × Instant) := none

/-- What a key comes to. -/
inductive Press
  /-- The key is done with, and whether the dashboard quits. -/
  | done (dash : Dashboard) (quit : Bool)
  /-- The client makes a call. What comes of it, and the clock then, is for the dashboard to go on
  with. -/
  | call (method : String) (params : Value)
    (goOn : Except ControlClientError Value → Instant → Dashboard)

/-- The arms of `handle_key`, for when nothing lies over the list. -/
inductive Arm
  | quit
  | create
  | rename
  | help
  | select (key : SelectionKey)
  | jump
  | kill
  | nothing
deriving DecidableEq

/-- The arm that a key takes. -/
def KeyCode.arm : KeyCode → Arm
  | esc | char 'q' | char 'Q' => .quit
  | char 'c' | char 'C' => .create
  | char 'r' | char 'R' => .rename
  | char '?' => .help
  | char 'j' => .select .j
  | down => .select .down
  | char 'k' => .select .k
  | up => .select .up
  | char 'g' => .select .g
  | char 'G' => .select .G
  | enter => .jump
  | char 'x' | char 'X' => .kill
  | _ => .nothing

namespace Dashboard

/-- What `session.jump` and `session.kill` are called with. -/
def idParams (id : Uuid) : Value :=
  .object [("id", .string id.toText)]

/-- What `session.rename` is called with. -/
def renameParams (id : Uuid) (name : String) : Value :=
  .object [("id", .string id.toText), ("name", .string name)]

/-- The next frame is drawn. -/
def draw (d : Dashboard) : Dashboard :=
  { d with dirty := false }

/-- A message on the status line. -/
def say (d : Dashboard) (text : String) (now : Instant) : Dashboard :=
  { d with statusMessage := some (text, now), dirty := true }

/-- `open_rename_modal`. -/
def openRenameModal (d : Dashboard) : Dashboard :=
  match d.selectedSession with
  | none => d
  | some session => { d with renameModal := some (.opened session) }

/-- `jump_to_selected`. -/
def jumpToSelected (d : Dashboard) : Press :=
  match d.selectedSession with
  | none => .done { d with dirty := true } false
  | some session =>
    .call Method.sessionJump (idParams session.id) fun reply now =>
      match reply with
      | .ok _ => d.say "Jumped to session" now
      | .error e => d.say ("Jump failed: " ++ e.display) now

/-- `kill_selected`. -/
def killSelected (d : Dashboard) : Press :=
  match d.selectedSession with
  | none => .done { d with dirty := true } false
  | some session =>
    .call Method.sessionKill (idParams session.id) fun reply now =>
      match reply with
      | .ok _ => d.say ("Killed session " ++ session.displayName) now
      | .error e => d.say ("Kill failed: " ++ e.display) now

/-- `handle_rename_modal_key`. Whether the call fails is not looked at. -/
def handleRenameModalKey (d : Dashboard) (modal : RenameModal) (key : KeyCode) : Press :=
  match modal.applyKey key with
  | (modal, .stay) => .done { d with renameModal := some modal, dirty := true } false
  | (_, .cancel) => .done { d with renameModal := none, dirty := true } false
  | (modal, .commit newName) =>
    .call Method.sessionRename (renameParams modal.sessionId newName) fun _ now =>
      { d with renameModal := none }.say ("Renamed to " ++ newName) now

section

variable (lower : String → String)

/-- `handle_new_modal_key`. Whether the call fails is not looked at. -/
def handleNewModalKey (d : Dashboard) (modal : NewModal) (key : KeyCode) : Press :=
  match modal.applyKey lower key.modalKey with
  | (modal, .stay) => .done { d with newModal := some modal, dirty := true } false
  | (_, .cancel) => .done { d with newModal := none, dirty := true } false
  | (_, .commit path) =>
    .call Method.sessionCreate (NewModal.createParams path) fun _ now =>
      { d with newModal := none }.say ("Creating session in " ++ path) now

/-- A key while the help is on the screen. -/
def handleHelpKey (d : Dashboard) : KeyCode → Press
  | .esc | .char '?' => .done { d with showHelp := false } false
  | .char 'q' => .done { d with showHelp := false } true
  | _ => .done d false

/-- A key for the list. -/
def handleListKey (d : Dashboard) : Arm → Press
  | .quit => .done d true
  | .create =>
    .call Method.sessionListActive (.object []) fun reply _ =>
      { d with newModal := some (NewModal.opened reply), dirty := true }
  | .rename => .done { d.openRenameModal with dirty := true } false
  | .help => .done { d with showHelp := true, dirty := true } false
  | .select key => .done { d with toTuiState := d.toTuiState.handleKey key } false
  | .jump => d.jumpToSelected
  | .kill => d.killSelected
  | .nothing => .done { d with dirty := true } false

/-- `handle_key`. -/
def handleKey (d : Dashboard) (key : KeyCode) : Press :=
  match d.renameModal with
  | some modal => d.handleRenameModalKey modal key
  | none =>
    match d.newModal with
    | some modal => d.handleNewModalKey lower modal key
    | none => if d.showHelp then d.handleHelpKey key else d.handleListKey key.arm

end

/-! ### What lies over the list

Help, the modal for a rename and that for a new session are three fields, and nothing in their types
keeps two of them from being set. The handler looks at them in turn, and the one that is looked at
first gets the key. -/

/-- How many of the three lie over the list. -/
def overlays (d : Dashboard) : ℕ :=
  d.showHelp.toNat + d.renameModal.isSome.toNat + d.newModal.isSome.toNat

/-- **The representation invariant** of the dashboard, with the keyboard. -/
structure Sound (d : Dashboard) : Prop where
  list : d.toTuiState.Sound
  overlays : d.overlays ≤ 1

/-- The list has the keyboard when none of the three is open. -/
theorem overlays_eq_zero {d : Dashboard} :
    d.overlays = 0 ↔ d.showHelp = false ∧ d.renameModal = none ∧ d.newModal = none := by
  unfold overlays
  rw [Nat.add_eq_zero_iff, Nat.add_eq_zero_iff, and_assoc]
  simp

end Dashboard

/-- What a key comes to has the property, whatever becomes of a call. -/
def Press.Gives (P : Dashboard → Prop) : Press → Prop
  | .done d _ => P d
  | .call _ _ goOn => ∀ reply now, P (goOn reply now)

/-- Two properties that hold whatever is answered hold together. -/
theorem Press.Gives.and {P Q : Dashboard → Prop} {press : Press} (hP : press.Gives P)
    (hQ : press.Gives Q) : press.Gives fun d => P d ∧ Q d := by
  cases press with
  | done d quit => exact ⟨hP, hQ⟩
  | call method params goOn => exact fun reply now => ⟨hP reply now, hQ reply now⟩

/-- A property that holds whatever is answered may be weakened. -/
theorem Press.Gives.mono {P Q : Dashboard → Prop} {press : Press} (h : press.Gives P)
    (hPQ : ∀ d, P d → Q d) : press.Gives Q := by
  cases press with
  | done d quit => exact hPQ d h
  | call method params goOn => exact fun reply now => hPQ _ (h reply now)

namespace Dashboard

variable {d : Dashboard} (lower : String → String) (key : KeyCode)

/-- A jump changes the status line at most. -/
theorem gives_jumpToSelected {P : Dashboard → Prop}
    (h : ∀ message, P { d with statusMessage := message, dirty := true }) :
    d.jumpToSelected.Gives P := by
  unfold jumpToSelected
  cases d.selectedSession with
  | none => exact h d.statusMessage
  | some session =>
    intro reply now
    cases reply <;> exact h _

/-- So does a kill. -/
theorem gives_killSelected {P : Dashboard → Prop}
    (h : ∀ message, P { d with statusMessage := message, dirty := true }) :
    d.killSelected.Gives P := by
  unfold killSelected
  cases d.selectedSession with
  | none => exact h d.statusMessage
  | some session =>
    intro reply now
    cases reply <;> exact h _

/-! ### What a key puts over the list

A key that opens something is a key of the list, where nothing is open; a key of a modal closes it
or leaves it open. So there is one at most, always. -/

section Overlays

/-- Return and escape close the modal for a rename, and other keys change its text. -/
theorem overlays_handleRenameModalKey (h : d.overlays ≤ 1) {modal : RenameModal}
    (hmodal : d.renameModal = some modal) :
    (d.handleRenameModalKey modal key).Gives fun d => d.overlays ≤ 1 := by
  unfold overlays at h ⊢
  rw [hmodal] at h
  have hclosed : d.showHelp.toNat + (none : Option RenameModal).isSome.toNat +
      d.newModal.isSome.toNat ≤ 1 := by
    dsimp only [Option.isSome_none, Option.isSome_some, Bool.toNat_false, Bool.toNat_true] at h ⊢
    omega
  unfold handleRenameModalKey
  split
  · exact h
  · exact hclosed
  · exact fun _ _ => hclosed

/-- The modal for a new session is closed by return also when the request then fails. -/
theorem overlays_handleNewModalKey (h : d.overlays ≤ 1) {modal : NewModal}
    (hmodal : d.newModal = some modal) :
    (d.handleNewModalKey lower modal key).Gives fun d => d.overlays ≤ 1 := by
  unfold overlays at h ⊢
  rw [hmodal] at h
  have hclosed : d.showHelp.toNat + d.renameModal.isSome.toNat +
      (none : Option NewModal).isSome.toNat ≤ 1 := by
    dsimp only [Option.isSome_none, Option.isSome_some, Bool.toNat_false, Bool.toNat_true] at h ⊢
    omega
  unfold handleNewModalKey
  split
  · exact h
  · exact hclosed
  · exact fun _ _ => hclosed

/-- Help is closed by some keys and passes over the others. -/
theorem overlays_handleHelpKey (h : d.overlays ≤ 1) :
    (d.handleHelpKey key).Gives fun d => d.overlays ≤ 1 := by
  have hclosed : ({ d with showHelp := false } : Dashboard).overlays ≤ 1 := by
    refine le_trans ?_ h
    unfold overlays
    dsimp only [Bool.toNat_false]
    omega
  unfold handleHelpKey
  split
  · exact hclosed
  · exact hclosed
  · exact hclosed
  · exact h

/-- Something is put over a list that has nothing over it. -/
theorem overlays_handleListKey (hfree : d.overlays = 0) (arm : Arm) :
    (d.handleListKey arm).Gives fun d => d.overlays ≤ 1 := by
  obtain ⟨hhelp, hrename, hnew⟩ := overlays_eq_zero.mp hfree
  have hsame : d.overlays ≤ 1 := hfree.le.trans (Nat.zero_le 1)
  cases arm with
  | create =>
    intro reply _
    simp [overlays, hhelp, hrename]
  | rename =>
    unfold handleListKey openRenameModal
    cases d.selectedSession with
    | none => exact hsame
    | some session =>
      dsimp only [Press.Gives]
      simp [overlays, hhelp, hnew]
  | help =>
    dsimp only [handleListKey, Press.Gives]
    simp [overlays, hrename, hnew]
  | jump => exact gives_jumpToSelected fun _ => hsame
  | kill => exact gives_killSelected fun _ => hsame
  | quit | select | nothing => exact hsame

/-- **A key leaves one thing at most over the list.** -/
theorem overlays_handleKey (h : d.overlays ≤ 1) :
    (d.handleKey lower key).Gives fun d => d.overlays ≤ 1 := by
  unfold handleKey
  cases hrename : d.renameModal with
  | some modal => exact overlays_handleRenameModalKey key h hrename
  | none =>
    cases hnew : d.newModal with
    | some modal => exact overlays_handleNewModalKey lower key h hnew
    | none =>
      dsimp only
      split_ifs with hhelp
      · exact overlays_handleHelpKey key h
      · refine overlays_handleListKey (overlays_eq_zero.mpr ⟨?_, hrename, hnew⟩) key.arm
        exact Bool.eq_false_iff.mpr hhelp

end Overlays

/-! ### What a key does to the list

The lines of the list change by events only. A key moves the selection, and asks for what will come
back as an event. -/

section List

variable (h : d.toTuiState.Sound)
include h

/-- A key of the list moves the selection within the lines. -/
theorem list_handleListKey (arm : Arm) :
    (d.handleListKey arm).Gives fun d => d.toTuiState.Sound := by
  have hdirty : ({ d with dirty := true } : Dashboard).toTuiState.Sound :=
    h.of_same rfl rfl rfl rfl
  cases arm with
  | create => exact fun _ _ => hdirty
  | rename =>
    unfold handleListKey openRenameModal
    cases d.selectedSession <;> exact hdirty
  | select key => exact h.handleKey key
  | jump => exact gives_jumpToSelected fun _ => hdirty
  | kill => exact gives_killSelected fun _ => hdirty
  | quit => exact h
  | help | nothing => exact hdirty

/-- **No key puts the list out of order**, whatever is answered. -/
theorem list_handleKey : (d.handleKey lower key).Gives fun d => d.toTuiState.Sound := by
  have hdirty : ({ d with dirty := true } : Dashboard).toTuiState.Sound :=
    h.of_same rfl rfl rfl rfl
  unfold handleKey
  split
  · unfold handleRenameModalKey
    split
    · exact hdirty
    · exact hdirty
    · exact fun _ _ => hdirty
  · split
    · unfold handleNewModalKey
      split
      · exact hdirty
      · exact hdirty
      · exact fun _ _ => hdirty
    · split_ifs
      · unfold handleHelpKey
        split <;> exact h
      · exact list_handleListKey h key.arm

end List

/-- **No key breaks the invariant.** -/
theorem Sound.handleKey (h : d.Sound) : (d.handleKey lower key).Gives Sound :=
  ((list_handleKey lower key h.list).and (overlays_handleKey lower key h.overlays)).mono
    fun _ hd => ⟨hd.1, hd.2⟩

end Dashboard

end Agentd
