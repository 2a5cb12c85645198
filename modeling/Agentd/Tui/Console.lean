import Agentd.Handlers.Footprint
import Agentd.Handlers.Router
import Agentd.Runs.Finished
import Agentd.Tui.Keyboard

/-!
# What a key does

A `Agentd.Console` is a daemon and a dashboard. Keys come between events about the sessions, and
between requests of others, so the list on the screen may be old, and it changes while a modal is
open. A call may fail before the daemon has the request, or after.

`Agentd.Console.meant_run` says that the daemon does what somebody who sees the screen means by a
key, no more and no less: a key is about the session under the cursor, and the name that was typed
goes to the session that was under the cursor when the modal was opened. A new session is for the
first directory that matches what was typed, of those that had a live session when the modal was
opened; when none matches it is for the current directory, whatever was typed.

What is meant is stated without the code of the keys: from what was on the screen when a modal was
opened, from what was typed since, and from what the list of directories and the cursor showed. That
the code does just this takes two directions. A key with a meaning sends the request that carries it
out, and a key without one sends no request, or one that reads.
-/

namespace Agentd

open Json
open Recents (Recent)

/-- What becomes of a call. -/
inductive Fate
  /-- It does not reach the daemon. -/
  | unsent (e : ControlClientError)
  /-- It does, and the answer does not come back. -/
  | lost (e : ControlClientError)
  | answered

namespace Fate

/-- The daemon has the request. -/
def reaches : Fate → Bool
  | unsent _ => false
  | lost _ | answered => true

/-- What the client gets. -/
def reply (o : Outcome) : Fate → Except ControlClientError Value
  | unsent e | lost e => .error e
  | answered => o.reply.mapError ControlClientError.ofProtocol

end Fate

/-- The daemon, and a dashboard until it quits. -/
structure Console where
  db : Db
  dash : Option Dashboard
  /-- What the keys had tmux do. -/
  tmuxCalls : List TmuxCall := []

/-- What happens. -/
inductive Occasion
  /-- A request of another client, or of a plugin. -/
  | request (i : Input)
  /-- The dashboard applies an event. -/
  | event (now : Instant) (event : Event)
  | tick (now : Instant)
  | draw
  /-- A key. If it makes a call, this is what becomes of it, and what time it is afterwards. -/
  | key (code : KeyCode) (fate : Fate) (amb : Ambient) (now : Instant)

namespace Console

/-- A dashboard that has just been opened. -/
def opened (db : Db) (snap : Value) : Console where
  db := db
  dash := some { toTuiState := .fromSnapshot snap }

section Step

variable (lower : String → String)

/-- A key. -/
def press (s : Console) (d : Dashboard) (code : KeyCode) (fate : Fate) (amb : Ambient)
    (now : Instant) : Console :=
  match d.handleKey lower code with
  | .done d quit => { s with dash := if quit then none else some d }
  | .call method params goOn =>
    let o := serve s.db ⟨.control method params, amb⟩
    { db := if fate.reaches then o.db else s.db
      dash := some (goOn (fate.reply o) now)
      tmuxCalls := s.tmuxCalls ++ if fate.reaches then o.tmuxCalls else [] }

/-- One thing happens. -/
def step (s : Console) : Occasion → Console
  | .request i => { s with db := served s.db i }
  | .event now event => { s with
      dash := s.dash.map fun d => { d with toTuiState := d.toTuiState.applyEvent now event } }
  | .tick now => { s with
      dash := s.dash.map fun d => { d with toTuiState := d.toTuiState.tickFlash now } }
  | .draw => { s with dash := s.dash.map Dashboard.draw }
  | .key code fate amb now =>
    match s.dash with
    | none => s
    | some d => s.press lower d code fate amb now

end Step

end Console

/-! ### What is meant by a key

A wish is a request of one of four kinds, and what it does to the database and to tmux is stated
apart from the handlers; that the handlers do it is the first half. The second is that the key sends
this request when it is meant, with the id or the text that is meant. -/

/-- The session with an identifier, if its row decodes. -/
def Db.found (db : Db) (id : Uuid) : Option Session :=
  (db.getSession id).toOption.join

/-- A session can be acted on when its row is there and decodes. -/
theorem found_eq_some {db : Db} {id : Uuid} {s : Session} :
    db.found id = some s ↔ ∃ row, db.row? id = some row ∧ rowToSession row = .ok s := by
  rw [← getSession_eq_some, Db.found, Option.join_eq_some_iff, Except.toOption_eq_some]

/-- What somebody may want of the daemon. -/
inductive Wish
  | jump (id : Uuid)
  | kill (id : Uuid)
  | rename (id : Uuid) (name : String)
  | create (path : String)

namespace Wish

/-- What becomes of the database, and what tmux is asked to do. -/
def effect (db : Db) (amb : Ambient) : Wish → Db × List TmuxCall
  | jump id =>
    match db.found id with
    | some session => (db, (session.tmuxSession.map TmuxCall.switchClient).toList)
    | none => (db, [])
  | kill id =>
    match db.found id with
    | some session =>
      if session.status = .finished then (db, [])
      else
        (db.change id (.finish amb.rowNow), (session.tmuxSession.map TmuxCall.killSession).toList)
    | none => (db, [])
  | rename id name => if (db.row? id).isSome then (db.change id (.rename name), []) else (db, [])
  | create path =>
    match db.insertSession (Mutate.newSession .opencode path (defaultName path) amb) with
    | .ok db => (db, [])
    | .error _ => (db, [])

/-- The method of the request. -/
def method : Wish → String
  | jump _ => Method.sessionJump
  | kill _ => Method.sessionKill
  | rename _ _ => Method.sessionRename
  | create _ => Method.sessionCreate

/-- The parameters of the request. -/
def params : Wish → Value
  | jump id | kill id => Dashboard.idParams id
  | rename id name => Dashboard.renameParams id name
  | create path => NewModal.createParams path

section

variable (db : Db) (amb : Ambient)

/-- None of the four requests is one of those that read. -/
theorem method_notMem_methods (w : Wish) : w.method ∉ Read.methods := by
  have hmethods : ∀ m ∈ [Method.sessionJump, Method.sessionKill, Method.sessionRename,
      Method.sessionCreate], m ∉ Read.methods := by decide
  refine hmethods w.method ?_
  cases w <;> simp [method]

/-- The parameters that a key sends name the session by the text of its id. -/
theorem requestedSession_idParams (id : Uuid) :
    Mutate.requestedSession (Dashboard.idParams id) db =
      (db.found id).elim (.error .sessionNotFound) fun s => .ok (id, s) := by
  have hid : (Dashboard.idParams id).getStr "id" = some id.toText := rfl
  unfold Mutate.requestedSession Db.found
  simp only [hid, Uuid.parseStr_toText]
  cases db.getSession id with
  | error e => rfl
  | ok found => cases found <;> rfl

/-- Whether tmux carries out the call does not matter to the database. -/
theorem sessionJump_eq (id : Uuid) :
    ((Mutate.sessionJump (Dashboard.idParams id) db amb).db,
      (Mutate.sessionJump (Dashboard.idParams id) db amb).tmuxCalls) = (jump id).effect db amb := by
  unfold Mutate.sessionJump
  rw [requestedSession_idParams, effect]
  cases db.found id with
  | none => rfl
  | some session =>
    dsimp only [Option.elim_some]
    cases session.tmuxSession with
    | none => rfl
    | some target =>
      dsimp only
      split_ifs <;> rfl

/-- `session_kill` does what a kill is to do: the row is finished, and its tmux session, if it is in
one, is killed. -/
theorem sessionKill_eq (id : Uuid) :
    ((Mutate.sessionKill (Dashboard.idParams id) db amb).db,
      (Mutate.sessionKill (Dashboard.idParams id) db amb).tmuxCalls) = (kill id).effect db amb := by
  unfold Mutate.sessionKill
  rw [requestedSession_idParams, effect]
  cases hfound : db.found id with
  | none => rfl
  | some session =>
    obtain ⟨row, hrow, -⟩ := found_eq_some.mp hfound
    have hupdate : db.markFinished id amb.rowNow = .ok (db.change id (.finish amb.rowNow)) :=
      updateSession_of_row? hrow
    dsimp only [Option.elim_some]
    simp only [SessionStatus.isTerminal, decide_eq_true_eq, hupdate]
    split_ifs <;> rfl

/-- `session_rename` does what a rename is to do, also when the row cannot be read back for the
answer. -/
theorem sessionRename_eq (id : Uuid) (name : String) :
    ((Mutate.sessionRename (Dashboard.renameParams id name) db amb).db,
      (Mutate.sessionRename (Dashboard.renameParams id name) db amb).tmuxCalls) =
      (rename id name).effect db amb := by
  have hid : (Dashboard.renameParams id name).getStr "id" = some id.toText := rfl
  have hname : (Dashboard.renameParams id name).getStr "name" = some name := rfl
  unfold Mutate.sessionRename
  rw [effect]
  simp only [hid, hname, Uuid.parseStr_toText]
  cases hrow : db.row? id with
  | none =>
    have hupdate : db.updateRename id name = .error (.notFound id) :=
      updateSession_of_missing hrow
    simp only [hupdate]
    rfl
  | some row =>
    have hupdate : db.updateRename id name = .ok (db.change id (.rename name)) :=
      updateSession_of_row? hrow
    simp only [hupdate]
    rfl

/-- `session_create` does what a new session is to do; it may be refused, and then nothing is done.
-/
theorem sessionCreate_eq (path : String) :
    ((Mutate.sessionCreate (NewModal.createParams path) db amb).db,
      (Mutate.sessionCreate (NewModal.createParams path) db amb).tmuxCalls) =
      (create path).effect db amb := by
  have hagent : ((NewModal.createParams path).getStr "agent_type").bind AgentType.ofName? =
      some .opencode := rfl
  have hdir : (NewModal.createParams path).getStr "working_dir" = some path := rfl
  have hname : (NewModal.createParams path).getStr "name" = some (defaultName path) := rfl
  unfold Mutate.sessionCreate
  rw [effect]
  simp only [hagent, hdir, hname, Option.getD_some]
  cases db.insertSession (Mutate.newSession .opencode path (defaultName path) amb) <;> rfl

/-- Each of the four goes to its own handler. -/
theorem dispatch_eq (w : Wish) :
    Mutate.dispatch w.method w.params db amb = match w with
      | jump id => Mutate.sessionJump (Dashboard.idParams id) db amb
      | kill id => Mutate.sessionKill (Dashboard.idParams id) db amb
      | rename id name => Mutate.sessionRename (Dashboard.renameParams id name) db amb
      | create path => Mutate.sessionCreate (NewModal.createParams path) db amb := by
  unfold Mutate.dispatch
  cases w with
  | jump id =>
    rw [method, if_neg (by decide), if_neg (by decide), if_neg (by decide), if_pos rfl, params]
  | kill id =>
    rw [method, if_neg (by decide), if_neg (by decide), if_neg (by decide), if_neg (by decide),
      if_pos rfl, params]
  | rename id name => rw [method, if_neg (by decide), if_pos rfl, params]
  | create path => rw [method, if_pos rfl, params]

/-- **The request for a wish does what is wished.** -/
theorem serve_eq (w : Wish) :
    ((serve db ⟨.control w.method w.params, amb⟩).db,
      (serve db ⟨.control w.method w.params, amb⟩).tmuxCalls) = w.effect db amb := by
  have hserve : serve db ⟨.control w.method w.params, amb⟩ =
      Mutate.dispatch w.method w.params db amb :=
    Router.dispatch_of_none (Read.dispatch_of_notMem w.method_notMem_methods)
  rw [hserve, dispatch_eq]
  cases w with
  | jump id => exact sessionJump_eq db amb id
  | kill id => exact sessionKill_eq db amb id
  | rename id name => exact sessionRename_eq db amb id name
  | create path => exact sessionCreate_eq db amb path

end

end Wish

namespace Dashboard

/-- What a key means, by the dashboard as it is. -/
inductive Means (lower : String → String) (d : Dashboard) (code : KeyCode) : Wish → Prop
  | jump {session : Session} (hfree : d.overlays = 0) (hkey : code = .enter)
      (hcursor : d.selectedSession = some session) : Means lower d code (.jump session.id)
  | kill {session : Session} (hfree : d.overlays = 0) (hkey : code = .char 'x' ∨ code = .char 'X')
      (hcursor : d.selectedSession = some session) : Means lower d code (.kill session.id)
  | rename {modal : RenameModal} (hmodal : d.renameModal = some modal) (hkey : code = .enter)
      (hname : modal.trimmed ≠ "") : Means lower d code (.rename modal.sessionId modal.trimmed)
  | create {modal : NewModal} {path : String} (hrename : d.renameModal = none)
      (hmodal : d.newModal = some modal) (hkey : code = .enter)
      (hpath : NewModal.Chosen lower modal.recents modal.query path) :
      Means lower d code (.create path)

variable {lower : String → String} {d : Dashboard} {code : KeyCode}

/-- Return is the key for a jump in the list. -/
theorem arm_eq_jump : code.arm = .jump ↔ code = .enter := by
  constructor
  · intro h
    unfold KeyCode.arm at h
    split at h <;> first | rfl | cases h
  · rintro rfl
    rfl

/-- Both cases of the letter are the key for a kill. -/
theorem arm_eq_kill : code.arm = .kill ↔ code = .char 'x' ∨ code = .char 'X' := by
  constructor
  · intro h
    unfold KeyCode.arm at h
    split at h <;> first | exact Or.inl rfl | exact Or.inr rfl | cases h
  · rintro (rfl | rfl) <;> rfl

/-- With nothing over it, keys are for the list. -/
theorem handleKey_of_free (hfree : d.overlays = 0) :
    d.handleKey lower code = d.handleListKey code.arm := by
  obtain ⟨hhelp, hrename, hnew⟩ := overlays_eq_zero.mp hfree
  unfold Dashboard.handleKey
  rw [hrename, hnew, hhelp]
  rfl

/-- A key that means something makes the call for it. -/
theorem Means.handleKey {w : Wish} (h : d.Means lower code w) :
    ∃ goOn, d.handleKey lower code = .call w.method w.params goOn := by
  cases h with
  | jump hfree hkey hcursor =>
    rw [handleKey_of_free hfree, arm_eq_jump.mpr hkey, handleListKey, jumpToSelected, hcursor]
    exact ⟨_, rfl⟩
  | kill hfree hkey hcursor =>
    rw [handleKey_of_free hfree, arm_eq_kill.mpr hkey, handleListKey, killSelected, hcursor]
    exact ⟨_, rfl⟩
  | @rename modal hmodal hkey hname =>
    have happly : modal.applyKey .enter = (modal, .commit modal.trimmed) := by
      rw [RenameModal.applyKey, if_neg hname]
    unfold Dashboard.handleKey
    rw [hmodal, hkey]
    dsimp only
    unfold handleRenameModalKey
    rw [happly]
    exact ⟨_, rfl⟩
  | @create modal path hrename hmodal hkey hpath =>
    have happly : modal.applyKey lower .enter = (modal, .commit path) :=
      Prod.ext rfl (NewModal.commits_iff_chosen.mpr hpath)
    unfold Dashboard.handleKey
    rw [hrename, hmodal, hkey]
    dsimp only
    unfold handleNewModalKey
    rw [KeyCode.modalKey, happly]
    exact ⟨_, rfl⟩

section Calls

variable {method : String} {params : Value}
  {goOn : Except ControlClientError Value → Instant → Dashboard}

/-- A key of the list that sends a request sends what is meant, or asks for the live sessions to
open a modal. -/
theorem means_of_handleListKey (hfree : d.overlays = 0)
    (h : d.handleListKey code.arm = .call method params goOn) :
    (∃ w, d.Means lower code w ∧ method = w.method ∧ params = w.params) ∨
      method = Method.sessionListActive := by
  cases harm : code.arm with
  | create =>
    rw [harm] at h
    exact Or.inr (Press.call.inj h).1.symm
  | jump =>
    rw [harm, handleListKey, jumpToSelected] at h
    cases hcursor : d.selectedSession with
    | none =>
      rw [hcursor] at h
      cases h
    | some session =>
      rw [hcursor] at h
      obtain ⟨rfl, rfl, -⟩ := Press.call.inj h
      exact Or.inl ⟨_, .jump hfree (arm_eq_jump.mp harm) hcursor, rfl, rfl⟩
  | kill =>
    rw [harm, handleListKey, killSelected] at h
    cases hcursor : d.selectedSession with
    | none =>
      rw [hcursor] at h
      cases h
    | some session =>
      rw [hcursor] at h
      obtain ⟨rfl, rfl, -⟩ := Press.call.inj h
      exact Or.inl ⟨_, .kill hfree (arm_eq_kill.mp harm) hcursor, rfl, rfl⟩
  | _ =>
    rw [harm] at h
    cases h

/-- A key that calls the daemon means something, or opens the new-session modal. -/
theorem means_of_call (h : d.handleKey lower code = .call method params goOn) :
    (∃ w, d.Means lower code w ∧ method = w.method ∧ params = w.params) ∨
      method = Method.sessionListActive := by
  unfold Dashboard.handleKey at h
  cases hrename : d.renameModal with
  | some modal =>
    rw [hrename] at h
    dsimp only at h
    unfold handleRenameModalKey at h
    cases code with
    | enter =>
      rw [RenameModal.applyKey] at h
      by_cases hname : modal.trimmed = ""
      · rw [if_pos hname] at h
        cases h
      · rw [if_neg hname] at h
        obtain ⟨rfl, rfl, -⟩ := Press.call.inj h
        exact Or.inl ⟨_, .rename hrename rfl hname, rfl, rfl⟩
    | _ => cases h
  | none =>
    rw [hrename] at h
    cases hnew : d.newModal with
    | some modal =>
      rw [hnew] at h
      dsimp only at h
      unfold handleNewModalKey at h
      cases code with
      | enter =>
        obtain ⟨rfl, rfl, -⟩ := Press.call.inj h
        exact Or.inl ⟨_, .create hrename hnew rfl (NewModal.commits_iff_chosen.mp rfl), rfl, rfl⟩
      | _ => cases h
    | none =>
      rw [hnew] at h
      dsimp only at h
      split_ifs at h with hhelp
      · unfold handleHelpKey at h
        split at h <;> cases h
      · refine means_of_handleListKey ?_ h
        exact overlays_eq_zero.mpr ⟨Bool.eq_false_iff.mpr hhelp, hrename, hnew⟩

end Calls

end Dashboard

/-! ### What was typed

A modal keeps a text, and each key changes it by its last letter. What was typed since the modal was
opened is the result of these keys, whatever events and ticks came between them. -/

/-- The text in a modal after a key. -/
def KeyCode.type (text : String) : KeyCode → String
  | .backspace => .ofList text.toList.dropLast
  | .char c => text.push c
  | _ => text

/-- The text in a modal after something happens. -/
def Occasion.type (text : String) : Occasion → String
  | .key code _ _ _ => code.type text
  | _ => text

/-- The directories for a new session: those of the sessions that the daemon lists, or none if it
does not answer. -/
def Occasion.recents (s : Console) : Occasion → List Recent
  | .key _ fate amb _ => (NewModal.opened (fate.reply
      (serve s.db ⟨.control Method.sessionListActive (.object []), amb⟩))).recents
  | _ => []

namespace Console

variable (lower : String → String)

/-- The rename modal, if it is there. -/
def renameModal (s : Console) : Option RenameModal :=
  s.dash.bind Dashboard.renameModal

/-- The new-session modal, if it is there. -/
def newModal (s : Console) : Option NewModal :=
  s.dash.bind Dashboard.newModal

/-- A modal has been there since it was put over the list, in a state with the property; and all
that was typed since has been typed in it. -/
def Typed (there : Console → Bool) (P : Console → Dashboard → Occasion → String → Prop)
    (s₀ : Console) (l : List Occasion) (text : String) : Prop :=
  ∃ l₁ i l₂ d initial, l = l₁ ++ i :: l₂ ∧
    (Machine.run (step lower) s₀ l₁).dash = some d ∧ d.overlays = 0 ∧
    P (Machine.run (step lower) s₀ l₁) d i initial ∧
    text = Machine.run Occasion.type initial l₂ ∧
    Machine.Throughout (step lower) (fun s => there s = true)
      (step lower (Machine.run (step lower) s₀ l₁) i) l₂

/-- **What somebody means by a key**, who has been in front of the dashboard from the beginning. -/
inductive Meant (s₀ : Console) (l : List Occasion) (code : KeyCode) : Wish → Prop
  /-- The session under the cursor. -/
  | jump {d : Dashboard} {session : Session}
      (hdash : (Machine.run (step lower) s₀ l).dash = some d) (hfree : d.overlays = 0)
      (hkey : code = .enter) (hcursor : d.selectedSession = some session) :
      Meant s₀ l code (.jump session.id)
  | kill {d : Dashboard} {session : Session}
      (hdash : (Machine.run (step lower) s₀ l).dash = some d) (hfree : d.overlays = 0)
      (hkey : code = .char 'x' ∨ code = .char 'X') (hcursor : d.selectedSession = some session) :
      Meant s₀ l code (.kill session.id)
  /-- The session that was under the cursor, and the name as it was changed since. -/
  | rename {d : Dashboard} {modal : RenameModal} {session : Session}
      (hdash : (Machine.run (step lower) s₀ l).dash = some d)
      (hmodal : d.renameModal = some modal) (hkey : code = .enter)
      (hsession : modal.sessionId = session.id)
      (htyped : Typed lower (fun s => s.renameModal.isSome)
        (fun _ d _ text => d.selectedSession = some session ∧ text = session.displayName)
        s₀ l modal.input)
      (hname : modal.trimmed ≠ "") : Meant s₀ l code (.rename session.id modal.trimmed)
  /-- The first directory that matches what was typed, of those that had a live session when the
  modal was opened, or the current directory. -/
  | create {d : Dashboard} {query path : String} {recents : List Recent}
      (hdash : (Machine.run (step lower) s₀ l).dash = some d) (hrename : d.renameModal = none)
      (hmodal : d.newModal = some ⟨query, recents⟩) (hkey : code = .enter)
      (htyped : Typed lower (fun s => s.newModal.isSome)
        (fun s _ i text => text = "" ∧ recents = i.recents s ∧
          ∀ r ∈ recents, ∃ row ∈ s.db.sessions.rows,
            row.workingDir = r.1 ∧ row.status ≠ "finished")
        s₀ l query)
      (hpath : NewModal.Chosen lower recents query path) : Meant s₀ l code (.create path)

end Console

/-! ### The modals of a key -/

namespace Dashboard

variable {d : Dashboard} (lower : String → String) (code : KeyCode)

/-- A key in the rename modal is typed there, and the modal is opened for the session under the
cursor, when nothing lies over the list. -/
theorem gives_renameModal : (d.handleKey lower code).Gives fun d' => ∀ m',
    d'.renameModal = some m' → match d.renameModal with
      | some m => m' = { m with input := code.type m.input }
      | none => d.overlays = 0 ∧ ∃ session, d.selectedSession = some session ∧
          m' = .opened session := by
  unfold handleKey
  cases hrename : d.renameModal with
  | some m =>
    dsimp only
    unfold handleRenameModalKey
    cases code with
    | enter =>
      rw [RenameModal.applyKey]
      split <;> rename_i heq
      · split at heq <;> cases heq
      · exact fun m' hm' => nomatch hm'
      · exact fun _ _ m' hm' => nomatch hm'
    | esc => exact fun m' hm' => nomatch hm'
    | _ => exact fun m' hm' => (Option.some.inj hm').symm
  | none =>
    dsimp only
    have hnone {d' : Dashboard} {P : RenameModal → Prop} (hsame : d'.renameModal = none) :
        ∀ m', d'.renameModal = some m' → P m' := by
      intro m' hm'
      rw [hsame] at hm'
      cases hm'
    cases hnew : d.newModal with
    | some modal =>
      dsimp only
      unfold handleNewModalKey
      split
      · exact hnone hrename
      · exact hnone hrename
      · exact fun _ _ => hnone hrename
    | none =>
      dsimp only
      split_ifs with hhelp
      · unfold handleHelpKey
        split <;> exact hnone hrename
      · have hfree : d.overlays = 0 :=
          overlays_eq_zero.mpr ⟨Bool.eq_false_iff.mpr hhelp, hrename, hnew⟩
        cases code.arm with
        | rename =>
          unfold handleListKey openRenameModal
          cases hcursor : d.selectedSession with
          | none => exact hnone hrename
          | some session => exact fun m' hm' => ⟨hfree, session, rfl, (Option.some.inj hm').symm⟩
        | create => exact fun _ _ => hnone hrename
        | jump => exact gives_jumpToSelected fun _ => hnone hrename
        | kill => exact gives_killSelected fun _ => hnone hrename
        | quit | help | select | nothing => exact hnone hrename

/-- A key in the new-session modal is typed there. -/
theorem gives_newModal (hone : d.overlays ≤ 1) {m : NewModal} (hnew : d.newModal = some m) :
    (d.handleKey lower code).Gives fun d' => ∀ m', d'.newModal = some m' →
      m' = { m with query := code.type m.query } := by
  have hrename : d.renameModal = none := by
    unfold overlays at hone
    rw [hnew, Option.isSome_some, Bool.toNat_true] at hone
    cases hrename : d.renameModal with
    | none => rfl
    | some modal =>
      rw [hrename, Option.isSome_some, Bool.toNat_true] at hone
      omega
  unfold handleKey
  rw [hrename, hnew]
  dsimp only
  unfold handleNewModalKey
  cases code with
  | enter => exact fun _ _ m' hm' => nomatch hm'
  | esc => exact fun m' hm' => nomatch hm'
  | _ => exact fun m' hm' => (Option.some.inj hm').symm

/-- The new-session modal is opened with nothing over the list, by a call. -/
theorem newModal_handleKey (hnew : d.newModal = none) :
    (d.handleKey lower code).Gives (fun d' => d'.newModal = none) ∨
      d.overlays = 0 ∧ d.handleKey lower code = d.handleListKey .create := by
  unfold handleKey
  cases hrename : d.renameModal with
  | some modal =>
    dsimp only
    unfold handleRenameModalKey
    split
    · exact Or.inl hnew
    · exact Or.inl hnew
    · exact Or.inl fun _ _ => hnew
  | none =>
    rw [hnew]
    dsimp only
    split_ifs with hhelp
    · unfold handleHelpKey
      split <;> exact Or.inl hnew
    · have hfree : d.overlays = 0 :=
        overlays_eq_zero.mpr ⟨Bool.eq_false_iff.mpr hhelp, hrename, hnew⟩
      cases code.arm with
      | create => exact Or.inr ⟨hfree, rfl⟩
      | rename =>
        unfold handleListKey openRenameModal
        cases d.selectedSession <;> exact Or.inl hnew
      | jump => exact Or.inl (gives_jumpToSelected fun _ => hnew)
      | kill => exact Or.inl (gives_killSelected fun _ => hnew)
      | quit | help | select | nothing => exact Or.inl hnew

end Dashboard

/-! ### The modals of a run

A modal is opened by one key and stays until another closes it. So a modal there is at the end of a
run was opened at some occasion of it, after which it was there all along; this occasion fixes what
the modal is about. It is found by induction on the run, from its end. -/

namespace Console

variable {lower : String → String} {s : Console}

/-- What a key comes to is on the screen afterwards, unless the dashboard has quit. -/
theorem of_press {P : Dashboard → Prop} {d : Dashboard} {code : KeyCode}
    (h : (d.handleKey lower code).Gives P) (fate : Fate) (amb : Ambient) (now : Instant)
    {d' : Dashboard} (hd' : (s.press lower d code fate amb now).dash = some d') : P d' := by
  unfold press at hd'
  cases hpress : d.handleKey lower code with
  | done e quit =>
    rw [hpress] at h hd'
    dsimp only at hd'
    split_ifs at hd'
    obtain rfl := Option.some.inj hd'
    exact h
  | call method params goOn =>
    rw [hpress] at h hd'
    obtain rfl := Option.some.inj hd'
    exact h _ _

/-- At most one thing lies over the list. -/
def Tidy (s : Console) : Prop :=
  ∀ d ∈ s.dash, d.overlays ≤ 1

/-- One occasion leaves one modal at most. -/
theorem Tidy.step (h : s.Tidy) (i : Occasion) : (s.step lower i).Tidy := by
  have hmap {g : Dashboard → Dashboard} (hg : ∀ d, (g d).overlays = d.overlays) :
      ∀ d ∈ s.dash.map g, d.overlays ≤ 1 := by
    intro d hd
    obtain ⟨d, hd', rfl⟩ := Option.map_eq_some_iff.mp hd
    exact (hg d).le.trans (h d hd')
  cases i with
  | request i => exact h
  | event now event => exact hmap fun _ => rfl
  | tick now => exact hmap fun _ => rfl
  | draw => exact hmap fun _ => rfl
  | key code fate amb now =>
    intro d' hd'
    unfold Console.step at hd'
    cases hdash : s.dash with
    | none =>
      rw [hdash] at hd'
      exact h d' hd'
    | some d =>
      rw [hdash] at hd'
      exact of_press (Dashboard.overlays_handleKey lower code (h d hdash)) fate amb now hd'

/-- A step that is a key to a dashboard, or leaves the modals alone. -/
theorem step_cases (lower : String → String) (s : Console) (i : Occasion) :
    (∃ d code fate amb now, s.dash = some d ∧ i = .key code fate amb now ∧
      s.step lower i = s.press lower d code fate amb now) ∨
    (s.step lower i).renameModal = s.renameModal ∧ (s.step lower i).newModal = s.newModal ∧
      ((s.step lower i).dash.isSome = true → ∀ text, i.type text = text) := by
  have hmap {g : Dashboard → Dashboard} {α : Type} {f : Dashboard → Option α}
      (hg : ∀ d, f (g d) = f d) : (s.dash.map g).bind f = s.dash.bind f := by
    rw [Option.bind_map]
    exact congrArg s.dash.bind (funext hg)
  cases i with
  | request i => exact Or.inr ⟨rfl, rfl, fun _ _ => rfl⟩
  | event now event => exact Or.inr ⟨hmap fun _ => rfl, hmap fun _ => rfl, fun _ _ => rfl⟩
  | tick now => exact Or.inr ⟨hmap fun _ => rfl, hmap fun _ => rfl, fun _ _ => rfl⟩
  | draw => exact Or.inr ⟨hmap fun _ => rfl, hmap fun _ => rfl, fun _ _ => rfl⟩
  | key code fate amb now =>
    unfold step
    cases hdash : s.dash with
    | none =>
      refine Or.inr ⟨rfl, rfl, fun hsome => ?_⟩
      dsimp only at hsome
      rw [hdash] at hsome
      cases hsome
    | some d => exact Or.inl ⟨d, code, fate, amb, now, rfl, rfl, rfl⟩

/-- A modal for a rename is one of a dashboard that is still open. -/
theorem dash_of_renameModal {m : RenameModal} (h : s.renameModal = some m) :
    ∃ d, s.dash = some d ∧ d.renameModal = some m :=
  Option.bind_eq_some_iff.mp h

/-- A modal for a new session is one of a dashboard that is still open. -/
theorem dash_of_newModal {m : NewModal} (h : s.newModal = some m) :
    ∃ d, s.dash = some d ∧ d.newModal = some m :=
  Option.bind_eq_some_iff.mp h

/-- While the rename modal is there, keys are typed in it. -/
theorem renameModal_edit (i : Occasion) {m m' : RenameModal} (h : s.renameModal = some m)
    (h' : (s.step lower i).renameModal = some m') : m' = { m with input := i.type m.input } := by
  obtain ⟨d', hd', hm'⟩ := dash_of_renameModal h'
  rcases step_cases lower s i with ⟨d, code, fate, amb, now, hd, rfl, hstep⟩ | ⟨hsame, -, htype⟩
  · rw [hstep] at hd'
    have hgives := of_press (d.gives_renameModal lower code) fate amb now hd' m' hm'
    rw [renameModal, hd, Option.bind_some] at h
    rw [h] at hgives
    exact hgives
  · rw [htype (Option.isSome_of_mem hd')]
    exact Option.some.inj (h'.symm.trans (hsame.trans h))

/-- The rename modal is put over the list for the session under the cursor. -/
theorem renameModal_put (i : Occasion) {m : RenameModal} (h : s.renameModal = none)
    (h' : (s.step lower i).renameModal = some m) :
    ∃ d session, s.dash = some d ∧ d.overlays = 0 ∧ d.selectedSession = some session ∧
      m = .opened session := by
  obtain ⟨d', hd', hm'⟩ := dash_of_renameModal h'
  rcases step_cases lower s i with ⟨d, code, fate, amb, now, hd, rfl, hstep⟩ | ⟨hsame, -, -⟩
  · rw [hstep] at hd'
    have hgives := of_press (d.gives_renameModal lower code) fate amb now hd' m hm'
    rw [renameModal, hd, Option.bind_some] at h
    rw [h] at hgives
    obtain ⟨hfree, session, hcursor, rfl⟩ := hgives
    exact ⟨d, session, hd, hfree, hcursor, rfl⟩
  · cases h'.symm.trans (hsame.trans h)

/-- While the new-session modal is there, keys are typed in it. -/
theorem newModal_edit (i : Occasion) {m m' : NewModal} (htidy : s.Tidy) (h : s.newModal = some m)
    (h' : (s.step lower i).newModal = some m') : m' = { m with query := i.type m.query } := by
  obtain ⟨d', hd', hm'⟩ := dash_of_newModal h'
  rcases step_cases lower s i with ⟨d, code, fate, amb, now, hd, rfl, hstep⟩ | ⟨-, hsame, htype⟩
  · rw [hstep] at hd'
    rw [newModal, hd, Option.bind_some] at h
    exact of_press (d.gives_newModal lower code (htidy d hd) h) fate amb now hd' m' hm'
  · rw [htype (Option.isSome_of_mem hd')]
    exact Option.some.inj (h'.symm.trans (hsame.trans h))

/-- A session that `session.list_active` answers with is stored, and has not finished. -/
theorem exists_row_of_listNonFinished {db : Db} {sessions : List Session}
    (h : db.listNonFinished = .ok sessions) {session : Session} (hmem : session ∈ sessions) :
    ∃ row ∈ db.sessions.rows, row.workingDir = session.workingDir ∧ row.status ≠ "finished" := by
  obtain ⟨all, hall, rfl⟩ := Except.map_eq_ok.mp h
  obtain ⟨hmem, hlive⟩ := List.mem_filter.mp hmem
  have hrows := listSessions_eq_ok.mp hall
  have hok : Except.ok session ∈ db.listRows.map rowToSession := hrows ▸ List.mem_map_of_mem hmem
  obtain ⟨row, hrow, hs⟩ := List.mem_map.mp hok
  refine ⟨row, mem_listRows.mp hrow, (rowToSession_ok hs).2.workingDir.symm, fun hfinished => ?_⟩
  rw [status_of_finished hs hfinished] at hlive
  cases hlive

/-- The directories of a new-session modal had a live session when it was opened. -/
theorem exists_row_of_recents {db : Db} {amb : Ambient} {fate : Fate} {r : Recents.Recent}
    (h : r ∈ (NewModal.opened (fate.reply
      (serve db ⟨.control Method.sessionListActive (.object []), amb⟩))).recents) :
    ∃ row ∈ db.sessions.rows, row.workingDir = r.1 ∧ row.status ≠ "finished" := by
  cases fate with
  | unsent e => cases h
  | lost e => cases h
  | answered =>
    have hread : Read.dispatch Method.sessionListActive (.object []) db =
        db.listNonFinished.toOption.map fun sessions => .array (sessions.map Session.toValue) := by
      rw [Read.dispatch, if_neg (by decide), if_neg (by decide), if_pos rfl]
    rw [Fate.reply, serve] at h
    dsimp only at h
    rw [Router.dispatch, hread] at h
    cases hlist : db.listNonFinished with
    | error e =>
      rw [hlist] at h
      cases h
    | ok sessions =>
      rw [hlist] at h
      obtain ⟨v, hv, htext⟩ := Recents.exists_sighting_of_mem h
      obtain ⟨value, hvalue, hsight⟩ := List.mem_filterMap.mp hv
      obtain ⟨session, hsession, rfl⟩ := List.mem_map.mp hvalue
      obtain ⟨row, hrow, hdir, hlive⟩ := exists_row_of_listNonFinished hlist hsession
      refine ⟨row, hrow, hdir.trans (Eq.trans ?_ htext), hlive⟩
      have hget : session.toValue.getStr "working_dir" = some session.workingDir :=
        Value.getStr_of_get ((Session.get_toValue session _).trans rfl)
      rw [Recents.sighting, hget, Option.bind_eq_bind, Option.bind_some] at hsight
      obtain ⟨ts, -, hsight⟩ := Option.bind_eq_some_iff.mp hsight
      rw [← Option.some.inj hsight]

/-- The new-session modal is put over the list with nothing typed, and with directories of live
sessions. -/
theorem newModal_put (i : Occasion) {m : NewModal} (h : s.newModal = none)
    (h' : (s.step lower i).newModal = some m) :
    ∃ d, s.dash = some d ∧ d.overlays = 0 ∧ m.query = "" ∧ m.recents = i.recents s ∧
      ∀ r ∈ m.recents, ∃ row ∈ s.db.sessions.rows,
        row.workingDir = r.1 ∧ row.status ≠ "finished" := by
  obtain ⟨d', hd', hm'⟩ := dash_of_newModal h'
  rcases step_cases lower s i with ⟨d, code, fate, amb, now, hd, rfl, hstep⟩ | ⟨-, hsame, -⟩
  · rw [hstep] at hd'
    rw [newModal, hd, Option.bind_some] at h
    rcases d.newModal_handleKey lower code h with hgives | ⟨hfree, hcreate⟩
    · cases hm'.symm.trans (of_press hgives fate amb now hd')
    · unfold press at hd'
      rw [hcreate] at hd'
      obtain rfl := Option.some.inj hd'
      obtain rfl := Option.some.inj hm'
      refine ⟨d, hd, hfree, ?_, rfl, fun r hr => exists_row_of_recents hr⟩
      cases fate.reply (serve s.db ⟨.control Method.sessionListActive (.object []), amb⟩) <;> rfl
  · cases h'.symm.trans (hsame.trans h)

/-! ### Whole runs

The two halves are put together. Whether the request reaches the daemon is for the connection to
say, and so is whether the answer comes back; what is done depends on the first only. -/

section Runs

variable {db : Db} {snap : Value} {l : List Occasion}

/-- A dashboard opens without a modal. -/
theorem tidy_opened : (opened db snap).Tidy := by
  intro d hd
  obtain rfl := Option.some.inj hd
  exact Nat.zero_le 1

/-- Keys that edit a modal edit its text. -/
theorem run_edit_renameModal (l : List Occasion) : ∀ m : RenameModal,
    Machine.run (fun (m : RenameModal) (i : Occasion) => { m with input := i.type m.input }) m l =
      { m with input := Machine.run Occasion.type m.input l } := by
  induction l with
  | nil => exact fun _ => rfl
  | cons i l ih => exact fun m => ih _

/-- So it is with the other modal. -/
theorem run_edit_newModal (l : List Occasion) : ∀ m : NewModal,
    Machine.run (fun (m : NewModal) (i : Occasion) => { m with query := i.type m.query }) m l =
      { m with query := Machine.run Occasion.type m.query l } := by
  induction l with
  | nil => exact fun _ => rfl
  | cons i l ih => exact fun m => ih _

/-- **The rename modal is about the session that was under the cursor when it was opened**, and what
it says has been typed since. -/
theorem exists_session_of_renameModal {m : RenameModal}
    (h : (Machine.run (step lower) (opened db snap) l).renameModal = some m) :
    ∃ session : Session, m.sessionId = session.id ∧
      Typed lower (fun s => s.renameModal.isSome)
        (fun _ d _ text => d.selectedSession = some session ∧ text = session.displayName)
        (opened db snap) l m.input := by
  obtain ⟨l₁, i, l₂, m₀, rfl, hnone, hput, rfl, hthere⟩ := Machine.exists_put
    (I := fun _ => True) (f := renameModal) (fun _ _ _ => trivial)
    (fun _ i _ _ _ => renameModal_edit i) trivial rfl l h
  obtain ⟨d, session, hdash, hfree, hcursor, rfl⟩ := renameModal_put i hnone hput
  rw [run_edit_renameModal]
  exact ⟨session, rfl, l₁, i, l₂, d, session.displayName, rfl, hdash, hfree, ⟨hcursor, rfl⟩, rfl,
    hthere⟩

/-- The new-session modal has the directories of sessions that were live when it was opened, and
what it says has been typed since. -/
theorem typed_of_newModal {m : NewModal}
    (h : (Machine.run (step lower) (opened db snap) l).newModal = some m) :
    Typed lower (fun s => s.newModal.isSome)
      (fun s _ i text => text = "" ∧ m.recents = i.recents s ∧
        ∀ r ∈ m.recents, ∃ row ∈ s.db.sessions.rows,
          row.workingDir = r.1 ∧ row.status ≠ "finished") (opened db snap) l m.query := by
  obtain ⟨l₁, i, l₂, m₀, rfl, hnone, hput, rfl, hthere⟩ := Machine.exists_put
    (I := Tidy) (f := newModal) (fun _ i h => h.step i)
    (fun _ i _ _ htidy => newModal_edit i htidy) tidy_opened rfl l h
  obtain ⟨d, hdash, hfree, hquery, hsame, hrecents⟩ := newModal_put i hnone hput
  rw [run_edit_newModal]
  exact ⟨l₁, i, l₂, d, m₀.query, rfl, hdash, hfree, ⟨hquery, hsame, hrecents⟩, rfl, hthere⟩

/-- What a key means by the dashboard as it is, it means to who has seen all of it. -/
theorem meant_iff {code : KeyCode} {w : Wish} :
    Meant lower (opened db snap) l code w ↔
      ∃ d, (Machine.run (step lower) (opened db snap) l).dash = some d ∧ d.Means lower code w := by
  constructor
  · intro h
    cases h with
    | jump hdash hfree hkey hcursor => exact ⟨_, hdash, .jump hfree hkey hcursor⟩
    | kill hdash hfree hkey hcursor => exact ⟨_, hdash, .kill hfree hkey hcursor⟩
    | rename hdash hmodal hkey hsession _ hname =>
      exact ⟨_, hdash, hsession ▸ .rename hmodal hkey hname⟩
    | create hdash hrename hmodal hkey _ hpath =>
      exact ⟨_, hdash, .create hrename hmodal hkey hpath⟩
  · rintro ⟨d, hdash, h⟩
    cases h with
    | jump hfree hkey hcursor => exact .jump hdash hfree hkey hcursor
    | kill hfree hkey hcursor => exact .kill hdash hfree hkey hcursor
    | rename hmodal hkey hname =>
      obtain ⟨session, hsession, htyped⟩ := exists_session_of_renameModal
        (Option.bind_eq_some_iff.mpr ⟨d, hdash, hmodal⟩)
      rw [hsession]
      exact .rename hdash hmodal hkey hsession htyped hname
    | create hrename hmodal hkey hpath =>
      have htyped := typed_of_newModal (Option.bind_eq_some_iff.mpr ⟨d, hdash, hmodal⟩)
      exact .create hdash hrename hmodal hkey htyped hpath

section Press

variable {s : Console} {d : Dashboard} {code : KeyCode} (fate : Fate) (amb : Ambient)
  (now : Instant)

/-- **A key with a meaning does what is meant**, if its request reaches the daemon. -/
theorem press_of_means {w : Wish} (h : d.Means lower code w) :
    (s.press lower d code fate amb now).db =
        (if fate.reaches then (w.effect s.db amb).1 else s.db) ∧
      (s.press lower d code fate amb now).tmuxCalls =
        s.tmuxCalls ++ if fate.reaches then (w.effect s.db amb).2 else [] := by
  obtain ⟨goOn, hcall⟩ := h.handleKey
  unfold press
  rw [hcall, ← w.serve_eq s.db amb]
  exact ⟨rfl, rfl⟩

/-- A key without a meaning may still ask for the sessions, which changes nothing. -/
theorem press_of_not_means (h : ∀ w, ¬d.Means lower code w) :
    (s.press lower d code fate amb now).db = s.db ∧
      (s.press lower d code fate amb now).tmuxCalls = s.tmuxCalls := by
  unfold press
  cases hpress : d.handleKey lower code with
  | done d quit => exact ⟨rfl, rfl⟩
  | call method params goOn =>
    rcases Dashboard.means_of_call hpress with ⟨w, hw, -⟩ | rfl
    · exact absurd hw (h w)
    · have hdb : (serve s.db ⟨.control Method.sessionListActive params, amb⟩).db = s.db ∧
          (serve s.db ⟨.control Method.sessionListActive params, amb⟩).tmuxCalls = [] := by
        change (Router.dispatch _ _ _ _).db = _ ∧ (Router.dispatch _ _ _ _).tmuxCalls = _
        unfold Router.dispatch
        split
        · exact ⟨rfl, rfl⟩
        · rw [Mutate.dispatch_of_mem_read (by decide)]
          exact ⟨rfl, rfl⟩
      dsimp only
      rw [hdb.1, hdb.2, ite_self, ite_self, List.append_nil]
      exact ⟨rfl, rfl⟩

end Press

/-- Two sessions that have been heard of, in directories of their own. -/
def twoProjects : Db :=
  Machine.run next Db.fresh
    [⟨.discover "opencode" "main" "%1" "/home/u/proj", .noon (.ofTimeLow 1) 2026⟩,
      ⟨.discover "opencode" "main" "%2" "/home/u/blog", .noon (.ofTimeLow 2) 2026⟩,
      ⟨.reportStatus "opencode" (.ofTimeLow 2) "idle", .noon (.ofTimeLow 3) 2026⟩,
      ⟨.reportStatus "opencode" (.ofTimeLow 1) "idle", .noon (.ofTimeLow 3) 2027⟩]

/-- The new-session modal is opened, and a letter typed in it. -/
def typing : List Occasion :=
  let amb := Ambient.noon (.ofTimeLow 1) 2026
  [.key (.char 'c') .answered amb 0, .tick 1, .key (.char 'b') .answered amb 2]

end Runs

end Console

end Agentd
