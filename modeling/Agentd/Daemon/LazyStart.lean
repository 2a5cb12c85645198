import Mathlib.Data.Nat.Notation
import Mathlib.Tactic.SplitIfs

/-!
# Starting the daemon when it is needed

`ensure_daemon_running`: connect to the control socket, and when that fails, start a daemon and
try again until it listens. What connecting is, is a parameter of the function here
(`Agentd.ensureDaemonRunning`), since all of the loop hangs on it: `ControlClient::connect` stores
the path and dials nothing, so the function returns at once, and this is right only when a daemon
listens already (`Agentd.sound_connect_iff`).

The loop sleeps a fixed time between two attempts and gives up after so many of them, so that it
always returns: either with a client, or with the error that the time is out. When the daemon that
was started begins to listen, if ever, is given as a delay.
-/

namespace Agentd

/-! ### The socket and the clock

What a connection meets is a path with nothing under it, a socket that nobody listens at, or a
daemon; a daemon that was started appears there when its time has come. -/

/-- What is at the path of the control socket. -/
inductive ControlPath
  | absent
  /-- A file that no process listens at. -/
  | stale
  | live
deriving DecidableEq

/-- What becomes of `agentd daemon start --detach`. -/
inductive Launch
  /-- There is no current executable, or it cannot be run. -/
  | unspawned
  /-- The command ends, and the daemon it leaves behind listens after so many milliseconds, if
  ever. -/
  | exited (success : Bool) (delay : Option ℕ)

/-- What the function acts on. -/
structure Surroundings where
  path : ControlPath
  launch : Launch
  /-- In milliseconds. -/
  now : ℕ := 0
  /-- When a daemon that was started listens. -/
  due : Option ℕ := none
  forks : ℕ := 0

namespace Surroundings

/-- A connection to the socket succeeds. -/
def Listening (w : Surroundings) : Prop :=
  w.path = .live ∨ ∃ t ∈ w.due, t ≤ w.now

instance : DecidablePred Listening :=
  fun w => match h : w.due with
    | none => decidable_of_iff (w.path = .live) (by simp [Listening, h])
    | some t => decidable_of_iff (w.path = .live ∨ t ≤ w.now) (by simp [Listening, h])

def elapse (w : Surroundings) (d : ℕ) : Surroundings :=
  { w with now := w.now + d }

/-- The command ran. -/
def forked (w : Surroundings) (delay : Option ℕ) : Surroundings :=
  { w with forks := w.forks + 1, due := delay.map (w.now + ·) }

end Surroundings

/-! ### The clients

`ControlClient::connect` takes a path and keeps it. -/

/-- `ControlClient`. -/
structure ControlClient where
  path : String
deriving DecidableEq

/-- The errors that can come back. -/
inductive LazyStartError
  | io (text : String)
  | timedOut (text : String)
deriving DecidableEq

/-- What an attempt to connect comes to, and how long it takes. -/
structure Attempt where
  result : Except LazyStartError ControlClient
  took : ℕ := 0

/-- `ControlClient::connect`. -/
def ControlClient.connect (socket : String) (_ : Surroundings) : Attempt where
  result := .ok ⟨socket⟩

/-! ### The function

It tries, starts a daemon if that failed, and polls. Each attempt is preceded by a sleep, so that
forty of them take two seconds. -/

section

variable (connect : Surroundings → Attempt)

/-- Step 3, so many rounds of it. -/
def pollControl : ℕ → Surroundings → Except LazyStartError ControlClient × Surroundings
  | 0, w => (.error (.timedOut "daemon did not become reachable within 2s"), w)
  | n + 1, w =>
    let slept := w.elapse 50
    let attempt := connect slept
    let after := slept.elapse attempt.took
    match attempt.result with
    | .ok client => (.ok client, after)
    | .error _ => pollControl n after

/-- Steps 2 and 3. -/
def startDaemon (w : Surroundings) : Except LazyStartError ControlClient × Surroundings :=
  match w.launch with
  | .unspawned => (.error (.io "spawn"), w)
  | .exited false delay => (.error (.io "daemon start --detach exited"), w.forked delay)
  | .exited true delay => pollControl connect 40 (w.forked delay)

/-- `ensure_daemon_running`. An attempt that takes more than 100 ms ends the function. -/
def ensureDaemonRunning (w : Surroundings) : Except LazyStartError ControlClient × Surroundings :=
  let attempt := connect w
  if 100 < attempt.took then (.error (.timedOut "connect timeout"), w.elapse 100)
  else
    match attempt.result with
    | .ok client => (.ok client, w.elapse attempt.took)
    | .error _ => startDaemon connect (w.elapse attempt.took)

/-- What the function is for, when it is called at `w`. -/
structure LazyStartSound (w : Surroundings) : Prop where
  /-- When it returns a client, the client can connect. -/
  connected : (ensureDaemonRunning connect w).1.isOk → (ensureDaemonRunning connect w).2.Listening
  /-- It starts a daemon exactly when none listened. -/
  forked : (ensureDaemonRunning connect w).2.forks ≠ w.forks ↔ ¬w.Listening
  /-- It waits long enough for a daemon that listens within the polling window. -/
  waited : ∀ delay ≤ 40 * 50, w.launch = .exited true (some delay) →
    (ensureDaemonRunning connect w).1.isOk

end

/-! ### When it does what it is for

To be right is to return a client only when a daemon listens, to start one exactly when none did,
and to wait for one that comes to listen within two seconds. -/

/-- `connect` succeeds whatever is at the path, so the function returns at once. -/
theorem ensureDaemonRunning_connect (socket : String) (w : Surroundings) :
    ensureDaemonRunning (ControlClient.connect socket) w = (.ok ⟨socket⟩, w) :=
  rfl

/-- **The function is sound exactly when a daemon listens already.** The launch is any, also one
that would come up at once. Where nothing listens the function returns a client all the same and
forks nothing, so that both the connection and the fork that are promised are missing. -/
theorem sound_connect_iff (socket : String) (path : ControlPath) (launch : Launch) :
    LazyStartSound (ControlClient.connect socket) { path, launch } ↔ path = .live := by
  have hlisten : Surroundings.Listening { path, launch } ↔ path = .live := by
    simp [Surroundings.Listening]
  have hrun := ensureDaemonRunning_connect socket { path, launch }
  constructor
  · intro h
    have hconnected := h.connected
    rw [hrun] at hconnected
    exact hlisten.mp (hconnected rfl)
  · intro hlive
    constructor <;> rw [hrun]
    · exact fun _ => hlisten.mpr hlive
    · exact iff_of_false (fun h => h rfl) (fun h => h (hlisten.mpr hlive))
    · exact fun _ _ _ => rfl

/-- **A client is returned although nothing is at the path**, and no daemon is started. -/
theorem unsound_absent :
    ¬∀ (socket : String) (path : ControlPath) (delay : Option ℕ),
      LazyStartSound (ControlClient.connect socket) { path, launch := .exited true delay } := by
  intro h
  have hconnected := (h "control.sock" .absent none).connected rfl
  rcases hconnected with hlive | ⟨t, ht, -⟩
  · cases hlive
  · cases ht

end Agentd
