import Agentd.Handlers.Step

/-!
# The idle loop of the daemon

`Daemon::run` ends when its loop finds the flag `shutdown` of the `Daemon` set, which a signal
handler does. The request `daemon.shutdown` raises another flag, the static `SHUTDOWN` of the
handlers, and nothing reads that one.

`Agentd.Idle.stops_iff` says what an acknowledged `daemon.shutdown` is worth: the loop stops
when somebody sets the other flag.

The model has the two flags as two fields of one state, and a step that sets one leaves the other. A
request is acknowledged as soon as it is handled; what the loop does later is no part of the answer.
-/

namespace Agentd

open Json

namespace Idle

/-- Where the loop of `Daemon::run` is. -/
inductive Phase
  /-- Before the check of the flag. -/
  | guard
  /-- In `select!`. -/
  | waiting
  | stopped
deriving DecidableEq

/-- A daemon in its idle loop, and the flags. -/
structure State where
  db : Db
  /-- `handlers::mutate::SHUTDOWN`. -/
  requested : Bool := false
  /-- `Daemon::shutdown`. -/
  shutdown : Bool := false
  phase : Phase := .guard
  /-- Whether a `daemon.shutdown` was answered with success. -/
  acknowledged : Bool := false
  /-- The iterations begun since. -/
  rounds : ℕ := 0

/-- What can happen. -/
inductive Action
  | request (i : Input)
  /-- Somebody with a `shutdown_handle` sets the flag. -/
  | signal
  /-- The check at the head of the loop. -/
  | check
  /-- An event on the bus, or the end of the sleep. -/
  | wake

/-- The request is a `daemon.shutdown` that is answered with success. -/
def Acknowledges (i : Input) (o : Outcome) : Prop :=
  match i.request with
  | .control method _ => method = Method.daemonShutdown ∧ ¬o.IsError
  | .plugin .. => False

instance (i : Input) (o : Outcome) : Decidable (Acknowledges i o) := by
  unfold Acknowledges
  split <;> infer_instance

/-- The handling of a request, on a thread of its own. -/
def request (s : State) (i : Input) : State :=
  let o := handle s.db i
  { s with
    db := o.db
    requested := s.requested || o.shutdown
    acknowledged := s.acknowledged || decide (Acknowledges i o) }

/-- The head of the loop: `if self.shutdown.load(..) { break; }`. -/
def check (s : State) : State :=
  match s.phase with
  | .guard =>
    if s.shutdown then { s with phase := .stopped }
    else { s with phase := .waiting, rounds := if s.acknowledged then s.rounds + 1 else s.rounds }
  | _ => s

/-- The `select!` comes to an end. -/
def wake (s : State) : State :=
  match s.phase with
  | .waiting => { s with phase := .guard }
  | _ => s

/-- One step. -/
def step (s : State) : Action → State
  | .request i => request s i
  | .signal => { s with shutdown := true }
  | .check => check s
  | .wake => wake s

/-- Since a shutdown was acknowledged the loop has begun one iteration at most. -/
def Stops (s : State) : Prop :=
  s.rounds ≤ 1

instance : DecidablePred Stops :=
  fun s => inferInstanceAs (Decidable (s.rounds ≤ 1))

/-- When the loop comes to its head again, an iteration after the shutdown was
acknowledged, the flag of the `Daemon` is set. -/
def FlagSet (s : State) (a : Action) : Prop :=
  a = .check → s.phase = .guard → s.acknowledged → s.rounds = 1 → s.shutdown

/-- A step lets the loop begin no second iteration exactly when the flag is set in time. -/
theorem stops_step_iff {s : State} (h : Stops s) (a : Action) : Stops (step s a) ↔ FlagSet s a := by
  cases a with
  | request i => exact iff_of_true h nofun
  | signal => exact iff_of_true h nofun
  | wake =>
    refine iff_of_true ?_ nofun
    change (wake s).rounds ≤ 1
    unfold wake
    split <;> exact h
  | check =>
    change (check s).rounds ≤ 1 ↔ FlagSet s .check
    unfold check FlagSet
    cases hphase : s.phase with
    | waiting => exact iff_of_true h fun _ => nofun
    | stopped => exact iff_of_true h fun _ => nofun
    | guard =>
      cases hset : s.shutdown with
      | true => exact iff_of_true h fun _ _ _ _ => rfl
      | false =>
        cases hack : s.acknowledged with
        | false => exact iff_of_true h fun _ _ => nofun
        | true =>
          -- this is where an iteration begins
          have hrounds : s.rounds ≤ 1 := h
          simp only [Bool.false_eq_true, if_false, if_true, forall_const, imp_false]
          omega

/-- **An acknowledged shutdown stops the loop all along a run exactly when the flag of the `Daemon`
is set before the loop has gone round.** The request sets the flag of the handlers, which is another
one. So what ends the loop is a signal, and the condition is on when it comes. -/
theorem stops_iff (db : Db) (l : List Action) :
    Machine.Throughout step Stops { db } l ↔ Machine.Along step FlagSet { db } l :=
  Machine.throughout_iff_along (P := Stops) (fun _ a h => stops_step_iff h a) l { db }
    (Nat.zero_le 1)

/-- A client asks for a shutdown. -/
def shutdownRequest : Action :=
  .request ⟨.control Method.daemonShutdown (.object []), .noon (.ofTimeLow 1) 2026⟩

/-- **An acknowledged shutdown does not stop the daemon.** -/
theorem goes_on :
    ¬∀ (db : Db) (l : List Action), Machine.Throughout step Stops { db } l := by
  intro h
  have hlast := (h Db.fresh [shutdownRequest, .check, .wake, .check]).last
  revert hlast
  decide

end Idle

end Agentd
