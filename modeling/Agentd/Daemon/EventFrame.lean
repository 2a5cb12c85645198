import Agentd.Handlers.Rpc
import Agentd.Handlers.Step

/-!
# Events on the wire

A subscriber gets each event as a line, a notification whose `params` are the event. An event reads
back from its JSON form whatever it says (`Agentd.Event.fromValue_toValue`).

A request emits one event at most (`Agentd.length_events_handle`), so that what has been emitted
since some moment is what the requests since then have emitted
(`Agentd.exists_emitted_of_suffix`).

The second of these is what lets a run of requests and a run of events be cut at the same place.
Without it a subscriber could come between two events of one request, and would have seen half of
what it did.
-/

namespace Agentd

open Json Rfc3339

namespace Event

/-- The JSON form of an event. -/
def toValue (e : Event) : Value :=
  .object [("kind", .string e.kind), ("payload", e.payload),
    ("session_id", (e.sessionId.map fun id => .string id.toText).getD .null),
    ("ts", .string (toJsonText e.ts))]

/-- The event a JSON object stands for. -/
def fromValue (v : Value) : Option Event := do
  let kind ← v.getStr "kind"
  let sessionId ← v.getOpt "session_id" fun x => x.asStr.bind Uuid.parseStr
  let payload ← v.get "payload"
  let ts ← (v.get "ts").bind Session.instant
  some { kind, sessionId, payload, ts }

/-- **The JSON form of an event reads back.** -/
theorem fromValue_toValue (e : Event) : fromValue e.toValue = some e := by
  have hkind : e.toValue.getStr "kind" = some e.kind := rfl
  have hpayload : e.toValue.get "payload" = some e.payload := rfl
  have hts : (e.toValue.get "ts").bind Session.instant = some e.ts := fromStr_toJsonText e.ts
  have hid : e.toValue.getOpt "session_id" (fun x => x.asStr.bind Uuid.parseStr) =
      some e.sessionId := by
    have hget : e.toValue.get "session_id" =
        some ((e.sessionId.map fun id => .string id.toText).getD .null) := rfl
    rw [Value.getOpt, hget]
    cases e.sessionId with
    | none => rfl
    | some id => exact congrArg (Option.map some) (Uuid.parseStr_toText id)
  rw [fromValue, hkind, hid, hpayload, hts]
  rfl

/-- What `run_subscribe` writes for an event. -/
def frame (e : Event) : Value :=
  .object [("jsonrpc", .string "2.0"), ("method", .string Method.event), ("params", e.toValue)]

/-- What the reader of `ControlClient::subscribe` makes of a message. -/
def ofFrame (msg : Value) : Option Event :=
  if (msg.get "id").isNone then (msg.get "params").bind fromValue else none

/-- **A frame is read as the event it was made from.** -/
theorem ofFrame_frame (e : Event) : ofFrame e.frame = some e :=
  fromValue_toValue e

end Event

/-! ### One event for a request

Each handler emits at most one event, and always after its last write. So the events of a run are
cut where its requests are: a suffix of what was emitted is what some of the last requests emitted.
-/

/-- At most one event. -/
def Outcome.Single (o : Outcome) : Prop :=
  o.events.length ≤ 1

/-- A request on the control socket emits one event or none. -/
theorem single_mutate (method : String) (params : Value) (db : Db) (amb : Ambient) :
    (Mutate.dispatch method params db amb).Single := by
  unfold Mutate.dispatch
  split_ifs
  · unfold Mutate.sessionCreate
    dsimp only
    repeat' split
    all_goals first | exact Nat.le_refl 1 | exact Nat.zero_le 1
  · unfold Mutate.sessionRename
    repeat' split
    all_goals first | exact Nat.le_refl 1 | exact Nat.zero_le 1
  · unfold Mutate.sessionDismissError
    repeat' split
    all_goals first | exact Nat.le_refl 1 | exact Nat.zero_le 1
  · unfold Mutate.sessionJump
    dsimp only
    repeat' split
    all_goals first | exact Nat.le_refl 1 | exact Nat.zero_le 1
  · unfold Mutate.sessionKill
    dsimp only
    repeat' split
    all_goals first | exact Nat.le_refl 1 | exact Nat.zero_le 1
  · exact Nat.le_refl 1
  · exact Nat.zero_le 1

/-- A request of a plugin emits one event or none. -/
theorem single_plugin (method : String) (params : Value) (db : Db) (name : String)
    (amb : Ambient) : (Plugin.dispatch method params db name amb).Single := by
  unfold Plugin.dispatch
  split_ifs
  · unfold Plugin.pluginHello
    repeat' split
    all_goals first | exact Nat.le_refl 1 | exact Nat.zero_le 1
  · unfold Plugin.sessionDiscover
    dsimp only
    repeat' split
    all_goals first | exact Nat.le_refl 1 | exact Nat.zero_le 1
  · unfold Plugin.sessionReportEvent Plugin.applyReport
    dsimp only
    repeat' split
    all_goals first | exact Nat.le_refl 1 | exact Nat.zero_le 1
  · exact Nat.zero_le 1
  · exact Nat.zero_le 1
  · exact Nat.zero_le 1

/-- A request emits one event at most. -/
theorem length_events_handle (db : Db) (i : Input) : (handle db i).Single := by
  obtain ⟨request, amb⟩ := i
  cases request with
  | control method params => exact single_mutate method params db amb
  | plugin name method params => exact single_plugin method params db name amb

/-- **The last events of a run are those of its last requests.** -/
theorem exists_emitted_of_suffix (l : List Input) : ∀ (db : Db) {events : List Event},
    events <:+ emitted db l → ∃ l₀ l₁, l = l₀ ++ l₁ ∧
      events = emitted (Machine.run next db l₀) l₁ := by
  induction l with
  | nil =>
    intro db events h
    exact ⟨[], [], rfl, List.suffix_nil.mp h⟩
  | cons i l ih =>
    intro db events h
    rw [emitted_cons] at h
    have hsingle := length_events_handle db i
    rw [Outcome.Single] at hsingle
    -- either all of them are of later requests, or this one is the first
    by_cases hlater : events <:+ emitted (next db i) l
    · obtain ⟨l₀, l₁, rfl, hevents⟩ := ih (next db i) hlater
      exact ⟨i :: l₀, l₁, rfl, hevents⟩
    · refine ⟨[], i :: l, rfl, h.eq_of_length_le ?_⟩
      have hlong : (emitted (next db i) l).length < events.length := by
        by_contra hshort
        exact hlater (List.suffix_of_suffix_length_le h (List.suffix_append _ _)
          (not_lt.mp hshort))
      rw [List.length_append]
      omega

end Agentd
