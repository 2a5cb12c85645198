import Agentd.Handlers.Step
import Agentd.Supervisor.Model

/-!
# Heartbeats nobody hears

A plugin sends `plugin.heartbeat` over its socket, a `PluginHeartbeat` holds the time of the
last one, and a monitor task looks at it every five seconds. The first two are not
connected: `handle_plugin_connection` has no access to the heartbeat, and the handler of
`plugin.heartbeat` answers without touching anything. So the time in a heartbeat is
the time its plugin was spawned.

`Agentd.Monitored.untroubled_iff` says what follows: the monitor is content exactly as
long as it looks within fifteen seconds of the spawn, however often the plugin reports.

So the time since the spawn is all that counts, and neither a heartbeat nor any other request of the
plugin is. What the monitor does with a plugin that it finds stale is in
`Agentd.Supervisor.RestartLimit`.
-/

namespace Agentd

open Json

/-- `Duration::from_secs`, in nanoseconds. -/
def seconds (n : ℕ) : ℕ :=
  n * 1000000000

/-- `HEARTBEAT_TIMEOUT`. -/
def heartbeatTimeout : ℕ :=
  seconds 15

namespace PluginHeartbeat

/-- `PluginHeartbeat::touch`. -/
def touch (h : PluginHeartbeat) (now : ℕ) : PluginHeartbeat :=
  { h with last := now }

/-- `PluginHeartbeat::is_alive`. -/
def isAlive (h : PluginHeartbeat) (timeout now : ℕ) : Bool :=
  now - h.last < timeout

/-- `handle_heartbeat`, which nothing calls. -/
def handleHeartbeat (h : PluginHeartbeat) (body : Value) (now : ℕ) : PluginHeartbeat :=
  let eventsTotal := ((body.get "events_total").bind Value.asU64).getD h.eventsTotal
  let invalidTotal := ((body.get "invalid_total").bind Value.asU64).getD h.invalidTotal
  { h with eventsTotal, invalidTotal }.touch now

end PluginHeartbeat

/-! ### The monitor

It looks every five seconds, and takes a heartbeat of fifteen seconds or more for stale. -/

/-- The task of `spawn_monitor`. -/
structure Monitor where
  restartsInWindow : List ℕ := []
  /-- Whether the task has not given up. -/
  running : Bool := true

/-- One round of the task, after its sleep. -/
def Monitor.tick (m : Monitor) (beat : PluginHeartbeat) (now : ℕ) : Monitor :=
  if !m.running then m
  else if beat.isAlive heartbeatTimeout now then m
  else
    let restartsInWindow := m.restartsInWindow.filter fun t => now - t < seconds 60
    if restartsInWindow.length ≥ 3 then { restartsInWindow, running := false }
    else { m with restartsInWindow := restartsInWindow ++ [now] }

/-! ### The connection

A request of the plugin goes to the dispatcher, which answers it. The heartbeat of the supervisor is
not among what the dispatcher is given. -/

/-- One request of `handle_plugin_connection`: the frame as it was read. -/
def handleFrame (pluginName : String) (msg : Value) (db : Db) (amb : Ambient) : Outcome :=
  let method := (msg.getStr "method").getD ""
  let params := (msg.get "params").getD .null
  handle db ⟨.plugin pluginName method params, amb⟩

/-! ### The two at work

Requests of the plugin, ticks of the monitor and the clock come in any order. The time of the
heartbeat is changed by none of them. -/

/-- An autostarted plugin, as the daemon sees it. -/
structure Monitored where
  now : ℕ
  db : Db
  beat : PluginHeartbeat
  monitor : Monitor := {}
  /-- When the last heartbeat of the plugin was answered, or when it was spawned. -/
  answered : ℕ

/-- What can happen while the plugin runs. -/
inductive Moment
  /-- A frame on the connection of some plugin. -/
  | frame (pluginName : String) (msg : Value) (amb : Ambient)
  | tick
  | elapse (d : ℕ)

namespace Monitored

/-- The plugin was just spawned. -/
def spawned (db : Db) (now : ℕ) : Monitored where
  now := now
  db := db
  beat := .new now
  answered := now

/-- The frame is a heartbeat of `name` that was answered ok. -/
def Beats (name pluginName : String) (msg : Value) (o : Outcome) : Prop :=
  pluginName = name ∧ msg.getStr "method" = some Method.pluginHeartbeat ∧ ¬o.IsError

instance (name pluginName : String) (msg : Value) (o : Outcome) :
    Decidable (Beats name pluginName msg o) :=
  inferInstanceAs (Decidable (_ ∧ _ ∧ ¬_))

/-- One step, for the plugin `name`. The heartbeat is not among what the connection works on. -/
def step (name : String) (s : Monitored) : Moment → Monitored
  | .frame pluginName msg amb =>
    let o := handleFrame pluginName msg s.db amb
    { s with
      db := o.db
      answered := if Beats name pluginName msg o then s.now else s.answered }
  | .tick => { s with monitor := s.monitor.tick s.beat s.now }
  | .elapse d => { s with now := s.now + d }

/-- The last heartbeat that was answered is less than the timeout ago. -/
def Kept (s : Monitored) : Prop :=
  s.now - s.answered < heartbeatTimeout

instance : DecidablePred Kept :=
  fun s => inferInstanceAs (Decidable (s.now - s.answered < heartbeatTimeout))

/-- The monitor has recorded no restart and has not given up. -/
def Untroubled (s : Monitored) : Prop :=
  s.monitor.restartsInWindow = [] ∧ s.monitor.running

/-- The monitor looks less than the timeout after the spawn, if it looks. -/
def LooksEarly (spawn : ℕ) (s : Monitored) (m : Moment) : Prop :=
  m = .tick → s.now - spawn < heartbeatTimeout

variable {name : String} {s : Monitored} {spawn : ℕ}

/-- Nothing touches the heartbeat. -/
theorem last_step (s : Monitored) (m : Moment) : (step name s m).beat = s.beat := by
  cases m <;> rfl

/-- A content monitor stays so exactly when it finds the heartbeat alive. -/
theorem tick_iff {m : Monitor} (h : m.restartsInWindow = [] ∧ m.running) (beat : PluginHeartbeat)
    (now : ℕ) :
    ((m.tick beat now).restartsInWindow = [] ∧ (m.tick beat now).running) ↔
      beat.isAlive heartbeatTimeout now := by
  unfold Monitor.tick
  rw [if_neg (by simp [h.2])]
  by_cases halive : beat.isAlive heartbeatTimeout now
  · rw [if_pos halive]
    exact iff_of_true h halive
  · rw [if_neg halive]
    refine iff_of_false ?_ halive
    -- it is the first restart
    rw [h.1]
    simp

/-- A step leaves the monitor content exactly when the monitor looks early. -/
theorem untroubled_step_iff (hlast : s.beat.last = spawn) (h : Untroubled s) (m : Moment) :
    Untroubled (step name s m) ↔ LooksEarly spawn s m := by
  cases m with
  | frame pluginName msg amb => exact iff_of_true h nofun
  | elapse d => exact iff_of_true h nofun
  | tick =>
    have halive : s.beat.isAlive heartbeatTimeout s.now ↔ s.now - spawn < heartbeatTimeout := by
      rw [PluginHeartbeat.isAlive, hlast, decide_eq_true_iff]
    exact (tick_iff h s.beat s.now).trans (halive.trans ⟨fun h _ => h, fun h => h rfl⟩)

/-- **The monitor is content all along a run exactly when it never looks later than the timeout
after the spawn**, whatever the plugin reports. In the run there may be any messages of any plugin,
at any times: none of them touches the heartbeat, which is why the condition does not mention them.
-/
theorem untroubled_iff (name : String) (db : Db) (spawn : ℕ) (l : List Moment) :
    Machine.Throughout (step name) Untroubled (spawned db spawn) l ↔
      Machine.Along (step name) (LooksEarly spawn) (spawned db spawn) l :=
  Machine.throughout_iff_along_of_invariant (I := fun s => s.beat.last = spawn)
    (fun s m hlast => by rw [last_step, hlast]) (fun _ m hlast h => untroubled_step_iff hlast h m)
    l (spawned db spawn) rfl ⟨rfl, rfl⟩

/-- A heartbeat. -/
def beating : Moment :=
  .frame "opencode" (.object [("method", .string Method.pluginHeartbeat), ("params", .object [])])
    (.noon (.ofTimeLow 1) 2026)

/-- A quarter of a minute of a plugin that beats every five seconds. -/
def quarter : List Moment :=
  [.elapse (seconds 5), .tick, beating, .elapse (seconds 5), .tick, beating, .elapse (seconds 5),
    .tick]

/-- **A plugin that keeps its heartbeat is found stale**, fifteen seconds after the spawn. -/
theorem found_stale :
    ¬∀ (name : String) (db : Db) (spawn : ℕ) (l : List Moment),
      Machine.Throughout (step name) Kept (spawned db spawn) l →
        Machine.Throughout (step name) Untroubled (spawned db spawn) l := by
  intro h
  have hkept : Machine.Throughout (step "opencode") Kept (spawned Db.fresh 0) quarter := by decide
  have hlast := (h "opencode" Db.fresh 0 quarter hkept).last.1
  revert hlast
  decide

end Monitored

end Agentd
