import Agentd.Foundations.Broadcast
import Agentd.Foundations.Machine
import Agentd.Handlers.Basic

/-!
# The fan-out of events to subscribers

`EventBus::emit` sends an event on a broadcast channel, one task of the daemon, the bus
forwarder, receives it there and hands it to `SubscriberRegistry::broadcast`, and that sends
it to the channel of each subscriber registered at that moment. A subscriber registers,
unregisters, and drops its receiver, whenever it likes.

What each operation does in one piece is one `Fanout.Step`. `SubscriberRegistry::register`
has two pieces, since the id is drawn before the lock is taken: `fetchAdd` and `push`.

The abstract side is a `Subscription`: the forwarder, and a single subscriber that is told
everything while its phase is `on`. `Fanout.subscription_step` says that the daemon is, for
each subscriber, a subscription of its own, and what one subscriber does is not part of the
subscription of another. `Fanout.ordered_exactlyOnce` is read off this.
-/

namespace Agentd

/-- `SubscriptionId`, which is a `usize`. -/
abbrev SubscriptionId := ℕ

/-- The `mpsc` channel of a subscriber. -/
structure Channel where
  /-- The id its registration has drawn. -/
  id : SubscriptionId
  /-- Whether `register` has pushed the sender and returned the receiver. -/
  registered : Bool := false
  /-- What was sent into it. -/
  sent : List Event := []
  /-- Whether the receiver was dropped. -/
  closed : Bool := false

/-- `UnboundedSender::send`, which fails when the receiver is gone. -/
def Channel.send (c : Channel) (event : Event) : Option Channel :=
  if c.closed then none else some { c with sent := c.sent ++ [event] }

/-- `SubscriberRegistry`, and the channels it has made. A sender is the position of its
channel. -/
structure SubscriberRegistry where
  senders : List (SubscriptionId × ℕ) := []
  nextId : SubscriptionId := 1
  channels : List Channel := []

namespace SubscriberRegistry

/-- `register` up to the lock: a channel is made and `next_id.fetch_add(1)` is its id. -/
def fetchAdd (r : SubscriberRegistry) : SubscriberRegistry :=
  { r with
    nextId := (r.nextId + 1) % 2 ^ 64
    channels := r.channels ++ [{ id := r.nextId }] }

/-- The rest of `register`: the sender of channel `k` is pushed, and the caller gets its
receiver. -/
def push (r : SubscriberRegistry) (k : ℕ) : SubscriberRegistry :=
  match r.channels[k]? with
  | none => r
  | some c =>
    if c.registered then r
    else
      { r with
        senders := r.senders ++ [(c.id, k)]
        channels := r.channels.set k { c with registered := true } }

/-- `unregister`. -/
def unregister (r : SubscriberRegistry) (id : SubscriptionId) : SubscriberRegistry :=
  { r with senders := r.senders.filter fun p => p.1 ≠ id }

/-- The receiver of channel `k` is dropped, by the one who has got it. -/
def drop (r : SubscriberRegistry) (k : ℕ) : SubscriberRegistry :=
  match r.channels[k]? with
  | none => r
  | some c =>
    if c.registered then { r with channels := r.channels.set k { c with closed := true } } else r

/-- `senders.retain(|(_, tx)| tx.send(event.clone()).is_ok())`. -/
def retain (event : Event) : List (SubscriptionId × ℕ) → List Channel →
    List (SubscriptionId × ℕ) × List Channel
  | [], channels => ([], channels)
  | (id, k) :: senders, channels =>
    match channels[k]?.bind fun c => c.send event with
    | none => retain event senders channels
    | some c =>
      let (kept, channels) := retain event senders (channels.set k c)
      ((id, k) :: kept, channels)

/-- `broadcast`. -/
def broadcast (r : SubscriberRegistry) (event : Event) : SubscriberRegistry :=
  let (senders, channels) := retain event r.senders r.channels
  { r with senders, channels }

end SubscriberRegistry

/-- The bus with its forwarder, and the registry. The capacity is that of the channel, for which
`EventBus::new` asks at least one. -/
structure Fanout (capacity : ℕ) where
  forwarder : Forwarder Event capacity := .subscribe Event capacity
  registry : SubscriberRegistry := {}

namespace Fanout

/-- What can happen. -/
inductive Step
  /-- `EventBus::emit`. -/
  | emit (event : Event)
  /-- `bus_rx.recv()` in the forwarder. -/
  | recv
  /-- `registry_for_task.broadcast(&event)`, when the forwarder has received an event. -/
  | broadcast
  | fetchAdd
  | push (k : ℕ)
  | unregister (id : SubscriptionId)
  | drop (k : ℕ)

variable {capacity : ℕ}

/-- One step. -/
def step (s : Fanout capacity) : Step → Fanout capacity
  | .emit event => { s with forwarder := s.forwarder.send event }
  | .recv => { s with forwarder := s.forwarder.recv }
  | .broadcast =>
    match s.forwarder.held with
    | none => s
    | some event => { forwarder := s.forwarder.pass, registry := s.registry.broadcast event }
  | .fetchAdd => { s with registry := s.registry.fetchAdd }
  | .push k => { s with registry := s.registry.push k }
  | .unregister id => { s with registry := s.registry.unregister id }
  | .drop k => { s with registry := s.registry.drop k }

/-- The daemon after a list of steps. -/
def run (capacity : ℕ) (l : List Step) : Fanout capacity :=
  Machine.run step {} l

/-- The events emitted in a list of steps. -/
def emitted : List Step → List Event
  | [] => []
  | .emit event :: l => event :: emitted l
  | _ :: l => emitted l

/-- The registrations begun in a list of steps. -/
def registrations : List Step → ℕ
  | [] => 0
  | .fetchAdd :: l => registrations l + 1
  | _ :: l => registrations l

/-- What a step does to the forwarder. -/
def follow (f : Forwarder Event capacity) : Step → Forwarder Event capacity
  | .emit event => f.send event
  | .recv => f.recv
  | .broadcast => f.pass
  | _ => f

/-- The events that a forwarder broadcasts in a list of steps. -/
def forwarded : Forwarder Event capacity → List Step → List Event
  | _, [] => []
  | f, .broadcast :: l => f.held.toList ++ forwarded (follow f .broadcast) l
  | f, a :: l => forwarded (follow f a) l

/-- The step ends the subscription with this id and this channel. -/
def Step.ends (id : SubscriptionId) (k : ℕ) : Step → Bool
  | .unregister i => i = id
  | .drop j => j = k
  | _ => false

/-- The step unregisters or drops a subscriber other than the one with this id and this
channel. -/
def Step.EndsAnother (id : SubscriptionId) (k : ℕ) : Step → Prop
  | .unregister i => i ≠ id
  | .drop j => j ≠ k
  | _ => False

/-- The forwarder is not more events behind than the bus retains. -/
def KeepsUp (s : Fanout capacity) : Prop :=
  s.forwarder.behind ≤ capacity

/-- The run registers channel `k`: what comes before and what after. -/
structure Registers (capacity : ℕ) (l : List Step) (k : ℕ) (before after : List Step) :
    Prop where
  split : l = before ++ .push k :: after
  registering : ∃ c, (run capacity before).registry.channels[k]? = some c ∧ c.registered = false

/-- What the daemon owes to channel `k`, which is `c` at the end of a run. -/
structure Serves (capacity : ℕ) (l : List Step) (k : ℕ) (c : Channel) : Prop where
  /-- A subscriber that has not been registered has received nothing, -/
  unregistered : c.registered = false → c.sent = []
  registered : c.registered = true → ∃ before after, Registers capacity l k before after
  /-- and one that has, what was broadcast until it was unregistered or dropped, -/
  exactly : ∀ before after, Registers capacity l k before after →
    c.sent = forwarded (run capacity (before ++ [.push k])).forwarder
      (after.takeWhile fun a => !a.ends c.id k)
  /-- in the order of emission and without duplicates, -/
  ordered : c.sent.Sublist (emitted l)
  /-- with none missing as long as the forwarder keeps up, -/
  contiguous : ∀ before after, Registers capacity l k before after →
    Machine.Throughout step KeepsUp (run capacity (before ++ [.push k]))
      (after.takeWhile fun a => !a.ends c.id k) →
    c.sent <:+: emitted l
  /-- and whatever others do. -/
  apart : ∀ l', Machine.Thinned (Step.EndsAnother c.id k) l l' →
    ∃ c', (run capacity l').registry.channels[k]? = some c' ∧ c'.id = c.id ∧ c'.sent = c.sent

end Fanout

end Agentd
