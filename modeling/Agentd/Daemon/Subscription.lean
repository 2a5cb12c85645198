import Agentd.Daemon.Fanout

/-!
# The fan-out as one subscriber sees it

A `Agentd.Subscription` is the forwarder with a single subscriber. It is told what the
forwarder broadcasts while its phase is `on`, and what other subscribers do is no part of it.
`Agentd.Fanout.subscription_step` shows that for each subscriber the daemon is one of these,
and `Agentd.Fanout.ordered_exactlyOnce` says what follows for all of them.

The registry refers to channels by number and to subscribers by id, and it is the invariant
`Agentd.SubscriberRegistry.Ok` that makes the two the same. With it, an operation on one id is an
operation on one channel, and so the view of every other subscriber stays as it is.
-/

namespace Agentd

variable {capacity : ℕ}

namespace Subscription

/-- Where a subscription is. -/
inductive Phase
  | absent
  /-- In `register`, with an id, but not among the senders. -/
  | registering
  | on
  | off
deriving DecidableEq

end Subscription

/-- The bus with its forwarder, and one subscriber. -/
@[ext] structure Subscription (capacity : ℕ) where
  forwarder : Forwarder Event capacity := .subscribe Event capacity
  /-- How many ids were drawn. -/
  drawn : ℕ := 0
  phase : Subscription.Phase := .absent
  received : List Event := []

/-- The id of the `k`th registration, counted from zero. -/
def idOf (k : ℕ) : SubscriptionId :=
  (k + 1) % 2 ^ 64

namespace Subscription

open Fanout (Step)

/-- One step, for the `k`th to register. -/
def step (k : ℕ) (t : Subscription capacity) : Step → Subscription capacity
  | .emit event => { t with forwarder := t.forwarder.send event }
  | .recv => { t with forwarder := t.forwarder.recv }
  | .broadcast =>
    { t with
      forwarder := t.forwarder.pass
      received :=
        if t.phase = .on then t.received ++ t.forwarder.held.toList else t.received }
  | .fetchAdd =>
    { t with
      drawn := t.drawn + 1
      phase := if t.phase = .absent ∧ t.drawn = k then .registering else t.phase }
  | .push j => { t with phase := if t.phase = .registering ∧ j = k then .on else t.phase }
  | .unregister i => { t with phase := if t.phase = .on ∧ i = idOf k then .off else t.phase }
  | .drop j => { t with phase := if t.phase = .on ∧ j = k then .off else t.phase }

end Subscription

namespace SubscriberRegistry

open Subscription (Phase)

/-! ### What the operations do

`register` is two operations, since the id is drawn from an atomic counter before the lock on the
senders is taken, and `drop` is what `run_subscribe` does to its receiver when it returns. Each has
an effect only in the phase of a subscriber in which its task can come to it; otherwise it is no
step of anybody. -/

/-- The sender of a channel that was drawn for a new subscriber is listed under its id, at the end.
-/
theorem push_of_registering {r : SubscriberRegistry} {k : ℕ} {c : Channel}
    (hc : r.channels[k]? = some c) (hregistered : c.registered = false) :
    r.push k =
      { r with
        senders := r.senders ++ [(c.id, k)]
        channels := r.channels.set k { c with registered := true } } := by
  rw [push, hc]
  exact if_neg (by rw [hregistered]; exact Bool.false_ne_true)

/-- A sender is pushed once: there is no second registration of one channel. -/
theorem push_eq_self {r : SubscriberRegistry} {k : ℕ}
    (h : ¬∃ c : Channel, r.channels[k]? = some c ∧ c.registered = false) : r.push k = r := by
  unfold push
  split
  · rfl
  · exact if_pos (by_contra fun hreg => h ⟨_, ‹_›, Bool.eq_false_of_not_eq_true hreg⟩)

/-- The receiver goes, and its sender stays in the list until a broadcast finds it closed. -/
theorem drop_of_registered {r : SubscriberRegistry} {k : ℕ} {c : Channel}
    (hc : r.channels[k]? = some c) (hregistered : c.registered = true) :
    r.drop k = { r with channels := r.channels.set k { c with closed := true } } := by
  rw [drop, hc]
  exact if_pos hregistered

/-- A receiver that is not in use cannot go. -/
theorem drop_eq_self {r : SubscriberRegistry} {k : ℕ}
    (h : ¬∃ c : Channel, r.channels[k]? = some c ∧ c.registered = true) : r.drop k = r := by
  unfold drop
  split
  · rfl
  · exact if_neg fun hreg => h ⟨_, ‹_›, hreg⟩

/-! ### Registries that are in order

The ids are drawn one after the other, so that the `k`-th channel has the `k`-th id, and the list of
senders refers to channels that are there and registered, each once. -/

/-- The ids are given in turn, and each sender is that of the channel it says. -/
structure Ok (r : SubscriberRegistry) : Prop where
  nextId_eq : r.nextId = idOf r.channels.length
  id_eq : ∀ (k : ℕ) (c : Channel), r.channels[k]? = some c → c.id = idOf k
  unclosed : ∀ (k : ℕ) (c : Channel), r.channels[k]? = some c →
    c.registered = false → c.closed = false
  listed : ∀ p ∈ r.senders, p.1 = idOf p.2 ∧
    ∃ c : Channel, r.channels[p.2]? = some c ∧ c.registered = true
  nodup : (r.senders.map Prod.snd).Nodup

/-- An empty registry is in order. -/
theorem ok_new : ({} : SubscriberRegistry).Ok where
  nextId_eq := rfl
  id_eq := fun k c h => by cases h
  unclosed := fun k c h => by cases h
  listed := fun p h => by cases h
  nodup := List.nodup_nil

/-- It is kept when senders go, and channels change in other things. -/
theorem Ok.mono {r r' : SubscriberRegistry} (h : r.Ok) (hnext : r'.nextId = r.nextId)
    (hlength : r'.channels.length = r.channels.length)
    (hsenders : r'.senders.Sublist r.senders)
    (hchannels : ∀ (k : ℕ) (c : Channel), r.channels[k]? = some c →
      ∃ c' : Channel, r'.channels[k]? = some c' ∧
      c'.id = c.id ∧ (c.registered = true → c'.registered = true) ∧
      (c'.registered = false → c'.closed = c.closed)) :
    r'.Ok := by
  have hback : ∀ (k : ℕ) (c' : Channel), r'.channels[k]? = some c' →
      ∃ c : Channel, r.channels[k]? = some c ∧
      c'.id = c.id ∧ (c.registered = true → c'.registered = true) ∧
      (c'.registered = false → c'.closed = c.closed) := by
    intro k c' hc'
    obtain ⟨hlt, -⟩ := List.getElem?_eq_some_iff.mp hc'
    rw [hlength] at hlt
    obtain ⟨c'', hc'', hrest⟩ := hchannels k _ (List.getElem?_eq_getElem hlt)
    rw [hc', Option.some_inj] at hc''
    subst hc''
    exact ⟨_, List.getElem?_eq_getElem hlt, hrest⟩
  refine ⟨by rw [hnext, hlength, h.nextId_eq], fun k c' hc' => ?_, fun k c' hc' hreg => ?_,
    fun p hp => ?_, h.nodup.sublist (hsenders.map _)⟩
  · obtain ⟨c, hc, hid, -⟩ := hback k c' hc'
    rw [hid, h.id_eq k c hc]
  · obtain ⟨c, hc, -, hregistered, hclosed⟩ := hback k c' hc'
    rw [hclosed hreg]
    refine h.unclosed k c hc ?_
    cases hcr : c.registered with
    | false => rfl
    | true => rw [hregistered hcr] at hreg; exact hreg
  · obtain ⟨hid, c, hc, hregistered⟩ := h.listed p (hsenders.subset hp)
    obtain ⟨c', hc', -, hregistered', -⟩ := hchannels p.2 c hc
    exact ⟨hid, c', hc', hregistered' hregistered⟩

/-- A channel is replaced by one that differs in other things. -/
theorem getElem?_set_channel {channels : List Channel} {k : ℕ} {c d : Channel}
    (hc : channels[k]? = some c) (hid : d.id = c.id)
    (hregistered : c.registered = true → d.registered = true)
    (hclosed : d.registered = false → d.closed = c.closed) (j : ℕ) (b : Channel)
    (hb : channels[j]? = some b) :
    ∃ b' : Channel, (channels.set k d)[j]? = some b' ∧ b'.id = b.id ∧
      (b.registered = true → b'.registered = true) ∧
      (b'.registered = false → b'.closed = b.closed) := by
  by_cases hjk : j = k
  · subst hjk
    rw [hc, Option.some_inj] at hb
    subst hb
    obtain ⟨hlt, -⟩ := List.getElem?_eq_some_iff.mp hc
    exact ⟨d, List.getElem?_set_self hlt, hid, hregistered, hclosed⟩
  · exact ⟨b, by rw [List.getElem?_set_ne (Ne.symm hjk), hb], rfl, fun h => h, fun _ => rfl⟩

/-- The next id is one that no channel has yet. -/
theorem Ok.fetchAdd {r : SubscriberRegistry} (h : r.Ok) : r.fetchAdd.Ok := by
  have hnew : ∀ (k : ℕ) (c : Channel), (r.channels ++ [({ id := r.nextId } : Channel)])[k]? = some c →
      r.channels[k]? = some c ∨ k = r.channels.length ∧ c = { id := r.nextId } := by
    intro k c hc
    rcases lt_trichotomy k r.channels.length with hlt | rfl | hgt
    · exact Or.inl (by rwa [List.getElem?_append_left hlt] at hc)
    · rw [List.getElem?_concat_length, Option.some_inj] at hc
      exact Or.inr ⟨rfl, hc.symm⟩
    · rw [List.getElem?_eq_none (by rw [List.length_append, List.length_singleton]; omega)] at hc
      cases hc
  refine ⟨?_, fun k c hc => ?_, fun k c hc => ?_, fun p hp => ?_, h.nodup⟩
  · change (r.nextId + 1) % 2 ^ 64 = idOf (r.channels ++ [_]).length
    rw [h.nextId_eq, List.length_append, List.length_singleton, idOf, idOf, Nat.mod_add_mod]
  · rcases hnew k c hc with hold | ⟨rfl, rfl⟩
    · exact h.id_eq k c hold
    · exact h.nextId_eq
  · rcases hnew k c hc with hold | ⟨rfl, rfl⟩
    · exact h.unclosed k c hold
    · exact fun _ => rfl
  · obtain ⟨hid, c, hc, hregistered⟩ := h.listed p hp
    obtain ⟨hlt, -⟩ := List.getElem?_eq_some_iff.mp hc
    exact ⟨hid, c, by rw [← hc]; exact List.getElem?_append_left hlt, hregistered⟩

/-- A channel is listed when its sender is pushed, and was not before. -/
theorem Ok.push {r : SubscriberRegistry} (h : r.Ok) (k : ℕ) : (r.push k).Ok := by
  by_cases hregistering : ∃ c : Channel, r.channels[k]? = some c ∧ c.registered = false
  · obtain ⟨c, hc, hregistered⟩ := hregistering
    rw [push_of_registering hc hregistered]
    have hset : ({ r with channels := r.channels.set k { c with registered := true } } :
        SubscriberRegistry).Ok :=
      h.mono rfl List.length_set (List.Sublist.refl _)
        (getElem?_set_channel hc rfl (fun _ => rfl) fun hfalse => by cases hfalse)
    have hnew : k ∉ r.senders.map Prod.snd := by
      intro hk
      obtain ⟨p, hp, rfl⟩ := List.mem_map.mp hk
      obtain ⟨-, c', hc', hregistered'⟩ := h.listed p hp
      rw [hc, Option.some_inj] at hc'
      rw [← hc', hregistered] at hregistered'
      cases hregistered'
    obtain ⟨hlt, -⟩ := List.getElem?_eq_some_iff.mp hc
    refine ⟨hset.nextId_eq, hset.id_eq, hset.unclosed, fun p hp => ?_, ?_⟩
    · rcases List.mem_append.mp hp with hold | hlast
      · exact hset.listed p hold
      · obtain rfl := List.mem_singleton.mp hlast
        exact ⟨h.id_eq k c hc, _, List.getElem?_set_self hlt, rfl⟩
    · rw [List.map_append, List.nodup_append]
      refine ⟨h.nodup, List.nodup_singleton k, fun j hj i hi => ?_⟩
      obtain rfl := List.mem_singleton.mp hi
      rintro rfl
      exact hnew hj
  · rw [push_eq_self hregistering]
    exact h

/-- Removing a sender leaves the others where they are. -/
theorem Ok.unregister {r : SubscriberRegistry} (h : r.Ok) (id : SubscriptionId) :
    (r.unregister id).Ok :=
  h.mono rfl rfl List.filter_sublist fun _ c hc => ⟨c, hc, rfl, fun h => h, fun _ => rfl⟩

/-- Closing a channel removes no sender. -/
theorem Ok.drop {r : SubscriberRegistry} (h : r.Ok) (k : ℕ) : (r.drop k).Ok := by
  by_cases hregistered : ∃ c : Channel, r.channels[k]? = some c ∧ c.registered = true
  · obtain ⟨c, hc, hregistered⟩ := hregistered
    rw [drop_of_registered hc hregistered]
    refine h.mono rfl List.length_set (List.Sublist.refl _)
      (getElem?_set_channel hc rfl (fun h => h) fun hfalse => ?_)
    cases hregistered.symm.trans hfalse
  · rw [drop_eq_self hregistered]
    exact h

/-! ### A broadcast

`broadcast` sends to every sender in turn and retains those that could: `UnboundedSender::send`
fails exactly when the receiver is gone. As an id is listed once, each open channel gets the event
once. -/

/-- What a channel holds after one event was sent to it a number of times. -/
def sendTimes (event : Event) (n : ℕ) (c : Channel) : Channel :=
  if c.closed then c else { c with sent := c.sent ++ List.replicate n event }

theorem sendTimes_zero (event : Event) (c : Channel) : sendTimes event 0 c = c := by
  rw [sendTimes, List.replicate_zero, List.append_nil]
  exact ite_self c

/-- A send to a receiver that is gone fails, and its sender is dropped from the list. -/
theorem send_of_closed {c : Channel} (h : c.closed = true) (event : Event) :
    c.send event = none :=
  if_pos h

/-- An unbounded channel takes whatever is sent. -/
theorem send_of_open {c : Channel} (h : c.closed = false) (event : Event) :
    c.send event = some { c with sent := c.sent ++ [event] } :=
  if_neg (by rw [h]; exact Bool.false_ne_true)

/-- What is sent to a closed channel is lost, however often it is sent. -/
theorem sendTimes_of_closed {c : Channel} (h : c.closed = true) (event : Event) (n : ℕ) :
    sendTimes event n c = c :=
  if_pos h

/-- An open channel gets the event as often as its sender is listed. -/
theorem sendTimes_of_open {c : Channel} (h : c.closed = false) (event : Event) (n : ℕ) :
    sendTimes event n c = { c with sent := c.sent ++ List.replicate n event } :=
  if_neg (by rw [h]; exact Bool.false_ne_true)

/-- The senders go through one by one: the event is sent to the channel of the first, which
is open or not. -/
theorem retain_cons (event : Event) (p : SubscriptionId × ℕ)
    (senders : List (SubscriptionId × ℕ)) (channels : List Channel) :
    (∃ c : Channel, channels[p.2]? = some c ∧ c.closed = false ∧
      ∃ d, d = { c with sent := c.sent ++ [event] } ∧
      retain event (p :: senders) channels =
        (p :: (retain event senders (channels.set p.2 d)).1,
          (retain event senders (channels.set p.2 d)).2)) ∨
    ((∀ c : Channel, channels[p.2]? = some c → c.closed = true) ∧
      retain event (p :: senders) channels = retain event senders channels) := by
  obtain ⟨id, k⟩ := p
  rw [retain]
  cases channels[k]? with
  | none => exact Or.inr ⟨nofun, rfl⟩
  | some c =>
    rw [Option.bind_some]
    cases hclosed : c.closed with
    | true =>
      rw [send_of_closed hclosed]
      exact Or.inr ⟨fun c' hc' => Option.some_inj.mp hc' ▸ hclosed, rfl⟩
    | false =>
      rw [send_of_open hclosed]
      exact Or.inl ⟨c, rfl, hclosed, _, rfl, rfl⟩

/-- Every channel is sent the event as often as it is among the senders. -/
theorem retain_channels (event : Event) (k : ℕ) :
    ∀ (senders : List (SubscriptionId × ℕ)) (channels : List Channel),
      (retain event senders channels).2[k]? =
        channels[k]?.map (sendTimes event ((senders.map Prod.snd).count k)) := by
  intro senders
  induction senders with
  | nil =>
    intro channels
    cases h : channels[k]? with
    | none => exact h
    | some c => exact h.trans (congrArg some (sendTimes_zero event c).symm)
  | cons p senders ih =>
    intro channels
    rw [List.map_cons, List.count_cons]
    rcases retain_cons event p senders channels with ⟨c, hc, hopen, d, hd, heq⟩ | ⟨hclosed, heq⟩
    · obtain ⟨hlt, -⟩ := List.getElem?_eq_some_iff.mp hc
      have hopen' : d.closed = false := by rw [hd, hopen]
      rw [heq, ih]
      split_ifs with hk
      · obtain rfl : p.2 = k := eq_of_beq hk
        rw [List.getElem?_set_self hlt, hc, Option.map_some, Option.map_some,
          sendTimes_of_open hopen, sendTimes_of_open hopen', hd, List.append_assoc]
        rfl
      · rw [List.getElem?_set_ne (ne_of_beq_false (Bool.eq_false_of_not_eq_true hk))]
        rfl
    · rw [heq, ih]
      split_ifs with hk
      · obtain rfl : p.2 = k := eq_of_beq hk
        cases hc : channels[p.2]? with
        | none => rfl
        | some c =>
          rw [Option.map_some, Option.map_some, sendTimes_of_closed (hclosed c hc),
            sendTimes_of_closed (hclosed c hc)]
      · rfl

/-- The senders that are kept are those with an open channel. -/
theorem mem_retain (event : Event) (q : SubscriptionId × ℕ) :
    ∀ (senders : List (SubscriptionId × ℕ)) (channels : List Channel),
      q ∈ (retain event senders channels).1 ↔
        q ∈ senders ∧ ∃ c : Channel, channels[q.2]? = some c ∧ c.closed = false := by
  intro senders
  induction senders with
  | nil => exact fun channels => iff_of_false List.not_mem_nil fun h => List.not_mem_nil h.1
  | cons p senders ih =>
    intro channels
    rcases retain_cons event p senders channels with ⟨c, hc, hopen, d, hd, heq⟩ | ⟨hclosed, heq⟩
    · obtain ⟨hlt, -⟩ := List.getElem?_eq_some_iff.mp hc
      have hset : (∃ b : Channel, (channels.set p.2 d)[q.2]? = some b ∧ b.closed = false) ↔
          ∃ b : Channel, channels[q.2]? = some b ∧ b.closed = false := by
        by_cases hq : p.2 = q.2
        · rw [← hq, List.getElem?_set_self hlt]
          exact iff_of_true ⟨d, rfl, hd ▸ hopen⟩ ⟨c, hc, hopen⟩
        · rw [List.getElem?_set_ne hq]
      rw [heq, List.mem_cons, List.mem_cons, ih, hset, or_and_right]
      refine or_congr_left (iff_self_and.mpr ?_)
      rintro rfl
      exact ⟨c, hc, hopen⟩
    · rw [heq, ih, List.mem_cons, or_and_right]
      refine (or_iff_right ?_).symm
      rintro ⟨rfl, c, hc, hopen⟩
      cases hopen.symm.trans (hclosed c hc)

/-- A broadcast adds no sender. -/
theorem retain_sublist (event : Event) :
    ∀ (senders : List (SubscriptionId × ℕ)) (channels : List Channel),
      (retain event senders channels).1.Sublist senders := by
  intro senders
  induction senders with
  | nil => exact fun _ => List.Sublist.refl _
  | cons p senders ih =>
    intro channels
    rcases retain_cons event p senders channels with ⟨_, _, _, d, _, heq⟩ | ⟨_, heq⟩
    · rw [heq]
      exact (ih (channels.set p.2 d)).cons_cons p
    · rw [heq]
      exact (ih channels).cons p

/-- Nor does it make or remove a channel. -/
theorem length_retain (event : Event) :
    ∀ (senders : List (SubscriptionId × ℕ)) (channels : List Channel),
      (retain event senders channels).2.length = channels.length := by
  intro senders
  induction senders with
  | nil => exact fun _ => rfl
  | cons p senders ih =>
    intro channels
    rcases retain_cons event p senders channels with ⟨_, _, _, d, _, heq⟩ | ⟨_, heq⟩
    · rw [heq, ih, List.length_set]
    · rw [heq, ih]

/-- The senders that are left are in order, as those before. -/
theorem Ok.broadcast {r : SubscriberRegistry} (h : r.Ok) (event : Event) :
    (r.broadcast event).Ok := by
  refine h.mono rfl (length_retain event _ _) (retain_sublist event _ _) fun k c hc => ?_
  refine ⟨sendTimes event ((r.senders.map Prod.snd).count k) c, ?_, ?_⟩
  · refine (retain_channels event k r.senders r.channels).trans ?_
    rw [hc]
    rfl
  · unfold sendTimes
    split_ifs
    · exact ⟨rfl, fun h => h, fun _ => rfl⟩
    · exact ⟨rfl, fun h => h, fun _ => rfl⟩

/-! ### The registry as one subscriber sees it

Of all the registry a subscriber sees its own phase and what was sent to its channel. What each
operation does to that is said below by one equation each; an operation on another subscriber does
nothing, which is what lets one follow a single subscriber through any interleaving. -/

/-- Where the subscription of channel `k` is, and what was sent to it. -/
def view (r : SubscriberRegistry) (k : ℕ) : Phase × List Event :=
  match r.channels[k]? with
  | none => (.absent, [])
  | some c =>
    (if c.registered then
      if c.closed = false ∧ k ∈ r.senders.map Prod.snd then .on else .off
    else .registering, c.sent)

variable {r : SubscriberRegistry} {k : ℕ}

/-- The view depends on the own channel, and on whether its sender is listed, and on nothing else.
-/
theorem view_congr {r' : SubscriberRegistry} (hchannel : r'.channels[k]? = r.channels[k]?)
    (hsenders : k ∈ r'.senders.map Prod.snd ↔ k ∈ r.senders.map Prod.snd) :
    r'.view k = r.view k := by
  unfold view
  simp only [hchannel, hsenders]

/-- A subscriber that is to come sees nothing. -/
theorem view_absent (h : r.channels[k]? = none) : r.view k = (.absent, []) := by
  rw [view, h]

/-- One that has an id, and no sender in the list yet, misses what is broadcast in between. -/
theorem view_registering {c : Channel} (h : r.channels[k]? = some c)
    (hregistered : c.registered = false) : r.view k = (.registering, c.sent) := by
  rw [view, h]
  exact Prod.ext (if_neg (by rw [hregistered]; exact Bool.false_ne_true)) rfl

/-- One that is listed, with its receiver, is served. -/
theorem view_on {c : Channel} (h : r.channels[k]? = some c) (hregistered : c.registered = true)
    (hopen : c.closed = false) (hlisted : k ∈ r.senders.map Prod.snd) :
    r.view k = (.on, c.sent) := by
  rw [view, h]
  exact Prod.ext ((if_pos hregistered).trans (if_pos ⟨hopen, hlisted⟩)) rfl

/-- One that has been unregistered, or whose receiver has gone, is not, although a broadcast may
have yet to find out. -/
theorem view_off {c : Channel} (h : r.channels[k]? = some c) (hregistered : c.registered = true)
    (hoff : c.closed = true ∨ k ∉ r.senders.map Prod.snd) : r.view k = (.off, c.sent) := by
  rw [view, h]
  refine Prod.ext ((if_pos hregistered).trans (if_neg ?_)) rfl
  rintro ⟨hopen, hlisted⟩
  exact hoff.elim (fun hclosed => by cases hopen.symm.trans hclosed) fun hunlisted =>
    hunlisted hlisted

/-- What a channel may be to its subscriber. -/
theorem view_cases (r : SubscriberRegistry) (k : ℕ) :
    (r.channels[k]? = none ∧ r.view k = (.absent, [])) ∨
    ∃ c, r.channels[k]? = some c ∧
      (c.registered = false ∧ r.view k = (.registering, c.sent) ∨
      c.registered = true ∧
        (c.closed = false ∧ k ∈ r.senders.map Prod.snd ∧ r.view k = (.on, c.sent) ∨
        (c.closed = true ∨ k ∉ r.senders.map Prod.snd) ∧ r.view k = (.off, c.sent))) := by
  cases hc : r.channels[k]? with
  | none => exact Or.inl ⟨rfl, view_absent hc⟩
  | some c =>
    refine Or.inr ⟨c, rfl, ?_⟩
    cases hregistered : c.registered with
    | false => exact Or.inl ⟨rfl, view_registering hc hregistered⟩
    | true =>
      refine Or.inr ⟨rfl, ?_⟩
      by_cases hlisted : k ∈ r.senders.map Prod.snd
      · cases hclosed : c.closed with
        | false => exact Or.inl ⟨rfl, hlisted, view_on hc hregistered hclosed hlisted⟩
        | true => exact Or.inr ⟨Or.inl rfl, view_off hc hregistered (Or.inl hclosed)⟩
      · exact Or.inr ⟨Or.inr hlisted, view_off hc hregistered (Or.inr hlisted)⟩

/-- The phase is read off the channel. -/
theorem exists_of_view_registering (h : (r.view k).1 = .registering) :
    ∃ c, r.channels[k]? = some c ∧ c.registered = false := by
  rcases view_cases r k with ⟨-, hv⟩ | ⟨c, hc, ⟨hreg, -⟩ | ⟨-, ⟨-, -, hv⟩ | ⟨-, hv⟩⟩⟩
  · cases h.symm.trans (congrArg Prod.fst hv)
  · exact ⟨c, hc, hreg⟩
  · cases h.symm.trans (congrArg Prod.fst hv)
  · cases h.symm.trans (congrArg Prod.fst hv)

theorem exists_of_view_on (h : (r.view k).1 = .on) :
    ∃ c, r.channels[k]? = some c ∧ c.registered = true := by
  rcases view_cases r k with ⟨-, hv⟩ | ⟨c, hc, ⟨-, hv⟩ | ⟨hreg, -⟩⟩
  · cases h.symm.trans (congrArg Prod.fst hv)
  · cases h.symm.trans (congrArg Prod.fst hv)
  · exact ⟨c, hc, hreg⟩

/-- The drawing of an id is the step of the one subscriber whose turn it is. -/
theorem view_fetchAdd (r : SubscriberRegistry) (k : ℕ) :
    r.fetchAdd.view k =
      (if (r.view k).1 = .absent ∧ r.channels.length = k then .registering else (r.view k).1,
        (r.view k).2) := by
  rcases lt_trichotomy k r.channels.length with hlt | rfl | hgt
  · rw [if_neg fun h => absurd h.2 (Nat.ne_of_gt hlt)]
    exact view_congr (List.getElem?_append_left hlt) Iff.rfl
  · rw [view_absent (List.getElem?_eq_none le_rfl), if_pos ⟨rfl, rfl⟩]
    exact view_registering (c := { id := r.nextId }) List.getElem?_concat_length rfl
  · rw [if_neg fun h => absurd h.2 (Nat.ne_of_lt hgt)]
    refine view_congr ?_ Iff.rfl
    rw [List.getElem?_eq_none (Nat.le_of_lt hgt)]
    refine List.getElem?_eq_none ?_
    change (r.channels ++ [_]).length ≤ k
    rw [List.length_append]
    exact hgt

/-- The push is a step of the subscriber that pushes. -/
theorem view_push (h : r.Ok) (j k : ℕ) :
    (r.push j).view k =
      (if (r.view k).1 = .registering ∧ j = k then .on else (r.view k).1, (r.view k).2) := by
  by_cases hregistering : ∃ c : Channel, r.channels[j]? = some c ∧ c.registered = false
  · obtain ⟨c, hc, hregistered⟩ := hregistering
    obtain ⟨hlt, -⟩ := List.getElem?_eq_some_iff.mp hc
    rw [push_of_registering hc hregistered]
    by_cases hjk : j = k
    · subst hjk
      rw [view_registering hc hregistered, if_pos ⟨rfl, rfl⟩]
      refine view_on (c := { c with registered := true }) (List.getElem?_set_self hlt) rfl
        (h.unclosed j c hc hregistered) ?_
      rw [List.map_append]
      exact List.mem_append_right _ (List.mem_singleton_self j)
    · rw [if_neg fun h => hjk h.2]
      refine view_congr (List.getElem?_set_ne hjk) ?_
      rw [List.map_append, List.mem_append]
      exact or_iff_left fun hk => hjk (List.mem_singleton.mp hk).symm
  · rw [push_eq_self hregistering, if_neg]
    rintro ⟨hphase, rfl⟩
    exact hregistering (exists_of_view_registering hphase)

/-- Ids are distinct, so that to remove the senders of an id removes one sender. -/
theorem mem_unregister (h : r.Ok) (i : SubscriptionId) (k : ℕ) :
    k ∈ (r.unregister i).senders.map Prod.snd ↔ k ∈ r.senders.map Prod.snd ∧ i ≠ idOf k := by
  rw [List.mem_map, List.mem_map]
  constructor
  · rintro ⟨p, hp, rfl⟩
    obtain ⟨hmem, hne⟩ := List.mem_filter.mp hp
    rw [← (h.listed p hmem).1]
    exact ⟨⟨p, hmem, rfl⟩, Ne.symm (of_decide_eq_true hne)⟩
  · rintro ⟨⟨p, hp, rfl⟩, hne⟩
    rw [← (h.listed p hp).1] at hne
    exact ⟨p, List.mem_filter.mpr ⟨hp, decide_eq_true (Ne.symm hne)⟩, rfl⟩

/-- To unregister is a step of the subscriber with that id. -/
theorem view_unregister (h : r.Ok) (i : SubscriptionId) (k : ℕ) :
    (r.unregister i).view k =
      (if (r.view k).1 = .on ∧ i = idOf k then .off else (r.view k).1, (r.view k).2) := by
  by_cases hik : i = idOf k
  · have hunlisted : k ∉ (r.unregister i).senders.map Prod.snd :=
      fun hk => ((mem_unregister h i k).mp hk).2 hik
    rcases view_cases r k with ⟨hc, hv⟩ | ⟨c, hc, ⟨hreg, hv⟩ | ⟨hreg, ⟨-, -, hv⟩ | ⟨-, hv⟩⟩⟩
    · rw [hv, if_neg fun h => by cases h.1]
      exact view_absent hc
    · rw [hv, if_neg fun h => by cases h.1]
      exact view_registering hc hreg
    · rw [hv, if_pos ⟨rfl, hik⟩]
      exact view_off hc hreg (Or.inr hunlisted)
    · rw [hv, if_neg fun h => by cases h.1]
      exact view_off hc hreg (Or.inr hunlisted)
  · rw [if_neg fun h => hik h.2]
    exact view_congr rfl ((mem_unregister h i k).trans (and_iff_left hik))

/-- A receiver that goes ends the service as well, before any broadcast notices. -/
theorem view_drop (r : SubscriberRegistry) (j k : ℕ) :
    (r.drop j).view k =
      (if (r.view k).1 = .on ∧ j = k then .off else (r.view k).1, (r.view k).2) := by
  by_cases hregistered : ∃ c : Channel, r.channels[j]? = some c ∧ c.registered = true
  · obtain ⟨c, hc, hregistered⟩ := hregistered
    obtain ⟨hlt, -⟩ := List.getElem?_eq_some_iff.mp hc
    rw [drop_of_registered hc hregistered]
    by_cases hjk : j = k
    · subst hjk
      refine (view_off (c := { c with closed := true }) (List.getElem?_set_self hlt) hregistered
        (Or.inl rfl)).trans ?_
      rcases view_cases r j with ⟨hc', -⟩ | ⟨c', hc', ⟨hreg, -⟩ | ⟨-, ⟨-, -, hv⟩ | ⟨-, hv⟩⟩⟩
      · cases hc.symm.trans hc'
      · obtain rfl := Option.some_inj.mp (hc.symm.trans hc')
        cases hregistered.symm.trans hreg
      · obtain rfl := Option.some_inj.mp (hc.symm.trans hc')
        rw [hv, if_pos ⟨rfl, rfl⟩]
      · obtain rfl := Option.some_inj.mp (hc.symm.trans hc')
        rw [hv, if_neg fun h => by cases h.1]
    · rw [if_neg fun h => hjk h.2]
      exact view_congr (List.getElem?_set_ne hjk) Iff.rfl
  · rw [drop_eq_self hregistered, if_neg]
    rintro ⟨hphase, rfl⟩
    exact hregistered (exists_of_view_on hphase)

/-- A broadcast reaches the subscribers that are on, once. -/
theorem view_broadcast (h : r.Ok) (event : Event) (k : ℕ) :
    (r.broadcast event).view k =
      ((r.view k).1, if (r.view k).1 = .on then (r.view k).2 ++ [event] else (r.view k).2) := by
  have hchannel : (r.broadcast event).channels[k]? =
      r.channels[k]?.map (sendTimes event ((r.senders.map Prod.snd).count k)) :=
    retain_channels event k r.senders r.channels
  have hsame : k ∉ r.senders.map Prod.snd →
      (r.broadcast event).channels[k]? = r.channels[k]? ∧
        k ∉ (r.broadcast event).senders.map Prod.snd := by
    intro hk
    rw [hchannel, List.count_eq_zero_of_not_mem hk]
    refine ⟨?_, fun h => hk (((retain_sublist event _ _).map Prod.snd).subset h)⟩
    cases r.channels[k]? with
    | none => rfl
    | some c => exact congrArg some (sendTimes_zero event c)
  rcases view_cases r k with ⟨hc, hv⟩ | ⟨c, hc, ⟨hreg, hv⟩ | ⟨hreg, hon | ⟨hoff, hv⟩⟩⟩
  · rw [hv, if_neg fun h => by cases h]
    exact view_absent (by rw [hchannel, hc]; rfl)
  · have hunlisted : k ∉ r.senders.map Prod.snd := by
      intro hk
      obtain ⟨p, hp, rfl⟩ := List.mem_map.mp hk
      obtain ⟨-, c', hc', hreg'⟩ := h.listed p hp
      obtain rfl := Option.some_inj.mp (hc.symm.trans hc')
      cases hreg.symm.trans hreg'
    rw [hv, if_neg fun h => by cases h]
    exact view_registering ((hsame hunlisted).1.trans hc) hreg
  · obtain ⟨hopen, hmem, hv⟩ := hon
    rw [hc, List.count_eq_one_of_mem h.nodup hmem, Option.map_some,
      sendTimes_of_open hopen] at hchannel
    rw [hv, if_pos rfl]
    refine view_on hchannel hreg hopen ?_
    obtain ⟨p, hp, rfl⟩ := List.mem_map.mp hmem
    exact List.mem_map_of_mem ((mem_retain event p _ _).mpr ⟨hp, c, hc, hopen⟩)
  · rw [hv, if_neg fun h => by cases h]
    rcases hoff with hclosed | hunlisted
    · rw [hc, Option.map_some, sendTimes_of_closed hclosed] at hchannel
      exact view_off hchannel hreg (Or.inl hclosed)
    · obtain ⟨hchannel, hunlisted⟩ := hsame hunlisted
      exact view_off (hchannel.trans hc) hreg (Or.inr hunlisted)

/-- Only a registration makes a channel. -/
theorem length_push (r : SubscriberRegistry) (k : ℕ) :
    (r.push k).channels.length = r.channels.length := by
  unfold push
  split
  · rfl
  · split
    · rfl
    · exact List.length_set

/-- No channel is forgotten. -/
theorem length_drop (r : SubscriberRegistry) (k : ℕ) :
    (r.drop k).channels.length = r.channels.length := by
  unfold drop
  split
  · rfl
  · split
    · exact List.length_set
    · rfl

end SubscriberRegistry

namespace Fanout

/-- The daemon as subscriber `k` sees it. -/
def subscription (s : Fanout capacity) (k : ℕ) : Subscription capacity where
  forwarder := s.forwarder
  drawn := s.registry.channels.length
  phase := (s.registry.view k).1
  received := (s.registry.view k).2

/-- The forwarder broadcasts when it holds an event. -/
theorem step_broadcast_none {s : Fanout capacity} (h : s.forwarder.held = none) :
    step s .broadcast = s := by
  rw [step, h]

/-- It hands the event to all subscribers before it receives the next. -/
theorem step_broadcast_some {s : Fanout capacity} {event : Event}
    (h : s.forwarder.held = some event) :
    step s .broadcast =
      { forwarder := s.forwarder.pass, registry := s.registry.broadcast event } := by
  rw [step, h]

/-- Every step of the daemon keeps the registry in order. -/
theorem ok_step {s : Fanout capacity} (h : s.registry.Ok) (a : Step) : (step s a).registry.Ok := by
  cases a with
  | emit => exact h
  | recv => exact h
  | broadcast =>
    cases hheld : s.forwarder.held with
    | none => rwa [step_broadcast_none hheld]
    | some event =>
      rw [step_broadcast_some hheld]
      exact h.broadcast event
  | fetchAdd => exact h.fetchAdd
  | push k => exact h.push k
  | unregister id => exact h.unregister id
  | drop k => exact h.drop k

/-- **The daemon is, for each subscriber, a subscription of its own.** -/
theorem subscription_step {s : Fanout capacity} (h : s.registry.Ok) (k : ℕ) (a : Step) :
    (step s a).subscription k = (s.subscription k).step k a := by
  cases a with
  | emit => rfl
  | recv => rfl
  | broadcast =>
    have hstep : (s.subscription k).step k .broadcast = Subscription.mk s.forwarder.pass
        s.registry.channels.length (s.registry.view k).1
        (if (s.registry.view k).1 = .on then
          (s.registry.view k).2 ++ s.forwarder.held.toList else (s.registry.view k).2) :=
      rfl
    rw [hstep]
    cases hheld : s.forwarder.held with
    | none =>
      have hpass : s.forwarder.pass = s.forwarder := by rw [Forwarder.pass, ← hheld]
      rw [step_broadcast_none hheld, hpass, Option.toList_none, List.append_nil, ite_self]
      rfl
    | some event =>
      have hv := Prod.ext_iff.mp (SubscriberRegistry.view_broadcast h event k)
      rw [step_broadcast_some hheld]
      exact Subscription.ext rfl (SubscriberRegistry.length_retain event _ _) hv.1 hv.2
  | fetchAdd =>
    have hv := Prod.ext_iff.mp (s.registry.view_fetchAdd k)
    exact Subscription.ext rfl List.length_append hv.1 hv.2
  | push j =>
    have hv := Prod.ext_iff.mp (SubscriberRegistry.view_push h j k)
    exact Subscription.ext rfl (SubscriberRegistry.length_push _ j) hv.1 hv.2
  | unregister i =>
    have hv := Prod.ext_iff.mp (SubscriberRegistry.view_unregister h i k)
    exact Subscription.ext rfl rfl hv.1 hv.2
  | drop j =>
    have hv := Prod.ext_iff.mp (s.registry.view_drop j k)
    exact Subscription.ext rfl (SubscriberRegistry.length_drop _ j) hv.1 hv.2

/-- So it is in order in every run. -/
theorem ok_run (l : List Step) : (run capacity l).registry.Ok :=
  Machine.run_invariant (P := fun s : Fanout capacity => s.registry.Ok) (fun _ a h => ok_step h a)
    l _ SubscriberRegistry.ok_new

/-- **What one subscriber sees of a run is a run of its own subscription**: the steps of the others
pass it by. -/
theorem subscription_run (k : ℕ) : ∀ (l : List Step) {s : Fanout capacity}, s.registry.Ok →
    (Machine.run step s l).subscription k = Machine.run (Subscription.step k) (s.subscription k) l
  | [], _, _ => rfl
  | a :: l, s, h => by
    rw [Machine.run_cons, Machine.run_cons, ← subscription_step h]
    exact subscription_run k l (ok_step h a)

end Fanout

end Agentd
