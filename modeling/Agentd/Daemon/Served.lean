import Agentd.Daemon.Subscription

/-!
# Every subscriber is served in order and once

What a subscription has received is read off the run of its forwarder
(`Agentd.Subscription.received_run`), and that is a sublist of what was emitted, a contiguous
one where the forwarder keeps up (`Agentd.Fanout.unread_run`). Since the daemon is a
subscription for each of its subscribers, `Agentd.Fanout.ordered_exactlyOnce` follows.

There are two runs to follow, that of the forwarder and that of the subscription, and the second
looks at the first only through what is broadcast. A subscription begins at its push and ends at the
first step that unregisters it or drops its receiver; it has received what was broadcast in between
(`Agentd.Subscription.received_run`). The list of what was broadcast is the work of the forwarder
alone, whoever listens.
-/

namespace Agentd

variable {capacity : ℕ}

namespace Fanout

/-! ### The run of the forwarder

What the bus carries is a list of events (`emitted`), and what the forwarder has passed on is
another (`forwarded`). The forwarder receives from a ring, and misses what is overwritten before it
comes to it; so the second list is a sublist of the first, and as long as it is not overrun the
first is the second and what is unread yet. -/

/-- What a run emits is what its parts emit, one after the other. -/
theorem emitted_append (l₁ l₂ : List Step) : emitted (l₁ ++ l₂) = emitted l₁ ++ emitted l₂ := by
  induction l₁ with
  | nil => rfl
  | cons a l₁ ih => cases a <;> first | exact ih | exact congrArg (_ :: ·) ih

/-- What a step broadcasts. -/
def broadcasts (f : Forwarder Event capacity) : Step → List Event
  | .broadcast => f.held.toList
  | _ => []

/-- What is passed on in a run is what its first step passes on, and what the rest does from there.
-/
theorem forwarded_cons (f : Forwarder Event capacity) (a : Step) (l : List Step) :
    forwarded f (a :: l) = broadcasts f a ++ forwarded (follow f a) l := by
  cases a <;> rfl

/-- A run can be cut anywhere, if the forwarder is followed up to the cut. -/
theorem forwarded_append (l₁ l₂ : List Step) : ∀ f : Forwarder Event capacity,
    forwarded f (l₁ ++ l₂) = forwarded f l₁ ++ forwarded (Machine.run follow f l₁) l₂ := by
  induction l₁ with
  | nil => exact fun _ => rfl
  | cons a l₁ ih =>
    intro f
    rw [List.cons_append, forwarded_cons, forwarded_cons, ih, List.append_assoc, Machine.run_cons]

/-- The first step is the first event, if it is one. -/
theorem emitted_cons (a : Step) (l : List Step) : emitted (a :: l) = emitted [a] ++ emitted l :=
  emitted_append [a] l

theorem forwarder_step (s : Fanout capacity) (a : Step) :
    (step s a).forwarder = follow s.forwarder a := by
  cases a with
  | broadcast =>
    cases hheld : s.forwarder.held with
    | none =>
      rw [step_broadcast_none hheld]
      change s.forwarder = { s.forwarder with held := none }
      rw [← hheld]
    | some event =>
      rw [step_broadcast_some hheld]
      rfl
  | _ => rfl

theorem forwarder_run (l : List Step) : ∀ s : Fanout capacity,
    (Machine.run step s l).forwarder = Machine.run follow s.forwarder l := by
  induction l with
  | nil => exact fun _ => rfl
  | cons a l ih =>
    intro s
    rw [Machine.run_cons, Machine.run_cons, ih, forwarder_step]

/-- A step keeps the relation between the bus and what has been passed on: an event that is emitted
comes at the end of the one, and one that is broadcast at the end of the other. -/
theorem follows_follow {f : Forwarder Event capacity} {log done : List Event}
    (h : f.Follows log done) (a : Step) :
    (follow f a).Follows (log ++ emitted [a]) (done ++ broadcasts f a) := by
  have hnil : f.Follows (log ++ []) (done ++ []) := by rwa [List.append_nil, List.append_nil]
  cases a with
  | emit event =>
    change (f.send event).Follows (log ++ [event]) (done ++ [])
    rw [List.append_nil]
    exact h.send event
  | recv =>
    change f.recv.Follows (log ++ []) (done ++ [])
    rw [List.append_nil, List.append_nil]
    exact h.recv
  | broadcast =>
    change f.pass.Follows (log ++ []) (done ++ f.held.toList)
    rw [List.append_nil]
    exact h.pass
  | _ => exact hnil

/-- A forwarder that keeps up broadcasts what it has not read. -/
theorem unread_follow {f : Forwarder Event capacity} {log done : List Event}
    (h : f.Follows log done) (hkeeps : f.behind ≤ capacity) (a : Step) :
    broadcasts f a ++ (follow f a).unread (log ++ emitted [a]) = f.unread log ++ emitted [a] := by
  have hnil : f.unread (log ++ []) = f.unread log ++ [] := by rw [List.append_nil, List.append_nil]
  cases a with
  | emit event => exact Forwarder.unread_send h.next_le event
  | recv =>
    change f.recv.unread (log ++ []) = _
    rw [List.append_nil, Forwarder.unread_recv h.holds hkeeps]
    exact (List.append_nil _).symm
  | broadcast => exact (f.unread_pass (log ++ [])).trans hnil
  | _ => exact hnil

/-- So it is in a run, from wherever it holds. -/
theorem follows_run (l : List Step) :
    ∀ {f : Forwarder Event capacity} {log done : List Event}, f.Follows log done →
      (Machine.run follow f l).Follows (log ++ emitted l) (done ++ forwarded f l) := by
  induction l with
  | nil =>
    intro f log done h
    rw [emitted, forwarded, List.append_nil, List.append_nil]
    exact h
  | cons a l ih =>
    intro f log done h
    rw [emitted_cons, forwarded_cons, ← List.append_assoc, ← List.append_assoc, Machine.run_cons]
    exact ih (follows_follow h a)

/-- As long as the forwarder keeps up, what it broadcasts is what it has not read yet. -/
theorem unread_run (l : List Step) : ∀ {s : Fanout capacity} {log done : List Event},
    s.forwarder.Follows log done → Machine.Throughout step KeepsUp s l →
      forwarded s.forwarder l ++ (Machine.run step s l).forwarder.unread (log ++ emitted l) =
        s.forwarder.unread log ++ emitted l := by
  induction l with
  | nil =>
    intro s log done _ _
    rw [forwarded, emitted, List.append_nil, List.append_nil, Machine.run_nil, List.nil_append]
  | cons a l ih =>
    intro s log done h hkeeps
    have hnext := follows_follow h a
    rw [← forwarder_step] at hnext
    have hstep := unread_follow h hkeeps.1 a
    rw [← forwarder_step] at hstep
    calc forwarded s.forwarder (a :: l) ++
          (Machine.run step s (a :: l)).forwarder.unread (log ++ emitted (a :: l))
        = broadcasts s.forwarder a ++ (forwarded (step s a).forwarder l ++
            (Machine.run step (step s a) l).forwarder.unread
              (log ++ emitted [a] ++ emitted l)) := by
          rw [forwarded_cons, forwarder_step, List.append_assoc, Machine.run_cons, emitted_cons,
            List.append_assoc log]
      _ = s.forwarder.unread log ++ emitted (a :: l) := by
          rw [ih hnext hkeeps.2, ← List.append_assoc, hstep, emitted_cons a l, List.append_assoc]

end Fanout

/-! ### The run of a subscription

A subscription begins once, when its sender is pushed, and ends once. In between it receives what is
broadcast, each event once. Before and after it nothing reaches it; that the two ends exclude each
other is seen by induction from each of them. -/

namespace Subscription

open Fanout (Step follow forwarded broadcasts)

variable {k : ℕ}

theorem forwarder_step (t : Subscription capacity) (a : Step) :
    (t.step k a).forwarder = follow t.forwarder a := by
  cases a <;> rfl

/-- What others do is no part of a subscription. -/
theorem step_of_endsAnother (t : Subscription capacity) {a : Step}
    (h : a.EndsAnother (idOf k) k) : t.step k a = t := by
  cases a with
  | unregister i => exact Subscription.ext rfl rfl (if_neg fun hon => h hon.2) rfl
  | drop j => exact Subscription.ext rfl rfl (if_neg fun hon => h hon.2) rfl
  | _ => exact h.elim

/-- A step that does not end the subscription leaves it on, and gives it what is broadcast. -/
theorem step_on {t : Subscription capacity} (h : t.phase = .on) {a : Step}
    (ha : a.ends (idOf k) k = false) :
    (t.step k a).phase = .on ∧ (t.step k a).received = t.received ++ broadcasts t.forwarder a := by
  cases a with
  | broadcast => exact ⟨h, if_pos h⟩
  | fetchAdd =>
    refine ⟨(if_neg ?_).trans h, (List.append_nil _).symm⟩
    exact fun habsent => by cases h.symm.trans habsent.1
  | push j =>
    refine ⟨(if_neg ?_).trans h, (List.append_nil _).symm⟩
    exact fun hregistering => by cases h.symm.trans hregistering.1
  | unregister i =>
    refine ⟨(if_neg ?_).trans h, (List.append_nil _).symm⟩
    exact fun hon => of_decide_eq_false ha hon.2
  | drop j =>
    refine ⟨(if_neg ?_).trans h, (List.append_nil _).symm⟩
    exact fun hon => of_decide_eq_false ha hon.2
  | _ => exact ⟨h, (List.append_nil _).symm⟩

/-- What ends a subscription, ends it at once: it receives nothing at this step. -/
theorem step_ends {t : Subscription capacity} (h : t.phase = .on) {a : Step}
    (ha : a.ends (idOf k) k = true) :
    (t.step k a).phase = .off ∧ (t.step k a).received = t.received := by
  cases a with
  | unregister i => exact ⟨if_pos ⟨h, of_decide_eq_true ha⟩, rfl⟩
  | drop j => exact ⟨if_pos ⟨h, of_decide_eq_true ha⟩, rfl⟩
  | _ => cases ha

/-- A subscription that has ended does not begin again. -/
theorem step_off {t : Subscription capacity} (h : t.phase = .off) (a : Step) :
    (t.step k a).phase = .off ∧ (t.step k a).received = t.received := by
  have hphase : ∀ p q : Phase, p ≠ .off → ∀ c : Prop, [Decidable c] →
      (if t.phase = p ∧ c then q else t.phase) = .off := by
    intro p q hp c _
    rw [if_neg fun hc => hp (hc.1.symm.trans h), h]
  cases a with
  | broadcast => exact ⟨h, if_neg (by rw [h]; exact Phase.noConfusion)⟩
  | fetchAdd => exact ⟨hphase _ _ (by decide) _, rfl⟩
  | push j => exact ⟨hphase _ _ (by decide) _, rfl⟩
  | unregister i => exact ⟨hphase _ _ (by decide) _, rfl⟩
  | drop j => exact ⟨hphase _ _ (by decide) _, rfl⟩
  | _ => exact ⟨h, rfl⟩

/-- Nothing is received after a subscription has ended. -/
theorem received_run_off (l : List Step) : ∀ {t : Subscription capacity}, t.phase = .off →
    (Machine.run (step k) t l).received = t.received := by
  induction l with
  | nil => exact fun _ => rfl
  | cons a l ih =>
    intro t h
    obtain ⟨hoff, hreceived⟩ := step_off (k := k) h a
    rw [Machine.run_cons, ih hoff, hreceived]

/-- **A subscription that is on receives what is broadcast until it ends.** -/
theorem received_run (l : List Step) : ∀ {t : Subscription capacity}, t.phase = .on →
    (Machine.run (step k) t l).received =
      t.received ++ forwarded t.forwarder (l.takeWhile fun a => !a.ends (idOf k) k) := by
  induction l with
  | nil => exact fun _ => (List.append_nil _).symm
  | cons a l ih =>
    intro t h
    cases ha : a.ends (idOf k) k with
    | true =>
      obtain ⟨hoff, hreceived⟩ := step_ends h ha
      rw [Machine.run_cons, received_run_off l hoff, hreceived,
        List.takeWhile_cons_of_neg (by rw [ha]; decide)]
      exact (List.append_nil _).symm
    | false =>
      obtain ⟨hon, hreceived⟩ := step_on h ha
      rw [Machine.run_cons, ih hon, hreceived, forwarder_step,
        List.takeWhile_cons_of_pos (by rw [ha]; rfl), Fanout.forwarded_cons, List.append_assoc]

/-- The subscription has not begun. -/
def Unbegun (t : Subscription capacity) : Prop :=
  t.phase = .absent ∨ t.phase = .registering

/-- The step registers the subscription. -/
def RegistersBy (k : ℕ) (t : Subscription capacity) (a : Step) : Prop :=
  t.phase = .registering ∧ a = .push k

/-- Nothing is received before a subscription has begun. -/
theorem unbegun_step {t : Subscription capacity} (h : t.Unbegun) {a : Step}
    (ha : ¬t.RegistersBy k a) :
    (t.step k a).Unbegun ∧ (t.step k a).received = t.received := by
  have hon : t.phase ≠ .on := by
    rcases h with h | h <;> exact fun hon => by cases h.symm.trans hon
  cases a with
  | broadcast => exact ⟨h, if_neg hon⟩
  | fetchAdd =>
    refine ⟨?_, rfl⟩
    by_cases hk : t.phase = .absent ∧ t.drawn = k
    · exact Or.inr (if_pos hk)
    · rwa [Unbegun, show (t.step k .fetchAdd).phase = t.phase from if_neg hk]
  | push j =>
    refine ⟨?_, rfl⟩
    rwa [Unbegun, show (t.step k (.push j)).phase = t.phase from
      if_neg fun hk => ha ⟨hk.1, congrArg Step.push hk.2⟩]
  | unregister i =>
    refine ⟨?_, rfl⟩
    rwa [Unbegun, show (t.step k (.unregister i)).phase = t.phase from if_neg fun hk => hon hk.1]
  | drop j =>
    refine ⟨?_, rfl⟩
    rwa [Unbegun, show (t.step k (.drop j)).phase = t.phase from if_neg fun hk => hon hk.1]
  | _ => exact ⟨h, rfl⟩

/-- A run either leaves the subscription unbegun, and without events, or it registers it. -/
theorem unbegun_or_registers (l : List Step) : ∀ {t : Subscription capacity}, t.Unbegun →
    ((Machine.run (step k) t l).Unbegun ∧ (Machine.run (step k) t l).received = t.received) ∨
      ∃ before after, l = before ++ .push k :: after ∧
        (Machine.run (step k) t before).phase = .registering ∧
        (Machine.run (step k) t before).received = t.received := by
  induction l with
  | nil => exact fun h => Or.inl ⟨h, rfl⟩
  | cons a l ih =>
    intro t h
    by_cases ha : t.RegistersBy k a
    · obtain ⟨hphase, rfl⟩ := ha
      exact Or.inr ⟨[], l, rfl, hphase, rfl⟩
    · obtain ⟨hunbegun, hreceived⟩ := unbegun_step h ha
      rcases ih hunbegun with ⟨hl, hr⟩ | ⟨before, after, rfl, hphase, hr⟩
      · exact Or.inl ⟨hl, hr.trans hreceived⟩
      · exact Or.inr ⟨a :: before, after, rfl, hphase, hr.trans hreceived⟩

/-- A subscription that is being served, or has ended, has begun. -/
theorem not_unbegun {t : Subscription capacity} (h : t.phase = .on ∨ t.phase = .off) :
    ¬t.Unbegun := by
  rintro (hc | hc) <;> rw [hc] at h <;> exact h.elim Phase.noConfusion Phase.noConfusion

/-- A subscription that has begun has done so for good. -/
theorem begun_step {t : Subscription capacity} (h : ¬t.Unbegun) (a : Step) :
    ¬(t.step k a).Unbegun := by
  cases hphase : t.phase with
  | absent => exact absurd (Or.inl hphase) h
  | registering => exact absurd (Or.inr hphase) h
  | on =>
    cases ha : a.ends (idOf k) k with
    | true => exact not_unbegun (Or.inr (step_ends hphase ha).1)
    | false => exact not_unbegun (Or.inl (step_on hphase ha).1)
  | off => exact not_unbegun (Or.inr (step_off hphase a).1)

/-- It begins with the push, and not with the drawing of its id. -/
theorem push_on {t : Subscription capacity} (h : t.phase = .registering) :
    (t.step k (.push k)).phase = .on :=
  if_pos ⟨h, rfl⟩

/-- A subscription that has not begun has received nothing. -/
theorem received_of_unbegun {l : List Step}
    (h : (Machine.run (step k) ({} : Subscription capacity) l).Unbegun) :
    (Machine.run (step k) ({} : Subscription capacity) l).received = [] := by
  have hstart : ({} : Subscription capacity).Unbegun := Or.inl rfl
  rcases unbegun_or_registers (k := k) l hstart with hl | ⟨before, after, rfl, hphase, -⟩
  · exact hl.2
  · rw [Machine.run_append, Machine.run_cons] at h
    refine absurd h (Machine.run_invariant (P := fun t : Subscription capacity => ¬t.Unbegun)
      (fun _ a h => begun_step h a) after _ ?_)
    exact not_unbegun (Or.inl (push_on hphase))

end Subscription

namespace Fanout

open SubscriberRegistry (view_cases view_absent view_registering)

/-! ### What the daemon owes its subscribers

The statements about a single subscription are read back for the channels of the registry: the
`k`-th channel is that of the `k`-th subscription, and what was sent to it is what that has
received. -/

/-- A run of the daemon, as subscriber `k` sees it. -/
theorem subscription_run_new (capacity k : ℕ) (l : List Step) :
    (run capacity l).subscription k = Machine.run (Subscription.step k) {} l :=
  subscription_run k l SubscriberRegistry.ok_new

/-- What a subscription has received is what was sent to its channel. -/
theorem received_of_channel {s : Fanout capacity} {k : ℕ} {c : Channel}
    (hc : s.registry.channels[k]? = some c) : (s.subscription k).received = c.sent := by
  change (s.registry.view k).2 = c.sent
  rw [SubscriberRegistry.view, hc]

/-- It has not begun as long as its sender is not listed. -/
theorem unbegun_iff {s : Fanout capacity} {k : ℕ} {c : Channel}
    (hc : s.registry.channels[k]? = some c) :
    (s.subscription k).Unbegun ↔ c.registered = false := by
  rcases view_cases s.registry k with ⟨hnone, -⟩ | ⟨c', hc', hv⟩
  · cases hc.symm.trans hnone
  · obtain rfl := Option.some_inj.mp (hc.symm.trans hc')
    rcases hv with ⟨hreg, hv⟩ | ⟨hreg, hv⟩
    · exact iff_of_true (Or.inr (congrArg Prod.fst hv)) hreg
    · refine iff_of_false (Subscription.not_unbegun ?_) (by rw [hreg]; decide)
      exact hv.imp (fun h => congrArg Prod.fst h.2.2) fun h => congrArg Prod.fst h.2

/-- A task is between the drawing of its id and the push of its sender exactly when its channel says
so. -/
theorem registering_iff {s : Fanout capacity} {k : ℕ} :
    (s.subscription k).phase = .registering ↔
      ∃ c, s.registry.channels[k]? = some c ∧ c.registered = false := by
  constructor
  · exact SubscriberRegistry.exists_of_view_registering
  · rintro ⟨c, hc, hreg⟩
    exact congrArg Prod.fst (view_registering hc hreg)

variable {l : List Step} {k : ℕ} {c : Channel}

/-- The ids are those that were drawn, in their order. -/
theorem id_of_channel (hc : (run capacity l).registry.channels[k]? = some c) : c.id = idOf k :=
  (ok_run l).id_eq k c hc

/-- A channel that is registered has been pushed at some step of the run. -/
theorem exists_registers (hc : (run capacity l).registry.channels[k]? = some c)
    (hregistered : c.registered = true) : ∃ before after, Registers capacity l k before after := by
  have hstart : ({} : Subscription capacity).Unbegun := Or.inl rfl
  rcases Subscription.unbegun_or_registers (k := k) l hstart with
    ⟨hunbegun, -⟩ | ⟨before, after, hsplit, hphase, -⟩
  · rw [← subscription_run_new, unbegun_iff hc] at hunbegun
    cases hregistered.symm.trans hunbegun
  · rw [← subscription_run_new] at hphase
    exact ⟨before, after, hsplit, registering_iff.mp hphase⟩

/-- Nothing is sent to a channel before. -/
theorem sent_of_unregistered (hc : (run capacity l).registry.channels[k]? = some c)
    (hregistered : c.registered = false) : c.sent = [] := by
  rw [← received_of_channel hc, subscription_run_new]
  refine Subscription.received_of_unbegun ?_
  rwa [← subscription_run_new, unbegun_iff hc]

/-- **A subscriber receives what is broadcast between its registration and its end.** -/
theorem sent_of_registers (hc : (run capacity l).registry.channels[k]? = some c)
    {before after : List Step} (h : Registers capacity l k before after) :
    c.sent = forwarded (run capacity (before ++ [.push k])).forwarder
      (after.takeWhile fun a => !a.ends c.id k) := by
  have hphase := registering_iff.mpr h.registering
  rw [subscription_run_new] at hphase
  have hempty := Subscription.received_of_unbegun (Or.inr hphase)
  have hpush := subscription_run_new capacity k (before ++ [.push k])
  rw [Machine.run_concat] at hpush
  have hreceived : ((run capacity (before ++ [.push k])).subscription k).received = [] := by
    rw [hpush]
    exact hempty
  have hon : ((run capacity (before ++ [.push k])).subscription k).phase = .on := by
    rw [hpush]
    exact Subscription.push_on hphase
  have hrun : (run capacity l).subscription k =
      Machine.run (Subscription.step k) ((run capacity (before ++ [.push k])).subscription k)
        after := by
    rw [hpush, subscription_run_new, h.split, Machine.run_append, Machine.run_cons]
  rw [← received_of_channel hc, hrun, Subscription.received_run after hon, hreceived,
    id_of_channel hc]
  rfl

/-- The forwarder follows the bus from the start of the daemon on. -/
theorem follows_run_new (capacity : ℕ) (l : List Step) :
    (run capacity l).forwarder.Follows (emitted l)
      (forwarded (.subscribe Event capacity) l) := by
  rw [run, forwarder_run]
  exact follows_run l Forwarder.follows_subscribe

/-- Whatever a part of a run broadcasts is a sublist of what the run emits. -/
theorem forwarded_sublist (l₁ l₂ l₃ : List Step) :
    (forwarded (run capacity l₁).forwarder l₂).Sublist (emitted (l₁ ++ l₂ ++ l₃)) := by
  have hwhole : (forwarded (.subscribe Event capacity) (l₁ ++ l₂ ++ l₃)).Sublist
      (emitted (l₁ ++ l₂ ++ l₃)) :=
    (List.sublist_append_left _ _).trans (follows_run_new capacity (l₁ ++ l₂ ++ l₃)).sublist
  refine List.Sublist.trans ?_ hwhole
  rw [forwarded_append, forwarded_append, run, forwarder_run]
  exact (List.sublist_append_right _ _).trans (List.sublist_append_left _ _)

/-- **While the forwarder keeps up it broadcasts a contiguous block.** -/
theorem forwarded_infix (l₁ l₂ l₃ : List Step)
    (h : Machine.Throughout step KeepsUp (run capacity l₁) l₂) :
    forwarded (run capacity l₁).forwarder l₂ <:+: emitted (l₁ ++ l₂ ++ l₃) := by
  have hfollows := follows_run_new capacity l₁
  obtain ⟨front, hfront⟩ := hfollows.suffix
  refine ⟨front, (Machine.run step (run capacity l₁) l₂).forwarder.unread
    (emitted l₁ ++ emitted l₂) ++ emitted l₃, ?_⟩
  rw [emitted_append, emitted_append, ← List.append_assoc, List.append_assoc front,
    unread_run l₂ hfollows h, ← List.append_assoc, hfront]

/-- The run is cut at the push and where the service ends. -/
theorem Registers.split_takeWhile {before after : List Step}
    (h : Registers capacity l k before after) (p : Step → Bool) :
    l = before ++ [.push k] ++ after.takeWhile p ++ after.dropWhile p := by
  rw [List.append_assoc _ (after.takeWhile p), List.takeWhile_append_dropWhile, h.split,
    List.append_assoc]
  rfl

/-- What others do makes no difference. -/
theorem subscription_thinned {l' : List Step}
    (h : Machine.Thinned (Step.EndsAnother (idOf k) k) l l') :
    (run capacity l').subscription k = (run capacity l).subscription k := by
  rw [subscription_run_new, subscription_run_new]
  have hkeep : ∀ (t u : Subscription capacity) (a : Step), id t = id u →
      id (t.step k a) = id (u.step k a) := fun _ _ a htu => congrArg (Subscription.step k · a) htu
  exact (h.obs_run hkeep (fun t _ ha => t.step_of_endsAnother ha) rfl).symm

/-- **Every channel has been sent what the forwarder passed on while it was served**, in this order,
and no more. -/
theorem serves (hc : (run capacity l).registry.channels[k]? = some c) :
    Serves capacity l k c where
  unregistered := sent_of_unregistered hc
  registered := exists_registers hc
  exactly := fun before after h => sent_of_registers hc h
  ordered := by
    cases hregistered : c.registered with
    | false =>
      rw [sent_of_unregistered hc hregistered]
      exact List.nil_sublist _
    | true =>
      obtain ⟨before, after, h⟩ := exists_registers hc hregistered
      rw [sent_of_registers hc h, h.split_takeWhile fun a => !a.ends c.id k]
      exact forwarded_sublist _ _ _
  contiguous := by
    intro before after h hkeeps
    rw [sent_of_registers hc h, h.split_takeWhile fun a => !a.ends c.id k]
    exact forwarded_infix _ _ _ hkeeps
  apart := by
    intro l' hl'
    rw [id_of_channel hc] at hl'
    have hsame : (run capacity l').subscription k = (run capacity l).subscription k :=
      subscription_thinned hl'
    have hlength : (run capacity l').registry.channels.length =
        (run capacity l).registry.channels.length := congrArg Subscription.drawn hsame
    obtain ⟨hlt, -⟩ := List.getElem?_eq_some_iff.mp hc
    rw [← hlength] at hlt
    have hc' := List.getElem?_eq_getElem hlt
    refine ⟨_, hc', (id_of_channel hc').trans (id_of_channel hc).symm, ?_⟩
    rw [← received_of_channel hc', hsame, received_of_channel hc]

/-- As many ids are drawn as registrations are begun. -/
theorem length_run (l : List Step) : ∀ s : Fanout capacity,
    (Machine.run step s l).registry.channels.length =
      s.registry.channels.length + registrations l := by
  induction l with
  | nil => exact fun _ => rfl
  | cons a l ih =>
    intro s
    rw [Machine.run_cons, ih]
    cases a with
    | broadcast =>
      cases hheld : s.forwarder.held with
      | none => rw [step_broadcast_none hheld]; rfl
      | some event =>
        rw [step_broadcast_some hheld]
        exact congrArg (· + registrations l) (SubscriberRegistry.length_retain event _ _)
    | fetchAdd =>
      change (s.registry.channels ++ [_]).length + registrations l =
        s.registry.channels.length + (registrations l + 1)
      rw [List.length_append, List.length_singleton]
      omega
    | push k => exact congrArg (· + registrations l) (SubscriberRegistry.length_push _ k)
    | drop k => exact congrArg (· + registrations l) (SubscriberRegistry.length_drop _ k)
    | _ => rfl

/-- Ids are drawn from a counter of 64 bits, so that the first 2⁶⁴ are distinct. -/
theorem idOf_inj {i j : ℕ} (hi : i < 2 ^ 64) (hj : j < 2 ^ 64) (h : idOf i = idOf j) : i = j := by
  have h : (i + 1) % 2 ^ 64 = (j + 1) % 2 ^ 64 := h
  omega

/-- The ids of fewer than `2 ^ 64` registrations are distinct. -/
theorem ids_nodup (h : registrations l < 2 ^ 64) :
    ((run capacity l).registry.channels.map Channel.id).Nodup := by
  have hlength : (run capacity l).registry.channels.length < 2 ^ 64 := by
    rw [run, length_run]
    exact (Nat.zero_add _).symm ▸ h
  rw [List.nodup_iff_getElem?_ne_getElem?]
  intro i j hij hj heq
  rw [List.length_map] at hj
  have hi := hij.trans hj
  rw [List.getElem?_map, List.getElem?_map, List.getElem?_eq_getElem hj,
    List.getElem?_eq_getElem hi, Option.map_some, Option.map_some, Option.some_inj,
    id_of_channel (List.getElem?_eq_getElem hj), id_of_channel (List.getElem?_eq_getElem hi)] at heq
  exact absurd (idOf_inj (hi.trans hlength) (hj.trans hlength) heq) (Nat.ne_of_lt hij)

/-- **Every subscriber receives what is broadcast while it is subscribed, in order and once.** The
steps are any, in any order, and so is the capacity; what a ring that overruns drops is the oldest
of what waits in it, and no other subscriber notices. The counter of identifiers is one of 64 bits,
so the bound is on how often it was asked. -/
theorem ordered_exactlyOnce (capacity : ℕ) (l : List Step) (h : registrations l < 2 ^ 64) :
    ((run capacity l).registry.channels.map Channel.id).Nodup ∧
      ∀ (k : ℕ) (c : Channel), (run capacity l).registry.channels[k]? = some c →
        Serves capacity l k c :=
  ⟨ids_nodup h, fun _ _ hc => serves hc⟩

/-- Two subscribers, one of which goes while the forwarder has an event for both. -/
def twoSubscribers : List Step :=
  [.fetchAdd, .push 0, .fetchAdd, .push 1,
    .emit { kind := "session.idle", sessionId := none, payload := .null, ts := .noonOf 2026 },
    .recv, .unregister 1, .broadcast]

/-- Two subscribers, of which one goes while the other stays. -/
theorem ordered_exactlyOnce_two :
    ((run 2 twoSubscribers).registry.channels.map Channel.id).Nodup ∧
      ∀ (k : ℕ) (c : Channel), (run 2 twoSubscribers).registry.channels[k]? = some c →
        Serves 2 twoSubscribers k c :=
  ordered_exactlyOnce 2 twoSubscribers (by decide)

example : (run 2 twoSubscribers).registry.channels.map (fun c => (c.id, c.sent.length)) =
    [(1, 0), (2, 1)] := by
  decide

end Fanout

end Agentd
