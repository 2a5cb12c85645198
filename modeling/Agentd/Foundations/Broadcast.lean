import Mathlib.Data.List.Basic

/-!
# A broadcast channel of bounded capacity

`BroadcastRing` keeps the last `capacity` values sent on a channel. A receiver is a position, the
number of the value it reads next. One whose value is no longer there is told how many it has
missed, and skips to the oldest value retained.

What was sent, all of it, is a list that the ring does not keep. `BroadcastRing.Holds` says
that a ring is what sending that list left, and `BroadcastRing.Holds.tryRecv` reads a receiver
off the list: it either finds the value at its position or it is more than the capacity behind.

A `Forwarder` receives the values one at a time and passes each on before it asks for the
next. What it has passed on and what it has yet to pass on are, in this order, a sublist of
what was sent (`Forwarder.Follows`), and as long as it does not lag it leaves nothing out
(`Forwarder.unread_recv`).
-/

/-- The last values sent on a channel. -/
structure BroadcastRing (α : Type*) (capacity : ℕ) where
  /-- The values retained, the oldest first. -/
  slots : List α
  /-- How many values were sent. -/
  tail : ℕ
  length_slots : slots.length = min tail capacity

namespace BroadcastRing

variable {α : Type*} {capacity : ℕ}

variable (α capacity) in
/-- A new channel. -/
def channel : BroadcastRing α capacity :=
  ⟨[], 0, (Nat.zero_min capacity).symm⟩

/-- A value is sent. The oldest makes room for it when the ring is full. -/
def send (r : BroadcastRing α capacity) (a : α) : BroadcastRing α capacity where
  slots := (r.slots ++ [a]).drop (r.slots.length + 1 - capacity)
  tail := r.tail + 1
  length_slots := by
    have h := r.length_slots
    rw [List.length_drop, List.length_append, List.length_singleton]
    omega

/-- The position of the oldest value retained. -/
def oldest (r : BroadcastRing α capacity) : ℕ :=
  r.tail - r.slots.length

/-- What a receiver is told instead of a value. -/
inductive TryRecvError
  | empty
  | lagged (missed : ℕ)

/-- A receiver at a position reads, and moves on. -/
def tryRecv (r : BroadcastRing α capacity) (next : ℕ) : Except TryRecvError α × ℕ :=
  if next < r.oldest then (.error (.lagged (r.oldest - next)), r.oldest)
  else
    match r.slots[next - r.oldest]? with
    | some a => (.ok a, next + 1)
    | none => (.error .empty, next)

/-- The ring is what is left of the values sent. -/
structure Holds (r : BroadcastRing α capacity) (log : List α) : Prop where
  slots : r.slots = log.drop (log.length - capacity)
  tail : r.tail = log.length

theorem holds_channel : (channel α capacity).Holds [] :=
  ⟨List.drop_nil.symm, rfl⟩

theorem Holds.send {r : BroadcastRing α capacity} {log : List α} (h : r.Holds log) (a : α) :
    (r.send a).Holds (log ++ [a]) := by
  have hlength : r.slots.length = log.length - (log.length - capacity) := by
    rw [h.slots, List.length_drop]
  refine ⟨?_, ?_⟩
  · calc (r.slots ++ [a]).drop (r.slots.length + 1 - capacity)
        = ((log ++ [a]).drop (log.length - capacity)).drop (r.slots.length + 1 - capacity) := by
          rw [h.slots, List.drop_append_of_le_length (Nat.sub_le _ _)]
      _ = (log ++ [a]).drop ((log ++ [a]).length - capacity) := by
          rw [List.drop_drop, List.length_append, List.length_singleton]
          congr 1
          omega
  · rw [List.length_append, ← h.tail]
    rfl

theorem Holds.oldest {r : BroadcastRing α capacity} {log : List α} (h : r.Holds log) :
    r.oldest = log.length - capacity := by
  rw [BroadcastRing.oldest, h.tail, h.slots, List.length_drop]
  omega

/-- **A receiver that is not too far behind reads the value at its position.** -/
theorem Holds.tryRecv {r : BroadcastRing α capacity} {log : List α} (h : r.Holds log) {next : ℕ}
    (hnext : r.tail - next ≤ capacity) :
    r.tryRecv next = match log[next]? with
      | some a => (.ok a, next + 1)
      | none => (.error .empty, next) := by
  rw [h.tail] at hnext
  have hslot : r.slots[next - r.oldest]? = log[next]? := by
    rw [h.oldest, h.slots, List.getElem?_drop]
    congr 1
    omega
  rw [BroadcastRing.tryRecv, if_neg (by rw [h.oldest]; omega), hslot]

/-- A receiver that lags skips to the oldest value retained. -/
theorem Holds.tryRecv_lagged {r : BroadcastRing α capacity} {log : List α} (h : r.Holds log)
    {next : ℕ} (hnext : ¬r.tail - next ≤ capacity) :
    r.tryRecv next =
      (.error (.lagged (log.length - capacity - next)), log.length - capacity) := by
  rw [h.tail] at hnext
  rw [BroadcastRing.tryRecv, h.oldest, if_pos (by omega)]

end BroadcastRing

/-- A channel, and a task that receives its values and passes them on. -/
structure Forwarder (α : Type*) (capacity : ℕ) where
  ring : BroadcastRing α capacity
  /-- The position of its receiver. -/
  next : ℕ
  /-- The value it has received and not passed on. -/
  held : Option α

namespace Forwarder

variable {α : Type*} {capacity : ℕ} {f : Forwarder α capacity} {log done : List α}

variable (α capacity) in
/-- A forwarder of a new channel. -/
def subscribe : Forwarder α capacity :=
  ⟨.channel α capacity, 0, none⟩

/-- A value is sent on the channel. -/
def send (f : Forwarder α capacity) (a : α) : Forwarder α capacity :=
  { f with ring := f.ring.send a }

/-- The forwarder receives, unless it has a value to pass on. -/
def recv (f : Forwarder α capacity) : Forwarder α capacity :=
  match f.held with
  | some _ => f
  | none =>
    match f.ring.tryRecv f.next with
    | (.ok a, next) => { f with next, held := some a }
    | (.error _, next) => { f with next }

/-- The value is passed on. -/
def pass (f : Forwarder α capacity) : Forwarder α capacity :=
  { f with held := none }

/-- How many values the receiver is behind. -/
def behind (f : Forwarder α capacity) : ℕ :=
  f.ring.tail - f.next

/-- What the forwarder has yet to pass on if it does not lag. -/
def unread (f : Forwarder α capacity) (log : List α) : List α :=
  f.held.toList ++ log.drop f.next

theorem unread_send (h : f.next ≤ log.length) (a : α) :
    (f.send a).unread (log ++ [a]) = f.unread log ++ [a] := by
  rw [unread, unread, List.append_assoc, ← List.drop_append_of_le_length h]
  rfl

theorem unread_pass (f : Forwarder α capacity) (log : List α) :
    f.held.toList ++ f.pass.unread log = f.unread log :=
  rfl

/-- A forwarder that receives leaves nothing out, when it is not too far behind. -/
theorem unread_recv (h : f.ring.Holds log) (hbehind : f.behind ≤ capacity) :
    f.recv.unread log = f.unread log := by
  unfold recv
  cases hheld : f.held with
  | some a => rfl
  | none =>
    simp only [h.tryRecv hbehind]
    cases hget : log[f.next]? with
    | none => rw [unread, unread, hheld]
    | some a =>
      obtain ⟨hlt, rfl⟩ := List.getElem?_eq_some_iff.mp hget
      rw [unread, unread, hheld, List.drop_eq_getElem_cons hlt]
      rfl

/-- A forwarder that receives leaves out a first part of what is unread, if anything. -/
theorem unread_recv_suffix (h : f.ring.Holds log) : f.recv.unread log <:+ f.unread log := by
  by_cases hbehind : f.behind ≤ capacity
  · have heq : f.recv.unread log = f.unread log := unread_recv h hbehind
    exact heq ▸ List.suffix_rfl
  · unfold recv
    cases hheld : f.held with
    | some a => exact List.suffix_rfl
    | none =>
      have hlt : f.next ≤ log.length - capacity := by
        rw [behind, h.tail] at hbehind
        omega
      simp only [h.tryRecv_lagged hbehind]
      rw [unread, unread, hheld]
      exact List.drop_suffix_drop_left log hlt

/-- What `log` is to a forwarder that has passed on `done`. -/
structure Follows (f : Forwarder α capacity) (log done : List α) : Prop where
  holds : f.ring.Holds log
  next_le : f.next ≤ log.length
  suffix : f.unread log <:+ log
  sublist : (done ++ f.unread log).Sublist log

theorem follows_subscribe : (subscribe α capacity).Follows [] [] :=
  ⟨BroadcastRing.holds_channel, Nat.le_refl 0, List.suffix_rfl, List.Sublist.refl _⟩

theorem Follows.send (h : f.Follows log done) (a : α) : (f.send a).Follows (log ++ [a]) done where
  holds := h.holds.send a
  next_le := by
    rw [List.length_append]
    exact Nat.le_trans h.next_le (Nat.le_add_right _ _)
  suffix := by
    rw [unread_send h.next_le]
    obtain ⟨front, hfront⟩ := h.suffix
    exact ⟨front, by rw [← List.append_assoc, hfront]⟩
  sublist := by
    rw [unread_send h.next_le, ← List.append_assoc]
    exact h.sublist.append_right [a]

theorem next_recv_le (h : f.Follows log done) : f.recv.next ≤ log.length := by
  unfold recv
  cases f.held with
  | some a => exact h.next_le
  | none =>
    by_cases hbehind : f.behind ≤ capacity
    · simp only [h.holds.tryRecv hbehind]
      cases hget : log[f.next]? with
      | none => exact h.next_le
      | some a => exact (List.getElem?_eq_some_iff.mp hget).1
    · simp only [h.holds.tryRecv_lagged hbehind]
      exact Nat.sub_le _ _

theorem ring_recv (f : Forwarder α capacity) : f.recv.ring = f.ring := by
  unfold recv
  split
  · rfl
  · split <;> rfl

theorem Follows.recv (h : f.Follows log done) : f.recv.Follows log done where
  holds := f.ring_recv ▸ h.holds
  next_le := next_recv_le h
  suffix := (unread_recv_suffix h.holds).trans h.suffix
  sublist := ((unread_recv_suffix h.holds).sublist.append_left done).trans h.sublist

theorem Follows.pass (h : f.Follows log done) : f.pass.Follows log (done ++ f.held.toList) where
  holds := h.holds
  next_le := h.next_le
  suffix := by
    have hpass : f.pass.unread log <:+ f.unread log := List.suffix_append _ _
    exact hpass.trans h.suffix
  sublist := by
    rw [List.append_assoc, unread_pass]
    exact h.sublist

end Forwarder
