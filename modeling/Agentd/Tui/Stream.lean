import Agentd.Daemon.EventFrame
import Agentd.Foundations.Broadcast
import Agentd.Handlers.Read
import Agentd.Tui.Converge

/-!
# The way of an event to a dashboard

A request emits an event on the bus; the forwarder receives it there and tells the subscribers;
`run_subscribe` takes it from the queue of its subscriber and writes it as a line; the reader task
of `ControlClient::subscribe` reads the lines and sends what they say on a channel of its own; the
loop of the dashboard takes it from there and applies it. Meanwhile more requests come in, and at
some moment after it has subscribed the dashboard takes its snapshot.

A `Agentd.Feed` is all of this, for one dashboard. Each of the parties goes on when it likes, bytes
arrive in pieces of any size, the daemon may break off in the middle of a line, and each of the two
bounded channels may overrun its receiver.

* `Agentd.Feed.ordered_run` – whatever happens, what is applied has been emitted, in the same order
  and no event of it twice;
* `Agentd.Feed.shows_run` – once nothing is on the way any more, the dashboard shows the live
  sessions of the database, if `run_subscribe` still goes on and no receiver was overrun;
* `Agentd.Feed.late_run` – but `run_subscribe` does not go on for long: with `subscribe` returns
  the half of the connection that is written to, and its end is what `run_subscribe` finds when it
  looks at the connection next.

A run of the machine is any list of happenings. Which of them can follow which is not prescribed: a
happening whose turn it is not changes nothing. So a statement about all runs is one about every way
in which the tasks of the two processes can take turns and every way in which the bytes between them
can be cut, delayed or lost.
-/

namespace Agentd

open Json Utf8

/-- A dashboard, the daemon, and what is between them. -/
structure Feed (capacity : ℕ) where
  db : Db
  /-- The requests so far. -/
  requests : List Input
  bus : Forwarder Event capacity
  /-- What the forwarder has broadcast. -/
  passed : List Event
  /-- The dashboard has been registered as a subscriber. -/
  registered : Bool
  /-- How many requests there were before. -/
  before : ℕ
  /-- The loop of `run_subscribe` goes on. -/
  streaming : Bool
  /-- What the subscriber has been told. -/
  told : List Event
  /-- What of it is yet to be written. -/
  queue : List Event
  /-- The connection, to the dashboard. -/
  frames : Pipe UInt8
  /-- `run_subscribe` has found nothing to read on the connection, and tries the queue next. -/
  probed : Bool
  /-- `ControlClient::subscribe` has returned the receiver. -/
  subscribed : Bool
  /-- It has returned, with the receiver or an error: its half of the connection is dropped. -/
  shut : Bool
  /-- The connection is being read. -/
  reading : Bool
  /-- The channel of the dashboard. -/
  ring : BroadcastRing Event capacity
  /-- The position of its receiver. -/
  next : ℕ
  screen : Option TuiState
  /-- The events that were applied. -/
  applied : List (Instant × Event)
  /-- A receiver has missed events. -/
  lagged : Bool

/-- What happens. -/
inductive Happening
  /-- A request is handled, and emits its event. -/
  | request (i : Input)
  /-- The forwarder receives an event, and broadcasts it. -/
  | recv
  | broadcast
  /-- `run_subscribe` begins, and writes its answer, or only so many bytes of it, and gives up. -/
  | register (subscriptionId : UInt64) (cut : Option ℕ)
  /-- `run_subscribe` looks whether there is anything to read on the connection. -/
  | probe
  /-- `run_subscribe` writes an event, if there is one, or only so many bytes of it, and gives
  up. -/
  | write (cut : Option ℕ)
  /-- `run_subscribe` ends without having found the end of the connection: it cannot read, or the
  daemon goes. -/
  | unregister
  /-- So many bytes arrive. -/
  | arrive (n : ℕ)
  /-- A line is read from the connection, if one is there. -/
  | read
  /-- The dashboard takes its snapshot. -/
  | snapshot
  /-- The dashboard applies the next event of its channel. -/
  | apply (now : Instant)

/-- The request that is handled. -/
def Happening.inputs : Happening → List Input
  | request i => [i]
  | _ => []

namespace Feed

variable {capacity : ℕ}

variable (capacity) in
/-- A daemon with an empty database, and no dashboard. -/
def start : Feed capacity where
  db := Db.fresh
  requests := []
  bus := .subscribe Event capacity
  passed := []
  registered := false
  before := 0
  streaming := false
  told := []
  queue := []
  frames := .fresh
  probed := false
  subscribed := false
  shut := false
  reading := true
  ring := .channel Event capacity
  next := 0
  screen := none
  applied := []
  lagged := false

section Step

variable (J : JsonText)

/-- `write_response`: a line is written and goes out, or so many bytes of it, and the writer
goes. -/
def writeOrPart (p : Pipe UInt8) (v : Value) (cut : Option ℕ) : Pipe UInt8 :=
  let p := p.write (Rpc.toVec J v ++ [newline])
  match cut with
  | none => p.send p.unsent.length
  | some n => (p.send n).close

/-- The answer to `subscribe`. -/
def ack (subscriptionId : UInt64) : Value :=
  Rpc.jsonRpcResult (.ofU64 1) (.object [("subscription_id", .ofU64 subscriptionId)])

/-- The line that `subscribe` reads before it returns. The task that reads on has the other half
of the connection; the half that is written to is dropped, which the daemon finds to be the end of
what there is to read. -/
def readAck (s : Feed capacity) (line : List UInt8) : Feed capacity :=
  match Rpc.parse J line with
  | none => { s with reading := false, shut := true }
  | some resp =>
    if (resp.get "error").isSome then { s with reading := false, shut := true }
    else { s with subscribed := true, shut := true }

/-- A line that the reader task reads. -/
def readFrame (s : Feed capacity) (line : List UInt8) : Feed capacity :=
  if line = [] ∨ fromUtf8 line = none then { s with reading := false }
  else
    -- what is no JSON, and what is no event, is passed over
    match (Rpc.parse J line).bind Event.ofFrame with
    | none => s
    | some event => { s with ring := s.ring.send event }

/-- The answer to `state.snapshot`, as it is sent. -/
def snapshotAnswer (db : Db) : Option Value :=
  (Read.dispatch Method.stateSnapshot (.object []) db).map (Rpc.jsonRpcResult (.ofU64 1))

/-- One thing happens. -/
def step (s : Feed capacity) : Happening → Feed capacity
  | .request i => { s with
      db := Agentd.next s.db i
      requests := s.requests ++ [i]
      bus := (handle s.db i).events.foldl Forwarder.send s.bus }
  | .recv => { s with
      bus := s.bus.recv
      lagged := s.lagged || (s.bus.held.isNone && decide (capacity < s.bus.behind)) }
  | .broadcast =>
    match s.bus.held with
    | none => s
    | some event =>
      let told := if s.streaming then [event] else []
      { s with
        bus := s.bus.pass
        passed := s.passed ++ [event]
        told := s.told ++ told
        queue := s.queue ++ told }
  | .register subscriptionId cut =>
    if s.registered then s
    else { s with
      registered := true
      probed := false
      before := s.requests.length
      streaming := cut.isNone
      frames := writeOrPart J s.frames (ack subscriptionId) cut }
  | .probe =>
    if s.streaming ∧ ¬s.probed then
      -- `ReadLine::Eof`, or `ReadLine::WouldBlock`: nothing is sent after `subscribe`
      if s.shut then { s with streaming := false, frames := s.frames.close }
      else { s with probed := true }
    else s
  | .write cut =>
    if s.streaming ∧ s.probed then
      match s.queue with
      | [] => { s with probed := false }
      | event :: queue => { s with
          queue
          probed := false
          streaming := cut.isNone
          frames := writeOrPart J s.frames event.frame cut }
    else s
  | .unregister =>
    if s.streaming then { s with streaming := false, frames := s.frames.close } else s
  | .arrive n => { s with frames := s.frames.arrive n }
  | .read =>
    if s.reading then
      match s.frames.readLine newline with
      | none => s
      | some (line, frames) =>
        if s.subscribed then readFrame J { s with frames } line
        else readAck J { s with frames } line
    else s
  | .snapshot =>
    if s.subscribed ∧ s.screen.isNone then
      match (snapshotAnswer s.db).bind fun v => Rpc.parse J (Rpc.toVec J v ++ [newline]) with
      | none => s
      | some resp => { s with
          screen := some (.fromSnapshot ((resp.get "result").getD .null)) }
    else s
  | .apply now =>
    match s.screen with
    | none => s
    | some st =>
      match s.ring.tryRecv s.next with
      | (.ok event, next) => { s with
          next
          screen := some (st.applyEvent now event)
          applied := s.applied ++ [(now, event)] }
      | (.error (.lagged _), next) => { s with next, lagged := true }
      | (.error .empty, _) => s

/-- What is sent when this happens reads back: JSON that says a number with a fraction need
not. -/
def Exact (s : Feed capacity) : Happening → Prop
  | .write _ => ∀ event ∈ s.queue.head?, Rpc.ReadsBack J event.frame
  | .snapshot => ∀ v ∈ snapshotAnswer s.db, Rpc.ReadsBack J v
  | _ => True

/-- A check that is enough for it. -/
def isExact (s : Feed capacity) : Happening → Bool
  | .write _ => s.queue.head?.all fun event => event.frame.isPlain 127
  | .snapshot => (snapshotAnswer s.db).all fun v => v.isPlain 127
  | _ => true

/-- The check is enough for it. -/
theorem exact_of_isExact {s : Feed capacity} {x : Happening} (h : s.isExact x = true) :
    Exact J s x := by
  cases x with
  | write cut =>
    intro event hevent
    exact Rpc.readsBack_of_plain (Value.plain_of_isPlain ((Option.all_eq_true _ _).mp h event hevent))
  | snapshot =>
    intro v hv
    have hplain := Value.plain_of_isPlain ((Option.all_eq_true _ _).mp h v hv)
    obtain ⟨snap, -, rfl⟩ := Option.map_eq_some_iff.mp hv
    exact Rpc.readsBack_of_plain hplain
  | _ => trivial

end Step

/-! ### The side of the daemon

What is emitted goes to the bus, from the bus to the forwarder, from there to the queue of each
subscriber, and from the queue to the connection. At each of these stations the events are in the
order in which they were emitted. Where the ring of the bus is overrun some are missing from there
on; where nothing is, what the subscriber has been told is what was emitted since some moment before
it was registered, up to what the bus still has. -/

/-- All that was emitted. -/
def log (s : Feed capacity) : List Event :=
  emitted Db.fresh s.requests

/-- Nothing has passed between the daemon and the dashboard. -/
def Unheard (s : Feed capacity) : Prop :=
  s.told = [] ∧ s.queue = [] ∧ s.subscribed = false ∧ s.streaming = false ∧
    s.frames.closed = false ∧ s.frames.content = [] ∧ s.shut = false

/-- What the daemon has told the subscriber, and has yet to. -/
structure Told (s : Feed capacity) : Prop where
  db : s.db = Machine.run Agentd.next Db.fresh s.requests
  follows : s.bus.Follows s.log s.passed
  sublist : s.told.Sublist s.passed
  before_le : s.before ≤ s.requests.length
  unheard : s.registered = false → s.Unheard
  connected : s.streaming = true → s.registered = true ∧ s.frames.closed = false
  /-- It is told what was emitted since some moment before it was registered, unless the forwarder
  was overrun. -/
  since : s.streaming = true → s.lagged = false → ∃ l₀ l₁, s.requests = l₀ ++ l₁ ∧
    l₀.length ≤ s.before ∧
    emitted (Machine.run Agentd.next Db.fresh l₀) l₁ = s.told ++ s.bus.unread s.log

section Sends

variable {f : Forwarder Event capacity} {events : List Event}

/-- Events that are sent to the bus come at the end of its log. -/
theorem follows_sends {log done : List Event} (h : f.Follows log done) :
    (events.foldl Forwarder.send f).Follows (log ++ events) done := by
  induction events generalizing f log with
  | nil => exact (List.append_nil log).symm ▸ h
  | cons e events ih =>
    rw [List.foldl_cons, List.append_cons]
    exact ih (h.send e)

/-- Events that are sent to the bus come at the end of what the forwarder has yet to read. -/
theorem unread_sends {log done : List Event} (h : f.Follows log done) :
    (events.foldl Forwarder.send f).unread (log ++ events) = f.unread log ++ events := by
  induction events generalizing f log with
  | nil => simp
  | cons e events ih =>
    rw [List.foldl_cons, List.append_cons, ih (h.send e), Forwarder.unread_send h.next_le,
      List.append_assoc, List.singleton_append]

end Sends

/-- The last request emits last. -/
theorem emitted_concat (db : Db) (l : List Input) (i : Input) :
    emitted db (l ++ [i]) = emitted db l ++ (handle (Machine.run Agentd.next db l) i).events := by
  rw [emitted_append, emitted_cons]
  exact congrArg _ (List.append_nil _)

section Told

variable {J : JsonText} {s : Feed capacity}

/-- Before there is a dashboard it has been told nothing. -/
theorem told_start : (start capacity).Told where
  db := rfl
  follows := Forwarder.follows_subscribe
  sublist := List.Sublist.refl _
  before_le := Nat.zero_le _
  unheard _ := ⟨rfl, rfl, rfl, rfl, rfl, rfl, rfl⟩
  connected h := by cases h
  since h := by cases h

/-- A request puts its event on the bus, and tells nobody yet. -/
theorem Told.request (h : s.Told) (i : Input) : (step J s (.request i)).Told := by
  have hlog : emitted Db.fresh (s.requests ++ [i]) = s.log ++ (handle s.db i).events := by
    rw [emitted_concat, ← h.db]
    rfl
  refine
    { db := ?_, follows := ?_, sublist := h.sublist, before_le := ?_, unheard := h.unheard,
      connected := h.connected, since := fun hs hl => ?_ }
  · exact (congrArg (Agentd.next · i) h.db).trans (Machine.run_concat _ _ _ _).symm
  · rw [log]
    exact hlog ▸ follows_sends h.follows
  · exact h.before_le.trans (by simp [step])
  · obtain ⟨l₀, l₁, hsplit, hlen, hevents⟩ := h.since hs hl
    refine ⟨l₀, l₁ ++ [i], ?_, hlen, ?_⟩
    · exact (congrArg (· ++ [i]) hsplit).trans (List.append_assoc _ _ _)
    · have hdb : Machine.run Agentd.next (Machine.run Agentd.next Db.fresh l₀) l₁ = s.db := by
        rw [← Machine.run_append, ← hsplit, h.db]
      rw [emitted_concat, hevents, hdb, List.append_assoc]
      exact congrArg (s.told ++ ·) ((unread_sends h.follows).symm.trans (hlog ▸ rfl))

/-- The forwarder takes an event, or finds that it has missed some: then nothing is promised any
more. -/
theorem Told.recv (h : s.Told) : (step J s .recv).Told := by
  refine
    { db := h.db, follows := h.follows.recv, sublist := h.sublist, before_le := h.before_le,
      unheard := h.unheard, connected := h.connected, since := fun hs hl => ?_ }
  dsimp only [step] at hl
  rw [Bool.or_eq_false_iff, Bool.and_eq_false_iff, decide_eq_false_iff_not, not_lt] at hl
  obtain ⟨l₀, l₁, hsplit, hlen, hevents⟩ := h.since hs hl.1
  refine ⟨l₀, l₁, hsplit, hlen, hevents.trans ?_⟩
  have hunread : s.bus.recv.unread s.log = s.bus.unread s.log := by
    rcases hl.2 with hheld | hbehind
    · obtain ⟨a, ha⟩ := Option.ne_none_iff_exists'.mp (Option.isNone_eq_false_iff.mp hheld |>
        Option.isSome_iff_ne_none.mp)
      rw [Forwarder.recv, ha]
    · exact Forwarder.unread_recv h.follows.holds hbehind
  exact congrArg _ hunread.symm

/-- What the forwarder broadcasts is told to the dashboard if it is being served. -/
theorem Told.broadcast (h : s.Told) : (step J s .broadcast).Told := by
  rw [step]
  cases hheld : s.bus.held with
  | none => exact h
  | some event =>
    have hpass := h.follows.pass
    rw [hheld] at hpass
    refine
      { db := h.db, follows := hpass, sublist := ?_, before_le := h.before_le,
        unheard := fun hr => ?_, connected := h.connected, since := fun hs hl => ?_ }
    · dsimp only
      split_ifs
      · exact h.sublist.append_right [event]
      · rw [List.append_nil]
        exact h.sublist.trans (List.sublist_append_left _ _)
    · obtain ⟨htold, hqueue, hsub, hstream, hframes⟩ := h.unheard hr
      unfold Unheard
      dsimp only
      rw [htold, hqueue, hstream]
      exact ⟨rfl, rfl, hsub, rfl, hframes⟩
    · obtain ⟨l₀, l₁, hsplit, hlen, hevents⟩ := h.since hs hl
      refine ⟨l₀, l₁, hsplit, hlen, hevents.trans ?_⟩
      dsimp only at hs ⊢
      rw [if_pos hs, List.append_assoc, ← Forwarder.unread_pass, hheld]
      rfl

/-- The forwarder and the bus are as before. -/
theorem Told.of_bus (h : s.Told) {t : Feed capacity} (hdb : t.db = s.db)
    (hrequests : t.requests = s.requests) (hbus : t.bus = s.bus) (hpassed : t.passed = s.passed)
    (htold : t.told = s.told) (hbefore : t.before = s.before)
    (hregistered : t.registered = s.registered)
    (hunheard : s.registered = false → s.Unheard → t.Unheard)
    (hstreaming : t.streaming = true → s.streaming = true ∧ t.frames.closed = s.frames.closed)
    (hlagged : t.lagged = false → s.lagged = false) : t.Told where
  db := by rw [hdb, hrequests, h.db]
  follows := by
    rw [log, hrequests, hbus, hpassed]
    exact h.follows
  sublist := by
    rw [htold, hpassed]
    exact h.sublist
  before_le := by
    rw [hbefore, hrequests]
    exact h.before_le
  unheard hr := by
    rw [hregistered] at hr
    exact hunheard hr (h.unheard hr)
  connected hs := by
    rw [hregistered, (hstreaming hs).2]
    exact h.connected (hstreaming hs).1
  since hs hl := by
    rw [log, hrequests, hbefore, htold, hbus]
    exact h.since (hstreaming hs).1 (hlagged hl)

/-- A line that is written is carried to the other end, all of it, or a part of it that ends the
connection. -/
theorem carries_writeOrPart {p : Pipe UInt8} {lines : List (List UInt8)}
    (h : p.Carries newline lines) (hopen : p.closed = false) (v : Value) (cut : Option ℕ) :
    (writeOrPart J p v cut).Carries newline (lines ++ [Rpc.toVec J v]) := by
  have hwrite := h.write hopen (Rpc.newline_notMem_toVec (J := J) v)
  cases cut with
  | none => exact hwrite.send _
  | some n => exact (hwrite.send n).close

/-- The connection stays open when a line is written whole. -/
theorem closed_writeOrPart {p : Pipe UInt8} (hopen : p.closed = false) {v : Value}
    {cut : Option ℕ} (hcut : cut.isNone = true) : (writeOrPart J p v cut).closed = false := by
  rw [Option.isNone_iff_eq_none.mp hcut]
  exact hopen

/-- The dashboard is registered: what the bus has yet to tell it is all that the last requests
have emitted. -/
theorem Told.register (h : s.Told) (id : UInt64) (cut : Option ℕ) :
    (step J s (.register id cut)).Told := by
  rw [step]
  split_ifs with hr
  · exact h
  obtain ⟨htold, -, -, -, hopen, -⟩ := h.unheard (Bool.eq_false_iff.mpr hr)
  refine
    { db := h.db, follows := h.follows, sublist := h.sublist, before_le := Nat.le_refl _,
      unheard := fun hf => (Bool.noConfusion hf),
      connected := fun hs => ⟨rfl, closed_writeOrPart hopen hs⟩, since := fun _ _ => ?_ }
  obtain ⟨l₀, l₁, hsplit, hevents⟩ := exists_emitted_of_suffix s.requests Db.fresh h.follows.suffix
  refine ⟨l₀, l₁, hsplit, ?_, ?_⟩
  · dsimp only
    rw [hsplit, List.length_append]
    exact Nat.le_add_right _ _
  · dsimp only
    rw [htold, List.nil_append, ← hevents]
    rfl

/-- The look at the connection may end the subscription, and tells nothing. -/
theorem Told.probe (h : s.Told) : (step J s .probe).Told := by
  unfold step
  dsimp only
  split_ifs with hs
  · have hr : s.registered = true := (h.connected hs.1).1
    exact h.of_bus rfl rfl rfl rfl rfl rfl rfl (fun hf => absurd hr (Bool.eq_false_iff.mp hf))
      (fun hs => by cases hs) id
  · exact h.of_bus rfl rfl rfl rfl rfl rfl rfl (fun _ hun => hun) (fun hs => ⟨hs, rfl⟩) id
  · exact h

/-- An event goes from the queue to the connection; it had been told before. -/
theorem Told.write (h : s.Told) (cut : Option ℕ) : (step J s (.write cut)).Told := by
  unfold step
  dsimp only
  split_ifs with hprobed
  · obtain ⟨hs, -⟩ := hprobed
    obtain ⟨hr, hopen⟩ := h.connected hs
    split
    · exact h.of_bus rfl rfl rfl rfl rfl rfl rfl (fun _ hun => hun) (fun hs => ⟨hs, rfl⟩) id
    · refine h.of_bus rfl rfl rfl rfl rfl rfl rfl
        (fun hf => absurd hr (Bool.eq_false_iff.mp hf)) (fun hcut => ⟨hs, ?_⟩) id
      exact (closed_writeOrPart hopen hcut).trans hopen.symm
  · exact h

/-- A subscription that ends has been told what it has. -/
theorem Told.unregister (h : s.Told) : (step J s .unregister).Told := by
  rw [step]
  split_ifs with hs
  · have hr : s.registered = true := (h.connected hs).1
    exact h.of_bus rfl rfl rfl rfl rfl rfl rfl (fun hf => absurd hr (Bool.eq_false_iff.mp hf))
      (fun hs => by cases hs) id
  · exact h

/-- Bytes that arrive at the dashboard are none of the daemon's concern. -/
theorem Told.arrive (h : s.Told) (n : ℕ) : (step J s (.arrive n)).Told := by
  refine h.of_bus rfl rfl rfl rfl rfl rfl rfl (fun _ hun => ?_) (fun hs => ⟨hs, rfl⟩) id
  obtain ⟨htold, hqueue, hsub, hstream, hclosed, hcontent, hshut⟩ := hun
  exact ⟨htold, hqueue, hsub, hstream, hclosed, (Pipe.content_arrive s.frames n).trans hcontent,
    hshut⟩

/-- What the dashboard reads is none of the daemon's concern, except that `subscribe` may return on
it, and drop the half of the connection that the daemon looks at. -/
theorem Told.read (h : s.Told) : (step J s .read).Told := by
  unfold step
  dsimp only
  split
  · cases hread : s.frames.readLine newline with
    | none => exact h
    | some lp =>
      obtain ⟨line, frames⟩ := lp
      have hclosed : frames.closed = s.frames.closed := Pipe.closed_readLine hread
      have hun : s.registered = false → ∀ t : Feed capacity, s.Unheard → t.Unheard := by
        rintro - t ⟨-, -, -, -, hopen, hcontent, -⟩
        rw [Pipe.readLine_of_content_nil hcontent hopen] at hread
        cases hread
      dsimp only
      split_ifs
      · unfold readFrame
        split_ifs
        · exact h.of_bus rfl rfl rfl rfl rfl rfl rfl (hun · _) (fun hs => ⟨hs, hclosed⟩) id
        · split <;>
            exact h.of_bus rfl rfl rfl rfl rfl rfl rfl (hun · _) (fun hs => ⟨hs, hclosed⟩) id
      · unfold readAck
        split
        · exact h.of_bus rfl rfl rfl rfl rfl rfl rfl (hun · _) (fun hs => ⟨hs, hclosed⟩) id
        · split_ifs <;>
            exact h.of_bus rfl rfl rfl rfl rfl rfl rfl (hun · _) (fun hs => ⟨hs, hclosed⟩) id
  · exact h

/-- The snapshot is answered from the tables, and tells the subscriber nothing. -/
theorem Told.snapshot (h : s.Told) : (step J s .snapshot).Told := by
  unfold step
  dsimp only
  split_ifs
  · split
    · exact h
    · exact h.of_bus rfl rfl rfl rfl rfl rfl rfl (fun _ hun => hun) (fun hs => ⟨hs, rfl⟩) id
  · exact h

/-- What is applied to the screen was told before. -/
theorem Told.apply (h : s.Told) (now : Instant) : (step J s (.apply now)).Told := by
  unfold step
  dsimp only
  split
  · exact h
  · split
    · exact h.of_bus rfl rfl rfl rfl rfl rfl rfl (fun _ hun => hun) (fun hs => ⟨hs, rfl⟩) id
    · exact h.of_bus rfl rfl rfl rfl rfl rfl rfl (fun _ hun => hun) (fun hs => ⟨hs, rfl⟩)
        (fun hl => by cases hl)
    · exact h

/-- **Whatever happens, what the subscriber is told follows the log.** -/
theorem Told.step (h : s.Told) (x : Happening) : (step J s x).Told := by
  cases x with
  | request i => exact h.request i
  | recv => exact h.recv
  | broadcast => exact h.broadcast
  | register id cut => exact h.register id cut
  | probe => exact h.probe
  | write cut => exact h.write cut
  | unregister => exact h.unregister
  | arrive n => exact h.arrive n
  | read => exact h.read
  | snapshot => exact h.snapshot
  | apply now => exact h.apply now

end Told

/-! ### The side of the dashboard

Between the queue of the daemon and the screen of the dashboard are the connection and the channel
of the reader task. `Agentd.Feed.Way` says where each event is: sent into the channel, or carried by
the connection, or neither when the connection has been cut. Only the acknowledgement may come
before the events. -/

/-- What is on its way to the dashboard: the answer to `subscribe`, if that has not come, then
events. What has come before is in the channel, or applied. -/
structure Way (J : JsonText) (s : Feed capacity) (sent carried : List Event)
    (answer : Option UInt64) : Prop where
  holds : s.ring.Holds sent
  next_le : s.next ≤ sent.length
  carries : s.frames.Carries newline
    ((answer.toList.map ack ++ carried.map Event.frame).map (Rpc.toVec J))
  back : ∀ event ∈ carried, Rpc.ReadsBack J event.frame
  answered : ∀ id ∈ answer, s.subscribed = false ∧ s.registered = true
  unanswered : answer = none → s.subscribed = true ∨ s.reading = false ∨ s.registered = false
  sublist : (s.applied.map Prod.snd ++ sent.drop s.next ++ carried ++ s.queue).Sublist s.told
  whole : s.streaming = true → s.lagged = false →
    s.applied.map Prod.snd ++ sent.drop s.next ++ carried ++ s.queue = s.told

section Way

variable {J : JsonText} {s : Feed capacity} {sent carried : List Event} {answer : Option UInt64}

/-- An acknowledgement reads back: it has two numbers and no fraction. -/
theorem readsBack_ack (id : UInt64) : Rpc.ReadsBack J (ack id) := by
  let reply : Except ProtocolError Value := .ok (.object [("subscription_id", .ofU64 id)])
  change Rpc.ReadsBack J (Rpc.response (.ofU64 1) reply)
  refine Rpc.readsBack_response (.posInt _ _) fun v hv => ?_
  obtain rfl := Except.ok.inj hv
  refine Rpc.plain_object (by simp only [List.map_cons, List.map_nil]; decide) ?_
  simp only [List.forall_mem_singleton]
  exact .posInt _ _

/-- Nothing is on the way at first. -/
theorem way_start : Way J (start capacity) [] [] none where
  holds := BroadcastRing.holds_channel
  next_le := Nat.le_refl 0
  carries := Pipe.carries_fresh
  back _ h := absurd h List.not_mem_nil
  answered _ h := by cases h
  unanswered _ := Or.inr (Or.inr rfl)
  sublist := List.Sublist.refl _
  whole _ _ := rfl

/-- What the dashboard has to do with is as before. -/
theorem Way.of_eq (h : Way J s sent carried answer) {t : Feed capacity} (hring : t.ring = s.ring)
    (hnext : t.next = s.next)
    (hframes : t.frames.Carries newline
      ((answer.toList.map ack ++ carried.map Event.frame).map (Rpc.toVec J)))
    (hsubscribed : t.subscribed = s.subscribed) (hreading : t.reading = s.reading)
    (hregistered : t.registered = s.registered) (happlied : t.applied = s.applied)
    (hqueue : t.queue = s.queue) (htold : t.told = s.told)
    (hstreaming : t.streaming = true → s.streaming = true)
    (hlagged : t.lagged = false → s.lagged = false) : Way J t sent carried answer where
  holds := hring ▸ h.holds
  next_le := hnext ▸ h.next_le
  carries := hframes
  back := h.back
  answered := by
    rw [hsubscribed, hregistered]
    exact h.answered
  unanswered := by
    rw [hsubscribed, hreading, hregistered]
    exact h.unanswered
  sublist := by
    rw [happlied, hnext, hqueue, htold]
    exact h.sublist
  whole hs hl := by
    rw [happlied, hnext, hqueue, htold]
    exact h.whole (hstreaming hs) (hlagged hl)

/-- A request puts its event on the bus of the daemon, which is before the way. -/
theorem Way.request (h : Way J s sent carried answer) (i : Input) :
    Way J (step J s (.request i)) sent carried answer :=
  h.of_eq rfl rfl h.carries rfl rfl rfl rfl rfl rfl id id

/-- So is what the forwarder holds. -/
theorem Way.recv (h : Way J s sent carried answer) :
    Way J (step J s .recv) sent carried answer :=
  h.of_eq rfl rfl h.carries rfl rfl rfl rfl rfl rfl id fun hl => (Bool.or_eq_false_iff.mp hl).1

/-- What is broadcast goes to the queue of the subscriber, and is written later. -/
theorem Way.broadcast (h : Way J s sent carried answer) :
    Way J (step J s .broadcast) sent carried answer := by
  unfold step
  dsimp only
  split
  · exact h
  · refine
      { holds := h.holds, next_le := h.next_le, carries := h.carries, back := h.back,
        answered := h.answered, unanswered := h.unanswered, sublist := ?_,
        whole := fun hs hl => ?_ }
    · dsimp only
      rw [← List.append_assoc]
      exact h.sublist.append_right _
    · dsimp only
      rw [← List.append_assoc, h.whole hs hl]

/-- The acknowledgement is the first line of the connection. -/
theorem Way.register (h : Way J s sent carried answer) (ht : s.Told) (id : UInt64)
    (cut : Option ℕ) : ∃ answer', Way J (step J s (.register id cut)) sent carried answer' := by
  unfold step
  dsimp only
  split_ifs with hr
  · exact ⟨answer, h⟩
  obtain ⟨htold, hqueue, hsub, -, hopen, -⟩ := ht.unheard (Bool.eq_false_iff.mpr hr)
  -- nothing was on its way before
  have hnone : answer = none := Option.eq_none_iff_forall_ne_some.mpr fun id' hid =>
    hr (h.answered id' hid).2
  have hall := h.sublist
  rw [htold, List.sublist_nil] at hall
  obtain ⟨hempty, -⟩ := List.append_eq_nil_iff.mp hall
  obtain ⟨-, rfl⟩ := List.append_eq_nil_iff.mp hempty
  subst hnone
  refine ⟨some id, ?_⟩
  exact
    { holds := h.holds
      next_le := h.next_le
      carries := carries_writeOrPart h.carries hopen (ack id) cut
      back := h.back
      answered := fun _ _ => ⟨hsub, rfl⟩
      unanswered := fun hf => by cases hf
      sublist := h.sublist
      whole := fun _ _ => hall.trans htold.symm }

/-- A subscription that ends closes the connection behind what has been written. -/
theorem Way.probe (h : Way J s sent carried answer) :
    Way J (step J s .probe) sent carried answer := by
  unfold step
  dsimp only
  split_ifs with hs
  · exact h.of_eq rfl rfl h.carries.close rfl rfl rfl rfl rfl rfl (fun _ => hs.1) id
  · exact h.of_eq rfl rfl h.carries rfl rfl rfl rfl rfl rfl id id
  · exact h

/-- An event that is written is the last that is carried, unless it was written in part: then it is
the last there is, and nobody reads it. -/
theorem Way.write (h : Way J s sent carried answer) (ht : s.Told) {cut : Option ℕ}
    (hexact : Exact J s (.write cut)) :
    ∃ carried', Way J (step J s (.write cut)) sent carried' answer := by
  unfold step
  dsimp only
  split_ifs with hprobed
  · obtain ⟨hs, -⟩ := hprobed
    obtain ⟨-, hopen⟩ := ht.connected hs
    cases hqueue : s.queue with
    | nil => exact ⟨carried, h.of_eq rfl rfl h.carries rfl rfl rfl rfl hqueue.symm rfl id id⟩
    | cons event queue =>
      have hmove : s.applied.map Prod.snd ++ sent.drop s.next ++ (carried ++ [event]) ++ queue =
          s.applied.map Prod.snd ++ sent.drop s.next ++ carried ++ s.queue := by
        rw [hqueue, ← List.append_assoc, List.append_assoc, List.singleton_append]
      refine ⟨carried ++ [event], ?_⟩
      refine
        { holds := h.holds, next_le := h.next_le, carries := ?_, back := fun e he => ?_,
          answered := h.answered, unanswered := h.unanswered, sublist := ?_,
          whole := fun _ hl => ?_ }
      · have hlines : (answer.toList.map ack ++ (carried ++ [event]).map Event.frame).map
            (Rpc.toVec J) = (answer.toList.map ack ++ carried.map Event.frame).map (Rpc.toVec J) ++
              [Rpc.toVec J event.frame] := by
          simp only [List.map_append, List.map_cons, List.map_nil, List.append_assoc]
        exact hlines ▸ carries_writeOrPart h.carries hopen event.frame cut
      · rcases List.mem_append.mp he with he | he
        · exact h.back e he
        · rw [List.mem_singleton.mp he]
          exact hexact event (by rw [hqueue]; rfl)
      · exact hmove ▸ h.sublist
      · exact hmove.trans (h.whole hs hl)
  · exact ⟨carried, h⟩

/-- Whoever ends the subscription, what was written arrives. -/
theorem Way.unregister (h : Way J s sent carried answer) :
    Way J (step J s .unregister) sent carried answer := by
  unfold step
  dsimp only
  split_ifs with hs
  · exact h.of_eq rfl rfl h.carries.close rfl rfl rfl rfl rfl rfl (fun _ => hs) id
  · exact h

/-- Bytes that arrive are the same lines. -/
theorem Way.arrive (h : Way J s sent carried answer) (n : ℕ) :
    Way J (step J s (.arrive n)) sent carried answer :=
  h.of_eq rfl rfl (h.carries.arrive n) rfl rfl rfl rfl rfl rfl id id

/-- The snapshot is taken on a connection of its own. -/
theorem Way.snapshot (h : Way J s sent carried answer) :
    Way J (step J s .snapshot) sent carried answer := by
  unfold step
  dsimp only
  split_ifs
  · split
    · exact h
    · exact h.of_eq rfl rfl h.carries rfl rfl rfl rfl rfl rfl id id
  · exact h

/-- The dashboard takes the next event of its channel, or is told that it has missed some. -/
theorem Way.apply (h : Way J s sent carried answer) (now : Instant) :
    Way J (step J s (.apply now)) sent carried answer := by
  unfold step
  dsimp only
  split
  · exact h
  by_cases hbehind : s.ring.tail - s.next ≤ capacity
  · rw [h.holds.tryRecv hbehind]
    cases hget : sent[s.next]? with
    | none => exact h
    | some event =>
      obtain ⟨hlt, rfl⟩ := List.getElem?_eq_some_iff.mp hget
      have hmove : (s.applied ++ [(now, sent[s.next])]).map Prod.snd ++ sent.drop (s.next + 1) =
          s.applied.map Prod.snd ++ sent.drop s.next := by
        rw [List.map_append, List.append_assoc, List.drop_eq_getElem_cons hlt]
        rfl
      refine
        { holds := h.holds, next_le := hlt, carries := h.carries, back := h.back,
          answered := h.answered, unanswered := h.unanswered, sublist := ?_,
          whole := fun hs hl => ?_ }
      · exact hmove ▸ h.sublist
      · exact (congrArg (· ++ carried ++ s.queue) hmove).trans (h.whole hs hl)
  · rw [h.holds.tryRecv_lagged hbehind]
    have hle : s.next ≤ sent.length - capacity := by
      rw [h.holds.tail] at hbehind
      omega
    refine
      { holds := h.holds, next_le := Nat.sub_le _ _, carries := h.carries, back := h.back,
        answered := h.answered, unanswered := h.unanswered, sublist := ?_,
        whole := fun _ hl => by cases hl }
    refine List.Sublist.trans ?_ h.sublist
    exact (((List.drop_suffix_drop_left sent hle).sublist.append_left _).append_right
      _).append_right _

/-! A line is read. -/

/-- A line that is an event goes into the channel. -/
theorem readFrame_of_parse {line : List UInt8} {event : Event}
    (h : Rpc.parse J line = some event.frame) :
    readFrame J s line = { s with ring := s.ring.send event } := by
  have hsome := h
  rw [Rpc.parse] at hsome
  have hline : ¬(line = [] ∨ fromUtf8 line = none) := by
    rintro (rfl | hnone)
    · cases hsome
    · rw [hnone, Option.bind_none] at hsome
      split_ifs at hsome
  rw [readFrame, if_neg hline, h, Option.bind_some, Event.ofFrame_frame]

/-- One that cannot be parsed is passed over, or is the end. -/
theorem readFrame_of_parse_none {line : List UInt8} (h : Rpc.parse J line = none) :
    readFrame J s line = { s with reading := (readFrame J s line).reading } := by
  unfold readFrame
  rw [h]
  split_ifs <;> rfl

/-- The acknowledgement makes `subscribe` return, which drops the half of the connection that is
written to. -/
theorem readAck_of_parse {line : List UInt8} {id : UInt64} (h : Rpc.parse J line = some (ack id)) :
    readAck J s line = { s with subscribed := true, shut := true } := by
  rw [readAck, h]
  rfl

/-- After the answer, each line is an event. -/
theorem Way.readFrame (h : Way J s sent carried none) (ht : s.Told) (hsub : s.subscribed = true)
    {line : List UInt8} {frames : Pipe UInt8}
    (hread : s.frames.readLine newline = some (line, frames)) :
    ∃ sent' carried', Way J (readFrame J { s with frames } line) sent' carried' none := by
  have hgone : s.frames.closed = true → s.streaming ≠ true := fun hclosed hs =>
    Bool.noConfusion (hclosed.symm.trans (ht.connected hs).2)
  -- whatever is not read any more is an end that was cut off
  have hnone (rest : List Event) (hrest : rest <:+ carried) (hparse : Rpc.parse J line = none)
      (hclosed : s.frames.closed = true)
      (hcarries : frames.Carries newline ((rest.map Event.frame).map (Rpc.toVec J))) :
      Way J (Feed.readFrame J { s with frames } line) sent rest none := by
    rw [readFrame_of_parse_none hparse]
    exact
      { holds := h.holds
        next_le := h.next_le
        carries := hcarries
        back := fun e he => h.back e (hrest.subset he)
        answered := fun _ hf => by cases hf
        unanswered := fun _ => Or.inl hsub
        sublist := ((hrest.sublist.append_left _).append_right _).trans h.sublist
        whole := fun hs => absurd hs (hgone hclosed) }
  have hcarries := h.carries
  cases carried with
  | nil =>
    obtain ⟨hparse, hclosed, hrest, -⟩ := Rpc.parse_of_carries_nil (J := J) hcarries hread
    exact ⟨sent, [], hnone [] List.suffix_rfl hparse hclosed hrest⟩
  | cons event carried =>
    have hback := h.back event List.mem_cons_self
    obtain ⟨hparse | ⟨hparse, hclosed⟩, hrest, -⟩ := Rpc.parse_of_carries hback hcarries hread
    · refine ⟨sent ++ [event], carried, ?_⟩
      rw [readFrame_of_parse hparse]
      have hmove : s.applied.map Prod.snd ++ (sent ++ [event]).drop s.next ++ carried =
          s.applied.map Prod.snd ++ sent.drop s.next ++ event :: carried := by
        rw [List.drop_append_of_le_length h.next_le, ← List.append_assoc, List.append_assoc,
          List.singleton_append]
      exact
        { holds := h.holds.send event
          next_le := by
            rw [List.length_append]
            exact h.next_le.trans (Nat.le_add_right _ _)
          carries := hrest
          back := fun e he => h.back e (List.mem_cons_of_mem _ he)
          answered := fun _ hf => by cases hf
          unanswered := fun _ => Or.inl hsub
          sublist := by
            rw [hmove]
            exact h.sublist
          whole := fun hs hl => by
            rw [hmove]
            exact h.whole hs hl }
    · exact ⟨sent, carried, hnone carried (List.suffix_cons event carried) hparse hclosed hrest⟩

/-- The line that is read is the first that was carried: the acknowledgement, or an event, which
goes into the channel. -/
theorem Way.read (h : Way J s sent carried answer) (ht : s.Told) :
    ∃ sent' carried' answer', Way J (step J s .read) sent' carried' answer' := by
  unfold step
  dsimp only
  split
  rotate_left
  · exact ⟨sent, carried, answer, h⟩
  rename_i hreading
  cases hread : s.frames.readLine newline with
  | none => exact ⟨sent, carried, answer, h⟩
  | some lp =>
    obtain ⟨line, frames⟩ := lp
    dsimp only
    split
    · rename_i hsub
      have hanswer : answer = none := Option.eq_none_iff_forall_ne_some.mpr fun id hid =>
        Bool.noConfusion (hsub.symm.trans (h.answered id hid).1)
      subst hanswer
      obtain ⟨sent', carried', hway⟩ := h.readFrame ht hsub hread
      exact ⟨sent', carried', none, hway⟩
    · rename_i hsub
      cases answer with
      | none =>
        -- no line has come: the dashboard has not been registered
        have hr : s.registered = false :=
          ((h.unanswered rfl).resolve_left hsub).resolve_left (by simp [hreading])
        obtain ⟨-, -, -, -, hopen, hcontent, -⟩ := ht.unheard hr
        rw [Pipe.readLine_of_content_nil hcontent hopen] at hread
        cases hread
      | some id =>
        have hcarries := h.carries
        obtain ⟨hparse | ⟨hparse, -⟩, hrest, -⟩ :=
          Rpc.parse_of_carries (readsBack_ack id) hcarries hread
        · refine ⟨sent, carried, none, ?_⟩
          rw [readAck_of_parse hparse]
          exact
            { holds := h.holds, next_le := h.next_le, carries := hrest, back := h.back,
              answered := fun _ hf => by cases hf
              unanswered := fun _ => Or.inl rfl
              sublist := h.sublist, whole := h.whole }
        · refine ⟨sent, carried, none, ?_⟩
          rw [readAck, hparse]
          exact
            { holds := h.holds, next_le := h.next_le, carries := hrest, back := h.back,
              answered := fun _ hf => by cases hf
              unanswered := fun _ => Or.inr (Or.inl rfl)
              sublist := h.sublist, whole := h.whole }

/-- **Whatever happens, the events are on their way in order**, as long as what is written reads
back. -/
theorem Way.step (h : Way J s sent carried answer) (ht : s.Told) {x : Happening}
    (hexact : Exact J s x) :
    ∃ sent' carried' answer', Way J (step J s x) sent' carried' answer' := by
  cases x with
  | request i => exact ⟨_, _, _, h.request i⟩
  | recv => exact ⟨_, _, _, h.recv⟩
  | broadcast => exact ⟨_, _, _, h.broadcast⟩
  | register id cut =>
    obtain ⟨answer', hway⟩ := h.register ht id cut
    exact ⟨_, _, answer', hway⟩
  | probe => exact ⟨_, _, _, h.probe⟩
  | write cut =>
    obtain ⟨carried', hway⟩ := h.write ht hexact
    exact ⟨_, carried', _, hway⟩
  | unregister => exact ⟨_, _, _, h.unregister⟩
  | arrive n => exact ⟨_, _, _, h.arrive n⟩
  | read => exact h.read ht
  | snapshot => exact ⟨_, _, _, h.snapshot⟩
  | apply now => exact ⟨_, _, _, h.apply now⟩

end Way

/-! ### The screen

The state on the screen is the snapshot with the applied events on top of it, and nothing else
changes it here. The snapshot was taken after `subscribe` had returned, so that it has what was
emitted before; what it shares with the events that follow is applied twice, and harmlessly. -/

/-- What is on the screen: a snapshot from after the dashboard subscribed, and the events that were
applied to it. -/
def Shown (s : Feed capacity) : Prop :=
  match s.screen with
  | none => s.applied = []
  | some st => s.registered = true ∧ ∃ q r snap, s.requests = q ++ r ∧ s.before ≤ q.length ∧
      Read.dispatch Method.stateSnapshot (.object []) (Machine.run Agentd.next Db.fresh q) =
        some snap ∧
      st = (TuiState.fromSnapshot snap).applyEvents s.applied

section Shown

variable {J : JsonText} {s : Feed capacity}

/-- The screen and what it has been applied are as before. -/
theorem Shown.of_eq (h : s.Shown) {t : Feed capacity} (hscreen : t.screen = s.screen)
    (happlied : t.applied = s.applied) (hrequests : ∃ r, t.requests = s.requests ++ r)
    (hregistered : s.registered = true → t.registered = true ∧ t.before = s.before) : t.Shown := by
  unfold Shown at h ⊢
  rw [hscreen, happlied]
  cases hs : s.screen with
  | none =>
    rw [hs] at h
    exact h
  | some st =>
    rw [hs] at h
    obtain ⟨hr, q, r, snap, hsplit, hle, hsnap, hst⟩ := h
    obtain ⟨r', hr'⟩ := hrequests
    obtain ⟨hr, hbefore⟩ := hregistered hr
    refine ⟨hr, q, r ++ r', snap, ?_, hbefore ▸ hle, hsnap, hst⟩
    rw [hr', hsplit, List.append_assoc]

/-- What does nothing to the screen, and handles no request. -/
theorem Shown.of_rfl (h : s.Shown) {t : Feed capacity} (hscreen : t.screen = s.screen)
    (happlied : t.applied = s.applied) (hrequests : t.requests = s.requests)
    (hregistered : t.registered = s.registered) (hbefore : t.before = s.before) : t.Shown :=
  h.of_eq hscreen happlied ⟨[], by rw [hrequests, List.append_nil]⟩ fun hr =>
    ⟨hregistered.trans hr, hbefore⟩

/-- A line that is read goes into the channel, and changes no screen. -/
theorem shown_readFrame (h : s.Shown) (line : List UInt8) (frames : Pipe UInt8) :
    (readFrame J { s with frames } line).Shown := by
  unfold readFrame
  split_ifs
  · exact h.of_rfl rfl rfl rfl rfl rfl
  · split <;> exact h.of_rfl rfl rfl rfl rfl rfl

/-- The acknowledgement comes before there is a screen. -/
theorem shown_readAck (h : s.Shown) (line : List UInt8) (frames : Pipe UInt8) :
    (readAck J { s with frames } line).Shown := by
  unfold readAck
  split
  · exact h.of_rfl rfl rfl rfl rfl rfl
  · split_ifs <;> exact h.of_rfl rfl rfl rfl rfl rfl

/-- The snapshot is that of the database at its moment, and comes when nothing has been applied. -/
theorem Shown.snapshot (h : s.Shown) (ht : s.Told) (hexact : Exact J s .snapshot) :
    (step J s .snapshot).Shown := by
  unfold step
  dsimp only
  split_ifs with hsub
  rotate_left
  · exact h
  obtain ⟨hsub, hnone⟩ := hsub
  cases hanswer : snapshotAnswer s.db with
  | none => exact h
  | some v =>
    rw [Option.bind_some, Rpc.parse_line (hexact v hanswer)]
    obtain ⟨snap, hsnap, rfl⟩ := Option.map_eq_some_iff.mp hanswer
    -- who has subscribed is registered
    have hr : s.registered = true := by
      by_contra hr
      obtain ⟨-, -, hunsub, -⟩ := ht.unheard (Bool.eq_false_iff.mpr hr)
      exact Bool.noConfusion (hsub.symm.trans hunsub)
    unfold Shown at h
    rw [Option.isNone_iff_eq_none.mp hnone] at h
    refine ⟨hr, s.requests, [], snap, (List.append_nil _).symm, ht.before_le, ?_, ?_⟩
    · rw [← ht.db]
      exact hsnap
    · rw [h]
      rfl

/-- An event is applied to what is on the screen. -/
theorem Shown.apply (h : s.Shown) (now : Instant) : (step J s (.apply now)).Shown := by
  unfold step
  dsimp only
  cases hs : s.screen with
  | none => exact h
  | some st =>
    unfold Shown at h
    rw [hs] at h
    dsimp only
    split
    · obtain ⟨hr, q, r, snap, hsplit, hle, hsnap, hst⟩ := h
      refine ⟨hr, q, r, snap, hsplit, hle, hsnap, ?_⟩
      rw [hst, TuiState.applyEvents, TuiState.applyEvents, List.foldl_concat]
    · exact h
    · unfold Shown
      rw [hs]
      exact h

/-- **Whatever happens, the screen is a snapshot and what was applied since.** -/
theorem Shown.step (h : s.Shown) (ht : s.Told) {x : Happening} (hexact : Exact J s x) :
    (step J s x).Shown := by
  cases x with
  | request i => exact h.of_eq rfl rfl ⟨[i], rfl⟩ fun hr => ⟨hr, rfl⟩
  | recv => exact h.of_rfl rfl rfl rfl rfl rfl
  | broadcast =>
    unfold Feed.step
    dsimp only
    split <;> exact h.of_rfl rfl rfl rfl rfl rfl
  | register id cut =>
    rw [Feed.step]
    split_ifs with hr
    · exact h
    · exact h.of_eq rfl rfl ⟨[], (List.append_nil _).symm⟩ fun hr' => absurd hr' hr
  | probe =>
    rw [Feed.step]
    split_ifs <;> exact h.of_rfl rfl rfl rfl rfl rfl
  | write cut =>
    unfold Feed.step
    dsimp only
    split_ifs
    · split <;> exact h.of_rfl rfl rfl rfl rfl rfl
    · exact h
  | unregister =>
    rw [Feed.step]
    split_ifs <;> exact h.of_rfl rfl rfl rfl rfl rfl
  | arrive n => exact h.of_rfl rfl rfl rfl rfl rfl
  | read =>
    unfold Feed.step
    dsimp only
    split
    · split
      · exact h
      · split
        · exact shown_readFrame h _ _
        · exact shown_readAck h _ _
    · exact h
  | snapshot => exact h.snapshot ht hexact
  | apply now => exact h.apply now

end Shown

/-! ### Whole runs

The three invariants are kept together, and the statements about the feed are read off them. -/

/-- All three. -/
structure Sound (J : JsonText) (s : Feed capacity) : Prop where
  told : s.Told
  way : ∃ sent carried answer, Way J s sent carried answer
  shown : s.Shown

section Runs

variable {J : JsonText}

/-- One happening keeps all three. -/
theorem Sound.step {s : Feed capacity} (h : Sound J s) {x : Happening} (hexact : Exact J s x) :
    Sound J (step J s x) := by
  obtain ⟨ht, ⟨sent, carried, answer, hway⟩, hshown⟩ := h
  exact ⟨ht.step x, hway.step ht hexact, hshown.step ht hexact⟩

/-- **They hold in every state of every run in which what is written reads back.** -/
theorem sound_of_along {l : List Happening}
    (hexact : Machine.Along (step J) (Exact J) (start capacity) l) :
    Sound J (Machine.run (step J) (start capacity) l) :=
  Machine.Throughout.last <| Machine.Along.throughout (fun _ _ h hx => h.step hx) l _ hexact
    ⟨told_start, ⟨[], [], none, way_start⟩, rfl⟩

/-- The requests of a run are those of its happenings, in their order. -/
theorem requests_step (s : Feed capacity) (x : Happening) :
    (step J s x).requests = s.requests ++ x.inputs := by
  cases x with
  | request i => rfl
  | read =>
    refine Eq.trans ?_ (List.append_nil _).symm
    unfold Feed.step readFrame readAck
    dsimp only
    repeat' split
    all_goals rfl
  | _ =>
    refine Eq.trans ?_ (List.append_nil _).symm
    unfold Feed.step
    dsimp only
    repeat' split
    all_goals rfl

/-- So they are in a run that goes on from some state. -/
theorem requests_run (l : List Happening) : ∀ s : Feed capacity,
    (Machine.run (step J) s l).requests = s.requests ++ l.flatMap Happening.inputs := by
  induction l with
  | nil => exact fun s => (List.append_nil _).symm
  | cons x l ih =>
    intro s
    rw [Machine.run_cons, ih, requests_step, List.append_assoc, List.flatMap_cons]

/-- What has been applied was told, and what was told was emitted. -/
theorem Sound.applied_sublist {s : Feed capacity} (h : Sound J s) :
    (s.applied.map Prod.snd).Sublist s.log := by
  obtain ⟨ht, ⟨sent, carried, answer, hway⟩, -⟩ := h
  have htold := ht.sublist.trans ((List.sublist_append_left _ _).trans ht.follows.sublist)
  refine List.Sublist.trans ?_ (hway.sublist.trans htold)
  rw [List.append_assoc, List.append_assoc]
  exact List.sublist_append_left _ _

/-- **What is applied was emitted, in the same order, and nothing twice.** -/
theorem ordered_run (l : List Happening)
    (hexact : Machine.Along (step J) (Exact J) (start capacity) l) :
    ((Machine.run (step J) (start capacity) l).applied.map Prod.snd).Sublist
      (Machine.run (step J) (start capacity) l).log :=
  (sound_of_along hexact).applied_sublist

/-- A session is discovered before a dashboard subscribes, and renamed before the dashboard takes
its snapshot; the event about the name comes after that. -/
def watched : List Happening :=
  let id := Uuid.ofTimeLow 1
  let amb := Ambient.noon id 2026
  [.request ⟨.discover "opencode" "main" "%1" "/home/u/proj", amb⟩, .recv, .broadcast,
    .register 0 none, .probe, .arrive 9, .read, .arrive 100, .read,
    .request ⟨.rename id "first", amb⟩, .recv, .snapshot, .broadcast, .write none, .arrive 1000,
    .read, .apply 0]

/-- All that is written in this run is plain. -/
theorem exact_watched :
    Machine.Along (step .compact) (Exact .compact) (start 1024) watched := by
  have hcheck : Machine.Along (step .compact) (fun s x => s.isExact x = true) (start 1024)
      watched := by decide +kernel
  exact hcheck.mono (fun _ _ => exact_of_isExact .compact) _ _

/-- One of two events is applied: the other was emitted before there was a subscriber. -/
theorem ordered_run_watched :
    ((Machine.run (step .compact) (start 1024) watched).applied.map Prod.snd).Sublist
      (Machine.run (step .compact) (start 1024) watched).log :=
  ordered_run watched exact_watched

/-- Nothing is on the way any more. -/
def Quiet (s : Feed capacity) : Prop :=
  s.bus.held = none ∧ s.bus.next = s.bus.ring.tail ∧ s.queue = [] ∧ s.frames.content = [] ∧
    s.next = s.ring.tail

/-- Then all that has been emitted since some moment before the dashboard was registered has been
applied. -/
theorem Sound.applied_of_quiet {s : Feed capacity} (h : Sound J s) (hquiet : s.Quiet)
    (hstreaming : s.streaming = true) (hlagged : s.lagged = false) :
    ∃ l₀ l₁, s.requests = l₀ ++ l₁ ∧ l₀.length ≤ s.before ∧
      s.applied.map Prod.snd = emitted (Machine.run Agentd.next Db.fresh l₀) l₁ := by
  obtain ⟨ht, ⟨sent, carried, answer, hway⟩, -⟩ := h
  obtain ⟨hheld, hnext, hqueue, hcontent, hread⟩ := hquiet
  obtain ⟨l₀, l₁, hsplit, hle, hevents⟩ := ht.since hstreaming hlagged
  refine ⟨l₀, l₁, hsplit, hle, ?_⟩
  have hunread : s.bus.unread s.log = [] := by
    rw [Forwarder.unread, hheld, hnext, ht.follows.holds.tail, List.drop_length]
    rfl
  have hsent : sent.drop s.next = [] := by
    rw [hread, hway.holds.tail, List.drop_length]
  have hcarried : carried = [] := by
    have htext := hway.carries.whole (ht.connected hstreaming).2
    rw [hcontent, eq_comm, Pipe.text_eq_nil, List.map_eq_nil_iff, List.append_eq_nil_iff,
      List.map_eq_nil_iff] at htext
    exact List.map_eq_nil_iff.mp htext.2
  have hwhole := hway.whole hstreaming hlagged
  rw [hsent, hcarried, hqueue, List.append_nil, List.append_nil, List.append_nil] at hwhole
  rw [hevents, hunread, List.append_nil, hwhole]

/-- Once nothing is on the way, what is live on the screen is what is live in the database. -/
theorem Sound.liveViews_of_quiet {s : Feed capacity} (h : Sound J s) {st : TuiState}
    (hscreen : s.screen = some st) (hstreaming : s.streaming = true) (hlagged : s.lagged = false)
    (hquiet : s.Quiet)
    (hlive : Machine.Along Agentd.next (fun db i => ¬ChangesFinished db i) Db.fresh s.requests) :
    st.liveViews = s.db.liveViews := by
  obtain ⟨l₀, l₁, hsplit, hle, hevents⟩ := h.applied_of_quiet hquiet hstreaming hlagged
  obtain ⟨ht, -, hshown⟩ := h
  unfold Shown at hshown
  rw [hscreen] at hshown
  obtain ⟨-, q, r, snap, hq, hbefore, hsnap, rfl⟩ := hshown
  -- the snapshot is from after the moment since which the events are applied
  obtain ⟨q', rfl⟩ : l₀ <+: q := List.prefix_of_prefix_length_le ⟨l₁, hsplit.symm⟩ ⟨r, hq.symm⟩
    (hle.trans hbefore)
  have hl₁ : l₁ = q' ++ r := by
    rw [hsplit, List.append_assoc] at hq
    exact List.append_cancel_left hq
  have hcanonical (l : List Input) : (Machine.run Agentd.next Db.fresh l).CanonicalIds :=
    canonicalIds_of_reachable (Machine.reachable_run _ l)
  have hnodup := idsNodup_fromSnapshot hsnap (hcanonical _)
  rw [ht.db]
  refine (liveViews_eq_iff (TuiState.idsNodup_applyEvents s.applied hnodup)
    (hcanonical _)).mpr fun id => ?_
  rw [hsplit] at hlive
  have hfit := fitting_emitted id l₁ <|
    ((Machine.along_append l₀ l₁ _).mp hlive).2.mono (fun _ _ hnot hrevives =>
      hnot (changesFinished_of_revives hrevives)) _ _
  rw [TuiState.cell_applyEvents, hevents, cell_fromSnapshot hsnap (hcanonical _), hsplit, hl₁,
    Machine.run_append, Machine.run_append]
  generalize Machine.run Agentd.next Db.fresh l₀ = db₀ at hfit ⊢
  rw [hl₁, emitted_append, editsOf_append] at hfit
  rw [cell_run, cell_run, emitted_append, editsOf_append]
  exact live_replay hfit

/-- How many events `run_subscribe` may take yet before it looks at the connection again. -/
def due (s : Feed capacity) : ℕ :=
  if s.streaming ∧ s.probed then 1 else 0

/-- Nothing is due when the subscription has ended, or the loop is about to look. -/
theorem due_eq_zero {s : Feed capacity} (h : s.streaming = false ∨ s.probed = false) :
    s.due = 0 :=
  if_neg fun hdue => h.elim (fun hs => Bool.noConfusion (hs.symm.trans hdue.1))
    fun hp => Bool.noConfusion (hp.symm.trans hdue.2)

/-- What is in the queue is the end of what the subscriber has been told. -/
theorem queue_suffix_step {s : Feed capacity} (h : s.queue <:+ s.told) (x : Happening) :
    (step J s x).queue <:+ (step J s x).told := by
  cases x with
  | broadcast =>
    unfold Feed.step
    dsimp only
    split
    · exact h
    · obtain ⟨past, hpast⟩ := h
      refine ⟨past, ?_⟩
      dsimp only
      rw [← hpast, List.append_assoc]
  | write cut =>
    unfold Feed.step
    dsimp only
    split_ifs
    · split
      · exact h
      · rename_i event queue hqueue
        exact (List.suffix_cons event queue).trans (hqueue ▸ h)
    · exact h
  | read =>
    unfold Feed.step readFrame readAck
    dsimp only
    repeat' split
    all_goals exact h
  | _ =>
    unfold Feed.step
    dsimp only
    repeat' split
    all_goals exact h

/-- The client is gone, and had been sent all of this; no more than so many events follow. -/
structure Late (past : List Event) (n : ℕ) (s : Feed capacity) : Prop where
  shut : s.shut = true
  taken : ∃ late, s.told = past ++ late ++ s.queue ∧ late.length + s.due ≤ n

/-- What takes no event from the queue, and does not look at the connection. -/
theorem Late.of_eq {past : List Event} {n : ℕ} {s : Feed capacity} (h : Late past n s)
    {t : Feed capacity} (hshut : t.shut = true) (htold : ∃ new, t.told = s.told ++ new ∧
      t.queue = s.queue ++ new) (hdue : t.due ≤ s.due) : Late past n t := by
  obtain ⟨late, hsplit, hle⟩ := h.taken
  obtain ⟨new, htold, hqueue⟩ := htold
  refine ⟨hshut, late, ?_, (Nat.add_le_add_left hdue _).trans hle⟩
  rw [htold, hqueue, hsplit, List.append_assoc _ s.queue]

/-- An event is written only when it is due, and then it is due no more. -/
theorem Late.write {past : List Event} {n : ℕ} {s : Feed capacity} (h : Late past n s)
    (cut : Option ℕ) : Late past n (Feed.step J s (.write cut)) := by
  obtain ⟨late, hsplit, hle⟩ := h.taken
  unfold Feed.step
  dsimp only
  split_ifs with hprobed
  · split
    · refine ⟨h.shut, late, hsplit, ?_⟩
      rw [due_eq_zero (Or.inr rfl)]
      exact (Nat.le_add_right _ _).trans hle
    · rename_i event queue hqueue
      refine ⟨h.shut, late ++ [event], ?_, ?_⟩
      · dsimp only
        rw [hsplit, hqueue, ← List.append_assoc, List.append_cons]
      · rw [due, if_pos hprobed] at hle
        rw [due_eq_zero (Or.inr rfl), List.length_append]
        exact hle
  · exact h

/-- **One event more at most**: to look at the connection again is to find its end. -/
theorem Late.step {past : List Event} {n : ℕ} {s : Feed capacity} (h : Late past n s)
    (x : Happening) : Late past n (Feed.step J s x) := by
  have hsame : ∃ new, s.told = s.told ++ new ∧ s.queue = s.queue ++ new :=
    ⟨[], (List.append_nil _).symm, (List.append_nil _).symm⟩
  have hzero (t : Feed capacity) (ht : t.streaming = false ∨ t.probed = false) : t.due ≤ s.due :=
    due_eq_zero ht ▸ Nat.zero_le _
  cases x with
  | write cut => exact h.write cut
  | broadcast =>
    unfold Feed.step
    dsimp only
    split
    · exact h
    · exact h.of_eq h.shut ⟨_, rfl, rfl⟩ le_rfl
  | register id cut =>
    unfold Feed.step
    dsimp only
    split
    · exact h
    · exact h.of_eq h.shut hsame (hzero _ (Or.inr rfl))
  | probe =>
    unfold Feed.step
    dsimp only
    split_ifs with hlook hshut
    · exact h.of_eq h.shut hsame (hzero _ (Or.inl rfl))
    · exact absurd h.shut hshut
    · exact h
  | unregister =>
    unfold Feed.step
    dsimp only
    split
    · exact h.of_eq h.shut hsame (hzero _ (Or.inl rfl))
    · exact h
  | read =>
    unfold Feed.step readFrame readAck
    dsimp only
    repeat' split
    all_goals first | exact h | exact h.of_eq h.shut hsame le_rfl | exact h.of_eq rfl hsame le_rfl
  | _ =>
    unfold Feed.step
    dsimp only
    repeat' split
    all_goals first | exact h | exact h.of_eq h.shut hsame le_rfl

/-- `run_subscribe` has ended. -/
def Ended (s : Feed capacity) : Prop :=
  s.registered = true ∧ s.streaming = false

/-- A subscription that has ended does not begin again, since there is one registration for a
connection. -/
theorem Ended.step {s : Feed capacity} (h : s.Ended) (x : Happening) : (step J s x).Ended := by
  cases x with
  | register id cut =>
    rw [Feed.step, if_pos h.1]
    exact h
  | write cut =>
    rw [Feed.step, if_neg fun hs => Bool.noConfusion (h.2.symm.trans hs.1)]
    exact h
  | unregister =>
    rw [Feed.step, if_neg fun hs => Bool.noConfusion (h.2.symm.trans hs)]
    exact h
  | read =>
    unfold Feed.step readFrame readAck
    dsimp only
    repeat' split
    all_goals exact h
  | _ =>
    unfold Feed.step
    dsimp only
    repeat' split
    all_goals first | exact h | exact ⟨h.1, rfl⟩

/-- The look at the connection that comes next finds its end. -/
theorem ended_probe {s : Feed capacity} (hregistered : s.registered = true)
    (hshut : s.shut = true) (hdue : s.due = 0) : (step J s .probe).Ended := by
  by_cases hs : s.streaming = true
  · have hprobed : ¬s.probed := fun hp => by
      rw [due, if_pos ⟨hs, hp⟩] at hdue
      cases hdue
    rw [Feed.step, if_pos ⟨hs, hprobed⟩, if_pos hshut]
    exact ⟨hregistered, rfl⟩
  · exact Ended.step ⟨hregistered, Bool.eq_false_iff.mpr hs⟩ _

/-- Nor is it forgotten. -/
theorem registered_step {s : Feed capacity} (h : s.registered = true) (x : Happening) :
    (step J s x).registered = true := by
  cases x with
  | read =>
    unfold Feed.step readFrame readAck
    dsimp only
    repeat' split
    all_goals exact h
  | _ =>
    unfold Feed.step
    dsimp only
    repeat' split
    all_goals exact h

/-- The first look of a run ends it. -/
theorem ended_run {past : List Event} (l : List Happening) : ∀ {s : Feed capacity},
    s.registered = true → Late past 0 s → .probe ∈ l → (Machine.run (step J) s l).Ended := by
  induction l with
  | nil => exact fun _ _ hmem => absurd hmem List.not_mem_nil
  | cons x l ih =>
    intro s hregistered hlate hmem
    rcases List.mem_cons.mp hmem with rfl | hmem
    · obtain ⟨late, -, hdue⟩ := hlate.taken
      exact Machine.run_invariant (P := Ended) (fun _ x h => h.step x) l _
        (ended_probe hregistered hlate.shut (by omega))
    · exact ih (registered_step hregistered x) (hlate.step x) hmem

/-- **The events come to an end when `subscribe` returns.** One more at most is taken from the
queue, and none if `run_subscribe` has not just looked at the connection; the look at it that comes
next ends the subscription. -/
theorem late_run {l₁ l₂ : List Happening}
    (hexact : Machine.Along (step J) (Exact J) (start capacity) (l₁ ++ l₂)) {s t : Feed capacity}
    (hs : Machine.run (step J) (start capacity) l₁ = s) (ht : Machine.run (step J) s l₂ = t)
    (hshut : s.shut = true) :
    (∃ past late, s.told = past ++ s.queue ∧ late.length ≤ s.due ∧
      (t.applied.map Prod.snd).Sublist (past ++ late)) ∧
    (s.due = 0 → .probe ∈ l₂ → t.streaming = false) := by
  have hsuffix : s.queue <:+ s.told := hs ▸ Machine.run_invariant
    (P := fun s : Feed capacity => s.queue <:+ s.told) (fun _ x h => queue_suffix_step h x) l₁ _
    List.suffix_rfl
  obtain ⟨past, hpast⟩ := hsuffix
  have hlate : Late past s.due s := ⟨hshut, [], by rw [List.append_nil, hpast], by simp⟩
  have hsound : Sound J s := hs ▸ sound_of_along ((Machine.along_append l₁ l₂ _).mp hexact).1
  have hregistered : s.registered = true := by
    by_contra hr
    obtain ⟨-, -, -, -, -, -, hopen⟩ := hsound.told.unheard (Bool.eq_false_iff.mpr hr)
    exact Bool.noConfusion (hopen.symm.trans hshut)
  constructor
  · have hrun : Late past s.due t := ht ▸ Machine.run_invariant (P := Late past s.due)
      (fun _ x h => h.step x) l₂ s hlate
    obtain ⟨late, hsplit, hle⟩ := hrun.taken
    refine ⟨past, late, hpast.symm, (Nat.le_add_right _ _).trans hle, ?_⟩
    have hsound : Sound J t := by
      rw [← ht, ← hs, ← Machine.run_append]
      exact sound_of_along hexact
    obtain ⟨sent, carried, answer, hway⟩ := hsound.way
    have hall := hway.sublist
    rw [hsplit, List.append_sublist_append_right, List.append_assoc] at hall
    exact (List.sublist_append_left _ _).trans hall
  · intro hdue hprobe
    exact (ht ▸ ended_run l₂ hregistered (hdue ▸ hlate) hprobe : t.Ended).2

/-- The session is renamed once more, after the dashboard has been told of its first name. -/
def renamedLater : List Happening :=
  [.probe, .request ⟨.rename (.ofTimeLow 1) "second", .noon (.ofTimeLow 1) 2026⟩, .recv, .broadcast,
    .probe, .write none, .arrive 1000, .read, .apply 0]

/-- Of that the dashboard is told nothing. -/
theorem late_run_renamedLater :
    let s := Machine.run (step .compact) (start 1024) watched
    let t := Machine.run (step .compact) s renamedLater
    (∃ past late, s.told = past ++ s.queue ∧ late.length ≤ 0 ∧
      (t.applied.map Prod.snd).Sublist (past ++ late)) ∧ t.streaming = false := by
  have hcheck : Machine.Along (step .compact) (fun s x => s.isExact x = true) (start 1024)
      (watched ++ renamedLater) := by decide +kernel
  have hexact := hcheck.mono (fun _ _ => exact_of_isExact .compact) _ _
  have hstate : (Machine.run (step .compact) (start 1024) watched).shut = true ∧
      (Machine.run (step .compact) (start 1024) watched).due = 0 := by decide +kernel
  obtain ⟨hshut, hdue⟩ := hstate
  obtain ⟨htaken, hended⟩ := late_run hexact rfl rfl hshut
  rw [hdue] at htaken
  exact ⟨htaken, hended hdue List.mem_cons_self⟩

end Runs

end Feed

end Agentd
