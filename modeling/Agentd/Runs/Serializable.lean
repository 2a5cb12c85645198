import Agentd.Runs.Effects

/-!
# Requests on one session at the same time

`session.dismiss_error`, `session.kill` and `session.report_event` decide on a read and
write later, by an `UPDATE` that names the session and nothing else. What another handler
does in between goes unnoticed: an error is dismissed that is none any more, and a session is
killed twice.

`Agentd.serializable` says what it takes for this not to matter: that a request which writes
would still pass its check, and that the row it reads back is readable as it left
it (`Agentd.Undisturbed`). Then the requests could have been handled one after
the other, in the order of the updates – and of the reads of those that change nothing.
-/

namespace Agentd

open Json Rfc3339
open Plugin (Report)
open Transaction

/-- Requests at work on one database. -/
abbrev Requests (ι : Type*) :=
  Program.Pool ι Statement Db (Except ProtocolError Value)

section Statements

variable {ι : Type*} (id : Uuid) (reqs : ι → Input)

/-- Nobody got in the way of the next statement of a request: what it is about to write to
would still pass its check, and what it is about to read back is readable as it left it. -/
def Undisturbed (s : Requests ι) (p : ι) : Prop :=
  ∀ row, s.store.row? id = some row →
    ((s.program p).label? = some .update → (reqs p).Passes row) ∧
    ((s.program p).label? = some .readBack → (row.Decodes ↔ (reqs p).amb.rowNow.FourDigitYear))

/-- A request leaves a finished session finished. -/
def KeepsItFinished (row? : Option SessionRow) (p : ι) : Prop :=
  ∀ row, row? = some row → row.status = "finished" → ((reqs p).rowAfter row).status = "finished"

/-- The next statement of a request is no update that takes a finished session out
of `finished`. -/
def Unrevived (s : Requests ι) (p : ι) : Prop :=
  (s.program p).label? = some .update → KeepsItFinished reqs (s.store.row? id) p

/-- The requests of `order`, handled one after the other, make of the session what it is in
`s`, and answer as the requests did that have come to their end. -/
structure SerializedBy (db₀ : Db) (s : Requests ι) (order : List ι) : Prop where
  nodup : order.Nodup
  complete : ∀ {p r}, s.program p = .done r → p ∈ order
  row : s.store.row? id = (Machine.run next db₀ (order.map reqs)).row? id
  answer : ∀ {l₁ p l₂ r}, order = l₁ ++ p :: l₂ → s.program p = .done r →
    (Refused r ↔ (handle (Machine.run next db₀ (l₁.map reqs)) (reqs p)).IsError)

/-- The next statement of a request is no update by which a dismissal overwrites anything
but an error. -/
def OverwritesErrorsOnly (s : Requests ι) (p : ι) : Prop :=
  ∀ params, (reqs p).request = .control Method.sessionDismissError params →
    (s.program p).label? = some .update →
      ∀ row, s.store.row? id = some row → row.status = SessionStatus.errored.toText

/-- No two kills were answered with success. -/
def KilledOnce (s : Requests ι) : Prop :=
  ∀ p q params params' r r', (reqs p).request = .control Method.sessionKill params →
    (reqs q).request = .control Method.sessionKill params' →
      s.program p = .done r → s.program q = .done r' → ¬Refused r → ¬Refused r' → p = q

end Statements

section Pool

variable {ι : Type*} {id : Uuid} {reqs : ι → Input} {tx : ι → Transaction}
  (htx : ∀ p, (reqs p).transaction? = some (tx p)) (ht : ∀ p, (reqs p).target? = some id)
include htx

/-- Serial transactions are handled requests. -/
theorem serial_eq_run (db₀ : Db) (order : List ι) :
    Program.serial tx db₀ order = Machine.run next db₀ (order.map reqs) := by
  induction order generalizing db₀ with
  | nil => rfl
  | cons p order ih =>
    have hstep : ((tx p).run db₀).2 = next db₀ (reqs p) := by
      rw [run_transaction (htx p)]
      rfl
    rw [List.map_cons, Machine.run_cons, ← ih, ← hstep]
    rfl

include ht

/-- **The requests take effect at their updates**, and at their reads when there is nothing
to change. -/
theorem linearizes {C : Requests ι → ι → Prop} (hC : ∀ s p, C s p → Undisturbed id reqs s p)
    {Q : Option SessionRow → ι → Prop}
    (hQ : ∀ s p, C s p → (s.program p).label? = some .update → Q (s.store.row? id) p)
    (hidle : ∀ row? p, (∀ row, row? = some row → (reqs p).act row = none) → Q row? p)
    (stored : Prop) :
    Program.Linearizes tx (·.row? id) Refused C Q
      (fun db => (∃ row, db.row? id = some row) ↔ stored)
      (fun p => Pending (reqs p) id stored) (fun p => Settled (reqs p) id stored) where
  obs_run p s t hst := by
    rw [row?_run_transaction (htx p) (ht p), row?_run_transaction (htx p) (ht p), hst]
  view_run p s t hst := by
    rw [refused_run_transaction (htx p) (ht p), refused_run_transaction (htx p) (ht p), hst]
  start p := .start (htx p)
  not_before_done p r h := h.ne_done (ht p) r rfl
  view_of_after h := propext (h.refused_iff rfl)
  before {s p label write next} hc hinv hp hpending := by
    have hcalm : label = .update → ∀ row, s.store.row? id = some row → (reqs p).Passes row :=
      fun hlabel row hrow => (hC s p hc row hrow).1 (by rw [hp, ← hlabel]; rfl)
    rcases Pending.step (htx p) (ht p) hpending hinv hcalm with ⟨hrow, hpending⟩ |
      ⟨hrow, hsettled, heffect⟩
    · exact ⟨by rwa [hrow], Or.inl ⟨hrow, hpending⟩⟩
    · refine ⟨?_, Or.inr ⟨hrow, hsettled, ?_⟩⟩
      · rw [hrow, row?_run_transaction (htx p) (ht p), ← hinv]
        simp only [Option.map_eq_some_iff, exists_comm, exists_and_left, exists_eq', and_true]
      · rcases heffect with hlabel | hnone
        · exact hQ s p hc (by rw [hp, ← hlabel]; rfl)
        · exact hidle _ p hnone
  after {s p refused label write next} hc hinv hp hsettled := by
    have hcalm : label = .readBack → ∀ row, s.store.row? id = some row →
        (row.Decodes ↔ (reqs p).amb.rowNow.FourDigitYear) :=
      fun hlabel row hrow => (hC s p hc row hrow).2 (by rw [hp, ← hlabel]; rfl)
    obtain ⟨hrow, hsettled⟩ := hsettled.step hinv hcalm
    exact ⟨by rwa [hrow], hrow, hsettled⟩

/-! ### Orders

The order in which requests took effect is read as one in which they were handled one after the
other. Their answers are compared as refusals and answers only, since what is answered is a row that
others may have changed by then; the row in the end is compared in full. -/

section Order

variable {db₀ : Db} {s : Requests ι} {order : List ι} {stored : Prop} {Inv : Db → Prop}

/-- An order in which requests took effect is one in which they could have been handled. -/
theorem serializedBy_of_ordered {Q : Option SessionRow → ι → Prop}
    (h : Program.Ordered tx (·.row? id) Refused Q Inv (fun p => Pending (reqs p) id stored)
      (fun p => Settled (reqs p) id stored) db₀ s order) : SerializedBy id reqs db₀ s order where
  nodup := h.nodup
  complete {p r} hp := by
    by_contra hmem
    exact (h.before p hmem).ne_done (ht p) r hp
  row := by
    rw [h.obs_eq, serial_eq_run htx]
  answer {l₁ p l₂ r} heq hp := by
    rw [(h.after l₁ p l₂ heq).1.refused_iff hp, serial_eq_run htx, run_transaction (htx p)]
    rfl

/-- What is finished at some point of the order stays so. -/
theorem finished_serial (l₃ : List ι)
    (hQ : ∀ l₁ p l₂, order = l₁ ++ p :: l₂ →
      KeepsItFinished reqs ((Program.serial tx db₀ l₁).row? id) p) (l₂ : List ι) :
    ∀ l₁ row, order = l₁ ++ l₂ ++ l₃ → (Program.serial tx db₀ l₁).row? id = some row →
      row.status = "finished" →
      ∃ row', (Program.serial tx db₀ (l₁ ++ l₂)).row? id = some row' ∧
        row'.status = "finished" := by
  induction l₂ with
  | nil =>
    intro l₁ row _ hrow hstatus
    exact ⟨row, by rwa [List.append_nil], hstatus⟩
  | cons p l₂ ih =>
    intro l₁ row heq hrow hstatus
    rw [List.append_cons]
    refine ih (l₁ ++ [p]) ((reqs p).rowAfter row) ?_ ?_ ?_
    · rw [heq, List.append_cons]
    · rw [Program.serial_concat, row?_run_transaction (htx p) (ht p), hrow, Option.map_some]
    · exact hQ l₁ p (l₂ ++ l₃) (by rw [heq, List.append_assoc, List.cons_append]) row hrow hstatus

/-- Of two kills in an order that leaves finished sessions finished the second is refused. -/
theorem refused_second_kill {l₁ l₂ l₃ : List ι} {p q : ι}
    (hQ : ∀ m₁ r m₂, l₁ ++ p :: l₂ ++ q :: l₃ = m₁ ++ r :: m₂ →
      KeepsItFinished reqs ((Program.serial tx db₀ m₁).row? id) r) {params params' : Value}
    (hp : (reqs p).request = .control Method.sessionKill params)
    (hq : (reqs q).request = .control Method.sessionKill params')
    (hfirst : ¬Refused ((tx p).run (Program.serial tx db₀ l₁)).1) :
    Refused ((tx q).run (Program.serial tx db₀ (l₁ ++ p :: l₂))).1 := by
  rw [refused_run_transaction (htx p) (ht p), not_not] at hfirst
  obtain ⟨row, hrow, hpass, -⟩ := hfirst
  have hkilled : (Program.serial tx db₀ (l₁ ++ [p])).row? id = some ((reqs p).rowAfter row) := by
    rw [Program.serial_concat, row?_run_transaction (htx p) (ht p), hrow, Option.map_some]
  have hstatus : ((reqs p).rowAfter row).status = "finished" := by
    rw [Input.rowAfter, hpass.act_kill hp]
    rfl
  obtain ⟨row', hrow', hstatus'⟩ := finished_serial htx ht (q :: l₃) hQ l₂ (l₁ ++ [p]) _
    (by rw [← List.append_cons]) hkilled hstatus
  rw [← List.append_cons] at hrow'
  rw [refused_run_transaction (htx q) (ht q)]
  rintro ⟨found, hfound, hagain, -⟩
  rw [hrow', Option.some.injEq] at hfound
  exact Input.not_passes_of_finished hq hstatus' (hfound ▸ hagain)

/-- In an order that leaves finished sessions finished one kill succeeds at most. -/
theorem killedOnce_of_ordered
    (h : Program.Ordered tx (·.row? id) Refused (KeepsItFinished reqs) Inv
      (fun p => Pending (reqs p) id stored) (fun p => Settled (reqs p) id stored) db₀ s order) :
    KilledOnce reqs s := by
  intro p q params params' r r' hp hq hdone hdone' hr hr'
  by_contra hne
  have hmem {p r} (hdone : s.program p = .done r) : p ∈ order := by
    by_contra hmem
    exact (h.before p hmem).ne_done (ht p) r hdone
  have hQ (m₁ : List ι) (r : ι) (m₂ : List ι) (heq : order = m₁ ++ r :: m₂) :=
    (h.after m₁ r m₂ heq).2
  have haccepted {p r l₁ l₂} (hdone : s.program p = .done r) (hr : ¬Refused r)
      (heq : order = l₁ ++ p :: l₂) : ¬Refused ((tx p).run (Program.serial tx db₀ l₁)).1 := by
    rwa [← (h.after l₁ p l₂ heq).1.refused_iff hdone]
  obtain ⟨l₁, l₂, heq⟩ := List.append_of_mem (hmem hdone)
  have hmem' := hmem hdone'
  rw [heq, List.mem_append, List.mem_cons] at hmem'
  rcases hmem' with hfirst | hsame | hsecond
  · obtain ⟨m₁, m₂, rfl⟩ := List.append_of_mem hfirst
    have hrefused := refused_second_kill htx ht (heq ▸ hQ) hq hp
      (haccepted hdone' hr' (heq.trans (by rw [List.append_assoc, List.cons_append])))
    exact haccepted hdone hr heq hrefused
  · exact hne hsame.symm
  · obtain ⟨m₁, m₂, rfl⟩ := List.append_of_mem hsecond
    have heq' : order = l₁ ++ p :: m₁ ++ q :: m₂ := by
      rw [heq, List.append_assoc, List.cons_append]
    exact haccepted hdone' hr' heq' (refused_second_kill htx ht (heq' ▸ hQ) hp hq
      (haccepted hdone hr heq))

end Order

variable [DecidableEq ι]

/-- **Requests that are not disturbed are serializable**: they could have been handled one
after the other. Then only errors are dismissed; and a session is killed at most once, if no
report revives it. -/
theorem serializable {db₀ : Db} {l : List ι}
    (hl : Machine.Along Program.Pool.step (Undisturbed id reqs) ⟨db₀, tx⟩ l) :
    (∃ order, SerializedBy id reqs db₀ (Machine.run Program.Pool.step ⟨db₀, tx⟩ l) order) ∧
      Machine.Along Program.Pool.step (OverwritesErrorsOnly id reqs) ⟨db₀, tx⟩ l ∧
      (Machine.Along Program.Pool.step (Unrevived id reqs) ⟨db₀, tx⟩ l →
        KilledOnce reqs (Machine.run Program.Pool.step ⟨db₀, tx⟩ l)) := by
  have hstored : (∃ row, db₀.row? id = some row) ↔ ∃ row, db₀.row? id = some row := Iff.rfl
  refine ⟨?_, ?_, fun hunrevived => ?_⟩
  · have L := linearizes htx ht (fun _ _ h => h) (Q := fun _ _ => True) (fun _ _ _ _ => trivial)
      (fun _ _ _ => trivial) (∃ row, db₀.row? id = some row)
    obtain ⟨order, horder⟩ := L.exists_order (L.ordered_start hstored) hl
    exact ⟨order, serializedBy_of_ordered htx ht horder⟩
  · refine Machine.Along.mono (fun s p h => ?_) l _ hl
    intro params hreq hlabel row hrow
    exact ((h row hrow).1 hlabel).status_of_dismissal hreq
  · have hidle (row? : Option SessionRow) (p : ι)
        (hnone : ∀ row, row? = some row → (reqs p).act row = none) :
        KeepsItFinished reqs row? p := by
      intro row hrow hstatus
      rwa [Input.rowAfter, hnone row hrow]
    have L := linearizes htx ht (C := fun s p => Undisturbed id reqs s p ∧ Unrevived id reqs s p)
      (fun _ _ h => h.1) (fun _ _ h => h.2) hidle (∃ row, db₀.row? id = some row)
    obtain ⟨order, horder⟩ := L.exists_order (L.ordered_start hstored)
      (Machine.along_and.mpr ⟨hl, hunrevived⟩)
    exact killedOnce_of_ordered htx ht horder

end Pool

/-! ### Two kills

Both read the session while it lives, and neither looks again. The second update finds a finished
row and writes to it all the same, and both clients are told that their kill succeeded. -/

/-- A client kills a session. -/
def Request.kill (id : Uuid) : Request :=
  .control Method.sessionKill (.object [("id", .string id.toText)])

/-- A database with one session. -/
def oneSession : Db :=
  Machine.run next Db.fresh
    [⟨.discover "opencode" "main" "%1" "/home/u/proj", .noon (.ofTimeLow 1) 2026⟩]

/-- Each of two clients kills it. -/
def killing (_ : Bool) : Input :=
  ⟨.kill (.ofTimeLow 1), .noon (.ofTimeLow 2) 2026⟩

/-- The statements of both. -/
def killingStatements (_ : Bool) : Transaction :=
  .sessionKill (.object [("id", .string (Uuid.ofTimeLow 1).toText)]) (.noon (.ofTimeLow 2) 2026)

set_option maxRecDepth 4000 in
theorem killing_spec (p : Bool) :
    (killing p).transaction? = some (killingStatements p) ∧
      (killing p).target? = some (.ofTimeLow 1) :=
  ⟨rfl, rfl⟩

/-- The parameters of a report about a task. -/
def taskParams : Value :=
  .object [("payload", .object [("task", .string "tests")]),
    ("session_id", .string (Uuid.ofTimeLow 1).toText), ("type", .string "session.task_changed")]

/-- A client kills the session, and its plugin reports a task. -/
def killAndReport : Bool → Input
  | false => killing false
  | true => ⟨.plugin "opencode" Method.sessionReportEvent taskParams, .noon (.ofTimeLow 3) 2026⟩

/-- The statements of both. -/
def killAndReportStatements : Bool → Transaction
  | false => killingStatements false
  | true => .sessionReportEvent taskParams "opencode" (.noon (.ofTimeLow 3) 2026)

set_option maxRecDepth 4000 in
theorem killAndReport_spec (p : Bool) :
    (killAndReport p).transaction? = some (killAndReportStatements p) ∧
      (killAndReport p).target? = some (.ofTimeLow 1) := by
  cases p <;> exact ⟨rfl, rfl⟩

set_option maxRecDepth 4000 in
/-- The whole report comes between the read of the kill and its update. -/
theorem serializable_killAndReport :
    (∃ order, SerializedBy (.ofTimeLow 1) killAndReport oneSession
      (Machine.run Program.Pool.step ⟨oneSession, killAndReportStatements⟩
        [false, true, true, true, false, false]) order) ∧
    KilledOnce killAndReport
      (Machine.run Program.Pool.step ⟨oneSession, killAndReportStatements⟩
        [false, true, true, true, false, false]) := by
  have hl : Machine.Along Program.Pool.step (Undisturbed (.ofTimeLow 1) killAndReport)
      ⟨oneSession, killAndReportStatements⟩ [false, true, true, true, false, false] := by
    refine ⟨?_, ?_, ?_, ?_, ?_, ?_, trivial⟩ <;> intro row hrow <;>
      obtain rfl := Option.some.inj hrow
    · exact ⟨fun h => absurd h (by decide), fun h => absurd h (by decide)⟩
    · exact ⟨fun h => absurd h (by decide), fun h => absurd h (by decide)⟩
    · exact ⟨fun h => absurd h (by decide), fun h => absurd h (by decide)⟩
    · exact ⟨fun _ => (Input.passes_iff rfl).mpr fun _ _ _ => rfl, fun h => absurd h (by decide)⟩
    · exact ⟨fun _ => (Input.passes_kill_iff rfl rfl).mpr (by decide), fun h => absurd h (by decide)⟩
    · refine ⟨fun h => absurd h (by decide), fun _ => iff_of_true ?_ (by decide)⟩
      exact exists_rowToSession_iff.mp ⟨_, rfl⟩
  have hunrevived : Machine.Along Program.Pool.step (Unrevived (.ofTimeLow 1) killAndReport)
      ⟨oneSession, killAndReportStatements⟩ [false, true, true, true, false, false] := by
    refine ⟨?_, ?_, ?_, ?_, ?_, ?_, trivial⟩ <;> intro hlabel row hrow <;>
      obtain rfl := Option.some.inj hrow <;> intro hstatus <;> revert hlabel hstatus <;> decide
  obtain ⟨horder, -, honce⟩ := serializable (fun p => (killAndReport_spec p).1)
    (fun p => (killAndReport_spec p).2) hl
  exact ⟨horder, honce hunrevived⟩

/-- Both read the session before either has written. -/
def interleaved : Requests Bool :=
  Machine.run Program.Pool.step ⟨oneSession, killingStatements⟩
    [false, true, false, true, false, true]

set_option maxRecDepth 4000 in
/-- Both are answered with success. -/
theorem interleaved_done (p : Bool) : ∃ v, interleaved.program p = .done (.ok v) := by
  cases p with
  | false => exact ⟨_, rfl⟩
  | true => exact ⟨_, rfl⟩

/-- So the session is killed twice. -/
example : ¬KilledOnce killing interleaved := by
  intro h
  obtain ⟨v, hv⟩ := interleaved_done false
  obtain ⟨w, hw⟩ := interleaved_done true
  cases h false true _ _ _ _ rfl rfl hv hw (not_refused_ok v) (not_refused_ok w)

set_option maxRecDepth 4000 in
/-- Of two kills one after the other the second would be refused. -/
theorem not_serializedBy (order : List Bool) :
    ¬SerializedBy (.ofTimeLow 1) killing oneSession interleaved order := by
  intro h
  obtain ⟨v, hv⟩ := interleaved_done false
  obtain ⟨w, hw⟩ := interleaved_done true
  have hfalse := h.complete hv
  have htrue := h.complete hw
  match order with
  | [] => cases hfalse
  | [p] =>
    rw [List.mem_singleton] at hfalse htrue
    cases hfalse.trans htrue.symm
  | p :: q :: rest =>
    obtain ⟨r, hr⟩ := interleaved_done q
    have herror : (handle (Machine.run next oneSession ([p].map killing)) (killing q)).IsError := by
      have hsecond : (handle (next oneSession (killing p)) (killing q)).IsError := by
        change (handle (next oneSession (killing true)) (killing true)).IsError
        decide
      exact hsecond
    have hanswer := h.answer (show p :: q :: rest = [p] ++ q :: rest from rfl) hr
    exact not_refused_ok r (hanswer.mpr herror)

/-- **Requests are not serializable whatever comes between their statements**: of two
clients that kill a session at the same time both succeed. -/
theorem not_serializable :
    ¬∀ (reqs : Bool → Input) (tx : Bool → Transaction) (id : Uuid) (db₀ : Db) (l : List Bool),
      Reachable db₀ → (∀ p, (reqs p).transaction? = some (tx p)) →
        (∀ p, (reqs p).target? = some id) →
          (∃ order, SerializedBy id reqs db₀ (Machine.run Program.Pool.step ⟨db₀, tx⟩ l) order) ∧
            Machine.Along Program.Pool.step (OverwritesErrorsOnly id reqs) ⟨db₀, tx⟩ l ∧
            KilledOnce reqs (Machine.run Program.Pool.step ⟨db₀, tx⟩ l) := by
  intro h
  obtain ⟨⟨order, horder⟩, -⟩ := h killing killingStatements (.ofTimeLow 1) oneSession
    [false, true, false, true, false, true] (Machine.reachable_run _ _)
    (fun p => (killing_spec p).1) (fun p => (killing_spec p).2)
  exact not_serializedBy order horder

end Agentd
