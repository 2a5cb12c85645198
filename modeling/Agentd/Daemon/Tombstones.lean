import Agentd.Daemon.Retention
import Agentd.Runs.Serializable

/-!
# Which sessions `tombstone_gc` deletes

The cutoff is text in the format of SQLite and `finished_at` is text in another. Up to the date
they agree; after it there is a `T` in the one and a blank in the other, and the blank is less.
So a session that finished on the day of the cutoff is not less than it at any time of the day,
and is kept until a boot after midnight (`Agentd.Expired.deleted_iff`).

`Agentd.tombstoneGc_exact_iff` says that this is all that `tombstone_gc` gets wrong, as long as the
cutoff is a time that SQLite can write.

The comparison is one of texts, character by character, and it is carried over to days by the order
of dates as texts (`Agentd.Foundations.TextOrder`). The times that are compared have years of four
digits, the stored ones as well as the cutoff; that the handlers store no others is a condition on
the run, not on the comparison.
-/

namespace Agentd

open Rfc3339

/-! ### What is stored as `finished_at`

The column is written by two statements, with the text of an instant, and by nothing else. So it can
be compared as an instant, once its year has four digits. -/

/-- Every `finished_at` is the text of an instant. -/
def FinishedAtTexts (db : Db) : Prop :=
  ∀ row ∈ db.sessions.rows, ∀ s ∈ row.finishedAt, ∃ t, s = toRfc3339 t

/-- A change keeps `finished_at` or sets it to the text of an instant. -/
theorem Change.finishedAt_apply (c : Change) (row : SessionRow) :
    (c.apply row).finishedAt = row.finishedAt ∨
      ∃ t, (c.apply row).finishedAt = some (toRfc3339 t) := by
  cases c with
  | rename _ => exact Or.inl rfl
  | status _ _ => exact Or.inl rfl
  | task _ _ => exact Or.inl rfl
  | usage _ _ _ _ => exact Or.inl rfl
  | finish at_ => exact Or.inr ⟨at_, rfl⟩

theorem finishedAtTexts_next {db : Db} (h : FinishedAtTexts db) (i : Input) :
    FinishedAtTexts (next db i) := by
  refine (forall_next_rows fun s row hs hrow => ?_).mpr fun row hrow => ?_
  · have hfresh := isNew_of_newSession? hs
    rw [(sessionToRow_eq_ok hrow).finishedAt, hfresh.finishedAt]
    intro text htext
    cases htext
  · refine Input.edit_rule (P := fun r => ∀ s ∈ r.finishedAt, ∃ t, s = toRfc3339 t) (h row hrow)
      fun c _ => ?_
    rcases c.finishedAt_apply row with hsame | ⟨t, ht⟩
    · rw [hsame]
      exact h row hrow
    · rw [ht]
      exact fun s hs => ⟨t, (Option.some.inj hs).symm⟩

theorem finishedAtTexts_step {db : Db} (h : FinishedAtTexts db) (a : Retention.Action) :
    FinishedAtTexts (Retention.step db a) := by
  cases a with
  | request i => exact finishedAtTexts_next h i
  | boot now => exact fun row hrow => h row (Retention.mem_tombstoneGc.mp hrow).1

/-- **In every state that requests and boots lead to, `finished_at` is the text of an instant.** -/
theorem finishedAtTexts_of_reachable {db : Db}
    (h : Machine.Reachable Retention.step Db.fresh db) : FinishedAtTexts db :=
  h.invariant (fun _ hrow => absurd hrow List.not_mem_nil)
    fun _ a hdb => finishedAtTexts_step hdb a

/-- The instants stored as `finished_at` lie in years of four digits. -/
def FinishedInRange (db : Db) : Prop :=
  ∀ row ∈ db.sessions.rows, ∀ t, row.finishedAt = some (toRfc3339 t) → t.FourDigitYear

/-! ### Expired sessions

To be expired is to have finished before the instant thirty days before the boot. What the
comparison of texts makes of the day of the cutoff is the difference between the two. -/

/-- The session finished before an instant. -/
def Expired (row : SessionRow) (cut : DateTime) : Prop :=
  row.status = "finished" ∧
    ∃ t, row.finishedAt.bind parseFromRfc3339 = some t ∧ t.Before cut

/-- The expired sessions are deleted with their events, and nothing else is. -/
structure GcExact (db db' : Db) (cut : DateTime) : Prop where
  sessions : ∀ row, row ∈ db'.sessions.rows ↔ row ∈ db.sessions.rows ∧ ¬Expired row cut
  gone : ∀ e ∈ db'.sessionEvents, ∃ row ∈ db'.sessions.rows, row.id = e.sessionId
  kept : ∀ e ∈ db.sessionEvents, (∃ row ∈ db'.sessions.rows, row.id = e.sessionId) →
    e ∈ db'.sessionEvents

/-- What `tombstone_gc` misses: the session finished before the cutoff on its day, or SQLite has no
text for the cutoff. -/
def Missed (row : SessionRow) (cut : DateTime) : Prop :=
  row.status = "finished" ∧ ∃ t, row.finishedAt = some (toRfc3339 t) ∧ t.Before cut ∧
    (t.date = cut.date ∨ 9999 < cut.date.year)

/-- Nothing is less than the cutoff after the year 9999. -/
theorem not_lt_cutoff {now : ℕ} (h : 9999 < (thirtyDaysBefore now).date.year) (s : String) :
    ¬s < cutoff now := by
  rw [cutoff, if_neg (not_le.mpr h), String.lt_iff]
  exact List.not_lt_nil _

/-- The cutoff as it is compared with `finished_at`: by the day. -/
theorem lt_cutoff_iff_of_fourDigitYear {t : DateTime} (ht : t.FourDigitYear) (now : ℕ) :
    toRfc3339 t < cutoff now ↔
      (thirtyDaysBefore now).date.year ≤ 9999 ∧
        t.date.toDays < (thirtyDaysBefore now).date.toDays := by
  by_cases hcut : (thirtyDaysBefore now).date.year ≤ 9999
  · rw [cutoff, if_pos hcut, and_iff_right hcut,
      lt_sqliteText_iff ht ⟨year_nonneg_thirtyDaysBefore now, hcut⟩]
  · exact iff_of_false (not_lt_cutoff (not_le.mp hcut) _) fun h => hcut h.1

/-- **A finished session is deleted when it expired, except for those that are missed.** -/
theorem Expired.deleted_iff {t : DateTime} (ht : t.FourDigitYear) (now : ℕ) :
    toRfc3339 t < cutoff now ↔ t.Before (thirtyDaysBefore now) ∧
      ¬(t.date = (thirtyDaysBefore now).date ∨ 9999 < (thirtyDaysBefore now).date.year) := by
  rw [lt_cutoff_iff_of_fourDigitYear ht, ← Date.toDays_inj, DateTime.Before]
  omega

/-- The sessions left by `tombstone_gc` are those that are not expired, and those that are
missed. -/
theorem mem_tombstoneGc_cutoff {db : Db} (htexts : FinishedAtTexts db) (hrange : FinishedInRange db)
    (now : ℕ) {row : SessionRow} :
    row ∈ (db.tombstoneGc (cutoff now)).sessions.rows ↔ row ∈ db.sessions.rows ∧
      (¬Expired row (thirtyDaysBefore now) ∨ Missed row (thirtyDaysBefore now)) := by
  rw [Retention.mem_tombstoneGc]
  refine and_congr_right fun hrow => ?_
  rw [Expired, Missed]
  by_cases hstatus : row.status = "finished"
  · simp only [hstatus, true_and]
    cases hat : row.finishedAt with
    | none => simp
    | some s =>
      obtain ⟨t, rfl⟩ := htexts row hrow s hat
      have ht := hrange row hrow t hat
      have hsame : ∀ u, toRfc3339 t = toRfc3339 u → u = t := fun u h =>
        (toRfc3339_inj ht (hrange row hrow u (hat.trans (congrArg some h))) h).symm
      have hdeleted := Expired.deleted_iff ht now
      constructor
      · intro hspared
        by_cases hbefore : t.Before (thirtyDaysBefore now)
        · refine Or.inr ⟨t, rfl, hbefore, ?_⟩
          by_contra hmissed
          exact hspared ⟨_, rfl, hdeleted.mpr ⟨hbefore, hmissed⟩⟩
        · refine Or.inl ?_
          rintro ⟨u, hu, hubefore⟩
          rw [Option.bind_some, parseFromRfc3339_toRfc3339 ht] at hu
          exact hbefore (Option.some.inj hu ▸ hubefore)
      · rintro hkept ⟨at_, hat_, hlt⟩
        rw [← Option.some.inj hat_, hdeleted] at hlt
        rcases hkept with hnot | ⟨u, hu, -, hmissed⟩
        · exact hnot ⟨t, parseFromRfc3339_toRfc3339 ht, hlt.1⟩
        · rw [hsame u (Option.some.inj hu)] at hmissed
          exact hlt.2 hmissed
  · simp only [hstatus, false_and, not_false_eq_true, true_or]

/-- A session that is missed is expired. -/
theorem Missed.expired {row : SessionRow} {cut : DateTime} (h : Missed row cut)
    (hrange : ∀ t, row.finishedAt = some (toRfc3339 t) → t.FourDigitYear) : Expired row cut := by
  obtain ⟨hstatus, t, hat, hbefore, -⟩ := h
  refine ⟨hstatus, t, ?_, hbefore⟩
  rw [hat, Option.bind_some, parseFromRfc3339_toRfc3339 (hrange t hat)]

/-- The events left are those of the sessions left. -/
theorem mem_sessionEvents_tombstoneGc {db : Db} {cutoff : String} {e : EventRow} :
    e ∈ (db.tombstoneGc cutoff).sessionEvents ↔ e ∈ db.sessionEvents ∧
      ∃ row ∈ (db.tombstoneGc cutoff).sessions.rows, row.id = e.sessionId := by
  change e ∈ db.sessionEvents.filter _ ↔ _
  rw [List.mem_filter, decide_eq_true_iff, List.mem_map]
  rfl

theorem gcExact_iff {db : Db} (htexts : FinishedAtTexts db) (hrange : FinishedInRange db)
    (now : ℕ) :
    GcExact db (db.tombstoneGc (cutoff now)) (thirtyDaysBefore now) ↔
      ¬∃ row ∈ db.sessions.rows, Missed row (thirtyDaysBefore now) := by
  constructor
  · rintro h ⟨row, hrow, hmissed⟩
    have hkept := (mem_tombstoneGc_cutoff htexts hrange now).mpr ⟨hrow, Or.inr hmissed⟩
    exact ((h.sessions row).mp hkept).2 (hmissed.expired (hrange row hrow))
  · intro hnone
    refine ⟨fun row => ?_, fun e he => (mem_sessionEvents_tombstoneGc.mp he).2,
      fun e he hkept => mem_sessionEvents_tombstoneGc.mpr ⟨he, hkept⟩⟩
    rw [mem_tombstoneGc_cutoff htexts hrange]
    exact and_congr_right fun hrow => or_iff_left fun hmissed => hnone ⟨row, hrow, hmissed⟩

/-- **In every state that requests and boots lead to, `tombstone_gc` is exact when it misses
no session**, that is when none finished on the day of the cutoff before its time of day. -/
theorem tombstoneGc_exact_iff (db : Db) (h : Machine.Reachable Retention.step Db.fresh db)
    (hrange : FinishedInRange db) (now : ℕ) :
    GcExact db (db.tombstoneGc (cutoff now)) (thirtyDaysBefore now) ↔
      ¬∃ row ∈ db.sessions.rows, Missed row (thirtyDaysBefore now) :=
  gcExact_iff (finishedAtTexts_of_reachable h) hrange now

/-! ### One session, killed at noon

The boot is at six in the evening, thirty days later, and keeps it until a boot on the next day. -/

/-- A session that was killed at noon of the first of January 2026. -/
def killedAtNoon : Db :=
  next oneSession (killing true)

theorem reachable_killedAtNoon : Machine.Reachable Retention.step Db.fresh killedAtNoon :=
  ⟨[.request ⟨.discover "opencode" "main" "%1" "/home/u/proj", .noon (.ofTimeLow 1) 2026⟩,
    .request (killing true)], rfl⟩

set_option maxRecDepth 4000 in
theorem finished_killedAtNoon : killedAtNoon.sessions.rows.map (fun r => (r.status, r.finishedAt)) =
    [("finished", some (toRfc3339 (.noonOf 2026)))] := by
  decide

theorem finishedInRange_killedAtNoon : FinishedInRange killedAtNoon := by
  intro row hrow t ht
  have hmem := List.mem_map_of_mem (f := fun r => (r.status, r.finishedAt)) hrow
  rw [finished_killedAtNoon, List.mem_singleton, Prod.mk.injEq, ht, Option.some_inj] at hmem
  refine isSome_parseFromRfc3339.mp ?_
  rw [hmem.2]
  exact isSome_parseFromRfc3339.mpr (by decide)

/-- Six in the evening of the last of January 2026, in nanoseconds. -/
def evening : ℕ := 1769882400000000000

theorem missed_killedAtNoon : ∃ row ∈ killedAtNoon.sessions.rows,
    Missed row (thirtyDaysBefore evening) := by
  have hmem := List.mem_singleton_self ("finished", some (toRfc3339 (.noonOf 2026)))
  rw [← finished_killedAtNoon] at hmem
  obtain ⟨row, hrow, hfields⟩ := List.mem_map.mp hmem
  obtain ⟨hstatus, hat⟩ := Prod.mk.inj hfields
  refine ⟨row, hrow, hstatus, .noonOf 2026, hat, ?_, Or.inl (Date.toDays_inj.mp ?_)⟩
  · rw [thirtyDaysBefore, DateTime.before_iff_toNanos (by decide) (DateTime.nano_ofNanos_lt _),
      DateTime.toNanos_ofNanos]
    decide
  · rw [thirtyDaysBefore, DateTime.toDays_ofNanos]
    decide

/-- A boot in the evening thirty days after. -/
theorem tombstoneGc_exact_killedAtNoon :
    GcExact killedAtNoon (killedAtNoon.tombstoneGc (cutoff evening)) (thirtyDaysBefore evening) ↔
      ¬∃ row ∈ killedAtNoon.sessions.rows, Missed row (thirtyDaysBefore evening) :=
  tombstoneGc_exact_iff _ reachable_killedAtNoon finishedInRange_killedAtNoon evening

/-- It keeps the session, six hours late. -/
theorem not_tombstoneGc_exact : ¬∀ db, Machine.Reachable Retention.step Db.fresh db →
    FinishedInRange db → ∀ now,
      GcExact db (db.tombstoneGc (cutoff now)) (thirtyDaysBefore now) := by
  intro h
  have hexact := h killedAtNoon reachable_killedAtNoon finishedInRange_killedAtNoon evening
  have htexts := finishedAtTexts_of_reachable reachable_killedAtNoon
  exact (gcExact_iff htexts finishedInRange_killedAtNoon evening).mp hexact missed_killedAtNoon

end Agentd
