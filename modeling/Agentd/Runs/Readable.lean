import Agentd.Handlers.Footprint
import Agentd.Handlers.Read

/-!
# What it takes for the store to stay readable

One row that `row_to_session` does not decode fails `SessionRepo::list`, and with it the
snapshot, the list of active sessions, the status of the daemon and its next boot. All that
a request can get wrong is a time stamp: `to_rfc3339` writes a year outside `0..=9999` with a
sign, and the reader takes four digits only. An agent's `ts` has four digits as well, but
the offset it is given with can carry it over the edge when it is brought to UTC.

`Agentd.readable_iff` says that this is the only way: every state of a run is readable
exactly when no request of it stores such a stamp (`Agentd.StoresBadStamp`).
-/

namespace Agentd

open Json Rfc3339
open Plugin (Report)

/-- Every reader of the session table answers. -/
structure Readable (db : Db) : Prop where
  list : ∃ sessions, db.listSessions = .ok sessions
  read : ∀ method params, Read.ListsSessions method → (Read.dispatch method params db).isSome
  boot : ∃ names, restartRespawn db = .ok names

/-- Every stored row decodes. -/
def AllDecode (db : Db) : Prop :=
  ∀ row ∈ db.sessions.rows, row.Decodes

/-- **Every reader answers exactly when every row decodes.** -/
theorem readable_iff_allDecode {db : Db} : Readable db ↔ AllDecode db := by
  constructor
  · exact fun h => exists_listSessions_iff.mp h.list
  · intro h
    exact ⟨exists_listSessions_iff.mpr h,
      fun _ params hm => (isSome_read_dispatch_iff hm params).mpr h,
      exists_restartRespawn_iff.mpr h⟩

/-- The request stores the daemon's clock: it inserts a session, dismisses an error or
kills a session. -/
def StoresClock (db : Db) (i : Input) : Prop :=
  (∃ s, i.newSession? = some s ∧ ¬db.Taken s) ∨ ∃ row, Dismisses db i row ∨ Kills db i row

/-- The request stores a stamp outside the years of four digits: the daemon's clock, or
the time of a report of the owner that changes its row. -/
def StoresBadStamp (db : Db) (i : Input) : Prop :=
  (StoresClock db i ∧ ¬i.amb.rowNow.FourDigitYear) ∨
    ∃ rep row, OwnerReport db i rep row ∧ rep.change?.isSome ∧ ¬rep.ts.FourDigitYear

/-- A change of a stored row never stores a count that is none. -/
theorem Cause.countsNonneg {db : Db} {i : Input} {row : SessionRow} {c : Change}
    (h : Cause db i row c) : c.CountsNonneg := by
  cases h with
  | rename _ => trivial
  | dismiss _ => trivial
  | kill _ => trivial
  | report _ hchange => exact Plugin.Report.countsNonneg_of_change? hchange

/-- A change whose stamp is no year of four digits is one of the bad stamps. -/
theorem Cause.storesBadStamp {db : Db} {i : Input} {row : SessionRow} {c : Change}
    (h : Cause db i row c) {t : DateTime} (ht : c.stamp? = some t) (hbad : ¬t.FourDigitYear) :
    StoresBadStamp db i := by
  cases h with
  | rename _ => cases ht
  | dismiss h =>
    obtain rfl := Option.some.inj ht
    exact Or.inl ⟨Or.inr ⟨row, Or.inl h⟩, hbad⟩
  | kill h =>
    obtain rfl := Option.some.inj ht
    exact Or.inl ⟨Or.inr ⟨row, Or.inr h⟩, hbad⟩
  | @report rep _ h hchange =>
    rw [Plugin.Report.stamp?_of_change? hchange] at ht
    obtain rfl := Option.some.inj ht
    exact Or.inr ⟨rep, row, h, by rw [hchange]; rfl, hbad⟩

/-- A bad stamp that is not that of a new session is that of a change. -/
theorem StoresBadStamp.cases {db : Db} {i : Input} (h : StoresBadStamp db i) :
    (∃ s, i.newSession? = some s ∧ ¬db.Taken s ∧ ¬i.amb.rowNow.FourDigitYear) ∨
      ∃ row c t, Cause db i row c ∧ row ∈ db.sessions.rows ∧ c.stamp? = some t ∧
        ¬t.FourDigitYear := by
  rcases h with ⟨⟨s, hs, hfree⟩ | ⟨row, hdismiss | hkill⟩, hbad⟩ | ⟨rep, row, hrep, hchange, hbad⟩
  · exact Or.inl ⟨s, hs, hfree, hbad⟩
  · obtain ⟨_, _, _, -, -, hrow, -⟩ := id hdismiss
    exact Or.inr ⟨row, _, _, .dismiss hdismiss, (KeyedTable.find?_eq_some.mp hrow).1, rfl, hbad⟩
  · obtain ⟨_, _, _, -, -, hrow, -⟩ := id hkill
    exact Or.inr ⟨row, _, _, .kill hkill, (KeyedTable.find?_eq_some.mp hrow).1, rfl, hbad⟩
  · obtain ⟨c, hc⟩ := Option.isSome_iff_exists.mp hchange
    exact Or.inr ⟨row, c, rep.ts, .report hrep hc, hrep.mem,
      Plugin.Report.stamp?_of_change? hc, hbad⟩

/-- A bad stamp is on a row that does not decode. -/
theorem not_allDecode_next {db : Db} {i : Input} (h : AllDecode db) (hbad : StoresBadStamp db i) :
    ¬AllDecode (next db i) := by
  intro hnext
  rcases hbad.cases with ⟨s, hs, hfree, hbad⟩ | ⟨row, c, t, hcause, hrow, ht, hbad⟩
  · obtain ⟨db', hins⟩ := (exists_insertSession_iff (isNew_of_newSession? hs)).mpr hfree
    obtain ⟨row, hmem, hrow⟩ := exists_inserted_mem_next hs hins
    have hcreated := ((sessionToRow_eq_ok hrow).decodes_iff.mp (hnext row hmem)).1
    rw [(isNew_of_newSession? hs).createdAt] at hcreated
    exact hbad hcreated
  · have hdecodes := hnext _ (edit_mem_next hrow i)
    rw [Input.edit_of_change?_eq_some hcause.change?,
      Change.decodes_apply_iff (h row hrow) hcause.countsNonneg] at hdecodes
    exact hbad (hdecodes t ht)

/-- An edited row decodes, when no bad stamp is stored. -/
theorem decodes_edit {db : Db} {i : Input} (hgood : ¬StoresBadStamp db i) {row : SessionRow}
    (hrow : row ∈ db.sessions.rows) (h : row.Decodes) : (i.edit row).Decodes := by
  refine Input.edit_rule (P := SessionRow.Decodes) h fun c hc => ?_
  have hcause := Input.cause_of_change? hrow hc
  rw [Change.decodes_apply_iff h hcause.countsNonneg]
  intro t ht
  by_contra hbad
  exact hgood (hcause.storesBadStamp ht hbad)

/-- An inserted row decodes, when no bad stamp is stored. -/
theorem decodes_inserted {db db' : Db} {i : Input} (hgood : ¬StoresBadStamp db i) {s : Session}
    {row : SessionRow} (hs : i.newSession? = some s) (hrow : sessionToRow s = .ok row)
    (hins : db.insertSession s = .ok db') : row.Decodes := by
  have hfresh := isNew_of_newSession? hs
  rw [(sessionToRow_eq_ok hrow).decodes_iff, hfresh.createdAt, hfresh.lastEventAt,
    hfresh.finishedAt]
  refine ⟨?_, nofun, nofun⟩
  by_contra hbad
  have hfree : ¬db.Taken s := (exists_insertSession_iff hfresh).mp ⟨db', hins⟩
  exact hgood (Or.inl ⟨Or.inl ⟨s, hs, hfree⟩, hbad⟩)

/-- **From a state whose rows decode, a request leaves rows that decode exactly when
it stores no bad stamp.** -/
theorem allDecode_next_iff (db : Db) (i : Input) (h : AllDecode db) :
    AllDecode (next db i) ↔ ¬StoresBadStamp db i := by
  refine ⟨fun hnext hbad => not_allDecode_next h hbad hnext, fun hgood row' hrow' => ?_⟩
  rcases mem_next_rows hrow' with ⟨row, hrow, rfl⟩ | ⟨s, _, hs, hnew, hins⟩
  · exact decodes_edit hgood hrow (h row hrow)
  · exact decodes_inserted hgood hs hnew hins

/-- **Every state of a run is readable exactly when no request of it stores a stamp outside the
years of four digits.** What is read back is parsed as RFC 3339, and the writer of the stamps knows
years that the parser does not. Of the other columns each holds only what a handler has checked
before, and is always read. -/
theorem readable_iff (l : List Input) :
    Machine.Throughout next Readable Db.fresh l ↔
      Machine.Along next (fun db i => ¬StoresBadStamp db i) Db.fresh l := by
  refine Machine.throughout_iff_along (fun db i h => ?_) l Db.fresh ?_
  · rw [readable_iff_allDecode] at h ⊢
    exact allDecode_next_iff db i h
  · exact readable_iff_allDecode.mpr fun _ hrow => absurd hrow List.not_mem_nil

/-- A report of the owner at the first minute of year `0`, an hour ahead of UTC. -/
def yearMinusOne : List Input :=
  let id := Uuid.ofTimeLow 1
  [⟨.discover "opencode" "main" "%1" "/home/u/proj", .noon id 2026⟩,
   ⟨.plugin "opencode" Method.sessionReportEvent (.object [("session_id", .string id.toText),
     ("ts", .string "0000-01-01T00:00:00+01:00"), ("type", .string "session.finished")]),
    .noon id 2026⟩]

set_option maxRecDepth 4000 in
/-- An accepted report can make the store unreadable. -/
theorem unreadable_reachable : ¬∀ db, Reachable db → Readable db := by
  intro h
  have hread : Read.dispatch Method.stateSnapshot .null
      (Machine.run next Db.fresh yearMinusOne) = none := by decide
  have hsome := (h _ (Machine.reachable_run Db.fresh yearMinusOne)).read Method.stateSnapshot .null
    (Or.inl rfl)
  rw [hread] at hsome
  cases hsome

end Agentd
