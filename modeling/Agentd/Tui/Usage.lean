import Agentd.Tui.Converge

/-!
# The usage of a session

A `session.usage_updated` report goes two ways. `update_usage` writes the two token counts and
the cost to the row, all three of them, so what the report leaves out becomes `NULL`. The event
carries the same three to the dashboards, and there the reducer leaves alone what is `null`.

`Agentd.usageAgrees_iff` – a dashboard keeps showing the usage of every live session as its row has
it exactly when no report leaves out something the row has (`Agentd.Blanks`).

The difference is one of three columns against three fields, and it is described by one relation
between two usages: the one covers the other when it has everything the other has. A report that
covers what was there before is taken in the same way by both sides, and one that does not is taken
differently.
-/

namespace Agentd

open Json Rfc3339
open Plugin (Report)

/-! ### Usage -/

/-- The token counts and the cost of a session. -/
structure Usage where
  used : Option ℤ
  total : Option ℤ
  cost : Option F64

namespace Usage

/-- What is there in `u` replaces what is in `v`. -/
def overlay (u v : Usage) : Usage :=
  ⟨u.used.or v.used, u.total.or v.total, u.cost.or v.cost⟩

/-- What is missing in `u` is missing in `v`. -/
structure Covers (u v : Usage) : Prop where
  used : u.used = none → v.used = none
  total : u.total = none → v.total = none
  cost : u.cost = none → v.cost = none

/-- What is laid over a value replaces it, unless it is missing and the value is not. -/
theorem or_eq_left_iff {α : Type} {x y : Option α} : x.or y = x ↔ (x = none → y = none) := by
  cases x <;> simp

/-- **To lay `u` over `v` is to put `u` in its place exactly when `u` covers `v`.** -/
theorem overlay_eq_left_iff {u v : Usage} : u.overlay v = u ↔ u.Covers v := by
  obtain ⟨used, total, cost⟩ := u
  rw [overlay, mk.injEq, or_eq_left_iff, or_eq_left_iff, or_eq_left_iff]
  exact ⟨fun h => ⟨h.1, h.2.1, h.2.2⟩, fun h => ⟨h.used, h.total, h.cost⟩⟩

end Usage

/-- A token count as the database stores it. -/
def tokens (n : Option UInt64) : Option ℤ :=
  n.map fun n => n.toNat

def SessionRow.usage (r : SessionRow) : Usage :=
  ⟨r.contextUsedTokens, r.contextTotalTokens, r.costUsd⟩

def Session.usage (s : Session) : Usage :=
  ⟨tokens s.contextUsedTokens, tokens s.contextTotalTokens, s.costUsd⟩

def Plugin.Report.usage (rep : Report) : Usage :=
  ⟨tokens rep.used, tokens rep.total, rep.cost⟩

/-- The usage a dashboard shows of a session. -/
def TuiState.usage? (st : TuiState) (id : Uuid) : Option Usage :=
  (st.sessions.find? fun s => s.id = id).map Session.usage

/-! ### What the database makes of a report

All three columns are written, so that what a report leaves out becomes `NULL`. A count of 2⁶³ or
more cannot be bound, and then the row is not written at all. -/

/-- A cost that comes from JSON is stored as it is. -/
theorem bindF64_cost (rep : Report) : bindF64 rep.cost = rep.cost := by
  refine bindF64_eq_self fun x hx => ?_
  obtain ⟨v, -, hv⟩ := Option.bind_eq_some_iff.mp hx
  exact Value.isFinite_of_asF64 hv

namespace Plugin.Report

/-- Counts that fit are bound as they are. -/
theorem bindU64_of_fits {rep : Report} (hkind : rep.kind = "session.usage_updated")
    (hfits : ¬rep.OversizedUsage) :
    bindU64 rep.used = .ok (tokens rep.used) ∧ bindU64 rep.total = .ok (tokens rep.total) := by
  refine ⟨bindU64_eq_ok.mpr ⟨rfl, fun n hn => ?_⟩, bindU64_eq_ok.mpr ⟨rfl, fun n hn => ?_⟩⟩
  · exact not_le.mp fun hle => hfits ⟨hkind, n, Or.inl hn, hle⟩
  · exact not_le.mp fun hle => hfits ⟨hkind, n, Or.inr hn, hle⟩

/-- The event about a report of usage. -/
def usageEvent (rep : Report) (now : DateTime) : Event :=
  ⟨"session.usage_updated", some rep.id,
    .object [("cost_usd", (rep.cost.map Value.ofF64).getD .null),
      ("total", (rep.total.map Value.ofU64).getD .null),
      ("used", (rep.used.map Value.ofU64).getD .null)], now⟩

/-- A report of usage changes the row of its session, and tells the dashboard. -/
theorem applyReport_usage {rep : Report} {db : Db} {row : SessionRow}
    (hkind : rep.kind = "session.usage_updated") (hfits : ¬rep.OversizedUsage)
    (hrow : db.row? rep.id = some row) (eventId : ℕ) (amb : Ambient) :
    applyReport rep db eventId amb = accept (db.change rep.id
      (.usage rep.usage.used rep.usage.total rep.usage.cost rep.ts)) eventId
        [rep.usageEvent amb.busNow] := by
  obtain ⟨hused, htotal⟩ := bindU64_of_fits hkind hfits
  have hupdate : db.updateUsage rep.id rep.used rep.total rep.cost rep.ts = .ok (db.change rep.id
      (.usage rep.usage.used rep.usage.total rep.usage.cost rep.ts)) := by
    rw [Db.updateUsage, hused, htotal, bindF64_cost]
    exact updateSession_of_row? hrow
  unfold applyReport
  rw [if_neg (by rw [hkind]; decide), if_neg (by rw [hkind]; decide), if_pos hkind]
  unfold used total cost at hupdate
  simp only [hupdate]
  rfl

end Plugin.Report

/-! ### What the dashboard makes of it

The event has null where the report had nothing, and the reducer leaves alone what is null. So it
lays the report over the line, where the database puts it in the place of the row. -/

/-- A count is read back from the event as it was put there, and a missing one as missing. -/
theorem asU64_getD (n : Option UInt64) : ((n.map Value.ofU64).getD .null).asU64 = n := by
  cases n <;> rfl

/-- The event carries the usage of the report. -/
theorem asF64_getD_cost (rep : Report) :
    ((rep.cost.map Value.ofF64).getD .null).asF64 = rep.cost := by
  cases hcost : rep.cost with
  | none => rfl
  | some x =>
    obtain ⟨v, -, hv⟩ := Option.bind_eq_some_iff.mp hcost
    exact Value.asF64_ofF64 (Value.isFinite_of_asF64 hv)

/-- Counts are laid over each other as the numbers they are. -/
theorem tokens_or (m n : Option UInt64) : tokens (m.or n) = (tokens m).or (tokens n) := by
  cases m <;> rfl

/-- A session with what a report says of its usage. -/
def Session.reported (s : Session) (rep : Report) : Session :=
  { s with
    contextUsedTokens := rep.used.or s.contextUsedTokens
    contextTotalTokens := rep.total.or s.contextTotalTokens
    costUsd := rep.cost.or s.costUsd }

/-- The reducer lays the report over the usage of the line. -/
theorem Session.usage_reported (s : Session) (rep : Report) :
    (s.reported rep).usage = rep.usage.overlay s.usage := by
  simp only [reported, usage, Usage.overlay, Plugin.Report.usage, tokens_or]

namespace TuiState

/-- The event lays the usage of the report over what is shown. -/
theorem usage?_applyEvent_usageEvent (st : TuiState) (now : Instant) (rep : Report)
    (busNow : DateTime) (id : Uuid) :
    (st.applyEvent now (rep.usageEvent busNow)).usage? id =
      if rep.id = id then (st.usage? id).map rep.usage.overlay else st.usage? id := by
  have hsessions : (st.applyEvent now (rep.usageEvent busNow)).sessions =
      modifyFirst (fun s => s.id = rep.id) (fun s => s.reported rep) st.sessions := by
    show (st.applyUsageUpdated (rep.usageEvent busNow)).sessions = _
    simp only [applyUsageUpdated, Plugin.Report.usageEvent, modifySession]
    congr 1
    funext s
    simp [Session.reported, Value.get, asU64_getD, asF64_getD_cost]
  unfold usage?
  rw [hsessions]
  split_ifs with hid
  · subst hid
    rw [find?_modifyFirst_self (f := fun s => s.reported rep) fun _ h => h, Option.map_map,
      Option.map_map]
    congr 1
    funext s
    exact s.usage_reported rep
  · rw [find?_modifyFirst_of_ne (f := fun s => s.reported rep) (fun _ h => h) (Ne.symm hid)]

/-- An event that is not about the state of a session leaves the sessions alone. -/
theorem sessions_applyEvent_of_inert {e : Event} (h : e.Inert) (st : TuiState) (now : Instant) :
    (st.applyEvent now e).sessions = st.sessions := by
  rcases h with h | h | h
  · simp only [applyEvent, h]
    show (st.applyPluginConnected e).sessions = _
    unfold applyPluginConnected
    split
    · rfl
    · split_ifs <;> rfl
  · simp [applyEvent, h]
  · simp [applyEvent, h]

/-- Events about no row leave the lines. -/
theorem sessions_applyEvents_of_inert {events : List (Instant × Event)}
    (h : ∀ e ∈ events, e.2.Inert) :
    ∀ st : TuiState, (st.applyEvents events).sessions = st.sessions := by
  induction events with
  | nil => exact fun _ => rfl
  | cons e events ih =>
    intro st
    have hrest := ih (fun e' he' => h e' (List.mem_cons_of_mem _ he')) (st.applyEvent e.1 e.2)
    exact hrest.trans (sessions_applyEvent_of_inert (h e List.mem_cons_self) st e.1)

end TuiState

/-! ### A database and its dashboard

A report replaces the usage of the row, and is laid over that of the line. If the two agreed before,
they agree afterwards exactly when the report covers what was there. -/

/-- A report of usage, as a plugin sends it, and the instant the dashboard gets its event. -/
structure UsageReport where
  plugin : String
  params : Value
  amb : Ambient
  now : Instant
  kind : params.getStr "type" = some "session.usage_updated"

/-- The report as a request. -/
def UsageReport.input (r : UsageReport) : Input :=
  ⟨.plugin r.plugin Method.sessionReportEvent r.params, r.amb⟩

/-- A database, and a dashboard that follows it. -/
structure Followed where
  db : Db
  st : TuiState

namespace Followed

/-- A report comes in, and the event it emits goes out. -/
def step (s : Followed) (r : UsageReport) : Followed where
  db := next s.db r.input
  st := s.st.applyEvents ((handle s.db r.input).events.map fun e => (r.now, e))

/-- The dashboard shows the usage of every live session as it is in the row. -/
def Agrees (s : Followed) : Prop :=
  ∀ id row, s.db.row? id = some row → row.status ≠ "finished" → s.st.usage? id = some row.usage

end Followed

/-- The owner of a live session reports its usage, and leaves out what the row has. -/
def Blanks (db : Db) (r : UsageReport) : Prop :=
  ∃ rep row, OwnerReport db r.input rep row ∧ ¬rep.OversizedUsage ∧ row.status ≠ "finished" ∧
    ¬rep.usage.Covers row.usage

/-- What is reported is usage. -/
theorem UsageReport.kind_of_ownerReport {db : Db} {r : UsageReport} {rep : Report}
    {row : SessionRow} (h : OwnerReport db r.input rep row) :
    rep.kind = "session.usage_updated" := by
  obtain ⟨_, params, hreq, hrep, -⟩ := h
  obtain ⟨-, -, rfl⟩ := Request.plugin.inj hreq
  unfold Report.ofParams at hrep
  obtain ⟨_, -, hrep⟩ := Option.bind_eq_some_iff.mp hrep
  obtain ⟨kind, hkind, hrep⟩ := Option.bind_eq_some_iff.mp hrep
  obtain ⟨_, -, hrep⟩ := Option.bind_eq_some_iff.mp hrep
  rw [← Option.some.inj hrep]
  exact Option.some.inj (hkind.symm.trans r.kind)

/-- A report of usage that is not taken changes neither the sessions nor the lines. -/
theorem UsageReport.quiet (db : Db) (r : UsageReport)
    (h : ¬∃ rep row, OwnerReport db r.input rep row ∧ ¬rep.OversizedUsage) :
    (next db r.input).sessions = db.sessions ∧ ∀ e ∈ (handle db r.input).events, e.Inert := by
  unfold next
  cases handle_footprint db r.input with
  | refused _ hdb hevents => exact ⟨by rw [hdb], by rw [hevents]; exact nofun⟩
  | answered _ hsessions hevents => exact ⟨hsessions, hevents⟩
  | logged _ _ _ _ _ hsessions hevents => exact ⟨hsessions, by rw [hevents]; exact nofun⟩
  | inserted s _ hs => cases hs
  | updated _ _ _ _ _ _ _ hreq => cases hreq
  | reported rep row c _ hrep hchange =>
    refine absurd ⟨rep, row, hrep, fun hover => ?_⟩ h
    rw [(applyReport_of_bad 0 r.amb db (Or.inr hover)).1] at hchange
    cases hchange

/-- A request is one report. -/
theorem OwnerReport.unique {db : Db} {i : Input} {rep rep' : Report} {row row' : SessionRow}
    (h : OwnerReport db i rep row) (h' : OwnerReport db i rep' row') : rep = rep' ∧ row = row' := by
  obtain ⟨_, _, hreq, hrep, hrow, -⟩ := h
  obtain ⟨_, _, hreq', hrep', hrow', -⟩ := h'
  obtain ⟨-, -, rfl⟩ := Request.plugin.inj (hreq.symm.trans hreq')
  obtain rfl := Option.some.inj (hrep.symm.trans hrep')
  exact ⟨rfl, Option.some.inj (hrow.symm.trans hrow')⟩

/-- A report that is taken writes its usage to the row, and lays it over the line. -/
theorem UsageReport.taken {s : Followed} {r : UsageReport} {rep : Report} {row : SessionRow}
    (hrep : OwnerReport s.db r.input rep row) (hfits : ¬rep.OversizedUsage) :
    (∃ row', (s.step r).db.row? rep.id = some row' ∧ row'.status = row.status ∧
        row'.usage = rep.usage) ∧
      (∀ id, rep.id ≠ id → (s.step r).db.row? id = s.db.row? id) ∧
      ∀ id, (s.step r).st.usage? id =
        if rep.id = id then (s.st.usage? id).map rep.usage.overlay else s.st.usage? id := by
  obtain ⟨now, hhandle⟩ := handle_of_ownerReport hrep
  rw [Plugin.Report.applyReport_usage (UsageReport.kind_of_ownerReport hrep) hfits
    (show (s.db.logged rep now).row? rep.id = some row from hrep.row?)] at hhandle
  have hsessions : (s.step r).db.sessions = (s.db.change rep.id
      (.usage rep.usage.used rep.usage.total rep.usage.cost rep.ts)).sessions := by
    rw [Followed.step, next, hhandle]
    rfl
  refine ⟨⟨Change.apply row (.usage rep.usage.used rep.usage.total rep.usage.cost rep.ts), ?_, rfl,
    rfl⟩, fun id hne => ?_, fun id => ?_⟩
  · have hrow : s.db.sessions.find? rep.id.toText = some row := hrep.row?
    rw [Db.row?, hsessions, Db.change, KeyedTable.find?_modify_self hrow]
  · have hne' : id.toText ≠ rep.id.toText := fun heq => hne (Uuid.toText_inj.mp heq).symm
    rw [Db.row?, hsessions, Db.change, KeyedTable.find?_modify_of_ne hne']
    rfl
  · rw [← s.st.usage?_applyEvent_usageEvent r.now rep r.input.amb.busNow, Followed.step, hhandle]
    rfl

/-- **A report leaves the dashboard in agreement exactly when it blanks nothing.** -/
theorem Followed.agrees_step_iff (s : Followed) (r : UsageReport) (h : s.Agrees) :
    (s.step r).Agrees ↔ ¬Blanks s.db r := by
  by_cases htaken : ∃ rep row, OwnerReport s.db r.input rep row ∧ ¬rep.OversizedUsage
  · obtain ⟨rep, row, hrep, hfits⟩ := htaken
    obtain ⟨⟨row', hrow', hstatus, husage⟩, hother, hline⟩ := UsageReport.taken hrep hfits
    -- only the session of the report is at stake, and only if it is live
    have hshown (hlive : row.status ≠ "finished") :
        (s.step r).st.usage? rep.id = some (rep.usage.overlay row.usage) := by
      rw [hline, if_pos rfl, h rep.id row hrep.row? hlive, Option.map_some]
    constructor
    · rintro hagrees ⟨rep', row'', hrep', -, hlive, hcovers⟩
      obtain ⟨rfl, rfl⟩ := hrep.unique hrep'
      have heq := hagrees rep.id row' hrow' (by rw [hstatus]; exact hlive)
      rw [hshown hlive, husage, Option.some.injEq] at heq
      exact hcovers (Usage.overlay_eq_left_iff.mp heq)
    · intro hblanks id row'' hrow'' hlive
      by_cases hid : rep.id = id
      · subst hid
        obtain rfl := Option.some.inj (hrow'.symm.trans hrow'')
        rw [hstatus] at hlive
        have hcovers : rep.usage.Covers row.usage := by
          by_contra hcovers
          exact hblanks ⟨rep, row, hrep, hfits, hlive, hcovers⟩
        rw [hshown hlive, husage, Usage.overlay_eq_left_iff.mpr hcovers]
      · rw [hother id hid] at hrow''
        rw [hline, if_neg hid]
        exact h id row'' hrow'' hlive
  · obtain ⟨hsessions, hevents⟩ := r.quiet s.db htaken
    refine iff_of_true (fun id row hrow hlive => ?_) ?_
    · have hlines : (s.step r).st.sessions = s.st.sessions := by
        refine TuiState.sessions_applyEvents_of_inert (fun e he => ?_) _
        obtain ⟨e', he', rfl⟩ := List.mem_map.mp he
        exact hevents e' he'
      rw [TuiState.usage?, hlines]
      refine h id row ?_ hlive
      rw [Db.row?, ← hsessions]
      exact hrow
    · rintro ⟨rep, row, hrep, hfits, -⟩
      exact htaken ⟨rep, row, hrep, hfits⟩

/-! ### The snapshot

A snapshot takes the usage from the rows; so the two agree at first when the rows are sound, which
they are in every reachable database. -/

/-- The counts of the row fit an `i64` and are none below zero, and its cost is finite. -/
structure SessionRow.SoundUsage (r : SessionRow) : Prop where
  used : ∀ n ∈ r.contextUsedTokens, 0 ≤ n ∧ n < 2 ^ 63
  total : ∀ n ∈ r.contextTotalTokens, 0 ≤ n ∧ n < 2 ^ 63
  cost : ∀ x ∈ r.costUsd, x.IsFinite

/-- What is bound for a count is one of 63 bits. -/
theorem bounds_of_bindU64 {x : Option UInt64} {y : Option ℤ} (h : bindU64 x = .ok y) :
    ∀ n ∈ y, 0 ≤ n ∧ n < 2 ^ 63 := by
  obtain ⟨rfl, hlt⟩ := bindU64_eq_ok.mp h
  intro n hn
  obtain ⟨m, hm, rfl⟩ := Option.map_eq_some_iff.mp hn
  have := hlt m hm
  omega

/-- A change of the usage of a row leaves it sound. -/
theorem soundUsage_of_report {rep : Report} {c : Change} {row : SessionRow} (hrow : row.SoundUsage)
    (hchange : rep.change? = some c) : (c.apply row).SoundUsage := by
  cases c with
  | rename name => exact ⟨hrow.used, hrow.total, hrow.cost⟩
  | status new at_ => exact ⟨hrow.used, hrow.total, hrow.cost⟩
  | task text at_ => exact ⟨hrow.used, hrow.total, hrow.cost⟩
  | finish at_ => exact ⟨hrow.used, hrow.total, hrow.cost⟩
  | usage used total cost at_ =>
    unfold Plugin.Report.change? at hchange
    split_ifs at hchange
    · obtain ⟨_, -, hc⟩ := Option.map_eq_some_iff.mp hchange
      cases hc
    · obtain ⟨_, -, hc⟩ := Option.map_eq_some_iff.mp hchange
      cases hc
    · split at hchange
      · rename_i hused htotal
        obtain ⟨rfl, rfl, rfl, -⟩ := Change.usage.inj (Option.some.inj hchange)
        refine ⟨bounds_of_bindU64 hused, bounds_of_bindU64 htotal, fun x hx => ?_⟩
        change bindF64 rep.cost = some x at hx
        rw [bindF64_cost] at hx
        obtain ⟨v, -, hv⟩ := Option.bind_eq_some_iff.mp hx
        exact Value.isFinite_of_asF64 hv
      · cases hchange
    · cases hchange

/-- A session that is inserted has no usage yet. -/
theorem usage_inserted {i : Input} {s : Session} {row : SessionRow} (hs : i.newSession? = some s)
    (hrow : sessionToRow s = .ok row) : row.usage = ⟨none, none, none⟩ := by
  have hcost : s.costUsd = none := by
    rcases Input.newSession?_cases hs with ⟨_, _, _, -, rfl⟩ | ⟨_, _, _, _, _, _, -, -, rfl⟩
    · rfl
    · rfl
  have hnew := isNew_of_newSession? hs
  rw [sessionToRow, hnew.contextUsedTokens, hnew.contextTotalTokens, hcost] at hrow
  rw [← Except.ok.inj hrow]
  rfl

/-- **In every reachable database the usage of a row is sound.** -/
theorem soundUsage_of_reachable {db : Db} (h : Reachable db) :
    ∀ row ∈ db.sessions.rows, row.SoundUsage := by
  refine h.invariant (P := fun db => ∀ row ∈ db.sessions.rows, row.SoundUsage)
    (fun _ hrow => absurd hrow List.not_mem_nil) fun db i hdb => ?_
  refine (forall_next_rows fun s row hs hrow => ?_).mpr fun row hrow => ?_
  · obtain ⟨hused, htotal, hcost⟩ := Usage.mk.inj (usage_inserted hs hrow)
    exact ⟨by rw [hused]; exact nofun, by rw [htotal]; exact nofun, by rw [hcost]; exact nofun⟩
  · have hsound := hdb row hrow
    refine Input.edit_rule (P := SessionRow.SoundUsage) hsound fun c hc => ?_
    cases Input.cause_of_change? hrow hc with
    | rename _ => exact ⟨hsound.used, hsound.total, hsound.cost⟩
    | dismiss _ => exact ⟨hsound.used, hsound.total, hsound.cost⟩
    | kill _ => exact ⟨hsound.used, hsound.total, hsound.cost⟩
    | report _ hchange => exact soundUsage_of_report hsound hchange

/-- A count that is read back is the one that is stored. -/
theorem tokens_of_getU64 {column : ℕ} {x : Option ℤ} {n : Option UInt64}
    (h : getU64 column x = .ok n) (hx : ∀ m ∈ x, 0 ≤ m ∧ m < 2 ^ 63) : tokens n = x := by
  cases x with
  | none =>
    obtain rfl := Except.ok.inj h
    rfl
  | some m =>
    obtain ⟨hpos, hlt⟩ := hx m rfl
    rw [getU64, if_pos hpos] at h
    obtain rfl := Except.ok.inj h
    have hnat : m.toNat % 2 ^ 64 = m.toNat := Nat.mod_eq_of_lt (by omega)
    rw [tokens, Option.map_some, UInt64.toNat_ofNat', hnat, Int.toNat_of_nonneg hpos]

/-- **A session is read with the usage of its row**, and is shown with it. -/
theorem usage_of_rowToSession {r : SessionRow} {s : Session} (h : rowToSession r = .ok s)
    (hr : r.SoundUsage) : s.jsonable.usage = r.usage := by
  unfold rowToSession at h
  obtain ⟨_, -, h⟩ := Except.bind_eq_ok.mp h
  obtain ⟨_, -, h⟩ := Except.bind_eq_ok.mp h
  obtain ⟨_, -, h⟩ := Except.bind_eq_ok.mp h
  obtain ⟨_, -, h⟩ := Except.bind_eq_ok.mp h
  obtain ⟨used, hused, h⟩ := Except.bind_eq_ok.mp h
  obtain ⟨total, htotal, h⟩ := Except.bind_eq_ok.mp h
  obtain ⟨_, -, h⟩ := Except.bind_eq_ok.mp h
  obtain ⟨_, -, h⟩ := Except.bind_eq_ok.mp h
  obtain ⟨_, -, h⟩ := Except.bind_eq_ok.mp h
  rw [← Except.ok.inj h]
  have hcost : (r.costUsd.filter fun x => x.IsFinite) = r.costUsd := by
    cases hx : r.costUsd with
    | none => rfl
    | some x => rw [Option.filter_some, if_pos (decide_eq_true (hr.cost x hx))]
  simp only [Session.usage, Session.jsonable, SessionRow.usage, tokens_of_getU64 hused hr.used,
    tokens_of_getU64 htotal hr.total, hcost]

/-- A dashboard that has just been opened agrees with the database. -/
theorem Followed.agrees_fromSnapshot {d : Db} (hd : Reachable d) {params snap : Value}
    (hsnap : Read.dispatch Method.stateSnapshot params d = some snap) :
    Followed.Agrees ⟨d, .fromSnapshot snap⟩ := by
  intro id row hrow _
  obtain ⟨hmem, hid⟩ := KeyedTable.find?_eq_some.mp hrow
  obtain ⟨t, ht, hshown⟩ := exists_mem_fromSnapshot hsnap hmem
  have hparse := (rowToSession_ok ht).2.id
  rw [hid, Uuid.parseStr_toText, Option.some.injEq] at hparse
  have hnodup := idsNodup_fromSnapshot hsnap (canonicalIds_of_reachable hd)
  rw [← usage_of_rowToSession ht (soundUsage_of_reachable hd row hmem), hparse]
  exact congrArg (Option.map Session.usage) (TuiState.find?_of_mem hnodup hshown)

/-- **A dashboard shows the usage of every live session as its row has it, in every state of a run
of reports, exactly when none of them leaves out something the row has.** -/
theorem usageAgrees_iff {d : Db} (hd : Reachable d) {params snap : Value}
    (hsnap : Read.dispatch Method.stateSnapshot params d = some snap) (l : List UsageReport) :
    Machine.Throughout Followed.step Followed.Agrees ⟨d, .fromSnapshot snap⟩ l ↔
      Machine.Along Followed.step (fun s r => ¬Blanks s.db r) ⟨d, .fromSnapshot snap⟩ l :=
  Machine.throughout_iff_along Followed.agrees_step_iff l _ (Followed.agrees_fromSnapshot hd hsnap)

/-- Opencode discovers a session. -/
def discovered : List Input :=
  [⟨.discover "opencode" "main" "%1" "/home/u/proj", .noon (.ofTimeLow 1) 2026⟩]

/-- The dashboard that is opened then. -/
def dashboard : Followed where
  db := Machine.run next Db.fresh discovered
  st := .fromSnapshot (snapshotOf (Machine.run next Db.fresh discovered))

/-- The owner reports usage. -/
def reportUsage (fields : List (String × Value)) : UsageReport where
  plugin := "opencode"
  params := .object [("payload", .object fields), ("session_id", .string (Uuid.ofTimeLow 1).toText),
    ("type", .string "session.usage_updated")]
  amb := .noon (.ofTimeLow 2) 2026
  now := 0
  kind := rfl

set_option maxRecDepth 4000 in
/-- The first report of a session is shown as it is stored. -/
theorem usageAgrees_first :
    Machine.Throughout Followed.step Followed.Agrees dashboard
      [reportUsage [("used", .ofU64 10), ("cost_usd", .ofU64 1)]] := by
  have hnone : ∀ row ∈ dashboard.db.sessions.rows,
      row.contextUsedTokens = none ∧ row.contextTotalTokens = none ∧ row.costUsd = none := by decide
  refine (usageAgrees_iff (Machine.reachable_run Db.fresh discovered)
    (dispatch_snapshotOf (by decide)) _).mpr ⟨?_, trivial⟩
  rintro ⟨rep, row, hrep, -, -, hcovers⟩
  obtain ⟨hused, htotal, hcost⟩ := hnone row hrep.mem
  exact hcovers ⟨fun _ => hused, fun _ => htotal, fun _ => hcost⟩

/-- Its owner reports one count, and then the other. -/
def partialReports : List UsageReport :=
  [reportUsage [("used", .ofU64 10)], reportUsage [("total", .ofU64 100)]]

set_option maxRecDepth 4000 in
/-- A dashboard keeps a count that a later report has blanked in the database. -/
theorem not_usageAgrees_partial :
    ¬∀ d, Reachable d → ∀ params snap, Read.dispatch Method.stateSnapshot params d = some snap →
      ∀ l, (Machine.run Followed.step ⟨d, .fromSnapshot snap⟩ l).Agrees := by
  intro h
  have hagrees : (Machine.run Followed.step dashboard partialReports).Agrees :=
    h _ (Machine.reachable_run Db.fresh discovered) .null _ (dispatch_snapshotOf (by decide)) _
  have hrows : ∀ row ∈ (Machine.run Followed.step dashboard partialReports).db.sessions.rows,
      row.status ≠ "finished" ∧ row.contextUsedTokens = none := by decide
  have hsome : ((Machine.run Followed.step dashboard partialReports).db.row?
      (.ofTimeLow 1)).isSome := by decide
  have hshown : ((Machine.run Followed.step dashboard partialReports).st.usage?
      (.ofTimeLow 1)).bind Usage.used = some 10 := by decide
  obtain ⟨row, hrow⟩ := Option.isSome_iff_exists.mp hsome
  obtain ⟨hlive, hnone⟩ := hrows row (KeyedTable.find?_eq_some.mp hrow).1
  rw [hagrees _ row hrow hlive, Option.bind_some, SessionRow.usage, hnone] at hshown
  cases hshown

end Agentd
