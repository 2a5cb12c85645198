import Agentd.Handlers.Footprint

/-!
# Write authority

A plugin can report on any session, but only the owner's reports change the row. This
is noninterference between plugins: `Agentd.foreignRows_eq_of_thinned` says that from any
database, deleting any of a plugin's reports from a run leaves the rows it does not own as
they are, column by column.

The observer sees the rows that are not the plugin's in full, and of the plugin's
own rows what the constraints of the table look at: `Agentd.SessionRow.seen`. What a step
shows it follows from what it saw before (`Agentd.seenRows_next`), since owner, key and
binding of a row never change, and a report of the plugin shows it nothing
(`Agentd.seenRows_next_of_report`).
-/

namespace Agentd

open Json

/-- A report by the plugin `q`. -/
def Input.IsReportOf (q : String) (i : Input) : Prop :=
  ∃ params, i.request = .plugin q Method.sessionReportEvent params

/-- The rows of the sessions that `q` does not own, those without an owner included. -/
def Db.foreignRows (q : String) (db : Db) : List SessionRow :=
  db.sessions.rows.filter fun row => row.owner ≠ some q

/-- What is seen of a row: key and binding, and the row itself unless `q` owns it. -/
structure Seen where
  id : String
  pane : Option (String × String)
  row : Option SessionRow

/-- What is seen of a row by those who do not see the columns of `q`'s sessions. -/
def SessionRow.seen (q : String) (row : SessionRow) : Seen where
  id := row.id
  pane := row.pane
  row := if row.owner = some q then none else some row

/-- What is seen of the table. -/
def Db.seenRows (q : String) (db : Db) : List Seen :=
  db.sessions.rows.map (SessionRow.seen q)

theorem foreignRows_eq_filterMap (q : String) (db : Db) :
    db.foreignRows q = (db.seenRows q).filterMap Seen.row := by
  rw [Db.foreignRows, Db.seenRows, List.filterMap_map, ← List.filterMap_eq_filter]
  refine List.filterMap_congr fun row _ => ?_
  by_cases h : row.owner = some q <;> simp [SessionRow.seen, Option.guard, h]

/-! ### What one request shows

Somebody who sees all rows but those of one plugin sees the keys and the panes of these as well,
since an insertion can fail on them. What a request makes of what is seen depends on nothing else.
-/

/-- The edit of a row, as far as it is seen. -/
theorem seen_edit (q : String) (i : Input) (row : SessionRow) :
    (i.edit row).seen q = { row.seen q with row := (row.seen q).row.map i.edit } := by
  unfold SessionRow.seen
  rw [i.edit_id, i.edit_pane, i.edit_owner]
  split_ifs <;> rfl

/-- Whether a row can be inserted is decided by what is seen of the others. -/
theorem insert?_isSome_of_seenRows {q : String} {db₁ db₂ : Db} (h : db₁.seenRows q = db₂.seenRows q)
    {row : SessionRow} {t : SessionTable} (ht : db₁.sessions.insert? row = some t) :
    ∃ u, db₂.sessions.insert? row = some u := by
  cases hu : db₂.sessions.insert? row with
  | some u => exact ⟨u, rfl⟩
  | none =>
    obtain ⟨r₂, hr₂, hconflict⟩ := KeyedTable.insert?_eq_none.mp hu
    have hmem : r₂.seen q ∈ db₁.seenRows q := h ▸ List.mem_map_of_mem hr₂
    obtain ⟨r₁, hr₁, heq⟩ := List.mem_map.mp hmem
    have hid : r₁.id = r₂.id := congrArg Seen.id heq
    have hpane : r₁.pane = r₂.pane := congrArg Seen.pane heq
    refine absurd ?_ ((KeyedTable.insert?_eq_some.mp ht).1 r₁ hr₁)
    unfold KeyedTable.Conflict at hconflict ⊢
    rwa [hid, hpane]

/-- An insertion that succeeds here succeeds there. -/
theorem insertSession_of_seenRows {q : String} {db₁ db₂ : Db}
    (h : db₁.seenRows q = db₂.seenRows q) {s : Session} {row : SessionRow} {t : SessionTable}
    (hrow : sessionToRow s = .ok row) (ht : db₁.sessions.insert? row = some t) :
    ¬∃ e, db₂.insertSession s = .error e := by
  obtain ⟨u, hu⟩ := insert?_isSome_of_seenRows h ht
  have hins := insertSession_eq_ok.mpr ⟨row, u, hrow, hu, rfl⟩
  rintro ⟨e, he⟩
  rw [hins] at he
  cases he

/-- **What a request shows follows from what was seen before.** -/
theorem seenRows_next (q : String) (db₁ db₂ : Db) (i : Input)
    (h : db₁.seenRows q = db₂.seenRows q) : (next db₁ i).seenRows q = (next db₂ i).seenRows q := by
  have hedit (db : Db) (hrows : (next db i).sessions.rows = db.sessions.rows.map i.edit) :
      (next db i).seenRows q =
        (db.seenRows q).map fun v => { v with row := v.row.map i.edit } := by
    rw [Db.seenRows, hrows, Db.seenRows, List.map_map, List.map_map]
    exact List.map_congr_left fun row _ => seen_edit q i row
  have hinsert (db : Db) {row : SessionRow}
      (ht : db.sessions.insert? row = some (next db i).sessions) :
      (next db i).seenRows q = db.seenRows q ++ [row.seen q] := by
    rw [Db.seenRows, (KeyedTable.insert?_eq_some.mp ht).2, List.map_append, Db.seenRows,
      List.map_singleton]
  rcases next_rows db₁ i with ⟨hfail₁, hrows₁⟩ | ⟨s₁, row₁, hs₁, hrow₁, ht₁⟩ <;>
    rcases next_rows db₂ i with ⟨hfail₂, hrows₂⟩ | ⟨s₂, row₂, hs₂, hrow₂, ht₂⟩
  · rw [hedit db₁ hrows₁, hedit db₂ hrows₂, h]
  · exact absurd (hfail₁ s₂ hs₂) (insertSession_of_seenRows h.symm hrow₂ ht₂)
  · exact absurd (hfail₂ s₁ hs₁) (insertSession_of_seenRows h hrow₁ ht₁)
  · rw [hs₁, Option.some.injEq] at hs₂
    subst hs₂
    rw [hrow₁, Except.ok.injEq] at hrow₂
    subst hrow₂
    rw [hinsert db₁ ht₁, hinsert db₂ ht₂, h]

/-- **A report of `q` shows nothing**: it changes a row only when `q` owns it. -/
theorem seenRows_next_of_report (q : String) (db : Db) (i : Input) (hi : i.IsReportOf q) :
    (next db i).seenRows q = db.seenRows q := by
  obtain ⟨params, hreq⟩ := hi
  have hnew : i.newSession? = none := by
    rw [Input.newSession?, hreq]
    rfl
  rcases next_rows db i with ⟨-, hrows⟩ | ⟨s, row, hs, -⟩
  · rw [Db.seenRows, hrows, List.map_map, Db.seenRows]
    refine List.map_congr_left fun row hrow => ?_
    rw [Function.comp_apply, seen_edit]
    cases hc : i.change? row with
    | none =>
      have hedit : (row.seen q).row.map i.edit = (row.seen q).row := by
        unfold SessionRow.seen
        split_ifs
        · rfl
        · rw [Option.map_some, Input.edit_of_change?_eq_none hc]
      rw [hedit]
    | some c =>
      -- a plugin changes the rows it owns, and no others
      have howner : row.owner = some q := Input.owner_of_change? hreq hc
      simp [SessionRow.seen, howner]
  · rw [hnew] at hs
    cases hs

/-! ### Runs

The rule for deleted inputs is applied to the reports of the plugin: each of them shows nothing,
whether it is accepted or refused. -/

/-- **Noninterference between plugins.** From any database, deleting any of `q`'s reports from a run
leaves the rows that `q` does not own as they are, in all their columns and in their order. Nothing
is assumed of the reports: they may be accepted, refused, or about sessions of other plugins. -/
theorem foreignRows_eq_of_thinned (q : String) (db : Db) {l l' : List Input}
    (h : Machine.Thinned (Input.IsReportOf q) l l') :
    (Machine.run next db l).foreignRows q = (Machine.run next db l').foreignRows q := by
  rw [foreignRows_eq_filterMap, foreignRows_eq_filterMap]
  rw [h.obs_run (seenRows_next q) (seenRows_next_of_report q) rfl]

/-- A session of each of two plugins, and a report of one of them. -/
def twoPlugins : List Input :=
  [⟨.discover "codex" "main" "%1" "/home/u/a", .noon (.ofTimeLow 1) 2026⟩,
   ⟨.discover "opencode" "main" "%2" "/home/u/b", .noon (.ofTimeLow 2) 2026⟩,
   ⟨.reportStatus "opencode" (.ofTimeLow 2) "working", .noon (.ofTimeLow 3) 2026⟩]

set_option maxRecDepth 2000 in
/-- Without opencode's report the row of codex is the same, and the row of opencode is
not. -/
theorem foreignRows_twoPlugins :
    (Machine.run next Db.fresh twoPlugins).foreignRows "opencode" =
        (Machine.run next Db.fresh (twoPlugins.take 2)).foreignRows "opencode" ∧
      (Machine.run next Db.fresh twoPlugins).sessions.rows.map SessionRow.status =
        ["starting", "working"] ∧
      (Machine.run next Db.fresh (twoPlugins.take 2)).sessions.rows.map SessionRow.status =
        ["starting", "starting"] := by
  have hthinned : Machine.Thinned (Input.IsReportOf "opencode") twoPlugins (twoPlugins.take 2) :=
    .keep _ (.keep _ (.delete ⟨_, rfl⟩ .nil))
  exact ⟨foreignRows_eq_of_thinned "opencode" Db.fresh hthinned, by decide, by decide⟩

end Agentd
