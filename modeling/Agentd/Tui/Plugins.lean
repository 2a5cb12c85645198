import Agentd.Tui.Stream

/-!
# The plugins on the screen

A plugin that says hello has its row written, and an event goes out with all that the row has of it
but the times. What the row says follows from the name, so an event that is applied twice, or was in
the snapshot, does no harm: once nothing is on the way any more, the dashboard lists the plugins of
the database (`Agentd.Feed.plugins_run`). Nobody emits `plugin.disconnected`, and no plugin is ever
deleted: whatever the dashboard has missed, a plugin that it lists is there.

The set of the plugins is monotone, and this makes it simpler than the list of the sessions: nothing
that comes twice or late can do harm, and nothing has to be known about the order.
-/

namespace Agentd

open Json

/-! ### The rows

A plugin is listed by its name, with the path of its binary and the name of its socket, and all
three are functions of the name (`plugin_hello` makes them up). So a set of plugins is determined by
a set of names, which the sets below are seen to be throughout (`Canonical`). -/

/-- The plugin of a name, as `plugin.hello` writes it. -/
def Tui.Plugin.ofName (name : String) : Tui.Plugin where
  name := name
  binary := "agentd-plugin-" ++ name
  socketName := name ++ ".sock"

/-- What a dashboard has of a row. -/
def PluginRow.plugin (row : PluginRow) : Tui.Plugin where
  name := row.name
  binary := row.binary
  socketName := row.socketName

/-- The plugins of the database. -/
def Db.pluginSet (db : Db) : Set Tui.Plugin :=
  {p | p ∈ db.plugins.rows.map PluginRow.plugin}

/-- The plugins on the screen. -/
def TuiState.pluginSet (st : TuiState) : Set Tui.Plugin :=
  {p | p ∈ st.plugins}

/-- Each plugin is the one of its name. -/
def Canonical (plugins : Set Tui.Plugin) : Prop :=
  ∀ p ∈ plugins, p = .ofName p.name

/-- The plugin that says hello, and is let in. -/
def Input.hello? (i : Input) : Option String :=
  match i.request with
  | .control _ _ => none
  | .plugin name method params =>
    if method = Method.pluginHello ∧ params.getStr "name" = some name then some name else none

/-- The event about a plugin that says hello. -/
def Event.connects? (event : Event) : Option Tui.Plugin :=
  if event.kind = "plugin.connected" then Tui.Plugin.fromValue event.payload else none

/-! ### What a request does to the plugins

Two requests could be thought to touch the table of the plugins; in fact it is the greeting alone.
All others spare it, and their events connect nobody. -/

/-- Nothing, and nobody is told so. -/
structure Outcome.SparesPlugins (o : Outcome) (db : Db) : Prop where
  plugins : o.db.plugins = db.plugins
  events : ∀ e ∈ o.events, e.kind ≠ "plugin.connected" ∧ e.kind ≠ "plugin.disconnected"

/-- A refusal changes nothing and says nothing. -/
theorem sparesPlugins_refuse (db : Db) (e : ProtocolError) : (refuse db e).SparesPlugins db :=
  ⟨rfl, by simp [refuse]⟩

/-- An `UPDATE` of a session leaves the table of the plugins alone, whichever columns it sets. -/
theorem plugins_updateSession {db db' : Db} {id : Uuid} {f : SessionRow → SessionRow}
    {hf : KeyedTable.Keeps SessionRow.id SessionRow.pane f}
    (h : db.updateSession id f hf = .ok db') : db'.plugins = db.plugins := by
  unfold Db.updateSession at h
  split at h
  · cases h
  · rw [← Except.ok.inj h]

/-- The insertion of a session leaves the table of the plugins alone. -/
theorem plugins_insertSession {db db' : Db} {s : Session} (h : db.insertSession s = .ok db') :
    db'.plugins = db.plugins := by
  obtain ⟨row, t, -, -, rfl⟩ := insertSession_eq_ok.mp h
  rfl

/-- So does the one update that can fail for what it binds. -/
theorem plugins_updateUsage {db db' : Db} {id : Uuid} {used total : Option UInt64}
    {cost : Option F64} {at_ : Rfc3339.DateTime}
    (h : db.updateUsage id used total cost at_ = .ok db') : db'.plugins = db.plugins := by
  unfold Db.updateUsage at h
  split at h
  · exact plugins_updateSession h
  · cases h
  · cases h

/-- What is logged is in a table of its own. -/
theorem plugins_insertEvent {db : Db} {id : Uuid} {kind : String} {payload : Value}
    {now : Option String} {out : ℕ × Db} (h : db.insertEvent id kind payload now = .ok out) :
    out.2.plugins = db.plugins := by
  unfold Db.insertEvent at h
  split at h
  · cases h
  · split at h
    · cases h
    · rw [← Except.ok.inj h]

/-- One event at most, of another kind. -/
theorem sparesPlugins_of_event {o : Outcome} {db : Db} {e : Event}
    (hplugins : o.db.plugins = db.plugins) (hevents : o.events = [e])
    (hkind : e.kind ≠ "plugin.connected" ∧ e.kind ≠ "plugin.disconnected") :
    o.SparesPlugins db where
  plugins := hplugins
  events other hother := by
    rw [hevents, List.mem_singleton] at hother
    exact hother ▸ hkind

section Handlers

variable (params : Value) (db : Db) (amb : Ambient)

/-- **No client of the control socket adds or removes a plugin.** -/
theorem sparesPlugins_control (method : String) :
    (Mutate.dispatch method params db amb).SparesPlugins db := by
  have hrefuse := sparesPlugins_refuse db
  unfold Mutate.dispatch
  split_ifs
  · unfold Mutate.sessionCreate
    split
    · exact hrefuse _
    · split
      · exact hrefuse _
      · dsimp only
        split
        · exact hrefuse _
        · rename_i db' hins
          exact sparesPlugins_of_event (plugins_insertSession hins) rfl (by simp)
  · unfold Mutate.sessionRename
    split
    · exact hrefuse _
    · split
      · exact hrefuse _
      · split
        · exact hrefuse _
        · split
          · exact hrefuse _
          · rename_i db' hupdate
            exact sparesPlugins_of_event (plugins_updateSession hupdate) rfl (by simp)
  · unfold Mutate.sessionDismissError
    split
    · exact hrefuse _
    · split_ifs
      · exact hrefuse _
      · split
        · exact hrefuse _
        · rename_i db' hupdate
          exact sparesPlugins_of_event (plugins_updateSession hupdate) rfl (by simp)
  · unfold Mutate.sessionJump
    split
    · exact hrefuse _
    · split
      · exact hrefuse _
      · dsimp only
        split_ifs
        · exact sparesPlugins_of_event rfl rfl (by simp)
        · exact ⟨rfl, (hrefuse .sessionNotFound).events⟩
  · unfold Mutate.sessionKill
    split
    · exact hrefuse _
    · split_ifs
      · exact hrefuse _
      · dsimp only
        split
        · exact ⟨rfl, (hrefuse .internalError).events⟩
        · rename_i db' hupdate
          exact sparesPlugins_of_event (plugins_updateSession hupdate) rfl (by simp)
  · exact sparesPlugins_of_event rfl rfl (by simp)
  · exact hrefuse _

/-- A report changes a session or nothing, whatever its kind is. -/
theorem sparesPlugins_applyReport (rep : Plugin.Report) (eventId : ℕ) :
    (Plugin.applyReport rep db eventId amb).SparesPlugins db := by
  have hrefuse := sparesPlugins_refuse db
  have haccept : (Plugin.accept db eventId []).SparesPlugins db := ⟨rfl, by simp [Plugin.accept]⟩
  unfold Plugin.applyReport
  split_ifs
  · split
    · exact haccept
    · split
      · exact hrefuse _
      · split
        · exact hrefuse _
        · rename_i db' hupdate
          exact sparesPlugins_of_event (plugins_updateSession hupdate) rfl (by simp)
  · split
    · exact haccept
    · split
      · exact hrefuse _
      · rename_i db' hupdate
        exact sparesPlugins_of_event (plugins_updateSession hupdate) rfl (by simp)
  · dsimp only
    split
    · exact hrefuse _
    · rename_i db' hupdate
      exact sparesPlugins_of_event (plugins_updateUsage hupdate) rfl (by simp)
  · split
    · exact hrefuse _
    · rename_i db' hupdate
      exact sparesPlugins_of_event (plugins_updateSession hupdate) rfl (by simp)
  · exact haccept

/-- A report spares the plugins also where it is refused, or fails after it has been logged. -/
theorem sparesPlugins_reportEvent (name : String) :
    (Plugin.sessionReportEvent params db name amb).SparesPlugins db := by
  have hrefuse := sparesPlugins_refuse db
  unfold Plugin.sessionReportEvent
  split
  · exact hrefuse _
  · split
    · exact hrefuse _
    · exact hrefuse _
    · split_ifs
      · exact hrefuse _
      · split
        · exact hrefuse _
        · rename_i eventId db' hinsert
          exact ⟨(sparesPlugins_applyReport db' amb _ eventId).plugins.trans
            (plugins_insertEvent hinsert), (sparesPlugins_applyReport db' amb _ eventId).events⟩

end Handlers

/-- A discovery names the plugin as the owner of the session, and does not enter it. -/
theorem sparesPlugins_discover (params : Value) (db : Db) (name : String) (amb : Ambient) :
    (Plugin.sessionDiscover params db name amb).SparesPlugins db := by
  have hrefuse := sparesPlugins_refuse db
  unfold Plugin.sessionDiscover
  split
  · exact hrefuse _
  · split
    · exact hrefuse _
    · split
      · exact hrefuse _
      · split
        · exact hrefuse _
        · dsimp only
          split
          · exact hrefuse _
          · rename_i db' hins
            exact sparesPlugins_of_event (plugins_insertSession hins) rfl (by simp)

/-- **Nobody but a plugin that says hello does anything to the plugins.** -/
theorem sparesPlugins_handle {db : Db} {i : Input} (h : i.hello? = none) :
    (handle db i).SparesPlugins db := by
  obtain ⟨request, amb⟩ := i
  cases request with
  | control method params => exact sparesPlugins_control params db amb method
  | plugin name method params =>
    change (Plugin.dispatch method params db name amb).SparesPlugins db
    unfold Plugin.dispatch
    split_ifs with hhello
    · -- it gives a name that is not its own, or none
      have hname : params.getStr "name" ≠ some name := by
        intro hname
        rw [Input.hello?] at h
        dsimp only at h
        rw [if_pos ⟨hhello, hname⟩] at h
        cases h
      unfold Plugin.pluginHello
      split
      · exact sparesPlugins_refuse db _
      · rename_i other hother
        rw [if_pos fun heq => hname (hother.trans (congrArg some heq))]
        exact sparesPlugins_refuse db _
    · exact sparesPlugins_discover params db name amb
    · exact sparesPlugins_reportEvent params db amb name
    · exact ⟨rfl, by simp [Plugin.pluginHeartbeat]⟩
    · exact ⟨rfl, by simp [Plugin.pluginBye]⟩
    · exact sparesPlugins_refuse db _

/-- A plugin that says hello has its row written, and is announced. -/
theorem handle_of_hello {db : Db} {i : Input} {name : String} (h : i.hello? = some name) :
    (next db i).plugins = ((db.upsertPlugin name ("agentd-plugin-" ++ name) (name ++ ".sock")
        true).setLastConnected name i.amb.rowNow).plugins ∧
      ∃ e : Event, (handle db i).events = [e] ∧ e.connects? = some (.ofName name) ∧
        e.kind = "plugin.connected" := by
  obtain ⟨request, amb⟩ := i
  cases request with
  | control method params => cases h
  | plugin other method params =>
    rw [Input.hello?] at h
    dsimp only at h
    split_ifs at h with hhello
    obtain rfl := Option.some.inj h
    obtain ⟨rfl, hname⟩ := hhello
    have hhandle : handle db ⟨.plugin other Method.pluginHello params, amb⟩ =
        Plugin.pluginHello params db other amb := by
      change Plugin.dispatch _ _ _ _ _ = _
      rw [Plugin.dispatch, if_pos rfl]
    unfold next
    rw [hhandle]
    unfold Plugin.pluginHello
    rw [hname]
    dsimp only
    rw [if_neg (not_not.mpr rfl)]
    exact ⟨rfl, _, rfl, rfl, rfl⟩

/-! ### The plugins of a run

The plugins of the table are those that have said hello, and the events of these greetings announce
the same ones. So a dashboard that has seen some of the table and the events since knows them all,
however often the one and the others overlap. -/

/-- The plugins that said hello. -/
def greeted (l : List Input) : Set Tui.Plugin :=
  {p | ∃ i ∈ l, ∃ name ∈ i.hello?, p = .ofName name}

/-- Who has greeted in a run has greeted in its first request or later. -/
theorem greeted_cons (i : Input) (l : List Input) :
    greeted (i :: l) = {p | ∃ name ∈ i.hello?, p = .ofName name} ∪ greeted l := by
  ext p
  simp [greeted]

/-- So a run can be cut where one likes. -/
theorem greeted_append (l₁ l₂ : List Input) : greeted (l₁ ++ l₂) = greeted l₁ ∪ greeted l₂ := by
  ext p
  simp [greeted, or_and_right, exists_or]

/-- Sets of plugins that are determined by their names can be put together. -/
theorem canonical_union {A B : Set Tui.Plugin} (hA : Canonical A) (hB : Canonical B) :
    Canonical (A ∪ B) := by
  rintro p (hp | hp)
  · exact hA p hp
  · exact hB p hp

/-- Who has greeted is entered as his name says. -/
theorem canonical_greeted (l : List Input) : Canonical (greeted l) := by
  rintro p ⟨i, -, name, -, rfl⟩
  rfl

/-- A change of a row that leaves the plugin as it is. -/
theorem pluginSet_setPlugin {db : Db} {name : String} {f : PluginRow → PluginRow}
    {hf : KeyedTable.Keeps PluginRow.name (fun _ => (none : Option Unit)) f}
    (h : ∀ row ∈ db.plugins.rows, row.name = name → (f row).plugin = row.plugin) :
    (db.setPlugin name f hf).pluginSet = db.pluginSet := by
  have hmap : (db.setPlugin name f hf).plugins.rows.map PluginRow.plugin =
      db.plugins.rows.map PluginRow.plugin := by
    change (db.plugins.rows.map _).map _ = _
    rw [List.map_map]
    refine List.map_congr_left fun row hrow => ?_
    dsimp only [Function.comp_apply]
    split_ifs with hname
    · exact h row hrow hname
    · rfl
  unfold Db.pluginSet
  rw [hmap]

/-- **A greeting adds the plugin to the table**, or finds it there already; the time of the
connection is no part of what is listed. -/
theorem pluginSet_of_hello {db : Db} (h : Canonical db.pluginSet) (name : String)
    (ts : Rfc3339.DateTime) :
    ((db.upsertPlugin name ("agentd-plugin-" ++ name) (name ++ ".sock")
      true).setLastConnected name ts).pluginSet = db.pluginSet ∪ {.ofName name} := by
  have hlast (db : Db) : (db.setLastConnected name ts).pluginSet = db.pluginSet :=
    pluginSet_setPlugin fun _ _ _ => rfl
  rw [hlast]
  unfold Db.upsertPlugin
  split
  · rename_i plugins hins
    ext p
    unfold Db.pluginSet
    rw [(KeyedTable.insert?_eq_some.mp hins).2, List.map_append]
    simp [PluginRow.plugin, Tui.Plugin.ofName, or_comm]
  · rename_i hins
    -- the row of the name says what it is made to say
    have hrow : ∀ row ∈ db.plugins.rows, row.name = name → row.plugin = .ofName name := by
      rintro row hrow rfl
      exact h row.plugin (List.mem_map_of_mem hrow)
    obtain ⟨row, hmem, hkey | ⟨hnone, -⟩⟩ := KeyedTable.insert?_eq_none.mp hins
    · refine (pluginSet_setPlugin fun row hmem hname => ?_).trans ?_
      · rw [hrow row hmem hname, ← hname]
        rfl
      · refine (Set.union_eq_self_of_subset_right ?_).symm
        rintro p rfl
        exact List.mem_map.mpr ⟨row, hmem, hrow row hmem hkey.symm⟩
    · cases hnone

/-- One request adds whoever greets in it. -/
theorem pluginSet_next {db : Db} (h : Canonical db.pluginSet) (i : Input) :
    (next db i).pluginSet = db.pluginSet ∪ {p | ∃ name ∈ i.hello?, p = .ofName name} := by
  cases hhello : i.hello? with
  | none =>
    have hplugins : (next db i).plugins = db.plugins := (sparesPlugins_handle hhello).plugins
    unfold Db.pluginSet
    rw [hplugins]
    simp
  | some name =>
    have hset := pluginSet_of_hello h name i.amb.rowNow
    unfold Db.pluginSet at hset ⊢
    rw [(handle_of_hello hhello).1, hset]
    ext p
    simp

/-- **The plugins of the database are those that said hello.** -/
theorem pluginSet_run (l : List Input) : ∀ {db : Db}, Canonical db.pluginSet →
    (Machine.run next db l).pluginSet = db.pluginSet ∪ greeted l := by
  induction l with
  | nil =>
    intro db _
    simp [greeted]
  | cons i l ih =>
    intro db h
    have hnext := pluginSet_next h i
    have hcanonical : Canonical (next db i).pluginSet := by
      rw [hnext]
      refine canonical_union h ?_
      rintro p ⟨name, -, rfl⟩
      rfl
    rw [Machine.run_cons, ih hcanonical, hnext, greeted_cons, Set.union_assoc]

/-- The plugins that are announced. -/
def announced (events : List Event) : Set Tui.Plugin :=
  {p | ∃ e ∈ events, e.connects? = some p}

/-- The plugins that are announced are those that say hello, and nobody is said to have gone. -/
theorem announced_emitted (l : List Input) : ∀ db : Db, announced (emitted db l) = greeted l ∧
    ∀ e ∈ emitted db l, e.kind ≠ "plugin.disconnected" := by
  induction l with
  | nil =>
    intro db
    exact ⟨by simp [announced, greeted, emitted], by simp [emitted]⟩
  | cons i l ih =>
    intro db
    obtain ⟨hset, hkind⟩ := ih (next db i)
    have happend : announced (emitted db (i :: l)) =
        announced (handle db i).events ∪ greeted l := by
      rw [← hset]
      ext p
      simp [announced, or_and_right, exists_or]
    rw [happend, greeted_cons, emitted_cons]
    cases hhello : i.hello? with
    | none =>
      have hspares : (handle db i).SparesPlugins db := sparesPlugins_handle hhello
      have hnone : announced (handle db i).events = ∅ := by
        ext p
        refine iff_of_false ?_ (Set.notMem_empty p)
        rintro ⟨e, he, hp⟩
        unfold Event.connects? at hp
        rw [if_neg (hspares.events e he).1] at hp
        cases hp
      refine ⟨by rw [hnone]; simp, fun e he => ?_⟩
      rcases List.mem_append.mp he with he | he
      · exact (hspares.events e he).2
      · exact hkind e he
    | some name =>
      have hgreets : ∃ e : Event, (handle db i).events = [e] ∧
          e.connects? = some (.ofName name) ∧ e.kind = "plugin.connected" :=
        (handle_of_hello hhello).2
      obtain ⟨event, hevents, hconnects, hevent⟩ := hgreets
      have hone : announced (handle db i).events =
          {p | ∃ other ∈ some name, p = .ofName other} := by
        ext p
        simp [announced, hevents, hconnects, eq_comm]
      refine ⟨by rw [hone], fun e he => ?_⟩
      rcases List.mem_append.mp he with he | he
      · rw [hevents, List.mem_singleton] at he
        rw [he, hevent]
        decide
      · exact hkind e he

/-! ### The plugins on the screen

The reducer removes a plugin at `plugin.disconnected`, which the daemon never emits, and adds one at
`plugin.connected`, unless it has one of this name. As a name determines the plugin, that is to add
it to a set. -/

namespace TuiState

/-- The first plugin of the name, replaced by what it is. -/
theorem modifyFirst_self {p : Tui.Plugin} (l : List Tui.Plugin)
    (h : ∀ x ∈ l, x.name = p.name → x = p) :
    modifyFirst (fun x => x.name = p.name) (fun _ => p) l = l := by
  induction l with
  | nil => rfl
  | cons a l ih =>
    rw [List.forall_mem_cons] at h
    rw [modifyFirst]
    split_ifs with hname
    · rw [h.1 (of_decide_eq_true hname)]
    · rw [ih h.2]

/-- Only an event about the plugins changes them. -/
theorem plugins_applyEvent (st : TuiState) (now : Instant) {event : Event}
    (hconnected : event.kind ≠ "plugin.connected")
    (hdisconnected : event.kind ≠ "plugin.disconnected") :
    (st.applyEvent now event).plugins = st.plugins := by
  unfold applyEvent
  dsimp only
  split_ifs
  · unfold applyCreated
    split
    · rfl
    · dsimp only
      split_ifs <;> rfl
  · unfold applyRenamed
    split
    · split_ifs <;> rfl
    · rfl
  · unfold applyEnded
    split <;> rfl
  · unfold applyStatusChanged
    split
    · unfold setStatus
      split_ifs <;> rfl
    · rfl
  · unfold applyDismissed
    split
    · unfold setStatus
      split_ifs <;> rfl
    · rfl
  · unfold applyTaskChanged
    split
    · split_ifs <;> rfl
    · rfl
  · unfold applyUsageUpdated
    split <;> rfl
  · rfl

/-- **An event adds the plugin it connects to the screen.** -/
theorem pluginSet_applyEvent {st : TuiState} (h : Canonical st.pluginSet) (now : Instant)
    {event : Event} (hevent : ∀ p ∈ event.connects?, p = .ofName p.name)
    (hkind : event.kind ≠ "plugin.disconnected") :
    (st.applyEvent now event).pluginSet = st.pluginSet ∪ {p | event.connects? = some p} := by
  by_cases hconnected : event.kind = "plugin.connected"
  · have happly : (st.applyEvent now event).plugins = (st.applyPluginConnected event).plugins := by
      simp [applyEvent, hconnected]
    have hconnects : event.connects? = Tui.Plugin.fromValue event.payload := if_pos hconnected
    unfold pluginSet
    rw [happly, applyPluginConnected, hconnects]
    cases hp : Tui.Plugin.fromValue event.payload with
    | none => simp
    | some p =>
      have hname := hevent p (hconnects.trans hp)
      dsimp only
      split_ifs with hany
      · -- the list has it already
        have hsame : ∀ x ∈ st.plugins, x.name = p.name → x = p := fun x hx hxname => by
          rw [h x hx, hname, hxname]
        rw [modifyFirst_self st.plugins hsame]
        obtain ⟨x, hx, hxname⟩ := List.any_eq_true.mp hany
        obtain rfl := hsame x hx (of_decide_eq_true hxname)
        refine (Set.union_eq_self_of_subset_right ?_).symm
        rintro q hq
        exact Option.some.inj hq ▸ hx
      · ext q
        simp [or_comm, eq_comm]
  · have hnone : event.connects? = none := if_neg hconnected
    unfold pluginSet
    rw [plugins_applyEvent st now hconnected hkind, hnone]
    simp

/-- So do any number of them, by induction, and the plugins there stay. -/
theorem pluginSet_applyEvents (events : List (Instant × Event)) : ∀ {st : TuiState},
    Canonical st.pluginSet → Canonical (announced (events.map Prod.snd)) →
    (∀ e ∈ events, e.2.kind ≠ "plugin.disconnected") →
    (st.applyEvents events).pluginSet = st.pluginSet ∪ announced (events.map Prod.snd) := by
  induction events with
  | nil =>
    intro st _ _ _
    simp [applyEvents, announced]
  | cons e events ih =>
    intro st h hall hkinds
    rw [List.forall_mem_cons] at hkinds
    have hcons : announced ((e :: events).map Prod.snd) =
        {p | e.2.connects? = some p} ∪ announced (events.map Prod.snd) := by
      ext p
      simp [announced]
    rw [hcons] at hall ⊢
    have hset := pluginSet_applyEvent h e.1 (fun p hp => hall p (Or.inl hp)) hkinds.1
    have hcanonical : Canonical (st.applyEvent e.1 e.2).pluginSet := by
      rw [hset]
      exact canonical_union h fun p hp => hall p (Or.inl hp)
    have hrest := ih hcanonical (fun p hp => hall p (Or.inr hp)) hkinds.2
    rw [applyEvents, List.foldl_cons, ← applyEvents, hrest, hset, Set.union_assoc]

/-- A fresh screen has the plugins of the database. -/
theorem pluginSet_fromSnapshot {db : Db} {params snap : Value}
    (hsnap : Read.dispatch Method.stateSnapshot params db = some snap) :
    (fromSnapshot snap).pluginSet = db.pluginSet := by
  rw [Read.dispatch, if_pos rfl] at hsnap
  obtain ⟨st, hst, rfl⟩ := Option.map_eq_some_iff.mp hsnap
  rw [Except.toOption_eq_some] at hst
  obtain ⟨l, hl, rfl⟩ := Except.map_eq_ok.mp hst
  have hplugins : (fromSnapshot (Read.snapshot ⟨l, db.listPlugins⟩)).plugins =
      db.listPlugins.map PluginRow.plugin := by
    change (db.listPlugins.map Read.pluginRecord).filterMap Tui.Plugin.fromValue = _
    rw [List.filterMap_map, ← List.filterMap_eq_map]
    exact List.filterMap_congr fun row _ => rfl
  ext p
  unfold pluginSet Db.pluginSet
  rw [hplugins]
  exact ((List.perm_insertionSort _ _).map _).mem_iff

end TuiState

namespace Feed

variable {capacity : ℕ} {J : JsonText}

/-- The plugins on the screen are those of the snapshot, and those that were announced. -/
theorem Sound.pluginSet_screen {s : Feed capacity} (h : Sound J s) {st : TuiState}
    (hscreen : s.screen = some st) : ∃ q r, s.requests = q ++ r ∧ s.before ≤ q.length ∧
      st.pluginSet = greeted q ∪ announced (s.applied.map Prod.snd) := by
  have hshown := h.shown
  unfold Shown at hshown
  rw [hscreen] at hshown
  obtain ⟨-, q, r, snap, hq, hbefore, hsnap, rfl⟩ := hshown
  refine ⟨q, r, hq, hbefore, ?_⟩
  have hempty : Db.fresh.pluginSet = ∅ := Set.eq_empty_of_forall_notMem fun _ => List.not_mem_nil
  have hfresh : Canonical Db.fresh.pluginSet := fun p hp => absurd hp List.not_mem_nil
  have hset := TuiState.pluginSet_fromSnapshot hsnap
  rw [pluginSet_run _ hfresh, hempty, Set.empty_union] at hset
  obtain ⟨hannounced, hkinds⟩ := announced_emitted s.requests Db.fresh
  have happlied : ∀ e ∈ s.applied.map Prod.snd, e ∈ emitted Db.fresh s.requests :=
    h.applied_sublist.subset
  rw [TuiState.pluginSet_applyEvents, hset]
  · rw [hset]
    exact canonical_greeted _
  · rintro p ⟨e, he, hp⟩
    exact canonical_greeted s.requests p (hannounced ▸ ⟨e, happlied e he, hp⟩)
  · exact fun e he => hkinds e.2 (happlied e.2 (List.mem_map_of_mem he))

/-- **The plugins on the screen are plugins of the database**, and they are all of them once nothing
is on the way, if `run_subscribe` still goes on and no receiver was overrun. -/
theorem plugins_run {l : List Happening}
    (hexact : Machine.Along (step J) (Exact J) (start capacity) l) {s : Feed capacity}
    (hrun : Machine.run (step J) (start capacity) l = s) {st : TuiState}
    (hscreen : s.screen = some st) : st.pluginSet ⊆ s.db.pluginSet ∧
      (s.streaming = true → s.lagged = false → s.Quiet → st.pluginSet = s.db.pluginSet) := by
  have hsound : Sound J s := hrun ▸ sound_of_along hexact
  obtain ⟨q, r, hq, hbefore, hset⟩ := hsound.pluginSet_screen hscreen
  have hempty : Db.fresh.pluginSet = ∅ := Set.eq_empty_of_forall_notMem fun _ => List.not_mem_nil
  have hfresh : Canonical Db.fresh.pluginSet := fun p hp => absurd hp List.not_mem_nil
  have hdb : s.db.pluginSet = greeted s.requests := by
    rw [hsound.told.db, pluginSet_run _ hfresh, hempty, Set.empty_union]
  rw [hset, hdb]
  constructor
  · obtain ⟨hannounced, -⟩ := announced_emitted s.requests Db.fresh
    refine Set.union_subset ?_ ?_
    · rw [hq, greeted_append]
      exact Set.subset_union_left
    · rintro p ⟨e, he, hp⟩
      exact hannounced ▸ ⟨e, hsound.applied_sublist.subset he, hp⟩
  · intro hstreaming hlagged hquiet
    obtain ⟨l₀, l₁, hsplit, hle, hevents⟩ := hsound.applied_of_quiet hquiet hstreaming hlagged
    obtain ⟨q', rfl⟩ : l₀ <+: q := List.prefix_of_prefix_length_le ⟨l₁, hsplit.symm⟩
      ⟨r, hq.symm⟩ (hle.trans hbefore)
    have hl₁ : l₁ = q' ++ r := by
      rw [hsplit, List.append_assoc] at hq
      exact List.append_cancel_left hq
    obtain ⟨hannounced, -⟩ := announced_emitted l₁ (Machine.run Agentd.next Db.fresh l₀)
    rw [hevents, hannounced, hsplit, hl₁]
    -- what the snapshot has of the events is there already
    simp only [greeted_append, Set.union_assoc]
    rw [← Set.union_assoc (greeted q') (greeted q'), Set.union_self]

/-- A plugin says hello before a dashboard is opened, and another one after it took its snapshot. -/
def greeting : List Happening :=
  let hello (name : String) : Happening :=
    .request ⟨.plugin name Method.pluginHello (.object [("name", .string name)]),
      .noon (.ofTimeLow 1) 2026⟩
  [hello "opencode", .register 0 none, .recv, .broadcast, .probe, .write none, .probe, .arrive 1000,
    .read, .snapshot, hello "codex", .recv, .broadcast, .write none, .arrive 1000, .read, .apply 0,
    .read, .apply 0]

/-- The dashboard lists the plugin that was there before it, and the one that came after. -/
theorem plugins_run_greeting : ∃ st,
    (Machine.run (step .compact) (start 1024) greeting).screen = some st ∧ st.pluginSet =
      (Machine.run (step .compact) (start 1024) greeting).db.pluginSet := by
  have hexact : Machine.Along (step .compact) (Exact .compact) (start 1024) greeting := by
    have hcheck : Machine.Along (step .compact) (fun s x => s.isExact x = true) (start 1024)
        greeting := by decide +kernel
    exact hcheck.mono (fun _ _ => exact_of_isExact .compact) _ _
  have hend : (Machine.run (step .compact) (start 1024) greeting).screen.isSome = true ∧
      (Machine.run (step .compact) (start 1024) greeting).streaming = true ∧
      (Machine.run (step .compact) (start 1024) greeting).lagged = false ∧
      (Machine.run (step .compact) (start 1024) greeting).Quiet := by
    unfold Quiet
    decide +kernel
  obtain ⟨hscreen, hstreaming, hlagged, hquiet⟩ := hend
  obtain ⟨st, hst⟩ := Option.isSome_iff_exists.mp hscreen
  exact ⟨st, hst, (plugins_run hexact rfl hst).2 hstreaming hlagged hquiet⟩

end Feed

end Agentd
