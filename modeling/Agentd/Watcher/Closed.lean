import Agentd.Foundations.Framing
import Agentd.Runs.Owners
import Agentd.Watcher.Log
import Agentd.Watcher.Reattach

/-!
# The map of a watcher and the table of the daemon

To a client that may fail the map of a watcher need not be what the daemon has. To the daemon
itself it is, as long as nobody else ends or dismisses the sessions of the plugin and the clocks
are sane (`Agentd.Watcher.Surroundings.Sober`): each pane of the map has a row, with the status of
the map, no report is refused, and a session that leaves the map has finished
(`Agentd.Watcher.closed_run`).

What refuses a session for a pane that has one is the unique index of the table: the map could
not tell, as it would give the pane the new session and forget the old one.

The daemon is the real one, with its handlers and tables, and others ask it things between any two
calls of the watcher. What they may not do is to end or dismiss the sessions of the watcher, or to
report under its name; that they rename sessions, make new ones or discover panes of their own does
not matter. Under this the map of the watcher and the table of the daemon agree after every tick,
and no report is refused: the watcher reports only what it has discovered, and the daemon knows it
as the owner.
-/

namespace Agentd

open Json Rfc3339
open Plugin (Report)

/-- The request does nothing to the sessions that the plugin owns, but rename them. -/
def Request.Spares (plugin : String) : Request → Prop
  | .control method _ => method ≠ Method.sessionKill ∧ method ≠ Method.sessionDismissError
  | .plugin name _ _ => name ≠ plugin

/-- The row is renamed at most. -/
def Input.RenamesOnly (i : Input) (row : SessionRow) : Prop :=
  ∀ c, i.change? row = some c → ∃ name, c = .rename name

/-- What spares the sessions of a plugin changes their names at most. -/
theorem Request.Spares.renamesOnly {plugin : String} {i : Input} (h : i.request.Spares plugin)
    {db : Db} {row : SessionRow} (hrow : row ∈ db.sessions.rows) (howner : row.owner = some plugin) :
    i.RenamesOnly row := by
  intro c hc
  cases Input.cause_of_change? hrow hc with
  | rename hrename => exact ⟨_, rfl⟩
  | dismiss hdismiss =>
    obtain ⟨params, id, s, hreq, -⟩ := hdismiss
    rw [hreq] at h
    exact absurd rfl h.2
  | kill hkill =>
    obtain ⟨params, id, s, hreq, -⟩ := hkill
    rw [hreq] at h
    exact absurd rfl h.1
  | report hrep hchange =>
    obtain ⟨name, params, hreq, -⟩ := id hrep
    have hname := Input.owner_of_change? hreq hc
    rw [hreq] at h
    exact absurd (Option.some.inj (hname.symm.trans howner)) h

/-- The row of a session after a request. -/
theorem row?_next {db : Db} {id : Uuid} {row : SessionRow} (h : db.row? id = some row) (i : Input) :
    (next db i).row? id = some (i.edit row) := by
  obtain ⟨hmem, hid⟩ := KeyedTable.find?_eq_some.mp h
  exact KeyedTable.find?_eq_some.mpr ⟨edit_mem_next hmem i, (i.edit_id row).trans hid⟩

/-- A renaming leaves a property of rows that the name does not matter to. -/
theorem Input.RenamesOnly.edit {i : Input} {row : SessionRow} (h : i.RenamesOnly row)
    {P : SessionRow → Prop} (hP : ∀ name, P row → P ((Change.rename name).apply row))
    (hrow : P row) : P (i.edit row) :=
  Input.edit_rule hrow fun c hc => by
    obtain ⟨name, rfl⟩ := h c hc
    exact hP name hrow

end Agentd

namespace Agentd.Watcher

open Json Rfc3339
open Plugin (Report)

/-! ### The rows of panes

What the watcher believes of a pane is stated about the row of its session: it is owned by the
watcher, has the key of the pane, and the status of the map. A name is no part of it, and so a
rename keeps it; that an id names one row throughout makes the row the same one. -/

/-- The status as the daemon has it. -/
def Status.toSessionStatus : Status → SessionStatus
  | starting => .starting
  | working => .working
  | idle => .idle
  | errored => .errored

/-- The statuses of the watcher are called as the daemon calls them. -/
theorem toText_toSessionStatus (status : Status) : status.toSessionStatus.toText = status.asStr := by
  cases status <;> rfl

/-- The watcher never believes a session to be finished: it forgets it instead. -/
theorem asStr_ne_finished (status : Status) : status.asStr ≠ "finished" := by
  cases status <;> decide

/-- A row of a pane, which the watcher may report on. -/
structure Watched (row : SessionRow) (key : String) : Prop where
  decodes : row.Decodes
  owner : row.owner = some "opencode"
  pane : ∃ session pane, row.pane = some (session, pane) ∧ ':' ∉ session.toList ∧
    paneKeyFrom session pane = key

/-- A rename changes nothing the watcher looks at. -/
theorem Watched.rename {row : SessionRow} {key : String} (h : Watched row key) (name : String) :
    Watched ((Change.rename name).apply row) key :=
  ⟨Change.decodes_rename_iff.mpr h.decodes, h.owner, h.pane⟩

/-- The session has a row, of which this holds. -/
def HasRow (db : Db) (id : Uuid) (P : SessionRow → Prop) : Prop :=
  ∃ row, db.row? id = some row ∧ P row

/-- A property of rows of the plugin that a new name does not matter to. -/
structure Nameless (P : SessionRow → Prop) : Prop where
  owner : ∀ row, P row → row.owner = some "opencode"
  rename : ∀ row name, P row → P ((Change.rename name).apply row)

/-- A request that renames the row at most leaves it such a property. -/
theorem HasRow.next {db : Db} {id : Uuid} {P : SessionRow → Prop} (h : HasRow db id P)
    (hP : Nameless P) {i : Input}
    (hi : ∀ row, db.row? id = some row → row.owner = some "opencode" → i.RenamesOnly row) :
    HasRow (next db i) id P := by
  obtain ⟨row, hrow, hprop⟩ := h
  exact ⟨i.edit row, row?_next hrow i,
    (hi row hrow (hP.owner row hprop)).edit (fun name => hP.rename row name) hprop⟩

/-- What spares the sessions renames them at most. -/
theorem renamesOnly_of_spares {db : Db} {i : Input} (hi : i.request.Spares "opencode") (id : Uuid) :
    ∀ row, db.row? id = some row → row.owner = some "opencode" → i.RenamesOnly row :=
  fun _ hrow howner => hi.renamesOnly (KeyedTable.find?_eq_some.mp hrow).1 howner

/-- What others do meanwhile leaves it as well. -/
theorem HasRow.run {id : Uuid} {P : SessionRow → Prop} (hP : Nameless P) (l : List Input)
    (hl : ∀ i ∈ l, i.request.Spares "opencode") :
    ∀ {db : Db}, HasRow db id P → HasRow (Machine.run Agentd.next db l) id P := by
  induction l with
  | nil => exact fun h => h
  | cons i l ih =>
    intro db h
    rw [List.forall_mem_cons] at hl
    exact ih hl.2 (h.next hP (renamesOnly_of_spares hl.1 _))

/-- What the map has of a pane is in the table. -/
def Shown (db : Db) (key : String) (state : PaneState) : Prop :=
  HasRow db state.1 fun row => Watched row key ∧ row.status = state.2.asStr

/-- The session has finished. -/
def Over (db : Db) (id : Uuid) : Prop :=
  HasRow db id fun row => row.owner = some "opencode" ∧ row.status = "finished"

/-- What is shown of a pane does not depend on the name of its session. -/
theorem nameless_shown (key : String) (status : Status) :
    Nameless fun row => Watched row key ∧ row.status = status.asStr where
  owner _ hrow := hrow.1.owner
  rename _ name hrow := ⟨hrow.1.rename name, hrow.2⟩

/-- Nor does whether it has finished. -/
theorem nameless_over :
    Nameless fun row => row.owner = some "opencode" ∧ row.status = "finished" where
  owner _ hrow := hrow.1
  rename _ _ hrow := hrow

/-- A session is under the key of its pane, and no other. -/
theorem Shown.key_eq {db : Db} {key key' : String} {state state' : PaneState}
    (h : Shown db key state) (h' : Shown db key' state') (hid : state.1 = state'.1) : key = key' := by
  obtain ⟨row, hrow, hwatched, -⟩ := h
  obtain ⟨row', hrow', hwatched', -⟩ := h'
  rw [hid, hrow', Option.some.injEq] at hrow
  subst hrow
  obtain ⟨session, pane, hpane, -, rfl⟩ := hwatched.pane
  obtain ⟨session', pane', hpane', -, rfl⟩ := hwatched'.pane
  obtain ⟨rfl, rfl⟩ := Prod.mk.inj (Option.some.inj (hpane.symm.trans hpane'))
  rfl

/-- The key of a pane tells its session and its pane, as no name of a session has a colon. -/
theorem eq_of_paneKeyFrom {session session' pane pane' : String} (h : ':' ∉ session.toList)
    (h' : ':' ∉ session'.toList) (hkey : paneKeyFrom session pane = paneKeyFrom session' pane') :
    session = session' ∧ pane = pane' := by
  have htext : session.toList ++ ':' :: pane.toList = session'.toList ++ ':' :: pane'.toList := by
    have hlists := congrArg String.toList hkey
    simpa [paneKeyFrom] using hlists
  have hread := congrArg (Framing.readUntil ':') htext
  rw [Framing.readUntil_line h, Framing.readUntil_line h', Prod.mk.injEq] at hread
  exact ⟨String.toList_inj.mp (List.append_cancel_right hread.1), String.toList_inj.mp hread.2⟩

/-! ### The calls of the watcher

Each call is a request to the daemon under the name of the plugin. A discovery makes a row, or fails
on the pane; a report changes the row of the session it is about, and what it makes of the row is
what the map says next. -/

/-- A call of the plugin that reports nothing changes no row. -/
theorem renamesOnly_of_call {method : String} (hmethod : method ≠ Method.sessionReportEvent)
    (params : Value) (amb : Ambient) (row : SessionRow) :
    Input.RenamesOnly ⟨.plugin "opencode" method params, amb⟩ row := by
  intro c hc
  unfold Input.change? at hc
  split_ifs at hc
  rw [Input.act] at hc
  dsimp only at hc
  rw [if_neg hmethod] at hc
  cases hc

/-- What a session that was given out has in the table. -/
theorem shown_of_discover {db : Db} {session pane dir : String} {amb : Ambient} {v : Value}
    {id : Uuid} (hclock : amb.rowNow.FourDigitYear) (hcolon : ':' ∉ session.toList)
    (hv : (handle db ⟨.discover "opencode" session pane dir, amb⟩).reply.toOption = some v)
    (hid : sessionIdOf v = some id) :
    Shown (next db ⟨.discover "opencode" session pane dir, amb⟩) (paneKeyFrom session pane)
        (id, .starting) ∧
      ∀ row ∈ db.sessions.rows, row.id ≠ id.toText ∧ row.pane ≠ some (session, pane) := by
  let i : Input := ⟨.discover "opencode" session pane dir, amb⟩
  let s := Plugin.discoveredSession .opencode session pane dir "opencode" amb
  have hnew : i.newSession? = some s := rfl
  have hhandle : (handle db i).reply.toOption = ((db.insertSession s).toOption.map fun _ =>
      .object [("ok", .bool true), ("session_id", .string s.id.toText)]) := by
    change (Plugin.sessionDiscover (discoverParams session pane dir) db "opencode"
      amb).reply.toOption = _
    have hsession : (discoverParams session pane dir).getStr "tmux_session" = some session := rfl
    have hpane : (discoverParams session pane dir).getStr "tmux_pane_id" = some pane := rfl
    have hdir : (discoverParams session pane dir).getStr "working_dir" = some dir := rfl
    have hagent : AgentType.ofName? "opencode" = some .opencode := rfl
    unfold Plugin.sessionDiscover
    rw [hsession, hpane, hdir, hagent]
    dsimp only [s]
    cases db.insertSession (Plugin.discoveredSession .opencode session pane dir "opencode" amb) <;>
      rfl
  rw [hhandle, Option.map_eq_some_iff] at hv
  obtain ⟨db', hins, rfl⟩ := hv
  rw [sessionIdOf_answer, Option.some.injEq] at hid
  subst hid
  rw [Except.toOption_eq_some] at hins
  have hfree := (exists_insertSession_iff (isNew_of_newSession? hnew)).mp ⟨db', hins⟩
  obtain ⟨row, hrow, hto⟩ := exists_inserted_mem_next hnew hins
  have henc := sessionToRow_eq_ok hto
  refine ⟨⟨row, KeyedTable.find?_eq_some.mpr ⟨hrow, henc.id⟩, ⟨?_, ?_, ?_⟩, henc.status⟩, ?_⟩
  · refine henc.decodes_iff.mpr ⟨hclock, ?_, ?_⟩ <;>
    · intro t ht
      cases ht
  · exact owner_of_encodes henc
  · exact ⟨session, pane, henc.pane, hcolon, rfl⟩
  · exact fun row hrow => ⟨fun hid => hfree ⟨row, hrow, Or.inl hid⟩,
      fun hpane => hfree ⟨row, hrow, Or.inr ⟨rfl, hpane⟩⟩⟩

/-- A report of the watcher. -/
def reported (id : Uuid) (kind : String) (payload : Value) (ts : String) (amb : Ambient) : Input :=
  ⟨.plugin "opencode" Method.sessionReportEvent (.object [("payload", payload),
    ("session_id", .string id.toText), ("ts", .string ts), ("type", .string kind)]), amb⟩

/-- The time of a report. -/
def stamp (ts : String) (amb : Ambient) : DateTime :=
  (parseFromRfc3339 ts).getD amb.rowNow

section Reported

variable {db : Db} {key : String} {id : Uuid} {status : Status} {kind ts : String} {payload : Value}
  {amb : Ambient}

variable (id kind ts payload amb) in
/-- A report that the watcher sends is well formed, and about the session it names. -/
theorem ofParams_reported :
    ∃ params, (reported id kind payload ts amb).request =
        .plugin "opencode" Method.sessionReportEvent params ∧
      Report.ofParams params amb.rowNow = some ⟨id, kind, payload, stamp ts amb⟩ := by
  refine ⟨_, rfl, ?_⟩
  have hid : (Value.object [("payload", payload), ("session_id", .string id.toText),
    ("ts", .string ts), ("type", .string kind)]).getStr "session_id" = some id.toText := rfl
  have hkind : (Value.object [("payload", payload), ("session_id", .string id.toText),
    ("ts", .string ts), ("type", .string kind)]).getStr "type" = some kind := rfl
  simp only [Report.ofParams, hid, hkind, Option.bind_eq_bind, Option.bind_some,
    Uuid.parseStr_toText]
  rfl

/-- **A report on a pane of the map is taken**, and changes the row of its session only. -/
theorem reported_of_shown (h : Shown db key (id, status)) (hnow : amb.sqlNow.isSome) {c : Change}
    (hchange : Report.change? ⟨id, kind, payload, stamp ts amb⟩ = some c) :
    (handle db (reported id kind payload ts amb)).reply.toOption.isSome = true ∧
      (∃ row, db.row? id = some row ∧ Watched row key ∧
        (next db (reported id kind payload ts amb)).row? id = some (c.apply row)) ∧
      ∀ id' ≠ id, ∀ row, db.row? id' = some row →
        (reported id kind payload ts amb).RenamesOnly row := by
  obtain ⟨row, hrow, hwatched, -⟩ := h
  obtain ⟨params, hreq, hrep⟩ := ofParams_reported id kind ts payload amb
  obtain ⟨s, hs⟩ := exists_rowToSession_iff.mpr hwatched.decodes
  have howner : OwnerReport db (reported id kind payload ts amb)
      ⟨id, kind, payload, stamp ts amb⟩ row :=
    ⟨"opencode", params, hreq, hrep, hrow, s, hs, (owner_of_rowToSession hs).trans hwatched.owner,
      hnow⟩
  refine ⟨?_, ⟨row, hrow, hwatched, ?_⟩, fun id' hne row' hrow' c' hc' => ?_⟩
  · let rep : Report := ⟨id, kind, payload, stamp ts amb⟩
    obtain ⟨now, hhandle⟩ := handle_of_ownerReport howner
    have hlogged : (db.logged rep now).row? rep.id = some row := hrow
    obtain ⟨e, -, -, happly⟩ := applyReport_of_change? (db.lastEventId + 1) amb hlogged hchange
    rw [hhandle]
    exact congrArg (fun o : Outcome => o.reply.toOption.isSome) happly
  · rw [row?_next hrow, Input.edit_of_change?_eq_some (howner.change?.trans hchange)]
  · -- another row is not named
    unfold Input.change? at hc'
    rw [howner.target?, Option.map_some, if_neg] at hc'
    · cases hc'
    · rw [(KeyedTable.find?_eq_some.mp hrow').2, Option.some.injEq]
      exact fun heq => hne (Uuid.toText_inj.mp heq).symm

/-- A report of a status stands for a change to this status, since the daemon knows its name. -/
theorem change?_statusChanged (new : Status) :
    Report.change? ⟨id, "session.status_changed", .object [("status", .string new.asStr)],
      stamp ts amb⟩ = some (.status new.toSessionStatus (stamp ts amb)) := by
  rw [Plugin.Report.change?_eq_status_iff]
  exact ⟨⟨rfl, congrArg some (toText_toSessionStatus new).symm⟩, rfl⟩

/-- A report of the end stands for a finish at the time of the report. -/
theorem change?_finished :
    Report.change? ⟨id, "session.finished", payload, stamp ts amb⟩ =
      some (.finish (stamp ts amb)) :=
  Plugin.Report.change?_eq_finish_iff.mpr ⟨rfl, rfl⟩

end Reported

/-! ### Whole runs

The invariant is kept by every call, hence by every loop of the watcher, hence by every tick. The
loops are over lists that tmux gives, so that the induction is over these. -/

/-- Nobody else ends a session of the plugin, or dismisses its error, and the clocks show years of
four digits. -/
structure Surroundings.Sober (env : Surroundings) : Prop where
  spares : ∀ k, ∀ i ∈ env.foreign k, i.request.Spares "opencode"
  clock : ∀ k, (env.amb k).rowNow.FourDigitYear
  written : ∀ k, (env.amb k).sqlNow.isSome
  stamp : ∀ k t, parseFromRfc3339 (env.chronoNow k) = some t → t.FourDigitYear

/-- No session that tmux lists has a colon in its name. -/
def Tick.Named : Tick → Prop
  | .paneCheck (some panes) _ => ∀ pane ∈ panes, ':' ∉ pane.session.toList
  | _ => True

/-- The map of a watcher agrees with the table of the daemon. -/
structure Closed (s : (World × List Call) × Known) : Prop where
  shown : ∀ key state, s.2.lookup key = some state → Shown s.1.1.db key state
  taken : ∀ call ∈ s.1.2, ∀ about ∈ call.about?, about.2 ≠ .discovered → call.accepted = true
  kept : ∀ id ∈ discoveredIds s.1.2,
    (∃ key status, s.2.lookup key = some (id, status)) ∨ Over s.1.1.db id

/-- With one more call in the log all its reports are accepted still, if this one is when it is
a report. -/
theorem Closed.taken_concat {s : (World × List Call) × Known} (h : Closed s) {call : Call}
    (hcall : ∀ about ∈ call.about?, about.2 ≠ .discovered → call.accepted = true) :
    ∀ other ∈ s.1.2 ++ [call], ∀ about ∈ other.about?, about.2 ≠ .discovered →
      other.accepted = true :=
  List.forall_mem_append.mpr ⟨h.taken, List.forall_mem_singleton.mpr hcall⟩

/-- The database when a call comes: others were there before. -/
def dbBefore (env : Surroundings) (w : World) : Db :=
  Machine.run next w.db (env.foreign w.calls)

/-- A call as it comes to the daemon. -/
theorem call_recorded (env : Surroundings) (w : World) (log : List Call) (method : String)
    (params : Value) :
    (daemon env).recorded.call (w, log) method params =
      let o := handle (dbBefore env w) ⟨.plugin "opencode" method params, env.amb w.calls⟩
      ((⟨o.db, w.calls + 1⟩, log ++ [⟨method, params, o.reply.toOption⟩]), o.reply.toOption) :=
  rfl

/-- A report, at the time of a call. -/
def reportedAt (env : Surroundings) (w : World) (id : Uuid) (kind : String) (payload : Value) :
    Input :=
  reported id kind payload (env.chronoNow w.calls) (env.amb w.calls)

/-- A report as it comes to the daemon. -/
theorem reportEvent_recorded (env : Surroundings) (w : World) (log : List Call) (id : Uuid)
    (kind : String) (payload : Value) :
    ((daemon env).recorded.reportEvent (w, log) id kind payload).1 =
      (⟨next (dbBefore env w) (reportedAt env w id kind payload), w.calls + 1⟩,
        log ++ [Call.report id kind payload (env.chronoNow w.calls)
          (handle (dbBefore env w) (reportedAt env w id kind payload)).reply.toOption]) := by
  rw [Client.reportEvent, call_recorded]
  rfl

section Steps

variable {env : Surroundings} (henv : env.Sober) {w : World}
include henv

/-- What a call that renames a row at most leaves of it, after what others did before. -/
theorem HasRow.called {id : Uuid} {P : SessionRow → Prop} (h : HasRow w.db id P) (hP : Nameless P)
    {i : Input} (hi : ∀ row, (dbBefore env w).row? id = some row → i.RenamesOnly row) :
    HasRow (Agentd.next (dbBefore env w) i) id P :=
  (HasRow.run hP _ (henv.spares _) h).next hP fun row hrow _ => hi row hrow

/-- The time of a report is one that the table can hold. -/
theorem fourDigitYear_stamp (k : ℕ) : (stamp (env.chronoNow k) (env.amb k)).FourDigitYear := by
  rw [stamp]
  cases hparse : parseFromRfc3339 (env.chronoNow k) with
  | none => exact henv.clock k
  | some t => exact henv.stamp k t hparse

variable {log : List Call} {known : Known} (h : Closed ((w, log), known))
include h

/-- A call that says nothing of a session. -/
theorem Closed.pass {method : String} (hmethod : method ≠ Method.sessionReportEvent)
    {params : Value} {call : Call} (hcall : call.about? = none) :
    Closed ((⟨next (dbBefore env w) ⟨.plugin "opencode" method params, env.amb w.calls⟩,
      w.calls + 1⟩, log ++ [call]), known) where
  shown key state hkey := (h.shown key state hkey).called henv (nameless_shown _ _) fun row _ =>
    renamesOnly_of_call hmethod params _ row
  taken := h.taken_concat fun about habout _ => by
    rw [hcall] at habout
    cases habout
  kept id hid := by
    rw [discoveredIds_concat_of_none log hcall] at hid
    exact (h.kept id hid).imp_right fun hover => hover.called henv nameless_over fun row _ =>
      renamesOnly_of_call hmethod params _ row

/-- A heartbeat is about no session. -/
theorem Closed.heartbeat : Closed (((daemon env).recorded.heartbeat (w, log)).1, known) :=
  h.pass henv (by decide) rfl

/-- A session that is given out is for a pane without one. -/
theorem Closed.discovered {session : String} (hcolon : ':' ∉ session.toList) (pane dir : String) :
    Closed (Watcher.discovered (daemon env).recorded ((w, log), known) session pane dir) := by
  let i : Input := ⟨.discover "opencode" session pane dir, env.amb w.calls⟩
  let answer := (handle (dbBefore env w) i).reply.toOption
  have hpass (hnone : answer.bind sessionIdOf = none) :
      Closed ((⟨next (dbBefore env w) i, w.calls + 1⟩,
        log ++ [Call.discover session pane dir answer]), known) := by
    refine h.pass henv (by decide) ?_
    rw [Call.about?_discover, hnone]
    rfl
  unfold Watcher.discovered
  change Closed ((⟨next (dbBefore env w) i, w.calls + 1⟩,
    log ++ [Call.discover session pane dir answer]), (answer.bind sessionIdOf).elim known _)
  cases hid : answer.bind sessionIdOf with
  | none => exact hpass hid
  | some id =>
    obtain ⟨v, hv, hsession⟩ := Option.bind_eq_some_iff.mp hid
    obtain ⟨hshown, hfree⟩ := shown_of_discover (henv.clock _) hcolon hv hsession
    have hcall : (Call.discover session pane dir answer).about? = some (id, .discovered) := by
      rw [Call.about?_discover, hid]
      rfl
    have hcalm (row : SessionRow) : i.RenamesOnly row :=
      renamesOnly_of_call (by decide) (discoverParams session pane dir) _ row
    refine ⟨?_, ?_, ?_⟩ <;> dsimp only
    · intro k state hk
      rcases lookup_insert_eq_some.mp hk with ⟨rfl, rfl⟩ | ⟨-, hk⟩
      · exact hshown
      · exact (h.shown k state hk).called henv (nameless_shown _ _) fun row _ => hcalm row
    · refine h.taken_concat fun about habout hne => ?_
      rw [hcall] at habout
      obtain rfl := Option.some.inj habout
      exact absurd rfl hne
    · intro other hother
      rw [discoveredIds_concat log hcall, List.mem_append, List.mem_singleton] at hother
      rcases hother with hother | rfl
      · rcases h.kept other hother with ⟨k, status, hk⟩ | hover
        · refine Or.inl ⟨k, status, lookup_insert_eq_some.mpr (Or.inr ⟨?_, hk⟩)⟩
          -- the index of the table has refused a pane that has a session
          rintro rfl
          obtain ⟨row, hrow, hwatched, -⟩ :=
            HasRow.run (nameless_shown _ _) _ (henv.spares w.calls) (h.shown _ _ hk)
          obtain ⟨session', pane', hpane, hcolon', hkey⟩ := hwatched.pane
          obtain ⟨rfl, rfl⟩ := eq_of_paneKeyFrom hcolon' hcolon hkey
          exact (hfree row (KeyedTable.find?_eq_some.mp hrow).1).2 hpane
        · exact Or.inr (hover.called henv nameless_over fun row _ => hcalm row)
      · exact Or.inl ⟨_, _, lookup_insert_eq_some.mpr (Or.inl ⟨rfl, rfl⟩)⟩

omit h in
/-- What a report on a pane of the map does to what else is there. -/
theorem called_reported {key : String} {id : Uuid} {status : Status}
    (hshown : Shown w.db key (id, status)) {kind : String} {payload : Value} {c : Change}
    (hchange : Report.change? ⟨id, kind, payload,
      stamp (env.chronoNow w.calls) (env.amb w.calls)⟩ = some c) :
    (handle (dbBefore env w) (reportedAt env w id kind payload)).reply.toOption.isSome = true ∧
      (∃ row, Watched row key ∧ (next (dbBefore env w) (reportedAt env w id kind payload)).row? id =
        some (c.apply row)) ∧
      (∀ k state, state.1 ≠ id → Shown w.db k state →
        Shown (next (dbBefore env w) (reportedAt env w id kind payload)) k state) ∧
      ∀ other, Over w.db other →
        Over (next (dbBefore env w) (reportedAt env w id kind payload)) other := by
  have hbefore : Shown (dbBefore env w) key (id, status) :=
    HasRow.run (nameless_shown _ _) _ (henv.spares _) hshown
  obtain ⟨htaken, ⟨row, hrow, hwatched, hnext⟩, hcalm⟩ :=
    reported_of_shown hbefore (henv.written _) hchange
  refine ⟨htaken, ⟨row, hwatched, hnext⟩, fun k state hne hk => ?_, fun other hover => ?_⟩
  · exact hk.called henv (nameless_shown _ _) (hcalm state.1 hne)
  · refine hover.called henv nameless_over (hcalm other ?_)
    -- what is over is not in the map
    rintro rfl
    obtain ⟨row', hrow', -, hfinished⟩ := HasRow.run nameless_over _ (henv.spares w.calls) hover
    obtain ⟨row'', hrow'', -, hstatus⟩ := hbefore
    obtain rfl := Option.some.inj (hrow'.symm.trans hrow'')
    exact asStr_ne_finished status (hstatus.symm.trans hfinished)

/-- A pane gets a new status. -/
theorem Closed.change {key : String} {id : Uuid} {status : Status}
    (hlookup : known.lookup key = some (id, status)) (new : Status) :
    Closed (((daemon env).recorded.reportEvent (w, log) id "session.status_changed"
      (.object [("status", .string new.asStr)])).1, known.insert key (id, new)) := by
  have hshown : Shown w.db key (id, status) := h.shown key _ hlookup
  obtain ⟨htaken, ⟨row, hwatched, hnext⟩, hothers, hover⟩ :=
    called_reported henv hshown (change?_statusChanged new)
  rw [reportEvent_recorded]
  refine ⟨?_, ?_, ?_⟩ <;> dsimp only
  · intro k state hk
    rcases lookup_insert_eq_some.mp hk with ⟨rfl, rfl⟩ | ⟨hne, hk⟩
    · refine ⟨_, hnext, ⟨?_, hwatched.owner, hwatched.pane⟩, toText_toSessionStatus new⟩
      refine (Change.decodes_apply_iff hwatched.decodes (by trivial)).mpr fun t ht => ?_
      obtain rfl := Option.some.inj ht
      exact fourDigitYear_stamp henv _
    · exact hothers k state (fun hid => hne ((h.shown k state hk).key_eq hshown hid))
        (h.shown k state hk)
  · exact h.taken_concat fun _ _ _ => htaken
  · intro other hother
    rw [discoveredIds_concat_of_ne log (Call.about?_statusChanged id new.asStr _ _) (by simp)]
      at hother
    rcases h.kept other hother with ⟨k, st, hk⟩ | hfinished
    · by_cases heq : k = key
      · subst heq
        obtain ⟨rfl, -⟩ := Prod.mk.inj (Option.some.inj (hk.symm.trans hlookup))
        exact Or.inl ⟨k, new, lookup_insert_eq_some.mpr (Or.inl ⟨rfl, rfl⟩)⟩
      · exact Or.inl ⟨k, st, lookup_insert_eq_some.mpr (Or.inr ⟨heq, hk⟩)⟩
    · exact Or.inr (hover other hfinished)

/-- A pane goes, and its session finishes. -/
theorem Closed.finish {key : String} {state : PaneState} (hlookup : known.lookup key = some state) :
    Closed (((daemon env).recorded.reportEvent (w, log) state.1 "session.finished"
      (.object [])).1, known.erase key) := by
  have hshown : Shown w.db key state := h.shown key state hlookup
  obtain ⟨htaken, ⟨row, hwatched, hnext⟩, hothers, hover⟩ :=
    called_reported henv hshown change?_finished
  rw [reportEvent_recorded]
  refine ⟨?_, ?_, ?_⟩ <;> dsimp only
  · intro k st hk
    obtain ⟨hne, hk⟩ := lookup_erase_eq_some.mp hk
    exact hothers k st (fun hid => hne ((h.shown k st hk).key_eq hshown hid)) (h.shown k st hk)
  · exact h.taken_concat fun _ _ _ => htaken
  · intro other hother
    rw [discoveredIds_concat_of_ne log (Call.about?_finished state.1 _ _) (by simp)] at hother
    rcases h.kept other hother with ⟨k, st, hk⟩ | hfinished
    · by_cases heq : k = key
      · subst heq
        obtain rfl := Option.some.inj (hk.symm.trans hlookup)
        exact Or.inr ⟨_, hnext, hwatched.owner, rfl⟩
      · exact Or.inl ⟨k, st, lookup_erase_eq_some.mpr ⟨heq, hk⟩⟩
    · exact Or.inr (hover other hfinished)

end Steps

section Loops

variable {env : Surroundings} (henv : env.Sober) {s : (World × List Call) × Known} (h : Closed s)
include henv h

/-- A pane that has gone is reported and forgotten, so that its session finishes and its key goes.
-/
theorem Closed.emitFinished (key : String) :
    Closed (Watcher.emitFinished (daemon env).recorded s key) := by
  obtain ⟨⟨w, log⟩, known⟩ := s
  unfold Watcher.emitFinished
  split
  · rename_i id status hlookup
    have hfinish := h.finish henv hlookup
    exact hfinish
  · exact h

/-- A pane that shows another status than the map has is reported, and the map and the row change
together. -/
theorem Closed.pollPane (captured : String) (pane : OpencodePane) :
    Closed (Watcher.pollPane (daemon env).recorded captured s pane) := by
  obtain ⟨⟨w, log⟩, known⟩ := s
  unfold Watcher.pollPane
  split
  · exact h
  · rename_i id prev hlookup
    split
    · exact h
    · rename_i new _
      split_ifs
      · exact h
      · exact h.change henv hlookup new

/-- A pane there is at the start is discovered, and comes into the map with the row that was
inserted for it. -/
theorem Closed.startUpPane {pane : OpencodePane} (hcolon : ':' ∉ pane.tmuxSession.toList) :
    Closed (Watcher.startUpPane (daemon env).recorded s pane) := by
  rw [startUpPane_eq]
  exact h.discovered henv hcolon _ _

/-- A pane that has come is discovered in the same way, unless its key is known. -/
theorem Closed.discoverNewRawPane (newKeys : List String) {pane : RawPane}
    (hcolon : ':' ∉ pane.session.toList) :
    Closed (Watcher.discoverNewRawPane (daemon env).recorded newKeys s pane) := by
  by_cases hnew : paneKeyFrom pane.session pane.paneId ∈ newKeys
  · rw [discoverNewRawPane_of_mem hnew]
    exact h.discovered henv hcolon _ _
  · rw [discoverNewRawPane_of_notMem hnew]
    exact h

/-- **A tick keeps it**, whichever of the three it is. -/
theorem Closed.tick (panes : List OpencodePane) {t : Tick} (ht : t.Named) :
    Closed (Watcher.tick (daemon env).recorded panes s t) := by
  cases t with
  | poll captures =>
    exact List.foldlRecOn _ _ h fun s hs round _ => hs.pollPane henv _ round.1
  | heartbeat => exact h.heartbeat henv
  | paneCheck allPanes walk =>
    cases allPanes with
    | none => exact h
    | some listed =>
      refine List.foldlRecOn listed _ ?_ fun s hs pane hpane =>
        hs.discoverNewRawPane henv _ (ht pane hpane)
      exact List.foldlRecOn _ _ h fun s hs key _ => hs.emitFinished henv key

/-- So do any number of ticks. -/
theorem Closed.ticks (panes : List OpencodePane) {ticks : List Tick}
    (hticks : ∀ t ∈ ticks, t.Named) :
    Closed (ticks.foldl (Watcher.tick (daemon env).recorded panes) s) :=
  List.foldlRecOn ticks _ h fun _ hs t ht => hs.tick henv panes (hticks t ht)

omit h in
/-- After the start-up loop they agree. -/
theorem closed_startUp (db : Db) {panes : List OpencodePane}
    (hpanes : ∀ pane ∈ panes, ':' ∉ pane.tmuxSession.toList) :
    Closed (panes.foldl (startUpPane (daemon env).recorded) ((⟨db, 0⟩, []), ∅)) := by
  have hstart : Closed (((⟨db, 0⟩, []) : World × List Call), (∅ : Known)) := by
    refine ⟨fun key state hkey => ?_, fun _ hcall => absurd hcall List.not_mem_nil,
      fun _ hid => absurd hid List.not_mem_nil⟩
    rw [AList.lookup_empty] at hkey
    cases hkey
  exact List.foldlRecOn panes _ hstart fun s hs pane hpane => hs.startUpPane henv (hpanes pane hpane)

end Loops

/-- Before each call somebody renames the first session. -/
def renamed : Surroundings :=
  { quiet with foreign _ := [⟨.rename (.ofTimeLow 2) "mine", .noon (.ofTimeLow 1) 2026⟩] }

/-- Renames spare the sessions. -/
theorem sober_renamed : renamed.Sober where
  spares _ := by
    simp only [renamed, List.forall_mem_singleton]
    exact ⟨by decide, by decide⟩
  clock _ := (by decide : (Rfc3339.DateTime.noonOf 2026).FourDigitYear)
  written _ := (by decide : (Ambient.noon (.ofTimeLow 1) 2026).sqlNow.isSome)
  stamp _ := (by decide : ∀ t ∈ parseFromRfc3339 "2026-01-01T00:00:00Z", t.FourDigitYear)

end Agentd.Watcher
