import Agentd.Foundations.Machine
import Agentd.Handlers.Mutate
import Agentd.Handlers.Plugin

/-!
# One request

`Agentd.handle` is what the daemon does with one request on either socket, and
`Agentd.next` the database it leaves. A run is a list of requests, each with what the
world outside supplied to it (`Agentd.Ambient`).

The handlers are long, but there is little they can do to the table of sessions: insert a
row of one of two shapes, or make one of five changes to one row. This file says so:

| what a request asks for | |
|---|---|
| `Agentd.Input.newSession?` | the session it would insert |
| `Agentd.Input.target?` | the session it names |
| `Agentd.Input.act` | the change it makes to the row of that session |
| `Agentd.OwnerReport` | it is a report made by the owner of the row it names |

`Agentd.handle_footprint` (in `Agentd.Handlers.Footprint`) compares this with the handlers,
and everything that is proved about runs of the daemon goes through it.
-/

namespace Agentd

open Json Rfc3339
open Plugin (Report)

/-! ### Requests and runs

The daemon is a machine whose inputs are requests with what comes from outside while they are
handled. Its state is the database; what it emits and answers are outputs. A run starts from the
tables as the migrations leave them. -/

/-- A request and the socket it came in on. -/
inductive Request
  | control (method : String) (params : Value)
  | plugin (name method : String) (params : Value)

/-- A request with what the world outside supplies while it is handled. -/
structure Input where
  request : Request
  amb : Ambient

/-- The handling of one request. -/
def handle (db : Db) (i : Input) : Outcome :=
  match i.request with
  | .control method params => Mutate.dispatch method params db i.amb
  | .plugin name method params => Plugin.dispatch method params db name i.amb

/-- The database a request leaves. -/
def next (db : Db) (i : Input) : Db :=
  (handle db i).db

/-- The databases a run of requests can lead to from a freshly migrated one. -/
abbrev Reachable (db : Db) : Prop :=
  Machine.Reachable next Db.fresh db

/-- The events a run emits, in order. -/
def emitted (db : Db) : List Input → List Event
  | [] => []
  | i :: l => (handle db i).events ++ emitted (next db i) l

@[simp] theorem emitted_cons (db : Db) (i : Input) (l : List Input) :
    emitted db (i :: l) = (handle db i).events ++ emitted (next db i) l :=
  rfl

theorem emitted_append (l₁ l₂ : List Input) : ∀ db : Db,
    emitted db (l₁ ++ l₂) = emitted db l₁ ++ emitted (Machine.run next db l₁) l₂ := by
  induction l₁ with
  | nil => intro db; rfl
  | cons i l₁ ih =>
    intro db
    rw [List.cons_append, emitted_cons, emitted_cons, ih, List.append_assoc, Machine.run_cons]

/-! ### Changes of a row

Five statements change the row of a session, and each of them writes fixed columns. A change is a
value that says which statement with which values, so that what a request does to a row can be
talked about before it is done. -/

/-- A change one of the `UPDATE` statements makes to the row of a session. -/
inductive Change
  | rename (name : String)
  | status (new : SessionStatus) (at_ : DateTime)
  | task (text : String) (at_ : DateTime)
  | usage (used total : Option ℤ) (cost : Option F64) (at_ : DateTime)
  | finish (at_ : DateTime)

namespace Change

/-- The row after the change. -/
def apply (r : SessionRow) : Change → SessionRow
  | rename name => { r with displayName := name }
  | status new at_ => { r with status := new.toText, lastEventAt := some (toRfc3339 at_) }
  | task text at_ => { r with currentTask := some text, lastEventAt := some (toRfc3339 at_) }
  | usage used total cost at_ => { r with
      contextUsedTokens := used
      contextTotalTokens := total
      costUsd := cost
      lastEventAt := some (toRfc3339 at_) }
  | finish at_ => { r with
      status := "finished"
      finishedAt := some (toRfc3339 at_)
      lastEventAt := some (toRfc3339 at_) }

@[simp] theorem apply_id (c : Change) (r : SessionRow) : (apply r c).id = r.id := by
  cases c <;> rfl

@[simp] theorem apply_pane (c : Change) (r : SessionRow) : (apply r c).pane = r.pane := by
  cases c <;> rfl

@[simp] theorem apply_metadata (c : Change) (r : SessionRow) :
    (apply r c).metadata = r.metadata := by
  cases c <;> rfl

@[simp] theorem apply_agentType (c : Change) (r : SessionRow) :
    (apply r c).agentType = r.agentType := by
  cases c <;> rfl

@[simp] theorem apply_tmuxSession (c : Change) (r : SessionRow) :
    (apply r c).tmuxSession = r.tmuxSession := by
  cases c <;> rfl

/-- The time a change stamps on the row. -/
def stamp? : Change → Option DateTime
  | rename _ => none
  | status _ at_ | task _ at_ | usage _ _ _ at_ | finish at_ => some at_

/-- The counts a change stores are counts. -/
def CountsNonneg : Change → Prop
  | usage used total _ _ => (∀ n ∈ used, 0 ≤ n) ∧ ∀ n ∈ total, 0 ≤ n
  | _ => True

/-- A row whose session is renamed decodes when it did. -/
theorem decodes_rename_iff {name : String} {r : SessionRow} :
    (apply r (rename name)).Decodes ↔ r.Decodes :=
  ⟨fun ⟨h₁, h₂, h₃, h₄, h₅, h₆, h₇, h₈, h₉⟩ => ⟨h₁, h₂, h₃, h₄, h₅, h₆, h₇, h₈, h₉⟩,
    fun ⟨h₁, h₂, h₃, h₄, h₅, h₆, h₇, h₈, h₉⟩ => ⟨h₁, h₂, h₃, h₄, h₅, h₆, h₇, h₈, h₉⟩⟩

/-- **A change of a row that decodes leaves one that decodes exactly when its stamp
falls in the years of four digits.** -/
theorem decodes_apply_iff {c : Change} {r : SessionRow} (hr : r.Decodes) (hc : c.CountsNonneg) :
    (apply r c).Decodes ↔ ∀ t ∈ c.stamp?, t.FourDigitYear := by
  have hstamp {t : DateTime} (ht : t.FourDigitYear) :
      ∀ s ∈ some (toRfc3339 t), (parseFromRfc3339 s).isSome := by
    rintro s hs
    rw [← Option.some.inj hs]
    exact isSome_parseFromRfc3339.mpr ht
  constructor
  · rintro h t ht
    have hlast : (apply r c).lastEventAt = some (toRfc3339 t) := by
      cases c <;> simp_all [stamp?, apply]
    exact isSome_parseFromRfc3339.mp (h.lastEventAt _ hlast)
  · intro h
    cases c with
    | rename name => exact decodes_rename_iff.mpr hr
    | status new at_ =>
      exact { hr with
        status := by rw [apply, SessionStatus.ofName?_toText]; rfl
        lastEventAt := hstamp (h at_ rfl) }
    | task text at_ => exact { hr with lastEventAt := hstamp (h at_ rfl) }
    | usage used total cost at_ =>
      exact { hr with
        contextUsedTokens := hc.1
        contextTotalTokens := hc.2
        lastEventAt := hstamp (h at_ rfl) }
    | finish at_ =>
      exact { hr with
        status := rfl
        lastEventAt := hstamp (h at_ rfl)
        finishedAt := hstamp (h at_ rfl) }

/-- No change touches the key or the binding of a row. -/
theorem keeps (c : Change) : KeyedTable.Keeps SessionRow.id SessionRow.pane (apply · c) :=
  fun r => ⟨apply_id c r, apply_pane c r⟩

end Change

/-- The database with the row of one session changed. -/
def Db.change (db : Db) (id : Uuid) (c : Change) : Db :=
  { db with sessions := db.sessions.modify id.toText (Change.apply · c) c.keeps }

/-- The events that stand for a change. -/
def Event.Describes (e : Event) : Change → Prop
  | .rename name =>
    e.kind = "session.renamed" ∧ e.payload = .object [("display_name", .string name)]
  | .status new _ =>
    e.kind = "session.status_changed" ∧ e.payload = .object [("status", .string new.toText)] ∨
      e.kind = "session.dismissed_error" ∧ new = .idle
  | .task text _ => e.kind = "session.task_changed" ∧ e.payload = .object [("task", .string text)]
  | .usage .. => e.kind = "session.usage_updated"
  | .finish _ => e.kind = "session.killed" ∨ e.kind = "session.finished"

/-- The events that are not about the state of a session. -/
def Event.Inert (e : Event) : Prop :=
  e.kind = "plugin.connected" ∨ e.kind = "session.jumped" ∨ e.kind = "daemon.shutting_down"

/-! ### Reports

A report is taken apart once, into the change it makes, or the reason for which it makes none. Which
change that is depends on the report alone; whether it is made depends on the owner of the row. -/

namespace Plugin.Report

def used (rep : Report) : Option UInt64 :=
  (rep.payload.get "used").bind Value.asU64

def total (rep : Report) : Option UInt64 :=
  (rep.payload.get "total").bind Value.asU64

def cost (rep : Report) : Option F64 :=
  (rep.payload.get "cost_usd").bind Value.asF64

/-- The change a report of the owner makes. -/
def change? (rep : Report) : Option Change :=
  if rep.kind = "session.status_changed" then
    ((rep.payload.getStr "status").bind SessionStatus.ofName?).map fun new => .status new rep.ts
  else if rep.kind = "session.task_changed" then
    (rep.payload.getStr "task").map fun task => .task task rep.ts
  else if rep.kind = "session.usage_updated" then
    match bindU64 rep.used, bindU64 rep.total with
    | .ok used, .ok total => some (.usage used total (bindF64 rep.cost) rep.ts)
    | _, _ => none
  else if rep.kind = "session.finished" then some (.finish rep.ts)
  else none

theorem stamp?_of_change? {rep : Report} {c : Change} (h : rep.change? = some c) :
    c.stamp? = some rep.ts := by
  unfold change? at h
  split_ifs at h
  · obtain ⟨_, -, rfl⟩ := Option.map_eq_some_iff.mp h
    rfl
  · obtain ⟨_, -, rfl⟩ := Option.map_eq_some_iff.mp h
    rfl
  · split at h
    · rw [← Option.some.inj h]
      rfl
    · cases h
  · rw [← Option.some.inj h]
    rfl

theorem countsNonneg_of_change? {rep : Report} {c : Change} (h : rep.change? = some c) :
    c.CountsNonneg := by
  unfold change? at h
  split_ifs at h
  · obtain ⟨_, -, rfl⟩ := Option.map_eq_some_iff.mp h
    trivial
  · obtain ⟨_, -, rfl⟩ := Option.map_eq_some_iff.mp h
    trivial
  · split at h
    · rename_i hused htotal
      rw [← Option.some.inj h]
      exact ⟨nonneg_of_bindU64 hused, nonneg_of_bindU64 htotal⟩
    · cases h
  · rw [← Option.some.inj h]
    trivial

/-- The report is a change of status to `new`. -/
def AsksStatus (rep : Report) (new : SessionStatus) : Prop :=
  rep.kind = "session.status_changed" ∧ rep.payload.getStr "status" = some new.toText

theorem change?_eq_status_iff {rep : Report} {new : SessionStatus} {at_ : DateTime} :
    rep.change? = some (.status new at_) ↔ rep.AsksStatus new ∧ at_ = rep.ts := by
  unfold change? AsksStatus
  split_ifs with hstatus htask husage hfinish
  · simp only [hstatus, Option.map_eq_some_iff, Option.bind_eq_some_iff, true_and,
      SessionStatus.ofName?_eq_some, Change.status.injEq]
    constructor
    · rintro ⟨_, ⟨s, hs, rfl⟩, rfl, rfl⟩
      exact ⟨hs, rfl⟩
    · rintro ⟨hs, rfl⟩
      exact ⟨new, ⟨_, hs, rfl⟩, rfl, rfl⟩
  · simp [hstatus]
  · refine iff_of_false ?_ fun h => hstatus h.1.1
    split <;> simp
  · simp [hstatus]
  · simp [hstatus]

theorem change?_eq_finish_iff {rep : Report} {at_ : DateTime} :
    rep.change? = some (.finish at_) ↔ rep.kind = "session.finished" ∧ at_ = rep.ts := by
  unfold change?
  split_ifs with hstatus htask husage hfinish
  · refine iff_of_false (fun h => ?_) (by simp [hstatus])
    obtain ⟨_, -, h⟩ := Option.map_eq_some_iff.mp h
    cases h
  · simp [htask]
  · refine iff_of_false ?_ (by simp [husage])
    split <;> simp
  · simp [hfinish, eq_comm]
  · simp [hfinish]

theorem change?_ne_rename {rep : Report} {name : String} : rep.change? ≠ some (.rename name) := by
  intro h
  unfold change? at h
  split_ifs at h
  · obtain ⟨_, -, h⟩ := Option.map_eq_some_iff.mp h
    cases h
  · obtain ⟨_, -, h⟩ := Option.map_eq_some_iff.mp h
    cases h
  · split at h <;> simp at h
  · simp at h

/-- The report names a status there is not. -/
def UnknownStatus (rep : Report) : Prop :=
  rep.kind = "session.status_changed" ∧
    ∃ s, rep.payload.getStr "status" = some s ∧ SessionStatus.ofName? s = none

/-- The report has a token count SQLite cannot store. -/
def OversizedUsage (rep : Report) : Prop :=
  rep.kind = "session.usage_updated" ∧
    ∃ n, (rep.used = some n ∨ rep.total = some n) ∧ 2 ^ 63 ≤ n.toNat

end Plugin.Report

/-- The database with a report in the event log. -/
def Db.logged (db : Db) (rep : Report) (now : String) : Db :=
  { db with
    sessionEvents := db.sessionEvents ++
      [⟨db.lastEventId + 1, rep.id.toText, rep.kind, rep.payload, now⟩]
    lastEventId := db.lastEventId + 1 }

/-- The session of a report that was found may have events, so the log takes the report. -/
theorem insertEvent_some {db : Db} {rep : Report} {row : SessionRow}
    (hrow : db.row? rep.id = some row) {now : String} :
    db.insertEvent rep.id rep.kind rep.payload (some now) =
      .ok (db.lastEventId + 1, db.logged rep now) := by
  rw [Db.insertEvent, hrow]
  rfl

/-- A report at a time that SQLite does not write is refused by the log. -/
theorem insertEvent_none {db : Db} {rep : Report} {row : SessionRow}
    (hrow : db.row? rep.id = some row) :
    db.insertEvent rep.id rep.kind rep.payload none = .error (.sqlite .constraintViolation) := by
  rw [Db.insertEvent, hrow]

/-- **The request is the report `rep`, made by the owner of the row it names**, at a time that
SQLite writes. -/
def OwnerReport (db : Db) (i : Input) (rep : Report) (row : SessionRow) : Prop :=
  ∃ name params, i.request = .plugin name Method.sessionReportEvent params ∧
    Report.ofParams params i.amb.rowNow = some rep ∧ db.row? rep.id = some row ∧
    ∃ s, rowToSession row = .ok s ∧ s.owner = some name ∧ i.amb.sqlNow.isSome

/-! ### What a request asks for

The meaning of a request on the table, independently of the handlers: the session it would insert,
the session it names, and the change it makes to a row. `Agentd.Handlers.Footprint` proves that the
handlers do this. -/

namespace Input

/-- The session a request would insert. -/
def newSession? (i : Input) : Option Session :=
  match i.request with
  | .control method params =>
    if method = Method.sessionCreate then
      ((params.getStr "agent_type").bind AgentType.ofName?).bind fun agentType =>
        (params.getStr "working_dir").map fun workingDir =>
          Mutate.newSession agentType workingDir
            ((params.getStr "name").getD (defaultName workingDir)) i.amb
    else none
  | .plugin name method params =>
    if method = Method.sessionDiscover then
      (params.getStr "tmux_session").bind fun tmuxSession =>
        (params.getStr "tmux_pane_id").bind fun tmuxPaneId =>
          (params.getStr "working_dir").bind fun workingDir =>
            (AgentType.ofName? name).map fun agentType =>
              Plugin.discoveredSession agentType tmuxSession tmuxPaneId workingDir name i.amb
    else none

/-- The session a request names. -/
def target? (i : Input) : Option Uuid :=
  match i.request with
  | .control _ params => (params.getStr "id").bind Uuid.parseStr
  | .plugin _ _ params => (Report.ofParams params i.amb.rowNow).map Report.id

/-- The change a request makes to the row of the session it names. -/
def act (i : Input) (row : SessionRow) : Option Change :=
  match i.request with
  | .control method params =>
    if method = Method.sessionRename then (params.getStr "name").map .rename
    else if method = Method.sessionDismissError then
      (rowToSession row).toOption.bind fun s =>
        if s.status = .errored then some (.status .idle i.amb.rowNow) else none
    else if method = Method.sessionKill then
      (rowToSession row).toOption.bind fun s =>
        if s.status.isTerminal then none else some (.finish i.amb.rowNow)
    else none
  | .plugin name method params =>
    if method = Method.sessionReportEvent then
      (Report.ofParams params i.amb.rowNow).bind fun rep =>
        (rowToSession row).toOption.bind fun s =>
          -- at a time that SQLite does not write, the log refuses the report
          if s.owner = some name ∧ i.amb.sqlNow.isSome then rep.change? else none
    else none

/-- The change a request makes to a row, which is none unless it names it. -/
def change? (i : Input) (row : SessionRow) : Option Change :=
  if i.target?.map Uuid.toText = some row.id then i.act row else none

/-- A row after a request that inserts nothing. -/
def edit (i : Input) (row : SessionRow) : SessionRow :=
  (i.change? row).elim row (Change.apply row)

@[simp] theorem edit_id (i : Input) (row : SessionRow) : (i.edit row).id = row.id := by
  unfold edit
  cases i.change? row <;> simp

@[simp] theorem edit_pane (i : Input) (row : SessionRow) : (i.edit row).pane = row.pane := by
  unfold edit
  cases i.change? row <;> simp

@[simp] theorem edit_metadata (i : Input) (row : SessionRow) :
    (i.edit row).metadata = row.metadata := by
  unfold edit
  cases i.change? row <;> simp

@[simp] theorem edit_agentType (i : Input) (row : SessionRow) :
    (i.edit row).agentType = row.agentType := by
  unfold edit
  cases i.change? row <;> simp

@[simp] theorem edit_tmuxSession (i : Input) (row : SessionRow) :
    (i.edit row).tmuxSession = row.tmuxSession := by
  unfold edit
  cases i.change? row <;> simp

/-- The owner of a row stays its owner. -/
@[simp] theorem edit_owner (i : Input) (row : SessionRow) : (i.edit row).owner = row.owner := by
  rw [SessionRow.owner, edit_metadata, SessionRow.owner]

theorem edit_of_change?_eq_none {i : Input} {row : SessionRow} (h : i.change? row = none) :
    i.edit row = row := by
  rw [edit, h, Option.elim_none]

theorem edit_of_change?_eq_some {i : Input} {row : SessionRow} {c : Change}
    (h : i.change? row = some c) : i.edit row = c.apply row := by
  rw [edit, h, Option.elim_some]

/-- What holds of a row, and of it after the change it is to get, holds of the edited row. -/
theorem edit_rule {i : Input} {row : SessionRow} {P : SessionRow → Prop} (hrow : P row)
    (hchange : ∀ c, i.change? row = some c → P (c.apply row)) : P (i.edit row) := by
  cases hc : i.change? row with
  | none => rwa [edit_of_change?_eq_none hc]
  | some c =>
    rw [edit_of_change?_eq_some hc]
    exact hchange c hc

/-- The change a request makes to the row it names. -/
theorem change?_of_row? {db : Db} {i : Input} {id : Uuid} {row : SessionRow}
    (ht : i.target? = some id) (hrow : db.row? id = some row) : i.change? row = i.act row := by
  rw [change?, ht, Option.map_some, if_pos]
  rw [(KeyedTable.find?_eq_some.mp hrow).2]

/-- A request changes no row when it names none, or does nothing to the one it names. -/
theorem change?_eq_none_of {db : Db} {i : Input}
    (h : ∀ id row, i.target? = some id → db.row? id = some row → i.act row = none) :
    ∀ row ∈ db.sessions.rows, i.change? row = none := by
  intro row hrow
  unfold change?
  split_ifs with ht
  · obtain ⟨id, hid, htext⟩ := Option.map_eq_some_iff.mp ht
    exact h id row hid (KeyedTable.find?_eq_some.mpr ⟨hrow, htext.symm⟩)
  · rfl

/-- Which requests insert a session, and what it is. -/
theorem newSession?_cases {i : Input} {s : Session} (h : i.newSession? = some s) :
    (∃ params agentType workingDir, i.request = .control Method.sessionCreate params ∧
      s = Mutate.newSession agentType workingDir
        ((params.getStr "name").getD (defaultName workingDir)) i.amb) ∨
    ∃ name params agentType tmuxSession tmuxPaneId workingDir,
      i.request = .plugin name Method.sessionDiscover params ∧
      AgentType.ofName? name = some agentType ∧
      s = Plugin.discoveredSession agentType tmuxSession tmuxPaneId workingDir name i.amb := by
  unfold newSession? at h
  split at h
  · rename_i method params hreq
    split_ifs at h with hmethod
    obtain ⟨agentType, -, h⟩ := Option.bind_eq_some_iff.mp h
    obtain ⟨workingDir, -, h⟩ := Option.map_eq_some_iff.mp h
    exact Or.inl ⟨params, agentType, workingDir, by rw [hreq, hmethod], h.symm⟩
  · rename_i name method params hreq
    split_ifs at h with hmethod
    obtain ⟨tmuxSession, -, h⟩ := Option.bind_eq_some_iff.mp h
    obtain ⟨tmuxPaneId, -, h⟩ := Option.bind_eq_some_iff.mp h
    obtain ⟨workingDir, -, h⟩ := Option.bind_eq_some_iff.mp h
    obtain ⟨agentType, hname, h⟩ := Option.map_eq_some_iff.mp h
    exact Or.inr ⟨name, params, agentType, tmuxSession, tmuxPaneId, workingDir,
      by rw [hreq, hmethod], hname, h.symm⟩

/-- A request that asks for an insertion changes no row. -/
theorem act_eq_none_of_newSession? {i : Input} {s : Session} (h : i.newSession? = some s)
    (row : SessionRow) : i.act row = none := by
  rcases newSession?_cases h with ⟨_, _, _, hreq, -⟩ | ⟨_, _, _, _, _, _, hreq, -⟩
  · rw [act, hreq]
    rfl
  · rw [act, hreq]
    rfl

end Input

/-- A report of the owner asks for the change the report makes. -/
theorem OwnerReport.target? {db : Db} {i : Input} {rep : Report} {row : SessionRow}
    (h : OwnerReport db i rep row) : i.target? = some rep.id := by
  obtain ⟨name, params, hreq, hrep, -⟩ := h
  rw [Input.target?, hreq]
  simp only [hrep, Option.map_some]

theorem OwnerReport.row? {db : Db} {i : Input} {rep : Report} {row : SessionRow}
    (h : OwnerReport db i rep row) : db.row? rep.id = some row := by
  obtain ⟨name, params, -, -, hrow, -⟩ := h
  exact hrow

theorem OwnerReport.act {db : Db} {i : Input} {rep : Report} {row : SessionRow}
    (h : OwnerReport db i rep row) : i.act row = rep.change? := by
  obtain ⟨name, params, hreq, hrep, hrow, s, hs, howner, hclock⟩ := h
  rw [Input.act, hreq]
  simp only [if_pos, hrep, hs, Except.toOption, Option.bind_some, howner, hclock, and_self]

theorem OwnerReport.change? {db : Db} {i : Input} {rep : Report} {row : SessionRow}
    (h : OwnerReport db i rep row) : i.change? row = rep.change? := by
  rw [Input.change?_of_row? h.target? h.row?, h.act]

theorem OwnerReport.mem {db : Db} {i : Input} {rep : Report} {row : SessionRow}
    (h : OwnerReport db i rep row) : row ∈ db.sessions.rows :=
  (KeyedTable.find?_eq_some.mp h.row?).1

/-- The request renames the session of `row`. -/
def Renames (db : Db) (i : Input) (row : SessionRow) (name : String) : Prop :=
  ∃ params id, i.request = .control Method.sessionRename params ∧
    params.getStr "name" = some name ∧ i.target? = some id ∧ db.row? id = some row

/-- The request dismisses the error of the session of `row`, which is in error. -/
def Dismisses (db : Db) (i : Input) (row : SessionRow) : Prop :=
  ∃ params id s, i.request = .control Method.sessionDismissError params ∧ i.target? = some id ∧
    db.row? id = some row ∧ rowToSession row = .ok s ∧ s.status = .errored

/-- The request kills the session of `row`, which has not finished. -/
def Kills (db : Db) (i : Input) (row : SessionRow) : Prop :=
  ∃ params id s, i.request = .control Method.sessionKill params ∧ i.target? = some id ∧
    db.row? id = some row ∧ rowToSession row = .ok s ∧ s.status ≠ .finished

/-- Where the change of a row comes from. -/
inductive Cause (db : Db) (i : Input) (row : SessionRow) : Change → Prop
  | rename {name : String} (h : Renames db i row name) : Cause db i row (.rename name)
  | dismiss (h : Dismisses db i row) : Cause db i row (.status .idle i.amb.rowNow)
  | kill (h : Kills db i row) : Cause db i row (.finish i.amb.rowNow)
  | report {rep : Report} {c : Change} (h : OwnerReport db i rep row)
      (hchange : rep.change? = some c) : Cause db i row c

/-- **A row is changed by four kinds of request**, and by a report only when the owner
makes it. -/
theorem Input.cause_of_change? {db : Db} {i : Input} {row : SessionRow} {c : Change}
    (hrow : row ∈ db.sessions.rows) (h : i.change? row = some c) : Cause db i row c := by
  unfold change? at h
  split_ifs at h with htarget
  obtain ⟨id, hid, htext⟩ := Option.map_eq_some_iff.mp htarget
  have hrow' : db.row? id = some row := KeyedTable.find?_eq_some.mpr ⟨hrow, htext.symm⟩
  unfold act at h
  split at h
  · rename_i method params hreq
    split_ifs at h with hrename hdismiss hkill
    · obtain ⟨name, hname, rfl⟩ := Option.map_eq_some_iff.mp h
      exact .rename ⟨params, id, by rw [hreq, hrename], hname, hid, hrow'⟩
    · obtain ⟨s, hs, h⟩ := Option.bind_eq_some_iff.mp h
      split_ifs at h with hstatus
      obtain rfl := Option.some.inj h
      exact .dismiss ⟨params, id, s, by rw [hreq, hdismiss], hid, hrow',
        Except.toOption_eq_some.mp hs, hstatus⟩
    · obtain ⟨s, hs, h⟩ := Option.bind_eq_some_iff.mp h
      split_ifs at h with hterm
      obtain rfl := Option.some.inj h
      exact .kill ⟨params, id, s, by rw [hreq, hkill], hid, hrow', Except.toOption_eq_some.mp hs,
        fun heq => hterm (decide_eq_true heq)⟩
  · rename_i name method params hreq
    split_ifs at h with hreport
    obtain ⟨rep, hrep, h⟩ := Option.bind_eq_some_iff.mp h
    obtain ⟨s, hs, h⟩ := Option.bind_eq_some_iff.mp h
    split_ifs at h with howner
    have hrepid : rep.id = id := by
      rw [target?, hreq] at hid
      simpa [hrep] using hid
    exact .report ⟨name, params, by rw [hreq, hreport], hrep, hrepid ▸ hrow', s,
      Except.toOption_eq_some.mp hs, howner⟩ h

/-- Each cause makes its change. -/
theorem Cause.change? {db : Db} {i : Input} {row : SessionRow} {c : Change}
    (h : Cause db i row c) : i.change? row = some c := by
  cases h with
  | rename h =>
    obtain ⟨params, id, hreq, hname, hid, hrow⟩ := h
    rw [Input.change?_of_row? hid hrow, Input.act, hreq]
    simp [hname]
  | dismiss h =>
    obtain ⟨params, id, s, hreq, hid, hrow, hs, hstatus⟩ := h
    rw [Input.change?_of_row? hid hrow, Input.act, hreq]
    simp [show Method.sessionDismissError ≠ Method.sessionRename by decide,
      Except.toOption_eq_some.mpr hs, hstatus]
  | kill h =>
    obtain ⟨params, id, s, hreq, hid, hrow, hs, hstatus⟩ := h
    rw [Input.change?_of_row? hid hrow, Input.act, hreq]
    simp [show Method.sessionKill ≠ Method.sessionRename by decide,
      show Method.sessionKill ≠ Method.sessionDismissError by decide,
      Except.toOption_eq_some.mpr hs, SessionStatus.isTerminal, hstatus]
  | report h hchange => exact h.change?.trans hchange

/-- A session is owned by the owner of the row it was read from. -/
theorem owner_of_rowToSession {row : SessionRow} {s : Session} (hs : rowToSession row = .ok s) :
    s.owner = row.owner := by
  rw [Session.owner, (rowToSession_ok hs).2.metadata, SessionRow.owner]

/-- A plugin changes the rows it owns, and no others. -/
theorem Input.owner_of_change? {i : Input} {name method : String} {params : Value}
    {row : SessionRow} {c : Change} (hreq : i.request = .plugin name method params)
    (h : i.change? row = some c) : row.owner = some name := by
  unfold change? at h
  split_ifs at h
  rw [act, hreq] at h
  dsimp only at h
  split_ifs at h
  obtain ⟨rep, -, h⟩ := Option.bind_eq_some_iff.mp h
  obtain ⟨s, hs, h⟩ := Option.bind_eq_some_iff.mp h
  split_ifs at h with howner
  rw [← owner_of_rowToSession (Except.toOption_eq_some.mp hs), howner.1]

/-! ### Requests as clients write them

Shorthands for the requests of concrete runs. -/

/-- A plugin discovers a pane. -/
def Request.discover (plugin tmuxSession tmuxPaneId workingDir : String) : Request :=
  .plugin plugin Method.sessionDiscover (discoverParams tmuxSession tmuxPaneId workingDir)

/-- A plugin reports on a session, without a time stamp of its own. -/
def Request.report (plugin : String) (id : Uuid) (kind : String) (payload : Value) : Request :=
  .plugin plugin Method.sessionReportEvent (.object [("payload", payload),
    ("session_id", .string id.toText), ("type", .string kind)])

/-- A plugin reports a change of status. -/
def Request.reportStatus (plugin : String) (id : Uuid) (status : String) : Request :=
  .report plugin id "session.status_changed" (.object [("status", .string status)])

/-- A client renames a session. -/
def Request.rename (id : Uuid) (name : String) : Request :=
  .control Method.sessionRename (.object [("id", .string id.toText), ("name", .string name)])

namespace Ambient

/-- The world at noon, with one fresh identifier to hand out. -/
def noon (id : Uuid) (year : ℤ) : Ambient where
  freshId := id
  rowNow := .noonOf year
  busNow := .noonOf year
  sqlNow := if 0 ≤ year ∧ year ≤ 9999 then some "2026-01-01 12:00:00" else none
  tmux _ := true

end Ambient

end Agentd
