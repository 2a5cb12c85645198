import Agentd.Handlers.Step

/-!
# What a request can come to

`Agentd.handle_footprint` is the inversion rule of `Agentd.handle`: whatever a request is, its
outcome is one of the six of `Agentd.Footprint`. Each names what the sessions table became,
which events went out and what was answered, and the two that leave the table alone by
choice say that nothing could be done. Its consequence `Agentd.next_rows` is the meaning of a
request on the rows: an insertion, or `Agentd.Input.edit` on every row.

Everything that is proved about runs of requests begins here. A property of the rows is shown for
the edits and for new rows, a property of the events for the events of each footprint, and no
handler has to be unfolded again. A handler that is changed, or added, is a matter of its own lemma
in this module and of the case analysis in the dispatchers.
-/

namespace Agentd

open Json Rfc3339
open Plugin (Report)

/-- Nothing that the request asks for can be done to the sessions. -/
structure Input.Idle (i : Input) (db : Db) : Prop where
  insertion : ∀ s, i.newSession? = some s → ∃ e, db.insertSession s = .error e
  change : ∀ row ∈ db.sessions.rows, i.change? row = none

/-- **What the outcome of a request can be.** -/
inductive Footprint (db : Db) (i : Input) (o : Outcome) : Prop
  /-- An error, and nothing happened. -/
  | refused (hidle : i.Idle db) (hdb : o.db = db) (hevents : o.events = []) (hreply : o.IsError)
  /-- A success that leaves the sessions alone. -/
  | answered (hidle : i.Idle db) (hsessions : o.db.sessions = db.sessions)
      (hevents : ∀ e ∈ o.events, e.Inert) (hreply : ¬o.IsError)
  /-- A report of the owner that failed after it was logged. -/
  | logged (rep : Report) (row : SessionRow) (hrep : OwnerReport db i rep row)
      (hbad : rep.UnknownStatus ∨ rep.OversizedUsage) (hidle : i.Idle db)
      (hsessions : o.db.sessions = db.sessions) (hevents : o.events = []) (hreply : o.IsError)
  /-- A session inserted and announced. -/
  | inserted (s : Session) (kind : String) (hs : i.newSession? = some s)
      (hdb : db.insertSession s = .ok o.db)
      (hkind : kind = "session.created" ∨ kind = "session.discovered")
      (hevents : o.events = [⟨kind, some s.id, s.toValue, i.amb.busNow⟩]) (hreply : ¬o.IsError)
  /-- A row changed through the control socket, and read back for the answer. -/
  | updated (method : String) (params : Value) (id : Uuid) (row : SessionRow) (c : Change)
      (e : Event) (missing : ProtocolError) (hreq : i.request = .control method params)
      (htarget : i.target? = some id) (hrow : db.row? id = some row) (hact : i.act row = some c)
      (hdb : o.db = db.change id c)
      (hevents : o.events = [e]) (hid : e.sessionId = some id) (hdescribes : e.Describes c)
      (hreply : o.reply = Mutate.replyRow (o.db.getSession id) missing)
  /-- A row changed by a report of its owner. -/
  | reported (rep : Report) (row : SessionRow) (c : Change) (e : Event)
      (hrep : OwnerReport db i rep row) (hchange : rep.change? = some c)
      (hsessions : o.db.sessions = (db.change rep.id c).sessions)
      (hevents : o.events = [e]) (hid : e.sessionId = some rep.id) (hdescribes : e.Describes c)
      (hreply : ¬o.IsError)

/-! ### Replies

An outcome is an error when its reply is; what else it holds (the database, the events, the calls to
tmux) is to be seen apart from that, and the two need not agree. -/

/-- A reply that is an error makes the outcome one. -/
theorem isError_of_reply {o : Outcome} {e : ProtocolError} (h : o.reply = .error e) : o.IsError :=
  ⟨e, h⟩

theorem not_isError_of_reply {o : Outcome} {v : Value} (h : o.reply = .ok v) : ¬o.IsError := by
  rintro ⟨e, he⟩
  rw [h] at he
  exact absurd he (by simp)

/-! ### The statements of the repository

What `SessionRepo` does to a row it finds, and what it answers when there is none. `get` has two
ways to fail where `update` has one, since it decodes the row as well. -/

/-- An `UPDATE` of a session that is there changes its row and nothing else. -/
theorem updateSession_of_row? {db : Db} {id : Uuid} {row : SessionRow} {f : SessionRow → SessionRow}
    {hf : KeyedTable.Keeps SessionRow.id SessionRow.pane f} (h : db.row? id = some row) :
    db.updateSession id f hf = .ok { db with sessions := db.sessions.modify id.toText f hf } := by
  rw [Db.updateSession, h]

/-- One of a session that is not there touches no row, and the repository says so. -/
theorem updateSession_of_missing {db : Db} {id : Uuid} {f : SessionRow → SessionRow}
    {hf : KeyedTable.Keeps SessionRow.id SessionRow.pane f} (h : db.row? id = none) :
    db.updateSession id f hf = .error (.notFound id) := by
  rw [Db.updateSession, h]

/-- A session is answered when its row is there and decodes. -/
theorem getSession_eq_some {db : Db} {id : Uuid} {s : Session} :
    db.getSession id = .ok (some s) ↔ ∃ row, db.row? id = some row ∧ rowToSession row = .ok s := by
  unfold Db.getSession
  cases hrow : db.row? id with
  | none => simp
  | some row =>
    cases hs : rowToSession row with
    | error e => simp [hs]
    | ok s' => simp [hs]

/-- None is answered when there is no row; a row that does not decode is an error instead. -/
theorem getSession_eq_none {db : Db} {id : Uuid} :
    db.getSession id = .ok none ↔ db.row? id = none := by
  unfold Db.getSession
  cases hrow : db.row? id with
  | none => simp
  | some row => cases hs : rowToSession row <;> simp [hs]

/-! ### The control socket

One lemma for each handler of `mutate.rs`: whatever the parameters and the database, the outcome is
one of the few kinds of `Footprint`. Most of a handler is checks, and each check that fails leads to
a refusal; what is left at the end is one insertion or one change of one row. -/

section Control

variable (params : Value) (db : Db) (amb : Ambient)

/-- A refusal is a footprint when the request would do nothing to the rows. -/
theorem Footprint.of_refuse {db : Db} {i : Input} (hidle : i.Idle db) (e : ProtocolError) :
    Footprint db i (refuse db e) :=
  .refused hidle rfl rfl (isError_of_reply rfl)

/-- A request that asks for no insertion is idle when it changes no row. -/
theorem Input.Idle.of_change {db : Db} {i : Input} (hnew : i.newSession? = none)
    (h : ∀ id row, i.target? = some id → db.row? id = some row → i.act row = none) :
    i.Idle db where
  insertion s hs := by rw [hnew] at hs; cases hs
  change := Input.change?_eq_none_of h

/-- It is idle when the session that it names is not stored. -/
theorem Input.Idle.of_missing {db : Db} {i : Input} {id : Uuid} (hnew : i.newSession? = none)
    (htarget : i.target? = some id) (hrow : db.row? id = none) : i.Idle db := by
  refine .of_change hnew fun id' row ht hrow' => ?_
  rw [htarget, Option.some.injEq] at ht
  rw [← ht, hrow] at hrow'
  cases hrow'

/-- It is idle when it asks nothing of the row that it names. -/
theorem Input.Idle.of_act {db : Db} {i : Input} {id : Uuid} {row : SessionRow}
    (hnew : i.newSession? = none) (htarget : i.target? = some id) (hrow : db.row? id = some row)
    (hact : i.act row = none) : i.Idle db := by
  refine .of_change hnew fun id' row' ht hrow' => ?_
  rw [htarget, Option.some.injEq] at ht
  rw [← ht, hrow, Option.some.injEq] at hrow'
  rw [← hrow', hact]

/-- `session_create` inserts a session, or refuses. -/
theorem footprint_sessionCreate :
    Footprint db ⟨.control Method.sessionCreate params, amb⟩ (Mutate.sessionCreate params db amb) := by
  have hchange : ∀ row ∈ db.sessions.rows,
      Input.change? ⟨.control Method.sessionCreate params, amb⟩ row = none :=
    Input.change?_eq_none_of fun _ _ _ _ => rfl
  unfold Mutate.sessionCreate
  cases hagent : (params.getStr "agent_type").bind AgentType.ofName? with
  | none =>
    refine .of_refuse ⟨fun s hs => ?_, hchange⟩ _
    simp [Input.newSession?, hagent] at hs
  | some agentType =>
    cases hdir : params.getStr "working_dir" with
    | none =>
      refine .of_refuse ⟨fun s hs => ?_, hchange⟩ _
      simp [Input.newSession?, hagent, hdir] at hs
    | some workingDir =>
      have hnew : Input.newSession? ⟨.control Method.sessionCreate params, amb⟩ =
          some (Mutate.newSession agentType workingDir
            ((params.getStr "name").getD (defaultName workingDir)) amb) := by
        simp [Input.newSession?, hagent, hdir]
      dsimp only
      split
      · rename_i e hins
        refine .of_refuse ⟨fun s hs => ?_, hchange⟩ _
        rw [hnew] at hs
        exact ⟨e, Option.some.inj hs ▸ hins⟩
      · rename_i db' hins
        exact .inserted _ _ hnew hins (Or.inl rfl) rfl (not_isError_of_reply rfl)

/-- `session_rename` changes the name, and then reads the row back for its answer. -/
theorem footprint_sessionRename :
    Footprint db ⟨.control Method.sessionRename params, amb⟩ (Mutate.sessionRename params db amb) := by
  have hnew : Input.newSession? ⟨.control Method.sessionRename params, amb⟩ = none := rfl
  unfold Mutate.sessionRename
  cases hid : params.getStr "id" with
  | none =>
    refine .of_refuse (.of_change hnew fun id row ht _ => ?_) _
    simp [Input.target?, hid] at ht
  | some idStr =>
    cases hname : params.getStr "name" with
    | none =>
      refine .of_refuse (.of_change hnew fun id row _ _ => ?_) _
      simp [Input.act, hname]
    | some name =>
      cases huuid : Uuid.parseStr idStr with
      | none =>
        simp only [huuid]
        refine .of_refuse (.of_change hnew fun id row ht _ => ?_) _
        simp [Input.target?, hid, huuid] at ht
      | some id =>
        have htarget : Input.target? ⟨.control Method.sessionRename params, amb⟩ = some id := by
          simp [Input.target?, hid, huuid]
        cases hrow : db.row? id with
        | none =>
          have hupdate : db.updateRename id name = .error (.notFound id) :=
            updateSession_of_missing hrow
          simp only [huuid, hupdate]
          exact .of_refuse (.of_missing hnew htarget hrow) _
        | some row =>
          have hupdate : db.updateRename id name = .ok (db.change id (.rename name)) :=
            updateSession_of_row? hrow
          simp only [huuid, hupdate]
          exact .updated _ _ id row (.rename name) _ _ rfl htarget hrow (by simp [Input.act, hname])
            rfl rfl rfl ⟨rfl, rfl⟩ rfl

/-- What `requestedSession` finds is what the request names, decoded. -/
theorem requestedSession_eq_ok (method : String) {id : Uuid} {s : Session}
    (h : Mutate.requestedSession params db = .ok (id, s)) :
    Input.target? ⟨.control method params, amb⟩ = some id ∧
      ∃ row, db.row? id = some row ∧ rowToSession row = .ok s := by
  unfold Mutate.requestedSession at h
  split at h
  · cases h
  · rename_i idStr hid
    split at h
    · cases h
    · rename_i id' huuid
      split at h
      · rename_i s' hs
        obtain ⟨rfl, rfl⟩ := Prod.mk.inj (Except.ok.inj h)
        exact ⟨by simp [Input.target?, hid, huuid], getSession_eq_some.mp hs⟩
      · cases h

/-- A request that names no session that decodes does nothing, unless it renames. -/
theorem idle_of_requestedSession {method : String} {e : ProtocolError}
    (hnew : Input.newSession? ⟨.control method params, amb⟩ = none)
    (hrename : method ≠ Method.sessionRename)
    (h : Mutate.requestedSession params db = .error e) :
    Input.Idle ⟨.control method params, amb⟩ db := by
  refine .of_change hnew fun id row ht hrow => ?_
  cases hs : rowToSession row with
  | error e' => simp [Input.act, hrename, hs, Except.toOption]
  | ok s =>
    -- then the session would have been found
    have hget := getSession_eq_some.mpr ⟨row, hrow, hs⟩
    obtain ⟨idStr, hid, huuid⟩ := Option.bind_eq_some_iff.mp ht
    unfold Mutate.requestedSession at h
    simp only [hid, huuid, hget] at h
    cases h

/-- `session_dismiss_error` changes the status of a session in error, and refuses for the others. -/
theorem footprint_sessionDismissError :
    Footprint db ⟨.control Method.sessionDismissError params, amb⟩
      (Mutate.sessionDismissError params db amb) := by
  have hnew : Input.newSession? ⟨.control Method.sessionDismissError params, amb⟩ = none := rfl
  unfold Mutate.sessionDismissError
  split
  · rename_i e h
    exact .of_refuse (idle_of_requestedSession params db amb hnew (by decide) h) e
  · rename_i id s h
    obtain ⟨htarget, row, hrow, hs⟩ :=
      requestedSession_eq_ok params db amb Method.sessionDismissError h
    have hact : Input.act ⟨.control Method.sessionDismissError params, amb⟩ row =
        if s.status = .errored then some (.status .idle amb.rowNow) else none := by
      simp [Input.act, show Method.sessionDismissError ≠ Method.sessionRename by decide, hs,
        Except.toOption]
    split_ifs with hstatus
    · exact .of_refuse (.of_act hnew htarget hrow (by rw [hact, if_neg hstatus])) _
    · rw [not_not] at hstatus
      have hupdate : db.updateStatus id .idle amb.rowNow =
          .ok (db.change id (.status .idle amb.rowNow)) := updateSession_of_row? hrow
      simp only [hupdate]
      exact .updated _ _ id row (.status .idle amb.rowNow) _ _ rfl htarget hrow
        (by rw [hact, if_pos hstatus]) rfl rfl rfl (Or.inr ⟨rfl, rfl⟩) rfl

/-- `session_jump` asks tmux for a switch, and writes nothing. -/
theorem footprint_sessionJump :
    Footprint db ⟨.control Method.sessionJump params, amb⟩ (Mutate.sessionJump params db amb) := by
  have hidle : Input.Idle ⟨.control Method.sessionJump params, amb⟩ db :=
    .of_change rfl fun _ _ _ _ => rfl
  unfold Mutate.sessionJump
  split
  · exact .of_refuse hidle _
  · split
    · exact .of_refuse hidle _
    · dsimp only
      split_ifs
      · -- the jump goes out as an event, for the client that holds the terminal
        refine .answered hidle rfl (fun e he => ?_) (not_isError_of_reply rfl)
        rw [List.mem_singleton.mp he]
        exact Or.inr (Or.inl rfl)
      · exact .refused hidle rfl rfl (isError_of_reply rfl)

/-- `session_kill` marks a session finished that was not, and asks tmux to kill. -/
theorem footprint_sessionKill :
    Footprint db ⟨.control Method.sessionKill params, amb⟩ (Mutate.sessionKill params db amb) := by
  have hnew : Input.newSession? ⟨.control Method.sessionKill params, amb⟩ = none := rfl
  unfold Mutate.sessionKill
  split
  · rename_i e h
    exact .of_refuse (idle_of_requestedSession params db amb hnew (by decide) h) e
  · rename_i id s h
    obtain ⟨htarget, row, hrow, hs⟩ :=
      requestedSession_eq_ok params db amb Method.sessionKill h
    have hact : Input.act ⟨.control Method.sessionKill params, amb⟩ row =
        if s.status.isTerminal then none else some (.finish amb.rowNow) := by
      simp [Input.act, show Method.sessionKill ≠ Method.sessionRename by decide,
        show Method.sessionKill ≠ Method.sessionDismissError by decide, hs, Except.toOption]
    split_ifs with hterm
    · exact .of_refuse (.of_act hnew htarget hrow (by rw [hact, if_pos hterm])) _
    · have hupdate : db.markFinished id amb.rowNow = .ok (db.change id (.finish amb.rowNow)) :=
        updateSession_of_row? hrow
      simp only [hupdate]
      exact .updated _ _ id row (.finish amb.rowNow) _ _ rfl htarget hrow
        (by rw [hact, if_neg hterm]) rfl rfl rfl (Or.inl rfl) rfl

/-- **Every method of the control socket leaves one of these footprints.** -/
theorem footprint_control (method : String) :
    Footprint db ⟨.control method params, amb⟩ (Mutate.dispatch method params db amb) := by
  unfold Mutate.dispatch
  split_ifs with hcreate hrename hdismiss hjump hkill hshutdown
  · rw [hcreate]; exact footprint_sessionCreate params db amb
  · rw [hrename]; exact footprint_sessionRename params db amb
  · rw [hdismiss]; exact footprint_sessionDismissError params db amb
  · rw [hjump]; exact footprint_sessionJump params db amb
  · rw [hkill]; exact footprint_sessionKill params db amb
  · rw [hshutdown]
    refine .answered (.of_change rfl fun _ _ _ _ => rfl) rfl (fun e he => ?_)
      (not_isError_of_reply rfl)
    rw [List.mem_singleton.mp he]
    exact Or.inr (Or.inr rfl)
  · refine .of_refuse (.of_change ?_ fun _ _ _ _ => ?_) _
    · simp [Input.newSession?, hcreate]
    · simp [Input.act, hrename, hdismiss, hkill]

end Control

/-! ### Reports

A report is logged before it is looked at, and then applied by its kind. Which change a report
stands for (`Report.change?`) does not depend on the database; that the handler makes exactly this
change, and when it fails instead, is said once here for all kinds. -/

/-- A count of 2⁶³ or more does not go into a column. -/
theorem bindU64_of_le {x : Option UInt64} {n : UInt64} (hn : x = some n) (hle : 2 ^ 63 ≤ n.toNat) :
    bindU64 x = .error .toSqlConversionFailure := by
  rw [hn, bindU64, if_neg (not_lt.mpr hle)]

/-- A count below 2⁶³ can be bound to a parameter of SQLite. -/
theorem exists_bindU64 {x : Option UInt64} (h : ¬∃ n, x = some n ∧ 2 ^ 63 ≤ n.toNat) :
    ∃ y, bindU64 x = .ok y :=
  ⟨_, bindU64_eq_ok.mpr ⟨rfl, fun n hn => not_le.mp fun hle => h ⟨n, hn, hle⟩⟩⟩

section Reports

variable {rep : Report} {db : Db} {row : SessionRow} (eventId : ℕ) (amb : Ambient)

/-- A report that makes a change is accepted, and its one event stands for the change. -/
theorem applyReport_of_change? (hrow : db.row? rep.id = some row) {c : Change}
    (h : rep.change? = some c) :
    ∃ e : Event, e.sessionId = some rep.id ∧ e.Describes c ∧
      Plugin.applyReport rep db eventId amb = Plugin.accept (db.change rep.id c) eventId [e] := by
  unfold Plugin.Report.change? at h
  unfold Plugin.applyReport
  -- the two definitions branch on the same kinds
  split_ifs at h ⊢ with hstatus htask husage hfinish
  · obtain ⟨new, hnew, rfl⟩ := Option.map_eq_some_iff.mp h
    obtain ⟨s, hs, hname⟩ := Option.bind_eq_some_iff.mp hnew
    have hupdate : db.updateStatus rep.id new rep.ts = .ok (db.change rep.id (.status new rep.ts)) :=
      updateSession_of_row? hrow
    simp only [hs, hname, hupdate]
    refine ⟨_, rfl, Or.inl ⟨rfl, ?_⟩, rfl⟩
    rw [SessionStatus.ofName?_eq_some.mp hname]
  · obtain ⟨task, htext, rfl⟩ := Option.map_eq_some_iff.mp h
    have hupdate : db.updateTask rep.id (some task) rep.ts =
        .ok (db.change rep.id (.task task rep.ts)) := updateSession_of_row? hrow
    simp only [htext, hupdate]
    exact ⟨_, rfl, ⟨rfl, rfl⟩, rfl⟩
  · cases hused : bindU64 rep.used with
    | error e => simp [hused] at h
    | ok used =>
      cases htotal : bindU64 rep.total with
      | error e => simp [hused, htotal] at h
      | ok total =>
        simp only [hused, htotal, Option.some.injEq] at h
        subst h
        have hupdate : db.updateUsage rep.id rep.used rep.total rep.cost rep.ts =
            .ok (db.change rep.id (.usage used total (bindF64 rep.cost) rep.ts)) := by
          rw [Db.updateUsage, hused, htotal]
          exact updateSession_of_row? hrow
        simp only [Plugin.Report.used, Plugin.Report.total, Plugin.Report.cost] at hupdate
        simp only [hupdate]
        refine ⟨_, rfl, ?_, rfl⟩
        exact Eq.refl "session.usage_updated"
  · obtain rfl := Option.some.inj h
    have hupdate : db.markFinished rep.id rep.ts = .ok (db.change rep.id (.finish rep.ts)) :=
      updateSession_of_row? hrow
    simp only [hupdate]
    exact ⟨_, rfl, Or.inr rfl, rfl⟩

/-- Only the kinds that need the owner make a change. -/
theorem Plugin.Report.mutating_of_change? {rep : Report} {c : Change} (h : rep.change? = some c) :
    rep.Mutating := by
  unfold Plugin.Report.change? at h
  split_ifs at h with hstatus htask husage hfinish
  · exact Or.inl hstatus
  · exact Or.inr (Or.inl htask)
  · exact Or.inr (Or.inr (Or.inl husage))
  · exact Or.inr (Or.inr (Or.inr hfinish))

/-- Only a report that would change the row can have a bad payload. -/
theorem Plugin.Report.mutating_of_bad {rep : Report} (h : rep.UnknownStatus ∨ rep.OversizedUsage) :
    rep.Mutating := by
  rcases h with ⟨hkind, -⟩ | ⟨hkind, -⟩
  · exact Or.inl hkind
  · exact Or.inr (Or.inr (Or.inl hkind))

/-- A report that names no status there is, or counts that cannot be stored, is
refused. -/
theorem applyReport_of_bad (db : Db) (h : rep.UnknownStatus ∨ rep.OversizedUsage) :
    rep.change? = none ∧ ∃ e, Plugin.applyReport rep db eventId amb = refuse db e := by
  unfold Plugin.Report.change? Plugin.applyReport
  rcases h with ⟨hkind, s, hs, hname⟩ | ⟨hkind, n, hn, hle⟩
  · rw [if_pos hkind, if_pos hkind]
    simp [hs, hname]
  · have hne₁ : rep.kind ≠ "session.status_changed" := by rw [hkind]; decide
    have hne₂ : rep.kind ≠ "session.task_changed" := by rw [hkind]; decide
    rw [if_neg hne₁, if_neg hne₂, if_pos hkind, if_neg hne₁, if_neg hne₂, if_pos hkind]
    have hbind : (∃ e, bindU64 rep.used = .error e) ∨ ∃ e, bindU64 rep.total = .error e := by
      rcases hn with hn | hn
      · exact Or.inl ⟨_, bindU64_of_le hn hle⟩
      · exact Or.inr ⟨_, bindU64_of_le hn hle⟩
    have hupdate : ∃ e, db.updateUsage rep.id rep.used rep.total rep.cost rep.ts = .error e := by
      unfold Db.updateUsage
      rcases hbind with ⟨e, he⟩ | ⟨e, he⟩
      · simp [he]
      · cases hused : bindU64 rep.used <;> simp [he]
    obtain ⟨e, hupdate⟩ := hupdate
    simp only [Plugin.Report.used, Plugin.Report.total, Plugin.Report.cost] at hupdate
    refine ⟨?_, .internalError, by simp only [hupdate]⟩
    rcases hbind with ⟨e, he⟩ | ⟨e, he⟩
    · simp [he]
    · cases hused : bindU64 rep.used <;> simp [he]

/-- A report that makes no change for any other reason is accepted. -/
theorem applyReport_of_none (h : rep.change? = none) (hstatus : ¬rep.UnknownStatus)
    (husage : ¬rep.OversizedUsage) :
    Plugin.applyReport rep db eventId amb = Plugin.accept db eventId [] := by
  unfold Plugin.Report.change? at h
  unfold Plugin.applyReport
  split_ifs at h ⊢ with hk₁ hk₂ hk₃ hk₄
  · cases hs : rep.payload.getStr "status" with
    | none => rfl
    | some s =>
      cases hname : SessionStatus.ofName? s with
      | none => exact absurd ⟨hk₁, s, hs, hname⟩ hstatus
      | some new => simp [hs, hname] at h
  · cases htask : rep.payload.getStr "task" with
    | none => rfl
    | some task => simp [htask] at h
  · -- both counts can be stored, so the update would have been a change
    exfalso
    have hused : ∃ y, bindU64 rep.used = .ok y :=
      exists_bindU64 fun ⟨n, hn, hle⟩ => husage ⟨hk₃, n, Or.inl hn, hle⟩
    have htotal : ∃ y, bindU64 rep.total = .ok y :=
      exists_bindU64 fun ⟨n, hn, hle⟩ => husage ⟨hk₃, n, Or.inr hn, hle⟩
    obtain ⟨used, hused⟩ := hused
    obtain ⟨total, htotal⟩ := htotal
    simp [hused, htotal] at h
  · rfl

end Reports

/-! ### The plugin sockets

The same for `plugin_handlers.rs`. A plugin may greet, discover a session and report on one; the
other methods touch no table. -/

section Plugins

variable (params : Value) (db : Db) (name : String) (amb : Ambient)

/-- `plugin_hello` enters the plugin, and no session. -/
theorem footprint_pluginHello :
    Footprint db ⟨.plugin name Method.pluginHello params, amb⟩
      (Plugin.pluginHello params db name amb) := by
  have hidle : Input.Idle ⟨.plugin name Method.pluginHello params, amb⟩ db :=
    .of_change rfl fun _ _ _ _ => rfl
  unfold Plugin.pluginHello
  split
  · exact .of_refuse hidle _
  · split_ifs
    · exact .of_refuse hidle _
    · refine .answered hidle ?_ (fun e he => ?_) (not_isError_of_reply rfl)
      · dsimp only [Db.setLastConnected, Db.setPlugin, Db.upsertPlugin]
        split <;> rfl
      · rw [List.mem_singleton.mp he]
        exact Or.inl rfl

/-- `session_discover` inserts a session, or fails on the pane it names. -/
theorem footprint_sessionDiscover :
    Footprint db ⟨.plugin name Method.sessionDiscover params, amb⟩
      (Plugin.sessionDiscover params db name amb) := by
  have hchange : ∀ row ∈ db.sessions.rows,
      Input.change? ⟨.plugin name Method.sessionDiscover params, amb⟩ row = none :=
    Input.change?_eq_none_of fun _ _ _ _ => rfl
  have hrefuse (e : ProtocolError)
      (h : Input.newSession? ⟨.plugin name Method.sessionDiscover params, amb⟩ = none) :
      Footprint db ⟨.plugin name Method.sessionDiscover params, amb⟩ (refuse db e) := by
    refine .of_refuse ⟨fun s hs => ?_, hchange⟩ e
    rw [h] at hs
    cases hs
  unfold Plugin.sessionDiscover
  cases hsession : params.getStr "tmux_session" with
  | none => exact hrefuse _ (by simp [Input.newSession?, hsession])
  | some tmuxSession =>
    cases hpane : params.getStr "tmux_pane_id" with
    | none => exact hrefuse _ (by simp [Input.newSession?, hsession, hpane])
    | some tmuxPaneId =>
      cases hdir : params.getStr "working_dir" with
      | none => exact hrefuse _ (by simp [Input.newSession?, hsession, hpane, hdir])
      | some workingDir =>
        cases hagent : AgentType.ofName? name with
        | none =>
          dsimp only
          exact hrefuse _ (by simp [Input.newSession?, hsession, hpane, hdir, hagent])
        | some agentType =>
          have hnew : Input.newSession? ⟨.plugin name Method.sessionDiscover params, amb⟩ =
              some (Plugin.discoveredSession agentType tmuxSession tmuxPaneId workingDir name
                amb) := by
            simp [Input.newSession?, hsession, hpane, hdir, hagent]
          dsimp only
          split
          · rename_i e hins
            refine .of_refuse ⟨fun s hs => ?_, hchange⟩ _
            rw [hnew] at hs
            exact ⟨e, Option.some.inj hs ▸ hins⟩
          · rename_i db' hins
            exact .inserted _ _ hnew hins (Or.inr rfl) rfl (not_isError_of_reply rfl)

/-- What a report asks of a row that decodes. -/
theorem act_report {rep : Report} {row : SessionRow} {s : Session}
    (hrep : Plugin.Report.ofParams params amb.rowNow = some rep) (hs : rowToSession row = .ok s) :
    Input.act ⟨.plugin name Method.sessionReportEvent params, amb⟩ row =
      if s.owner = some name ∧ amb.sqlNow.isSome then rep.change? else none := by
  simp [Input.act, hrep, hs, Except.toOption]

/-- A report is about the session it names. -/
theorem target?_report {rep : Report} (hrep : Plugin.Report.ofParams params amb.rowNow = some rep) :
    Input.target? ⟨.plugin name Method.sessionReportEvent params, amb⟩ = some rep.id := by
  simp [Input.target?, hrep]

/-- A report that passed the check of the owner is applied to the tables where it is
logged already: this is where a refusal comes too late. -/
theorem footprint_applyReport {rep : Report} {row : SessionRow} {s : Session}
    (hrep : Plugin.Report.ofParams params amb.rowNow = some rep)
    (hrow : db.row? rep.id = some row) (hs : rowToSession row = .ok s)
    (howner : rep.Mutating → s.owner = some name) {now : String} (hnow : amb.sqlNow = some now) :
    Footprint db ⟨.plugin name Method.sessionReportEvent params, amb⟩
      (Plugin.applyReport rep (db.logged rep now) (db.lastEventId + 1) amb) := by
  have hclock : amb.sqlNow.isSome := Option.isSome_of_eq_some hnow
  have hidle (hnone : rep.change? = none) :
      Input.Idle ⟨.plugin name Method.sessionReportEvent params, amb⟩ db := by
    refine .of_act rfl (target?_report params name amb hrep) hrow ?_
    rw [act_report params name amb hrep hs, hnone, ite_self]
  cases hchange : rep.change? with
  | some c =>
    have howner := howner (Plugin.Report.mutating_of_change? hchange)
    obtain ⟨e, hid, hdescribes, happly⟩ := applyReport_of_change? (db.lastEventId + 1) amb
      (show (db.logged rep now).row? rep.id = some row from hrow) hchange
    rw [happly]
    exact .reported rep row c e ⟨name, params, rfl, hrep, hrow, s, hs, howner, hclock⟩ hchange rfl
      rfl hid hdescribes (not_isError_of_reply rfl)
  | none =>
    by_cases hbad : rep.UnknownStatus ∨ rep.OversizedUsage
    · have howner := howner (Plugin.Report.mutating_of_bad hbad)
      obtain ⟨-, e, happly⟩ := applyReport_of_bad (db.lastEventId + 1) amb
        (db.logged rep now) hbad
      rw [happly]
      exact .logged rep row ⟨name, params, rfl, hrep, hrow, s, hs, howner, hclock⟩ hbad
        (hidle hchange) rfl rfl (isError_of_reply rfl)
    · rw [not_or] at hbad
      rw [applyReport_of_none _ amb hchange hbad.1 hbad.2]
      exact .answered (hidle hchange) rfl (by simp [Plugin.accept]) (not_isError_of_reply rfl)

/-- `session_report_event` logs and applies, or refuses before it has written anything, or fails
after it has. -/
theorem footprint_sessionReportEvent :
    Footprint db ⟨.plugin name Method.sessionReportEvent params, amb⟩
      (Plugin.sessionReportEvent params db name amb) := by
  unfold Plugin.sessionReportEvent
  cases hrep : Plugin.Report.ofParams params amb.rowNow with
  | none =>
    refine .of_refuse (.of_change rfl fun id row ht _ => ?_) _
    simp [Input.target?, hrep] at ht
  | some rep =>
    have htarget := target?_report params name amb hrep
    dsimp only
    cases hrow : db.row? rep.id with
    | none =>
      rw [getSession_eq_none.mpr hrow]
      exact .of_refuse (.of_missing rfl htarget hrow) _
    | some row =>
      cases hs : rowToSession row with
      | error e =>
        have hget : db.getSession rep.id = .error (.sqlite e) := by
          rw [Db.getSession, hrow]
          simp only [hs]
        rw [hget]
        refine .of_refuse (.of_act rfl htarget hrow ?_) _
        simp [Input.act, hrep, hs, Except.toOption]
      | ok s =>
        rw [getSession_eq_some.mpr ⟨row, hrow, hs⟩]
        dsimp only
        by_cases hforeign : rep.Mutating ∧ s.owner ≠ some name
        · rw [if_pos hforeign]
          refine .of_refuse (.of_act rfl htarget hrow ?_) _
          rw [act_report params name amb hrep hs, if_neg (mt And.left hforeign.2)]
        · rw [if_neg hforeign]
          cases hnow : amb.sqlNow with
          | none =>
            -- the time of the log must not be `NULL`
            simp only [insertEvent_none hrow]
            refine .of_refuse (.of_act rfl htarget hrow ?_) _
            rw [act_report params name amb hrep hs, if_neg]
            rw [hnow]
            exact fun h => absurd h.2 (by decide)
          | some now =>
            -- the foreign key of the log holds, since the session was found
            simp only [insertEvent_some hrow]
            refine footprint_applyReport params db name amb hrep hrow hs (fun hmutating => ?_) hnow
            by_contra hne
            exact hforeign ⟨hmutating, hne⟩

/-- **Every method of a plugin leaves one of these footprints.** -/
theorem footprint_plugin (method : String) :
    Footprint db ⟨.plugin name method params, amb⟩
      (Plugin.dispatch method params db name amb) := by
  have hidle (hdiscover : method ≠ Method.sessionDiscover)
      (hreport : method ≠ Method.sessionReportEvent) :
      Input.Idle ⟨.plugin name method params, amb⟩ db := by
    refine .of_change ?_ fun _ _ _ _ => ?_
    · simp [Input.newSession?, hdiscover]
    · simp [Input.act, hreport]
  unfold Plugin.dispatch
  split_ifs with hhello hdiscover hreport hheartbeat hbye
  · rw [hhello]; exact footprint_pluginHello params db name amb
  · rw [hdiscover]; exact footprint_sessionDiscover params db name amb
  · rw [hreport]; exact footprint_sessionReportEvent params db name amb
  · exact .answered (hidle hdiscover hreport) rfl (by simp [Plugin.pluginHeartbeat])
      (not_isError_of_reply rfl)
  · exact .answered (hidle hdiscover hreport) rfl (by simp [Plugin.pluginBye])
      (not_isError_of_reply rfl)
  · exact .of_refuse (hidle hdiscover hreport) _

end Plugins

/-- A report of the owner is logged, and then applied. -/
theorem handle_of_ownerReport {db : Db} {i : Input} {rep : Report} {row : SessionRow}
    (h : OwnerReport db i rep row) :
    ∃ now, handle db i =
      Plugin.applyReport rep (db.logged rep now) (db.lastEventId + 1) i.amb := by
  obtain ⟨name, params, hreq, hrep, hrow, s, hs, howner, hclock⟩ := h
  obtain ⟨now, hnow⟩ := Option.isSome_iff_exists.mp hclock
  refine ⟨now, ?_⟩
  rw [handle, hreq]
  show Plugin.sessionReportEvent params db name i.amb = _
  unfold Plugin.sessionReportEvent
  simp only [hrep, getSession_eq_some.mpr ⟨row, hrow, hs⟩, howner, ne_eq, not_true_eq_false,
    and_false, if_false, hnow, insertEvent_some hrow]

/-- **Every request comes to one of the outcomes of `Agentd.Footprint`.** -/
theorem handle_footprint (db : Db) (i : Input) : Footprint db i (handle db i) := by
  obtain ⟨request, amb⟩ := i
  cases request with
  | control method params => exact footprint_control params db amb method
  | plugin name method params => exact footprint_plugin params db name amb method

/-! ### The meaning of a request on the rows

The table of the sessions after a request is that before, with every row edited as the request says
(`Input.edit`) and perhaps one row more. All that is proved about runs goes through this: a property
of rows is kept when edits keep it and new rows have it. -/

/-- An insertion succeeds when the session can be stored, and neither its id nor its pane is taken.
-/
theorem insertSession_eq_ok {db db' : Db} {s : Session} :
    db.insertSession s = .ok db' ↔
      ∃ row t, sessionToRow s = .ok row ∧ db.sessions.insert? row = some t ∧
        db' = { db with sessions := t } := by
  unfold Db.insertSession
  cases hrow : sessionToRow s with
  | error e => simp
  | ok row =>
    cases ht : db.sessions.insert? row with
    | none => simp [ht]
    | some t => simp [ht, eq_comm]

/-- A request that changes no row edits none. -/
theorem map_edit_of_idle {db : Db} {i : Input} (h : ∀ row ∈ db.sessions.rows, i.change? row = none) :
    db.sessions.rows.map i.edit = db.sessions.rows := by
  conv_rhs => rw [← List.map_id db.sessions.rows]
  exact List.map_congr_left fun row hrow => Input.edit_of_change?_eq_none (h row hrow)

/-- The row of the session named gets the change, the others stay. -/
theorem change_rows {db : Db} {i : Input} {id : Uuid} {row : SessionRow} {c : Change}
    (htarget : i.target? = some id) (hrow : db.row? id = some row) (hact : i.act row = some c) :
    (db.change id c).sessions.rows = db.sessions.rows.map i.edit := by
  refine List.map_congr_left fun r hr => ?_
  split_ifs with hid
  · have hr' : db.row? id = some r := KeyedTable.find?_eq_some.mpr ⟨hr, hid⟩
    rw [hrow, Option.some.injEq] at hr'
    subst hr'
    rw [Input.edit_of_change?_eq_some ((Input.change?_of_row? htarget hrow).trans hact)]
  · refine (Input.edit_of_change?_eq_none ?_).symm
    rw [Input.change?, htarget, Option.map_some, if_neg]
    rw [Option.some.injEq]
    exact fun h => hid h.symm

/-- **What a request does to the rows**: it inserts one, or edits each when it has none
to insert or the insertion fails. -/
theorem next_rows (db : Db) (i : Input) :
    ((∀ s, i.newSession? = some s → ∃ e, db.insertSession s = .error e) ∧
      (next db i).sessions.rows = db.sessions.rows.map i.edit) ∨
      ∃ s row, i.newSession? = some s ∧ sessionToRow s = .ok row ∧
        db.sessions.insert? row = some (next db i).sessions := by
  -- no request does both
  have hnone {row : SessionRow} {c : Change} (hact : i.act row = some c) :
      ∀ s, i.newSession? = some s → ∃ e, db.insertSession s = .error e := by
    intro s hs
    rw [Input.act_eq_none_of_newSession? hs] at hact
    cases hact
  unfold next
  cases handle_footprint db i with
  | refused hidle hdb =>
    rw [hdb, map_edit_of_idle hidle.change]
    exact Or.inl ⟨hidle.insertion, rfl⟩
  | answered hidle hsessions =>
    rw [hsessions, map_edit_of_idle hidle.change]
    exact Or.inl ⟨hidle.insertion, rfl⟩
  | logged _ _ _ _ hidle hsessions =>
    rw [hsessions, map_edit_of_idle hidle.change]
    exact Or.inl ⟨hidle.insertion, rfl⟩
  | inserted s _ hs hdb =>
    obtain ⟨row, t, hrow, ht, hdb⟩ := insertSession_eq_ok.mp hdb
    rw [hdb]
    exact Or.inr ⟨s, row, hs, hrow, ht⟩
  | updated _ _ id row c _ _ _ htarget hrow hact hdb =>
    rw [hdb]
    exact Or.inl ⟨hnone hact, change_rows htarget hrow hact⟩
  | reported rep row c _ hrep hchange hsessions =>
    have hact := hrep.act.trans hchange
    rw [hsessions]
    exact Or.inl ⟨hnone hact, change_rows hrep.target? hrep.row? hact⟩

/-- A row stays in the table, edited. -/
theorem edit_mem_next {db : Db} {row : SessionRow} (h : row ∈ db.sessions.rows) (i : Input) :
    i.edit row ∈ (next db i).sessions.rows := by
  rcases next_rows db i with ⟨-, hrows⟩ | ⟨s, new, hs, -, hins⟩
  · rw [hrows]
    exact List.mem_map_of_mem h
  · have hact : i.change? row = none := by
      unfold Input.change?
      rw [Input.act_eq_none_of_newSession? hs, ite_self]
    rw [Input.edit_of_change?_eq_none hact, (KeyedTable.insert?_eq_some.mp hins).2]
    exact List.mem_append_left _ h

/-- The row with an identifier after a request is the one with it before, edited. -/
theorem eq_edit_of_mem_next {db : Db} {i : Input} {row row' : SessionRow}
    (hrow : row ∈ db.sessions.rows) (hrow' : row' ∈ (next db i).sessions.rows)
    (hid : row'.id = row.id) : row' = i.edit row :=
  (next db i).sessions.eq_of_key_eq hrow' (edit_mem_next hrow i) (hid.trans (i.edit_id row).symm)

/-- A row after a request was one before it, edited, or has just been inserted. -/
theorem mem_next_rows {db : Db} {i : Input} {row' : SessionRow}
    (h : row' ∈ (next db i).sessions.rows) :
    (∃ row ∈ db.sessions.rows, row' = i.edit row) ∨
      ∃ s db', i.newSession? = some s ∧ sessionToRow s = .ok row' ∧ db.insertSession s = .ok db' := by
  rcases next_rows db i with ⟨-, hrows⟩ | ⟨s, new, hs, hnew, hins⟩
  · rw [hrows] at h
    obtain ⟨row, hrow, rfl⟩ := List.mem_map.mp h
    exact Or.inl ⟨row, hrow, rfl⟩
  · rw [(KeyedTable.insert?_eq_some.mp hins).2, List.mem_append, List.mem_singleton] at h
    rcases h with hrow | rfl
    · have hact : i.change? row' = none := by
        unfold Input.change?
        rw [Input.act_eq_none_of_newSession? hs, ite_self]
      exact Or.inl ⟨row', hrow, (Input.edit_of_change?_eq_none hact).symm⟩
    · exact Or.inr ⟨s, _, hs, hnew, insertSession_eq_ok.mpr ⟨row', _, hnew, hins, rfl⟩⟩

/-- A session that can be inserted has its row in the table afterwards. -/
theorem exists_inserted_mem_next {db db' : Db} {i : Input} {s : Session}
    (hs : i.newSession? = some s) (hins : db.insertSession s = .ok db') :
    ∃ row ∈ (next db i).sessions.rows, sessionToRow s = .ok row := by
  rcases next_rows db i with ⟨hfail, -⟩ | ⟨s', new, hs', hnew, hins'⟩
  · obtain ⟨e, he⟩ := hfail s hs
    rw [hins] at he
    cases he
  · obtain rfl : s = s' := Option.some.inj (hs.symm.trans hs')
    refine ⟨new, ?_, hnew⟩
    rw [(KeyedTable.insert?_eq_some.mp hins').2]
    exact List.mem_append_right _ (List.mem_singleton_self _)

/-- **A property of rows that every inserted row has holds of all rows after a request
exactly when the edits give it.** -/
theorem forall_next_rows {db : Db} {i : Input} {Q : SessionRow → Prop}
    (hnew : ∀ s row, i.newSession? = some s → sessionToRow s = .ok row → Q row) :
    (∀ row ∈ (next db i).sessions.rows, Q row) ↔ ∀ row ∈ db.sessions.rows, Q (i.edit row) := by
  refine ⟨fun h row hrow => h _ (edit_mem_next hrow i), fun h row' hrow' => ?_⟩
  rcases mem_next_rows hrow' with ⟨row, hrow, rfl⟩ | ⟨s, _, hs, hnew', -⟩
  · exact h row hrow
  · exact hnew s row' hs hnew'

/-! ### Identifiers

The id of a row is text, and the program compares it with the canonical text of an id. Rows are
inserted under this text only, so that the two comparisons agree in every reachable database. -/

/-- Every identifier is stored as the daemon prints it. -/
def Db.CanonicalIds (db : Db) : Prop :=
  ∀ row ∈ db.sessions.rows, ∃ id : Uuid, row.id = id.toText

/-- A request inserts a session under the canonical text of its id. -/
theorem canonicalIds_next {db : Db} (h : db.CanonicalIds) (i : Input) :
    (next db i).CanonicalIds := by
  refine (forall_next_rows fun s row _ hrow => ⟨s.id, (sessionToRow_eq_ok hrow).id⟩).mpr
    fun row hrow => ?_
  rw [Input.edit_id]
  exact h row hrow

/-- So it is in every reachable database. -/
theorem canonicalIds_of_reachable {db : Db} (h : Reachable db) : db.CanonicalIds :=
  h.invariant (fun _ hrow => absurd hrow List.not_mem_nil) fun _ i hdb => canonicalIds_next hdb i

/-! ### Insertions

A request that inserts a session makes it up, or takes its fields from the parameters. Either way it
is new: starting, without a past, and with the clock of the daemon for its times. -/

/-- What the sessions that requests insert have in common. -/
structure Session.IsNew (s : Session) (amb : Ambient) : Prop where
  id : s.id = amb.freshId
  status : s.status = .starting
  contextUsedTokens : s.contextUsedTokens = none
  contextTotalTokens : s.contextTotalTokens = none
  createdAt : s.createdAt = amb.rowNow
  lastEventAt : s.lastEventAt = none
  finishedAt : s.finishedAt = none

/-- **What is inserted is a new session.** -/
theorem isNew_of_newSession? {i : Input} {s : Session} (h : i.newSession? = some s) :
    s.IsNew i.amb := by
  rcases Input.newSession?_cases h with ⟨_, _, _, -, rfl⟩ | ⟨_, _, _, _, _, _, -, -, rfl⟩
  · exact ⟨rfl, rfl, rfl, rfl, rfl, rfl, rfl⟩
  · exact ⟨rfl, rfl, rfl, rfl, rfl, rfl, rfl⟩

/-- A stored row has the identifier of the session, or its pane. -/
def Db.Taken (db : Db) (s : Session) : Prop :=
  ∃ row ∈ db.sessions.rows, row.id = s.id.toText ∨ s.pane.isSome ∧ row.pane = s.pane

/-- **A new session is inserted exactly when neither its identifier nor its pane is
taken**, by a row of whatever status. -/
theorem exists_insertSession_iff {db : Db} {s : Session} {amb : Ambient} (hs : s.IsNew amb) :
    (∃ db', db.insertSession s = .ok db') ↔ ¬db.Taken s := by
  have hrow : ∃ row, sessionToRow s = .ok row := by
    unfold sessionToRow
    rw [hs.contextUsedTokens, hs.contextTotalTokens]
    exact ⟨_, rfl⟩
  obtain ⟨row, hrow⟩ := hrow
  have henc := sessionToRow_eq_ok hrow
  have htaken : db.Taken s ↔ ∃ b ∈ db.sessions.rows,
      KeyedTable.Conflict SessionRow.id SessionRow.pane row b := by
    unfold Db.Taken KeyedTable.Conflict
    rw [henc.id, henc.pane]
    simp only [eq_comm]
  rw [htaken, ← KeyedTable.insert?_eq_none, ← ne_eq, Option.ne_none_iff_exists']
  constructor
  · rintro ⟨db', h⟩
    obtain ⟨row', t, hrow', ht, -⟩ := insertSession_eq_ok.mp h
    rw [hrow, Except.ok.injEq] at hrow'
    exact ⟨t, hrow' ▸ ht⟩
  · rintro ⟨t, ht⟩
    exact ⟨_, insertSession_eq_ok.mpr ⟨row, t, hrow, ht, rfl⟩⟩

end Agentd
