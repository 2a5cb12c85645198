import Agentd.Handlers.Footprint

/-!
# Nothing is taken out of the event log

The table `session_events` is written by one statement of one request, the `INSERT` of
`session.report_event`. Every other request leaves it alone, and so in every run it only grows
(`Agentd.sessionEvents_prefix_run`).

Reports are not taken back, so that the log of a session only grows
(`Agentd.sessionEvents_prefix_run`). This is used where a session is followed over a long time: what
was logged at its end is still there at a boot, if the row is.
-/

namespace Agentd

open Json
open Plugin (Report)

/-! ### The statements on other tables

What `SessionRepo` and `PluginRepo` write is in other tables, so that these statements hand the log
on as it is. Each of them is looked at once, and the handlers below are made of them. -/

/-- A new session has no events yet, and takes none from another: the insertion is into `sessions`
alone. -/
theorem sessionEvents_insertSession {db db' : Db} {s : Session} (h : db.insertSession s = .ok db') :
    db'.sessionEvents = db.sessionEvents := by
  obtain ⟨row, t, -, -, rfl⟩ := insertSession_eq_ok.mp h
  rfl

/-- So is every `UPDATE` of a session, whichever column it is that it sets. -/
theorem sessionEvents_updateSession {db db' : Db} {id : Uuid} {f : SessionRow → SessionRow}
    {hf : KeyedTable.Keeps SessionRow.id SessionRow.pane f}
    (h : db.updateSession id f hf = .ok db') : db'.sessionEvents = db.sessionEvents := by
  unfold Db.updateSession at h
  split at h
  · cases h
  · rw [← Except.ok.inj h]

theorem sessionEvents_updateUsage {db db' : Db} {id : Uuid} {used total : Option UInt64}
    {cost : Option F64} {at_ : Rfc3339.DateTime}
    (h : db.updateUsage id used total cost at_ = .ok db') :
    db'.sessionEvents = db.sessionEvents := by
  unfold Db.updateUsage at h
  split at h
  · exact sessionEvents_updateSession h
  · cases h
  · cases h

theorem sessionEvents_upsertPlugin (db : Db) (name binary socketName : String) (autostart : Bool) :
    (db.upsertPlugin name binary socketName autostart).sessionEvents = db.sessionEvents := by
  unfold Db.upsertPlugin
  split <;> rfl

/-! ### The control socket

None of the mutations that a client can ask for writes an event to the table: they announce what
they have done on the bus, and `session.events` does not list it. A dashboard that comes later can
read a kill or a rename from the row only. -/

section Control

variable (params : Value) (db : Db) (amb : Ambient)

/-- A session that is created has an empty history. -/
theorem sessionEvents_sessionCreate :
    (Mutate.sessionCreate params db amb).db.sessionEvents = db.sessionEvents := by
  unfold Mutate.sessionCreate
  split
  · rfl
  · split
    · rfl
    · dsimp only
      split
      · rfl
      · next h => exact sessionEvents_insertSession h

theorem sessionEvents_sessionRename :
    (Mutate.sessionRename params db amb).db.sessionEvents = db.sessionEvents := by
  unfold Mutate.sessionRename
  split
  · rfl
  · split
    · rfl
    · split
      · rfl
      · split
        · rfl
        · next h => exact sessionEvents_updateSession h

theorem sessionEvents_sessionDismissError :
    (Mutate.sessionDismissError params db amb).db.sessionEvents = db.sessionEvents := by
  unfold Mutate.sessionDismissError
  split
  · rfl
  · split_ifs
    · rfl
    · split
      · rfl
      · next h => exact sessionEvents_updateSession h

theorem sessionEvents_sessionJump :
    (Mutate.sessionJump params db amb).db.sessionEvents = db.sessionEvents := by
  unfold Mutate.sessionJump
  split
  · rfl
  · split
    · rfl
    · dsimp only
      split_ifs <;> rfl

/-- A kill is in the row of the session, with its time, and not in the log. -/
theorem sessionEvents_sessionKill :
    (Mutate.sessionKill params db amb).db.sessionEvents = db.sessionEvents := by
  unfold Mutate.sessionKill
  split
  · rfl
  · split_ifs
    · rfl
    · dsimp only
      split
      · rfl
      · next h => exact sessionEvents_updateSession h

/-- So it is with every method of the control socket, those that are read and those there are not
included. -/
theorem sessionEvents_control (method : String) :
    (Mutate.dispatch method params db amb).db.sessionEvents = db.sessionEvents := by
  unfold Mutate.dispatch
  split_ifs
  · exact sessionEvents_sessionCreate params db amb
  · exact sessionEvents_sessionRename params db amb
  · exact sessionEvents_sessionDismissError params db amb
  · exact sessionEvents_sessionJump params db amb
  · exact sessionEvents_sessionKill params db amb
  · rfl
  · rfl

end Control

/-! ### The plugin sockets

Of the methods of a plugin only `session.report_event` appends to the log. It does so before it
looks at the payload, so that a report which then fails is logged all the same; all that is kept of
it here is that the log before is a prefix of the log after. -/

section PluginSocket

variable (params : Value) (db : Db) (name : String) (amb : Ambient)

/-- A greeting is in the table of the plugins. -/
theorem sessionEvents_pluginHello :
    (Plugin.pluginHello params db name amb).db.sessionEvents = db.sessionEvents := by
  unfold Plugin.pluginHello
  split
  · rfl
  · split_ifs
    · rfl
    · exact sessionEvents_upsertPlugin db _ _ _ _

/-- A discovery is announced as an event, and logged as none. -/
theorem sessionEvents_sessionDiscover :
    (Plugin.sessionDiscover params db name amb).db.sessionEvents = db.sessionEvents := by
  unfold Plugin.sessionDiscover
  split
  · rfl
  · split
    · rfl
    · split
      · rfl
      · split
        · rfl
        · dsimp only
          split
          · rfl
          · next h => exact sessionEvents_insertSession h

/-- What a report does once it is logged does nothing to the log. -/
theorem sessionEvents_applyReport (rep : Report) (eventId : ℕ) :
    (Plugin.applyReport rep db eventId amb).db.sessionEvents = db.sessionEvents := by
  unfold Plugin.applyReport
  split_ifs
  · split
    · rfl
    · split
      · rfl
      · split
        · rfl
        · next h => exact sessionEvents_updateSession h
  · split
    · rfl
    · split
      · rfl
      · next h => exact sessionEvents_updateSession h
  · dsimp only
    split
    · rfl
    · next h => exact sessionEvents_updateUsage h
  · split
    · rfl
    · next h => exact sessionEvents_updateSession h
  · rfl

/-- An event is appended, or refused for want of a time stamp; it never takes the place of another.
-/
theorem sessionEvents_insertEvent {db : Db} {id : Uuid} {kind : String} {payload : Value}
    {now : Option String} {p : ℕ × Db} (h : db.insertEvent id kind payload now = .ok p) :
    db.sessionEvents <+: p.2.sessionEvents := by
  unfold Db.insertEvent at h
  split at h
  · cases h
  · split at h
    · cases h
    · rw [← Except.ok.inj h]
      exact List.prefix_append _ _

/-- The one handler that writes to the log only appends. -/
theorem sessionEvents_sessionReportEvent :
    db.sessionEvents <+: (Plugin.sessionReportEvent params db name amb).db.sessionEvents := by
  unfold Plugin.sessionReportEvent
  split
  · exact List.prefix_rfl
  · split
    · exact List.prefix_rfl
    · exact List.prefix_rfl
    · split_ifs
      · exact List.prefix_rfl
      · split
        · exact List.prefix_rfl
        · next h =>
          rw [sessionEvents_applyReport]
          exact sessionEvents_insertEvent h

/-- **Whatever a plugin asks, what is logged stays logged.** -/
theorem sessionEvents_plugin (method : String) :
    db.sessionEvents <+: (Plugin.dispatch method params db name amb).db.sessionEvents := by
  unfold Plugin.dispatch
  split_ifs
  · exact (sessionEvents_pluginHello params db name amb).symm ▸ List.prefix_rfl
  · exact (sessionEvents_sessionDiscover params db name amb).symm ▸ List.prefix_rfl
  · exact sessionEvents_sessionReportEvent params db name amb
  · exact List.prefix_rfl
  · exact List.prefix_rfl
  · exact List.prefix_rfl

end PluginSocket

/-- **A request takes nothing out of the log.** -/
theorem sessionEvents_prefix_next (db : Db) (i : Input) :
    db.sessionEvents <+: (next db i).sessionEvents := by
  obtain ⟨request, amb⟩ := i
  cases request with
  | control method params =>
    exact (sessionEvents_control params db amb method).symm ▸ List.prefix_rfl
  | plugin name method params => exact sessionEvents_plugin params db name amb method

/-- Nor does a run of them. -/
theorem sessionEvents_prefix_run (db : Db) (l : List Input) :
    db.sessionEvents <+: (Machine.run next db l).sessionEvents :=
  Machine.run_invariant (P := fun db' : Db => db.sessionEvents <+: db'.sessionEvents)
    (fun db' i h => h.trans (sessionEvents_prefix_next db' i)) l db List.prefix_rfl

end Agentd
