import Agentd.Handlers.Footprint
import Agentd.Tmux.Model

/-!
# What a kill takes with it

A session is bound to a pane, and `session.kill` is there to tear that pane down. What it asks
of tmux is to kill the *tmux session* of the pane, with every pane in it. The unique index of the
database keeps two sessions out of one pane, but not out of one tmux session, and a user who
splits a window gives the watcher two of them.

`Agentd.spares_iff` – a kill takes the pane of its session and no other exactly when that pane has
its tmux session to itself.

How tmux takes the name it is given is a parameter here: a prefix of a name, or a pattern, may be
resolved to another session. So the condition has a second half, which the daemon could meet by
giving the name in a form that tmux takes literally.
-/

namespace Agentd

open Json Rfc3339

/-! ### tmux and the requests

The calls that a handler makes are carried out on a server of panes, one after the other. The server
is that of the moment; nothing is assumed of it but that the live sessions are where they are said
to be. -/

section Obey

variable (resolve : TmuxServer → String → Option String) (amb : Ambient)

/-- The server after one call of a handler. -/
def TmuxServer.obey (server : TmuxServer) : TmuxCall → TmuxServer
  | .switchClient _ => server
  | .killSession name =>
    if amb.tmux (.killSession name) then server.killSession resolve name else server

/-- The server after the calls of a handler. -/
def TmuxServer.after (server : TmuxServer) (calls : List TmuxCall) : TmuxServer :=
  calls.foldl (obey resolve amb) server

end Obey

/-- The pane is on the server. -/
def TmuxServer.Has (server : TmuxServer) (pane : String × String) : Prop :=
  ∃ p ∈ server, (p.session, p.paneId) = pane

instance (server : TmuxServer) (pane : String × String) : Decidable (server.Has pane) :=
  inferInstanceAs (Decidable (∃ p ∈ server, _))

/-- The live sessions that are bound to a pane are bound to one that exists. -/
def Db.BoundTo (db : Db) (server : TmuxServer) : Prop :=
  ∀ row ∈ db.sessions.rows, row.status ≠ "finished" → ∀ pane, row.pane = some pane →
    server.Has pane

/-- The kill of `row` spares the others: the panes of the other live sessions are still there,
and of all panes only that of `row` is gone. -/
structure Spares (db : Db) (row : SessionRow) (server server' : TmuxServer) : Prop where
  others : ∀ other ∈ db.sessions.rows, other.status ≠ "finished" → other.id ≠ row.id →
    ∀ pane, other.pane = some pane → server'.Has pane
  gone : ∀ pane, server.Has pane → (¬server'.Has pane ↔ row.pane = some pane)

/-- The pane of `row`, if it has one, has its tmux session to itself, and tmux does as it is told:
it carries out the kill and takes the name of the session for that session. -/
def Alone (resolve : TmuxServer → String → Option String) (amb : Ambient) (row : SessionRow)
    (server : TmuxServer) : Prop :=
  ∀ name paneId, row.pane = some (name, paneId) →
    amb.tmux (.killSession name) = true ∧ resolve server name = some name ∧
      ∀ p ∈ server, p.session = name → p.paneId = paneId

/-! ### Which calls a kill makes

A kill that succeeds names the tmux session of the row, if it has one, and makes no other call. The
target is the bare name. -/

/-- A row without a pane has no tmux session either. -/
def Db.BoundWhole (db : Db) : Prop :=
  ∀ row ∈ db.sessions.rows, row.tmuxSession = row.pane.map Prod.fst

theorem tmuxSession_of_newSession? {i : Input} {s : Session} (h : i.newSession? = some s) :
    s.tmuxSession = s.pane.map Prod.fst := by
  unfold Input.newSession? at h
  split at h
  · split_ifs at h
    obtain ⟨_, -, h⟩ := Option.bind_eq_some_iff.mp h
    obtain ⟨_, -, rfl⟩ := Option.map_eq_some_iff.mp h
    rfl
  · split_ifs at h
    obtain ⟨_, -, h⟩ := Option.bind_eq_some_iff.mp h
    obtain ⟨_, -, h⟩ := Option.bind_eq_some_iff.mp h
    obtain ⟨_, -, h⟩ := Option.bind_eq_some_iff.mp h
    obtain ⟨_, -, rfl⟩ := Option.map_eq_some_iff.mp h
    rfl

theorem boundWhole_next {db : Db} (h : db.BoundWhole) (i : Input) : (next db i).BoundWhole := by
  refine (forall_next_rows fun s row hs hrow => ?_).mpr fun row hrow => ?_
  · rw [tmuxSession_of_sessionToRow hrow, (sessionToRow_eq_ok hrow).pane,
      tmuxSession_of_newSession? hs]
  · rw [Input.edit_tmuxSession, Input.edit_pane]
    exact h row hrow

theorem boundWhole_of_reachable {db : Db} (h : Reachable db) : db.BoundWhole :=
  h.invariant (fun _ hrow => absurd hrow List.not_mem_nil) fun _ i hdb => boundWhole_next hdb i

/-- A session that can be read and has not finished is live. -/
theorem live_of_rowToSession {row : SessionRow} {s : Session} (hs : rowToSession row = .ok s)
    (hstatus : s.status ≠ .finished) : row.status ≠ "finished" := by
  intro hfinished
  have hname := (rowToSession_ok hs).2.status
  rw [SessionStatus.ofName?_eq_some, hfinished] at hname
  exact hstatus (SessionStatus.toText_eq_finished.mp hname.symm)

/-- A kill that succeeds is of a live session, and asks tmux to kill the session of its row. -/
theorem tmuxCalls_of_kill {db : Db} {i : Input} {params : Value} {id : Uuid} {row : SessionRow}
    (hreq : i.request = .control Method.sessionKill params) (hid : i.target? = some id)
    (hrow : db.row? id = some row) (hok : ¬(handle db i).IsError) :
    row.status ≠ "finished" ∧
      (handle db i).tmuxCalls = (row.tmuxSession.map TmuxCall.killSession).toList := by
  obtain ⟨request, amb⟩ := i
  subst hreq
  change ¬(Mutate.sessionKill params db amb).IsError at hok
  show _ ∧ (Mutate.sessionKill params db amb).tmuxCalls = _
  unfold Mutate.sessionKill at hok ⊢
  split at hok
  · exact absurd (isError_of_reply rfl) hok
  · rename_i id' s hfound
    obtain ⟨htarget, row', hrow', hs⟩ :=
      requestedSession_eq_ok params db amb Method.sessionKill hfound
    obtain rfl : id = id' := Option.some.inj (hid.symm.trans htarget)
    obtain rfl : row = row' := Option.some.inj (hrow.symm.trans hrow')
    split_ifs at hok with hterm
    · exact absurd (isError_of_reply rfl) hok
    · have hstatus : s.status ≠ .finished := fun h => hterm (decide_eq_true h)
      refine ⟨live_of_rowToSession hs hstatus, ?_⟩
      rw [if_neg hterm, ← (rowToSession_ok hs).2.tmuxSession]
      dsimp only
      split <;> rfl

/-! ### What it leaves

What is gone are the panes of the session that tmux takes the name for. That this is one pane, and
the right one, is the condition. -/

section Spares

variable {resolve : TmuxServer → String → Option String} {amb : Ambient} {server : TmuxServer}
  {name : String}

/-- What a call to kill a session leaves of the server. -/
theorem mem_obey_killSession {p : Pane} :
    p ∈ server.obey resolve amb (.killSession name) ↔
      p ∈ server ∧ ¬(amb.tmux (.killSession name) = true ∧ resolve server name = some p.session) := by
  rw [TmuxServer.obey]
  split_ifs with hcall
  · rw [TmuxServer.mem_killSession]
    simp [hcall]
  · simp [hcall]

/-- It takes sessions as a whole. -/
theorem has_obey_killSession {pane : String × String} :
    (server.obey resolve amb (.killSession name)).Has pane ↔
      server.Has pane ∧
        ¬(amb.tmux (.killSession name) = true ∧ resolve server name = some pane.1) := by
  constructor
  · rintro ⟨p, hp, rfl⟩
    obtain ⟨hp, hspared⟩ := mem_obey_killSession.mp hp
    exact ⟨⟨p, hp, rfl⟩, hspared⟩
  · rintro ⟨⟨p, hp, rfl⟩, hspared⟩
    exact ⟨p, mem_obey_killSession.mpr ⟨hp, hspared⟩, rfl⟩

/-- All that is gone is the pane of the session when it has its tmux session to itself. -/
theorem gone_iff_alone {row : SessionRow} {paneId : String} (hpane : row.pane = some (name, paneId))
    (hhas : server.Has (name, paneId)) :
    (∀ pane, server.Has pane → (¬(server.obey resolve amb (.killSession name)).Has pane ↔
      row.pane = some pane)) ↔ Alone resolve amb row server := by
  constructor
  · intro hgone name' paneId' h
    obtain ⟨rfl, rfl⟩ := Prod.mk.inj (Option.some.inj (hpane.symm.trans h))
    have hown := (hgone _ hhas).mpr hpane
    rw [has_obey_killSession, not_and, not_not] at hown
    obtain ⟨hcall, hresolve⟩ := hown hhas
    refine ⟨hcall, hresolve, fun p hp hsession => ?_⟩
    have htaken : ¬(server.obey resolve amb (.killSession name)).Has (name, p.paneId) := by
      rw [has_obey_killSession, not_and, not_not]
      exact fun _ => ⟨hcall, hresolve⟩
    have hrowpane := (hgone _ ⟨p, hp, by rw [hsession]⟩).mp htaken
    exact (Prod.mk.inj (Option.some.inj (hpane.symm.trans hrowpane))).2.symm
  · rintro halone _ ⟨p, hp, rfl⟩
    obtain ⟨hcall, hresolve, hown⟩ := halone name paneId hpane
    rw [has_obey_killSession, hpane]
    constructor
    · intro htaken
      rw [not_and, not_not] at htaken
      have hsession : name = p.session :=
        Option.some.inj (hresolve.symm.trans (htaken ⟨p, hp, rfl⟩).2)
      rw [hsession, hown p hp hsession.symm]
    · intro heq
      obtain ⟨hsession, -⟩ := Prod.mk.inj (Option.some.inj heq)
      rw [not_and, not_not]
      exact fun _ => ⟨hcall, hsession ▸ hresolve⟩

end Spares

/-- **After a kill that succeeds the panes of the other live sessions are there, and the pane of
the session is all that is gone, exactly when that pane had its tmux session to itself** (and tmux
did as it was told). -/
theorem spares_iff (resolve : TmuxServer → String → Option String) {db : Db} (hdb : Reachable db)
    {server : TmuxServer} (hbound : db.BoundTo server) {i : Input} {params : Value} {id : Uuid}
    {row : SessionRow} (hreq : i.request = .control Method.sessionKill params)
    (hid : i.target? = some id) (hrow : db.row? id = some row) (hok : ¬(handle db i).IsError) :
    Spares db row server (server.after resolve i.amb (handle db i).tmuxCalls) ↔
      Alone resolve i.amb row server := by
  have hmem : row ∈ db.sessions.rows := (KeyedTable.find?_eq_some.mp hrow).1
  obtain ⟨hlive, hcalls⟩ := tmuxCalls_of_kill hreq hid hrow hok
  rw [hcalls, boundWhole_of_reachable hdb row hmem]
  cases hpane : row.pane with
  | none =>
    -- no pane, no call
    refine iff_of_true ⟨fun other ho hl _ => hbound other ho hl, fun pane hhas => ?_⟩ ?_
    · rw [hpane]
      exact iff_of_false (not_not.mpr hhas) nofun
    · intro name paneId h
      rw [hpane] at h
      cases h
  | some pane =>
    obtain ⟨name, paneId⟩ := pane
    show Spares db row server (server.obey resolve i.amb (.killSession name)) ↔ _
    rw [← gone_iff_alone hpane (hbound row hmem hlive _ hpane)]
    refine ⟨Spares.gone, fun hgone => ⟨fun other ho hl hne pane hp => ?_, hgone⟩⟩
    by_contra htaken
    -- the unique index keeps two rows out of one pane
    have hrowpane := (hgone pane (hbound other ho hl pane hp)).mp htaken
    exact hne (congrArg SessionRow.id (db.sessions.eq_of_index_eq ho hmem hp hrowpane))

/-- Opencode discovers the panes of two sessions of tmux. -/
def ownPanes : List Input :=
  [⟨.discover "opencode" "main" "%1" "/home/u/proj", .noon (.ofTimeLow 1) 2026⟩,
    ⟨.discover "opencode" "work" "%2" "/home/u/other", .noon (.ofTimeLow 2) 2026⟩]

/-- Opencode discovers a pane, the user splits the window, and opencode discovers the second pane.
-/
def twoPanes : List Input :=
  [⟨.discover "opencode" "main" "%1" "/home/u/proj", .noon (.ofTimeLow 1) 2026⟩,
    ⟨.discover "opencode" "main" "%2" "/home/u/other", .noon (.ofTimeLow 2) 2026⟩]

/-- The server, with each of two panes in a session of its own. -/
def ownServer : TmuxServer :=
  [⟨"main", "%1", "/home/u"⟩, ⟨"work", "%2", "/home/u"⟩]

/-- The server with its one session `main`. -/
def mainServer : TmuxServer :=
  [⟨"main", "%1", "/home/u"⟩, ⟨"main", "%2", "/home/u"⟩]

/-- The user kills the first session. -/
def killFirst : Input :=
  ⟨.control Method.sessionKill (.object [("id", .string (Uuid.ofTimeLow 1).toText)]),
    .noon (.ofTimeLow 3) 2026⟩

/-- The rows of two panes are bound to every server on which both panes are found: all that has to
be looked at is the pair of panes, and not the rows. -/
theorem boundTo_of_panes {db : Db} {server : TmuxServer} {first second : String × String}
    (hpanes : ∀ row ∈ db.sessions.rows, row.pane = some first ∨ row.pane = some second)
    (hfirst : server.Has first) (hsecond : server.Has second) : db.BoundTo server := by
  intro other hother _ pane hp
  rcases hpanes other hother with hpane | hpane
  · exact Option.some.inj (hpane.symm.trans hp) ▸ hfirst
  · exact Option.some.inj (hpane.symm.trans hp) ▸ hsecond

set_option maxRecDepth 4000 in
/-- A session whose pane is the only one of its tmux session is killed alone. -/
theorem spares_ownPanes :
    ∃ row, (Machine.run next Db.fresh ownPanes).row? (.ofTimeLow 1) = some row ∧
      Spares (Machine.run next Db.fresh ownPanes) row ownServer
        (TmuxServer.after TmuxServer.exactly killFirst.amb ownServer
          (handle (Machine.run next Db.fresh ownPanes) killFirst).tmuxCalls) := by
  have hfirst : ((Machine.run next Db.fresh ownPanes).row? (.ofTimeLow 1)).map SessionRow.pane =
      some (some ("main", "%1")) := by decide
  obtain ⟨row, hrow, hpane⟩ := Option.map_eq_some_iff.mp hfirst
  have hpanes : ∀ row ∈ (Machine.run next Db.fresh ownPanes).sessions.rows,
      row.pane = some ("main", "%1") ∨ row.pane = some ("work", "%2") := by decide
  refine ⟨row, hrow, (spares_iff TmuxServer.exactly (Machine.reachable_run Db.fresh ownPanes)
    (boundTo_of_panes hpanes (by decide) (by decide)) rfl rfl hrow (by decide)).mpr ?_⟩
  intro name paneId h
  obtain ⟨rfl, rfl⟩ := Prod.mk.inj (Option.some.inj (hpane.symm.trans h))
  exact ⟨rfl, by decide, by decide⟩

set_option maxRecDepth 4000 in
/-- A kill takes the panes of other sessions in the same tmux session with it. -/
theorem not_spares_twoPanes :
    ¬∀ db, Reachable db → ∀ server, db.BoundTo server → ∀ i params id row,
      i.request = .control Method.sessionKill params → i.target? = some id →
      db.row? id = some row → ¬(handle db i).IsError →
        Spares db row server (server.after TmuxServer.exactly i.amb (handle db i).tmuxCalls) := by
  intro h
  have hsome : ((Machine.run next Db.fresh twoPanes).row? (.ofTimeLow 1)).isSome := by decide
  obtain ⟨row, hrow⟩ := Option.isSome_iff_exists.mp hsome
  have hpanes : ∀ row ∈ (Machine.run next Db.fresh twoPanes).sessions.rows,
      row.pane = some ("main", "%1") ∨ row.pane = some ("main", "%2") := by decide
  have hbound : (Machine.run next Db.fresh twoPanes).BoundTo mainServer :=
    boundTo_of_panes hpanes (by decide) (by decide)
  have hspares := h _ (Machine.reachable_run Db.fresh twoPanes) mainServer hbound
    killFirst _ _ row rfl rfl hrow (by decide)
  have hother : ∃ other ∈ (Machine.run next Db.fresh twoPanes).sessions.rows,
      other.status ≠ "finished" ∧ other.id ≠ (Uuid.ofTimeLow 1).toText ∧
        other.pane = some ("main", "%2") := by decide
  obtain ⟨other, hmem, hlive, hne, hpane⟩ := hother
  rw [← (KeyedTable.find?_eq_some.mp hrow).2] at hne
  have hgone : ¬(TmuxServer.after TmuxServer.exactly killFirst.amb mainServer
      (handle (Machine.run next Db.fresh twoPanes) killFirst).tmuxCalls).Has ("main", "%2") := by
    decide
  exact hgone (hspares.others other hmem hlive hne _ hpane)

end Agentd
