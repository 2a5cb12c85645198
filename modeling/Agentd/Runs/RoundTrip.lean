import Agentd.Handlers.Footprint
import Agentd.Handlers.Read
import Mathlib.Data.List.Perm.Basic

/-!
# What is stored reads back

Each of the seventeen columns of a session is written by one function and read by another.
`Agentd.SessionRow.Holds` lists what a row must have in each of them for the reader to return a
given session, and the writer puts it there when the values fit (`Agentd.Session.Storable`). So
does every update.

`Agentd.storage_round_trip` puts it together for the methods of `SessionRepo`.
-/

namespace Agentd

open Json Rfc3339

/-! ### What fits in a column

SQLite stores signed integers of 64 bits, so that a count of tokens fits below 2⁶³; a number with a
fraction is stored as it is, but none that is no number; and a time is stored as text, which is read
again when its year has four digits. -/

/-- A token count that is an `i64`. -/
def CountFits (x : Option UInt64) : Prop :=
  ∀ n ∈ x, n.toNat < 2 ^ 63

/-- A cost that is a finite number. -/
def CostFits (x : Option F64) : Prop :=
  ∀ c ∈ x, c.IsFinite

/-- A time stamp whose year has four digits. -/
def StampFits (x : Option DateTime) : Prop :=
  ∀ t ∈ x, t.FourDigitYear

/-- What `SessionRepo` can store of a session without loss. -/
structure Session.Storable (s : Session) : Prop where
  contextUsedTokens : CountFits s.contextUsedTokens
  contextTotalTokens : CountFits s.contextTotalTokens
  costUsd : CostFits s.costUsd
  createdAt : s.createdAt.FourDigitYear
  lastEventAt : StampFits s.lastEventAt
  finishedAt : StampFits s.finishedAt

/-- A count that fits is written, and read back. -/
theorem CountFits.bindU64 {x : Option UInt64} (h : CountFits x) (column : ℕ) :
    ∃ y, bindU64 x = .ok y ∧ getU64 column y = .ok x := by
  refine ⟨_, bindU64_eq_ok.mpr ⟨rfl, h⟩, ?_⟩
  cases x with
  | none => rfl
  | some n =>
    rw [Option.map_some, getU64, if_pos (Int.natCast_nonneg _), Int.toNat_natCast,
      UInt64.ofNat_toNat]

/-- A time that fits is read from its column as it was written. -/
theorem StampFits.decodeNullable {x : Option DateTime} (h : StampFits x) (column : ℕ) :
    decodeNullable column parseFromRfc3339 (x.map toRfc3339) = .ok x := by
  cases x with
  | none => rfl
  | some t => rw [Option.map_some, Agentd.decodeNullable, parseFromRfc3339_toRfc3339 (h t rfl)]; rfl

/-- A time fits when its year has four digits. -/
theorem stampFits_some {t : DateTime} (h : t.FourDigitYear) : StampFits (some t) :=
  fun _ hu => Option.some.inj hu ▸ h

/-- **A session that fits is written, and the row reads back as the session.** -/
theorem Session.Storable.exists_row {s : Session} (h : s.Storable) :
    ∃ row, sessionToRow s = .ok row ∧ rowToSession row = .ok s := by
  obtain ⟨used, hused, hgetused⟩ := h.contextUsedTokens.bindU64 9
  obtain ⟨total, htotal, hgettotal⟩ := h.contextTotalTokens.bindU64 10
  refine ⟨_, by rw [sessionToRow, hused, htotal]; rfl, rowToSession_eq_ok_iff.mpr ?_⟩
  exact {
    id := Uuid.parseStr_toText s.id
    agentType := AgentType.ofName?_asStr s.agentType
    workingDir := rfl
    tmuxSession := rfl
    tmuxPaneId := rfl
    displayName := rfl
    status := SessionStatus.ofName?_toText s.status
    currentTask := rfl
    model := rfl
    contextUsedTokens := hgetused
    contextTotalTokens := hgettotal
    costUsd := bindF64_eq_self h.costUsd
    source := by rw [trimQuotes_quoted, SessionSource.ofName?_toText]
    createdAt := parseFromRfc3339_toRfc3339 h.createdAt
    lastEventAt := h.lastEventAt.decodeNullable 14
    finishedAt := h.finishedAt.decodeNullable 15
    metadata := rfl }

/-! ### Insertion

A session that fits is stored in a row that decodes to it. What else is in the table does not
matter, except for the id and the pane, which must not be taken. -/

/-- **What fits and is not stored yet is inserted**, as a row that reads back. -/
theorem Session.Storable.exists_insertSession {s : Session} (h : s.Storable) {db : Db}
    (hfree : ¬db.Taken s) : ∃ row t, sessionToRow s = .ok row ∧ rowToSession row = .ok s ∧
      row.id = s.id.toText ∧ db.sessions.insert? row = some t ∧
      db.insertSession s = .ok { db with sessions := t } := by
  obtain ⟨row, hrow, hread⟩ := h.exists_row
  have henc := sessionToRow_eq_ok hrow
  cases hins : db.sessions.insert? row with
  | some t =>
    exact ⟨row, t, hrow, hread, henc.id, hins, insertSession_eq_ok.mpr ⟨row, t, hrow, hins, rfl⟩⟩
  | none =>
    obtain ⟨other, hother, hconflict⟩ := KeyedTable.insert?_eq_none.mp hins
    refine absurd ⟨other, hother, ?_⟩ hfree
    rw [KeyedTable.Conflict, henc.id, henc.pane] at hconflict
    exact hconflict.imp Eq.symm fun hpane => ⟨hpane.1, hpane.2.symm⟩

/-- A list is read again with one row more. -/
theorem exists_listSessions_insert {db : Db} {row : SessionRow} {s : Session} {t : SessionTable}
    (hins : db.sessions.insert? row = some t) (hread : rowToSession row = .ok s) {l : List Session}
    (hl : db.listSessions = .ok l) :
    ∃ l', Db.listSessions { db with sessions := t } = .ok l' ∧ l'.Perm (s :: l) := by
  have hrows : (Db.listRows { db with sessions := t }).Perm (row :: db.listRows) := by
    refine (List.perm_insertionSort _ _).trans ?_
    rw [(KeyedTable.insert?_eq_some.mp hins).2]
    exact (List.perm_append_singleton _ _).trans ((List.perm_insertionSort _ _).symm.cons _)
  have hmap := hrows.map rowToSession
  rw [List.map_cons, hread, listSessions_eq_ok.mp hl] at hmap
  obtain ⟨l', hl'⟩ : ∃ l', Db.listSessions { db with sessions := t } = .ok l' := by
    refine exists_listSessions_iff.mpr fun r hr => ?_
    rcases List.mem_append.mp ((KeyedTable.insert?_eq_some.mp hins).2 ▸ hr) with hold | hnew
    · exact exists_listSessions_iff.mp ⟨l, hl⟩ r hold
    · rw [List.mem_singleton.mp hnew]
      exact exists_rowToSession_iff.mp ⟨s, hread⟩
  refine ⟨l', hl', ?_⟩
  rw [listSessions_eq_ok.mp hl', ← List.map_cons (f := Except.ok)] at hmap
  exact (List.map_perm_map_iff fun _ _ => Except.ok.inj).mp hmap

/-! ### Updates

Each of the `UPDATE` statements sets some columns of one row, to values that fit. Read back, the
session has these and its other fields as before. -/

/-- The update methods of `SessionRepo`. -/
inductive Update
  | status (new : SessionStatus) (at_ : DateTime)
  | task (text : Option String) (at_ : DateTime)
  | usage (used total : Option UInt64) (cost : Option F64) (at_ : DateTime)
  | rename (name : String)
  | finish (at_ : DateTime)
  | tmux (session pane : Option String)

namespace Update

/-- What the method does to the database. -/
def run (db : Db) (id : Uuid) : Update → Except RepoError Db
  | status new at_ => db.updateStatus id new at_
  | task text at_ => db.updateTask id text at_
  | usage used total cost at_ => db.updateUsage id used total cost at_
  | rename name => db.updateRename id name
  | finish at_ => db.markFinished id at_
  | tmux session pane => db.updateTmux id session pane

/-- What it is meant to do to the session. -/
def apply (s : Session) : Update → Session
  | status new at_ => { s with status := new, lastEventAt := some at_ }
  | task text at_ => { s with currentTask := text, lastEventAt := some at_ }
  | usage used total cost at_ => { s with
      contextUsedTokens := used
      contextTotalTokens := total
      costUsd := cost
      lastEventAt := some at_ }
  | rename name => { s with displayName := name }
  | finish at_ => { s with
      status := .finished
      finishedAt := some at_
      lastEventAt := some at_ }
  | tmux session pane => { s with tmuxSession := session, tmuxPaneId := pane }

/-- The values given fit. -/
def Storable : Update → Prop
  | status _ at_ | task _ at_ | finish at_ => at_.FourDigitYear
  | usage used total cost at_ =>
    CountFits used ∧ CountFits total ∧ CostFits cost ∧ at_.FourDigitYear
  | rename _ | tmux _ _ => True

end Update

/-- An `UPDATE` that succeeds finds its row, and leaves it changed. -/
theorem exists_row_of_updateSession {db db' : Db} {id : Uuid} {f : SessionRow → SessionRow}
    {hf : KeyedTable.Keeps SessionRow.id SessionRow.pane f}
    (h : db.updateSession id f hf = .ok db') {row : SessionRow} (hrow : db.row? id = some row) :
    db'.row? id = some (f row) := by
  rw [updateSession_of_row? hrow] at h
  rw [← Except.ok.inj h]
  have hfind : (db.sessions.modify id.toText f hf).find? id.toText = some (f row) :=
    KeyedTable.find?_modify_self hrow
  exact hfind

/-- The pane is set in the row that is there. -/
theorem exists_row_of_updateTmux {db db' : Db} {id : Uuid} {session pane : Option String}
    (h : db.updateTmux id session pane = .ok db') {row : SessionRow}
    (hrow : db.row? id = some row) :
    db'.row? id = some { row with tmuxSession := session, tmuxPaneId := pane } := by
  rw [Db.updateTmux, hrow] at h
  dsimp only at h
  split at h
  · cases h
  · rename_i t ht
    rw [← Except.ok.inj h]
    exact KeyedTable.find?_modify? ht hrow rfl

/-- **Every update that succeeds leaves a row that reads as the session updated.** -/
theorem Update.exists_row {u : Update} (hu : u.Storable) {db db' : Db} {id : Uuid}
    (h : u.run db id = .ok db') {row : SessionRow} (hrow : db.row? id = some row) {s : Session}
    (hs : row.Holds s) : ∃ row', db'.row? id = some row' ∧ row'.Holds (u.apply s) := by
  cases u with
  | status new at_ =>
    exact ⟨_, exists_row_of_updateSession h hrow, { hs with
      status := SessionStatus.ofName?_toText new
      lastEventAt := (stampFits_some hu).decodeNullable 14 }⟩
  | task text at_ =>
    exact ⟨_, exists_row_of_updateSession h hrow, { hs with
      currentTask := rfl
      lastEventAt := (stampFits_some hu).decodeNullable 14 }⟩
  | usage used total cost at_ =>
    obtain ⟨hused, htotal, hcost, hstamp⟩ := hu
    obtain ⟨x, hx, hgetx⟩ := hused.bindU64 9
    obtain ⟨y, hy, hgety⟩ := htotal.bindU64 10
    rw [run, Db.updateUsage, hx, hy] at h
    exact ⟨_, exists_row_of_updateSession h hrow, { hs with
      contextUsedTokens := hgetx
      contextTotalTokens := hgety
      costUsd := bindF64_eq_self hcost
      lastEventAt := (stampFits_some hstamp).decodeNullable 14 }⟩
  | rename name => exact ⟨_, exists_row_of_updateSession h hrow, { hs with displayName := rfl }⟩
  | finish at_ =>
    exact ⟨_, exists_row_of_updateSession h hrow, { hs with
      status := rfl
      lastEventAt := (stampFits_some hu).decodeNullable 14
      finishedAt := (stampFits_some hu).decodeNullable 15 }⟩
  | tmux session pane =>
    exact ⟨_, exists_row_of_updateTmux h hrow, { hs with tmuxSession := rfl, tmuxPaneId := rfl }⟩

/-- **What `SessionRepo` is given it gives back**: a session that fits and is not stored is
inserted, found, and listed with those listed before, and an update that succeeds changes
in it what the update names. -/
theorem storage_round_trip :
    (∀ (db : Db) (s : Session), s.Storable → ¬db.Taken s →
      ∃ db', db.insertSession s = .ok db' ∧ db'.getSession s.id = .ok (some s) ∧
        ∀ l, db.listSessions = .ok l →
          ∃ l', db'.listSessions = .ok l' ∧ l'.Perm (s :: l)) ∧
    ∀ (db db' : Db) (id : Uuid) (s : Session) (u : Update), db.getSession id = .ok (some s) →
      u.Storable → u.run db id = .ok db' → db'.getSession id = .ok (some (u.apply s)) := by
  constructor
  · intro db s hs hfree
    obtain ⟨row, t, -, hread, hid, hins, hok⟩ := hs.exists_insertSession hfree
    refine ⟨_, hok, getSession_eq_some.mpr ⟨row, ?_, hread⟩, fun l hl =>
      exists_listSessions_insert hins hread hl⟩
    rw [Db.row?, ← hid]
    exact KeyedTable.find?_insert?_self hins
  · intro db db' id s u hget hu hrun
    obtain ⟨row, hrow, hread⟩ := getSession_eq_some.mp hget
    obtain ⟨row', hrow', hholds⟩ := u.exists_row hu hrun hrow (rowToSession_eq_ok_iff.mp hread)
    exact getSession_eq_some.mpr ⟨row', hrow', rowToSession_eq_ok_iff.mpr hholds⟩

/-- A session with a value in every column, and a cost that is no whole number. -/
def fullSession : Session :=
  { Mutate.newSession .claudeCode "/home/u/proj" "a \"b\"" (.noon (.ofTimeLow 1) 9999) with
    tmuxSession := some "main"
    tmuxPaneId := some "%1"
    currentTask := some "tests"
    model := some "m"
    contextUsedTokens := some 9223372036854775807
    contextTotalTokens := some 0
    costUsd := some ⟨0x3fe0000000000000⟩
    lastEventAt := some (.newYear 0)
    finishedAt := some (.noonOf 2026) }

/-- A session with all its fields set is stored. -/
theorem storable_fullSession : fullSession.Storable := by
  refine ⟨?_, ?_, ?_, by decide, ?_, ?_⟩
  · rintro n ⟨⟩
    decide
  · rintro n ⟨⟩
    decide
  · rintro c ⟨⟩
    decide
  · rintro t ⟨⟩
    decide
  · rintro t ⟨⟩
    decide

/-- It is stored in an empty table and renamed. -/
theorem storage_round_trip_full :
    (∃ db', Db.fresh.insertSession fullSession = .ok db' ∧
      db'.getSession fullSession.id = .ok (some fullSession) ∧
        ∀ l, Db.fresh.listSessions = .ok l →
          ∃ l', db'.listSessions = .ok l' ∧ l'.Perm (fullSession :: l)) ∧
    ∃ db db', db.getSession fullSession.id = .ok (some fullSession) ∧
      (Update.rename "c").run db fullSession.id = .ok db' ∧
        db'.getSession fullSession.id = .ok (some { fullSession with displayName := "c" }) := by
  obtain ⟨db, hins, hget, hlist⟩ := storage_round_trip.1 Db.fresh fullSession storable_fullSession
    (fun h => List.not_mem_nil h.choose_spec.1)
  obtain ⟨row, hrow, -⟩ := getSession_eq_some.mp hget
  have hrun : (Update.rename "c").run db fullSession.id = .ok _ := updateSession_of_row? hrow
  exact ⟨⟨db, hins, hget, hlist⟩, db, _, hget, hrun,
    storage_round_trip.2 db _ _ fullSession (.rename "c") hget trivial hrun⟩

end Agentd
