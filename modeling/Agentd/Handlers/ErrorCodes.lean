import Agentd.Handlers.Footprint
import Agentd.Handlers.Router

/-!
# The error a request is answered with

A method may be one of neither dispatcher, a request may lack the identifier of its session, and
the session may not exist. `router::dispatch` has an error for each (`Agentd.ErrorCodes`). But
`read::dispatch` says of all three, and of a row that cannot be read, that it has no answer, and
then the request goes to the mutating methods, which do not know it.

`Agentd.errorCodes_iff` – the errors are the right ones exactly when the request is not a
read that cannot be answered (`Agentd.Read.Unanswerable`).

The three errors are proved handler by handler. A handler checks its parameters before it looks for
the session, and that before it looks at the session, so that each error is determined by the first
check that fails; which error that is can be said without running the handler.
-/

namespace Agentd

open Json

/-! ### The methods -/

/-- The methods of a session that `mutate::dispatch` has. -/
def Mutate.sessionMethods : List String :=
  [Method.sessionRename, Method.sessionDismissError, Method.sessionJump, Method.sessionKill]

/-- The answer is the right error, or none where none is due. -/
structure ErrorCodes (method : String) (params : Value) (db : Db) (amb : Ambient) : Prop where
  methodNotFound : (Router.dispatch method params db amb).reply = .error .methodNotFound ↔
    method ∉ Read.methods ∧ method ∉ Mutate.methods
  invalidParams : method ∈ Method.sessionGet :: Method.sessionEvents :: Mutate.sessionMethods →
    Read.requestedId params = none →
    (Router.dispatch method params db amb).reply = .error .invalidParams
  sessionNotFound : method ∈ Method.sessionGet :: Mutate.sessionMethods →
    (method = Method.sessionRename → (params.getStr "name").isSome) →
    ∀ id ∈ Read.requestedId params, db.row? id = none →
    (Router.dispatch method params db amb).reply = .error .sessionNotFound

/-- A read that has no answer: some row is not readable and the method goes through all, there is no
row of the session to read, or no identifier to look for. -/
def Read.Unanswerable (method : String) (params : Value) (db : Db) : Prop :=
  Read.ListsSessions method ∧ (∃ row ∈ db.sessions.rows, ¬row.Decodes) ∨
    method = Method.sessionGet ∧
      (∀ id ∈ Read.requestedId params, ∀ row ∈ db.row? id, ¬row.Decodes) ∨
    method = Method.sessionEvents ∧ Read.requestedId params = none

/-! ### What the reads answer

`read::dispatch` returns an `Option`: none stands for a method it does not know, and also for a read
that failed. The router cannot tell the two apart, and this is what the codes of a failing read come
to depend on. -/

section Reads

variable {params : Value} {db : Db}

/-- A read of a session is answered when the session is there and its row decodes. For want of an
id, of the session, or of a row that decodes, nothing is returned, and the three look alike. -/
theorem Read.dispatch_sessionGet_eq_none_iff :
    Read.dispatch Method.sessionGet params db = none ↔
      ∀ id ∈ Read.requestedId params, ∀ row ∈ db.row? id, ¬row.Decodes := by
  rw [Read.dispatch, if_neg (by decide), if_pos rfl, Option.bind_eq_none_iff]
  refine forall₂_congr fun id _ => ?_
  rw [Option.map_eq_none_iff, Db.getSession]
  cases db.row? id with
  | none => simp [Except.toOption]
  | some row =>
    have hdecodes := exists_rowToSession_iff (r := row)
    cases hrow : rowToSession row with
    | error e =>
      rw [hrow] at hdecodes
      simpa [Except.toOption, hrow] using hdecodes
    | ok s =>
      rw [hrow] at hdecodes
      simpa [Except.toOption, hrow] using hdecodes

/-- The events of a session carry its identifier, which reads. -/
theorem Read.dispatch_sessionEvents_eq_none_iff :
    Read.dispatch Method.sessionEvents params db = none ↔ Read.requestedId params = none := by
  rw [Read.dispatch, if_neg (by decide), if_neg (by decide), if_neg (by decide), if_pos rfl]
  cases Read.requestedId params with
  | none => exact iff_of_true rfl rfl
  | some id =>
    have hread : ∀ e ∈ db.eventsForSession id, (Read.eventRecord e).isSome := by
      intro e he
      rw [Db.eventsForSession, List.mem_insertionSort, List.mem_filter, decide_eq_true_eq] at he
      rw [Read.eventRecord, he.2, Uuid.parseStr_toText]
      rfl
    obtain ⟨events, hevents⟩ := Option.isSome_iff_exists.mp (Option.isSome_mapM hread)
    rw [Option.bind_some, hevents]
    exact iff_of_false (Option.some_ne_none _) (Option.some_ne_none _)

instance : DecidablePred Read.ListsSessions :=
  fun _ => inferInstanceAs (Decidable (_ ∨ _ ∨ _))

/-- The reads that list the sessions cannot be answered when some row does not decode. -/
theorem Read.unanswerable_of_lists {method : String} (h : Read.ListsSessions method) :
    Read.Unanswerable method params db ↔ ∃ row ∈ db.sessions.rows, ¬row.Decodes := by
  have hother : method ≠ Method.sessionGet ∧ method ≠ Method.sessionEvents := by
    rcases h with rfl | rfl | rfl <;> decide
  simp [Read.Unanswerable, h, hother]

/-- `session.get` cannot be answered without the id of a session whose row is there and decodes; it
looks at no other row. -/
theorem Read.unanswerable_sessionGet :
    Read.Unanswerable Method.sessionGet params db ↔
      ∀ id ∈ Read.requestedId params, ∀ row ∈ db.row? id, ¬row.Decodes := by
  have hlists : ¬Read.ListsSessions Method.sessionGet := by decide
  have hevents : Method.sessionGet ≠ Method.sessionEvents := by decide
  simp [Read.Unanswerable, hlists, hevents]

/-- `session.events` cannot be answered for want of an id only: a session there is not has no
events. -/
theorem Read.unanswerable_sessionEvents :
    Read.Unanswerable Method.sessionEvents params db ↔ Read.requestedId params = none := by
  have hlists : ¬Read.ListsSessions Method.sessionEvents := by decide
  have hget : Method.sessionEvents ≠ Method.sessionGet := by decide
  simp [Read.Unanswerable, hlists, hget]

/-- The methods that read no session always have an answer. -/
theorem Read.not_unanswerable {method : String}
    (h : method ∈ [Method.pluginList, Method.metrics]) :
    ¬Read.Unanswerable method params db := by
  have hother : ∀ method ∈ [Method.pluginList, Method.metrics], ¬Read.ListsSessions method ∧
      method ≠ Method.sessionGet ∧ method ≠ Method.sessionEvents := by
    decide
  simp [Read.Unanswerable, hother method h]

/-- A listing that fails looks to the router like a method there is not. -/
theorem Read.dispatch_of_lists_eq_none_iff {method : String} (h : Read.ListsSessions method) :
    Read.dispatch method params db = none ↔ Read.Unanswerable method params db := by
  rw [Read.unanswerable_of_lists h, ← Option.not_isSome_iff_eq_none, isSome_read_dispatch_iff h]
  simp

/-- **A read has no answer when it is none, or cannot be answered.** -/
theorem Read.dispatch_eq_none_iff {method : String} :
    Read.dispatch method params db = none ↔
      method ∉ Read.methods ∨ Read.Unanswerable method params db := by
  by_cases hmem : method ∈ Read.methods
  · rw [or_iff_right (not_not.mpr hmem)]
    simp only [Read.methods, List.mem_cons, List.not_mem_nil, or_false] at hmem
    rcases hmem with rfl | rfl | rfl | rfl | rfl | rfl | rfl
    · exact Read.dispatch_of_lists_eq_none_iff (.inl rfl)
    · rw [Read.dispatch_sessionGet_eq_none_iff, Read.unanswerable_sessionGet]
    · exact Read.dispatch_of_lists_eq_none_iff (.inr (.inl rfl))
    · rw [Read.dispatch_sessionEvents_eq_none_iff, Read.unanswerable_sessionEvents]
    · exact Read.dispatch_of_lists_eq_none_iff (.inr (.inr rfl))
    · refine iff_of_false ?_ (Read.not_unanswerable (by decide))
      rw [Read.dispatch, if_neg (by decide), if_neg (by decide), if_neg (by decide),
        if_neg (by decide), if_neg (by decide), if_pos rfl]
      exact Option.some_ne_none _
    · refine iff_of_false ?_ (Read.not_unanswerable (by decide))
      rw [Read.dispatch, if_neg (by decide), if_neg (by decide), if_neg (by decide),
        if_neg (by decide), if_neg (by decide), if_neg (by decide), if_pos rfl]
      exact Option.some_ne_none _
  · exact iff_of_true (Read.dispatch_of_notMem hmem) (.inl hmem)

end Reads

/-! ### What the other methods answer

In `mutate.rs` there is one arm for each method and a last one for all others, so that
`method_not_found` is the answer of that arm and of no other. That no known method answers it is
gone through below, error by error; the codes for parameters and missing sessions are then those of
each handler's first checks. -/

section Mutations

variable {params : Value} {db : Db} {amb : Ambient}

/-- A request without an identifier that reads. -/
theorem Mutate.requestedSession_of_none (h : Read.requestedId params = none) :
    Mutate.requestedSession params db = .error .invalidParams := by
  unfold Mutate.requestedSession
  rcases hid : params.getStr "id" with _ | idStr
  · rfl
  · have huuid : Uuid.parseStr idStr = none := by
      rwa [Read.requestedId, hid, Option.bind_some] at h
    simp only [huuid]

/-- A request for a session that has no row. -/
theorem Mutate.requestedSession_of_missing {id : Uuid} (h : Read.requestedId params = some id)
    (hrow : db.row? id = none) :
    Mutate.requestedSession params db = .error .sessionNotFound := by
  obtain ⟨idStr, hid, huuid⟩ := Option.bind_eq_some_iff.mp h
  unfold Mutate.requestedSession
  simp only [hid, huuid, getSession_eq_none.mpr hrow]

/-- An answer that is another error, or none. -/
def Mutate.Known (o : Outcome) : Prop :=
  o.reply ≠ .error .methodNotFound

/-- A handler that answers was found under its method. -/
theorem Mutate.known_of_reply {o : Outcome} {value : Value} (h : o.reply = .ok value) :
    Known o := by
  rw [Known, h]
  exact fun heq => by cases heq

/-- A handler that fails with any error but `method_not_found` was found, too. -/
theorem Mutate.known_of_error {o : Outcome} {e : ProtocolError} (h : o.reply = .error e)
    (he : e ≠ .methodNotFound) : Known o := by
  rw [Known, h]
  exact fun heq => he (Except.error.inj heq)

theorem Mutate.known_refuse {e : ProtocolError} (h : e ≠ .methodNotFound) : Known (refuse db e) :=
  known_of_error rfl h

/-- A row that is read back does not fail with the code for a method there is not. -/
theorem Mutate.replyRow_ne {row : Except RepoError (Option Session)} {missing : ProtocolError}
    (h : missing ≠ .methodNotFound) : replyRow row missing ≠ .error .methodNotFound := by
  unfold replyRow
  split
  · exact fun heq => by cases heq
  · exact fun heq => h (Except.error.inj heq)

/-- Nor do the checks of the id with which the handlers of a session begin. -/
theorem Mutate.requestedSession_ne {e : ProtocolError}
    (h : Mutate.requestedSession params db = .error e) : e ≠ .methodNotFound := by
  unfold Mutate.requestedSession at h
  split at h
  · rw [← Except.error.inj h]
    decide
  · split at h
    · rw [← Except.error.inj h]
      decide
    · split at h
      · cases h
      · rw [← Except.error.inj h]
        decide

/-- `session_create` fails for its parameters, or as the database does. -/
theorem Mutate.known_sessionCreate : Known (sessionCreate params db amb) := by
  unfold sessionCreate
  split
  · exact known_refuse (by decide)
  · split
    · exact known_refuse (by decide)
    · dsimp only
      split
      · exact known_refuse (by decide)
      · exact known_of_reply rfl

/-- `session_rename` fails for its parameters, for want of the session, or as the database does. -/
theorem Mutate.known_sessionRename : Known (sessionRename params db amb) := by
  unfold sessionRename
  split
  · exact known_refuse (by decide)
  · split
    · exact known_refuse (by decide)
    · split
      · exact known_refuse (by decide)
      · split
        · exact known_refuse (by decide)
        · exact replyRow_ne (by decide)

/-- `session_dismiss_error` refuses a session that is not in error, with the code of invalid
parameters. -/
theorem Mutate.known_sessionDismissError : Known (sessionDismissError params db amb) := by
  unfold sessionDismissError
  split
  · rename_i e he
    exact known_refuse (requestedSession_ne he)
  · split_ifs
    · exact known_refuse (by decide)
    · split
      · exact known_refuse (by decide)
      · exact replyRow_ne (by decide)

/-- `session_jump` refuses a session that is in no tmux session, and one to which tmux does not
switch. -/
theorem Mutate.known_sessionJump : Known (sessionJump params db amb) := by
  unfold sessionJump
  split
  · rename_i e he
    exact known_refuse (requestedSession_ne he)
  · split
    · exact known_refuse (by decide)
    · dsimp only
      split_ifs
      · exact known_of_reply rfl
      · exact known_of_error rfl (by decide)

/-- `session_kill` refuses a session that has finished, as one there is not. -/
theorem Mutate.known_sessionKill : Known (sessionKill params db amb) := by
  unfold sessionKill
  split
  · rename_i e he
    exact known_refuse (requestedSession_ne he)
  · split_ifs
    · exact known_refuse (by decide)
    · dsimp only
      split
      · exact known_of_error rfl (by decide)
      · exact replyRow_ne (by decide)

/-- `mutate::dispatch` does not know exactly the methods that are not its own. -/
theorem Mutate.reply_dispatch_iff {method : String} :
    (Mutate.dispatch method params db amb).reply = .error .methodNotFound ↔
      method ∉ Mutate.methods := by
  by_cases hmem : method ∈ Mutate.methods
  · refine iff_of_false ?_ (not_not.mpr hmem)
    change Known _
    simp only [Mutate.methods, List.mem_cons, List.not_mem_nil, or_false] at hmem
    unfold Mutate.dispatch
    rcases hmem with rfl | rfl | rfl | rfl | rfl | rfl
    · exact known_sessionCreate
    · exact known_sessionRename
    · exact known_sessionDismissError
    · exact known_sessionJump
    · exact known_sessionKill
    · exact known_of_reply rfl
  · refine iff_of_true ?_ hmem
    rw [Mutate.dispatch_of_notMem hmem]
    rfl

/-- A rename without an id has invalid parameters. -/
theorem Mutate.sessionRename_of_none (h : Read.requestedId params = none) :
    (sessionRename params db amb).reply = .error .invalidParams := by
  unfold sessionRename
  rcases hid : params.getStr "id" with _ | idStr
  · rfl
  · have huuid : Uuid.parseStr idStr = none := by
      rwa [Read.requestedId, hid, Option.bind_some] at h
    rcases params.getStr "name" with _ | name
    · rfl
    · simp only [huuid]
      rfl

/-- A rename of a session there is not says so, provided it has a name to give. -/
theorem Mutate.sessionRename_of_missing {id : Uuid} (hname : (params.getStr "name").isSome)
    (h : Read.requestedId params = some id) (hrow : db.row? id = none) :
    (sessionRename params db amb).reply = .error .sessionNotFound := by
  obtain ⟨idStr, hid, huuid⟩ := Option.bind_eq_some_iff.mp h
  obtain ⟨name, hname⟩ := Option.isSome_iff_exists.mp hname
  have hupdate : db.updateRename id name = .error (.notFound id) := updateSession_of_missing hrow
  unfold sessionRename
  simp only [hid, hname, huuid, hupdate]
  rfl

/-- The methods of a session but `session.rename` answer with what is wrong with the session. -/
theorem Mutate.reply_of_error {method : String} (hmethod : method ∈ sessionMethods)
    (hrename : method ≠ Method.sessionRename) {e : ProtocolError}
    (h : requestedSession params db = .error e) :
    (Mutate.dispatch method params db amb).reply = .error e := by
  simp only [sessionMethods, List.mem_cons, List.not_mem_nil, or_false] at hmethod
  rcases hmethod with rfl | rfl | rfl | rfl
  · exact absurd rfl hrename
  · change (sessionDismissError params db amb).reply = _
    rw [sessionDismissError, h]
    rfl
  · change (sessionJump params db amb).reply = _
    rw [sessionJump, h]
    rfl
  · change (sessionKill params db amb).reply = _
    rw [sessionKill, h]
    rfl

/-- A method of a session refuses a request without an identifier that reads. -/
theorem Mutate.reply_of_none {method : String} (hmethod : method ∈ sessionMethods)
    (h : Read.requestedId params = none) :
    (Mutate.dispatch method params db amb).reply = .error .invalidParams := by
  by_cases hrename : method = Method.sessionRename
  · rw [hrename]
    exact sessionRename_of_none h
  · exact reply_of_error hmethod hrename (requestedSession_of_none h)

/-- And one for a session that has no row. -/
theorem Mutate.reply_of_missing {method : String} (hmethod : method ∈ sessionMethods)
    (hname : method = Method.sessionRename → (params.getStr "name").isSome) {id : Uuid}
    (h : Read.requestedId params = some id) (hrow : db.row? id = none) :
    (Mutate.dispatch method params db amb).reply = .error .sessionNotFound := by
  by_cases hrename : method = Method.sessionRename
  · have hsome := hname hrename
    rw [hrename]
    exact sessionRename_of_missing hsome h hrow
  · exact reply_of_error hmethod hrename (requestedSession_of_missing h hrow)

end Mutations

/-! ### The two together

The router asks `read::dispatch` first and `mutate::dispatch` when that returns nothing. So a read
that fails is handed to the mutations, which do not know its method. -/

section Router

variable {method : String} {params : Value} {db : Db} {amb : Ambient}

/-- What cannot be answered is a method of the reads. -/
theorem Read.Unanswerable.mem_methods (h : Read.Unanswerable method params db) :
    method ∈ Read.methods := by
  rcases h with ⟨rfl | rfl | rfl, -⟩ | ⟨rfl, -⟩ | ⟨rfl, -⟩ <;> decide

/-- The methods about a session are methods of the mutations. -/
theorem Mutate.mem_methods_of_mem (h : method ∈ Mutate.sessionMethods) :
    method ∈ Mutate.methods := by
  have hsubset : ∀ method ∈ Mutate.sessionMethods, method ∈ Mutate.methods := by decide
  exact hsubset method h

/-- A read that has an answer gets the errors right: none is due. -/
theorem errorCodes_of_read {value : Value} (h : Read.dispatch method params db = some value) :
    ErrorCodes method params db amb := by
  have hmem := Read.mem_methods_of_dispatch h
  have hunanswerable : ¬Read.Unanswerable method params db := fun hun => by
    rw [Read.dispatch_eq_none_iff.mpr (.inr hun)] at h
    cases h
  have hsession : method ∉ Mutate.sessionMethods := fun hsession =>
    Mutate.notMem_methods_of_mem hmem (Mutate.mem_methods_of_mem hsession)
  have hreply : (Router.dispatch method params db amb).reply = .ok value := by
    rw [Router.dispatch, h]
  refine ⟨?_, fun hmethod hid => ?_, fun hmethod _ id hid hrow => ?_⟩
  · rw [hreply]
    exact iff_of_false (fun heq => by cases heq) (fun hnot => hnot.1 hmem)
  · simp only [List.mem_cons, hsession, or_false] at hmethod
    rcases hmethod with rfl | rfl
    · exact absurd (Read.unanswerable_sessionGet.mpr (by simp [hid])) hunanswerable
    · exact absurd (Read.unanswerable_sessionEvents.mpr hid) hunanswerable
  · simp only [List.mem_cons, hsession, or_false] at hmethod
    rw [hmethod] at hunanswerable
    refine absurd (Read.unanswerable_sessionGet.mpr fun id' hid' row hrow' => ?_) hunanswerable
    rw [← Option.mem_unique hid hid', hrow] at hrow'
    cases hrow'

/-- The mutating methods, and those that nobody has, get the errors right. -/
theorem errorCodes_of_notMem (hmem : method ∉ Read.methods) : ErrorCodes method params db amb := by
  have hread : Read.dispatch method params db = none := Read.dispatch_of_notMem hmem
  have hget : method ≠ Method.sessionGet := fun h => hmem (h ▸ by decide)
  have hevents : method ≠ Method.sessionEvents := fun h => hmem (h ▸ by decide)
  refine ⟨?_, fun hmethod hid => ?_, fun hmethod hname id hid hrow => ?_⟩ <;>
    rw [Router.dispatch_of_none hread]
  · rw [Mutate.reply_dispatch_iff, and_iff_right hmem]
  · simp only [List.mem_cons, hget, hevents, false_or] at hmethod
    exact Mutate.reply_of_none hmethod hid
  · simp only [List.mem_cons, hget, false_or] at hmethod
    exact Mutate.reply_of_missing hmethod hname hid hrow

end Router

/-- **The errors are the right ones exactly when the request is not a read that cannot be
answered.** The method is any text and the parameters are any value. A read without an answer falls
through to the other dispatcher, which does not know its method, and so it is refused as a method
that does not exist. -/
theorem errorCodes_iff (method : String) (params : Value) (db : Db) (amb : Ambient) :
    ErrorCodes method params db amb ↔ ¬Read.Unanswerable method params db := by
  constructor
  · intro h hun
    -- the router offers it to the other dispatcher, which does not know it
    have hmem := hun.mem_methods
    have hreply : (Router.dispatch method params db amb).reply = .error .methodNotFound := by
      rw [Router.dispatch_of_none (Read.dispatch_eq_none_iff.mpr (.inr hun)),
        Mutate.dispatch_of_mem_read hmem]
      rfl
    exact (h.methodNotFound.mp hreply).1 hmem
  · intro hun
    cases hread : Read.dispatch method params db with
    | none =>
      have hmem : method ∉ Read.methods := (Read.dispatch_eq_none_iff.mp hread).resolve_right hun
      exact errorCodes_of_notMem hmem
    | some value => exact errorCodes_of_read hread

/-- **`session.get` without an identifier is answered as a method that is not there.** -/
theorem get_methodNotFound :
    ¬∀ (method : String) (params : Value) (db : Db) (amb : Ambient),
      ErrorCodes method params db amb := by
  intro h
  have hcode := (h Method.sessionGet (.object []) Db.fresh (.noon (.ofTimeLow 1) 2026)).invalidParams
    (by decide) rfl
  have hreply : (Router.dispatch Method.sessionGet (.object []) Db.fresh
      (.noon (.ofTimeLow 1) 2026)).reply = .error .methodNotFound := rfl
  rw [hreply] at hcode
  cases hcode

end Agentd
