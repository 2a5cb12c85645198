import Agentd.Handlers.Read
import Agentd.Handlers.Step

/-!
# The dispatcher of the control socket

`router.rs` offers a method to `Agentd.Read.dispatch` first, and to `Agentd.Mutate.dispatch` when
that has no answer. A read that fails is offered to the second as well, which knows none of the
methods of the first, so the database is left to the mutating handlers alone
(`Agentd.served_eq`).

The methods of the two files are disjoint, which is checked by going through them. So a method is
answered by one of the two at most, and which one does not depend on the database.
-/

namespace Agentd

open Json

/-- `router::dispatch`. -/
def Router.dispatch (method : String) (params : Value) (db : Db) (amb : Ambient) : Outcome :=
  match Read.dispatch method params db with
  | some value => { db, reply := .ok value }
  | none => Mutate.dispatch method params db amb

/-- What the daemon does with a request, reads included. -/
def serve (db : Db) (i : Input) : Outcome :=
  match i.request with
  | .control method params => Router.dispatch method params db i.amb
  | .plugin name method params => Plugin.dispatch method params db name i.amb

/-- The database after a request, reads included. -/
def served (db : Db) (i : Input) : Db :=
  (serve db i).db

/-! ### Which method is whose

Each dispatcher is a chain of comparisons with the names of its methods, ending in the answer for a
method it does not know. -/

/-- The methods of `read::dispatch`. -/
def Read.methods : List String :=
  [Method.stateSnapshot, Method.sessionGet, Method.sessionListActive, Method.sessionEvents,
    Method.daemonStatus, Method.pluginList, Method.metrics]

/-- The methods of `mutate::dispatch`. -/
def Mutate.methods : List String :=
  [Method.sessionCreate, Method.sessionRename, Method.sessionDismissError, Method.sessionJump,
    Method.sessionKill, Method.daemonShutdown]

section

variable {method : String} {params : Value} {db : Db} {amb : Ambient}

/-- No method is in both files. -/
theorem Mutate.notMem_methods_of_mem (h : method ∈ Read.methods) : method ∉ Mutate.methods := by
  have hdisjoint : ∀ method ∈ Read.methods, method ∉ Mutate.methods := by decide
  exact hdisjoint method h

/-- `read::dispatch` answers its own methods only. -/
theorem Read.dispatch_of_notMem (h : method ∉ Read.methods) :
    Read.dispatch method params db = none := by
  simp only [Read.methods, List.mem_cons, List.not_mem_nil, or_false, not_or] at h
  obtain ⟨hsnapshot, hget, hactive, hevents, hstatus, hplugins, hmetrics⟩ := h
  rw [Read.dispatch, if_neg hsnapshot, if_neg hget, if_neg hactive, if_neg hevents, if_neg hstatus,
    if_neg hplugins, if_neg hmetrics]

/-- `mutate::dispatch` refuses every method that is none of its own. -/
theorem Mutate.dispatch_of_notMem (h : method ∉ Mutate.methods) :
    Mutate.dispatch method params db amb = refuse db .methodNotFound := by
  simp only [Mutate.methods, List.mem_cons, List.not_mem_nil, or_false, not_or] at h
  obtain ⟨hcreate, hrename, hdismiss, hjump, hkill, hshutdown⟩ := h
  rw [Mutate.dispatch, if_neg hcreate, if_neg hrename, if_neg hdismiss, if_neg hjump, if_neg hkill,
    if_neg hshutdown]

/-- A read is not known to the mutating methods, which leave the database alone. -/
theorem Mutate.dispatch_of_mem_read (h : method ∈ Read.methods) :
    Mutate.dispatch method params db amb = refuse db .methodNotFound :=
  dispatch_of_notMem (notMem_methods_of_mem h)

/-- What is answered by a read is a method of the reads. -/
theorem Read.mem_methods_of_dispatch {value : Value}
    (h : Read.dispatch method params db = some value) : method ∈ Read.methods := by
  by_contra hnot
  rw [Read.dispatch_of_notMem hnot] at h
  cases h

/-- Whatever the reads do not answer goes to the mutations, for whichever reason they do not. -/
theorem Router.dispatch_of_none (h : Read.dispatch method params db = none) :
    Router.dispatch method params db amb = Mutate.dispatch method params db amb := by
  rw [Router.dispatch, h]

end

/-- **Reads leave the database alone**, and everything else is as without them. -/
theorem served_eq : served = next := by
  funext db i
  obtain ⟨request, amb⟩ := i
  cases request with
  | plugin name method params => rfl
  | control method params =>
    change (Router.dispatch method params db amb).db = (Mutate.dispatch method params db amb).db
    cases hread : Read.dispatch method params db with
    | none => rw [Router.dispatch_of_none hread]
    | some value =>
      rw [Router.dispatch, hread, Mutate.dispatch_of_mem_read (Read.mem_methods_of_dispatch hread)]
      rfl

end Agentd
