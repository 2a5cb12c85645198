import Agentd.Sdk.Connection
import Agentd.Watcher.Reattach

/-!
# The client that a watcher has

What is proved of a watcher is proved for a client whose calls are made one after the other on a
database, with what others ask in between: `Agentd.Watcher.daemon`, in some surroundings. A
watcher in fact has a connection. As long as its calls return answers, the connection is such a
client (`Agentd.Watcher.daemon_refines`): the surroundings are read off the order in which the
database was asked.

The two models differ in what they take for given. The connection is told what is asked on it and
when others are served, and has bytes that may be lost; the watcher's daemon is told what others ask
before each call, and answers at once. To refine the one to the other is therefore to find
surroundings: what others ask before the `k`-th call is what the history has between the two calls,
and the time of the call is that of its entry.
-/

namespace Agentd.Watcher

open Json PluginConnection

/-- Calls, one after the other. -/
def callAll {σ : Type} (c : Client σ) : σ → List (String × Value) → σ × List (Option Value)
  | w, [] => (w, [])
  | w, (method, params) :: calls =>
    let (w, answer) := c.call w method params
    let (w, answers) := callAll c w calls
    (w, answer :: answers)

namespace Surroundings

/-- Surroundings where nothing happens. -/
def quiet : Surroundings where
  amb _ := .noon (.ofTimeLow 0) 2024
  foreign _ := []
  chronoNow _ := ""

/-- Something else is asked first. -/
def after (i : Input) (env : Surroundings) : Surroundings where
  amb := env.amb
  foreign
    | 0 => i :: env.foreign 0
    | k + 1 => env.foreign (k + 1)
  chronoNow := env.chronoNow

/-- There is one more call, at the beginning. -/
def before (amb : Ambient) (env : Surroundings) : Surroundings where
  amb
    | 0 => amb
    | k + 1 => env.amb k
  foreign
    | 0 => []
    | k + 1 => env.foreign k
  chronoNow
    | 0 => ""
    | k + 1 => env.chronoNow k

end Surroundings

/-- What the daemon is asked up to the last call: what others ask comes before each. -/
def requestsOf (env : Surroundings) (calls : List (String × Value)) : List Input :=
  calls.zipIdx.flatMap fun call =>
    env.foreign call.2 ++ [⟨.plugin "opencode" call.1.1 call.1.2, env.amb call.2⟩]

/-- One more call comes after what others ask before it. -/
theorem requestsOf_concat (env : Surroundings) (calls : List (String × Value))
    (call : String × Value) :
    requestsOf env (calls ++ [call]) = requestsOf env calls ++ (env.foreign calls.length ++
      [⟨.plugin "opencode" call.1 call.2, env.amb calls.length⟩]) := by
  unfold requestsOf
  rw [List.zipIdx_append, List.flatMap_append, Nat.zero_add, List.zipIdx_singleton,
    List.flatMap_singleton]

/-- If somebody else asks before the first call, that request is the first of all. -/
theorem requestsOf_after (i : Input) (env : Surroundings) (call : String × Value)
    (calls : List (String × Value)) :
    requestsOf (env.after i) (call :: calls) = i :: requestsOf env (call :: calls) := by
  unfold requestsOf
  rw [List.zipIdx_cons, List.flatMap_cons, List.flatMap_cons, List.zipIdx_succ, List.flatMap_map,
    List.flatMap_map]
  rfl

/-- If a call is put before all others, it is asked first, and nobody asks before it. -/
theorem requestsOf_before (amb : Ambient) (env : Surroundings) (method : String) (params : Value)
    (calls : List (String × Value)) : requestsOf (env.before amb) ((method, params) :: calls) =
      ⟨.plugin "opencode" method params, amb⟩ :: requestsOf env calls := by
  unfold requestsOf
  rw [List.zipIdx_cons, List.flatMap_cons, List.zipIdx_succ, List.flatMap_map]
  rfl

/-- The database that calls leave, from the `k`-th on, and their answers. -/
def called (env : Surroundings) (db : Db) (k : ℕ) (calls : List (String × Value)) :
    Db × List (Option Value) :=
  let r := callAll (daemon env) ⟨db, k⟩ calls
  (r.1.db, r.2)

/-- The first call is handled after what others ask, and leaves its database to the calls that
follow. -/
theorem called_cons (env : Surroundings) (db : Db) (k : ℕ) (method : String) (params : Value)
    (calls : List (String × Value)) : called env db k ((method, params) :: calls) =
      let o := handle (Machine.run next db (env.foreign k))
        ⟨.plugin "opencode" method params, env.amb k⟩
      ((called env o.db (k + 1) calls).1, o.reply.toOption :: (called env o.db (k + 1) calls).2) :=
  rfl

/-- Surroundings that agree from some call on. -/
theorem called_congr {env env' : Surroundings} (d : ℕ) (calls : List (String × Value)) :
    ∀ (k : ℕ) (db : Db), (∀ j ≥ k, env'.amb (j + d) = env.amb j) →
      (∀ j ≥ k, env'.foreign (j + d) = env.foreign j) →
        called env' db (k + d) calls = called env db k calls := by
  induction calls with
  | nil => exact fun _ _ _ _ => rfl
  | cons call calls ih =>
    obtain ⟨method, params⟩ := call
    intro k db hamb hforeign
    have hrest (db : Db) : called env' db (k + d + 1) calls = called env db (k + 1) calls := by
      rw [Nat.add_right_comm]
      exact ih (k + 1) db (fun j hj => hamb j (by omega)) fun j hj => hforeign j (by omega)
    rw [called_cons, called_cons, hamb k (Nat.le_refl k), hforeign k (Nat.le_refl k)]
    dsimp only
    rw [hrest]

/-- What others ask first can be asked beforehand. -/
theorem called_after (i : Input) (env : Surroundings) (db : Db) (call : String × Value)
    (calls : List (String × Value)) :
    called (env.after i) db 0 (call :: calls) = called env (next db i) 0 (call :: calls) := by
  obtain ⟨method, params⟩ := call
  have hrest (db : Db) : called (env.after i) db 1 calls = called env db 1 calls :=
    called_congr 0 calls 1 db (fun _ _ => rfl) fun j hj => by
      obtain ⟨j, rfl⟩ := Nat.exists_eq_add_of_le' hj
      rfl
  rw [called_cons, called_cons]
  dsimp only
  rw [hrest]
  rfl

/-- A call that comes first is answered from the database there is. -/
theorem called_before (amb : Ambient) (env : Surroundings) (db : Db) (method : String)
    (params : Value) (calls : List (String × Value)) :
    called (env.before amb) db 0 ((method, params) :: calls) =
      let o := handle db ⟨.plugin "opencode" method params, amb⟩
      ((called env o.db 0 calls).1, o.reply.toOption :: (called env o.db 0 calls).2) := by
  have hrest (db : Db) : called (env.before amb) db 1 calls = called env db 0 calls :=
    called_congr 1 calls 0 db (fun _ _ => rfl) fun _ _ => rfl
  rw [called_cons]
  dsimp only
  rw [hrest]
  rfl

/-- **Surroundings from a history**, in which the first calls are answered as they were, and others
ask what they asked. -/
theorem exists_surroundings (history : List Entry) : ∀ (db : Db) (n : ℕ),
    n ≤ (asked history).length → ∃ (env : Surroundings) (rest : List Input),
      (called env db 0 ((asked history).take n)).2 =
          ((replies "opencode" db history).take n).map Except.toOption ∧
        history.map (Entry.input "opencode") =
          requestsOf env ((asked history).take n) ++ rest ∧
        Machine.run next (called env db 0 ((asked history).take n)).1 rest =
          Machine.run next db (history.map (Entry.input "opencode")) := by
  induction history with
  | nil =>
    intro db n hn
    obtain rfl : n = 0 := Nat.le_zero.mp hn
    exact ⟨.quiet, [], rfl, rfl, rfl⟩
  | cons e history ih =>
    intro db n hn
    cases n with
    | zero => exact ⟨.quiet, (e :: history).map (Entry.input "opencode"), rfl, rfl, rfl⟩
    | succ n =>
      cases e with
      | foreign i =>
        obtain ⟨env, rest, hanswers, hhistory, hdb⟩ := ih (next db i) (n + 1) hn
        have hlen : ((asked history).take (n + 1)).length = n + 1 :=
          List.length_take_of_le hn
        obtain ⟨call, calls, hcalls⟩ := List.exists_cons_of_length_eq_add_one hlen
        refine ⟨env.after i, rest, ?_, ?_, ?_⟩
        · change (called (env.after i) db 0 ((asked history).take (n + 1))).2 = _
          rw [hcalls, called_after, ← hcalls, hanswers]
          rfl
        · change _ = requestsOf (env.after i) ((asked history).take (n + 1)) ++ rest
          rw [hcalls, requestsOf_after, ← hcalls, List.cons_append, ← hhistory]
          rfl
        · change Machine.run next (called (env.after i) db 0 ((asked history).take (n + 1))).1 rest = _
          rw [hcalls, called_after, ← hcalls, hdb]
          rfl
      | own method params amb =>
        obtain ⟨env, rest, hanswers, hhistory, hdb⟩ :=
          ih (handle db ⟨.plugin "opencode" method params, amb⟩).db n (Nat.le_of_succ_le_succ hn)
        refine ⟨env.before amb, rest, ?_, ?_, ?_⟩
        · change (called (env.before amb) db 0
            ((method, params) :: (asked history).take n)).2 = _
          rw [called_before]
          dsimp only
          rw [hanswers]
          rfl
        · change _ = requestsOf (env.before amb) ((method, params) :: (asked history).take n) ++ rest
          rw [requestsOf_before, List.cons_append, ← hhistory]
          rfl
        · change Machine.run next (called (env.before amb) db 0
            ((method, params) :: (asked history).take n)).1 rest = _
          rw [called_before]
          exact hdb

/-- A watcher discovers a session, while a plugin of another kind discovers one as well, and then
somebody renames its session. -/
def discovering : List PluginConnection.Move :=
  [.call Method.sessionDiscover (discoverParams "main" "%1" "/home/u/proj"), .send 30,
    .foreign ⟨.discover "codex" "main" "%2" "/home/u/blog", .noon (.ofTimeLow 1) 2026⟩, .send 300,
    .arrive 300, .serve (.noon (.ofTimeLow 2) 2026), .reply 300, .deliver 300, .resume,
    .foreign ⟨.rename (.ofTimeLow 2) "mine", .noon (.ofTimeLow 3) 2026⟩]

end Agentd.Watcher
