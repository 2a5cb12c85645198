import Agentd.Foundations.LockFile
import Agentd.Foundations.Machine
import Mathlib.Data.Fintype.Basic

/-!
# One daemon at a time

`acquire_flock`, `FlockGuard::drop` and the end of `Daemon::run`: what any number of
processes do to the lock file of the daemon, one system call at a time. A process that
stops takes the name of the lock file away while it still holds the lock, and once more after
it gave it up. Both times a process that starts can be left with an inode that has no
name.

`Agentd.Lock.single_daemon` says when there is one daemon at a time nevertheless: when no
process starts while another one stops.

A state has the phase of every process and the lock file, and a step is one system call of one
process. The invariant says of each process in each phase what it may hold, and that a process which
runs under a lock holds it on the inode that the path names. The two removals of the name are where
this fails, and so the runs that are considered are those in which nobody starts between them
(`Agentd.Lock.State.Overlaps`).
-/

namespace Agentd

namespace Lock

/-- Where a process is. -/
inductive Phase
  | idle
  /-- In `acquire_flock`, after the open. -/
  | opened (inode : ℕ)
  /-- In `Daemon::run`, with a `FlockGuard`. -/
  | running (inode : ℕ)
  /-- At the end of `Daemon::run`, after it removed the lock file. -/
  | unlinked (inode : ℕ)
  /-- In `FlockGuard::drop`, after the unlock. -/
  | unlocked
  /-- Stopped, refused or crashed. -/
  | done

namespace Phase

/-- The inode of the `FlockGuard` of a process. -/
def guard? : Phase → Option ℕ
  | running i | unlinked i => some i
  | _ => none

/-- The process is about to try the lock. -/
def Starting : Phase → Prop
  | opened _ => True
  | _ => False

/-- The process is between the first and the last call of its exit. -/
def Exiting : Phase → Prop
  | unlinked _ | unlocked => True
  | _ => False

instance : DecidablePred Starting := fun x => by
  cases x <;> unfold Starting <;> infer_instance

instance : DecidablePred Exiting := fun x => by
  cases x <;> unfold Exiting <;> infer_instance

end Phase

/-- The lock file and the processes. -/
structure State (ι : Type) where
  file : LockFile ι
  phase : ι → Phase

/-- A system call of a process on its way in or out, or its crash. -/
inductive Action (ι : Type)
  | openLock (p : ι)
  | flock (p : ι)
  | unlinkInRun (p : ι)
  | unlock (p : ι)
  | unlinkInDrop (p : ι)
  | crash (p : ι)

variable {ι : Type} [DecidableEq ι]

namespace State

/-- No process has begun; the lock file may be there from an earlier crash. -/
def start (named : Option ℕ) : State ι :=
  ⟨.unheld named, fun _ => .idle⟩

/-- A process goes on to another phase. -/
def move (s : State ι) (p : ι) (x : Phase) (file : LockFile ι) : State ι :=
  ⟨file, Function.update s.phase p x⟩

/-- The open in `acquire_flock`. Here and below, a process that is elsewhere makes no such
call. -/
def openLock (s : State ι) (p : ι) : State ι :=
  match s.phase p with
  | .idle => s.move p (.opened s.file.openOrCreate.1) s.file.openOrCreate.2
  | _ => s

/-- The `flock` in `acquire_flock`, which ends in a guard or in `LockHeld`. -/
def flock (s : State ι) (p : ι) : State ι :=
  match s.phase p with
  -- the inode is the one opened, whether or not the path still leads to it
  | .opened i => match s.file.tryLock p i with
    | some file => s.move p (.running i) file
    | none => s.move p .done s.file
  | _ => s

/-- The `remove_file` of the lock path at the end of `Daemon::run`. -/
def unlinkInRun (s : State ι) (p : ι) : State ι :=
  match s.phase p with
  | .running i => s.move p (.unlinked i) s.file.unlink
  | _ => s

/-- The unlock in `FlockGuard::drop`. The guard is dropped early when `Daemon::run` returns an
error of the boot sequence. -/
def unlock (s : State ι) (p : ι) : State ι :=
  match s.phase p with
  | .running i | .unlinked i => s.move p .unlocked (s.file.unlock i)
  | _ => s

/-- The `remove_file` in `FlockGuard::drop`. -/
def unlinkInDrop (s : State ι) (p : ι) : State ι :=
  match s.phase p with
  | .unlocked => s.move p .done s.file.unlink
  | _ => s

/-- A crash only gives up the lock. -/
def crash (s : State ι) (p : ι) : State ι :=
  s.move p .done ((s.phase p).guard?.elim s.file s.file.unlock)

/-- One system call, or the crash of a process. -/
def step (s : State ι) : Action ι → State ι
  | .openLock p => s.openLock p
  | .flock p => s.flock p
  | .unlinkInRun p => s.unlinkInRun p
  | .unlock p => s.unlock p
  | .unlinkInDrop p => s.unlinkInDrop p
  | .crash p => s.crash p

/-- At most one process is between a successful `acquire_flock` and the drop of its guard. -/
def Exclusive (s : State ι) : Prop :=
  ∀ p q, (s.phase p).guard?.isSome → (s.phase q).guard?.isSome → p = q

/-- A process is starting while another one is on its way out. -/
def Overlaps (s : State ι) : Prop :=
  ∃ p q, (s.phase p).Starting ∧ (s.phase q).Exiting

instance [Fintype ι] (s : State ι) : Decidable s.Overlaps :=
  inferInstanceAs (Decidable (∃ p q, (s.phase p).Starting ∧ (s.phase q).Exiting))

/-- The locks are those of the guards. -/
def LocksGuarded (s : State ι) : Prop :=
  ∀ p i, s.file.holder i = some p ↔ (s.phase p).guard? = some i

/-- A process on its way out is alone, and when there is none the path names the inode of
every process. -/
structure Tidy (s : State ι) : Prop where
  alone : ∀ p q, (s.phase q).Exiting → p ≠ q → s.phase p = .idle ∨ s.phase p = .done
  named : (∀ q, ¬(s.phase q).Exiting) → ∀ p i, s.phase p = .opened i ∨ s.phase p = .running i →
    s.file.named = some i

/-- What holds of the processes as long as no two overlap. -/
structure Inv (s : State ι) : Prop where
  locks : s.LocksGuarded
  exclusive : s.Exclusive
  tidy : ¬s.Overlaps → s.Tidy

/-! ### Processes that move

Each system call moves one process to another phase, and most of them leave the lock file alone.
What a move does to the invariant depends on whether it takes a guard, gives one up, or neither;
these cases are settled first, whatever call it is. -/

section Move

variable {s : State ι} {p : ι} {x : Phase} {file : LockFile ι}

@[simp] theorem phase_move_self : (s.move p x file).phase p = x := by
  rw [move]
  exact Function.update_self ..

theorem phase_move_of_ne {q : ι} (h : q ≠ p) : (s.move p x file).phase q = s.phase q := by
  rw [move]
  exact Function.update_of_ne h ..

@[simp] theorem file_move : (s.move p x file).file = file :=
  rfl

/-- A move that keeps the guard and the locks. -/
theorem guard?_move (hx : x.guard? = (s.phase p).guard?) (q : ι) :
    ((s.move p x file).phase q).guard? = (s.phase q).guard? := by
  by_cases h : q = p
  · rw [h, phase_move_self, hx]
  · rw [phase_move_of_ne h]

theorem locksGuarded_move (h : s.LocksGuarded) (hx : x.guard? = (s.phase p).guard?)
    (hfile : file.holder = s.file.holder) : (s.move p x file).LocksGuarded := by
  intro q i
  rw [guard?_move hx, file_move, hfile]
  exact h q i

theorem exclusive_move (h : s.Exclusive) (hx : x.guard? = (s.phase p).guard?) :
    (s.move p x file).Exclusive := by
  intro q r hq hr
  rw [guard?_move hx] at hq hr
  exact h q r hq hr

/-- A move that gives the guard up, with its lock. -/
theorem locksGuarded_unlock (h : s.LocksGuarded) (hx : x.guard? = none) {i : ℕ}
    (hi : (s.phase p).guard? = some i) : (s.move p x (s.file.unlock i)).LocksGuarded := by
  intro q j
  have hholder := (h p i).mpr hi
  rw [file_move, LockFile.holder_unlock]
  by_cases hq : q = p
  · subst hq
    rw [phase_move_self, hx]
    refine iff_of_false (fun hj => ?_) nofun
    split_ifs at hj with hij
    rw [h, hi] at hj
    exact hij (Option.some.inj hj).symm
  · rw [phase_move_of_ne hq, ← h]
    split_ifs with hij
    · subst hij
      rw [hholder]
      exact iff_of_false nofun fun heq => hq (Option.some.inj heq).symm
    · rfl

theorem exclusive_of_guard?_eq_none (h : s.Exclusive) (hx : x.guard? = none) :
    (s.move p x file).Exclusive := by
  have hother {q : ι} (hq : ((s.move p x file).phase q).guard?.isSome) :
      (s.phase q).guard?.isSome := by
    by_cases hqp : q = p
    · rw [hqp, phase_move_self, hx] at hq
      cases hq
    · rwa [phase_move_of_ne hqp] at hq
  exact fun q r hq hr => h q r (hother hq) (hother hr)

/-- A move that takes a guard, with its lock, while nobody has one. -/
theorem locksGuarded_lock (h : s.LocksGuarded) (hnone : ∀ q, (s.phase q).guard? = none) {i : ℕ}
    (hx : x.guard? = some i)
    (hfile : ∀ j, file.holder j = if j = i then some p else s.file.holder j) :
    (s.move p x file).LocksGuarded := by
  intro q j
  have hheld : s.file.holder j ≠ some q := by
    intro heq
    have hguard := (h q j).mp heq
    rw [hnone q] at hguard
    cases hguard
  rw [file_move, hfile]
  by_cases hqp : q = p
  · rw [hqp, phase_move_self, hx]
    split_ifs with hji
    · rw [hji]
      exact iff_of_true rfl rfl
    · exact iff_of_false (hqp ▸ hheld) fun heq => hji (Option.some.inj heq).symm
  · rw [phase_move_of_ne hqp, hnone q]
    split_ifs
    · exact iff_of_false (fun heq => hqp (Option.some.inj heq).symm) nofun
    · exact iff_of_false hheld nofun

theorem exclusive_lock (hnone : ∀ q, (s.phase q).guard? = none) : (s.move p x file).Exclusive := by
  have honly {q : ι} (hq : ((s.move p x file).phase q).guard?.isSome) : q = p := by
    by_contra hqp
    rw [phase_move_of_ne hqp, hnone] at hq
    cases hq
  exact fun q r hq hr => (honly hq).trans (honly hr).symm

/-- A move after which nobody is on the way out, and the path names the inode of every
process. -/
theorem tidy_calm (hnone : ∀ q, ¬((s.move p x file).phase q).Exiting)
    (hself : ∀ i, x = .opened i ∨ x = .running i → file.named = some i)
    (hothers : ∀ q i, q ≠ p → s.phase q = .opened i ∨ s.phase q = .running i →
      file.named = some i) : (s.move p x file).Tidy := by
  refine ⟨fun q r hr => absurd hr (hnone r), fun _ q i hq => ?_⟩
  by_cases hqp : q = p
  · rw [hqp, phase_move_self] at hq
    exact hself i hq
  · rw [phase_move_of_ne hqp] at hq
    exact hothers q i hqp hq

/-- A process that begins its exit is alone when none starts. -/
theorem tidy_exit (hexcl : s.Exclusive) (htidy : s.Tidy) (hp : (s.phase p).guard?.isSome)
    (hx : x.Exiting) (hcalm : ¬(s.move p x file).Overlaps) : (s.move p x file).Tidy := by
  have hself : ((s.move p x file).phase p).Exiting := by rwa [phase_move_self]
  have hothers (q : ι) (hq : q ≠ p) : s.phase q = .idle ∨ s.phase q = .done := by
    cases hphase : s.phase q with
    | idle => exact Or.inl rfl
    | done => exact Or.inr rfl
    | opened j =>
      refine absurd ⟨q, p, ?_, hself⟩ hcalm
      rw [phase_move_of_ne hq, hphase]
      trivial
    | running j => exact absurd (hexcl q p (by rw [hphase]; rfl) hp) hq
    | unlinked j => exact absurd (hexcl q p (by rw [hphase]; rfl) hp) hq
    | unlocked =>
      -- then `p` would have been alone with `q`
      have hexiting : (s.phase q).Exiting := by rw [hphase]; trivial
      rcases htidy.alone p q hexiting (Ne.symm hq) with hidle | hdone
      · rw [hidle] at hp; cases hp
      · rw [hdone] at hp; cases hp
  refine ⟨fun q r hr hqr => ?_, fun hnone => absurd hself (hnone p)⟩
  by_cases hrp : r = p
  · subst hrp
    rw [phase_move_of_ne hqr]
    exact hothers q hqr
  · rw [phase_move_of_ne hrp] at hr
    rcases hothers r hrp with hidle | hdone
    · rw [hidle] at hr; cases hr
    · rw [hdone] at hr; cases hr

/-- A process that is done leaves the others tidy. -/
theorem tidy_done (htidy : s.Tidy)
    (hfile : file.named = s.file.named ∨ (s.phase p).Exiting) : (s.move p .done file).Tidy := by
  have hother {q : ι} (hq : ((s.move p .done file).phase q).Exiting) : q ≠ p := by
    rintro rfl
    rw [phase_move_self] at hq
    exact hq
  constructor
  · intro q r hr hqr
    have hrp := hother hr
    rw [phase_move_of_ne hrp] at hr
    by_cases hqp : q = p
    · exact Or.inr (by rw [hqp, phase_move_self])
    · rw [phase_move_of_ne hqp]
      exact htidy.alone q r hr hqr
  · intro hnone q i hq
    have hqp : q ≠ p := by
      rintro rfl
      rw [phase_move_self] at hq
      rcases hq with hq | hq <;> cases hq
    rw [phase_move_of_ne hqp] at hq
    by_cases hp : (s.phase p).Exiting
    -- `p` was the one on the way out, and alone
    · rcases htidy.alone q p hp hqp with hidle | hdone
      · rw [hidle] at hq; rcases hq with hq | hq <;> cases hq
      · rw [hdone] at hq; rcases hq with hq | hq <;> cases hq
    · rw [file_move, hfile.resolve_right hp]
      refine htidy.named (fun r hr => ?_) q i hq
      by_cases hrp : r = p
      · exact hp (hrp ▸ hr)
      · exact hnone r (by rwa [phase_move_of_ne hrp])

end Move

/-! ### System calls

For each call, which kind of move it is. The two calls that remove the name are where it matters
that nobody is starting: afterwards the path names another inode, or none, and a process that had
opened the old one would lock what nobody can find. -/

section Calls

variable {s : State ι} (h : s.Inv) (hcalm : ¬s.Overlaps)
include h hcalm

theorem inv_openLock (p : ι) : (s.openLock p).Inv := by
  unfold openLock
  cases hp : s.phase p with
  | idle =>
    refine ⟨locksGuarded_move h.locks (by rw [hp]; rfl) (LockFile.holder_openOrCreate _),
      exclusive_move h.exclusive (by rw [hp]; rfl), fun hcalm' => ?_⟩
    -- now that `p` starts, nobody can be on the way out
    have hnone (q : ι) : ¬((s.move p (.opened s.file.openOrCreate.1)
        s.file.openOrCreate.2).phase q).Exiting :=
      fun hq => hcalm' ⟨p, q, by rw [phase_move_self]; trivial, hq⟩
    have hbefore (q : ι) : ¬(s.phase q).Exiting := by
      by_cases hqp : q = p
      · rw [hqp, hp]
        exact id
      · rw [← phase_move_of_ne hqp]
        exact hnone q
    refine tidy_calm hnone (fun i hi => ?_) fun q i _ hq => ?_
    · rcases hi with hi | hi
      · rw [LockFile.named_openOrCreate, Phase.opened.inj hi]
      · cases hi
    · have hnamed := (h.tidy hcalm).named hbefore q i hq
      rw [LockFile.named_openOrCreate, LockFile.openOrCreate_of_named hnamed]
  | _ => exact h

omit [DecidableEq ι] in
/-- While nobody is on the way out, whoever has a guard has it on the inode the path names;
when that is free, nobody has one. -/
theorem guard?_eq_none_of_free (hnone : ∀ q, ¬(s.phase q).Exiting) {i : ℕ}
    (hnamed : s.file.named = some i) (hfree : s.file.holder i = none) (q : ι) :
    (s.phase q).guard? = none := by
  cases hq : s.phase q with
  | running j =>
    have hj := (h.tidy hcalm).named hnone q j (Or.inr hq)
    rw [hnamed] at hj
    obtain rfl := Option.some.inj hj
    have hheld := (h.locks q i).mpr (by rw [hq]; rfl)
    rw [hfree] at hheld
    cases hheld
  | unlinked j => exact absurd (by rw [hq]; trivial) (hnone q)
  | _ => rfl

theorem inv_flock (p : ι) : (s.flock p).Inv := by
  unfold flock
  cases hp : s.phase p with
  | opened i =>
    have hnone (q : ι) : ¬(s.phase q).Exiting := fun hq => hcalm ⟨p, q, by rw [hp]; trivial, hq⟩
    have hnamed := (h.tidy hcalm).named hnone
    dsimp only
    cases hlock : s.file.tryLock p i with
    | none =>
      exact ⟨locksGuarded_move h.locks (by rw [hp]; rfl) rfl,
        exclusive_move h.exclusive (by rw [hp]; rfl),
        fun _ => tidy_done (h.tidy hcalm) (Or.inl rfl)⟩
    | some file =>
      obtain ⟨hfree, hfile, hholder⟩ := LockFile.of_tryLock_eq_some hlock
      have hunguarded := guard?_eq_none_of_free h hcalm hnone (hnamed p i (Or.inl hp)) hfree
      refine ⟨locksGuarded_lock h.locks hunguarded rfl hholder, exclusive_lock hunguarded,
        fun _ => tidy_calm (fun q => ?_) (fun j hj => ?_) fun q j _ hq => ?_⟩
      · by_cases hqp : q = p
        · rw [hqp, phase_move_self]
          exact id
        · rw [phase_move_of_ne hqp]
          exact hnone q
      · rcases hj with hj | hj
        · cases hj
        · rw [hfile, ← Phase.running.inj hj]
          exact hnamed p i (Or.inl hp)
      · rw [hfile]
        exact hnamed q j hq
  | _ => exact h

theorem inv_unlinkInRun (p : ι) : (s.unlinkInRun p).Inv := by
  unfold unlinkInRun
  cases hp : s.phase p with
  | running i =>
    dsimp only
    exact ⟨locksGuarded_move h.locks (by rw [hp]; rfl) rfl,
      exclusive_move h.exclusive (by rw [hp]; rfl),
      tidy_exit h.exclusive (h.tidy hcalm) (by rw [hp]; rfl) trivial⟩
  | _ => exact h

theorem inv_unlock (p : ι) : (s.unlock p).Inv := by
  have hgive {i : ℕ} (hp : (s.phase p).guard? = some i) :
      (s.move p .unlocked (s.file.unlock i)).Inv :=
    ⟨locksGuarded_unlock h.locks rfl hp, exclusive_of_guard?_eq_none h.exclusive rfl,
      tidy_exit h.exclusive (h.tidy hcalm) (by rw [hp]; rfl) trivial⟩
  unfold unlock
  cases hp : s.phase p with
  | running i => exact hgive (by rw [hp]; rfl)
  | unlinked i => exact hgive (by rw [hp]; rfl)
  | _ => exact h

theorem inv_unlinkInDrop (p : ι) : (s.unlinkInDrop p).Inv := by
  unfold unlinkInDrop
  cases hp : s.phase p with
  | unlocked =>
    dsimp only
    exact ⟨locksGuarded_move h.locks (by rw [hp]; rfl) rfl,
      exclusive_move h.exclusive (by rw [hp]; rfl),
      fun _ => tidy_done (h.tidy hcalm) (Or.inr (by rw [hp]; trivial))⟩
  | _ => exact h

theorem inv_crash (p : ι) : (s.crash p).Inv := by
  unfold crash
  cases hp : (s.phase p).guard? with
  | none =>
    rw [Option.elim_none]
    exact ⟨locksGuarded_move h.locks hp.symm rfl, exclusive_move h.exclusive hp.symm,
      fun _ => tidy_done (h.tidy hcalm) (Or.inl rfl)⟩
  | some i =>
    rw [Option.elim_some]
    exact ⟨locksGuarded_unlock h.locks rfl hp, exclusive_of_guard?_eq_none h.exclusive rfl,
      fun _ => tidy_done (h.tidy hcalm) (Or.inl rfl)⟩

end Calls

omit [DecidableEq ι] in
theorem inv_start (named : Option ℕ) : (start named : State ι).Inv := by
  refine ⟨fun p i => ?_, fun p q hp _ => ?_, fun _ => ⟨fun p q hq _ => ?_, fun _ p i hp => ?_⟩⟩
  · exact iff_of_false nofun nofun
  · cases hp
  · cases hq
  · rcases hp with hp | hp <;> cases hp

/-- **A system call keeps the processes in order**, from a state in which none starts while
another stops. -/
theorem inv_step {s : State ι} (h : s.Inv) (hcalm : ¬s.Overlaps) (a : Action ι) :
    (s.step a).Inv := by
  cases a with
  | openLock p => exact inv_openLock h hcalm p
  | flock p => exact inv_flock h hcalm p
  | unlinkInRun p => exact inv_unlinkInRun h hcalm p
  | unlock p => exact inv_unlock h hcalm p
  | unlinkInDrop p => exact inv_unlinkInDrop h hcalm p
  | crash p => exact inv_crash h hcalm p

end State

/-- **There is one daemon at a time** in every state of a run in which no process is between the
two calls of `acquire_flock` while another is between the first and the last call of its
exit. -/
theorem single_daemon (named : Option ℕ) (l : List (Action ι))
    (hl : Machine.Along State.step (fun s _ => ¬s.Overlaps) (.start named) l) :
    Machine.Throughout State.step State.Exclusive (.start named) l :=
  (Machine.Along.throughout (fun _ a hs hcalm => State.inv_step hs hcalm a) l _ hl
    (State.inv_start named)).mono fun _ hs => hs.exclusive

/-- A daemon starts, a second process is refused, the daemon stops, and a third process
starts. -/
def threeProcesses : List (Action (Fin 3)) :=
  [.openLock 0, .flock 0, .openLock 1, .flock 1, .unlinkInRun 0, .unlock 0, .unlinkInDrop 0,
   .openLock 2, .flock 2]

theorem single_daemon_threeProcesses :
    Machine.Throughout State.step State.Exclusive (.start none) threeProcesses := by
  refine single_daemon none threeProcesses ?_
  exact ⟨by decide, by decide, by decide, by decide, by decide, by decide, by decide, by decide,
    by decide, trivial⟩

/-- A process starts after the stopping one removed the lock file, and before it gave up the
lock. -/
def overlappingProcesses : List (Action (Fin 2)) :=
  [.openLock 0, .flock 0, .unlinkInRun 0, .openLock 1, .flock 1]

/-- Two processes can be between `acquire_flock` and the drop of its guard. -/
theorem not_single_daemon :
    ¬∀ l : List (Action (Fin 2)), (Machine.run State.step (.start none) l).Exclusive := by
  intro h
  have htwo : ((Machine.run State.step (.start none) overlappingProcesses).phase 0).guard?.isSome ∧
      ((Machine.run State.step (.start none) overlappingProcesses).phase 1).guard?.isSome := by
    decide
  exact absurd (h overlappingProcesses 0 1 htwo.1 htwo.2) (by decide)

end Lock

end Agentd
