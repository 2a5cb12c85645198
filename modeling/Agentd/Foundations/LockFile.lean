import Mathlib.Data.Nat.Notation
import Mathlib.Logic.Function.Basic

/-!
# Lock files

A path and the advisory locks of `flock` on what it names. A lock is on an inode, not on
the path: unlinking the path takes the name away and leaves the lock where it is, and a file
created under the path afterwards is another inode, which nobody has locked.

The holder of a lock is a function of the inode, and a fresh inode is one that no file has had. A
lock is tried, never waited for: `LockFile.tryLock` answers none when somebody holds the inode,
whoever it is. A process that ends gives its locks up, which is a change of the function and not of
the path.
-/

/-- A path, and who holds the lock of which inode. -/
structure LockFile (ι : Type*) where
  /-- The inode the path names, if it names one. -/
  named : Option ℕ
  /-- The inode of the next file that is created. -/
  fresh : ℕ
  /-- Who holds the lock of an inode. -/
  holder : ℕ → Option ι

namespace LockFile

variable {ι : Type*}

/-- A path no process has locked. -/
def unheld (named : Option ℕ) : LockFile ι :=
  ⟨named, named.elim 0 (· + 1), fun _ => none⟩

/-- `open` with `O_CREAT`: the inode opened, and the path afterwards. -/
def openOrCreate (f : LockFile ι) : ℕ × LockFile ι :=
  match f.named with
  | some i => (i, f)
  | none => (f.fresh, { f with named := some f.fresh, fresh := f.fresh + 1 })

/-- `flock(LOCK_EX | LOCK_NB)` on an open inode. -/
def tryLock (f : LockFile ι) (p : ι) (i : ℕ) : Option (LockFile ι) :=
  match f.holder i with
  | none => some { f with holder := Function.update f.holder i (some p) }
  | some _ => none

/-- `flock(LOCK_UN)`, or the closing of a locked file. -/
def unlock (f : LockFile ι) (i : ℕ) : LockFile ι :=
  { f with holder := Function.update f.holder i none }

/-- `unlink` of the path. -/
def unlink (f : LockFile ι) : LockFile ι :=
  { f with named := none }

theorem named_openOrCreate (f : LockFile ι) :
    f.openOrCreate.2.named = some f.openOrCreate.1 := by
  unfold openOrCreate
  split
  · assumption
  · rfl

@[simp] theorem holder_openOrCreate (f : LockFile ι) : f.openOrCreate.2.holder = f.holder := by
  unfold openOrCreate
  split <;> rfl

/-- A path that names an inode opens that one. -/
theorem openOrCreate_of_named {f : LockFile ι} {i : ℕ} (h : f.named = some i) :
    f.openOrCreate.1 = i := by
  unfold openOrCreate
  rw [h]

theorem holder_unlock (f : LockFile ι) (i j : ℕ) :
    (f.unlock i).holder j = if j = i then none else f.holder j :=
  Function.update_apply f.holder i none j

/-- **A lock is taken of an inode nobody has locked**, and of that one alone. -/
theorem of_tryLock_eq_some {f g : LockFile ι} {p : ι} {i : ℕ} (h : f.tryLock p i = some g) :
    f.holder i = none ∧ g.named = f.named ∧
      ∀ j, g.holder j = if j = i then some p else f.holder j := by
  unfold tryLock at h
  split at h
  · rename_i hfree
    obtain rfl := Option.some.inj h
    exact ⟨hfree, rfl, fun j => Function.update_apply _ _ _ _⟩
  · cases h

end LockFile
