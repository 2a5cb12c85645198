import Mathlib.Data.List.Lex
import Mathlib.Data.Prod.Lex
import Mathlib.Data.String.Basic

/-!
# Paths and their components

A path is text, but two paths are compared by their components: a separator more, one at the end,
or a component `.` behind another makes no difference (`UnixPath.components`). The order of
components is that of the kinds, and of the names among names.

This is the equality and the order of `std::path::Path` on Unix. Two texts with the same components
are the same key of a map, and the map keeps the one that came first.
-/

namespace UnixPath

/-- `std::path::Component`, without the prefixes of other systems. -/
inductive Component
  | rootDir
  | curDir
  | parentDir
  | normal (name : String)

namespace Component

/-- The kind, and the name if there is one. -/
def rank : Component → ℕ ×ₗ String
  | rootDir => toLex (0, "")
  | curDir => toLex (1, "")
  | parentDir => toLex (2, "")
  | normal name => toLex (3, name)

theorem rank_injective : Function.Injective rank := by
  intro a b h
  cases a <;> cases b <;> simp_all [rank]

instance : LinearOrder Component :=
  LinearOrder.lift' rank rank_injective

/-- The component that a piece between separators is. -/
def ofPiece (piece : List Char) : Component :=
  if piece = ['.', '.'] then parentDir else normal (.ofList piece)

end Component

/-- The pieces that count wherever they stand. -/
def names (path : String) : List (List Char) :=
  (path.toList.splitOn '/').filter fun c => c ≠ [] ∧ c ≠ ['.']

/-- The component a path begins with that is no name: the root, or `.` at the very beginning. -/
def anchor (path : String) : List Component :=
  match path.toList.splitOn '/' with
  | [] :: _ :: _ => [.rootDir]
  | ['.'] :: _ => [.curDir]
  | _ => []

/-- `Path::components`. -/
def components (path : String) : List Component :=
  anchor path ++ (names path).map .ofPiece

example : components "/home//u/./proj/" = components "/home/u/proj" := by decide
example : components "./a" ≠ components "a" := by decide

end UnixPath
