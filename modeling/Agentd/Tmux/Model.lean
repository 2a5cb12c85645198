import Mathlib.Data.Set.Insert
import Mathlib.Data.String.Basic

/-!
# tmux, as the daemon drives it

`tmux.rs`: the check of a name, and what `RealTmux` makes of the commands it runs. A tmux server
is the list of its panes, in the order `list-panes -a` prints them; a session is there as long as
it has a pane.

How tmux resolves the target of a command to a session is not the daemon's to decide, so it is a
parameter of what follows: a function `resolve` from the server and the target.

Panes and sessions come and go by other hands, too; the server is therefore an argument of what is
said about a command, and never an assumption about what was there before. A command may fail for
reasons that are not modelled, and is then a command that does nothing.
-/

namespace Agentd

/-! ### The check

The source takes the length in bytes and the characters one by one; as the characters that are
allowed are bytes, the length is the number of characters. -/

/-- The errors of a `Tmux`. -/
inductive TmuxError
  | invalidName (name : String)
  | notFound (target : String)
  | io
  | tmux (stderr : String)
deriving DecidableEq

/-- The characters a name may have. -/
def nameChar (c : Char) : Bool :=
  c.isAlphanum || c = '.' || c = '-' || c = '_'

/-- `validate_session_name`. The length of a Rust string counts bytes. -/
def validateSessionName (name : String) : Except TmuxError Unit :=
  if name = "" ∨ 64 < name.utf8ByteSize then .error (.invalidName name)
  else if ¬name.toList.all nameChar then .error (.invalidName name)
  else .ok ()

/-- The name passes the check. -/
def ValidName (name : String) : Prop :=
  validateSessionName name = .ok ()

instance (name : String) : Decidable (ValidName name) :=
  match h : validateSessionName name with
  | .ok () => isTrue h
  | .error _ => isFalse fun hok => nomatch h.symm.trans hok

theorem validName_iff_bytes {name : String} :
    ValidName name ↔ name ≠ "" ∧ name.utf8ByteSize ≤ 64 ∧ ∀ c ∈ name.toList, nameChar c := by
  unfold ValidName validateSessionName
  split_ifs with hlen hchars
  · refine iff_of_false (fun h => by cases h) ?_
    rintro ⟨hne, hle, -⟩
    rcases hlen with rfl | hlt
    · exact hne rfl
    · omega
  · rw [not_or, not_lt] at hlen
    exact iff_of_true rfl ⟨hlen.1, hlen.2, List.all_eq_true.mp hchars⟩
  · refine iff_of_false (fun h => by cases h) ?_
    rintro ⟨-, -, hall⟩
    exact hchars (List.all_eq_true.mpr hall)

/-- What may stand in a name takes one byte. -/
theorem utf8Size_of_nameChar {c : Char} (h : nameChar c) : c.utf8Size = 1 := by
  have hascii : c.toNat < 128 := by
    unfold nameChar Char.isAlphanum Char.isAlpha Char.isUpper Char.isLower Char.isDigit at h
    simp only [Bool.or_eq_true, Bool.and_eq_true, decide_eq_true_eq] at h
    rcases h with ((((⟨-, h⟩ | ⟨-, h⟩) | ⟨-, h⟩) | rfl) | rfl) | rfl
    · exact lt_of_le_of_lt h (by decide)
    · exact lt_of_le_of_lt h (by decide)
    · exact lt_of_le_of_lt h (by decide)
    · decide
    · decide
    · decide
  exact Char.utf8Size_eq_one_iff.mpr (UInt32.le_iff_toNat_le.mpr (Nat.le_of_lt_succ hascii))

theorem utf8Len_of_nameChars : ∀ {cs : List Char}, (∀ c ∈ cs, nameChar c) →
    String.utf8Len cs = cs.length
  | [], _ => rfl
  | c :: cs, h => by
    rw [String.utf8Len_cons, utf8Len_of_nameChars fun d hd => h d (List.mem_cons_of_mem _ hd),
      utf8Size_of_nameChar (h c List.mem_cons_self), List.length_cons]

/-- **A name passes the check when it has 1 to 64 characters, all of them letters and digits of
ASCII, dots, dashes and underscores.** -/
theorem validName_iff {name : String} :
    ValidName name ↔
      1 ≤ name.length ∧ name.length ≤ 64 ∧ ∀ c ∈ name.toList, nameChar c := by
  rw [validName_iff_bytes]
  have hbytes (h : ∀ c ∈ name.toList, nameChar c) : name.utf8ByteSize = name.length := by
    rw [← String.length_toList, ← utf8Len_of_nameChars h, ← String.utf8ByteSize_ofList,
      String.ofList_toList]
  have hne : name ≠ "" ↔ 1 ≤ name.length := by
    rw [Nat.one_le_iff_ne_zero, ← String.length_toList, ne_eq, ne_eq, List.length_eq_zero_iff,
      String.toList_eq_nil_iff]
  rw [hne]
  constructor
  · rintro ⟨hpos, hle, hall⟩
    exact ⟨hpos, hbytes hall ▸ hle, hall⟩
  · rintro ⟨hpos, hle, hall⟩
    exact ⟨hpos, (hbytes hall).symm ▸ hle, hall⟩

/-! ### The server

A session exists as long as it has a pane. So a server is the list of its panes, and to kill a
session is to remove some of them. -/

/-- A tmux pane as the daemon sees it. -/
structure Pane where
  session : String
  paneId : String
  workingDir : String
deriving DecidableEq

/-- A tmux server: its panes, in the order they are listed. -/
abbrev TmuxServer :=
  List Pane

namespace TmuxServer

/-- The sessions of a server. -/
def sessionNames (server : TmuxServer) : Set String :=
  {name | ∃ p ∈ server, p.session = name}

instance (server : TmuxServer) (name : String) : Decidable (name ∈ server.sessionNames) :=
  inferInstanceAs (Decidable (∃ p ∈ server, p.session = name))

/-- `kill-session`: the panes of the session its target resolves to are gone. -/
def killSession (resolve : TmuxServer → String → Option String) (server : TmuxServer)
    (target : String) : TmuxServer :=
  server.filter fun p => resolve server target ≠ some p.session

theorem mem_killSession {resolve : TmuxServer → String → Option String} {server : TmuxServer}
    {target : String} {p : Pane} :
    p ∈ server.killSession resolve target ↔ p ∈ server ∧ resolve server target ≠ some p.session := by
  rw [killSession, List.mem_filter, decide_eq_true_eq]

/-! ### Reading `list-panes`

The daemon asks for three fields with blanks between them, and the last may have blanks of its own.
-/

/-- What `list-panes -a` prints in the format `#{session_name} #{pane_id} #{pane_current_path}`. -/
def listing (server : TmuxServer) : List Char :=
  server.flatMap fun p =>
    p.session.toList ++ ' ' :: p.paneId.toList ++ ' ' :: p.workingDir.toList ++ ['\n']

/-- `str::lines`: a line ends with `\n` or `\r\n`, and there is none after the last end. -/
def lines (text : List Char) : List (List Char) :=
  let parts := text.splitOn '\n'
  (parts.dropLast.map fun line => if line.getLast? = some '\r' then line.dropLast else line) ++
    parts.getLast?.toList.filter (· ≠ [])

/-- The pane of a line: `line.splitn(3, ' ')`. -/
def ofLine (line : List Char) : Option Pane :=
  match line.splitOn ' ' with
  | session :: paneId :: dir :: rest =>
    some ⟨String.ofList session, String.ofList paneId,
      String.ofList ([' '].intercalate (dir :: rest))⟩
  | _ => none

/-- `RealTmux::list_panes`, when the command succeeds. -/
def listPanes (server : TmuxServer) : List Pane :=
  (lines server.listing).filterMap ofLine

example : listPanes [⟨"my work", "%1", "/"⟩, ⟨"b", "%2", "/x\ny"⟩] =
    [⟨"my", "work", "%1 /"⟩, ⟨"b", "%2", "/x"⟩] := by decide

/-! ### Targets

What tmux makes of a target is its own affair: an exact name, the beginning of one, or a pattern.
The function that resolves a target is a parameter, and the results say where they need it to be
exact. -/

/-- A target that is the name of a session and resolves to it. -/
def exactly (server : TmuxServer) (target : String) : Option String :=
  if target ∈ server.sessionNames then some target else none

end TmuxServer

end Agentd
