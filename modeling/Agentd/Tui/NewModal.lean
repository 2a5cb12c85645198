import Agentd.Foundations.Machine
import Agentd.Handlers.Basic
import Agentd.Tui.Recents
import Mathlib.Data.List.Infix

/-!
# The new-session modal

Typing in the modal filters the recent directories, and Enter takes the first of those that are
left, or `.` when none is. What is drawn is another matter: `render_new_modal` goes through all
of the recents, dims those that do not match, and puts its marker at the first, whether it
matches or not.

`Agentd.NewModal.commitsShown_iff` says when what Enter commits is what the marker, or the typed
text, says. How text is put in lower case is left open here, as the parameter `lower`.
-/

namespace Agentd

open Json Recents UnixPath

/-- `NewModal`. -/
structure NewModal where
  query : String := ""
  recents : List Recent

/-- The key codes that matter to the modal. -/
inductive ModalKey
  | esc
  | enter
  | backspace
  | char (c : Char)
  | other

/-- `NewModalOutcome`. -/
inductive NewModalOutcome
  | stay
  | cancel
  | commit (path : String)
deriving DecidableEq

namespace NewModal

/-- `str::contains`. -/
def contains (s pattern : String) : Bool :=
  pattern.toList <:+: s.toList

/-- `open`, from what `session.list_active` answered. -/
def opened {ε : Type} : Except ε Value → NewModal
  | .ok v => { recents := extractRecents v }
  | .error _ => { recents := [] }

section

variable (lower : String → String)

/-- `filtered`. -/
def filtered (modal : NewModal) : List Recent :=
  let q := lower modal.query
  modal.recents.filter fun r => q = "" || contains (lower r.1) q

/-- `apply_key`. -/
def applyKey (modal : NewModal) : ModalKey → NewModal × NewModalOutcome
  | .esc => (modal, .cancel)
  | .enter => (modal, .commit (((filtered lower modal).head?.map Prod.fst).getD "."))
  | .backspace => ({ modal with query := .ofList modal.query.toList.dropLast }, .stay)
  | .char c => ({ modal with query := modal.query.push c }, .stay)
  | .other => (modal, .stay)

/-- What `session.create` is called with. -/
def createParams (path : String) : Value :=
  .object [("agent_type", .string "opencode"), ("name", .string (defaultName path)),
    ("working_dir", .string path)]

/-- `handle_new_modal_key`: the modal that stays open, if any, and the parameters of the call, if
there is one. -/
def handleNewModalKey (modal : NewModal) (key : ModalKey) : Option NewModal × Option Value :=
  match applyKey lower modal key with
  | (modal, .stay) => (some modal, none)
  | (_, .cancel) => (none, none)
  | (_, .commit path) => (none, some (createParams path))

/-! ### What is drawn

All directories are drawn, those that match plainly and the others dimmed, with the marker at the
first row whatever it is. -/

/-- How a directory is drawn. -/
inductive RowStyle
  | dim
  | bold
  | plain
deriving DecidableEq

/-- One of the rows below `Recent:`. -/
structure Row where
  marker : String
  display : String
  style : RowStyle
deriving DecidableEq

/-- The row of the `i`th directory. -/
def row (modal : NewModal) (r : Recent) (i : ℕ) : Row :=
  let isMatch := modal.query = "" ∨ contains (lower r.1) (lower modal.query)
  { marker := if i = 0 then "> " else "  "
    display := r.1
    style := if ¬isMatch then .dim else if i = 0 then .bold else .plain }

/-- The rows of `render_new_modal`. -/
def renderNewModal (modal : NewModal) : List Row :=
  modal.recents.zipIdx.map fun (r, i) => row lower modal r i

/-- The row with the marker. -/
def marked (modal : NewModal) : Option Row :=
  (renderNewModal lower modal).find? fun row => row.marker = "> "

end

/-! ### Typing

The text in the modal is what was typed, with the last character taken away by backspace. Enter
looks for the first directory that matches the text; the marker does not. -/

/-- Typing in the modal. -/
inductive Edit
  | typed (c : Char)
  | erased

/-- The key of it. -/
def Edit.key : Edit → ModalKey
  | typed c => .char c
  | erased => .backspace

/-- The text that typing leaves. -/
def typedText (edits : List Edit) : String :=
  edits.foldl
    (fun query edit => match edit with
      | .typed c => query.push c
      | .erased => .ofList query.toList.dropLast) ""

variable (lower : String → String)

/-- The modal with these recents after some typing. -/
def after (recents : List Recent) (edits : List Edit) : NewModal :=
  Machine.run (fun modal edit => (applyKey lower modal edit.key).1) { recents } edits

/-- The directory matches the query. -/
def Matches (query : String) (r : Recent) : Prop :=
  lower query = "" ∨ contains (lower r.1) (lower query)

instance (query : String) : DecidablePred (Matches lower query) :=
  fun _ => inferInstanceAs (Decidable (_ ∨ _))

/-- Enter commits the path. -/
def Commits (modal : NewModal) (path : String) : Prop :=
  (applyKey lower modal .enter).2 = .commit path

/-- Enter commits the directory of the row with the marker, when a directory matches, and the
path that was typed when none does. -/
structure CommitsShown (modal : NewModal) : Prop where
  shown : (∃ r ∈ modal.recents, Matches lower modal.query r) → ∃ path row,
    Commits lower modal path ∧ marked lower modal = some row ∧
      components path = components row.display
  typed : (∀ r ∈ modal.recents, ¬Matches lower modal.query r) → modal.query ≠ "" →
    ∃ path, Commits lower modal path ∧ components path = components modal.query

/-- The first directory that matches, if there is one, is the first of all. -/
def LeadsWithMatch (query : String) (recents : List Recent) : Prop :=
  ∀ first ∈ recents.head?, ∀ r ∈ recents.find? (Matches lower query), r.dir = first.dir

variable {lower} {modal : NewModal}

theorem after_eq (recents : List Recent) (edits : List Edit) :
    after lower recents edits = { query := typedText edits, recents } := by
  induction edits using List.reverseRecOn with
  | nil => rfl
  | append_singleton edits edit ih =>
    have htext : typedText (edits ++ [edit]) = match edit with
        | .typed c => (typedText edits).push c
        | .erased => .ofList (typedText edits).toList.dropLast := by
      rw [typedText, List.foldl_append]
      rfl
    rw [after, Machine.run_concat, ← after, ih, htext]
    cases edit <;> rfl

/-- Enter takes the first directory that matches. -/
theorem commits_iff {path : String} :
    Commits lower modal path ↔
      path = ((modal.recents.find? (Matches lower modal.query)).map Prod.fst).getD "." := by
  have hhead : (filtered lower modal).head? =
      modal.recents.find? (Matches lower modal.query) := by
    have hmatch : (fun r : Recent => decide (Matches lower modal.query r)) = fun r =>
        lower modal.query = "" || contains (lower r.1) (lower modal.query) := by
      funext r
      rw [Bool.eq_iff_iff, decide_eq_true_iff, Matches]
      simp
    rw [filtered, List.head?_filter, hmatch]
  rw [Commits, applyKey, hhead, NewModalOutcome.commit.injEq, eq_comm]

variable (lower) in
/-- What directories and a text stand for: the first of the directories that matches, or the current
directory when none does. -/
def Chosen (recents : List Recent) (query path : String) : Prop :=
  (∃ before r rest, recents = before ++ r :: rest ∧ Matches lower query r ∧
      (∀ b ∈ before, ¬Matches lower query b) ∧ path = r.1) ∨
    (∀ r ∈ recents, ¬Matches lower query r) ∧ path = "."

theorem commits_iff_chosen {path : String} :
    Commits lower modal path ↔ Chosen lower modal.recents modal.query path := by
  rw [commits_iff]
  constructor
  · rintro rfl
    cases hfind : modal.recents.find? (Matches lower modal.query) with
    | none =>
      refine Or.inr ⟨fun r hr => ?_, rfl⟩
      simpa using List.find?_eq_none.mp hfind r hr
    | some r =>
      obtain ⟨hmatch, before, rest, hsplit, hbefore⟩ := List.find?_eq_some_iff_append.mp hfind
      exact Or.inl ⟨before, r, rest, hsplit, of_decide_eq_true hmatch,
        fun b hb => by simpa using hbefore b hb, rfl⟩
  · rintro (⟨before, r, rest, hsplit, hmatch, hbefore, rfl⟩ | ⟨hnone, rfl⟩)
    · have hfind : modal.recents.find? (Matches lower modal.query) = some r :=
        List.find?_eq_some_iff_append.mpr ⟨decide_eq_true hmatch, before, rest, hsplit,
          fun b hb => by simpa using hbefore b hb⟩
      rw [hfind]
      rfl
    · have hfind : modal.recents.find? (Matches lower modal.query) = none :=
        List.find?_eq_none.mpr fun r hr => by simpa using hnone r hr
      rw [hfind]
      rfl

/-- The marker is at the first directory. -/
theorem marked_eq : marked lower modal = modal.recents.head?.map fun r => row lower modal r 0 := by
  rw [marked, renderNewModal]
  cases modal.recents with
  | nil => rfl
  | cons first rest => rfl

theorem shown_iff :
    ((∃ r ∈ modal.recents, Matches lower modal.query r) → ∃ path row, Commits lower modal path ∧
      marked lower modal = some row ∧ components path = components row.display) ↔
      LeadsWithMatch lower modal.query modal.recents := by
  obtain ⟨query, recents⟩ := modal
  simp only [commits_iff, marked_eq, LeadsWithMatch]
  cases hfind : recents.find? (Matches lower query) with
  | none =>
    have hnone : ¬∃ r ∈ recents, Matches lower query r := by simpa using hfind
    exact iff_of_true (fun h => absurd h hnone) (fun _ _ _ h => nomatch h)
  | some r =>
    have hmem := List.mem_of_find?_eq_some hfind
    have hsome : ∃ r ∈ recents, Matches lower query r :=
      ⟨r, hmem, by simpa using List.find?_some hfind⟩
    obtain ⟨first, rest, rfl⟩ := List.exists_cons_of_ne_nil (List.ne_nil_of_mem hmem)
    constructor
    · intro h
      obtain ⟨path, shown, rfl, hrow, hsame⟩ := h hsome
      rintro _ ⟨⟩ _ ⟨⟩
      rw [← Option.some.inj hrow] at hsame
      exact hsame
    · intro h _
      exact ⟨r.1, _, rfl, rfl, h first rfl r rfl⟩

theorem typed_iff :
    ((∀ r ∈ modal.recents, ¬Matches lower modal.query r) → modal.query ≠ "" →
      ∃ path, Commits lower modal path ∧ components path = components modal.query) ↔
      ((∀ r ∈ modal.recents, ¬Matches lower modal.query r) → modal.query ≠ "" →
        components modal.query = [.curDir]) := by
  refine forall_congr' fun hnone => ?_
  have hfind : modal.recents.find? (Matches lower modal.query) = none := by simpa using hnone
  have hdot : components "." = [.curDir] := by decide
  simp only [commits_iff, hfind, Option.map_none, Option.getD_none, exists_eq_left, hdot]
  rw [eq_comm]

/-- **Enter commits what is shown exactly when the first directory that matches is the first of
all, and what was typed stands for the current directory when none matches.** -/
theorem commitsShown_iff (lower : String → String) (recents : List Recent) (edits : List Edit) :
    CommitsShown lower (after lower recents edits) ↔
      LeadsWithMatch lower (typedText edits) recents ∧
        ((∀ r ∈ recents, ¬Matches lower (typedText edits) r) → typedText edits ≠ "" →
          components (typedText edits) = [.curDir]) := by
  rw [after_eq]
  constructor
  · rintro ⟨hshown, htyped⟩
    exact ⟨shown_iff.mp hshown, typed_iff.mp htyped⟩
  · rintro ⟨hleads, hdot⟩
    exact ⟨shown_iff.mpr hleads, typed_iff.mpr hdot⟩

/-! ### The modal as it is opened

The list comes from the daemon when the modal is opened, and is not fetched again while it is open.
-/

theorem nodup_opened {ε : Type} (reply : Except ε Value) :
    ((opened reply).recents.map Recent.dir).Nodup := by
  cases reply with
  | error e => exact List.nodup_nil
  | ok v => exact nodup_extractRecents v

/-- In a modal that was opened on the answer of the daemon no directory is there twice, so the
marker tells the truth exactly when the first directory matches or none does. -/
theorem leadsWithMatch_opened_iff {ε : Type} (reply : Except ε Value) (query : String) :
    LeadsWithMatch lower query (opened reply).recents ↔
      (∀ r ∈ (opened reply).recents, ¬Matches lower query r) ∨
        ∀ first ∈ (opened reply).recents.head?, Matches lower query first := by
  have hnodup := nodup_opened reply
  rw [LeadsWithMatch]
  cases hfind : (opened reply).recents.find? (Matches lower query) with
  | none => exact iff_of_true (fun _ _ _ h => nomatch h) (.inl (by simpa using hfind))
  | some r =>
    have hmem := List.mem_of_find?_eq_some hfind
    have hmatch : Matches lower query r := by simpa using List.find?_some hfind
    rw [or_iff_right fun hnone => hnone r hmem hmatch]
    refine forall₂_congr fun first hfirst => ⟨fun h => ?_, ?_⟩
    · have heq : r = first :=
        List.inj_on_of_nodup_map hnodup hmem (List.mem_of_mem_head? hfirst) (h r rfl)
      exact heq ▸ hmatch
    · rintro hlead _ ⟨⟩
      have hrecents := List.eq_cons_of_mem_head? hfirst
      rw [hrecents, List.find?_cons, decide_eq_true hlead] at hfind
      rw [Option.some.inj hfind]

/-- Letters in lower case. -/
def asciiLower (s : String) : String :=
  .ofList (s.toList.map Char.toLower)

/-- **The marker stays at the first directory when only the second matches.** -/
theorem commits_unmarked :
    ¬∀ (lower : String → String) (recents : List Recent) (edits : List Edit),
      CommitsShown lower (after lower recents edits) := by
  intro h
  have hshown := (h asciiLower [("/home/u/a", .noonOf 2026), ("/home/u/b", .noonOf 2025)]
    [.typed 'b']).shown
  obtain ⟨path, row, hcommits, hmarked, hsame⟩ := hshown (by decide)
  obtain rfl := NewModalOutcome.commit.inj hcommits
  obtain rfl := Option.some.inj hmarked
  revert hsame
  decide

end NewModal

end Agentd
