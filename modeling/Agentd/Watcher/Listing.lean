import Agentd.Foundations.Fields
import Agentd.Foundations.Numeral
import Agentd.Tmux.Model
import Agentd.Watcher.Discovery

/-!
# The listings of tmux

tmux is asked for one line a pane, with blanks between the fields, by the watcher for five fields
and by the daemon for three. The readers split at the first blanks, so that only the last
field may contain one; names of sessions and paths, however, may.

`Agentd.listings_iff` – a listing reads back exactly when no session in it has a blank in its name,
no path but the last field has one, and no line ends in a carriage return, which `str::lines` takes
for a part of the line break.
-/

namespace Agentd

open Fields Numeral

/-! ### Five fields

The watcher has tmux print the session, the pane, its process, its directory and its command, with
blanks between them, and splits each line at the first four blanks. So a blank in the command does
no harm, and one in the name of the session or in the path does. The id of a pane and the number of
a process have none. -/

namespace Watcher

/-- `str::parse::<u32>`. -/
def parseU32 (s : List Char) : Option ℕ :=
  let digits := if s.head? = some '+' then s.tail else s
  if digits = [] then none
  else
    match scanAll 10 0 digits with
    | (n, []) => if n < 2 ^ 32 then some n else none
    | _ => none

/-- A line of the output, `none` when it is malformed. -/
def parsePane (line : List Char) : Option RawPane :=
  match splitn 5 ' ' line with
  | [session, paneId, pid, workingDir, command] =>
    (parseU32 pid).map fun pid =>
      ⟨.ofList session, .ofList paneId, pid, .ofList workingDir, .ofList command⟩
  | _ => none

/-- `parse_tmux_list_panes`. -/
def parseTmuxListPanes (output : String) : List RawPane :=
  (strLines output.toList).filterMap parsePane

/-- The fields of the format `#{session_name} #{pane_id} #{pane_pid} #{pane_current_path}
#{pane_current_command}`. -/
def RawPane.fields (p : RawPane) : List (List Char) :=
  [p.session.toList, p.paneId.toList, padded 10 1 p.pid, p.workingDir.toList,
    p.paneCurrentCommand.toList]

end Watcher

/-- What tmux prints for rows of fields. -/
def tmuxOutput (rows : List (List (List Char))) : String :=
  .ofList (rows.flatMap fun fields => joined ' ' fields ++ ['\n'])

/-- A name tmux gives a session. -/
def TmuxSessionName (name : String) : Prop :=
  ∀ c ∈ name.toList, c ≠ ':' ∧ c ≠ '.' ∧ c ≠ '\n'

/-- An identifier tmux gives a pane. -/
def TmuxPaneId (id : String) : Prop :=
  ∃ digits : List Char, id.toList = '%' :: digits ∧ digits ≠ [] ∧ ∀ c ∈ digits, c.isDigit

/-- An absolute path on one line. -/
def PathLine (path : String) : Prop :=
  path.toList.head? = some '/' ∧ '\n' ∉ path.toList

/-- The id of a pane is a per cent sign and digits. -/
theorem TmuxPaneId.notMem {id : String} (h : TmuxPaneId id) {c : Char} (hc : c ≠ '%')
    (hdigit : ¬c.isDigit) : c ∉ id.toList := by
  obtain ⟨digits, hid, -, hdigits⟩ := h
  rw [hid, List.mem_cons]
  rintro (heq | hmem)
  · exact hc heq
  · exact hdigit (hdigits c hmem)

/-- **A listing reads back exactly when each of its lines does.** -/
theorem filterMap_tmuxOutput_iff {α : Type} {parse : List Char → Option α}
    {fields : α → List (List Char)} {rows : List α}
    (h : ∀ row ∈ rows, '\n' ∉ joined ' ' (fields row)) :
    (strLines (tmuxOutput (rows.map fields)).toList).filterMap parse = rows ↔
      ∀ row ∈ rows, parse (stripCr (joined ' ' (fields row))) = some row := by
  have hlines : ∀ line ∈ rows.map (fun row => joined ' ' (fields row)), '\n' ∉ line := by
    intro line hline
    obtain ⟨row, hrow, rfl⟩ := List.mem_map.mp hline
    exact h row hrow
  have hflat := strLines_flatMap hlines
  rw [List.flatMap_map, List.map_map] at hflat
  rw [tmuxOutput, String.toList_ofList, List.flatMap_map, hflat, List.filterMap_map,
    filterMap_eq_self_iff]
  rfl

namespace Watcher

/-! ### A line of the watcher

A line reads back exactly when the fields before the last have no blank and the line does not end in
a carriage return, which `str::lines` takes off. -/

/-- A digit is neither a blank nor a line feed nor a plus sign, with which a number may begin. -/
theorem ne_of_digitChar : ∀ d : Fin 10, Nat.digitChar d ≠ ' ' ∧ Nat.digitChar d ≠ '\n' ∧
    Nat.digitChar d ≠ '+' := by
  decide

/-- A number has no character in it that is no digit. -/
theorem notMem_padded {n : ℕ} {c : Char} (h : ∀ d : Fin 10, Nat.digitChar d ≠ c) (w : ℕ) :
    c ∉ padded 10 w n := by
  intro hmem
  obtain ⟨d, hd, rfl⟩ := exists_digit_of_mem_numeral (by omega) _ hmem
  exact h ⟨d, hd⟩ rfl

/-- A number is not empty. -/
theorem padded_ne_nil (w n : ℕ) : padded 10 w n ≠ [] := by
  refine List.ne_nil_of_length_pos ?_
  rw [padded, length_numeral]
  omega

/-- **A number of 32 bits is read as it was written.** -/
theorem parseU32_padded (w : ℕ) {n : ℕ} (hn : n < 2 ^ 32) : parseU32 (padded 10 w n) = some n := by
  have hplus : (padded 10 w n).head? ≠ some '+' := fun h =>
    notMem_padded (fun d => (ne_of_digitChar d).2.2) w (List.mem_of_head? h)
  have hscan : scanAll 10 0 (padded 10 w n) = (n, []) := scanAll_padded_nil (by omega) (by omega)
  rw [parseU32]
  simp only [if_neg hplus, if_neg (padded_ne_nil w n), hscan, if_pos hn]

/-- A pane tmux can report. -/
structure RawPane.Reported (p : RawPane) : Prop where
  session : TmuxSessionName p.session
  paneId : TmuxPaneId p.paneId
  pid : p.pid < 2 ^ 32
  workingDir : PathLine p.workingDir
  command : '\n' ∉ p.paneCurrentCommand.toList

/-- No blank in the name of the session and in the path, and no carriage return at the end. -/
structure RawPane.Plain (p : RawPane) : Prop where
  session : ' ' ∉ p.session.toList
  workingDir : ' ' ∉ p.workingDir.toList
  command : p.paneCurrentCommand.toList.getLast? ≠ some '\r'

variable {p : RawPane}

/-- A line has no line feed within. -/
theorem RawPane.Reported.newline_notMem (h : p.Reported) : '\n' ∉ joined ' ' p.fields := by
  have hsession : '\n' ∉ p.session.toList := fun hmem => (h.session _ hmem).2.2 rfl
  have hpane := h.paneId.notMem (c := '\n') (by decide) (by decide)
  have hpid : '\n' ∉ padded 10 1 p.pid := notMem_padded (fun d => (ne_of_digitChar d).2.1) 1
  have hblank : '\n' ≠ ' ' := by decide
  simp only [RawPane.fields, joined, List.mem_append, List.mem_cons, not_or]
  exact ⟨hsession, hblank, hpane, hblank, hpid, hblank, h.workingDir.2, hblank, h.command⟩

/-- The line without a carriage return at its end. -/
theorem stripCr_joined_fields (p : RawPane) : stripCr (joined ' ' p.fields) =
    joined ' ' [p.session.toList, p.paneId.toList, padded 10 1 p.pid, p.workingDir.toList,
      stripCr p.paneCurrentCommand.toList] := by
  have hblank : ' ' ≠ '\r' := by decide
  simp only [RawPane.fields, joined, stripCr_append_cons hblank]

/-- A line without a blank too many has its five fields. -/
theorem parsePane_line (h : p.Reported) (hsession : ' ' ∉ p.session.toList)
    (hdir : ' ' ∉ p.workingDir.toList) : parsePane (stripCr (joined ' ' p.fields)) =
      some { p with paneCurrentCommand := .ofList (stripCr p.paneCurrentCommand.toList) } := by
  have hpane := h.paneId.notMem (c := ' ') (by decide) (by decide)
  have hpid : ' ' ∉ padded 10 1 p.pid := notMem_padded (fun d => (ne_of_digitChar d).1) 1
  have hsplit := @splitn_joined Char _ ' ' [p.session.toList, p.paneId.toList, padded 10 1 p.pid,
    p.workingDir.toList, stripCr p.paneCurrentCommand.toList] (List.cons_ne_nil _ _) (by
      simp only [List.dropLast_cons_cons, List.dropLast_singleton, List.forall_mem_cons]
      exact ⟨hsession, hpane, hpid, hdir, fun f hf => absurd hf List.not_mem_nil⟩)
  rw [parsePane, stripCr_joined_fields]
  change splitn 5 ' ' _ = _ at hsplit
  rw [hsplit]
  simp only [parseU32_padded 1 h.pid, Option.map_some, String.ofList_toList]

/-- A line that is read has no blank in the fields before the last. -/
theorem blank_notMem_of_parsePane {line : List Char} (h : parsePane line = some p) :
    ' ' ∉ p.session.toList ∧ ' ' ∉ p.workingDir.toList := by
  have hpieces : ∀ f ∈ (splitn 5 ' ' line).dropLast, ' ' ∉ f := fun f hf =>
    notMem_of_mem_dropLast_splitn _ hf
  rw [parsePane] at h
  split at h
  · rename_i session paneId pid workingDir command hsplit
    rw [hsplit] at hpieces
    obtain ⟨n, -, rfl⟩ := Option.map_eq_some_iff.mp h
    simp only [List.dropLast_cons_cons, List.dropLast_singleton, List.forall_mem_cons] at hpieces
    rw [String.toList_ofList, String.toList_ofList]
    exact ⟨hpieces.1, hpieces.2.2.2.1⟩
  · cases h

/-- **A line reads back exactly when the pane is plain.** -/
theorem parsePane_line_iff (h : p.Reported) :
    parsePane (stripCr (joined ' ' p.fields)) = some p ↔ p.Plain := by
  have hcommand :
      { p with paneCurrentCommand := .ofList (stripCr p.paneCurrentCommand.toList) } = p ↔
        p.paneCurrentCommand.toList.getLast? ≠ some '\r' := by
    rw [← stripCr_eq_self_iff]
    constructor
    · intro heq
      have hfield := congrArg (fun p => p.paneCurrentCommand.toList) heq
      rwa [String.toList_ofList] at hfield
    · intro heq
      rw [heq, String.ofList_toList]
  constructor
  · intro hparse
    obtain ⟨hsession, hdir⟩ := blank_notMem_of_parsePane hparse
    rw [parsePane_line h hsession hdir, Option.some_inj] at hparse
    exact ⟨hsession, hdir, hcommand.mp hparse⟩
  · intro hplain
    rw [parsePane_line h hplain.session hplain.workingDir, hcommand.mpr hplain.command]

/-- **The listing reads back exactly when each of its lines does.** -/
theorem parseTmuxListPanes_iff {panes : List RawPane} (h : ∀ p ∈ panes, p.Reported) :
    parseTmuxListPanes (tmuxOutput (panes.map RawPane.fields)) = panes ↔
      ∀ p ∈ panes, p.Plain := by
  rw [parseTmuxListPanes, filterMap_tmuxOutput_iff fun p hp => (h p hp).newline_notMem]
  exact forall₂_congr fun p hp => parsePane_line_iff (h p hp)

end Watcher

/-! ### Three fields

The daemon has tmux print three fields, of which the path is the last. So here it is the name of the
session alone that must have no blank. -/

/-- A line of the output, `none` when it is malformed. -/
def parseDaemonPane (line : List Char) : Option Pane :=
  match splitn 3 ' ' line with
  | [session, paneId, workingDir] => some ⟨.ofList session, .ofList paneId, .ofList workingDir⟩
  | _ => none

/-- `RealTmux::list_panes`, with the output of a call that succeeded. -/
def listPanes (output : String) : List Pane :=
  (strLines output.toList).filterMap parseDaemonPane

namespace Pane

/-- The fields of the format `#{session_name} #{pane_id} #{pane_current_path}`. -/
def fields (p : Pane) : List (List Char) :=
  [p.session.toList, p.paneId.toList, p.workingDir.toList]

/-- A pane tmux can report. -/
structure Reported (p : Pane) : Prop where
  session : TmuxSessionName p.session
  paneId : TmuxPaneId p.paneId
  workingDir : PathLine p.workingDir

/-- No blank in the name of the session, and no carriage return at the end of the path. -/
structure Plain (p : Pane) : Prop where
  session : ' ' ∉ p.session.toList
  workingDir : p.workingDir.toList.getLast? ≠ some '\r'

variable {p : Pane}

/-- A line of the daemon's listing has no line feed in it either. -/
theorem Reported.newline_notMem (h : p.Reported) : '\n' ∉ joined ' ' p.fields := by
  have hsession : '\n' ∉ p.session.toList := fun hmem => (h.session _ hmem).2.2 rfl
  have hpane := h.paneId.notMem (c := '\n') (by decide) (by decide)
  have hblank : '\n' ≠ ' ' := by decide
  simp only [fields, joined, List.mem_append, List.mem_cons, not_or]
  exact ⟨hsession, hblank, hpane, hblank, h.workingDir.2⟩

/-- The line without a carriage return at its end. -/
theorem stripCr_joined_fields (p : Pane) : stripCr (joined ' ' p.fields) =
    joined ' ' [p.session.toList, p.paneId.toList, stripCr p.workingDir.toList] := by
  have hblank : ' ' ≠ '\r' := by decide
  simp only [fields, joined, stripCr_append_cons hblank]

/-- **A line reads back exactly when the pane is plain.** -/
theorem parse_line_iff (h : p.Reported) :
    parseDaemonPane (stripCr (joined ' ' p.fields)) = some p ↔ p.Plain := by
  have hpane := h.paneId.notMem (c := ' ') (by decide) (by decide)
  have hsplit : splitn 3 ' ' (stripCr (joined ' ' p.fields)) =
      [p.session.toList, p.paneId.toList, stripCr p.workingDir.toList] ↔
        ' ' ∉ p.session.toList := by
    have hfields := @splitn_joined_iff Char _ ' ' _
      (List.cons_ne_nil p.session.toList [p.paneId.toList, stripCr p.workingDir.toList])
    simp only [List.dropLast_cons_cons, List.dropLast_singleton, List.forall_mem_cons] at hfields
    rw [stripCr_joined_fields]
    refine hfields.trans ⟨fun hall => hall.1, fun hsession => ⟨hsession, hpane, fun f hf => ?_⟩⟩
    exact absurd hf List.not_mem_nil
  constructor
  · intro hparse
    have hpieces : ∀ f ∈ (splitn 3 ' ' (stripCr (joined ' ' p.fields))).dropLast, ' ' ∉ f :=
      fun f hf => notMem_of_mem_dropLast_splitn _ hf
    rw [parseDaemonPane] at hparse
    split at hparse
    · rename_i session paneId workingDir hpieces'
      have hsession : ' ' ∉ p.session.toList := by
        rw [hpieces'] at hpieces
        rw [← Option.some.inj hparse, String.toList_ofList]
        exact hpieces session List.mem_cons_self
      rw [hsplit.mpr hsession] at hpieces'
      refine ⟨hsession, stripCr_eq_self_iff.mp ?_⟩
      have hdir : stripCr p.workingDir.toList = workingDir :=
        (List.cons.inj (List.cons.inj (List.cons.inj hpieces').2).2).1
      have hfield := congrArg (fun p => p.workingDir.toList) (Option.some.inj hparse)
      rw [String.toList_ofList] at hfield
      rw [hdir, hfield]
    · cases hparse
  · intro hplain
    rw [parseDaemonPane, hsplit.mpr hplain.session]
    simp only [stripCr_eq_self_iff.mpr hplain.workingDir, String.ofList_toList]

end Pane

/-- **The daemon's listing reads back exactly when each of its lines does.** -/
theorem listPanes_iff {panes : List Pane} (h : ∀ p ∈ panes, p.Reported) :
    listPanes (tmuxOutput (panes.map Pane.fields)) = panes ↔ ∀ p ∈ panes, p.Plain := by
  rw [listPanes, filterMap_tmuxOutput_iff fun p hp => (h p hp).newline_notMem]
  exact forall₂_congr fun p hp => Pane.parse_line_iff (h p hp)

/-- **The listings of tmux read back exactly when the panes are plain.** The two readers are that of
the watcher and that of the daemon. The panes of either are any that tmux can report, and what
stands in the way of a listing is in one of its lines: a blank in a field where the reader splits at
blanks, or a carriage return at the end, which it takes for a part of the line end. -/
theorem listings_iff (rawPanes : List Watcher.RawPane) (panes : List Pane) :
    ((∀ p ∈ rawPanes, p.Reported) →
      (Watcher.parseTmuxListPanes (tmuxOutput (rawPanes.map Watcher.RawPane.fields)) = rawPanes ↔
        ∀ p ∈ rawPanes, p.Plain)) ∧
    ((∀ p ∈ panes, p.Reported) →
      (listPanes (tmuxOutput (panes.map Pane.fields)) = panes ↔ ∀ p ∈ panes, p.Plain)) :=
  ⟨Watcher.parseTmuxListPanes_iff, listPanes_iff⟩

/-- A shell in a directory. -/
def shellIn (workingDir : String) : Watcher.RawPane :=
  ⟨"dev", "%0", 12345, workingDir, "bash"⟩

/-- A shell is reported in any directory whose path is one line. -/
theorem reported_shellIn {workingDir : String} (h : PathLine workingDir) :
    (shellIn workingDir).Reported := by
  have hsession : TmuxSessionName "dev" := by
    have hchars : "dev".toList = ['d', 'e', 'v'] := by decide
    rw [TmuxSessionName, hchars, List.forall_mem_cons, List.forall_mem_cons,
      List.forall_mem_singleton]
    decide
  have hpane : TmuxPaneId "%0" :=
    ⟨['0'], by decide, by decide, List.forall_mem_singleton.mpr (by decide)⟩
  have hcommand : '\n' ∉ "bash".toList := by decide
  exact ⟨hsession, hpane, (by decide : 12345 < 2 ^ 32), h, hcommand⟩

/-- The same shell, with and without blanks in the path, on both sides. -/
theorem listings_shell :
    (Watcher.parseTmuxListPanes
        (tmuxOutput ([shellIn "/tmp", shellIn "/home/u/my opencode"].map Watcher.RawPane.fields)) =
          [shellIn "/tmp", shellIn "/home/u/my opencode"] ↔
      ∀ p ∈ [shellIn "/tmp", shellIn "/home/u/my opencode"], p.Plain) ∧
    (listPanes (tmuxOutput ([⟨"dev", "%0", "/home/u/my opencode"⟩].map Pane.fields)) =
        [⟨"dev", "%0", "/home/u/my opencode"⟩] ↔
      ∀ p ∈ [(⟨"dev", "%0", "/home/u/my opencode"⟩ : Pane)], p.Plain) := by
  have hraw : (shellIn "/home/u/my opencode").Reported :=
    reported_shellIn ⟨by decide, by decide⟩
  have htmp : (shellIn "/tmp").Reported := reported_shellIn ⟨by decide, by decide⟩
  refine ⟨(listings_iff _ []).1 ?_, (listings_iff [] _).2 ?_⟩
  · rw [List.forall_mem_cons, List.forall_mem_singleton]
    exact ⟨htmp, hraw⟩
  · rw [List.forall_mem_singleton]
    exact ⟨hraw.session, hraw.paneId, hraw.workingDir⟩

/-- A blank in the path of a shell makes it another program. -/
example : (Watcher.parseTmuxListPanes
    (tmuxOutput [(shellIn "/home/u/my opencode").fields])).map (·.paneCurrentCommand) =
      ["opencode bash"] := by
  decide +kernel

/-- A shell in a directory with a blank in its name is not listed as it is. -/
theorem not_listings :
    ¬((∀ panes : List Watcher.RawPane, (∀ p ∈ panes, p.Reported) →
        Watcher.parseTmuxListPanes (tmuxOutput (panes.map Watcher.RawPane.fields)) = panes) ∧
      ∀ panes : List Pane, (∀ p ∈ panes, p.Reported) →
        listPanes (tmuxOutput (panes.map Pane.fields)) = panes) := by
  rintro ⟨h, -⟩
  have hraw : (shellIn "/home/u/my opencode").Reported :=
    reported_shellIn ⟨by decide, by decide⟩
  have hall : ∀ p ∈ [shellIn "/home/u/my opencode"], p.Reported :=
    List.forall_mem_singleton.mpr hraw
  have hplain := (Watcher.parseTmuxListPanes_iff hall).mp (h _ hall) _ (List.mem_singleton_self _)
  exact hplain.workingDir (by decide)

end Agentd
