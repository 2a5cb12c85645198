import Agentd.Foundations.Gather
import Agentd.Watcher.Trace

/-!
# Two ways to recognise opencode

At the start a pane counts as one with opencode when tmux names it as the command of the pane or
`/proc` as that of its process. The check made later asks tmux alone, and of two rows with one
key only the later. So it takes a pane for finished that was found at the start, unless
tmux names opencode in the last row of every key found: `Agentd.Watcher.agree_iff`.

Both readings are of one listing, so that the question is not one of time: the two would differ even
if nothing changed between them. The start-up loop is assumed to have got a session for every pane,
as otherwise there is nothing to report.
-/

namespace Agentd.Watcher

/-! ### The scan at the start

At the start a pane counts as one of opencode for its command or for the name of its process. The
second is there for panes whose command tmux has not refreshed. -/

/-- The key of a listed pane. -/
def RawPane.key (pane : RawPane) : String :=
  paneKeyFrom pane.session pane.paneId

/-- What `read_opencode_comm` gives for a process: the text of `/proc/<pid>/comm`. -/
abbrev ProcessTable :=
  ℕ → Option String

/-- The pane of a row that `discover_with_tmux` keeps. -/
def RawPane.toOpencodePane (r : RawPane) : OpencodePane :=
  ⟨r.session, r.paneId, r.pid, r.workingDir⟩

/-- `discover_with_tmux` on Linux, with the listing tmux gives. -/
def discoverWithTmux (readOpencodeComm : ProcessTable) (raws : List RawPane) : List OpencodePane :=
  raws.filterMap fun r =>
    if isOpencodeComm r.paneCurrentCommand then some r.toOpencodePane
    else
      -- tmux may not have refreshed the command yet
      match readOpencodeComm r.pid with
      | some comm => if isOpencodeComm comm then some r.toOpencodePane else none
      | none => none

/-- A row is kept for its command or for that of its process. -/
def RawPane.Recognised (readOpencodeComm : ProcessTable) (r : RawPane) : Prop :=
  isOpencodeComm r.paneCurrentCommand ∨ ∃ comm, readOpencodeComm r.pid = some comm ∧
    isOpencodeComm comm

/-- A pane is found when its row is recognised. -/
theorem mem_discoverWithTmux {readOpencodeComm : ProcessTable} {raws : List RawPane}
    {pane : OpencodePane} : pane ∈ discoverWithTmux readOpencodeComm raws ↔
      ∃ r ∈ raws, r.Recognised readOpencodeComm ∧ r.toOpencodePane = pane := by
  unfold discoverWithTmux RawPane.Recognised
  rw [List.mem_filterMap]
  refine exists_congr fun r => and_congr_right fun _ => ?_
  split_ifs with hcommand
  · simp [hcommand]
  · rcases readOpencodeComm r.pid with _ | comm
    · simp [hcommand]
    · by_cases hcomm : isOpencodeComm comm <;> simp [hcommand, hcomm]

/-- The keys of the panes found. -/
theorem mem_polledKeys_discoverWithTmux {readOpencodeComm : ProcessTable} {raws : List RawPane}
    {key : String} : key ∈ polledKeys (discoverWithTmux readOpencodeComm raws) ↔
      ∃ r ∈ raws, r.Recognised readOpencodeComm ∧ r.key = key := by
  unfold polledKeys
  rw [List.mem_map]
  constructor
  · rintro ⟨pane, hpane, rfl⟩
    obtain ⟨r, hr, hrecognised, rfl⟩ := mem_discoverWithTmux.mp hpane
    exact ⟨r, hr, hrecognised, rfl⟩
  · rintro ⟨r, hr, hrecognised, rfl⟩
    exact ⟨_, mem_discoverWithTmux.mpr ⟨r, hr, hrecognised, rfl⟩, rfl⟩

/-! ### The listing as a map

The check makes a map of the listing, in which of the rows with one key the last stays, and looks at
the command alone. -/

/-- The last row with a key. -/
def lastWith (raws : List RawPane) (key : String) : Option RawPane :=
  (raws.filter fun r => r.key = key).getLast?

/-- The last row with a key is a row with this key. -/
theorem lastWith_mem {raws : List RawPane} {key : String} {r : RawPane}
    (h : lastWith raws key = some r) : r ∈ raws ∧ r.key = key := by
  have hmem := List.mem_filter.mp (List.mem_of_getLast? h)
  exact ⟨hmem.1, of_decide_eq_true hmem.2⟩

/-- **Of the rows with one key the last counts.** -/
theorem lookup_currentPanes (raws : List RawPane) (key : String) :
    (currentPanes raws).lookup key = (lastWith raws key).map (·.paneCurrentCommand) := by
  have hlast : Gather.lastWith (fun r : RawPane => some r.key) key raws = lastWith raws key := by
    rw [lastWith, List.getLast?_eq_head?_reverse, ← List.filter_reverse, List.head?_filter,
      Gather.lastWith]
    simp only [Option.some_inj]
  have hlatest : currentPanes raws = Gather.latest (fun r : RawPane => some r.key)
      RawPane.paneCurrentCommand raws := rfl
  rw [hlatest, Gather.lookup_latest, hlast]

/-- Whether tmux names opencode in the last row with a key. -/
def Named (raws : List RawPane) (key : String) : Prop :=
  ∃ r, lastWith raws key = some r ∧ isOpencodeComm r.paneCurrentCommand

/-- A key is one of opencode for the check when its last row has the command. -/
theorem any_lookup_currentPanes {raws : List RawPane} {key : String} :
    ((currentPanes raws).lookup key).any isOpencodeComm ↔ Named raws key := by
  rw [lookup_currentPanes, Option.any_map, Option.any_eq_true]
  rfl

/-- The keys in which tmux names opencode. -/
theorem mem_currentOpencode {raws : List RawPane} {key : String} :
    key ∈ (currentPanes raws).keys.filter (fun k =>
      ((currentPanes raws).lookup k).any isOpencodeComm) ↔ Named raws key := by
  rw [List.mem_filter, any_lookup_currentPanes]
  refine and_iff_right_of_imp fun hnamed => ?_
  have hany := any_lookup_currentPanes.mpr hnamed
  rcases hlookup : (currentPanes raws).lookup key with _ | command
  · rw [hlookup] at hany
    cases hany
  · exact AList.mem_keys.mp (AList.lookup_isSome.mp (Option.isSome_of_mem hlookup))

/-- A key has vanished when it was known and the listing does not have opencode under it. -/
theorem mem_vanished {known : Known} {raws : List RawPane} {key : String} :
    key ∈ (diffPaneStates known (currentPanes raws)).1 ↔ key ∈ known ∧ ¬Named raws key := by
  unfold diffPaneStates
  dsimp only
  rw [List.mem_filter, decide_eq_true_eq, mem_currentOpencode]
  rfl

/-- A key is new when the listing has opencode under it and it was not known. -/
theorem mem_newKeys {known : Known} {raws : List RawPane} {key : String} :
    key ∈ (diffPaneStates known (currentPanes raws)).2 ↔ Named raws key ∧ key ∉ known := by
  unfold diffPaneStates
  dsimp only
  rw [List.mem_filter, decide_eq_true_eq, mem_currentOpencode]

/-! ### A check

A check that finds the listing as the scan found it should report nothing. It does report a pane
that was recognised by its process only. -/

variable {σ : Type} {c : Client σ}

/-- **No session is reported as finished and no pane is discovered** between the two lists of
calls. -/
def Silent (before after : List Call) : Prop :=
  ∃ calls, after = before ++ calls ∧ ∀ call ∈ calls,
    call.method ≠ Method.sessionDiscover ∧ ∀ id, call.about? ≠ some (id, .finished)

/-- A check does nothing when no pane vanished and none is new. -/
theorem runPaneCheck_eq_self {c : Client σ} {s : σ × Known} {raws : List RawPane} (walk : Walk)
    (hvanished : (diffPaneStates s.2 (currentPanes raws)).1 = [])
    (hnew : (diffPaneStates s.2 (currentPanes raws)).2 = []) :
    runPaneCheck c s (some raws) walk = s := by
  have hshuffle : walk.shuffle [] = [] := List.perm_nil.mp (walk.perm [])
  unfold runPaneCheck
  dsimp only
  rw [hvanished, hnew, hshuffle, List.foldl_nil]
  refine List.foldlRecOn (motive := fun t => t = s) raws _ rfl fun t ht r _ => ?_
  rw [discoverNewRawPane_of_notMem List.not_mem_nil]
  exact ht

/-- Such a check is silent. -/
theorem silent_runPaneCheck {s : (σ × List Call) × Known} {raws : List RawPane} (walk : Walk)
    (hvanished : (diffPaneStates s.2 (currentPanes raws)).1 = [])
    (hnew : (diffPaneStates s.2 (currentPanes raws)).2 = []) :
    Silent s.1.2 (runPaneCheck c.recorded s (some raws) walk).1.2 := by
  rw [runPaneCheck_eq_self walk hvanished hnew]
  exact ⟨[], (List.append_nil _).symm, fun call hcall => (List.not_mem_nil hcall).elim⟩

/-- A pane that vanished is reported. -/
theorem vanished_eq_nil_of_silent {s : (σ × List Call) × Known} {raws : List RawPane} {walk : Walk}
    (h : Silent s.1.2 (runPaneCheck c.recorded s (some raws) walk).1.2) :
    (diffPaneStates s.2 (currentPanes raws)).1 = [] := by
  by_contra hne
  rcases hshuffle : walk.shuffle (diffPaneStates s.2 (currentPanes raws)).1 with _ | ⟨key, keys⟩
  · exact hne (List.nil_perm.mp (hshuffle ▸ walk.perm _))
  · have hkey : key ∈ (diffPaneStates s.2 (currentPanes raws)).1 :=
      (walk.perm _).mem_iff.mp (hshuffle ▸ List.mem_cons_self)
    obtain ⟨⟨id, status⟩, hknown⟩ :=
      Option.isSome_iff_exists.mp (AList.lookup_isSome.mpr (mem_vanished.mp hkey).1)
    -- the first call of the check is the report of this pane
    obtain ⟨call, habout, hfirst⟩ : ∃ call : Call, call.about? = some (id, .finished) ∧
        (emitFinished c.recorded s key).1.2 = s.1.2 ++ [call] := by
      unfold emitFinished
      rw [hknown]
      exact ⟨_, Call.about?_finished .., rfl⟩
    have hrest : Moves [] (view (emitFinished c.recorded s key))
        (view (runPaneCheck c.recorded s (some raws) walk)) := by
      unfold runPaneCheck
      dsimp only
      rw [hshuffle, List.foldl_cons]
      exact (moves_foldl _ fun s key _ => moves_emitFinished s key).trans
        (moves_foldl _ fun s pane _ => moves_discoverNewRawPane s _ pane)
    obtain ⟨more, hmore⟩ := hrest.log_isPrefix
    obtain ⟨calls, hcalls, hsilent⟩ := h
    have hlog : s.1.2 ++ ([call] ++ more) = s.1.2 ++ calls := by
      rw [← List.append_assoc, ← hfirst, ← hcalls]
      exact hmore
    have hmem : call ∈ calls := by
      rw [← List.append_cancel_left hlog]
      exact List.mem_cons_self
    exact (hsilent call hmem).2 id habout

/-- **The start-up loop puts every pane in the map**, when every call gives out a session. -/
theorem mem_startUp (panes : List OpencodePane) {key : String} : ∀ s : (σ × List Call) × Known,
    (∀ call ∈ (panes.foldl (startUpPane c.recorded) s).1.2, call.discovered?.isSome) →
    (key ∈ (panes.foldl (startUpPane c.recorded) s).2 ↔ key ∈ s.2 ∨ key ∈ polledKeys panes) := by
  induction panes with
  | nil => exact fun s _ => (or_iff_left List.not_mem_nil).symm
  | cons pane panes ih =>
    intro s hdiscover
    have hrest : Moves [] (view (startUpPane c.recorded s pane))
        (view (panes.foldl (startUpPane c.recorded) (startUpPane c.recorded s pane))) :=
      moves_foldl _ fun s pane _ => moves_startUpPane s pane
    obtain ⟨answer, hview⟩ := view_startUpPane (c := c) s pane
    obtain ⟨hlog, hknown⟩ := Prod.mk.inj hview
    -- the call of this round gave out a session as well
    have hcall : .discover pane.tmuxSession pane.paneId pane.workingDir answer ∈
        (startUpPane c.recorded s pane).1.2 := by
      rw [hlog]
      exact List.mem_append_right _ (List.mem_singleton_self _)
    obtain ⟨id, hid⟩ := Option.isSome_iff_exists.mp (hdiscover _ (hrest.log_isPrefix.subset hcall))
    rw [Call.discovered?_eq_some, Call.about?_discover] at hid
    obtain ⟨id', hid', -⟩ := Option.map_eq_some_iff.mp hid
    rw [hid', Option.elim_some] at hknown
    rw [List.foldl_cons, ih _ hdiscover, hknown, AList.mem_insert, polledKeys, polledKeys,
      List.map_cons, List.mem_cons, or_comm (a := key = _), or_assoc]

/-- **The two ways agree**: the first check of a listing is silent, after the panes found in it
were all given a session, exactly when tmux names opencode in the last row of the key of every row
that was recognised. -/
theorem agree_iff (c : Client σ) (w : σ) (readOpencodeComm : ProcessTable) (raws : List RawPane)
    (walk : Walk)
    (hdiscover : ∀ call ∈
      (run c.recorded (discoverWithTmux readOpencodeComm raws) (w, []) []).1.2,
        call.discovered?.isSome) :
    Silent (run c.recorded (discoverWithTmux readOpencodeComm raws) (w, []) []).1.2
        (run c.recorded (discoverWithTmux readOpencodeComm raws) (w, [])
          [.paneCheck (some raws) walk]).1.2 ↔
      ∀ r ∈ raws, r.Recognised readOpencodeComm → Named raws r.key := by
  -- the map after the start has the keys of the rows recognised
  have hknown (key : String) :
      key ∈ (run c.recorded (discoverWithTmux readOpencodeComm raws) (w, []) []).2 ↔
        ∃ r ∈ raws, r.Recognised readOpencodeComm ∧ r.key = key := by
    refine (mem_startUp _ ((w, []), ∅) hdiscover).trans ?_
    rw [mem_polledKeys_discoverWithTmux, or_iff_right (AList.notMem_empty key)]
  have hcheck : run c.recorded (discoverWithTmux readOpencodeComm raws) (w, [])
      [.paneCheck (some raws) walk] = runPaneCheck c.recorded
        (run c.recorded (discoverWithTmux readOpencodeComm raws) (w, []) []) (some raws) walk := rfl
  rw [hcheck]
  constructor
  · intro hsilent r hr hrecognised
    have hvanished := vanished_eq_nil_of_silent hsilent
    by_contra hnot
    have hmem := mem_vanished.mpr ⟨(hknown r.key).mpr ⟨r, hr, hrecognised, rfl⟩, hnot⟩
    rw [hvanished] at hmem
    exact List.not_mem_nil hmem
  · intro hnamed
    refine silent_runPaneCheck walk (List.eq_nil_iff_forall_not_mem.mpr fun key hkey => ?_)
      (List.eq_nil_iff_forall_not_mem.mpr fun key hkey => ?_)
    · obtain ⟨hmem, hnot⟩ := mem_vanished.mp hkey
      obtain ⟨r, hr, hrecognised, rfl⟩ := (hknown key).mp hmem
      exact hnot (hnamed r hr hrecognised)
    · obtain ⟨⟨r, hlast, hcommand⟩, hnot⟩ := mem_newKeys.mp hkey
      obtain ⟨hr, rfl⟩ := lastWith_mem hlast
      exact hnot ((hknown r.key).mpr ⟨r, hr, Or.inl hcommand, rfl⟩)

/-- A pane of which tmux gives the command. -/
def rowOf (command : String) : RawPane :=
  ⟨"dev", "%0", 1, "/tmp/proj", command⟩

/-- One pane, in which tmux names opencode. -/
theorem agree_iff_named :
    Silent (run (numbering fun _ => true).recorded
          (discoverWithTmux (fun _ => none) [rowOf "opencode"]) (0, []) []).1.2
        (run (numbering fun _ => true).recorded
          (discoverWithTmux (fun _ => none) [rowOf "opencode"]) (0, [])
          [.paneCheck (some [rowOf "opencode"])]).1.2 ↔
      ∀ r ∈ [rowOf "opencode"], r.Recognised (fun _ => none) → Named [rowOf "opencode"] r.key :=
  agree_iff (numbering fun _ => true) 0 (fun _ => none) [rowOf "opencode"] .asListed
    (by decide +kernel)

/-- **A session that has just been discovered is reported as finished**: tmux names `node`,
and `/proc` opencode. -/
theorem not_agree : ¬∀ (c : Client ℕ) (w : ℕ) (readOpencodeComm : ProcessTable)
    (raws : List RawPane) (walk : Walk),
    (∀ call ∈ (run c.recorded (discoverWithTmux readOpencodeComm raws) (w, []) []).1.2,
      call.discovered?.isSome) →
    Silent (run c.recorded (discoverWithTmux readOpencodeComm raws) (w, []) []).1.2
      (run c.recorded (discoverWithTmux readOpencodeComm raws) (w, [])
        [.paneCheck (some raws) walk]).1.2 := by
  intro h
  have hsilent := h (numbering fun _ => true) 0 (fun _ => some "opencode\n") [rowOf "node"]
    .asListed (by decide +kernel)
  exact absurd (vanished_eq_nil_of_silent hsilent) (by decide +kernel)

end Agentd.Watcher
