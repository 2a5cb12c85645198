import Agentd.Watcher.Trace

/-!
# What the polling loop reaches

The polling loop goes through the panes found at the start, the map also holds those that a pane
check found later. The former have the status their last line shows after a poll; the latter stay at
`starting` as long as they are there. So every pane in the map has the status it shows exactly when
those that are not polled show none (`Agentd.Watcher.polled_iff`).
-/

namespace Agentd.Watcher

variable {σ : Type} {c : Client σ}

/-! ### What the panes show

What the watcher polls is text, and its last line says the status or nothing. The statement about
the poll compares the map with what was captured at the last poll for each pane it polls. -/

/-- The text last captured of each pane, by its key, in a poll; `elsewhere` is what there is to
see in the panes that are not polled. -/
def shown (panes : List OpencodePane) (captures : ℕ → String) (elsewhere : String → String) :
    String → String :=
  panes.zipIdx.foldl (fun screen round =>
    Function.update screen (paneKey round.1) (captures round.2)) elsewhere

/-- **Every pane in the map has the status its last line shows**, and the daemon was told. -/
def Polled (screen : String → String) (s : List Call × Known) : Prop :=
  ∀ key id status new, s.2.lookup key = some (id, status) →
    parseStatus (lastLine (screen key)) = some new →
    status = new ∧ ∃ call ∈ s.1, call.about? = some (id, .statusChanged new.asStr) ∧ call.accepted

/-- No line says that a session is starting: this is what a session is discovered as. -/
theorem parseStatus_ne_starting (line : List Char) : parseStatus line ≠ some .starting := by
  unfold parseStatus
  dsimp only
  split_ifs
  · simp
  · simp
  · split <;> simp

/-! ### What a run keeps

The watcher polls the panes it was started with, and those only. A pane that came later has the
status it was discovered with; of the others, every status but the first was reported. -/

/-- The panes that are not polled are starting; of the others, a new status was reported. -/
structure Told (polled : List String) (s : List Call × Known) : Prop where
  unpolled : ∀ key id status, key ∉ polled → s.2.lookup key = some (id, status) →
    status = .starting
  reported : ∀ key id status, s.2.lookup key = some (id, status) → status ≠ .starting →
    ∃ call ∈ s.1, call.about? = some (id, .statusChanged status.asStr)

variable {polled : List String}

/-- At first there is no pane. -/
theorem told_start : Told polled ([], ∅) where
  unpolled key id status _ h := by
    rw [AList.lookup_empty] at h
    cases h
  reported key id status h := by
    rw [AList.lookup_empty] at h
    cases h

/-- A step of the watcher discovers, reports or ends, and each keeps what has been told. -/
theorem Told.move {s t : List Call × Known} (h : Told polled s) (hmove : Move polled s t) :
    Told polled t := by
  have hold (call : Call) {key : String} {id : Uuid} {status : Status}
      (hkey : s.2.lookup key = some (id, status)) (hne : status ≠ .starting) :
      ∃ other ∈ s.1 ++ [call], other.about? = some (id, .statusChanged status.asStr) := by
    obtain ⟨other, hother, habout⟩ := h.reported key id status hkey hne
    exact ⟨other, List.mem_append_left _ hother, habout⟩
  cases hmove with
  | pass hcall => exact ⟨h.unpolled, fun _ _ _ hkey hne => hold _ hkey hne⟩
  | discover hcall hkey =>
    refine ⟨fun k id status hk hlookup => ?_, fun k id status hlookup hne => ?_⟩
    · rcases lookup_insert_eq_some.mp hlookup with ⟨-, heq⟩ | ⟨-, hlookup⟩
      · exact (Prod.mk.inj heq).2.symm
      · exact h.unpolled k id status hk hlookup
    · rcases lookup_insert_eq_some.mp hlookup with ⟨-, heq⟩ | ⟨-, hlookup⟩
      · exact absurd (Prod.mk.inj heq).2.symm hne
      · exact hold _ hlookup hne
  | change hknown hpolled hnew hcall =>
    refine ⟨fun k id status hk hlookup => ?_, fun k id status hlookup hne => ?_⟩
    · rcases lookup_insert_eq_some.mp hlookup with ⟨rfl, -⟩ | ⟨-, hlookup⟩
      · exact absurd hpolled hk
      · exact h.unpolled k id status hk hlookup
    · rcases lookup_insert_eq_some.mp hlookup with ⟨-, heq⟩ | ⟨-, hlookup⟩
      · obtain ⟨rfl, rfl⟩ := Prod.mk.inj heq
        exact ⟨_, List.mem_append_right _ (List.mem_singleton_self _), hcall⟩
      · exact hold _ hlookup hne
  | finish hknown hcall =>
    refine ⟨fun k id status hk hlookup => ?_, fun k id status hlookup hne => ?_⟩
    · exact h.unpolled k id status hk (lookup_erase_eq_some.mp hlookup).2
    · exact hold _ (lookup_erase_eq_some.mp hlookup).2 hne

/-- So it is in every run. -/
theorem told_run (c : Client σ) (panes : List OpencodePane) (w : σ) (ticks : List Tick) :
    Told (polledKeys panes) (view (run c.recorded panes (w, []) ticks)) := by
  have hmoves := moves_run (c := c) panes w ticks
  generalize view (run c.recorded panes (w, []) ticks) = t at hmoves
  induction hmoves with
  | refl => exact told_start
  | tail _ hmove ih => exact ih.move hmove

/-! ### One poll

A poll goes over the panes in their order. A pane that comes twice is captured twice, and the later
capture counts. -/

/-- The panes of the keys have the status the screen shows. -/
def UpToDate (keys : List String) (screen : String → String) (known : Known) : Prop :=
  ∀ key ∈ keys, ∀ id status new, known.lookup key = some (id, status) →
    parseStatus (lastLine (screen key)) = some new → status = new

/-- What a round does to the status of its pane. -/
theorem lookup_pollPane (captured : String) (s : σ × Known) (pane : OpencodePane) (key : String) :
    (pollPane c captured s pane).2.lookup key =
      if key = paneKey pane then (s.2.lookup key).map fun state =>
        (state.1, (parseStatus (lastLine captured)).getD state.2)
      else s.2.lookup key := by
  unfold pollPane
  split_ifs with hkey
  · subst hkey
    rcases hknown : s.2.lookup (paneKey pane) with _ | ⟨id, prev⟩
    · exact hknown
    · dsimp only
      rcases parseStatus (lastLine captured) with _ | new
      · exact hknown
      · dsimp only
        split_ifs with hnew
        · rw [hknown, hnew]
          rfl
        · rw [AList.lookup_insert]
          rfl
  · rcases s.2.lookup (paneKey pane) with _ | ⟨id, prev⟩
    · rfl
    · dsimp only
      rcases parseStatus (lastLine captured) with _ | new
      · rfl
      · dsimp only
        split_ifs
        · rfl
        · rw [AList.lookup_insert_ne hkey]

/-- After a pane has been polled, the map has the status its last line says. -/
theorem UpToDate.pollPane {keys : List String} {screen : String → String} {s : σ × Known}
    (h : UpToDate keys screen s.2) (captured : String) (pane : OpencodePane) :
    UpToDate (paneKey pane :: keys) (Function.update screen (paneKey pane) captured)
      (pollPane c captured s pane).2 := by
  intro key hkey id status new hlookup hnew
  rw [lookup_pollPane] at hlookup
  split_ifs at hlookup with heq
  · subst heq
    rw [Function.update_self] at hnew
    obtain ⟨state, -, hstate⟩ := Option.map_eq_some_iff.mp hlookup
    rw [hnew, Option.getD_some] at hstate
    exact (Prod.mk.inj hstate).2.symm
  · rw [Function.update_of_ne heq] at hnew
    exact h key ((List.mem_cons.mp hkey).resolve_left heq) id status new hlookup hnew

/-- **After a poll the polled panes have the status they show.** -/
theorem upToDate_poll (panes : List OpencodePane) (captures : ℕ → String)
    (elsewhere : String → String) (s : σ × Known) :
    UpToDate (polledKeys panes) (shown panes captures elsewhere)
      (tick c panes s (.poll captures)).2 := by
  have hrounds (rounds : List (OpencodePane × ℕ)) :
      ∀ (keys : List String) (screen : String → String) (s : σ × Known),
        UpToDate keys screen s.2 →
        UpToDate (keys ++ rounds.map fun round => paneKey round.1)
          (rounds.foldl (fun screen round =>
            Function.update screen (paneKey round.1) (captures round.2)) screen)
          (rounds.foldl (fun s round => pollPane c (captures round.2) s round.1) s).2 := by
    induction rounds with
    | nil =>
      intro keys screen s h
      rw [List.map_nil, List.append_nil]
      exact h
    | cons round rounds ih =>
      intro keys screen s h key hkey
      refine ih _ _ _ (h.pollPane (captures round.2) round.1) key ?_
      rw [List.map_cons] at hkey
      exact (List.perm_middle.mem_iff).mp hkey
  have hkeys : panes.zipIdx.map (fun round => paneKey round.1) = polledKeys panes := by
    have hpanes := congrArg (List.map paneKey) (List.zipIdx_map_fst 0 panes)
    rw [List.map_map] at hpanes
    exact hpanes
  have h := hrounds panes.zipIdx [] elsewhere s fun key hkey => (List.not_mem_nil hkey).elim
  rw [List.nil_append, hkeys] at h
  exact h

/-- A poll shows nothing new of the panes that are not polled. -/
theorem shown_of_notMem {panes : List OpencodePane} (captures : ℕ → String)
    (elsewhere : String → String) {key : String} (hkey : key ∉ polledKeys panes) :
    shown panes captures elsewhere key = elsewhere key := by
  refine List.foldlRecOn (motive := fun screen : String → String => screen key = elsewhere key)
    _ _ rfl fun screen hscreen round hround => ?_
  have hne : key ≠ paneKey round.1 := by
    rintro rfl
    exact hkey (List.mem_map_of_mem (List.fst_mem_of_mem_zipIdx hround))
  rw [Function.update_of_ne hne]
  exact hscreen

/-- A poll neither adds a pane nor removes one. -/
theorem mem_poll {panes : List OpencodePane} {captures : ℕ → String} {s : σ × Known} {key : String} :
    key ∈ (tick c panes s (.poll captures)).2 ↔ key ∈ s.2 := by
  refine List.foldlRecOn (motive := fun t : σ × Known => key ∈ t.2 ↔ key ∈ s.2) _ _ Iff.rfl
    fun t ht round _ => ?_
  rw [← ht, ← AList.lookup_isSome, ← AList.lookup_isSome, lookup_pollPane]
  split_ifs
  · rw [Option.isSome_map]
  · rfl

/-! ### Runs -/

/-- The last tick comes last. -/
theorem run_concat (c : Client σ) (panes : List OpencodePane) (w : σ) (ticks : List Tick)
    (t : Tick) : run c panes w (ticks ++ [t]) = tick c panes (run c panes w ticks) t := by
  unfold run
  rw [List.foldl_append, List.foldl_cons, List.foldl_nil]

/-- **Every pane in the map is polled**, in a run in which all calls succeed, exactly when no pane
that was found after the start shows a status: `elsewhere` is what there is to see in
those. -/
theorem polled_iff (c : Client σ) (panes : List OpencodePane) (w : σ) (ticks : List Tick)
    (captures : ℕ → String) (elsewhere : String → String)
    (hsucceed : ∀ call ∈ (run c.recorded panes (w, []) (ticks ++ [.poll captures])).1.2,
      call.accepted) :
    Polled (shown panes captures elsewhere)
        (view (run c.recorded panes (w, []) (ticks ++ [.poll captures]))) ↔
      ∀ key ∈ (run c.recorded panes (w, []) ticks).2, key ∉ polledKeys panes →
        parseStatus (lastLine (elsewhere key)) = none := by
  have htold := told_run c panes w (ticks ++ [.poll captures])
  have hmem (key : String) : key ∈ (run c.recorded panes (w, []) (ticks ++ [.poll captures])).2 ↔
      key ∈ (run c.recorded panes (w, []) ticks).2 := by
    rw [run_concat]
    exact mem_poll
  constructor
  · intro hpolled key hkey hnot
    by_contra hsome
    obtain ⟨new, hnew⟩ := Option.ne_none_iff_exists'.mp hsome
    obtain ⟨⟨id, status⟩, hlookup⟩ :=
      Option.isSome_iff_exists.mp (AList.lookup_isSome.mpr ((hmem key).mpr hkey))
    -- the pane is still starting, which no line says
    rw [← shown_of_notMem captures elsewhere hnot] at hnew
    obtain rfl := (hpolled key id status new hlookup hnew).1
    obtain rfl := htold.unpolled key id status hnot hlookup
    exact parseStatus_ne_starting _ hnew
  · intro hnone key id status new hlookup hnew
    by_cases hkey : key ∈ polledKeys panes
    · have huptodate := upToDate_poll (c := c.recorded) panes captures elsewhere
        (run c.recorded panes (w, []) ticks)
      rw [← run_concat] at huptodate
      obtain rfl := huptodate key hkey id status new hlookup hnew
      have hne : status ≠ .starting := by
        rintro rfl
        exact parseStatus_ne_starting _ hnew
      obtain ⟨call, hcall, habout⟩ := htold.reported key id status hlookup hne
      exact ⟨rfl, call, hcall, habout, hsucceed call hcall⟩
    · have hmem := (hmem key).mp (AList.lookup_isSome.mp (Option.isSome_of_mem hlookup))
      rw [shown_of_notMem captures elsewhere hkey, hnone key hmem hkey] at hnew
      cases hnew

/-- A pane that is there from the start and starts to work. -/
theorem polled_iff_working :
    Polled (shown [devPane] (fun _ => "Compiling") fun _ => "")
        (view (run (numbering fun _ => true).recorded [devPane] (0, [])
          ([] ++ [.poll fun _ => "Compiling"]))) ↔
      ∀ key ∈ (run (numbering fun _ => true).recorded [devPane] (0, []) []).2,
        key ∉ polledKeys [devPane] → parseStatus (lastLine "") = none :=
  polled_iff (numbering fun _ => true) [devPane] 0 [] (fun _ => "Compiling") (fun _ => "")
    (by decide +kernel)

/-- A pane in which opencode was started later. -/
def laterPane : RawPane := ⟨"dev", "%1", 2, "/tmp/proj", "opencode"⟩

/-- **A pane that a pane check found is not polled**: it works, and stays at `starting`. -/
theorem not_polled : ¬∀ (c : Client ℕ) (panes : List OpencodePane) (w : ℕ) (ticks : List Tick)
    (captures : ℕ → String) (elsewhere : String → String),
    (∀ call ∈ (run c.recorded panes (w, []) (ticks ++ [.poll captures])).1.2, call.accepted) →
      Polled (shown panes captures elsewhere)
        (view (run c.recorded panes (w, []) (ticks ++ [.poll captures]))) := by
  intro h
  have hpolled := h (numbering fun _ => true) [devPane] 0 [.paneCheck (some [laterPane])]
    (fun _ => "") (fun _ => "Compiling") (by decide +kernel)
  have hstatus := hpolled "dev:%1" (.ofTimeLow 2) .starting .working (by decide +kernel)
    (by decide +kernel)
  exact absurd hstatus.1 (by decide)

end Agentd.Watcher
