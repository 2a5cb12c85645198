import Agentd.Watcher.Discovery

/-!
# A check settles the map

One check makes its calls in two loops, over the keys that vanished and over the rows of the
listing. Both sets of keys are computed before the first call, so what the calls answer decides
only which of the new keys get a session.

`Agentd.Watcher.paneCheck_settles` says what is in the map afterwards and which sessions were
reported as finished, whatever the calls answer, and that a second check of the same listing has
nothing left to report; when every new key got its session it makes no call at all.
-/

namespace Agentd.Watcher

open Json

/-- tmux names opencode in the pane, by the map that is collected from the listing. -/
def InOpencode (panes : List RawPane) (key : String) : Prop :=
  ∃ command, (currentPanes panes).lookup key = some command ∧ isOpencodeComm command

/-- A pane that is in opencode by the listing is one the check keeps. -/
theorem inOpencode_iff_named {panes : List RawPane} {key : String} :
    InOpencode panes key ↔ Named panes key := by
  rw [← any_lookup_currentPanes, Option.any_eq_true]
  rfl

/-- The session whose end a call reports. -/
def Call.ended? (call : Call) : Option Uuid :=
  (call.about?.filter fun about => about.2 = .finished).map (·.1)

namespace Call

/-- A discovery reports the end of no session. -/
theorem ended?_discover (s p d : String) (answer : Option Value) :
    (discover s p d answer).ended? = none := by
  rw [ended?, about?_discover]
  cases answer.bind sessionIdOf <;> rfl

/-- A discovery discovers the session with which it is answered, if it is answered with one. -/
theorem discovered?_discover (s p d : String) (answer : Option Value) :
    (discover s p d answer).discovered? = answer.bind sessionIdOf := by
  rw [discovered?, about?_discover]
  cases answer.bind sessionIdOf <;> rfl

end Call

/-- **What a check makes of the map**, by the calls it made. -/
structure Settled (panes : List RawPane) (known : Known) (calls : List Call) (known' : Known) :
    Prop where
  keys : ∀ key, key ∈ known' ↔ key ∈ known ∧ InOpencode panes key ∨
    (InOpencode panes key ∧ key ∉ known) ∧
      ∃ call ∈ calls, call.key? = some key ∧ call.discovered?.isSome
  kept : ∀ key ∈ known, key ∈ known' → known'.lookup key = known.lookup key
  ended : ∃ gone : List String, gone.Nodup ∧
    (∀ key, key ∈ gone ↔ key ∈ known ∧ ¬InOpencode panes key) ∧
    calls.filterMap Call.ended? = gone.filterMap fun key => (known.lookup key).map (·.1)

variable {σ : Type} {c : Client σ}

/-! ### The panes that vanished

The first half of the check reports every key of the map that the listing has no longer, and removes
it. What that does to the view is read off the list of these keys, in any order: they are distinct,
and no report is about two of them. -/

/-- **The first loop** reports the session of every key and forgets it. -/
theorem view_foldl_emitFinished (keys : List String) : ∀ s : (σ × List Call) × Known, keys.Nodup →
    ∃ calls known', view (keys.foldl (emitFinished c.recorded) s) = (s.1.2 ++ calls, known') ∧
      calls.filterMap Call.ended? = keys.filterMap (fun key => (s.2.lookup key).map (·.1)) ∧
      (∀ call ∈ calls, call.discovered? = none ∧ call.method ≠ Method.sessionDiscover) ∧
      ∀ key, known'.lookup key = if key ∈ keys then none else s.2.lookup key := by
  induction keys with
  | nil =>
    refine fun s _ => ⟨[], s.2, by rw [List.append_nil]; rfl, rfl, ?_, fun key => ?_⟩
    · exact fun call hcall => absurd hcall List.not_mem_nil
    · rw [if_neg List.not_mem_nil]
  | cons key keys ih =>
    intro s hnodup
    rw [List.nodup_cons] at hnodup
    obtain ⟨calls, known', hview, hended, hcalls, hlookup⟩ :=
      ih (emitFinished c.recorded s key) hnodup.2
    cases hknown : s.2.lookup key with
    | none =>
      have hsame : emitFinished c.recorded s key = s := by
        unfold emitFinished
        rw [hknown]
      rw [hsame] at hview hended hlookup
      refine ⟨calls, known', ?_, ?_, hcalls, fun other => ?_⟩
      · rw [List.foldl_cons, hsame, hview]
      · rw [hended, List.filterMap_cons_none (by rw [hknown]; rfl)]
      · rw [hlookup]
        by_cases hother : other = key
        · rw [hother, if_neg hnodup.1, if_pos List.mem_cons_self, hknown]
        · simp only [List.mem_cons, hother, false_or]
    | some state =>
      have hround : ∃ call : Call, call.about? = some (state.1, .finished) ∧
          call.method ≠ Method.sessionDiscover ∧
          view (emitFinished c.recorded s key) = (s.1.2 ++ [call], s.2.erase key) := by
        unfold emitFinished
        rw [hknown]
        have hmethod : Method.sessionReportEvent ≠ Method.sessionDiscover := by decide
        exact ⟨_, Call.about?_finished .., hmethod, rfl⟩
      obtain ⟨call, habout, hmethod, hround⟩ := hround
      obtain ⟨hlog, herase⟩ := Prod.mk.inj hround
      rw [hlog] at hview
      rw [herase] at hended hlookup
      refine ⟨call :: calls, known', ?_, ?_, ?_, fun other => ?_⟩
      · rw [List.foldl_cons, hview, List.append_assoc, List.singleton_append]
      · have hcall : call.ended? = some state.1 := by
          rw [Call.ended?, habout]
          rfl
        rw [List.filterMap_cons_some hcall, hended,
          List.filterMap_cons_some (by rw [hknown]; rfl)]
        refine congrArg _ (List.filterMap_congr fun other hother => ?_)
        have hne : other ≠ key := fun heq => hnodup.1 (heq ▸ hother)
        rw [AList.lookup_erase_ne hne]
      · rintro call' hcall'
        rcases List.mem_cons.mp hcall' with rfl | hmem
        · refine ⟨?_, hmethod⟩
          rw [Call.discovered?, habout]
          rfl
        · exact hcalls call' hmem
      · rw [hlookup]
        by_cases hother : other = key
        · rw [hother, if_neg hnodup.1, if_pos List.mem_cons_self, AList.lookup_erase]
        · simp only [List.mem_cons, hother, false_or]
          rw [AList.lookup_erase_ne hother]

/-! ### The panes that are new

The second half discovers every pane of the listing whose key is new. A key that comes twice in the
listing is discovered twice, and the later answer stays; this is what `lastWith` says. A discovery
that fails leaves the key unknown, and the next check tries again. -/

/-- **The second loop** calls for every row with a new key, and puts the key in the map when a
call for it gives out a session. -/
theorem view_foldl_discoverNewRawPane (newKeys : List String) (panes : List RawPane) :
    ∀ s : (σ × List Call) × Known,
    ∃ calls known', view (panes.foldl (discoverNewRawPane c.recorded newKeys) s) =
        (s.1.2 ++ calls, known') ∧
      (∀ call ∈ calls, call.method = Method.sessionDiscover ∧ call.ended? = none ∧
        ∃ key ∈ newKeys, call.key? = some key) ∧
      (∀ pane ∈ panes, pane.key ∈ newKeys → ∃ call ∈ calls, call.key? = some pane.key) ∧
      (∀ key, key ∈ known' ↔
        key ∈ s.2 ∨ ∃ call ∈ calls, call.key? = some key ∧ call.discovered?.isSome) ∧
      ∀ key ∉ newKeys, known'.lookup key = s.2.lookup key := by
  induction panes with
  | nil =>
    intro s
    refine ⟨[], s.2, by rw [List.append_nil]; rfl, ?_, ?_, fun key => ?_, fun key _ => rfl⟩
    · exact fun call hcall => absurd hcall List.not_mem_nil
    · exact fun pane hpane => absurd hpane List.not_mem_nil
    · refine (or_iff_left ?_).symm
      rintro ⟨call, hcall, -⟩
      exact List.not_mem_nil hcall
  | cons pane panes ih =>
    intro s
    obtain ⟨calls, known', hview, hcalls, hrows, hmem, hlookup⟩ :=
      ih (discoverNewRawPane c.recorded newKeys s pane)
    by_cases hnew : pane.key ∈ newKeys
    · obtain ⟨answer, hround⟩ := view_discoverNewRawPane (c := c) s hnew
      obtain ⟨hlog, hknown⟩ := Prod.mk.inj hround
      rw [hlog] at hview
      rw [hknown] at hmem hlookup
      refine ⟨.discover pane.session pane.paneId pane.workingDir answer :: calls, known', ?_, ?_, ?_,
        fun key => ?_, fun key hkey => ?_⟩
      · rw [List.foldl_cons, hview, List.append_assoc, List.singleton_append]
      · intro call hcall
        rcases List.mem_cons.mp hcall with rfl | hcall
        · exact ⟨rfl, Call.ended?_discover .., pane.key, hnew, rfl⟩
        · exact hcalls call hcall
      · intro pane' hpane' hkey
        rcases List.mem_cons.mp hpane' with rfl | hpane'
        · exact ⟨_, List.mem_cons_self, rfl⟩
        · obtain ⟨call, hcall, hcallkey⟩ := hrows pane' hpane' hkey
          exact ⟨call, List.mem_cons_of_mem _ hcall, hcallkey⟩
      · rw [hmem, List.exists_mem_cons_iff, Call.key?_discover, Call.discovered?_discover,
          Option.some_inj]
        cases answer.bind sessionIdOf with
        | none =>
          rw [Option.elim_none]
          exact or_congr_right (or_iff_right fun h => Bool.false_ne_true h.2).symm
        | some id =>
          rw [Option.elim_some, AList.mem_insert, or_assoc, or_left_comm, eq_comm (a := key)]
          exact or_congr_right (or_congr_left (and_iff_left rfl).symm)
      · rw [hlookup key hkey]
        have hne : key ≠ paneKeyFrom pane.session pane.paneId := fun heq => hkey (heq ▸ hnew)
        cases answer.bind sessionIdOf with
        | none => rfl
        | some id => rw [Option.elim_some, AList.lookup_insert_ne hne]
    · have hsame := discoverNewRawPane_of_notMem (c := c.recorded) hnew s
      rw [hsame] at hview hmem hlookup
      refine ⟨calls, known', ?_, hcalls, fun pane' hpane' hkey => ?_, hmem, hlookup⟩
      · rw [List.foldl_cons, hsame, hview]
      · rcases List.mem_cons.mp hpane' with rfl | hpane'
        · exact absurd hkey hnew
        · exact hrows pane' hpane' hkey

/-! ### A check, and a second one

The two halves speak of different keys, so that the check as a whole is known when each of them is.
After it, the map has no key that the listing has not; so a second check of the same listing reports
nothing, and discovers only what could not be discovered the first time. -/

/-- A key is reported to have vanished once: the keys of a map are distinct. -/
theorem nodup_vanished (known : Known) (current : AList fun _ : String => String) :
    (diffPaneStates known current).1.Nodup :=
  known.keys_nodup.filter _

/-- What is not among the calls of the check is in the calls of its second loop. -/
theorem exists_mem_append_discovered {reports discovers : List Call} {key : String}
    (hreports : ∀ call ∈ reports, call.discovered? = none) :
    (∃ call ∈ reports ++ discovers, call.key? = some key ∧ call.discovered?.isSome) ↔
      ∃ call ∈ discovers, call.key? = some key ∧ call.discovered?.isSome := by
  constructor
  · rintro ⟨call, hcall, hkey, hsome⟩
    rcases List.mem_append.mp hcall with hmem | hmem
    · rw [hreports call hmem] at hsome
      cases hsome
    · exact ⟨call, hmem, hkey, hsome⟩
  · rintro ⟨call, hcall, h⟩
    exact ⟨call, List.mem_append_right _ hcall, h⟩

/-- **A check settles the map**, and calls `session.discover` for every new key. -/
theorem view_runPaneCheck (s : (σ × List Call) × Known) (panes : List RawPane) (walk : Walk) :
    ∃ calls known', view (runPaneCheck c.recorded s (some panes) walk) = (s.1.2 ++ calls, known') ∧
      Settled panes s.2 calls known' ∧
      (∀ key, InOpencode panes key → key ∉ s.2 →
        ∃ call ∈ calls, call.method = Method.sessionDiscover ∧ call.key? = some key) ∧
      ((∀ key ∈ s.2, InOpencode panes key) → ∀ call ∈ calls, call.ended? = none) := by
  have hperm := walk.perm (diffPaneStates s.2 (currentPanes panes)).1
  have hgone (key : String) : key ∈ walk.shuffle (diffPaneStates s.2 (currentPanes panes)).1 ↔
      key ∈ s.2 ∧ ¬InOpencode panes key := by
    rw [hperm.mem_iff, mem_vanished, inOpencode_iff_named]
  have hnew (key : String) : key ∈ (diffPaneStates s.2 (currentPanes panes)).2 ↔
      InOpencode panes key ∧ key ∉ s.2 := by
    rw [mem_newKeys, inOpencode_iff_named]
  unfold runPaneCheck
  dsimp only
  generalize (diffPaneStates s.2 (currentPanes panes)).2 = newKeys at hnew ⊢
  have hnodup := hperm.nodup_iff.mpr (nodup_vanished s.2 (currentPanes panes))
  generalize walk.shuffle (diffPaneStates s.2 (currentPanes panes)).1 = gone at hgone hnodup ⊢
  obtain ⟨reports, left, hleft, hended, hreports, hforgotten⟩ :=
    view_foldl_emitFinished (c := c) gone s hnodup
  obtain ⟨hlog, hmap⟩ := Prod.mk.inj hleft
  obtain ⟨discovers, known', hview, hdiscovers, hrows, hmem, hlookup⟩ :=
    view_foldl_discoverNewRawPane (c := c) newKeys panes (gone.foldl (emitFinished c.recorded) s)
  rw [hlog] at hview
  rw [hmap] at hmem hlookup
  have hnotEnded : discovers.filterMap Call.ended? = [] :=
    List.filterMap_eq_nil_iff.mpr fun call hcall => (hdiscovers call hcall).2.1
  -- the first loop leaves the keys that are still listed
  have hkept (key : String) : key ∈ left ↔ key ∈ s.2 ∧ InOpencode panes key := by
    rw [← AList.lookup_isSome, hforgotten]
    split_ifs with hkey
    · exact iff_of_false Bool.false_ne_true fun h => ((hgone key).mp hkey).2 h.2
    · rw [AList.lookup_isSome]
      exact (and_iff_left_of_imp fun hmem => not_not.mp fun hnot =>
        hkey ((hgone key).mpr ⟨hmem, hnot⟩)).symm
  -- the second is about new keys only
  have hfound {key : String} (h : ∃ call ∈ discovers, call.key? = some key ∧
      call.discovered?.isSome) : InOpencode panes key ∧ key ∉ s.2 := by
    obtain ⟨call, hcall, hkey, -⟩ := h
    obtain ⟨-, -, key', hkey', hcallkey⟩ := hdiscovers call hcall
    rw [hkey, Option.some_inj] at hcallkey
    exact (hnew key).mp (hcallkey ▸ hkey')
  refine ⟨reports ++ discovers, known', ?_, ⟨fun key => ?_, fun key hkey hkey' => ?_,
    gone, hnodup, hgone, ?_⟩, fun key hkey hnot => ?_, fun hall call hcall => ?_⟩
  · rw [hview, List.append_assoc]
  · rw [hmem, hkept, exists_mem_append_discovered fun call hcall => (hreports call hcall).1]
    exact or_congr_right (and_iff_right_of_imp hfound).symm
  · have hleft : key ∈ left := ((hmem key).mp hkey').resolve_right fun h => (hfound h).2 hkey
    have hlisted := ((hkept key).mp hleft).2
    rw [hlookup key fun h => ((hnew key).mp h).2 hkey, hforgotten,
      if_neg fun h => ((hgone key).mp h).2 hlisted]
  · rw [List.filterMap_append, hnotEnded, List.append_nil, hended]
  · obtain ⟨r, hlast, -⟩ := inOpencode_iff_named.mp hkey
    obtain ⟨hr, rfl⟩ := lastWith_mem hlast
    obtain ⟨call, hcall, hcallkey⟩ := hrows r hr ((hnew r.key).mpr ⟨hkey, hnot⟩)
    exact ⟨call, List.mem_append_right _ hcall, (hdiscovers call hcall).1, hcallkey⟩
  · rcases List.mem_append.mp hcall with hmem | hmem
    · have hempty : gone = [] := List.eq_nil_iff_forall_not_mem.mpr fun key hkey =>
        ((hgone key).mp hkey).2 (hall key ((hgone key).mp hkey).1)
      rw [hempty, List.filterMap_nil] at hended
      exact List.filterMap_eq_nil_iff.mp hended call hmem
    · exact (hdiscovers call hmem).2.1

/-- **One check settles the map, and a second one of the same listing reports no session as
finished.** When every `session.discover` of the first gave out a session, the second makes no
call. -/
theorem paneCheck_settles (c : Client σ) (s : (σ × List Call) × Known) (panes : List RawPane)
    (walk walk' : Walk) :
    ∃ calls known' calls',
      view (runPaneCheck c.recorded s (some panes) walk) = (s.1.2 ++ calls, known') ∧
      Settled panes s.2 calls known' ∧
      (runPaneCheck c.recorded (runPaneCheck c.recorded s (some panes) walk) (some panes)
        walk').1.2 = s.1.2 ++ calls ++ calls' ∧
      (∀ call ∈ calls', call.ended? = none) ∧
      ((∀ call ∈ calls, call.method = Method.sessionDiscover → call.discovered?.isSome) →
        calls' = []) := by
  obtain ⟨calls, known', hview, hsettled, hdiscovers, -⟩ := view_runPaneCheck (c := c) s panes walk
  generalize runPaneCheck c.recorded s (some panes) walk = t at hview ⊢
  obtain ⟨hlog, hknown⟩ := Prod.mk.inj hview
  obtain ⟨calls', known'', hview', -, -, hended⟩ := view_runPaneCheck (c := c) t panes walk'
  obtain ⟨hlog', -⟩ := Prod.mk.inj hview'
  have hlisted : ∀ key ∈ t.2, InOpencode panes key := by
    intro key hkey
    rw [hknown, hsettled.keys] at hkey
    rcases hkey with ⟨-, hopencode⟩ | ⟨⟨hopencode, -⟩, -⟩
    · exact hopencode
    · exact hopencode
  refine ⟨calls, known', calls', hview, hsettled, hlog' ▸ hlog ▸ rfl, hended hlisted,
    fun hfound => ?_⟩
  have hsame : runPaneCheck c.recorded t (some panes) walk' = t := by
    refine runPaneCheck_eq_self walk' (List.eq_nil_iff_forall_not_mem.mpr fun key hkey => ?_)
      (List.eq_nil_iff_forall_not_mem.mpr fun key hkey => ?_)
    · rw [mem_vanished, ← inOpencode_iff_named] at hkey
      exact hkey.2 (hlisted key hkey.1)
    · rw [mem_newKeys, ← inOpencode_iff_named] at hkey
      obtain ⟨hopencode, hnot⟩ := hkey
      rw [hknown, hsettled.keys] at hnot
      have hunknown : key ∉ s.2 := fun h => hnot (Or.inl ⟨h, hopencode⟩)
      obtain ⟨call, hcall, hmethod, hcallkey⟩ := hdiscovers key hopencode hunknown
      exact hnot (Or.inr ⟨⟨hopencode, hunknown⟩, call, hcall, hcallkey, hfound call hcall hmethod⟩)
  rw [hsame] at hlog'
  exact List.append_right_eq_self.mp hlog'.symm

end Agentd.Watcher
