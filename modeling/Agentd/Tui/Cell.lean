import Agentd.Foundations.Registers

/-!
# What a dashboard shows of one session

The abstract side of the dashboard. Of one session there is a row in the database and
perhaps a line on the screen; both are an `Option Agentd.View`. A request writes the
row by an `Agentd.Edit`, the event it emits applies the same edit to the screen, and the two
only differ where a session ends: the row stays, with the status `finished`, and the line
goes.

* `Agentd.live_foldl` – a screen that agrees with the row on what is live keeps agreeing, edit
  by edit;
* `Agentd.live_replay` – a screen that starts from a later state of the row, and is then given
  all edits from the beginning, ends in agreement.

Both need that the edits fit the row (`Agentd.Fitting`): a session is put once, and its
status is not changed once it has finished.
-/

namespace Agentd

/-- What a dashboard shows of a session. -/
structure View where
  name : String
  status : String
  task : Option String
deriving DecidableEq

/-- A change of one of the parts of a view. -/
inductive Patch
  | name (name : String)
  | status (status : String)
  | task (task : String)

/-- The view after a change. -/
def View.patch (v : View) : Patch → View
  | .name n => { v with name := n }
  | .status s => { v with status := s }
  | .task t => { v with task := some t }

/-- What happens to a session. -/
inductive Edit
  | put (v : View)
  | patch (p : Patch)
  | finish

namespace Edit

/-- The edit of a row. -/
def onRow (c : Option View) : Edit → Option View
  | put v => some v
  | patch p => c.map fun v => v.patch p
  | finish => c.map fun v => v.patch (.status "finished")

/-- The edit of a line on the screen. -/
def onScreen (c : Option View) : Edit → Option View
  | put v => some v
  | patch p => c.map fun v => v.patch p
  | finish => none

end Edit

/-- The view of a session that has not finished. -/
def live (c : Option View) : Option View :=
  c.filter fun v => v.status ≠ "finished"

/-- The edit can happen to the row. -/
def Edit.Fits (c : Option View) : Edit → Prop
  | .put _ => c = none
  | .patch (.status s) => ∃ v, c = some v ∧ (v.status ≠ "finished" ∨ s = "finished")
  | _ => c.isSome

/-- The edits can happen to the row one after the other. -/
def Fitting : Option View → List Edit → Prop
  | _, [] => True
  | c, e :: es => e.Fits c ∧ Fitting (e.onRow c) es

theorem fitting_append {es fs : List Edit} : ∀ {c : Option View},
    Fitting c (es ++ fs) ↔ Fitting c es ∧ Fitting (es.foldl Edit.onRow c) fs := by
  induction es with
  | nil => intro c; simp [Fitting]
  | cons e es ih => intro c; simp only [List.cons_append, Fitting, ih, List.foldl_cons, and_assoc]

/-! ### Live views

What is compared between a screen and a table is what is live. A line that has finished and a line
that is not there are the same in this respect, and so a screen that drops a line agrees with a row
that stays and says finished. -/

theorem live_some_of_live {v : View} (h : v.status ≠ "finished") : live (some v) = some v := by
  simp [live, h]

theorem live_some_of_finished {v : View} (h : v.status = "finished") : live (some v) = none := by
  simp [live, h]

/-- A live line is there. -/
theorem eq_some_of_live {c : Option View} {v : View} (h : live c = some v) : c = some v :=
  (Option.filter_eq_some_iff.mp h).1

/-- A change that leaves the status alone is a change of what is live. -/
theorem live_map {f : View → View} (hf : ∀ v, (f v).status = v.status) (c : Option View) :
    live (c.map f) = (live c).map f := by
  cases c with
  | none => rfl
  | some v =>
    by_cases h : v.status = "finished"
    · rw [live_some_of_finished h, Option.map_some, live_some_of_finished ((hf v).trans h),
        Option.map_none]
    · have hlive : (f v).status ≠ "finished" := by rwa [hf v]
      rw [live_some_of_live h, Option.map_some, live_some_of_live hlive]

/-- A line set to `finished` is not live. -/
theorem live_map_finished (c : Option View) :
    live (c.map fun v => v.patch (.status "finished")) = none := by
  cases c with
  | none => rfl
  | some v => exact live_some_of_finished rfl

/-! ### Screen and row

The edit of a line on the screen and the edit of a row differ in one point: the screen takes a
finished session off, and the row keeps it. As long as no edit changes a row that has finished, they
agree on what is live. -/

/-- **A fitting edit keeps screen and row in agreement** on what is live. -/
theorem live_onScreen {t c : Option View} {e : Edit} (h : live t = live c) (he : e.Fits c) :
    live (e.onScreen t) = live (e.onRow c) := by
  cases e with
  | put v => rfl
  | finish => exact (live_map_finished c).symm
  | patch p =>
    cases p with
    | name n =>
      have hstatus (v : View) : (v.patch (.name n)).status = v.status := rfl
      rw [Edit.onScreen, Edit.onRow, live_map hstatus, live_map hstatus, h]
    | task n =>
      have hstatus (v : View) : (v.patch (.task n)).status = v.status := rfl
      rw [Edit.onScreen, Edit.onRow, live_map hstatus, live_map hstatus, h]
    | status s =>
      -- a live row has its line, and a line set to `finished` is not live anyway
      obtain ⟨v, rfl, hlive | rfl⟩ := he
      · rw [live_some_of_live hlive] at h
        rw [eq_some_of_live h]
        rfl
      · rw [Edit.onScreen, Edit.onRow, live_map_finished, live_map_finished]

/-- **Screen and row stay in agreement** on what is live, through any fitting edits. -/
theorem live_foldl {es : List Edit} : ∀ {t c : Option View}, live t = live c → Fitting c es →
    live (es.foldl Edit.onScreen t) = live (es.foldl Edit.onRow c) := by
  induction es with
  | nil => exact fun h _ => h
  | cons e es ih => exact fun h hfit => ih (live_onScreen h hfit.1) hfit.2

/-! ### Replaying

A screen may start from a later state of the row than the edits it is given. As patches are writes
to registers, applying the earlier ones again does no harm: in the end each register has what was
last written to it. -/

/-- The parts of a view are registers of the patches. -/
def nameRegister : Register View.patch String where
  read := View.name
  written p := match p with
    | .name n => some n
    | _ => none
  read_act v p := by cases p <;> rfl

def statusRegister : Register View.patch String where
  read := View.status
  written p := match p with
    | .status s => some s
    | _ => none
  read_act v p := by cases p <;> rfl

def taskRegister : Register View.patch (Option String) where
  read := View.task
  written p := match p with
    | .task t => some (some t)
    | _ => none
  read_act v p := by cases p <;> rfl

/-- Patches applied a second time change nothing. -/
theorem foldl_patch_twice (ps : List Patch) (v : View) :
    ps.foldl View.patch (ps.foldl View.patch v) = ps.foldl View.patch v := by
  have hname := nameRegister.read_replay ps [] v
  have hstatus := statusRegister.read_replay ps [] v
  have htask := taskRegister.read_replay ps [] v
  rw [List.append_nil] at hname hstatus htask
  exact View.mk.injEq .. |>.mpr ⟨hname, hstatus, htask⟩

/-- Patches act alike on screen and row. -/
theorem foldl_onScreen_patch (ps : List Patch) : ∀ v : View,
    (ps.map Edit.patch).foldl Edit.onScreen (some v) = some (ps.foldl View.patch v) := by
  induction ps with
  | nil => intro v; rfl
  | cons p ps ih => intro v; exact ih (v.patch p)

/-- A patch that ends a live session sets its status to `finished`. -/
theorem patch_status_of_finished {v : View} {p : Patch} (hlive : v.status ≠ "finished")
    (h : (v.patch p).status = "finished") (u : View) : (u.patch p).status = "finished" := by
  cases p with
  | name n => exact absurd h hlive
  | task t => exact absurd h hlive
  | status s => exact h

/-- A live row is given edits, and so is a line that is there. Either they agree on what
is live at the end, or the first of the edits are patches and the row is live after
them. -/
theorem live_foldl_or_patches {es fs : List Edit} : ∀ {v : View} {t : Option View},
    v.status ≠ "finished" → t.isSome → Fitting (some v) (es ++ fs) →
    live ((es ++ fs).foldl Edit.onScreen t) = live ((es ++ fs).foldl Edit.onRow (some v)) ∨
      ∃ ps : List Patch, es = ps.map .patch ∧
        es.foldl Edit.onRow (some v) = some (ps.foldl View.patch v) := by
  induction es with
  | nil => exact fun _ _ _ => Or.inr ⟨[], rfl, rfl⟩
  | cons e es ih =>
    rintro v t hlive ht ⟨hfits, hfit⟩
    obtain ⟨u, rfl⟩ := Option.isSome_iff_exists.mp ht
    simp only [List.cons_append, List.foldl_cons]
    cases e with
    | put w => cases hfits
    | finish =>
      -- the line goes while the row stays, and neither is live from here on
      refine Or.inl (live_foldl ?_ hfit)
      exact (live_map_finished (some v)).symm
    | patch p =>
      by_cases hnow : (v.patch p).status = "finished"
      · refine Or.inl (live_foldl ?_ hfit)
        have hline : live (some (u.patch p)) = none :=
          live_some_of_finished (patch_status_of_finished hlive hnow u)
        exact hline.trans (live_some_of_finished hnow).symm
      · rcases ih hnow (show (some (u.patch p)).isSome from rfl) hfit with h | ⟨ps, rfl, h⟩
        · exact Or.inl h
        · exact Or.inr ⟨p :: ps, rfl, h⟩

/-- A row stays once it is there. -/
theorem isSome_foldl_onRow (es : List Edit) : ∀ {c : Option View}, c.isSome →
    (es.foldl Edit.onRow c).isSome := by
  induction es with
  | nil => exact id
  | cons e es ih =>
    intro c hc
    refine ih ?_
    cases e with
    | put v => rfl
    | patch p => rwa [Edit.onRow, Option.isSome_map]
    | finish => rwa [Edit.onRow, Option.isSome_map]

/-- A row that has finished is not live after any fitting edits. -/
theorem live_foldl_of_finished {es : List Edit} {v : View} (hv : v.status = "finished")
    (h : Fitting (some v) es) : live (es.foldl Edit.onRow (some v)) = none := by
  induction es generalizing v with
  | nil => exact live_some_of_finished hv
  | cons e es ih =>
    obtain ⟨hfits, hfit⟩ := h
    cases e with
    | put w => cases hfits
    | finish => exact ih (v := v.patch (.status "finished")) rfl hfit
    | patch p =>
      refine ih (v := v.patch p) ?_ hfit
      cases p with
      | name n => exact hv
      | task t => exact hv
      | status s =>
        obtain ⟨w, hw, hlive | rfl⟩ := hfits
        · obtain rfl := Option.some.inj hw
          exact absurd hv hlive
        · rfl

/-- **A screen that starts from the row as it is after the first edits, and is given
all of them, ends in agreement with the row** on what is live. -/
theorem live_replay {es fs : List Edit} {c : Option View} (h : Fitting c (es ++ fs)) :
    live ((es ++ fs).foldl Edit.onScreen (es.foldl Edit.onRow c)) =
      live ((es ++ fs).foldl Edit.onRow c) := by
  cases c with
  | none =>
    cases es with
    | nil => exact live_foldl rfl h
    | cons e es =>
      -- the first edit puts the session, whatever the screen holds
      obtain ⟨hfits, hfit⟩ := h
      simp only [List.cons_append, List.foldl_cons]
      cases e with
      | put v => exact live_foldl rfl hfit
      | finish => cases hfits
      | patch p => cases p <;> simp [Edit.Fits] at hfits
  | some v =>
    -- the row is there already, so the line is, and the edits before `fs` come twice
    by_cases hv : v.status = "finished"
    · refine live_foldl ?_ h
      rw [live_some_of_finished hv]
      exact live_foldl_of_finished hv (fitting_append.mp h).1
    · have hthere : (es.foldl Edit.onRow (some v)).isSome := isSome_foldl_onRow es rfl
      rcases live_foldl_or_patches hv hthere h with hend | ⟨ps, rfl, hrow⟩
      · exact hend
      · rw [List.foldl_append, List.foldl_append, hrow, foldl_onScreen_patch, foldl_patch_twice]
        refine live_foldl rfl ?_
        rw [← hrow]
        exact (fitting_append.mp h).2

end Agentd
