import Agentd.Foundations.Machine
import Agentd.Foundations.SlidingWindow
import Agentd.Supervisor.Stale
import Mathlib.Data.List.Induction

/-!
# The restart limit

The monitor of a plugin records a restart each time it finds the heartbeat stale, and gives
up when three of them are less than a minute old. It forgets a restart at the first stale
round that finds it a minute old, so what it counts is a pruned history.

`Agentd.Limited` is the monitor beside the whole history. As long as the clock
does not go back the two counts agree (`Agentd.Limited.fresh_after`), from which
`Agentd.Limited.restart_limit` follows: no half-open minute holds more than three
restarts, wherever it begins.

That the clock does not go back is what `Instant` promises. The bound is about the restarts of one
plugin; each plugin has a monitor of its own, and they do not count for each other. After the limit
is reached the plugin is given up, which the model has as a flag, and nothing restarts it any more.
-/

namespace Agentd

open SlidingWindow

/-- What one round of the monitor reads: whether the heartbeat is alive, and the time. -/
structure Look where
  alive : Bool
  now : ℕ
  deriving DecidableEq

namespace Monitor

/-- The restarts that the round leaves in the window. -/
def kept (m : Monitor) (now : ℕ) : List ℕ :=
  fresh (seconds 60) now m.restartsInWindow

/-- One round of the task, given what `is_alive` answered. -/
def look (m : Monitor) (l : Look) : Monitor :=
  if !m.running then m
  else if l.alive then m
  else if (m.kept l.now).length ≥ 3 then { restartsInWindow := m.kept l.now, running := false }
  else { m with restartsInWindow := m.kept l.now ++ [l.now] }

/-- What the round pushes onto `restarts_in_window`. -/
def recorded (m : Monitor) (l : Look) : List ℕ :=
  if m.running ∧ ¬l.alive ∧ (m.kept l.now).length < 3 then [l.now] else []

theorem tick_eq_look (m : Monitor) (beat : PluginHeartbeat) (now : ℕ) :
    m.tick beat now = m.look ⟨beat.isAlive heartbeatTimeout now, now⟩ :=
  rfl

/-- **What a round does**: it finds the plugin alive or has given up before, it gives up, or
it records a restart. -/
theorem look_cases (m : Monitor) (l : Look) :
    ((¬m.running ∨ l.alive) ∧ m.look l = m ∧ m.recorded l = []) ∨
    (m.running ∧ ¬l.alive ∧ 3 ≤ (m.kept l.now).length ∧
      m.look l = { restartsInWindow := m.kept l.now, running := false } ∧ m.recorded l = []) ∨
    (m.running ∧ ¬l.alive ∧ (m.kept l.now).length < 3 ∧
      m.look l = { m with restartsInWindow := m.kept l.now ++ [l.now] } ∧
      m.recorded l = [l.now]) := by
  unfold look recorded
  rcases hrun : m.running with _ | _
  · exact .inl ⟨.inl (by simp), by simp, by simp⟩
  rcases halive : l.alive with _ | _
  · by_cases hfull : 3 ≤ (m.kept l.now).length
    · exact .inr (.inl ⟨rfl, by simp, hfull, by simp [hfull], by simp [hfull]⟩)
    · have hroom := Nat.lt_of_not_le hfull
      exact .inr (.inr ⟨rfl, by simp, hroom, by simp [hfull], by simp [hroom]⟩)
  · exact .inl ⟨.inr rfl, by simp, by simp⟩

end Monitor

/-- A monitor with every restart it has ever recorded, those it has forgotten included. -/
structure Limited where
  monitor : Monitor := {}
  recorded : List ℕ := []

namespace Limited

/-- One round. -/
def step (s : Limited) (l : Look) : Limited where
  monitor := s.monitor.look l
  recorded := s.recorded ++ s.monitor.recorded l

/-- A monitor that was just spawned, after these rounds. -/
def after (looks : List Look) : Limited :=
  Machine.run step {} looks

/-- The round finds the plugin stale, and three restarts less than a minute old have been
recorded before. -/
def Exhausted (before : List Look) (l : Look) : Prop :=
  ¬l.alive ∧ 3 ≤ (fresh (seconds 60) l.now (after before).recorded).length

/-- None of the rounds found the limit reached. -/
def Unexhausted (looks : List Look) : Prop :=
  ∀ before l rest, looks = before ++ l :: rest → ¬Exhausted before l

/-- The clock does not go back. -/
def Clocked (looks : List Look) : Prop :=
  looks.Pairwise fun l l' => l.now ≤ l'.now

variable {looks : List Look} {l : Look}

@[simp] theorem after_concat (looks : List Look) (l : Look) :
    after (looks ++ [l]) = (after looks).step l :=
  Machine.run_concat ..

theorem clocked_concat :
    Clocked (looks ++ [l]) ↔ Clocked looks ∧ ∀ l' ∈ looks, l'.now ≤ l.now := by
  simp [Clocked, List.pairwise_append]

theorem Clocked.of_append {rest : List Look} (h : Clocked (looks ++ rest)) : Clocked looks :=
  (List.pairwise_append.mp h).1

theorem unexhausted_concat :
    Unexhausted (looks ++ [l]) ↔ Unexhausted looks ∧ ¬Exhausted looks l := by
  constructor
  · intro h
    refine ⟨?_, h looks l [] rfl⟩
    rintro before l' rest rfl
    exact h before l' (rest ++ [l]) (by simp)
  · rintro ⟨hbefore, hl⟩ before l' rest heq
    rcases List.eq_nil_or_concat rest with rfl | ⟨rest, last, rfl⟩
    · obtain ⟨rfl, rfl⟩ := List.append_singleton_inj.mp heq
      exact hl
    · rw [List.concat_eq_append, ← List.cons_append, ← List.append_assoc] at heq
      obtain ⟨rfl, rfl⟩ := List.append_singleton_inj.mp heq
      exact hbefore before l' rest rfl

/-- **The window answers as the whole history does**, at any time that has not passed. -/
theorem fresh_after (hclock : Clocked looks) {now : ℕ} (hnow : ∀ l ∈ looks, l.now ≤ now) :
    fresh (seconds 60) now (after looks).recorded =
      fresh (seconds 60) now (after looks).monitor.restartsInWindow := by
  induction looks using List.reverseRecOn with
  | nil => rfl
  | append_singleton looks l ih =>
    have hpast : l.now ≤ now := hnow l (by simp)
    have hih := ih hclock.of_append fun l' hl' => hnow l' (by simp [hl'])
    rw [after_concat]
    rcases (after looks).monitor.look_cases l with
      ⟨-, hlook, hrec⟩ | ⟨-, -, -, hlook, hrec⟩ | ⟨-, -, -, hlook, hrec⟩ <;>
      simp only [step, hlook, hrec, Monitor.kept, List.append_nil, fresh_append,
        fresh_fresh hpast, hih]

/-- At a round, the entries the monitor keeps are the restarts less than a minute old. -/
theorem kept_after (hclock : Clocked (looks ++ [l])) :
    (after looks).monitor.kept l.now = fresh (seconds 60) l.now (after looks).recorded := by
  obtain ⟨hbefore, hpast⟩ := clocked_concat.mp hclock
  exact (fresh_after hbefore hpast).symm

/-- The monitor runs until a round finds the limit reached. -/
theorem running_after_iff (hclock : Clocked looks) :
    (after looks).monitor.running ↔ Unexhausted looks := by
  induction looks using List.reverseRecOn with
  | nil => exact iff_of_true rfl fun before l rest heq => by simp at heq
  | append_singleton looks l ih =>
    rw [unexhausted_concat, ← ih hclock.of_append, Exhausted, ← kept_after hclock, after_concat]
    rcases (after looks).monitor.look_cases l with
      ⟨hor, hlook, -⟩ | ⟨hrun, hstale, hfull, hlook, -⟩ | ⟨hrun, hstale, hroom, hlook, -⟩
    · simp only [step, hlook]
      tauto
    · simp only [step, hlook, hrun, hstale, hfull]
      simp
    · simp only [step, hlook, hrun, hstale]
      simp [hroom]

/-- Recording keeps the limit. -/
theorem bounded_after (hclock : Clocked looks) :
    Bounded (seconds 60) 3 (after looks).recorded := by
  induction looks using List.reverseRecOn with
  | nil => exact bounded_nil
  | append_singleton looks l ih =>
    have hih := ih hclock.of_append
    rw [after_concat]
    rcases (after looks).monitor.look_cases l with
      ⟨-, -, hrec⟩ | ⟨-, -, -, -, hrec⟩ | ⟨-, -, hroom, -, hrec⟩
    · simpa only [step, hrec, List.append_nil] using hih
    · simpa only [step, hrec, List.append_nil] using hih
    · rw [kept_after hclock] at hroom
      simpa only [step, hrec] using hih.concat hroom

/-- **The restart limit.** When the clock does not go back, no half-open minute holds more
than three recorded restarts; the monitor gives up exactly at the first stale round before
which three less than a minute old were recorded; and it records one at every stale round
before that. -/
theorem restart_limit (looks : List Look) (hclock : Clocked looks) :
    Bounded (seconds 60) 3 (after looks).recorded ∧
      ∀ before l rest, looks = before ++ l :: rest →
        ((after before).monitor.running ∧ ¬(after (before ++ [l])).monitor.running ↔
            Exhausted before l ∧ Unexhausted before) ∧
          (¬l.alive → Unexhausted (before ++ [l]) →
            (after (before ++ [l])).recorded = (after before).recorded ++ [l.now]) := by
  refine ⟨bounded_after hclock, ?_⟩
  rintro before l rest rfl
  have hclock' : Clocked (before ++ [l]) := by
    rw [List.append_cons] at hclock
    exact hclock.of_append
  refine ⟨?_, fun hstale hunexhausted => ?_⟩
  · rw [running_after_iff hclock', running_after_iff hclock'.of_append, unexhausted_concat]
    tauto
  · have hrun := (running_after_iff hclock').mpr hunexhausted
    rw [after_concat] at hrun ⊢
    rcases (after before).monitor.look_cases l with
      ⟨hor, hlook, -⟩ | ⟨-, -, -, hlook, -⟩ | ⟨-, -, -, -, hrec⟩
    · simp only [step, hlook] at hrun
      exact absurd hor (by simp [hrun, hstale])
    · rw [step, hlook] at hrun
      exact absurd hrun (by simp)
    · rw [step, hrec]

/-- Four stale rounds, five seconds apart: three restarts, and the fourth gives up. -/
theorem restart_limit_stale :
    (after [⟨false, seconds 5⟩, ⟨false, seconds 10⟩, ⟨false, seconds 15⟩]).monitor.running ∧
      ¬(after ([⟨false, seconds 5⟩, ⟨false, seconds 10⟩, ⟨false, seconds 15⟩] ++
        [⟨false, seconds 20⟩])).monitor.running :=
  ((restart_limit
      [⟨false, seconds 5⟩, ⟨false, seconds 10⟩, ⟨false, seconds 15⟩, ⟨false, seconds 20⟩]
      (by unfold Clocked; decide)).2
    [⟨false, seconds 5⟩, ⟨false, seconds 10⟩, ⟨false, seconds 15⟩] ⟨false, seconds 20⟩ [] rfl).1.mpr
    ⟨by unfold Exhausted; decide, (running_after_iff (by unfold Clocked; decide)).mp (by decide)⟩

end Limited

end Agentd
