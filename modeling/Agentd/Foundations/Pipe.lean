import Agentd.Foundations.Framing

/-!
# Lines through a pipe

One direction of a connection, as its two ends see it (`Pipe`). What is given to `write_all` goes
out piece by piece, arrives piece by piece, and is read a line at a time by a reader that waits
until the line is complete or the writer is gone; the reader keeps what comes after the line.

The abstract side of a pipe is a list of lines, a queue. `Pipe.Carries` relates the two: writing a
line puts it at the end of the queue (`Pipe.Carries.write`), whatever goes out and arrives in
between does nothing to it, and reading takes the first line off (`Pipe.Carries.readLine_cases`) or,
when the writer is gone, gives a part of it.
-/

open Framing

/-- One direction of a connection. -/
structure Pipe (α : Type*) where
  /-- Given to `write_all`, and yet to go out. -/
  unsent : List α
  /-- Gone out, and yet to arrive. -/
  flight : List α
  /-- Arrived, and yet to be read. -/
  inbox : List α
  /-- The writer is gone. -/
  closed : Bool

namespace Pipe

variable {α : Type*}

/-- A new connection. -/
def fresh : Pipe α :=
  ⟨[], [], [], false⟩

/-- Everything that is on its way to the reader. -/
def content (p : Pipe α) : List α :=
  p.inbox ++ p.flight ++ p.unsent

/-- `write_all` begins. -/
def write (p : Pipe α) (text : List α) : Pipe α :=
  { p with unsent := p.unsent ++ text }

/-- So much goes out. -/
def send (p : Pipe α) (n : ℕ) : Pipe α :=
  { p with unsent := p.unsent.drop n, flight := p.flight ++ p.unsent.take n }

/-- So much arrives. -/
def arrive (p : Pipe α) (n : ℕ) : Pipe α :=
  { p with flight := p.flight.drop n, inbox := p.inbox ++ p.flight.take n }

/-- The writer goes. What has gone out still arrives. -/
def close (p : Pipe α) : Pipe α :=
  { p with unsent := [], closed := true }

/-- `read_line`: what is read, the separator included; `none` as long as it waits. -/
def readLine [DecidableEq α] (sep : α) (p : Pipe α) : Option (List α × Pipe α) :=
  if sep ∈ p.inbox then
    some ((readUntil sep p.inbox).1, { p with inbox := (readUntil sep p.inbox).2 })
  else if p.closed = true ∧ p.flight = [] then some (p.inbox, { p with inbox := [] })
  else none

variable (sep : α)

/-- Lines as text. -/
def text (lines : List (List α)) : List α :=
  lines.flatMap fun line => line ++ [sep]

/-- The pipe carries these lines and nothing else, in this order; when the writer is gone, some
first part of them. -/
structure Carries (p : Pipe α) (lines : List (List α)) : Prop where
  plain : ∀ line ∈ lines, sep ∉ line
  part : p.content <+: text sep lines
  whole : p.closed = false → p.content = text sep lines
  gone : p.closed = true → p.unsent = []

variable {sep} {p : Pipe α} {lines : List (List α)}

@[simp] theorem content_fresh : (fresh : Pipe α).content = [] :=
  rfl

@[simp] theorem content_write (p : Pipe α) (s : List α) : (p.write s).content = p.content ++ s :=
  (List.append_assoc _ _ _).symm

@[simp] theorem content_send (p : Pipe α) (n : ℕ) : (p.send n).content = p.content := by
  simp only [content, send, List.append_assoc, List.take_append_drop]

@[simp] theorem content_arrive (p : Pipe α) (n : ℕ) : (p.arrive n).content = p.content := by
  simp only [content, arrive, List.append_assoc]
  rw [← List.append_assoc (p.flight.take n), List.take_append_drop]

theorem content_close (p : Pipe α) : p.close.content <+: p.content := by
  simp only [content, close, List.append_nil]
  exact List.prefix_append _ _

@[simp] theorem text_nil : text sep ([] : List (List α)) = [] :=
  rfl

theorem text_cons (line : List α) (lines : List (List α)) :
    text sep (line :: lines) = line ++ sep :: text sep lines := by
  simp [text]

theorem text_append (l₁ l₂ : List (List α)) :
    text sep (l₁ ++ l₂) = text sep l₁ ++ text sep l₂ :=
  List.flatMap_append

theorem text_eq_nil : text sep lines = [] ↔ lines = [] := by
  cases lines with
  | nil => exact iff_of_true rfl rfl
  | cons line lines => simp [text_cons]

theorem carries_fresh : Carries sep (fresh : Pipe α) [] :=
  ⟨fun _ h => absurd h List.not_mem_nil, List.prefix_rfl, fun _ => rfl, fun h => by cases h⟩

theorem Carries.content_nil (h : Carries sep p []) : p.content = [] :=
  List.prefix_nil.mp h.part

/-- When the writer is gone and nothing is left, that is a first part of any lines. -/
theorem Carries.mono_nil (h : Carries sep p []) (hlines : ∀ line ∈ lines, sep ∉ line)
    (hclosed : p.closed = true) : Carries sep p lines where
  plain := hlines
  part := h.content_nil ▸ List.nil_prefix
  whole hopen := absurd hclosed (Bool.eq_false_iff.mp hopen)
  gone := h.gone

/-! ### What each end does

The writer writes, sends part of what it has written, and may close; bytes that were sent arrive in
parts; and the reader takes a line when there is one, or when the other end has closed. What has
been written and not been read is the content of the pipe, wherever it is at the moment. -/

/-- A line that is written goes to the end of the queue. -/
theorem Carries.write (h : Carries sep p lines) (hopen : p.closed = false) {line : List α}
    (hline : sep ∉ line) : Carries sep (p.write (line ++ [sep])) (lines ++ [line]) := by
  have htext : (p.write (line ++ [sep])).content = text sep (lines ++ [line]) := by
    rw [content_write, h.whole hopen, text_append, text_cons, text_nil]
  refine ⟨fun l hl => ?_, htext ▸ List.prefix_rfl, fun _ => htext, fun hclosed => ?_⟩
  rotate_left
  · exact absurd hclosed (by simp [Pipe.write, hopen])
  rcases List.mem_append.mp hl with hl | hl
  · exact h.plain l hl
  · rwa [List.mem_singleton.mp hl]

theorem Carries.send (h : Carries sep p lines) (n : ℕ) : Carries sep (p.send n) lines where
  plain := h.plain
  part := by
    rw [content_send]
    exact h.part
  whole hopen := by
    rw [content_send]
    exact h.whole hopen
  gone hclosed := by
    have hunsent : p.unsent = [] := h.gone hclosed
    simp only [Pipe.send, hunsent, List.drop_nil]

theorem Carries.arrive (h : Carries sep p lines) (n : ℕ) : Carries sep (p.arrive n) lines where
  plain := h.plain
  part := by
    rw [content_arrive]
    exact h.part
  whole hopen := by
    rw [content_arrive]
    exact h.whole hopen
  gone := h.gone

theorem Carries.close (h : Carries sep p lines) : Carries sep p.close lines where
  plain := h.plain
  part := (content_close p).trans h.part
  whole hopen := absurd hopen (by simp [Pipe.close])
  gone _ := rfl

/-- The content is a first part of the first line, or goes on after it. -/
theorem Carries.head_cases {line : List α} (h : Carries sep p (line :: lines)) :
    (sep ∉ p.content ∧ p.content <+: line) ∨
      ∃ rest, p.content = line ++ sep :: rest ∧ rest <+: text sep lines := by
  have hline : sep ∉ line := h.plain line List.mem_cons_self
  obtain ⟨more, hmore⟩ := h.part
  rw [text_cons] at hmore
  rcases line_cases hline hmore with ⟨rest, hrest⟩ | ⟨hnot, l', -, hl', -⟩
  · refine Or.inr ⟨rest, hrest, more, ?_⟩
    rw [hrest, List.append_assoc, List.cons_append] at hmore
    exact (List.cons.inj (List.append_cancel_left hmore)).2
  · exact Or.inl ⟨hnot, l', hl'.symm⟩

theorem readLine_of_mem [DecidableEq α] {line rest : List α} (hline : sep ∉ line)
    (hinbox : p.inbox = line ++ sep :: rest) :
    p.readLine sep = some (line ++ [sep], { p with inbox := rest }) := by
  rw [readLine, hinbox, if_pos (by simp), readUntil_line hline]

theorem closed_readLine [DecidableEq α] {l : List α} {p' : Pipe α}
    (h : p.readLine sep = some (l, p')) : p'.closed = p.closed := by
  rw [readLine] at h
  split_ifs at h <;>
  · obtain ⟨-, rfl⟩ := Prod.mk.inj (Option.some.inj h)
    rfl

/-- Nothing is read where nothing has come and the writer is there. -/
theorem readLine_of_content_nil [DecidableEq α] (h : p.content = []) (hopen : p.closed = false) :
    p.readLine sep = none := by
  have hinbox : p.inbox = [] := (List.append_eq_nil_iff.mp (List.append_eq_nil_iff.mp h).1).1
  rw [readLine, hinbox, if_neg List.not_mem_nil, if_neg (by simp [hopen])]

/-- What was read, and what it leaves: the first line of the queue, or, when the writer is gone,
the end of what came. -/
theorem Carries.readLine_cases [DecidableEq α] (h : Carries sep p lines) {l : List α} {p' : Pipe α}
    (hread : p.readLine sep = some (l, p')) :
    (∃ line rest, lines = line :: rest ∧ l = line ++ [sep] ∧ Carries sep p' rest ∧
        p'.closed = p.closed ∧ p'.unsent = p.unsent) ∨
      (p.closed = true ∧ sep ∉ l ∧ l = p.content ∧ Carries sep p' [] ∧ p'.closed = true) := by
  by_cases hsep : sep ∈ p.inbox
  · -- a whole line has arrived, and it is the first of the queue
    refine Or.inl ?_
    have hmem : sep ∈ p.content := List.mem_append_left _ (List.mem_append_left _ hsep)
    cases lines with
    | nil => exact absurd (h.content_nil ▸ hmem) List.not_mem_nil
    | cons line lines =>
      have hline : sep ∉ line := h.plain line List.mem_cons_self
      obtain ⟨rest, hcontent, hrest⟩ := h.head_cases.resolve_left fun hnot => hnot.1 hmem
      rw [content, List.append_assoc] at hcontent
      obtain ⟨t, ht⟩ := (line_cases hline hcontent).resolve_right fun hnot => hnot.1 hsep
      have htail : t ++ (p.flight ++ p.unsent) = rest := by
        rw [ht, List.append_assoc, List.cons_append] at hcontent
        exact (List.cons.inj (List.append_cancel_left hcontent)).2
      rw [readLine_of_mem hline ht, Option.some.injEq, Prod.mk.injEq] at hread
      obtain ⟨rfl, rfl⟩ := hread
      refine ⟨line, lines, rfl, rfl, ⟨fun m hm => h.plain m (List.mem_cons_of_mem _ hm), ?_, ?_,
        h.gone⟩, rfl, rfl⟩
      · rwa [content, List.append_assoc, htail]
      · intro hopen
        have hwhole := h.whole hopen
        rw [text_cons, content, List.append_assoc, hcontent] at hwhole
        rw [content, List.append_assoc, htail]
        exact (List.cons.inj (List.append_cancel_left hwhole)).2
  · rw [readLine, if_neg hsep] at hread
    split_ifs at hread with hend
    obtain ⟨rfl, rfl⟩ := Prod.mk.inj (Option.some.inj hread)
    have hunsent : p.unsent = [] := h.gone hend.1
    have hcontent : p.inbox = p.content := by
      rw [content, hend.2, hunsent, List.append_nil, List.append_nil]
    refine Or.inr ⟨hend.1, hsep, hcontent, ⟨fun _ hl => absurd hl List.not_mem_nil, ?_,
      fun hopen => ?_, fun _ => hunsent⟩, hend.1⟩
    · simp [content, hend.2, hunsent]
    · exact absurd hend.1 (Bool.eq_false_iff.mp hopen)

/-! ### A line gets through

If nothing else is in the pipe, a line that is written is read as it was, however it was cut on the
way, or is read in part after the end has come. What a pipe carries is therefore a list of lines, of
which the last may be broken off. -/

/-- A line that has gone out and arrived is there to be read. -/
theorem Carries.exists_readLine [DecidableEq α] {line : List α} (h : Carries sep p (line :: lines))
    (hopen : p.closed = false) : ∃ p',
      ((p.send p.unsent.length).arrive (p.flight ++ p.unsent).length).readLine sep =
        some (line ++ [sep], p') := by
  have hline : sep ∉ line := h.plain line List.mem_cons_self
  have hinbox : ((p.send p.unsent.length).arrive (p.flight ++ p.unsent).length).inbox =
      line ++ sep :: text sep lines := by
    rw [← text_cons, ← h.whole hopen]
    simp [Pipe.send, Pipe.arrive, content]
  exact ⟨_, readLine_of_mem hline hinbox⟩

end Pipe
