import Agentd.Foundations.Framing
import Agentd.Handlers.Client

/-!
# How a subscriber's lines are cut

A client subscribes, and may unsubscribe on the same connection. Both are lines of one stream, and
what the daemon makes of the stream is not to depend on how its reads cut it
(`Agentd.Router.Streams`).

It does. `handle_client` gives up a connection on which it finds nothing before the
request is complete, and what it has read after the request is lost. `run_subscribe`
takes for a line what came since its last line or its last read that found nothing, and ends it
with a read that finds nothing; what a read brings after a line feed is lost too.

The loop over calls of `read_line_nonblocking` is one pass over the reads, with what is
in the buffer as its state (`Agentd.Router.firstAt_settled`). So it stops at the first read that
`Agentd.Router.Ends` says, and `Agentd.Router.streams_iff` says for which cuts that is the read
that brings the end of the first unsubscribe line.

There are three places at which the cut of the bytes shows. The first line is read by a reader of
its own, whose buffer is dropped with what it holds; it takes a read that finds nothing for the end.
The later ones are read by a loop that looks at one read at a time, and clears its buffer after each
line. The condition under which none of this shows (`Agentd.Router.InStep`) is put in terms of
single reads, and a client that writes one line at a time meets it.
-/

namespace Agentd.Router

open Framing Json Utf8

/-- The bytes that reads bring. -/
def arrived (reads : List Observed) : List UInt8 :=
  reads.flatMap Observed.bytes

/-- What has arrived is what the reads have found. -/
theorem arrived_cons (o : Observed) (reads : List Observed) :
    arrived (o :: reads) = o.bytes ++ arrived reads :=
  rfl

/-- The reads before the one that brings the first line feed. -/
def requestReads (reads : List Observed) : List Observed :=
  reads.takeWhile fun o => decide (newline ∉ o.bytes)

/-- The reads after the one that brings the first line feed. -/
def laterReads (reads : List Observed) : List Observed :=
  reads.drop ((requestReads reads).length + 1)

/-- The reads of the request end before the one that brings a line feed. -/
theorem requestReads_of_mem {o : Observed} (h : newline ∈ o.bytes) (reads : List Observed) :
    requestReads (o :: reads) = [] :=
  List.takeWhile_cons_of_neg (by simpa using h)

/-- They do whatever else that read brings. -/
theorem requestReads_of_line {o : Observed} {line rest : List UInt8}
    (h : o.bytes = line ++ newline :: rest) (reads : List Observed) :
    requestReads (o :: reads) = [] :=
  requestReads_of_mem (by rw [h]; simp) reads

/-- A read without a line feed is one of them. -/
theorem requestReads_of_notMem {o : Observed} (h : newline ∉ o.bytes) (reads : List Observed) :
    requestReads (o :: reads) = o :: requestReads reads :=
  List.takeWhile_cons_of_pos (by simpa using h)

/-- A line feed that comes, comes with some read. -/
theorem length_requestReads_lt {reads : List Observed} {sub more : List UInt8}
    (h : arrived reads = sub ++ newline :: more) (hsub : newline ∉ sub) :
    (requestReads reads).length < reads.length := by
  induction reads generalizing sub with
  | nil => exact absurd h.symm (by simp [arrived])
  | cons o reads ih =>
    rcases line_cases hsub h with ⟨t, hbytes⟩ | ⟨hnot, sub', hsub', -, hrest⟩
    · rw [requestReads_of_line hbytes]
      exact Nat.succ_pos _
    · rw [requestReads_of_notMem hnot]
      exact Nat.succ_lt_succ (ih hrest hsub')

/-! ### The request

The first line is read through a buffer. It comes when every read up to the line feed finds data;
otherwise the line is cut where a read finds nothing, and is no request. -/

section Request

variable {reads : List Observed} {sub more buf : List UInt8} {limit : ℕ}

/-- A request that comes before any read finds nothing, and is not too long. -/
theorem readLine_eq_some (hbytes : arrived reads = sub ++ newline :: more) (hsub : newline ∉ sub)
    (hunbroken : Observed.wouldBlock ∉ requestReads reads) (hbuf : newline ∉ buf)
    (hfits : (buf ++ sub).length < limit) (made : ℕ) :
    readLine limit buf made reads = some (buf ++ sub ++ [newline],
      ⟨made + (requestReads reads).length + 1, laterReads reads⟩) := by
  induction reads generalizing sub buf made with
  | nil => exact absurd hbytes.symm (by simp [arrived])
  | cons o reads ih =>
    cases o with
    | wouldBlock =>
      rw [requestReads_of_notMem List.not_mem_nil] at hunbroken
      exact absurd List.mem_cons_self hunbroken
    | data byte bytes =>
      rw [readLine]
      rcases line_cases hsub hbytes with ⟨t, ht⟩ | ⟨hnot, sub', hsub', rfl, hrest⟩
      · have hreads := requestReads_of_line ht reads
        change byte :: bytes = sub ++ newline :: t at ht
        have htake : (buf ++ byte :: bytes).take limit =
            buf ++ sub ++ newline :: t.take (limit - (buf ++ sub).length - 1) := by
          obtain ⟨j, hj⟩ := Nat.exists_eq_add_of_lt hfits
          rw [ht, ← List.append_assoc, List.take_append, List.take_of_length_le hfits.le]
          have hleft : limit - (buf ++ sub).length = j + 1 := by omega
          rw [hleft, List.take_succ_cons, Nat.add_sub_cancel]
        rw [htake, if_pos (by simp), takeWhile_line (List.not_mem_append hbuf hsub), laterReads,
          hreads]
        rfl
      · have hreads := requestReads_of_notMem hnot reads
        change newline ∉ byte :: bytes at hnot
        rw [hreads, List.mem_cons, not_or] at hunbroken
        have hfree : newline ∉ buf ++ byte :: bytes := List.not_mem_append hbuf hnot
        have hfits' : (buf ++ byte :: bytes ++ sub').length < limit := by
          rw [List.append_assoc]
          exact hfits
        have hlt : (buf ++ byte :: bytes).length < limit := by
          rw [List.length_append] at hfits'
          omega
        rw [List.take_of_length_le hlt.le, if_neg hfree, if_neg hlt.ne,
          ih hrest hsub' hunbroken.2 hfree hfits', laterReads, laterReads, hreads,
          List.append_assoc buf]
        simp only [List.length_cons, List.drop_succ_cons]
        rw [Nat.add_right_comm made 1, Nat.add_assoc made]
        rfl

/-- Any other is an error, or is cut off. -/
theorem readLine_of_not (hbytes : arrived reads = sub ++ newline :: more) (hsub : newline ∉ sub)
    (hbuf : newline ∉ buf)
    (h : Observed.wouldBlock ∈ requestReads reads ∨ limit ≤ (buf ++ sub).length) (made : ℕ) :
    readLine limit buf made reads = none ∨
      ∃ line c, readLine limit buf made reads = some (line, c) ∧ line.length = limit := by
  induction reads generalizing sub buf made with
  | nil => exact absurd hbytes.symm (by simp [arrived])
  | cons o reads ih =>
    cases o with
    | wouldBlock => exact Or.inl rfl
    | data byte bytes =>
      rw [readLine]
      rcases line_cases hsub hbytes with ⟨t, ht⟩ | ⟨hnot, sub', hsub', rfl, hrest⟩
      · have hreads := requestReads_of_line ht reads
        change byte :: bytes = sub ++ newline :: t at ht
        rw [hreads] at h
        have hlong : limit ≤ (buf ++ sub).length := h.resolve_left List.not_mem_nil
        have htake : (buf ++ byte :: bytes).take limit = (buf ++ sub).take limit := by
          rw [ht, ← List.append_assoc, List.take_append_of_le_length hlong]
        have hfree : newline ∉ (buf ++ sub).take limit := fun hin =>
          List.not_mem_append hbuf hsub (List.mem_of_mem_take hin)
        have hlength : ((buf ++ sub).take limit).length = limit :=
          List.length_take_of_le hlong
        rw [htake, if_neg hfree, if_pos hlength]
        exact Or.inr ⟨_, _, rfl, hlength⟩
      · have hreads := requestReads_of_notMem hnot reads
        change newline ∉ byte :: bytes at hnot
        have hfree : newline ∉ buf ++ byte :: bytes := List.not_mem_append hbuf hnot
        rw [if_neg fun hin => hfree (List.mem_of_mem_take hin)]
        split
        · exact Or.inr ⟨_, _, rfl, ‹_›⟩
        · have hlt : (buf ++ byte :: bytes).length ≤ limit := by
            rename_i hne
            rw [List.length_take] at hne
            omega
          rw [List.take_of_length_le hlt]
          refine ih hrest hsub' hfree ?_ _
          rcases h with h | h
          · rw [hreads, List.mem_cons] at h
            exact Or.inl (h.resolve_left Observed.noConfusion)
          · rw [List.append_assoc]
            exact Or.inr h

end Request

/-! ### Streaming

The loop goes on until a read ends it. Which read does is determined by the reads before it through
what they leave in the buffer, so that the loop can be followed by induction on the reads that are
to come. -/

/-- What is in the buffer after a read. -/
def buffered (buf : List UInt8) : Observed → List UInt8
  | .wouldBlock => []
  | .data byte more => if newline ∈ buf ++ byte :: more then [] else buf ++ byte :: more

section Streaming

variable (fromStr : List Char → Option Value) (out : Outgoing)

/-- With `buf` in the buffer, the read that is the `made`th ends the streaming: what is
taken for a line is an unsubscribe frame, or too long, or the rest of the pass breaks off. -/
def Ends (buf : List UInt8) (made : ℕ) : Observed → Prop
  | .wouldBlock =>
    buf ≠ [] ∧ isUnsubscribeFrame fromStr (fromUtf8Lossy buf) = true ∨
      (out.tryRecv made).goesOn = false
  | .data byte more =>
    let buf := buf ++ byte :: more
    if newline ∈ buf then
      isUnsubscribeFrame fromStr (fromUtf8Lossy (buf.takeWhile (· ≠ newline))) = true ∨
        (out.tryRecv made).goesOn = false
    else maxLineBytes < buf.length

/-- The streaming ends with the `n`th read, of which the first `made` were made before, with `buf`
in the buffer. -/
def EndsWith (buf : List UInt8) (made : ℕ) (ahead : List Observed) (n : ℕ) : Prop :=
  ∃ before o after, ahead = before ++ o :: after ∧ n = made + before.length + 1 ∧
    Ends fromStr out (before.foldl buffered buf) n o

variable {fromStr out} {buf : List UInt8} {made n : ℕ} {o : Observed} {ahead : List Observed}

/-- Without a read nothing ends. -/
theorem not_endsWith_nil : ¬EndsWith fromStr out buf made [] n := by
  rintro ⟨before, o, after, h, -⟩
  exact absurd h.symm (by simp)

/-- The next read ends the streaming, or a later one does, with what this one leaves in the buffer.
-/
theorem endsWith_cons :
    EndsWith fromStr out buf made (o :: ahead) n ↔
      n = made + 1 ∧ Ends fromStr out buf n o ∨
        EndsWith fromStr out (buffered buf o) (made + 1) ahead n := by
  constructor
  · rintro ⟨before, o', after, h, hn, hends⟩
    cases before with
    | nil =>
      obtain ⟨rfl, rfl⟩ := List.cons.inj h
      exact Or.inl ⟨hn, hends⟩
    | cons o₁ before =>
      obtain ⟨rfl, rfl⟩ := List.cons.inj h
      refine Or.inr ⟨before, o', after, rfl, ?_, hends⟩
      rw [hn, List.length_cons, ← Nat.add_assoc, Nat.add_right_comm made 1]
  · rintro (⟨hn, hends⟩ | ⟨before, o', after, rfl, hn, hends⟩)
    · exact ⟨[], o, ahead, rfl, hn, hends⟩
    · refine ⟨o :: before, o', after, rfl, ?_, hends⟩
      rw [hn, List.length_cons, Nat.add_right_comm made 1, Nat.add_assoc made]

/-- What ends it is a read that is to come. -/
theorem EndsWith.lt (h : EndsWith fromStr out buf made ahead n) : made < n := by
  obtain ⟨before, o, after, -, hn, -⟩ := h
  omega

/-- The read that ends it is the first. -/
theorem firstAt_of_ends (h : Ends fromStr out buf (made + 1) o) :
    FirstAt (EndsWith fromStr out buf made (o :: ahead)) (made + (o :: ahead).length)
      (made + 1) := by
  refine Or.inl ⟨?_, endsWith_cons.mpr (Or.inl ⟨rfl, h⟩), fun m hm hends => ?_⟩
  · rw [List.length_cons]
    omega
  · have hlt := hends.lt
    omega

/-- A read that does not leaves it to the others. -/
theorem firstAt_of_not_ends (h : ¬Ends fromStr out buf (made + 1) o)
    (hrest : FirstAt (EndsWith fromStr out (buffered buf o) (made + 1) ahead)
      (made + 1 + ahead.length) n) :
    FirstAt (EndsWith fromStr out buf made (o :: ahead)) (made + (o :: ahead).length) n := by
  have heq : EndsWith fromStr out buf made (o :: ahead) =
      EndsWith fromStr out (buffered buf o) (made + 1) ahead := by
    funext m
    rw [endsWith_cons]
    exact propext (or_iff_right fun ⟨hm, hends⟩ => h (hm ▸ hends))
  rw [heq, List.length_cons, Nat.add_comm ahead.length, ← Nat.add_assoc]
  exact hrest

/-- No read is left. -/
theorem firstAt_nil (h : made < n) :
    FirstAt (EndsWith fromStr out buf made []) (made + ([] : List Observed).length) n :=
  Or.inr ⟨h, fun _ _ => not_endsWith_nil⟩

variable (fromStr out) in
/-- Where the loop goes when a call has returned. -/
def settle (got : ReadLine × Conn) : Conn :=
  if breaksOff fromStr out got then got.2 else subscribeLoop fromStr out got.2

/-- The loop looks at what the next line is, and settles. -/
theorem subscribeLoop_eq (c : Conn) :
    subscribeLoop fromStr out c = settle fromStr out (readLineNonblocking [] c.made c.ahead) := by
  rw [subscribeLoop]
  rfl

/-- A call returns with a read that leaves the buffer empty for the next. -/
theorem firstAt_settle_of_returned {got : ReadLine} (hbuffered : buffered buf o = [])
    (hbreaks : breaksOff fromStr out (got, ⟨made + 1, ahead⟩) = true ↔
      Ends fromStr out buf (made + 1) o)
    (hrest : FirstAt (EndsWith fromStr out [] (made + 1) ahead) (made + 1 + ahead.length)
      (settle fromStr out (readLineNonblocking [] (made + 1) ahead)).made) :
    FirstAt (EndsWith fromStr out buf made (o :: ahead)) (made + (o :: ahead).length)
      (settle fromStr out (got, ⟨made + 1, ahead⟩)).made := by
  rw [settle]
  split
  · exact firstAt_of_ends (hbreaks.mp ‹_›)
  · rename_i hgoes
    rw [subscribeLoop_eq]
    exact firstAt_of_not_ends (fun hends => hgoes (hbreaks.mpr hends)) (hbuffered.symm ▸ hrest)

/-- At the end of the stream the loop stops, after a pass more if there was something left. -/
theorem lt_made_settle_nil (buf : List UInt8) (made : ℕ) :
    made < (settle fromStr out (readLineNonblocking buf made [])).made := by
  rw [settle]
  split
  · exact Nat.lt_succ_self made
  · change made < (subscribeLoop fromStr out ⟨made + 1, []⟩).made
    rw [subscribeLoop_eq]
    exact Nat.lt_succ_of_lt (Nat.lt_succ_self made)

/-- **The loop is one pass over the reads**: it stops at the first that ends the streaming. -/
theorem firstAt_settle (ahead : List Observed) (buf : List UInt8) (made : ℕ) :
    FirstAt (EndsWith fromStr out buf made ahead) (made + ahead.length)
      (settle fromStr out (readLineNonblocking buf made ahead)).made := by
  induction ahead generalizing buf made with
  | nil => exact firstAt_nil (lt_made_settle_nil buf made)
  | cons o ahead ih =>
    cases o with
    | wouldBlock =>
      rw [readLineNonblocking]
      refine firstAt_settle_of_returned rfl ?_ (ih [] (made + 1))
      by_cases hbuf : buf = []
      · rw [if_pos hbuf, breaksOff, Ends, Bool.not_eq_true']
        exact (or_iff_right fun h => h.1 hbuf).symm
      · rw [if_neg hbuf, breaksOff, Ends, Bool.or_eq_true, Bool.not_eq_true']
        exact or_congr_left (iff_and_self.mpr fun _ => hbuf)
    | data byte more =>
      rw [readLineNonblocking]
      split
      · rename_i hline
        refine firstAt_settle_of_returned (if_pos hline) ?_ (ih [] (made + 1))
        rw [breaksOff, Ends, Bool.or_eq_true, Bool.not_eq_true']
        exact (iff_of_eq (if_pos hline)).symm
      · rename_i hopen
        split
        · rename_i hlong
          exact firstAt_of_ends ((iff_of_eq (if_neg hopen)).mpr hlong)
        · rename_i hfits
          refine firstAt_of_not_ends (fun hends => hfits ((iff_of_eq (if_neg hopen)).mp hends)) ?_
          rw [buffered, if_neg hopen]
          exact ih _ _

end Streaming

/-! ### Cuts that do not matter

The reads of the whole connection are those of the request and those after it. What ends the
streaming is compared with the arrival of the first unsubscribe line in the bytes, which does not
depend on the cut. -/

section InStep

variable (fromStr : List Char → Option Value) (out : Outgoing)

/-- Reads have brought the end of an unsubscribe line, which is not the first. -/
def UnsubscribeArrived (reads : List Observed) : Prop :=
  ∃ line ∈ (completeLines newline (arrived reads)).tail,
    isUnsubscribeFrame fromStr (fromUtf8Lossy line) = true

/-- The connection streams until the read that brings the end of the first unsubscribe line, and to
the end of the stream if there is none. -/
def Streams (reads : List Observed) : Prop :=
  ∃ n, handleClient fromStr out reads = .streamed n ∧
    FirstAt (fun m => UnsubscribeArrived fromStr (reads.take m)) reads.length n

/-- A line that requests to subscribe. -/
structure IsSubscribe (sub : List UInt8) : Prop where
  notMem : newline ∉ sub
  exists_request : ∃ text req, fromUtf8 (sub ++ [newline]) = some text ∧
    Watcher.trim text ≠ [] ∧ fromStr (Watcher.trim text) = some req ∧
    req.getStr "method" = some Method.subscribe

/-- What the cut of the bytes into reads must be like, for the connection to stream as the lines
say. Up to the first line feed every read finds data, since `read_line_bounded` takes the end of
the data for the end of the line; the request line with its line feed is at most `MAX_LINE_BYTES`
long; and the acknowledgement is written. Of the later reads, which `run_subscribe` looks at one by
one and not line by line, none that ends the streaming comes before the first unsubscribe line has
arrived, and the read with which that line arrives is one that ends it. Neither of the last two is a
matter of course: a read may hold only half of a line, or a line and the beginning of the next. -/
structure InStep (sub : List UInt8) (reads : List Observed) : Prop where
  unbroken : Observed.wouldBlock ∉ requestReads reads
  fits : sub.length < maxLineBytes
  acknowledged : out.ackWritten = true
  notBefore : ∀ m ≤ reads.length,
    EndsWith fromStr out [] ((requestReads reads).length + 1) (laterReads reads) m →
    UnsubscribeArrived fromStr (reads.take m)
  with_first : ∀ m ≤ reads.length, UnsubscribeArrived fromStr (reads.take m) →
    (∀ j < m, ¬UnsubscribeArrived fromStr (reads.take j)) →
    EndsWith fromStr out [] ((requestReads reads).length + 1) (laterReads reads) m

variable {fromStr out} {sub more : List UInt8} {reads : List Observed}

/-- What has arrived by two parts of the reads has arrived by the one or the other. -/
theorem arrived_append (reads reads' : List Observed) :
    arrived (reads ++ reads') = arrived reads ++ arrived reads' :=
  List.flatMap_append

/-- What has arrived stays. -/
theorem monotone_unsubscribeArrived (fromStr : List Char → Option Value) (reads : List Observed) :
    Monotone fun m => UnsubscribeArrived fromStr (reads.take m) := by
  rintro m k hle ⟨line, hline, hframe⟩
  refine ⟨line, ?_, hframe⟩
  have hprefix : reads.take m <+: reads.take k := List.take_prefix_take_left hle
  obtain ⟨rest, hrest⟩ := hprefix
  rw [← hrest, arrived_append]
  exact (completeLines_grows _ _).sublist.tail.subset hline

/-- A line of more than `MAX_LINE_BYTES` is no request. -/
theorem parseRequest_of_long {line : List UInt8} (h : maxLineBytes < line.length) :
    parseRequest fromStr line = none := by
  by_cases hnil : line = []
  · exact if_pos hnil
  · rw [parseRequest, if_neg hnil]
    cases fromUtf8 line with
    | none => rfl
    | some text => exact if_pos h

/-- A line that requests to subscribe, and is not too long, is taken for such a request. -/
theorem IsSubscribe.parseRequest_eq (h : IsSubscribe fromStr sub)
    (hfits : sub.length < maxLineBytes) :
    ∃ req, parseRequest fromStr (sub ++ [newline]) = some req ∧
      req.getStr "method" = some Method.subscribe := by
  obtain ⟨text, req, htext, hblank, hreq, hmethod⟩ := h.exists_request
  refine ⟨req, ?_, hmethod⟩
  have hlength : ¬maxLineBytes < (sub ++ [newline]).length := by
    rw [List.length_append, List.length_singleton]
    omega
  rw [parseRequest, if_neg (by simp), htext]
  dsimp only
  rw [if_neg hlength, if_neg hblank, hreq]

/-- The connection after the line of the request. -/
theorem readLine_request (h : IsSubscribe fromStr sub)
    (hbytes : arrived reads = sub ++ newline :: more)
    (hunbroken : Observed.wouldBlock ∉ requestReads reads) (hfits : sub.length ≤ maxLineBytes) :
    readLine (maxLineBytes + 1) [] 0 reads =
      some (sub ++ [newline], ⟨(requestReads reads).length + 1, laterReads reads⟩) := by
  have hline : readLine (maxLineBytes + 1) [] 0 reads = some ([] ++ sub ++ [newline],
      ⟨0 + (requestReads reads).length + 1, laterReads reads⟩) :=
    readLine_eq_some hbytes h.notMem hunbroken List.not_mem_nil (Nat.lt_succ_of_le hfits) 0
  rwa [List.nil_append, Nat.zero_add] at hline

/-- What becomes of a connection with a request to subscribe. -/
theorem handleClient_of_readLine {line : List UInt8} {c : Conn} {req : Value}
    (hline : readLine (maxLineBytes + 1) [] 0 reads = some (line, c))
    (hreq : parseRequest fromStr line = some req)
    (hmethod : req.getStr "method" = some Method.subscribe) :
    handleClient fromStr out reads =
      if out.ackWritten then .streamed (subscribeLoop fromStr out c).made else .closed := by
  rw [handleClient, readRequest, hline]
  dsimp only
  rw [hreq]
  dsimp only [Option.map_some]
  rw [hmethod]
  dsimp only
  rw [if_pos rfl, runSubscribe]
  by_cases hack : out.ackWritten = true
  · rw [if_pos hack, if_pos hack]
  · rw [if_neg hack, if_neg hack]

/-- Without a request the connection is closed. -/
theorem handleClient_of_readRequest_eq_none (h : readRequest fromStr ⟨0, reads⟩ = none) :
    handleClient fromStr out reads = .closed := by
  rw [handleClient, h]

/-- A line that is too long, or an error instead of one, is no request. -/
theorem handleClient_of_long
    (h : readLine (maxLineBytes + 1) [] 0 reads = none ∨
      ∃ line c, readLine (maxLineBytes + 1) [] 0 reads = some (line, c) ∧
        maxLineBytes < line.length) :
    handleClient fromStr out reads = .closed := by
  refine handleClient_of_readRequest_eq_none ?_
  rcases h with h | ⟨line, c, h, hlong⟩
  · rw [readRequest, h]
  · rw [readRequest, h]
    dsimp only
    rw [parseRequest_of_long hlong]
    rfl

/-- A connection streams when its request is recognised, and is closed otherwise. -/
theorem handleClient_eq (h : IsSubscribe fromStr sub)
    (hbytes : arrived reads = sub ++ newline :: more) :
    handleClient fromStr out reads =
      if Observed.wouldBlock ∉ requestReads reads ∧ sub.length < maxLineBytes ∧
          out.ackWritten = true then
        .streamed
          (subscribeLoop fromStr out ⟨(requestReads reads).length + 1, laterReads reads⟩).made
      else .closed := by
  by_cases hunbroken : Observed.wouldBlock ∈ requestReads reads
  · rw [if_neg fun hc => hc.1 hunbroken]
    refine handleClient_of_long ((readLine_of_not hbytes h.notMem List.not_mem_nil
      (Or.inl hunbroken) 0).imp_right ?_)
    rintro ⟨line, c, hline, hlength⟩
    exact ⟨line, c, hline, hlength ▸ Nat.lt_succ_self maxLineBytes⟩
  · by_cases hfits : sub.length < maxLineBytes
    · obtain ⟨req, hreq, hmethod⟩ := h.parseRequest_eq hfits
      rw [handleClient_of_readLine (readLine_request h hbytes hunbroken hfits.le) hreq hmethod]
      exact if_congr ⟨fun hack => ⟨hunbroken, hfits, hack⟩, fun hc => hc.2.2⟩ rfl rfl
    · rw [if_neg fun hc => hfits hc.2.1]
      refine handleClient_of_long ?_
      by_cases hexact : sub.length ≤ maxLineBytes
      · refine Or.inr ⟨_, _, readLine_request h hbytes hunbroken hexact, ?_⟩
        rw [List.length_append, List.length_singleton]
        omega
      · refine (readLine_of_not hbytes h.notMem List.not_mem_nil (Or.inr ?_) 0).imp_right ?_
        · rw [List.nil_append]
          omega
        · rintro ⟨line, c, hline, hlength⟩
          exact ⟨line, c, hline, hlength ▸ Nat.lt_succ_self maxLineBytes⟩

/-- **The streaming ends with the first read that ends it.** -/
theorem firstAt_subscribeLoop (hbytes : arrived reads = sub ++ newline :: more)
    (hsub : newline ∉ sub) :
    FirstAt (EndsWith fromStr out [] ((requestReads reads).length + 1) (laterReads reads))
      reads.length
      (subscribeLoop fromStr out ⟨(requestReads reads).length + 1, laterReads reads⟩).made := by
  have hlength : (requestReads reads).length + 1 + (laterReads reads).length = reads.length := by
    have hlt := length_requestReads_lt hbytes hsub
    rw [laterReads, List.length_drop]
    omega
  rw [subscribeLoop_eq]
  exact hlength ▸ firstAt_settle (laterReads reads) [] ((requestReads reads).length + 1)

/-- **A subscriber's lines are read as they are sent exactly when their cut does not matter.** The
bytes are any that begin with the line of the subscription, and the reads are any way in which these
can come, with waits between them. The condition speaks of where the reads end, of the length of the
first line and of the acknowledgement, and of nothing that the loop computes. -/
theorem streams_iff (h : IsSubscribe fromStr sub)
    (hbytes : arrived reads = sub ++ newline :: more) :
    Streams fromStr out reads ↔ InStep fromStr out sub reads := by
  have hstops : FirstAt (EndsWith fromStr out [] ((requestReads reads).length + 1)
      (laterReads reads)) reads.length (subscribeLoop fromStr out
        ⟨(requestReads reads).length + 1, laterReads reads⟩).made :=
    firstAt_subscribeLoop hbytes h.notMem
  have hfirst := firstAt_iff (monotone_unsubscribeArrived fromStr reads) hstops
  rw [Streams, handleClient_eq h hbytes]
  constructor
  · rintro ⟨n, hn, hin⟩
    split at hn
    · rename_i hc
      obtain rfl := Handled.streamed.inj hn
      obtain ⟨hnotBefore, hwith⟩ := hfirst.mp hin
      exact ⟨hc.1, hc.2.1, hc.2.2, hnotBefore, hwith⟩
    · exact Handled.noConfusion hn
  · rintro ⟨hunbroken, hfits, hack, hnotBefore, hwith⟩
    rw [if_pos ⟨hunbroken, hfits, hack⟩]
    exact ⟨_, rfl, hfirst.mpr ⟨hnotBefore, hwith⟩⟩

/-! ### A read for each line

A client writes a line and flushes it, and a read finds one such line or nothing. Then no read
leaves anything in the buffer, and the lines are what counts. -/

/-- The read finds nothing, or one line. -/
def LineRead (o : Observed) : Prop :=
  o = .wouldBlock ∨ ∃ line, newline ∉ line ∧ o.bytes = line ++ [newline]

variable (fromStr) in
/-- The read finds an unsubscribe line. -/
def UnsubscribeRead (o : Observed) : Prop :=
  ∃ line, newline ∉ line ∧ o.bytes = line ++ [newline] ∧
    isUnsubscribeFrame fromStr (fromUtf8Lossy line) = true

variable {o : Observed} {n : ℕ}

/-- A read that finds a whole line, or nothing, leaves nothing in an empty buffer. -/
theorem LineRead.buffered_nil (h : LineRead o) : buffered [] o = [] := by
  rcases h with rfl | ⟨line, -, hbytes⟩
  · rfl
  · cases o with
    | wouldBlock => rfl
    | data byte bytes =>
      change byte :: bytes = line ++ [newline] at hbytes
      rw [buffered, List.nil_append, hbytes]
      exact if_pos (by simp)

/-- Any number of such reads leave the buffer empty. -/
theorem foldl_buffered_nil (h : ∀ o ∈ reads, LineRead o) : reads.foldl buffered [] = [] := by
  induction reads with
  | nil => rfl
  | cons o reads ih =>
    rw [List.forall_mem_cons] at h
    rw [List.foldl_cons, h.1.buffered_nil, ih h.2]

/-- So a read ends the streaming when its line is an unsubscribe frame, and the event half goes on.
-/
theorem LineRead.ends_iff (h : LineRead o) (hgoes : (out.tryRecv n).goesOn = true) :
    Ends fromStr out [] n o ↔ UnsubscribeRead fromStr o := by
  rcases h with rfl | ⟨line, hline, hbytes⟩
  · rw [Ends, hgoes]
    constructor
    · rintro (⟨hne, -⟩ | hends)
      · exact absurd rfl hne
      · exact Bool.noConfusion hends
    · rintro ⟨line, -, hbytes, -⟩
      exact absurd hbytes.symm (by simp [Observed.bytes])
  · cases o with
    | wouldBlock => exact absurd hbytes.symm (by simp [Observed.bytes])
    | data byte bytes =>
      change byte :: bytes = line ++ [newline] at hbytes
      have hmem : newline ∈ line ++ [newline] := by simp
      rw [Ends, List.nil_append, hbytes, hgoes, if_pos hmem, takeWhile_line hline]
      constructor
      · rintro (hframe | hends)
        · exact ⟨line, hline, hbytes, hframe⟩
        · exact Bool.noConfusion hends
      · rintro ⟨line', -, hbytes', hframe⟩
        change byte :: bytes = line' ++ [newline] at hbytes'
        rw [hbytes] at hbytes'
        rw [List.append_cancel_right hbytes']
        exact Or.inl hframe

/-- The lines are those of the reads. -/
theorem mem_completeLines_arrived {line : List UInt8} (h : ∀ o ∈ reads, LineRead o) :
    line ∈ completeLines newline (arrived reads) ↔
      ∃ o ∈ reads, newline ∉ line ∧ o.bytes = line ++ [newline] := by
  induction reads with
  | nil =>
    constructor
    · exact fun hline => absurd hline List.not_mem_nil
    · exact fun ⟨o, ho, _⟩ => absurd ho List.not_mem_nil
  | cons o reads ih =>
    rw [List.forall_mem_cons] at h
    rw [arrived_cons, List.exists_mem_cons_iff]
    rcases h.1 with rfl | ⟨line', hline', hbytes⟩
    · rw [Observed.bytes, List.nil_append, ih h.2]
      exact (or_iff_right fun hempty => absurd hempty.2.symm (by simp)).symm
    · rw [hbytes, List.append_assoc, List.singleton_append, completeLines_line hline',
        List.mem_cons, ih h.2]
      refine or_congr_left ⟨fun heq => ?_, fun heq => (List.append_cancel_right heq.2).symm⟩
      rw [heq]
      exact ⟨hline', rfl⟩

/-- An unsubscribe line has arrived when a read after the first has found one. -/
theorem unsubscribeArrived_iff {first : Observed} (hfirst : LineRead first)
    (hdata : first ≠ .wouldBlock) (h : ∀ o ∈ reads, LineRead o) (m : ℕ) :
    UnsubscribeArrived fromStr ((first :: reads).take m) ↔
      ∃ o ∈ reads.take (m - 1), UnsubscribeRead fromStr o := by
  obtain ⟨line₀, hline₀, hbytes⟩ := hfirst.resolve_left hdata
  cases m with
  | zero =>
    constructor
    · exact fun ⟨line, hline, _⟩ => absurd hline List.not_mem_nil
    · exact fun ⟨o, ho, _⟩ => absurd ho List.not_mem_nil
  | succ m =>
    have htake : ∀ o ∈ reads.take m, LineRead o := fun o ho => h o (List.mem_of_mem_take ho)
    rw [UnsubscribeArrived, List.take_succ_cons, arrived_cons, hbytes, List.append_assoc,
      List.singleton_append, completeLines_line hline₀, List.tail_cons, Nat.add_sub_cancel]
    constructor
    · rintro ⟨line, hline, hframe⟩
      obtain ⟨o, ho, hfree, ho'⟩ := (mem_completeLines_arrived htake).mp hline
      exact ⟨o, ho, line, hfree, ho', hframe⟩
    · rintro ⟨o, ho, line, hfree, ho', hframe⟩
      exact ⟨line, (mem_completeLines_arrived htake).mpr ⟨o, ho, hfree, ho'⟩, hframe⟩

/-- **A cut into the lines does not matter**, wherever reads find nothing after the first. -/
theorem inStep_of_lineReads {first : Observed} (hbytes : first.bytes = sub ++ [newline])
    (hsub : newline ∉ sub) (hfits : sub.length < maxLineBytes) (h : ∀ o ∈ reads, LineRead o)
    (hack : out.ackWritten = true) (hgoes : ∀ n, (out.tryRecv n).goesOn = true) :
    InStep fromStr out sub (first :: reads) := by
  have hfirst : LineRead first := Or.inr ⟨sub, hsub, hbytes⟩
  have hdata : first ≠ .wouldBlock := by
    rintro rfl
    exact absurd hbytes.symm (by simp [Observed.bytes])
  have hreads : requestReads (first :: reads) = [] := requestReads_of_line hbytes reads
  have hlater : laterReads (first :: reads) = reads := by
    rw [laterReads, hreads]
    rfl
  -- the buffer is empty before every read
  have hends (m : ℕ) : EndsWith fromStr out [] 1 reads m ↔
      ∃ before o after, reads = before ++ o :: after ∧ m = before.length + 2 ∧
        UnsubscribeRead fromStr o := by
    constructor
    · rintro ⟨before, o, after, rfl, hm, hends⟩
      rw [foldl_buffered_nil fun o' ho' => h o' (List.mem_append_left _ ho'),
        (h o (by simp)).ends_iff (hgoes m)] at hends
      exact ⟨before, o, after, rfl, by omega, hends⟩
    · rintro ⟨before, o, after, rfl, hm, hread⟩
      refine ⟨before, o, after, rfl, by omega, ?_⟩
      rwa [foldl_buffered_nil fun o' ho' => h o' (List.mem_append_left _ ho'),
        (h o (by simp)).ends_iff (hgoes m)]
  refine ⟨by rw [hreads]; exact List.not_mem_nil, hfits, hack, ?_, ?_⟩
  · rw [hreads, hlater]
    intro m _ hm
    obtain ⟨before, o, after, rfl, rfl, hread⟩ := (hends m).mp hm
    rw [unsubscribeArrived_iff hfirst hdata h]
    refine ⟨o, ?_, hread⟩
    rw [Nat.add_sub_assoc (by omega), List.take_append]
    simp
  · rw [hreads, hlater]
    intro m _ hm hbefore
    rw [unsubscribeArrived_iff hfirst hdata h] at hm
    obtain ⟨o, ho, hread⟩ := hm
    obtain ⟨i, hi, rfl⟩ := List.mem_iff_getElem.mp ho
    rw [List.length_take] at hi
    rw [List.getElem_take] at hread
    -- with an earlier read, the line would have arrived before
    have hlast : ¬i < m - 1 - 1 := fun hlt => hbefore (m - 1) (by omega)
      ((unsubscribeArrived_iff hfirst hdata h (m - 1)).mpr ⟨reads[i], List.mem_iff_getElem.mpr
        ⟨i, by rw [List.length_take]; omega, List.getElem_take⟩, hread⟩)
    refine (hends m).mpr ⟨reads.take i, reads[i], reads.drop (i + 1), ?_, ?_, hread⟩
    · rw [List.getElem_cons_drop, List.take_append_drop]
    · rw [List.length_take]
      omega

end InStep

/-! ### A client that subscribes and unsubscribes -/

/-- The text of a request to subscribe. -/
def subscribeText : List Char :=
  "\x7b\"jsonrpc\":\"2.0\",\"method\":\"subscribe\"\x7d".toList

/-- The text of a request to unsubscribe. -/
def unsubscribeText : List Char :=
  "\x7b\"jsonrpc\":\"2.0\",\"method\":\"unsubscribe\"\x7d".toList

/-- The request that is in it. -/
def requestOf (method : String) : Value :=
  .object [("jsonrpc", .string "2.0"), ("method", .string method)]

/-- What `serde_json` makes of the two. -/
def parseFrame (s : List Char) : Option Value :=
  if s = subscribeText then some (requestOf Method.subscribe)
  else if s = unsubscribeText then some (requestOf Method.unsubscribe)
  else none

/-- A read of bytes. -/
def readOf : List UInt8 → Observed
  | [] => .wouldBlock
  | byte :: more => .data byte more

/-- A read finds what it is said to find. -/
theorem bytes_readOf (bs : List UInt8) : (readOf bs).bytes = bs := by
  cases bs with
  | nil => rfl
  | cons byte more => rfl

/-- A subscriber for which there are no events. -/
def quiet : Outgoing :=
  ⟨true, fun _ => .empty⟩

/-- The first line is a request to subscribe. -/
theorem isSubscribe_subscribeText : IsSubscribe parseFrame (encode subscribeText) where
  notMem := by decide +kernel
  exists_request := by
    have htext : encode subscribeText ++ [newline] = encode (subscribeText ++ ['\n']) := by
      rw [encode, encode, List.flatMap_append]
      rfl
    have htrim : Watcher.trim (subscribeText ++ ['\n']) = subscribeText := by decide +kernel
    refine ⟨subscribeText ++ ['\n'], requestOf Method.subscribe, ?_, ?_, ?_, rfl⟩
    · rw [htext, fromUtf8_encode]
    · rw [htrim]
      decide +kernel
    · rw [htrim]
      exact if_pos rfl

/-- The second one has no line feed within. -/
theorem notMem_unsubscribeText : newline ∉ encode unsubscribeText := by
  decide +kernel

/-- The second one is an unsubscribe frame. -/
theorem isUnsubscribeFrame_unsubscribeText :
    isUnsubscribeFrame parseFrame (fromUtf8Lossy (encode unsubscribeText)) = true := by
  rw [fromUtf8Lossy_encode]
  decide +kernel

/-- The two requests in reads of their own, with nothing to read in between. -/
theorem streams_twoReads :
    Streams parseFrame quiet [readOf (encode subscribeText ++ [newline]), .wouldBlock,
      readOf (encode unsubscribeText ++ [newline])] := by
  have hlines : ∀ o ∈ [Observed.wouldBlock, readOf (encode unsubscribeText ++ [newline])],
      LineRead o := by
    rw [List.forall_mem_cons, List.forall_mem_singleton]
    exact ⟨Or.inl rfl, Or.inr ⟨_, notMem_unsubscribeText, bytes_readOf _⟩⟩
  have hbytes : arrived [readOf (encode subscribeText ++ [newline]), .wouldBlock,
      readOf (encode unsubscribeText ++ [newline])] =
      encode subscribeText ++ newline :: (encode unsubscribeText ++ [newline]) := by
    rw [arrived_cons, arrived_cons, arrived_cons, bytes_readOf, bytes_readOf, List.append_assoc]
    exact congrArg _ (congrArg _ (List.append_nil _))
  exact (streams_iff isSubscribe_subscribeText hbytes).mpr (inStep_of_lineReads (bytes_readOf _)
    isSubscribe_subscribeText.notMem (by decide +kernel) hlines rfl fun _ => rfl)

/-- The two requests in one read: the second is lost, and the daemon streams on. -/
theorem not_streams :
    ¬∀ (sub more : List UInt8) (reads : List Observed), IsSubscribe parseFrame sub →
      arrived reads = sub ++ newline :: more → Streams parseFrame quiet reads := by
  intro h
  have hbytes : arrived [readOf (encode subscribeText ++
      newline :: (encode unsubscribeText ++ [newline]))] =
      encode subscribeText ++ newline :: (encode unsubscribeText ++ [newline]) := by
    rw [arrived_cons, bytes_readOf]
    exact List.append_nil _
  obtain ⟨n, hn, hfirst⟩ := h _ _ _ isSubscribe_subscribeText hbytes
  have hreads : requestReads [readOf (encode subscribeText ++
      newline :: (encode unsubscribeText ++ [newline]))] = [] :=
    requestReads_of_line (bytes_readOf _) []
  -- nothing is left to read when the streaming begins
  have hbeyond : 1 < n := by
    rw [handleClient_eq isSubscribe_subscribeText hbytes, laterReads, hreads,
      if_pos ⟨List.not_mem_nil, by decide +kernel, rfl⟩, subscribeLoop_eq] at hn
    rw [← Handled.streamed.inj hn]
    exact lt_made_settle_nil [] 1
  rcases hfirst with ⟨hle, -⟩ | ⟨-, hnone⟩
  · exact absurd hbeyond (Nat.not_lt.mpr hle)
  · refine hnone 1 (Nat.le_refl 1) ⟨encode unsubscribeText, ?_, isUnsubscribeFrame_unsubscribeText⟩
    rw [List.take_succ_cons, List.take_zero, hbytes,
      completeLines_line isSubscribe_subscribeText.notMem,
      completeLines_line notMem_unsubscribeText]
    exact List.mem_singleton_self _

end Agentd.Router
