/-
**Command lines out of packets.**

* `read_packet`, `parse_client_queued` — what a connection does with the bytes of one read.
* `frame` — the same on the bytes themselves; `parse_refines` says that the queue adds nothing.
* `frame_eq` — **a read hands over the lines that its bytes close**, and drops an open line that has
  grown too long.
* `receive_lines` — streams whose lines are short are framed alike, however they are read.
* `exists_overlong` — a stream with a long line is not.
-/

import PtlinkIrcd.Lib.Lines
import PtlinkIrcd.Net.Dbuf

namespace PtlinkIrcd

open Lib

def READBUF_SIZE : Nat := 16384
def CLIENT_FLOOD : Nat := 2560
def SBSD_MAX_CLIENT : Nat := 6090

/-- What the lines handed over so far have made of a connection. -/
structure Handler where
  /-- `client_dopacket` returns `CLIENT_EXITED` for the last of them. -/
  exits : List Text → Bool
  /-- `IsPerson`. -/
  person : List Text → Bool
  /-- `IsFloodEx` or `IsAnOper`. -/
  exempt : List Text → Bool

/-- A connection that is no server's, as far as its queue goes. -/
structure Connection where
  recvQ : DBuf
  /-- `FLAGS_NONL`. -/
  nonl : Bool
  /-- The lines handed to `client_dopacket`. -/
  handed : List Text
  /-- A command closed the connection. -/
  exited : Bool
  /-- The length of the queue did. -/
  flooded : Bool

namespace Connection

def fresh : Connection := ⟨.empty, false, [], false, false⟩

/-- The loop of `parse_client_queued`, for a client with flood allowance; every round takes a byte
off the queue, which is the fuel. -/
def parse_client_queued (h : Handler) : Nat → Connection → Connection
  | 0, c => c
  | fuel + 1, c =>
    if c.recvQ.length = 0 || c.nonl then c
    else
      let msg := c.recvQ.getmsg READBUF_SIZE
      if msg.2 = [] then
        if msg.1.length < 510 then { c with recvQ := msg.1, nonl := true }
        else { c with recvQ := msg.1.delete msg.1.length }
      else
        let c := { c with recvQ := msg.1, handed := c.handed ++ [msg.2] }
        if h.exits c.handed then { c with exited := true } else parse_client_queued h fuel c

/-- `read_packet` of a read that returned `packet`. -/
def read_packet (h : Handler) (c : Connection) (packet : Text) : Connection :=
  if c.exited || c.flooded then c
  else if h.person c.handed && decide (SBSD_MAX_CLIENT < c.recvQ.length) then
    -- nothing is read, which ends the connection
    { c with flooded := true }
  else
    let c := { c with nonl := false, recvQ := c.recvQ.put packet }
    if h.person c.handed && !h.exempt c.handed && decide (CLIENT_FLOOD < c.recvQ.length) then
      { c with flooded := true }
    else c.parse_client_queued h c.recvQ.length

def receive (h : Handler) (reads : List Text) : Connection := reads.foldl (read_packet h) fresh

end Connection

/-- The reads that bring a stream. -/
structure Reads (stream : Text) (reads : List Text) : Prop where
  whole : reads.flatten = stream
  fit : ∀ packet ∈ reads, packet ≠ [] ∧ packet.length ≤ READBUF_SIZE

/-! ### On the bytes -/

/-- `parse_client_queued` on the bytes of the queue: what stays in the queue, the lines handed over
and whether the last of them closed the connection. -/
def frame (exits : List Text → Bool) : Nat → Text → List Text → Text × List Text × Bool
  | 0, q, handed => (q, handed, false)
  | fuel + 1, q, handed =>
    if q = [] then (q, handed, false)
    else
      let next := DBuf.nextLine (q.dropWhile isEol) READBUF_SIZE
      if next.1 = [] then (if next.2.length < 510 then next.2 else [], handed, false)
      else if exits (handed ++ [next.1]) then (next.2, handed ++ [next.1], true)
      else frame exits fuel next.2 (handed ++ [next.1])

/-- **The queue adds nothing**: the loop does what it does on the bytes that the queue holds. -/
theorem parse_refines (h : Handler) (fuel : Nat) {c : Connection} {q : Text} (holds : c.recvQ.Holds q)
    (ready : c.nonl = false) (open_ : c.exited = false) :
    let framed := frame h.exits fuel q c.handed
    let after := c.parse_client_queued h fuel
    after.handed = framed.2.1 ∧ after.exited = framed.2.2 ∧ after.flooded = c.flooded ∧
      after.recvQ.Holds framed.1 := by
  induction fuel generalizing c q with
  | zero => exact ⟨rfl, open_, rfl, holds⟩
  | succ fuel ih =>
    unfold frame Connection.parse_client_queued
    simp only []
    obtain ⟨line, rest⟩ := holds.getmsg READBUF_SIZE
    by_cases none_ : q = []
    · have zero : c.recvQ.length = 0 := holds.length.trans (congrArg List.length none_)
      rw [if_pos none_, if_pos (by simp [zero])]
      exact ⟨rfl, open_, rfl, holds⟩
    · have some_ : c.recvQ.length ≠ 0 := fun zero =>
        none_ (List.length_eq_zero_iff.mp (holds.length.symm.trans zero))
      rw [if_neg none_, if_neg (by simp [some_, ready]), line]
      split
      · rw [rest.length]
        split
        · exact ⟨rfl, open_, rfl, rest⟩
        · exact ⟨rfl, open_, rfl, rest.length ▸ rest.clear⟩
      · split
        · exact ⟨rfl, rfl, rfl, rest⟩
        · exact ih (c := { c with
            recvQ := (c.recvQ.getmsg READBUF_SIZE).1
            handed := c.handed ++ [_] }) rest ready open_

/-! ### Lines -/

/-- The lines that a read closes, handed over until one of them closes the connection. -/
def serve (exits : List Text → Bool) : List Text → List Text → List Text × Bool
  | handed, [] => (handed, false)
  | handed, line :: lines =>
    if exits (handed ++ [line]) then (handed ++ [line], true) else serve exits (handed ++ [line]) lines

/-- Every line that is handed over is shorter than `n`. -/
def FitsIn (n : Nat) (exits : List Text → Bool) : List Text → List Text → Prop
  | _, [] => True
  | handed, line :: lines =>
    line.length < n ∧ (exits (handed ++ [line]) = false → FitsIn n exits (handed ++ [line]) lines)

section Serving

variable {exits : List Text → Bool} {handed lines more : List Text} {n m : Nat}

theorem serve_cons (exits : List Text → Bool) (handed : List Text) (line : Text)
    (lines : List Text) : serve exits handed (line :: lines) =
      if exits (handed ++ [line]) then (handed ++ [line], true)
      else serve exits (handed ++ [line]) lines := rfl

theorem fitsIn_cons {line : Text} : FitsIn n exits handed (line :: lines) ↔
    line.length < n ∧ (exits (handed ++ [line]) = false → FitsIn n exits (handed ++ [line]) lines) :=
  Iff.rfl

theorem serve_append (lines more handed : List Text) :
    serve exits handed (lines ++ more) =
      if (serve exits handed lines).2 then serve exits handed lines
      else serve exits (serve exits handed lines).1 more := by
  induction lines generalizing handed with
  | nil => rfl
  | cons line lines ih =>
    rw [List.cons_append, serve_cons, serve_cons]
    by_cases out : exits (handed ++ [line]) = true
    · rw [if_pos out, if_pos out, if_pos rfl]
    · rw [if_neg out, if_neg out, ih]

theorem serve_open (open_ : (serve exits handed lines).2 = false) :
    (serve exits handed lines).1 = handed ++ lines := by
  induction lines generalizing handed with
  | nil => exact (List.append_nil _).symm
  | cons line lines ih =>
    rw [serve_cons] at open_ ⊢
    split at open_
    · cases open_
    · rename_i stays
      rw [if_neg stays, ih open_, List.append_assoc]
      rfl

theorem FitsIn.mono (le : n ≤ m) (fits : FitsIn n exits handed lines) :
    FitsIn m exits handed lines := by
  induction lines generalizing handed with
  | nil => trivial
  | cons line lines ih => exact ⟨Nat.lt_of_lt_of_le fits.1 le, fun stays => ih (fits.2 stays)⟩

theorem fitsIn_append : FitsIn n exits handed (lines ++ more) ↔ FitsIn n exits handed lines ∧
    ((serve exits handed lines).2 = false → FitsIn n exits (handed ++ lines) more) := by
  induction lines generalizing handed with
  | nil =>
    rw [List.append_nil]
    exact ⟨fun fits => ⟨trivial, fun _ => fits⟩, fun fits => fits.2 rfl⟩
  | cons line lines ih =>
    have assoc : handed ++ [line] ++ lines = handed ++ line :: lines := List.append_assoc ..
    rw [List.cons_append, fitsIn_cons, fitsIn_cons, serve_cons]
    cases out : exits (handed ++ [line]) with
    | true =>
      exact ⟨fun fits => ⟨⟨fits.1, fun stays => nomatch stays⟩, fun stays => nomatch stays⟩,
        fun fits => ⟨fits.1.1, fun stays => nomatch stays⟩⟩
    | false =>
      refine ⟨fun fits => ?_, fun fits => ?_⟩
      · obtain ⟨first, rest⟩ := ih.mp (fits.2 rfl)
        exact ⟨⟨fits.1, fun _ => first⟩, fun stays => assoc ▸ rest stays⟩
      · exact ⟨fits.1.1, fun _ => ih.mpr ⟨fits.1.2 rfl, fun stays => assoc ▸ fits.2 stays⟩⟩

/-- **The first line that does not fit.** -/
theorem exists_of_not_fitsIn (long : ¬ FitsIn n exits handed lines) :
    ∃ before line after, lines = before ++ line :: after ∧ FitsIn n exits handed before ∧
      (serve exits handed before).2 = false ∧ n ≤ line.length := by
  induction lines generalizing handed with
  | nil => exact absurd trivial long
  | cons line lines ih =>
    by_cases short : line.length < n
    · have stays : exits (handed ++ [line]) = false := by
        by_contra out
        exact long ⟨short, fun stays => absurd stays out⟩
      obtain ⟨before, other, after, split_, fits, open_, tooLong⟩ :=
        ih fun fits => long ⟨short, fun _ => fits⟩
      refine ⟨line :: before, other, after, by rw [split_]; rfl, ⟨short, fun _ => fits⟩, ?_, tooLong⟩
      rw [serve_cons, stays, if_neg Bool.false_ne_true]
      exact open_
    · exact ⟨[], line, lines, rfl, trivial, rfl, Nat.le_of_not_lt short⟩

theorem mem_serve {line : Text} (member : line ∈ (serve exits handed lines).1) :
    line ∈ handed ∨ line ∈ lines := by
  induction lines generalizing handed with
  | nil => exact .inl member
  | cons first lines ih =>
    rw [serve_cons] at member
    split at member
    · rcases List.mem_append.mp member with old | new
      · exact .inl old
      · exact .inr (List.mem_singleton.mp new ▸ List.mem_cons_self)
    · rcases ih member with old | new
      · rcases List.mem_append.mp old with old | new
        · exact .inl old
        · exact .inr (List.mem_singleton.mp new ▸ List.mem_cons_self)
      · exact .inr (List.mem_cons_of_mem _ new)

end Serving

/-! ### One read -/

/-- What the queue keeps of an open line. -/
def keep (rest : Text) : Text := if rest.length < 510 then rest else []

/-- **A read hands over the lines that it closes**, if they fit into the buffer. -/
theorem frame_eq (exits : List Text → Bool) (fuel : Nat) (q : Text) (enough : q.length ≤ fuel)
    (handed : List Text)
    (fits : FitsIn READBUF_SIZE exits handed (Lines.feed isEol .start q).closed) :
    (frame exits fuel q handed).2 = serve exits handed (Lines.feed isEol .start q).closed ∧
      ((frame exits fuel q handed).2.2 = false →
        (frame exits fuel q handed).1 = keep (Lines.feed isEol .start q).rest) := by
  induction fuel generalizing q handed with
  | zero =>
    obtain rfl : q = [] := List.length_eq_zero_iff.mp (Nat.le_zero.mp enough)
    exact ⟨rfl, fun _ => rfl⟩
  | succ fuel ih =>
    unfold frame
    by_cases none_ : q = []
    · subst none_
      exact ⟨rfl, fun _ => rfl⟩
    · rw [if_neg none_]
      have skip : Lines.feed isEol .start (q.dropWhile isEol) = Lines.feed isEol .start q :=
        Lines.feed_dropWhile [] q
      have le : (q.dropWhile isEol).length ≤ q.length := (List.dropWhile_suffix _).length_le
      have head : ∀ c t, q.dropWhile isEol = c :: t → isEol c = false := fun c t same => by
        have first := List.head?_dropWhile_not isEol q
        rw [same] at first
        simpa using first
      rw [← skip] at fits ⊢
      generalize q.dropWhile isEol = q' at fits le head ⊢
      have parts : q'.takeWhile (!isEol ·) ++ q'.dropWhile (!isEol ·) = q' :=
        List.takeWhile_append_dropWhile
      have plain : ∀ c ∈ q'.takeWhile (!isEol ·), isEol c = false := fun c member => by
        simpa using List.mem_takeWhile_imp member
      generalize q'.takeWhile (!isEol ·) = line at parts plain
      cases after : q'.dropWhile (!isEol ·) with
      | nil =>
        rw [after, List.append_nil] at parts
        subst parts
        rw [DBuf.nextLine_word plain, Lines.feed_word plain]
        exact ⟨rfl, fun _ => rfl⟩
      | cons c t =>
        have isEnd : isEol c = true := by
          have first := List.head?_dropWhile_not (!isEol ·) q'
          rw [after] at first
          simpa using first
        have some_ : line ≠ [] := fun gone => by
          rw [gone, after, List.nil_append] at parts
          exact absurd (isEnd.symm.trans (head c t parts.symm)) (by simp)
        have fed : Lines.feed isEol .start q' =
            ⟨line :: (Lines.feed isEol .start t).closed, (Lines.feed isEol .start t).rest⟩ := by
          rw [← parts, after]
          exact (Lines.feed_line plain some_ isEnd [] t).trans (Lines.feed_closed [line] [] t)
        rw [fed] at fits ⊢
        obtain ⟨short, rest⟩ := fits
        have left : (t.dropWhile isEol).length ≤ fuel := by
          have shorter : (t.dropWhile isEol).length ≤ t.length := (List.dropWhile_suffix _).length_le
          have total := congrArg List.length parts
          rw [after, List.length_append, List.length_cons] at total
          omega
        have skip' : Lines.feed isEol .start (t.dropWhile isEol) = Lines.feed isEol .start t :=
          Lines.feed_dropWhile [] t
        rw [← parts, after, DBuf.nextLine_line plain isEnd short]
        simp only []
        rw [if_neg some_, serve_cons]
        cases out : exits (handed ++ [line]) with
        | true => exact ⟨rfl, fun stays => nomatch stays⟩
        | false =>
          obtain ⟨same, queue⟩ := ih (t.dropWhile isEol) left (handed ++ [line])
            (skip' ▸ rest out)
          rw [skip'] at same queue
          exact ⟨same, queue⟩

theorem keep_length (rest : Text) : (keep rest).length < 510 := by
  unfold keep
  split
  · assumption
  · exact Nat.zero_lt_succ _

theorem mem_keep {rest : Text} {c : Char} (member : c ∈ keep rest) : c ∈ rest := by
  unfold keep at member
  split at member
  · exact member
  · exact absurd member List.not_mem_nil

namespace Connection

variable {h : Handler} {c : Connection} {q packet : Text}

theorem read_packet_closed (closed : c.exited = true ∨ c.flooded = true) (packet : Text) :
    c.read_packet h packet = c := by
  unfold read_packet
  rw [if_pos (by simpa using closed)]

/-- **One read of an open connection.** -/
theorem read_packet_eq (holds : c.recvQ.Holds q) (open_ : c.exited = false)
    (calm : (c.read_packet h packet).flooded = false)
    (fits : FitsIn READBUF_SIZE h.exits c.handed (Lines.feed isEol .start (q ++ packet)).closed) :
    let served := serve h.exits c.handed (Lines.feed isEol .start (q ++ packet)).closed
    (c.read_packet h packet).handed = served.1 ∧ (c.read_packet h packet).exited = served.2 ∧
      (served.2 = false → (c.read_packet h packet).recvQ.Holds
        (keep (Lines.feed isEol .start (q ++ packet)).rest)) := by
  have put := holds.put packet
  unfold read_packet at calm ⊢
  by_cases flooded : c.flooded = true
  · rw [if_pos (by simp [flooded])] at calm
    exact absurd (flooded.symm.trans calm) (by simp)
  rw [if_neg (by simp [open_, flooded])] at calm ⊢
  simp only [] at calm ⊢
  split at calm
  · cases calm
  rename_i reads
  rw [if_neg reads]
  split at calm
  · cases calm
  rename_i short
  rw [if_neg short]
  obtain ⟨handed, exited, -, queue⟩ := parse_refines h (c.recvQ.put packet).length
    (c := { c with nonl := false, recvQ := c.recvQ.put packet }) put rfl open_
  obtain ⟨same, kept⟩ := frame_eq h.exits (c.recvQ.put packet).length (q ++ packet)
    (Nat.le_of_eq put.length.symm) c.handed fits
  rw [same] at handed exited kept
  exact ⟨handed, exited, fun stays => kept stays ▸ queue⟩

theorem read_packet_calm (packet : Text) (holds : c.recvQ.Holds q) (open_ : c.exited = false)
    (calm : c.flooded = false) (short : q.length + packet.length ≤ CLIENT_FLOOD) :
    (c.read_packet h packet).flooded = false := by
  have put := holds.put packet
  have length : (c.recvQ.put packet).length = q.length + packet.length :=
    put.length.trans List.length_append
  have little : ¬ SBSD_MAX_CLIENT < c.recvQ.length := by
    rw [holds.length]
    unfold SBSD_MAX_CLIENT
    unfold CLIENT_FLOOD at short
    omega
  unfold read_packet
  rw [if_neg (by simp [open_, calm]), if_neg (by simp [little])]
  simp only []
  rw [length, if_neg (by simp [Nat.not_lt.mpr short])]
  obtain ⟨-, -, same, -⟩ := parse_refines h (q.length + packet.length)
    (c := { c with nonl := false, recvQ := c.recvQ.put packet }) put rfl open_
  exact same.trans calm

theorem mem_parse_client_queued (fuel : Nat) {line : Text} (member : line ∈ c.handed) :
    line ∈ (c.parse_client_queued h fuel).handed := by
  induction fuel generalizing c with
  | zero => exact member
  | succ fuel ih =>
    unfold parse_client_queued
    simp only []
    split
    · exact member
    · split
      · split <;> exact member
      · split
        · exact List.mem_append_left _ member
        · exact ih (List.mem_append_left _ member)

theorem mem_read_packet (packet : Text) {line : Text} (member : line ∈ c.handed) :
    line ∈ (c.read_packet h packet).handed := by
  unfold read_packet
  simp only []
  split
  · exact member
  · split
    · exact member
    · split
      · exact member
      · exact mem_parse_client_queued _ member

theorem mem_foldl (reads : List Text) {line : Text} (member : line ∈ c.handed) :
    line ∈ (reads.foldl (read_packet h) c).handed := by
  induction reads generalizing c with
  | nil => exact member
  | cons packet reads ih => exact ih (mem_read_packet packet member)

theorem flooded_foldl (reads : List Text) (flooded : c.flooded = true) :
    reads.foldl (read_packet h) c = c := by
  induction reads with
  | nil => rfl
  | cons packet reads ih => rw [List.foldl_cons, read_packet_closed (.inr flooded), ih]

end Connection

/-! ### Streams of short lines -/

/-- **What a connection has made of a stream of short lines.** -/
structure Framed (h : Handler) (p : Text) (c : Connection) : Prop where
  handed : c.handed = (serve h.exits [] (Lines.feed isEol .start p).closed).1
  exited : c.exited = (serve h.exits [] (Lines.feed isEol .start p).closed).2
  /-- The queue holds the open line, or that line is lost: it has grown too long. -/
  queue : c.exited = false → ∃ q, c.recvQ.Holds q ∧ q.length < 510 ∧
    (∀ d ∈ q, isEol d = false) ∧ (q = (Lines.feed isEol .start p).rest ∨
      510 ≤ (Lines.feed isEol .start p).rest.length)

section Short

variable {h : Handler} {p packet : Text} {c : Connection}

theorem feed_rest_word (t : Text) : ∀ d ∈ (Lines.feed isEol .start t).rest, isEol d = false :=
  Lines.rest_word (fun _ member => absurd member List.not_mem_nil) t

theorem feed_rest (p packet : Text) :
    Lines.feed isEol .start ((Lines.feed isEol .start p).rest ++ packet) =
      Lines.feed isEol ⟨[], (Lines.feed isEol .start p).rest⟩ packet := by
  rw [Lines.feed_append, Lines.feed_word (feed_rest_word p)]
  rfl

theorem feed_packet (p packet : Text) : Lines.feed isEol .start (p ++ packet) =
    ⟨(Lines.feed isEol .start p).closed ++
        (Lines.feed isEol ⟨[], (Lines.feed isEol .start p).rest⟩ packet).closed,
      (Lines.feed isEol ⟨[], (Lines.feed isEol .start p).rest⟩ packet).rest⟩ := by
  rw [Lines.feed_append]
  exact Lines.feed_closed ..

/-- **One more read.** -/
theorem Framed.read (framed : Framed h p c)
    (fits : FitsIn 510 h.exits [] (Lines.feed isEol .start (p ++ packet)).closed)
    (calm : (c.read_packet h packet).flooded = false) :
    Framed h (p ++ packet) (c.read_packet h packet) := by
  obtain ⟨handed, exited, queue⟩ := framed
  have parts := feed_packet p packet
  generalize feed : Lines.feed isEol .start (p ++ packet) = whole at fits parts
  cases open_ : c.exited with
  | true =>
    have same : serve h.exits [] whole.closed =
        serve h.exits [] (Lines.feed isEol .start p).closed := by
      rw [parts, serve_append, ← exited, open_, if_pos rfl]
    rw [Connection.read_packet_closed (.inl open_)]
    exact ⟨by rw [feed, same, handed], by rw [feed, same, exited],
      fun stays => absurd (open_.symm.trans stays) (by simp)⟩
  | false =>
    have stays : (serve h.exits [] (Lines.feed isEol .start p).closed).2 = false :=
      exited.symm.trans open_
    have all : c.handed = (Lines.feed isEol .start p).closed := handed.trans (serve_open stays)
    have served : serve h.exits [] whole.closed = serve h.exits c.handed
        (Lines.feed isEol ⟨[], (Lines.feed isEol .start p).rest⟩ packet).closed := by
      rw [parts, serve_append, stays, if_neg Bool.false_ne_true, ← handed]
    have short : FitsIn 510 h.exits c.handed
        (Lines.feed isEol ⟨[], (Lines.feed isEol .start p).rest⟩ packet).closed := by
      rw [parts] at fits
      rw [all]
      exact (fitsIn_append.mp fits).2 stays
    have fit : FitsIn READBUF_SIZE h.exits c.handed
        (Lines.feed isEol ⟨[], (Lines.feed isEol .start p).rest⟩ packet).closed :=
      short.mono (by unfold READBUF_SIZE; omega)
    obtain ⟨q, holds, little, plain, what⟩ := queue open_
    by_cases same : q = (Lines.feed isEol .start p).rest
    · -- the queue holds the open line
      have fed := feed_rest p packet
      rw [← same] at fed fit served
      rw [← fed] at fit served
      obtain ⟨handed', exited', queue'⟩ := Connection.read_packet_eq holds open_ calm fit
      rw [← served] at handed' exited' queue'
      refine ⟨feed ▸ handed', feed ▸ exited', fun stays' => ⟨_, queue' (exited' ▸ stays'),
        keep_length _, fun d member => feed_rest_word _ d (mem_keep member), ?_⟩⟩
      have rest : (Lines.feed isEol .start (q ++ packet)).rest = whole.rest := by
        rw [fed, parts, same]
      rw [feed, rest]
      unfold keep
      by_cases tiny : whole.rest.length < 510
      · exact .inl (if_pos tiny)
      · exact .inr (Nat.le_of_not_lt tiny)
    · -- the open line is lost, and must not be closed
      have long := what.resolve_left same
      have word : ∀ d ∈ packet, isEol d = false := fun d member => by
        by_contra isEnd
        have some_ : (Lines.feed isEol .start p).rest ≠ [] := fun none_ => by
          rw [none_] at long
          simp at long
        have isEnd : isEol d = true := by simpa using isEnd
        obtain ⟨u, more, closed⟩ := Lines.exists_of_end some_ member isEnd
        rw [closed, fitsIn_cons, List.length_append] at short
        omega
      have fed : Lines.feed isEol .start (q ++ packet) = ⟨[], q ++ packet⟩ :=
        Lines.feed_word (fun d member => (List.mem_append.mp member).elim (plain d) (word d)) _
      rw [Lines.feed_word word] at served parts
      obtain ⟨handed', exited', queue'⟩ := Connection.read_packet_eq holds open_ calm
        (by rw [fed]; trivial)
      rw [fed] at handed' exited' queue'
      refine ⟨feed ▸ handed'.trans (congrArg Prod.fst served.symm),
        feed ▸ exited'.trans (congrArg Prod.snd served.symm), fun _ => ⟨_, queue' rfl,
          keep_length _, fun d member => ?_, .inr ?_⟩⟩
      · exact (List.mem_append.mp (mem_keep member)).elim (plain d) (word d)
      · rw [feed, parts]
        show 510 ≤ ((Lines.feed isEol .start p).rest ++ packet).length
        rw [List.length_append]
        omega

/-- **All reads.** -/
theorem Framed.reads (reads : List Text) (framed : Framed h p c)
    (fits : FitsIn 510 h.exits [] (Lines.feed isEol .start (p ++ reads.flatten)).closed)
    (calm : (reads.foldl (Connection.read_packet h) c).flooded = false) :
    Framed h (p ++ reads.flatten) (reads.foldl (Connection.read_packet h) c) := by
  induction reads generalizing p c with
  | nil =>
    rw [List.flatten_nil, List.append_nil]
    exact framed
  | cons packet reads ih =>
    rw [List.flatten_cons, ← List.append_assoc] at fits ⊢
    rw [List.foldl_cons] at calm ⊢
    have first : (c.read_packet h packet).flooded = false := by
      by_contra flooded
      rw [Connection.flooded_foldl reads (by simpa using flooded)] at calm
      exact flooded calm
    refine ih (framed.read ?_ first) fits calm
    rw [feed_packet (p ++ packet)] at fits
    exact (fitsIn_append.mp fits).1

theorem Framed.fresh (h : Handler) : Framed h [] .fresh :=
  ⟨rfl, rfl, fun _ => ⟨[], .empty, Nat.zero_lt_succ _, fun _ member => absurd member List.not_mem_nil,
    .inl rfl⟩⟩

/-- **A stream of short lines is framed into its lines**, however it is read. -/
theorem receive_lines {stream : Text} {reads : List Text} (brings : Reads stream reads)
    (fits : FitsIn 510 h.exits [] (Lines.feed isEol .start stream).closed)
    (calm : (Connection.receive h reads).flooded = false) :
    (Connection.receive h reads).handed =
      (serve h.exits [] (Lines.feed isEol .start stream).closed).1 := by
  have whole : [] ++ reads.flatten = stream := brings.whole
  have framed := Framed.reads reads (.fresh h) (whole.symm ▸ fits) calm
  rw [whole] at framed
  exact framed.handed

end Short

/-! ### Streams with a long line -/

/-- A connection between two reads, whose queue has not closed it. -/
structure Quiet (c : Connection) : Prop where
  calm : c.flooded = false
  queue : c.exited = false → ∃ q, c.recvQ.Holds q ∧ q.length < 510 ∧ ∀ d ∈ q, isEol d = false

section Long

variable {h : Handler} {c : Connection} {q packet : Text}

/-- **A read that fits**, of a connection that is open. -/
theorem Quiet.read (quiet : Quiet c) (packet : Text) (holds : c.recvQ.Holds q)
    (open_ : c.exited = false) (little : q.length < 510) (short : packet.length ≤ 1020)
    (fits : FitsIn READBUF_SIZE h.exits c.handed (Lines.feed isEol .start (q ++ packet)).closed) :
    let served := serve h.exits c.handed (Lines.feed isEol .start (q ++ packet)).closed
    Quiet (c.read_packet h packet) ∧ (c.read_packet h packet).handed = served.1 ∧
      (c.read_packet h packet).exited = served.2 ∧
      (served.2 = false → (c.read_packet h packet).recvQ.Holds
        (keep (Lines.feed isEol .start (q ++ packet)).rest)) := by
  have calm := Connection.read_packet_calm (h := h) packet holds open_ quiet.calm (by
    unfold CLIENT_FLOOD
    omega)
  obtain ⟨handed, exited, queue⟩ := Connection.read_packet_eq holds open_ calm fits
  exact ⟨⟨calm, fun stays => ⟨_, queue (exited ▸ stays), keep_length _, fun d member =>
    feed_rest_word _ d (mem_keep member)⟩⟩, handed, exited, queue⟩

theorem fitsIn_of_forall {exits : List Text → Bool} {n : Nat} {handed lines : List Text}
    (short : ∀ line ∈ lines, line.length < n) : FitsIn n exits handed lines := by
  induction lines generalizing handed with
  | nil => trivial
  | cons line lines ih =>
    exact ⟨short line List.mem_cons_self,
      fun _ => ih fun other member => short other (List.mem_cons_of_mem _ member)⟩

/-- **A read of one byte** hands over a short line or none. -/
theorem Quiet.byte (quiet : Quiet c) (x : Char) : Quiet (c.read_packet h [x]) ∧
    ((∀ line ∈ c.handed, line.length < 510) →
      ∀ line ∈ (c.read_packet h [x]).handed, line.length < 510) := by
  cases open_ : c.exited with
  | true =>
    rw [Connection.read_packet_closed (.inl open_)]
    exact ⟨quiet, id⟩
  | false =>
    obtain ⟨q, holds, little, plain⟩ := quiet.queue open_
    have short : ∀ line ∈ (Lines.feed isEol .start (q ++ [x])).closed, line.length < 510 := by
      rw [Lines.feed_concat, Lines.feed_word plain]
      unfold Lines.push
      split
      · split
        · exact fun line member => absurd member List.not_mem_nil
        · exact fun line member => List.mem_singleton.mp member ▸ little
      · exact fun line member => absurd member List.not_mem_nil
    obtain ⟨next, handed, -, -⟩ := quiet.read [x] (h := h) holds open_ little
      (by simp) (fitsIn_of_forall fun line member =>
        Nat.lt_trans (short line member) (by unfold READBUF_SIZE; omega))
    refine ⟨next, fun before line member => ?_⟩
    rw [handed] at member
    exact (mem_serve member).elim (before line) (short line)

def bytewise (t : Text) : List Text := t.map fun x => [x]

theorem bytewise_flatten (t : Text) : (bytewise t).flatten = t := by
  unfold bytewise
  induction t with
  | nil => rfl
  | cons x t ih => rw [List.map_cons, List.flatten_cons, ih]; rfl

theorem bytewise_fit {t packet : Text} (member : packet ∈ bytewise t) :
    packet ≠ [] ∧ packet.length ≤ READBUF_SIZE := by
  obtain ⟨x, -, rfl⟩ := List.mem_map.mp member
  exact ⟨by simp, by unfold READBUF_SIZE; simp⟩

/-- **Byte by byte, only short lines are handed over.** -/
theorem Quiet.bytes (quiet : Quiet c) (t : Text) :
    Quiet ((bytewise t).foldl (Connection.read_packet h) c) ∧
      ((∀ line ∈ c.handed, line.length < 510) →
        ∀ line ∈ ((bytewise t).foldl (Connection.read_packet h) c).handed, line.length < 510) := by
  induction t generalizing c with
  | nil => exact ⟨quiet, id⟩
  | cons x t ih =>
    obtain ⟨first, short⟩ := quiet.byte (h := h) x
    obtain ⟨rest, shorter⟩ := ih first
    exact ⟨rest, fun before => shorter (short before)⟩

theorem quiet_fresh : Quiet .fresh :=
  ⟨rfl, fun _ => ⟨[], .empty, Nat.zero_lt_succ _, fun _ member => absurd member List.not_mem_nil⟩⟩

/-- **A long line can be handed over**: reads of 510 bytes are thrown away until less than two such
reads are left, and the rest is read with its end. -/
theorem exists_long (n : Nat) {line : Text} (bound : line.length ≤ n) (long : 510 ≤ line.length)
    (plain : ∀ d ∈ line, isEol d = false) {x : Char} (isEnd : isEol x = true) (quiet : Quiet c)
    (open_ : c.exited = false) (empty : c.recvQ.Holds []) : ∃ reads : List Text,
      reads.flatten = line ++ [x] ∧
      (∀ packet ∈ reads, packet ≠ [] ∧ packet.length ≤ READBUF_SIZE) ∧
      Quiet (reads.foldl (Connection.read_packet h) c) ∧
      ∃ tail ∈ (reads.foldl (Connection.read_packet h) c).handed, 510 ≤ tail.length := by
  induction n generalizing line c with
  | zero => omega
  | succ n ih =>
    by_cases one : line.length < 1020
    · have some_ : line ≠ [] := List.length_pos_iff.mp (by omega)
      have length : (line ++ [x]).length = line.length + 1 := List.length_append
      have fed : Lines.feed isEol .start ([] ++ (line ++ [x])) = ⟨[line], []⟩ :=
        Lines.feed_line plain some_ isEnd [] []
      obtain ⟨next, handed, -, -⟩ := quiet.read (line ++ [x]) (h := h) empty open_
        (Nat.zero_lt_succ _) (by omega) (by
          rw [fed]
          refine fitsIn_of_forall fun other member => ?_
          rw [List.mem_singleton.mp member]
          unfold READBUF_SIZE
          omega)
      refine ⟨[line ++ [x]], by simp, fun packet member => ?_, next, line, ?_, long⟩
      · rw [List.mem_singleton.mp member, length]
        unfold READBUF_SIZE
        exact ⟨by simp, by omega⟩
      · show line ∈ (c.read_packet h (line ++ [x])).handed
        rw [handed, fed, serve_cons]
        split <;> exact List.mem_append_right _ List.mem_cons_self
    · have length : (line.take 510).length = 510 := by
        rw [List.length_take]
        omega
      have fed : Lines.feed isEol .start ([] ++ line.take 510) = ⟨[], line.take 510⟩ :=
        Lines.feed_word (fun d member => plain d (List.mem_of_mem_take member)) _
      obtain ⟨next, handed, exited, queue⟩ := quiet.read (line.take 510) (h := h) empty
        open_ (Nat.zero_lt_succ _) (by omega) (by rw [fed]; trivial)
      rw [fed] at handed exited queue
      have lost : keep (line.take 510) = [] := if_neg (by omega)
      have less : (line.drop 510).length ≤ n := by
        rw [List.length_drop]
        omega
      obtain ⟨reads, whole, fit, after, tail, member, tooLong⟩ := ih less
        (by rw [List.length_drop]; omega)
        (fun d member => plain d (List.mem_of_mem_drop member)) next exited (lost ▸ queue rfl)
      refine ⟨line.take 510 :: reads, ?_, fun packet member => ?_, after, tail, member, tooLong⟩
      · rw [List.flatten_cons, whole, ← List.append_assoc, List.take_append_drop]
      · rcases List.mem_cons.mp member with rfl | member
        · unfold READBUF_SIZE
          exact ⟨List.length_pos_iff.mp (by omega), by omega⟩
        · exact fit packet member

/-- **A stream with a long line is not framed alike by all reads.** -/
theorem exists_overlong {stream : Text}
    (long : ¬ FitsIn 510 h.exits [] (Lines.feed isEol .start stream).closed) :
    ∃ reads reads', Reads stream reads ∧ Reads stream reads' ∧
      (Connection.receive h reads).flooded = false ∧
      (Connection.receive h reads').flooded = false ∧
      (Connection.receive h reads).handed ≠ (Connection.receive h reads').handed := by
  obtain ⟨before, line, after, closed, fits, open_, tooLong⟩ := exists_of_not_fitsIn long
  obtain ⟨p, x, s, split_, isEnd, plain, fed⟩ := Lines.exists_of_line closed
  -- byte by byte up to the first long line
  obtain ⟨quiet, -⟩ := quiet_fresh.bytes (h := h) p
  have framed := Framed.reads (bytewise p) (.fresh h)
    (by rw [bytewise_flatten, List.nil_append, fed]; exact fits) quiet.calm
  rw [bytewise_flatten, List.nil_append] at framed
  have stays : ((bytewise p).foldl (Connection.read_packet h) .fresh).exited = false := by
    rw [framed.exited, fed]
    exact open_
  obtain ⟨q, holds, -, -, what⟩ := framed.queue stays
  rw [fed] at what
  obtain rfl : q = [] := what.resolve_right (by simp)
  obtain ⟨reads, whole, fit, next, tail, member, longTail⟩ :=
    exists_long (h := h) line.length (Nat.le_refl _) tooLong plain isEnd quiet stays holds
  obtain ⟨last, -⟩ := next.bytes (h := h) s
  obtain ⟨calm, short⟩ := quiet_fresh.bytes (h := h) stream
  refine ⟨bytewise stream, bytewise p ++ (reads ++ bytewise s),
    ⟨bytewise_flatten stream, fun packet => bytewise_fit⟩, ⟨?_, fun packet member => ?_⟩, calm.calm,
    ?_, fun same => ?_⟩
  · rw [List.flatten_append, List.flatten_append, whole, bytewise_flatten, bytewise_flatten, split_]
    simp
  · rcases List.mem_append.mp member with first | member
    · exact bytewise_fit first
    · rcases List.mem_append.mp member with middle | last
      · exact fit packet middle
      · exact bytewise_fit last
  · unfold Connection.receive
    rw [List.foldl_append, List.foldl_append]
    exact last.calm
  · have handed : tail ∈ (Connection.receive h (bytewise p ++ (reads ++ bytewise s))).handed := by
      unfold Connection.receive
      rw [List.foldl_append, List.foldl_append]
      exact Connection.mem_foldl _ member
    rw [← same] at handed
    have little := short (fun line member => absurd member List.not_mem_nil) tail handed
    omega

end Long

/-! ### All streams -/

/-- **Packet boundaries do not matter exactly for the streams whose lines, up to the one that closes
the connection, are shorter than 510 bytes.** -/
theorem framing_independent (h : Handler) (stream : Text) :
    (∀ reads reads', Reads stream reads → Reads stream reads' →
      (Connection.receive h reads).flooded = false → (Connection.receive h reads').flooded = false →
      (Connection.receive h reads).handed = (Connection.receive h reads').handed) ↔
    FitsIn 510 h.exits [] (Lines.feed isEol .start stream).closed := by
  refine ⟨fun alike => ?_, fun fits reads reads' brings brings' calm calm' => ?_⟩
  · by_contra long
    obtain ⟨reads, reads', brings, brings', calm, calm', differ⟩ := exists_overlong (h := h) long
    exact differ (alike reads reads' brings brings' calm calm')
  · rw [receive_lines brings fits calm, receive_lines brings' fits calm']

def sampleHandler : Handler := ⟨fun _ => false, fun _ => false, fun _ => false⟩

/-- **A line of 510 bytes** is handed over when it comes with its end, and lost when its end comes
later. -/
theorem not_framing_independent : ¬ ∀ (h : Handler) (stream : Text) (reads reads' : List Text),
    Reads stream reads → Reads stream reads' →
    (Connection.receive h reads).flooded = false → (Connection.receive h reads').flooded = false →
    (Connection.receive h reads).handed = (Connection.receive h reads').handed := by
  intro alike
  have differ := alike sampleHandler (List.replicate 510 'a' ++ ['\n'])
    [List.replicate 510 'a' ++ ['\n']] [List.replicate 510 'a', ['\n']]
    ⟨by decide +kernel, by decide +kernel⟩ ⟨by decide +kernel, by decide +kernel⟩
    (by decide +kernel) (by decide +kernel)
  exact absurd differ (by decide +kernel)

end PtlinkIrcd
