/-
**Output of a compressed link.**

`send_message` and `send_queued` of `send.c` and `zip_buffer` of `s_zip.c`. The compressor is a
parameter.

* `Deflater`, `Restores` — `deflate` with a partial flush, and that its output inflates to its input.
* `ZipOut` — a link with its compressor, the text that is not compressed yet and the send queue.
* `Carries` — what was handed over and what is queued is the output for some inputs, and these and
  the text in `outbuf` are what was sent; each function keeps it.
* `send_carries` — **nothing is lost on a compressed link**, unless a message is put off for a `LIST`.
* `not_send_carries` — such a message.
-/

import PtlinkIrcd.Model.State
import PtlinkIrcd.Net.Dbuf
import PtlinkIrcd.Net.ZipLink

set_option linter.unusedSectionVars false

namespace PtlinkIrcd

def ZIP_MINIMUM : Nat := 4096

/-! ### The compressor -/

/-- `deflate(zout, Z_PARTIAL_FLUSH)` that takes all of its input, and `inflate` of all that came out
since the start. -/
structure Deflater (σ : Type) where
  start : σ
  deflate : σ → Text → σ × Text
  inflate : Text → Text

namespace Deflater

variable {σ : Type} (z : Deflater σ)

def after (s : σ) (ins : List Text) : σ := ins.foldl (fun s input => (z.deflate s input).1) s

def outputs : σ → List Text → Text
  | _, [] => []
  | s, input :: ins => (z.deflate s input).2 ++ outputs (z.deflate s input).1 ins

/-- **The output inflates to the input.** -/
def Restores : Prop := ∀ ins, z.inflate (z.outputs z.start ins) = ins.flatten

theorem after_concat (s : σ) (ins : List Text) (input : Text) :
    z.after s (ins ++ [input]) = (z.deflate (z.after s ins) input).1 :=
  List.foldl_concat ..

theorem outputs_concat (s : σ) (ins : List Text) (input : Text) :
    z.outputs s (ins ++ [input]) = z.outputs s ins ++ (z.deflate (z.after s ins) input).2 := by
  induction ins generalizing s with
  | nil => exact List.append_nil _
  | cons first ins ih =>
    rw [List.cons_append, outputs, ih, outputs, List.append_assoc]
    rfl

end Deflater

/-! ### The link -/

/-- What the functions ask about the link at a call. -/
structure LinkStatus where
  /-- `IsServer`. -/
  server : Bool
  /-- `CBurst`. -/
  burst : Bool
  /-- `IsDoingList`. -/
  doingList : Bool
  /-- `get_sendq`. -/
  limit : Nat

/-- The output side of a link. -/
structure ZipOut (σ : Type) where
  /-- `zip->out`. -/
  out : σ
  /-- The first `zip->outcount` bytes of `zip->outbuf`. -/
  outbuf : Text
  sendQ : DBuf
  lastsq : Nat
  /-- `IsDead`. -/
  dead : Bool
  /-- `IsSendqPopped`. -/
  popped : Bool
  /-- The bytes that went to the socket. -/
  handed : Text

namespace ZipOut

variable {σ : Type} (z : Deflater σ) (send_list : ZipOut σ → ZipOut σ)

def dead_link (s : ZipOut σ) : ZipOut σ :=
  { s with dead := true, sendQ := s.sendQ.delete s.sendQ.length }

def zip_buffer (burst : Bool) (s : ZipOut σ) (buffer : Option Text) (flush : Bool) :
    ZipOut σ × Text :=
  let outbuf := s.outbuf ++ buffer.getD []
  if !flush && (outbuf.length < ZIP_MINIMUM ||
      (outbuf.length < ZIP_MAXIMUM - BUFSIZE && burst)) then
    ({ s with outbuf := outbuf }, [])
  else
    let zipped := z.deflate s.out outbuf
    ({ s with out := zipped.1, outbuf := [] }, zipped.2)

/-- What is left in `outbuf` goes to the queue; `CBurst` is not asked then. -/
def flush (s : ZipOut σ) : ZipOut σ :=
  let zipped := zip_buffer z false s none true
  { zipped.1 with sendQ := zipped.1.sendQ.put zipped.2 }

/-- A write of `rlen` bytes: `dbuf_delete` and the new `lastsq`. -/
def delivered (s : ZipOut σ) (rlen : Nat) : ZipOut σ :=
  { s with
    handed := s.handed ++ s.sendQ.mapped.take rlen
    sendQ := s.sendQ.delete rlen
    lastsq := (s.sendQ.delete rlen).length / 1024 }

/-- A `LIST` that was put off goes on when the queue is empty. -/
def resumed (s : ZipOut σ) : ZipOut σ :=
  if s.popped && s.sendQ.length = 0 then send_list { s with popped := false } else s

/-- The loop of `send_queued`. Each write gives a number of bytes, or an error; when there are no
more results the socket takes nothing. -/
def drain : Bool → List (Option Nat) → ZipOut σ → ZipOut σ
  | _, [], s => if s.sendQ.length = 0 then s else (s.delivered 0).resumed send_list
  | _, none :: _, s => if s.sendQ.length = 0 then s else s.dead_link
  | more, some wrote :: results, s =>
    if s.sendQ.length = 0 then s
    else
      let len := s.sendQ.mapped.length
      let rlen := min wrote len
      let s := (s.delivered rlen).resumed send_list
      if rlen < len then s
      else if s.sendQ.length = 0 && more then drain false results (flush z s)
      else drain more results s

/-- `send_queued`, with the results of its writes. -/
def send_queued (results : List (Option Nat)) (s : ZipOut σ) : ZipOut σ :=
  if s.dead then s
  else if s.outbuf ≠ [] then
    if s.sendQ.length > 0 then drain z send_list true results s
    else drain z send_list false results (flush z s)
  else drain z send_list false results s

/-- A message goes to `outbuf`, and what is compressed of it to the queue. -/
def stored (burst : Bool) (s : ZipOut σ) (msg : Text) : ZipOut σ :=
  let zipped := zip_buffer z burst s (some msg) false
  if zipped.2 = [] then zipped.1 else { zipped.1 with sendQ := zipped.1.sendQ.put zipped.2 }

/-- `send_message`, with the results of the writes that it comes to. -/
def send_message (status : LinkStatus) (msg : Text) (results : List (Option Nat)) (s : ZipOut σ) :
    ZipOut σ :=
  if s.dead then s
  else if s.sendQ.length > status.limit then
    if status.doingList then { s with popped := true } else s.dead_link
  else
    let s := stored z status.burst s msg
    let SQinK := s.sendQ.length / 1024
    if SQinK > (if status.server then s.lastsq else s.lastsq + 4) then
      send_queued z send_list results s
    else s

end ZipOut

/-! ### Runs -/

/-- A call on the link. A message is a line of `sendbuf`. -/
inductive SendCall where
  | send_message (status : LinkStatus) (msg : { t : Text // t.length ≤ BUFSIZE })
      (results : List (Option Nat))
  | send_queued (results : List (Option Nat))

namespace SendCall

def text : SendCall → Text
  | .send_message _ msg _ => msg.1
  | .send_queued .. => []

def change {σ : Type} (z : Deflater σ) (send_list : ZipOut σ → ZipOut σ) (s : ZipOut σ) :
    SendCall → ZipOut σ
  | .send_message status msg results => s.send_message z send_list status msg.1 results
  | .send_queued results => s.send_queued z send_list results

/-- A message is not put off for a `LIST`: the link is not in the middle of one, or its queue is
within the limit. -/
def Takes {σ : Type} (s : ZipOut σ) : SendCall → Prop
  | .send_message status .. => status.doingList = true → s.sendQ.length ≤ status.limit
  | .send_queued .. => True

end SendCall

/-- A link that is compressed from now on, with `plain` in the queue from before. -/
structure Opened {σ : Type} (z : Deflater σ) (plain : Text) (s : ZipOut σ) : Prop where
  out : s.out = z.start
  outbuf : s.outbuf = []
  queue : s.sendQ.Holds plain
  alive : s.dead = false
  popped : s.popped = false
  handed : s.handed = []

/-- The states that calls lead to, each allowed where it happens. -/
inductive SendRun {σ : Type} (z : Deflater σ) (send_list : ZipOut σ → ZipOut σ) (plain : Text)
    (Allowed : ZipOut σ → SendCall → Prop) : List SendCall → ZipOut σ → Prop
  | start {s : ZipOut σ} (opened : Opened z plain s) : SendRun z send_list plain Allowed [] s
  | call {calls : List SendCall} {s : ZipOut σ} (call : SendCall)
      (before : SendRun z send_list plain Allowed calls s) (allowed : Allowed s call) :
      SendRun z send_list plain Allowed (calls ++ [call]) (call.change z send_list s)

/-! ### What a link carries -/

/-- The link after the inputs `ins` of the compressor, with `q` in the queue: what went out and what
is queued is the output for them, and with the text in `outbuf` they are what was sent. -/
structure Carries {σ : Type} (z : Deflater σ) (plain : Text) (s : ZipOut σ) (ins : List Text)
    (q sent : Text) : Prop where
  out : s.out = z.after z.start ins
  queue : s.sendQ.Holds q
  wire : s.handed ++ q = plain ++ z.outputs z.start ins
  text : ins.flatten ++ s.outbuf = sent
  room : s.outbuf.length < ZIP_MAXIMUM - BUFSIZE
  popped : s.popped = false
  alive : s.dead = false

section Carries

variable {σ : Type} {z : Deflater σ} {send_list : ZipOut σ → ZipOut σ} {plain q sent : Text}
variable {s : ZipOut σ} {ins : List Text}

theorem Opened.carries (opened : Opened z plain s) : Carries z plain s [] plain [] where
  out := opened.out
  queue := opened.queue
  wire := by rw [opened.handed, Deflater.outputs, List.append_nil, List.nil_append]
  text := opened.outbuf
  room := by rw [opened.outbuf]; decide
  popped := opened.popped
  alive := opened.alive

theorem DBuf.Holds.mapped_append {dyn : DBuf} (holds : dyn.Holds q) :
    ∃ rest, dyn.mapped ++ rest = q ∧ (dyn.mapped = [] → q = []) := by
  unfold DBuf.mapped
  split
  · rename_i none_
    have none_ : q = [] := List.length_eq_zero_iff.mp (holds.length.symm.trans none_)
    exact ⟨[], none_.symm, fun _ => none_⟩
  · rename_i some_
    cases heads : dyn.buffers with
    | nil =>
      have none_ := holds.spells
      rw [heads] at none_
      rw [holds.length, ← none_] at some_
      exact absurd rfl some_
    | cons db next =>
      have spells := holds.spells
      rw [heads, DBuf.bytesOf_cons] at spells
      refine ⟨DBuf.bytesOf next, spells, fun none_ => ?_⟩
      exact absurd none_ (holds.used db (by rw [heads]; exact List.mem_cons_self)).some_

/-- A write of bytes of the first buffer moves them from the queue to the socket. -/
theorem Carries.delivered (carries : Carries z plain s ins q sent) {rlen : Nat}
    (most : rlen ≤ s.sendQ.mapped.length) :
    Carries z plain (s.delivered rlen) ins (q.drop rlen) sent where
  out := carries.out
  queue := carries.queue.delete rlen
  wire := by
    obtain ⟨rest, spells, _⟩ := carries.queue.mapped_append
    have same : s.sendQ.mapped.take rlen = q.take rlen := by
      rw [← spells, List.take_append_of_le_length most]
    show s.handed ++ s.sendQ.mapped.take rlen ++ q.drop rlen = _
    rw [same, List.append_assoc, List.take_append_drop]
    exact carries.wire
  text := carries.text
  room := carries.room
  popped := carries.popped
  alive := carries.alive

theorem Carries.resumed (carries : Carries z plain s ins q sent) : s.resumed send_list = s := by
  unfold ZipOut.resumed
  rw [carries.popped]
  rfl

/-- **What is left in `outbuf` goes to the queue.** -/
theorem Carries.flush (carries : Carries z plain s ins q sent) :
    ∃ q', Carries z plain (s.flush z) (ins ++ [s.outbuf]) q' sent ∧ (s.flush z).outbuf = [] := by
  refine ⟨q ++ (z.deflate s.out s.outbuf).2, ⟨?_, ?_, ?_, ?_, ?_, carries.popped, carries.alive⟩, rfl⟩
  · rw [z.after_concat, ← carries.out]
    simp [ZipOut.flush, ZipOut.zip_buffer]
  · have put := carries.queue.put (z.deflate s.out s.outbuf).2
    simpa [ZipOut.flush, ZipOut.zip_buffer] using put
  · rw [z.outputs_concat, ← carries.out, ← List.append_assoc, ← List.append_assoc, ← carries.wire]
    rfl
  · rw [List.flatten_concat, ← carries.text]
    exact List.append_nil _
  · show ([] : Text).length < _
    decide

/-- The link was dropped, or nothing is lost, and `outbuf` is empty when the queue is. -/
def Drained (z : Deflater σ) (plain sent : Text) (s : ZipOut σ) : Prop :=
  s.dead = true ∨
    (∃ ins q, Carries z plain s ins q sent) ∧ (s.sendQ.length = 0 → s.outbuf = [])

/-- **The loop of `send_queued`.** There is something in the queue as long as `more` is set, and
nothing in `outbuf` when it is not. -/
theorem Carries.drain (results : List (Option Nat)) {more : Bool}
    (carries : Carries z plain s ins q sent) (empty : more = false → s.outbuf = [])
    (queued : more = true → s.sendQ.length ≠ 0) :
    Drained z plain sent (s.drain z send_list more results) := by
  have done : s.sendQ.length = 0 → Drained z plain sent s := fun none_ => by
    refine .inr ⟨⟨ins, q, carries⟩, fun _ => ?_⟩
    cases more with
    | false => exact empty rfl
    | true => exact absurd none_ (queued rfl)
  induction results generalizing s ins q more with
  | nil =>
    unfold ZipOut.drain
    split
    · exact done ‹_›
    · rename_i some_
      have after := carries.delivered (Nat.zero_le _)
      rw [after.resumed]
      refine .inr ⟨⟨_, _, after⟩, fun none_ => absurd ?_ some_⟩
      rw [after.queue.length, List.drop_zero] at none_
      rw [carries.queue.length]
      exact none_
  | cons result results ih =>
    cases result with
    | none =>
      unfold ZipOut.drain
      split
      · exact done ‹_›
      · exact .inl rfl
    | some wrote =>
      unfold ZipOut.drain
      split
      · exact done ‹_›
      · have after := carries.delivered (Nat.min_le_right wrote s.sendQ.mapped.length)
        simp only [after.resumed]
        split
        · rename_i part
          refine .inr ⟨⟨_, _, after⟩, fun none_ => ?_⟩
          obtain ⟨rest, spells, _⟩ := carries.queue.mapped_append
          have left := after.queue.length
          rw [none_, List.length_drop, ← spells, List.length_append] at left
          omega
        · split
          · obtain ⟨q', flushed, clear⟩ := after.flush
            exact ih flushed (fun _ => clear) nofun fun none_ => .inr ⟨⟨_, _, flushed⟩, fun _ => clear⟩
          · rename_i stay
            have queued' : more = true → (s.delivered (min wrote s.sendQ.mapped.length)).sendQ.length
                ≠ 0 := by
              rintro rfl none_
              exact stay (by rw [none_]; rfl)
            refine ih after empty queued' fun none_ => .inr ⟨⟨_, _, after⟩, fun _ => ?_⟩
            cases more with
            | false => exact empty rfl
            | true => exact absurd none_ (queued' rfl)

/-- **`send_queued` loses nothing, and leaves `outbuf` empty when it empties the queue.** -/
theorem Carries.send_queued (results : List (Option Nat))
    (carries : Carries z plain s ins q sent) :
    Drained z plain sent (s.send_queued z send_list results) := by
  unfold ZipOut.send_queued
  rw [if_neg (by rw [carries.alive]; simp)]
  split
  · split
    · rename_i some_
      exact carries.drain results nofun fun _ => Nat.ne_of_gt some_
    · obtain ⟨q', flushed, clear⟩ := carries.flush
      exact flushed.drain results (fun _ => clear) nofun
  · rename_i none_
    exact carries.drain results (fun _ => not_not.mp none_) nofun

/-- A message goes to the end of `outbuf`, which may be compressed then. -/
theorem Carries.stored (carries : Carries z plain s ins q sent) (burst : Bool) (msg : Text) :
    ∃ ins' q', Carries z plain (s.stored z burst msg) ins' q' (sent ++ msg) := by
  have text : ins.flatten ++ (s.outbuf ++ msg) = sent ++ msg := by
    rw [← List.append_assoc, carries.text]
  by_cases wait : (!false && (decide ((s.outbuf ++ msg).length < ZIP_MINIMUM) ||
      (decide ((s.outbuf ++ msg).length < ZIP_MAXIMUM - BUFSIZE) && burst))) = true
  · have kept : s.zip_buffer z burst (some msg) false =
        ({ s with outbuf := s.outbuf ++ msg }, []) := if_pos wait
    unfold ZipOut.stored
    simp only [kept, if_pos]
    refine ⟨ins, q, carries.out, carries.queue, carries.wire, text, ?_, carries.popped, carries.alive⟩
    simp only [Bool.not_false, Bool.true_and, Bool.or_eq_true, Bool.and_eq_true,
      decide_eq_true_eq] at wait
    rcases wait with few | ⟨few, _⟩
    · exact few.trans_le (by decide)
    · exact few
  · have done : s.zip_buffer z burst (some msg) false = ({ s with
        out := (z.deflate s.out (s.outbuf ++ msg)).1, outbuf := [] },
        (z.deflate s.out (s.outbuf ++ msg)).2) := if_neg wait
    unfold ZipOut.stored
    simp only [done]
    generalize same : z.deflate s.out (s.outbuf ++ msg) = result
    refine ⟨ins ++ [s.outbuf ++ msg], q ++ result.2, ?_⟩
    have room : ([] : Text).length < ZIP_MAXIMUM - BUFSIZE := by decide
    have wire : s.handed ++ (q ++ result.2) =
        plain ++ z.outputs z.start (ins ++ [s.outbuf ++ msg]) := by
      rw [z.outputs_concat, ← carries.out, same, ← List.append_assoc, ← List.append_assoc,
        carries.wire]
    have out : result.1 = z.after z.start (ins ++ [s.outbuf ++ msg]) := by
      rw [z.after_concat, ← carries.out, same]
    have text' : (ins ++ [s.outbuf ++ msg]).flatten ++ [] = sent ++ msg := by
      rw [List.append_nil, List.flatten_concat, text]
    split
    · rename_i nothing
      have queue : s.sendQ.Holds (q ++ result.2) := by
        rw [show result.2 = [] from nothing, List.append_nil]
        exact carries.queue
      exact ⟨out, queue, wire, text', room, carries.popped, carries.alive⟩
    · exact ⟨out, carries.queue.put result.2, wire, text', room, carries.popped, carries.alive⟩

/-- **`send_message` loses nothing**, if it does not put the message off. -/
theorem Carries.send_message (carries : Carries z plain s ins q sent) (status : LinkStatus)
    (msg : Text) (results : List (Option Nat))
    (takes : status.doingList = true → s.sendQ.length ≤ status.limit) :
    (s.send_message z send_list status msg results).dead = true ∨
      ∃ ins' q', Carries z plain (s.send_message z send_list status msg results) ins' q'
        (sent ++ msg) := by
  unfold ZipOut.send_message
  rw [if_neg (by rw [carries.alive]; simp)]
  split
  · rename_i over_
    rw [if_neg fun doing => Nat.not_lt.mpr (takes doing) over_]
    exact .inl rfl
  · obtain ⟨ins', q', put⟩ := carries.stored status.burst msg
    dsimp only
    generalize (if status.server = true then _ else _) = last
    split
    · rcases put.send_queued results with dead | ⟨still, _⟩
      · exact .inl dead
      · exact .inr still
    · exact .inr ⟨_, _, put⟩

end Carries

/-! ### Every run -/

section Runs

variable {σ : Type} {z : Deflater σ} {send_list : ZipOut σ → ZipOut σ} {plain : Text}
variable {calls : List SendCall} {s : ZipOut σ}

theorem send_queued_dead (dead : s.dead = true) (results : List (Option Nat)) :
    s.send_queued z send_list results = s := by
  rw [ZipOut.send_queued, if_pos dead]

theorem change_dead (dead : s.dead = true) (call : SendCall) :
    call.change z send_list s = s := by
  cases call with
  | send_message status msg results =>
    show s.send_message z send_list status msg.1 results = s
    rw [ZipOut.send_message, if_pos dead]
  | send_queued results => exact send_queued_dead dead results

theorem SendRun.carries (run : SendRun z send_list plain SendCall.Takes calls s) :
    s.dead = true ∨ ∃ ins q, Carries z plain s ins q (calls.flatMap SendCall.text) := by
  induction run with
  | start opened => exact .inr ⟨_, _, opened.carries⟩
  | call call before takes ih =>
    rcases ih with dead | ⟨ins, q, carries⟩
    · exact .inl (by rw [change_dead dead]; exact dead)
    · rw [List.flatMap_append, List.flatMap_singleton]
      cases call with
      | send_message status msg results =>
        exact carries.send_message status msg.1 results takes
      | send_queued results =>
        rw [SendCall.text, List.append_nil]
        exact (carries.send_queued results).imp_right And.left

/-- What it means that a link loses nothing: the bytes that went to the socket and those in the queue
are `plain` and then output that inflates to what was sent, up to the text in `outbuf`, which has
room for a message; and `send_queued` leaves nothing there when it empties the queue. -/
structure LosesNothing (z : Deflater σ) (send_list : ZipOut σ → ZipOut σ) (plain sent : Text)
    (s : ZipOut σ) : Prop where
  wire : ∃ zipped, s.handed ++ DBuf.bytesOf s.sendQ.buffers = plain ++ zipped ∧
    z.inflate zipped ++ s.outbuf = sent
  room : ∀ msg : Text, msg.length ≤ BUFSIZE → (s.outbuf ++ msg).length ≤ ZIP_MAXIMUM
  empty : ∀ results, (s.send_queued z send_list results).dead = false →
    (s.send_queued z send_list results).sendQ.length = 0 →
    (s.send_queued z send_list results).outbuf = []

/-- **Nothing is lost on a compressed link**: in every state that calls lead to while the link is not
dropped and no message is put off for a `LIST`. -/
theorem send_carries (restores : z.Restores)
    (run : SendRun z send_list plain SendCall.Takes calls s) (alive : s.dead = false) :
    LosesNothing z send_list plain (calls.flatMap SendCall.text) s := by
  rcases run.carries with dead | ⟨ins, q, carries⟩
  · rw [alive] at dead
    exact absurd dead (by simp)
  · refine ⟨⟨z.outputs z.start ins, ?_, ?_⟩, fun msg fits => ?_, fun results open_ none_ => ?_⟩
    · rw [carries.queue.spells, carries.wire]
    · rw [restores ins, carries.text]
    · have room := carries.room
      rw [List.length_append]
      unfold ZIP_MAXIMUM at room ⊢
      omega
    · rcases carries.send_queued results with dead | ⟨_, clear⟩
      · rw [open_] at dead
        exact absurd dead (by simp)
      · exact clear none_

end Runs

/-! ### A compressor that knows one line -/

/-- `PING :a` as a message, and what `deflate` makes of it at the start of a stream. -/
def pingLine : Text := "PING :a\r\n".toList
def pingZipped : Text := bytes [120, 94, 10, 240, 244, 115, 87, 176, 74, 228, 229, 2, 8]

/-- Any other input, with a mark before each character. -/
def marked (t : Text) : Text := t.flatMap fun c => [Char.ofNat 0, c]

def unmarked : Text → Text
  | _ :: c :: rest => c :: unmarked rest
  | _ => []

theorem unmarked_marked (t : Text) : unmarked (marked t) = t := by
  induction t with
  | nil => rfl
  | cons c t ih =>
    show c :: unmarked (marked t) = _
    rw [ih]

/-- The compressor; its state tells whether the stream has just started. -/
def sampleDeflater : Deflater Bool where
  start := true
  deflate fresh input := (false, if fresh ∧ input = pingLine then pingZipped else marked input)
  inflate t :=
    if pingZipped.isPrefixOf t then pingLine ++ unmarked (t.drop pingZipped.length)
    else unmarked t

theorem outputs_sampleDeflater (ins : List Text) :
    sampleDeflater.outputs false ins = marked ins.flatten := by
  induction ins with
  | nil => rfl
  | cons input ins ih =>
    show (if false = true ∧ input = pingLine then pingZipped else marked input) ++
      sampleDeflater.outputs false ins = marked (input ++ ins.flatten)
    rw [if_neg (by simp), ih]
    exact (List.flatMap_append ..).symm

theorem sampleDeflater_restores : sampleDeflater.Restores := by
  intro ins
  cases ins with
  | nil => rfl
  | cons input ins =>
    have rest := outputs_sampleDeflater ins
    by_cases ping : input = pingLine
    · have out : sampleDeflater.outputs true (input :: ins) = pingZipped ++ marked ins.flatten := by
        rw [← rest]
        exact congrArg (· ++ _) (if_pos ⟨rfl, ping⟩)
      show sampleDeflater.inflate (sampleDeflater.outputs true (input :: ins)) = _
      rw [out]
      unfold Deflater.inflate sampleDeflater
      dsimp only
      rw [if_pos (List.isPrefixOf_iff_prefix.mpr (List.prefix_append ..)), List.drop_left,
        unmarked_marked, ping]
      rfl
    · have out : sampleDeflater.outputs true (input :: ins) = marked (input ++ ins.flatten) := by
        show (if true = true ∧ input = pingLine then pingZipped else marked input) ++
          sampleDeflater.outputs false ins = _
        rw [if_neg fun both => ping both.2, rest]
        exact (List.flatMap_append ..).symm
      show sampleDeflater.inflate (sampleDeflater.outputs true (input :: ins)) = _
      rw [out]
      unfold Deflater.inflate sampleDeflater
      dsimp only
      rw [if_neg ?_, unmarked_marked]
      · rfl
      · cases input ++ ins.flatten with
        | nil => decide
        | cons c t =>
          show ¬ (((Char.ofNat 120) == Char.ofNat 0) && _) = true
          simp

/-- A link whose output is compressed from now on. -/
def sampleLink : ZipOut Bool := ⟨true, [], .empty, 0, false, false, []⟩

theorem sampleLink_opened : Opened sampleDeflater [] sampleLink :=
  ⟨rfl, rfl, .empty, rfl, rfl, rfl⟩

/-- The line and a write of five bytes of it. -/
theorem send_carries_sample : ∃ s, SendRun sampleDeflater id [] SendCall.Takes
      [.send_message ⟨true, false, false, 100⟩ ⟨pingLine, by decide⟩ [], .send_queued [some 5]] s ∧
    s.handed = pingZipped.take 5 ∧
    LosesNothing sampleDeflater id [] ([SendCall.send_message ⟨true, false, false, 100⟩
      ⟨pingLine, by decide⟩ [], .send_queued [some 5]].flatMap SendCall.text) s := by
  have start : SendRun sampleDeflater id [] SendCall.Takes [] sampleLink := .start sampleLink_opened
  have run := (start.call (.send_message ⟨true, false, false, 100⟩ ⟨pingLine, by decide⟩ []) nofun).call
    (.send_queued [some 5]) trivial
  exact ⟨_, run, by decide +kernel, send_carries sampleDeflater_restores run (by decide +kernel)⟩

/-- **A message is put off for a `LIST`**: the link is in the middle of one, and its queue is over the
limit. -/
theorem not_send_carries : ¬ ∀ (σ : Type) (z : Deflater σ) (send_list : ZipOut σ → ZipOut σ)
    (plain : Text) (calls : List SendCall) (s : ZipOut σ), z.Restores →
    SendRun z send_list plain (fun _ _ => True) calls s → s.dead = false →
    LosesNothing z send_list plain (calls.flatMap SendCall.text) s := by
  intro claim
  have start : SendRun sampleDeflater id [] (fun _ _ => True) [] sampleLink :=
    .start sampleLink_opened
  have run := ((start.call (.send_message ⟨true, false, true, 10⟩ ⟨pingLine, by decide⟩ []) trivial).call
    (.send_queued []) trivial).call
    (.send_message ⟨true, false, true, 10⟩ ⟨pingLine, by decide⟩ []) trivial
  obtain ⟨⟨zipped, wire, text⟩, _, _⟩ := claim _ _ _ _ _ _ sampleDeflater_restores run
    (by decide +kernel)
  have same : zipped = pingZipped := wire.symm.trans (by decide +kernel)
  subst same
  exact absurd text (by decide +kernel)

end PtlinkIrcd
