/-
**Lines of a server link.**

`dopacket` on a link that is not compressed: it keeps the open line in the buffer of the client, from
one packet to the next.

* `ServerLink.dopacket` — the scan of a packet; what does not fit in the buffer is dropped.
* `streamLines`, `streamRest` — the lines of a whole stream, and its open one.
* `dopacket_eq` — one packet on top of what is open.
* `receive_stream` — **the lines that a link hands over are those of the stream**, cut to the buffer,
  however the stream is cut into packets.
-/

import PtlinkIrcd.Net.Framing

namespace PtlinkIrcd

open Lib

def CLIENT_BUFSIZE : Nat := 512

/-- Received bytes below a kilobyte, kilobytes and lines: `receiveB`, an unsigned short, `receiveK` and
`receiveM`, unsigned ints. -/
structure Traffic where
  receiveB : BitVec 16
  receiveK : BitVec 32
  receiveM : BitVec 32
deriving DecidableEq

def Traffic.packet (t : Traffic) (length : Nat) : Traffic :=
  let receiveB := t.receiveB + BitVec.ofNat 16 length
  if receiveB > 1023 then
    { t with receiveK := t.receiveK + (receiveB >>> 10).setWidth 32, receiveB := receiveB &&& 0x03ff }
  else { t with receiveB := receiveB }

def Traffic.line (t : Traffic) : Traffic := { t with receiveM := t.receiveM + 1 }

/-- A directly linked server, as far as its input goes. -/
structure ServerLink where
  /-- What stands in `buffer` before `ch1`; between two packets its length is `count`. -/
  buffer : Text
  /-- The lines handed to `parse`. -/
  handed : List Text
  /-- The last of them closed the connection, or left its socket dead. -/
  exited : Bool
  /-- The counters of the link. -/
  cptr : Traffic
  /-- The counters of this server. -/
  me : Traffic

namespace ServerLink

def fresh (me : Traffic) : ServerLink := ⟨[], [], false, ⟨0, 0, 0⟩, me⟩

/-- A round of the loop of `dopacket`. -/
def scan (exits : List Text → Bool) (l : ServerLink) (g : Char) : ServerLink :=
  if isEol g then
    if l.buffer = [] then l
    else
      { buffer := [], handed := l.handed ++ [l.buffer], exited := exits (l.handed ++ [l.buffer])
        cptr := l.cptr.line, me := l.me.line }
  else if l.buffer.length < CLIENT_BUFSIZE - 1 then { l with buffer := l.buffer ++ [g] }
  else l

/-- The loop of `dopacket`, which a line that closes the connection ends. -/
def scanAll (exits : List Text → Bool) : ServerLink → Text → ServerLink
  | l, [] => l
  | l, g :: rest =>
    let l := l.scan exits g
    if l.exited then l else scanAll exits l rest

def dopacket (exits : List Text → Bool) (l : ServerLink) (packet : Text) : ServerLink :=
  scanAll exits
    { l with cptr := l.cptr.packet packet.length, me := l.me.packet packet.length } packet

/-- The link after some reads; nothing is read from a connection that was closed. -/
def receive (exits : List Text → Bool) (me : Traffic) (reads : List Text) : ServerLink :=
  reads.foldl (fun l packet => if l.exited then l else l.dopacket exits packet) (fresh me)

end ServerLink

/-- The lines of a stream: the nonempty pieces before its ends of lines. -/
def streamLines (stream : Text) : List Text :=
  (stream.splitOnP isEol).dropLast.filter fun line => !line.isEmpty

/-- The open line of a stream: what follows the last end of line. -/
def streamRest (stream : Text) : Text := (stream.splitOnP isEol).getLastD []

def cut (line : Text) : Text := line.take (CLIENT_BUFSIZE - 1)

namespace ServerLink

variable {exits : List Text → Bool} {l : ServerLink} {rest : Text}

theorem cut_eq_nil : cut rest = [] ↔ rest = [] := by
  unfold cut
  rw [List.take_eq_nil_iff]
  exact or_iff_right (by decide)

theorem cut_concat (rest : Text) (g : Char) : cut (rest ++ [g]) =
    if (cut rest).length < CLIENT_BUFSIZE - 1 then cut rest ++ [g] else cut rest := by
  unfold cut
  rw [List.length_take]
  by_cases room : rest.length < CLIENT_BUFSIZE - 1
  · rw [if_pos (by omega), List.take_of_length_le (by simp; omega), List.take_of_length_le (by omega)]
  · rw [if_neg (by omega), List.take_append_of_le_length (by omega)]

/-- **A packet on top of what is open.** The lines that it closes are handed over until one of them
closes the connection. -/
theorem scanAll_eq (exits : List Text → Bool) (open_ : l.exited = false)
    (buffer : l.buffer = cut rest) (packet : Text) :
    let fed := Lines.feed isEol ⟨[], rest⟩ packet
    ((l.scanAll exits packet).handed, (l.scanAll exits packet).exited) =
      serve exits l.handed (fed.closed.map cut) ∧
    ((l.scanAll exits packet).exited = false → (l.scanAll exits packet).buffer = cut fed.rest) := by
  induction packet generalizing l rest with
  | nil => exact ⟨by rw [scanAll, open_]; rfl, fun _ => buffer⟩
  | cons g packet ih =>
    simp only [Lines.feed_cons]
    unfold scanAll Lines.push scan
    simp only []
    cases isEnd : isEol g with
    | true =>
      rw [if_pos rfl, if_pos rfl]
      by_cases none_ : rest = []
      · rw [if_pos (buffer.trans (cut_eq_nil.mpr none_)), if_pos none_, open_,
          if_neg Bool.false_ne_true]
        exact ih open_ buffer
      · rw [if_neg fun empty => none_ (cut_eq_nil.mp (buffer.symm.trans empty)), if_neg none_,
          Lines.feed_closed, List.nil_append, List.singleton_append, List.map_cons, serve_cons]
        simp only [buffer]
        cases closes : exits (l.handed ++ [cut rest]) with
        | true =>
          rw [if_pos rfl, if_pos rfl]
          exact ⟨rfl, fun stays => absurd stays (by simp)⟩
        | false =>
          rw [if_neg Bool.false_ne_true, if_neg Bool.false_ne_true]
          exact ih rfl (cut_eq_nil.mpr rfl).symm
    | false =>
      rw [if_neg Bool.false_ne_true, if_neg Bool.false_ne_true]
      have kept := cut_concat rest g
      rw [← buffer] at kept
      split at kept
      · rename_i room
        rw [if_pos room]
        simp only [open_, Bool.false_eq_true, if_false]
        exact ih rfl kept.symm
      · rename_i full
        rw [if_neg full]
        simp only [open_, Bool.false_eq_true, if_false]
        exact ih open_ kept.symm

/-- A link that is as the stream read so far leaves it. -/
structure Reads (exits : List Text → Bool) (stream : Text) (l : ServerLink) : Prop where
  served : (l.handed, l.exited) = serve exits [] ((Lines.feed isEol .start stream).closed.map cut)
  buffer : l.exited = false → l.buffer = cut (Lines.feed isEol .start stream).rest

/-- **More of the stream**, scanned with whatever counters. -/
theorem Reads.scanAll {stream : Text} (reads : Reads exits stream l) (open_ : l.exited = false)
    (cptr me : Traffic) (packet : Text) :
    Reads exits (stream ++ packet)
      (({ l with cptr := cptr, me := me } : ServerLink).scanAll exits packet) := by
  have whole : Lines.feed isEol .start (stream ++ packet) =
      ⟨(Lines.feed isEol .start stream).closed ++
          (Lines.feed isEol ⟨[], (Lines.feed isEol .start stream).rest⟩ packet).closed,
        (Lines.feed isEol ⟨[], (Lines.feed isEol .start stream).rest⟩ packet).rest⟩ := by
    rw [Lines.feed_append, ← Lines.feed_closed]
  have served := reads.served
  rw [open_] at served
  obtain ⟨handed, kept⟩ := scanAll_eq exits (l := { l with cptr := cptr, me := me }) open_
    (reads.buffer open_) packet
  refine ⟨?_, ?_⟩
  · rw [whole, List.map_append, serve_append, ← served]
    exact handed
  · rw [whole]
    exact kept

/-- What comes after the line that closed the connection does not matter. -/
theorem Reads.extend {stream : Text} (reads : Reads exits stream l) (closed : l.exited = true)
    (packet : Text) : Reads exits (stream ++ packet) l := by
  have served := reads.served
  rw [closed] at served
  refine ⟨?_, fun stays => absurd (closed.symm.trans stays) (by simp)⟩
  rw [Lines.feed_append, Lines.feed_closed, List.map_append, serve_append, ← served, closed]
  rfl

/-- **One more packet.** -/
theorem Reads.dopacket {stream : Text} (reads : Reads exits stream l) (packet : Text) :
    Reads exits (stream ++ packet) (if l.exited then l else l.dopacket exits packet) := by
  cases exited : l.exited with
  | true =>
    rw [if_pos rfl]
    exact reads.extend exited packet
  | false =>
    rw [if_neg Bool.false_ne_true]
    exact reads.scanAll exited _ _ packet

theorem Reads.receive (exits : List Text → Bool) (me : Traffic) (reads : List Text) :
    Reads exits reads.flatten (receive exits me reads) := by
  induction reads using List.reverseRecOn with
  | nil => exact ⟨rfl, fun _ => rfl⟩
  | append_singleton reads packet ih =>
    unfold ServerLink.receive at ih ⊢
    rw [List.foldl_concat, List.flatten_concat]
    exact ih.dopacket packet

theorem feed_stream (stream : Text) :
    Lines.feed isEol .start stream = ⟨streamLines stream, streamRest stream⟩ := by
  have split_ : Lines.feed isEol ⟨[], []⟩ stream = _ := Lines.feed_splitOnP [] [] stream
  have same : ((stream.splitOnP isEol).modifyHead ([] ++ ·)) = stream.splitOnP isEol := by
    cases stream.splitOnP isEol <;> rfl
  rw [same] at split_
  exact split_

/-- **The lines that a link hands over** are those of the stream, each cut to the buffer, until one of
them closes the connection; and the buffer keeps the open line. The packets do not matter. -/
theorem receive_stream (exits : List Text → Bool) (me : Traffic) (stream : Text) (reads : List Text)
    (whole : reads.flatten = stream) :
    let l := receive exits me reads
    (l.handed, l.exited) = serve exits [] ((streamLines stream).map cut) ∧
      (l.exited = false →
        l.handed = (streamLines stream).map cut ∧ l.buffer = cut (streamRest stream)) := by
  subst whole
  obtain ⟨served, buffer⟩ := Reads.receive exits me reads
  rw [feed_stream] at served buffer
  refine ⟨served, fun open_ => ⟨?_, buffer open_⟩⟩
  have stays : (serve exits [] ((streamLines reads.flatten).map cut)).2 = false :=
    (congrArg Prod.snd served).symm.trans open_
  exact (congrArg Prod.fst served).trans (serve_open stays)

/-- Two lines in three packets, the second one with both ends. -/
theorem receive_stream_sample :
    (receive (fun _ => false) ⟨0, 0, 0⟩ [['a'], ['b', '\r'], ['\n', 'c', '\n', 'd']]).handed =
      [['a', 'b'], ['c']] :=
  ((receive_stream (fun _ => false) ⟨0, 0, 0⟩ "ab\r\nc\nd".toList _ (by decide)).2
    (by decide +kernel)).1.trans (by decide +kernel)

end ServerLink

end PtlinkIrcd
