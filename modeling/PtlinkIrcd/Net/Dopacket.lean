/-
**A line on its way to the parser.**

`client_dopacket` copies a line from the read buffer to the buffer of the client, in the middle of
`struct Client`, and looks for the end of the copy.

* `strlen`, `client_dopacket` — the copy, and the call of `parse` that follows.
* `Handed` — **what `parse` relies on**: a string inside the buffer, and the pointer to its end.
* `client_dopacket_handed_iff` — the call hands that over when the line, as a string, is shorter than
  the buffer.
-/

import PtlinkIrcd.Model.Memory
import PtlinkIrcd.Model.State
import PtlinkIrcd.Net.Framing
import PtlinkIrcd.Net.Getmsg
import PtlinkIrcd.Net.ServerLink

namespace PtlinkIrcd

open Lib

/-- `strlen`, in a memory that may end before the string does. -/
def strlen (s : Text) : Option Nat := s.findIdx? (· == NUL)

/-- What `client_dopacket` leaves behind when it calls `parse`: the memory from `cptr->buffer` on, the
offset of the end pointer in it, and the statistics. -/
structure ParseCall where
  memory : Text
  bufend : Nat
  cptr : Traffic
  me : Traffic

/-- `client_dopacket` up to the call of `parse`; `memory` starts with `cptr->buffer`. -/
def client_dopacket (memory : Text) (cptr me : Traffic) (buffer : Text) : Option ParseCall := do
  let memory ← strncpy_irc memory buffer BUFSIZE
  let length ← strlen memory
  some ⟨memory, length, cptr.line.packet length, me.line.packet length⟩

/-- **What `parse` relies on**: the line, or its beginning, as a string that ends inside the buffer,
and the pointer to its terminator. -/
structure Handed (line : Text) (call : ParseCall) : Prop where
  inside : call.bufend < CLIENT_BUFSIZE
  terminated : call.memory[call.bufend]? = some NUL
  plain : NUL ∉ call.memory.take call.bufend
  text : call.memory.take call.bufend <+: line

variable {memory line w rest : Text} {cptr me : Traffic} {call : ParseCall}

theorem beq_nul_of_notMem (plain : NUL ∉ w) : ∀ c ∈ w, (c == NUL) = false :=
  fun _ member => beq_eq_false_iff_ne.mpr fun same => plain (same ▸ member)

/-- **The end of a string.** -/
theorem strlen_eq (plain : NUL ∉ w) : strlen (w ++ NUL :: rest) = some w.length := by
  have none_ : w.findIdx? (· == NUL) = none :=
    List.findIdx?_eq_none_iff.mpr (beq_nul_of_notMem plain)
  rw [strlen, List.findIdx?_append, none_, List.findIdx?_cons, if_pos (beq_self_eq_true NUL)]
  exact congrArg some (Nat.zero_add _)

theorem le_of_strlen {length : Nat} (plain : NUL ∉ w) (found : strlen (w ++ rest) = some length) :
    w.length ≤ length := by
  have none_ : w.findIdx? (· == NUL) = none :=
    List.findIdx?_eq_none_iff.mpr (beq_nul_of_notMem plain)
  rw [strlen, List.findIdx?_append, none_, Option.none_or, Option.map_eq_some_iff] at found
  obtain ⟨i, _, rfl⟩ := found
  exact Nat.le_add_left ..

/-- The string at the front of a line: the line up to the first terminator in it. -/
def asString (line : Text) : Text := line.takeWhile (· != NUL)

theorem notMem_asString : NUL ∉ asString line := fun member =>
  absurd (List.mem_takeWhile_imp member) (by simp)

theorem exists_asString (line rest : Text) :
    ∃ more, line ++ NUL :: rest = asString line ++ NUL :: more := by
  have parts : asString line ++ line.dropWhile (· != NUL) = line := List.takeWhile_append_dropWhile
  cases behind : line.dropWhile (· != NUL) with
  | nil =>
    rw [behind, List.append_nil] at parts
    exact ⟨rest, by rw [parts]⟩
  | cons c more =>
    obtain rfl : c = NUL := by
      have first := List.head?_dropWhile_not (· != NUL) line
      rw [behind] at first
      simpa using first
    refine ⟨more ++ NUL :: rest, ?_⟩
    conv_lhs => rw [← parts, behind, List.append_assoc, List.cons_append]

/-- A line that is short, or has a terminator early in it, is a short string. -/
theorem asString_lt_iff {n : Nat} :
    (asString line).length < n ↔ line.length < n ∨ NUL ∈ line.take n := by
  obtain ⟨more, parts⟩ := exists_asString line []
  have front : asString line <+: line := List.takeWhile_prefix _
  constructor
  · intro short
    by_cases whole : line.length < n
    · exact .inl whole
    · have take : line.take n = (asString line ++ NUL :: more).take n := by
        rw [← parts, List.take_append_of_le_length (by omega)]
      obtain ⟨m, room⟩ : ∃ m, n - (asString line).length = m + 1 :=
        ⟨n - (asString line).length - 1, by omega⟩
      rw [take, List.take_append, room, List.take_succ_cons]
      exact .inr (List.mem_append_right _ List.mem_cons_self)
  · rintro (short | early)
    · exact Nat.lt_of_le_of_lt front.length_le short
    · by_contra long
      obtain ⟨behind, split_⟩ := front
      rw [← split_, List.take_append_of_le_length (by omega)] at early
      exact notMem_asString (List.mem_of_mem_take early)

/-- **`client_dopacket` hands over a string inside its buffer** exactly when the line, as a string, is
shorter than the buffer. -/
theorem client_dopacket_iff (room : BUFSIZE ≤ memory.length) :
    (∃ call, client_dopacket memory cptr me (line ++ NUL :: rest) = some call ∧ Handed line call) ↔
      (asString line).length < BUFSIZE := by
  obtain ⟨more, parts⟩ := exists_asString line rest
  have copied : strncpy_irc memory (line ++ NUL :: rest) BUFSIZE =
      some (splice memory 0 ((asString line ++ [NUL]).take BUFSIZE)) := by
    rw [parts]
    exact copyThrough_eq (beq_nul_of_notMem notMem_asString) (beq_self_eq_true NUL) (by omega) more
  unfold client_dopacket
  simp only [copied, Option.bind_eq_bind, Option.bind_some]
  constructor
  · rintro ⟨call, called, handed⟩
    by_contra long
    have cut : (asString line ++ [NUL]).take BUFSIZE = (asString line).take BUFSIZE :=
      List.take_append_of_le_length (by omega)
    have plain : NUL ∉ (asString line).take BUFSIZE := fun member =>
      notMem_asString (List.mem_of_mem_take member)
    rw [cut] at called
    obtain ⟨length, found, same⟩ := Option.bind_eq_some_iff.mp called
    have late := le_of_strlen plain found
    rw [List.length_take, Nat.min_eq_left (by omega)] at late
    obtain rfl := Option.some.inj same
    exact absurd handed.inside (Nat.not_lt.mpr late)
  · intro short
    have whole : (asString line ++ [NUL]).take BUFSIZE = asString line ++ [NUL] :=
      List.take_of_length_le (by
        rw [List.length_append, List.length_singleton]
        omega)
    have memory_ : splice memory 0 (asString line ++ [NUL]) =
        asString line ++ NUL :: memory.drop (0 + (asString line ++ [NUL]).length) := by
      rw [splice, List.take_zero, List.nil_append, List.append_assoc]
      rfl
    rw [whole, memory_, strlen_eq notMem_asString, Option.bind_some]
    refine ⟨_, rfl, short, ?_, ?_, ?_⟩
    · show (asString line ++ NUL :: _)[(asString line).length]? = some NUL
      rw [List.getElem?_append_right (le_refl _), Nat.sub_self]
      rfl
    · show NUL ∉ (asString line ++ NUL :: _).take (asString line).length
      rw [List.take_left]
      exact notMem_asString
    · show (asString line ++ NUL :: _).take (asString line).length <+: line
      rw [List.take_left]
      exact List.takeWhile_prefix _

theorem exists_readBuf {dyn : DBuf} {q readBuf : Text} {c : Char} (holds : dyn.Holds q)
    (size : readBuf.length = READBUF_SIZE) (complete : DBuf.Complete q READBUF_SIZE line c rest) :
    ∃ dyn' behind, dyn.dbuf_getmsg readBuf READBUF_SIZE =
      some (dyn', line ++ NUL :: behind, line.length) := by
  obtain ⟨dyn', readBuf', returned, called, extracts⟩ := DBuf.dbuf_getmsg_extracts holds readBuf
  rw [size] at called
  obtain ⟨rfl, _, copy, _⟩ := extracts.line line c rest (size ▸ complete)
  have parts : readBuf' = line ++ NUL :: readBuf'.drop (line.length + 1) := by
    conv_lhs => rw [← List.take_append_drop (line.length + 1) readBuf', copy, List.append_assoc]
    rfl
  exact ⟨dyn', _, parts ▸ called⟩

/-- **What becomes of a line** that `dbuf_getmsg` finds in the queue of a client: it is handed over as
a string inside the buffer of the client exactly when it is shorter than that, or has a terminator
early in it. -/
theorem client_dopacket_handed_iff {dyn : DBuf} {q readBuf : Text} {c : Char} (holds : dyn.Holds q)
    (size : readBuf.length = READBUF_SIZE) (complete : DBuf.Complete q READBUF_SIZE line c rest)
    (room : CLIENT_BUFSIZE ≤ memory.length) :
    ∃ dyn' readBuf', dyn.dbuf_getmsg readBuf READBUF_SIZE = some (dyn', readBuf', line.length) ∧
      ((∃ call, client_dopacket memory cptr me readBuf' = some call ∧ Handed line call) ↔
        line.length < BUFSIZE ∨ NUL ∈ line.take BUFSIZE) := by
  obtain ⟨dyn', behind, called⟩ := exists_readBuf holds size complete
  refine ⟨dyn', _, called, ?_⟩
  rw [← asString_lt_iff]
  exact client_dopacket_iff room

/-- The buffer of a client, or the read buffer, before it is used. -/
def unusedBuffer (size : Nat) : Text := List.replicate size NUL

theorem length_unusedBuffer (size : Nat) : (unusedBuffer size).length = size :=
  List.length_replicate

theorem complete_replicate {n : Nat} (short : n + 1 < READBUF_SIZE) :
    DBuf.Complete (List.replicate (n + 1) 'a' ++ ['\n']) READBUF_SIZE (List.replicate (n + 1) 'a') '\n'
      [] where
  parts := rfl
  plain d member := by
    rw [(List.mem_replicate.mp member).2]
    rfl
  ends := rfl
  short := by rwa [List.length_replicate]

theorem client_dopacket_handed_short : ∃ dyn' readBuf',
    (DBuf.empty.put ['a', '\n']).dbuf_getmsg (unusedBuffer READBUF_SIZE) READBUF_SIZE =
        some (dyn', readBuf', 1) ∧
      ((∃ call, client_dopacket (unusedBuffer CLIENT_BUFSIZE) ⟨0, 0, 0⟩ ⟨0, 0, 0⟩ readBuf' =
          some call ∧ Handed ['a'] call) ↔ 1 < BUFSIZE ∨ NUL ∈ ['a'].take BUFSIZE) :=
  client_dopacket_handed_iff (DBuf.Holds.empty.put ['a', '\n']) (length_unusedBuffer _)
    (complete_replicate (show 0 + 1 < READBUF_SIZE by decide)) (length_unusedBuffer _).ge

/-- A line of 512 bytes: nothing ends it inside the buffer. -/
theorem not_client_dopacket_handed : ¬ ∀ (dyn dyn' : DBuf) (q readBuf readBuf' memory line rest : Text)
    (c : Char) (cptr me : Traffic), dyn.Holds q → readBuf.length = READBUF_SIZE →
      DBuf.Complete q READBUF_SIZE line c rest → CLIENT_BUFSIZE ≤ memory.length →
      dyn.dbuf_getmsg readBuf READBUF_SIZE = some (dyn', readBuf', line.length) →
      ∃ call, client_dopacket memory cptr me readBuf' = some call ∧ Handed line call := by
  intro always
  have complete := complete_replicate (show 511 + 1 < READBUF_SIZE by decide)
  have holds := DBuf.Holds.empty.put (List.replicate (511 + 1) 'a' ++ ['\n'])
  have size := length_unusedBuffer READBUF_SIZE
  obtain ⟨dyn', behind, called⟩ := exists_readBuf holds size complete
  have handed := always _ dyn' _ _ _ (unusedBuffer CLIENT_BUFSIZE) _ _ _ ⟨0, 0, 0⟩ ⟨0, 0, 0⟩ holds size
    complete (length_unusedBuffer _).ge called
  rcases asString_lt_iff.mp ((client_dopacket_iff (length_unusedBuffer _).ge).mp handed) with
    short | early
  · rw [List.length_replicate] at short
    exact absurd short (by decide)
  · have same := (List.mem_replicate.mp (List.mem_of_mem_take early)).2
    exact absurd same (by decide)

end PtlinkIrcd
