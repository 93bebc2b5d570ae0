/-
**The receive queue.**

`dbuf.c` keeps the bytes of a connection in a chain of buffers of a fixed size.

* `DBuf` — the chain, with the number of bytes in it.
* `Holds` — **the bytes that a chain stands for**; every operation is one on these.
* `Holds.put`, `Holds.delete`, `Holds.flush` — appending, and taking off the front.
* `Holds.getmsg` — the next line, if its end is among the bytes looked at.
-/

import Mathlib.Data.List.TakeWhile
import PtlinkIrcd.Model.Text

namespace PtlinkIrcd

def DBUF_SIZE : Nat := 1024

def isEol (c : Char) : Bool := c = '\n' || c = '\r'

/-- `struct DBufBuffer`: how far `start` is into the data, and the bytes from there to `end`. -/
structure DBufBuffer where
  start : Nat
  bytes : Text

/-- `struct DBuf`: the buffers from `head` to `tail`. -/
structure DBuf where
  buffers : List DBufBuffer
  length : Nat

namespace DBuf

/-! ### Operations -/

def empty : DBuf := ⟨[], 0⟩

/-- The loop of `dbuf_put` from the link `h` on; the fuel bounds the number of buffers it fills. -/
def putFrom : Nat → List DBufBuffer → Text → List DBufBuffer
  | 0, h, _ => h
  | fuel + 1, h, buf =>
    if buf = [] then h
    else
      -- `dbuf_alloc` where the chain ends
      let d := h.headD ⟨0, []⟩
      let chunk := DBUF_SIZE - (d.start + d.bytes.length)
      ⟨d.start, d.bytes ++ buf.take chunk⟩ :: putFrom fuel h.tail (buf.drop chunk)

def put (dyn : DBuf) (buf : Text) : DBuf where
  buffers :=
    if dyn.length = 0 then putFrom (buf.length + 1) dyn.buffers buf
    else dyn.buffers.dropLast ++ putFrom (buf.length + 1) dyn.buffers.getLast?.toList buf
  length := dyn.length + buf.length

/-- The loop of `dbuf_delete`. -/
def deleteFrom : List DBufBuffer → Nat → List DBufBuffer
  | [], _ => []
  | db :: next, length =>
    if length = 0 then db :: next
    else
      let chunk := min db.bytes.length length
      if chunk = db.bytes.length then deleteFrom next (length - chunk)
      else ⟨db.start + chunk, db.bytes.drop chunk⟩ :: next

def delete (dyn : DBuf) (length : Nat) : DBuf :=
  let length := min length dyn.length
  let buffers := deleteFrom dyn.buffers length
  ⟨buffers, if buffers.isEmpty then 0 else dyn.length - length⟩

/-- The loop of `dbuf_flush`, with the number of ends it skips. -/
def flushFrom : List DBufBuffer → List DBufBuffer × Nat
  | [] => ([], 0)
  | db :: next =>
    let ends := (db.bytes.takeWhile isEol).length
    if ends = db.bytes.length then
      let flushed := flushFrom next
      (flushed.1, ends + flushed.2)
    else (⟨db.start + ends, db.bytes.drop ends⟩ :: next, ends)

def flush (dyn : DBuf) : DBuf :=
  let flushed := flushFrom dyn.buffers
  ⟨flushed.1, if flushed.1.isEmpty then 0 else dyn.length - flushed.2⟩

/-- The loop of `dbuf_getmsg`: what stands before the first end among `length` bytes. -/
def scanFrom : List DBufBuffer → Nat → Option Text
  | [], _ => none
  | db :: next, length =>
    if length = 0 then none
    else
      let seen := db.bytes.take length
      let word := seen.takeWhile (!isEol ·)
      if word.length < seen.length then some word
      else (scanFrom next (length - word.length)).map (word ++ ·)

/-- `dbuf_getmsg`, with the line it copies; without one it returns zero. -/
def getmsg (dyn : DBuf) (length : Nat) : DBuf × Text :=
  let dyn := dyn.flush
  if dyn.length = 0 then (dyn, [])
  else
    match scanFrom dyn.buffers (min length dyn.length) with
    | none => (dyn, [])
    | some line => ((dyn.delete line.length).flush, line)

/-- What the first buffer of a queue holds: `dbuf_map`. -/
def mapped (dyn : DBuf) : Text :=
  if dyn.length = 0 then [] else (dyn.buffers.head?.map (·.bytes)).getD []

/-! ### The bytes of a chain -/

def bytesOf (buffers : List DBufBuffer) : Text := buffers.flatMap DBufBuffer.bytes

/-- A buffer in use: there is something in it, and it fits. -/
structure Used (db : DBufBuffer) : Prop where
  some_ : db.bytes ≠ []
  fits : db.start + db.bytes.length ≤ DBUF_SIZE

/-- **What a chain stands for.** -/
structure Holds (dyn : DBuf) (bytes : Text) : Prop where
  spells : bytesOf dyn.buffers = bytes
  length : dyn.length = bytes.length
  used : ∀ db ∈ dyn.buffers, Used db

variable {dyn : DBuf} {q : Text}

theorem bytesOf_cons (db : DBufBuffer) (next : List DBufBuffer) :
    bytesOf (db :: next) = db.bytes ++ bytesOf next := List.flatMap_cons ..

theorem bytesOf_append (buffers next : List DBufBuffer) :
    bytesOf (buffers ++ next) = bytesOf buffers ++ bytesOf next := List.flatMap_append ..

theorem Holds.empty : DBuf.empty.Holds [] := ⟨rfl, rfl, fun _ member => absurd member List.not_mem_nil⟩

theorem Holds.buffers_nil (holds : dyn.Holds []) : dyn.buffers = [] := by
  have none_ := holds.spells
  cases buffers : dyn.buffers with
  | nil => rfl
  | cons db next =>
    rw [buffers, bytesOf_cons, List.append_eq_nil_iff] at none_
    exact absurd none_.1 (holds.used db (buffers ▸ List.mem_cons_self)).some_

theorem isEmpty_of_bytesOf {buffers : List DBufBuffer} (used : ∀ db ∈ buffers, Used db) :
    buffers.isEmpty = (bytesOf buffers).isEmpty := by
  cases buffers with
  | nil => rfl
  | cons db next =>
    have some_ := (used db List.mem_cons_self).some_
    rw [bytesOf_cons]
    cases bytes : db.bytes with
    | nil => exact absurd bytes some_
    | cons c t => rfl

/-! ### Appending -/

theorem putFrom_nil (fuel : Nat) (buf : Text) (enough : buf.length ≤ fuel) :
    bytesOf (putFrom fuel [] buf) = buf ∧ ∀ db ∈ putFrom fuel [] buf, Used db := by
  induction fuel generalizing buf with
  | zero =>
    rw [List.length_eq_zero_iff.mp (Nat.le_zero.mp enough)]
    exact ⟨rfl, fun _ member => absurd member List.not_mem_nil⟩
  | succ fuel ih =>
    unfold putFrom
    split
    · rename_i none_
      exact ⟨none_.symm, fun _ member => absurd member List.not_mem_nil⟩
    · rename_i some_
      have long := List.length_pos_iff.mpr some_
      obtain ⟨bytes, used⟩ := ih (buf.drop DBUF_SIZE) (by
        rw [List.length_drop]
        unfold DBUF_SIZE
        omega)
      refine ⟨?_, fun db member => ?_⟩
      · rw [bytesOf_cons]
        show buf.take DBUF_SIZE ++ bytesOf (putFrom fuel [] (buf.drop DBUF_SIZE)) = buf
        rw [bytes, List.take_append_drop]
      · rcases List.mem_cons.mp member with rfl | member
        · refine ⟨fun none_ => ?_, ?_⟩
          · have short := congrArg List.length none_
            change (buf.take DBUF_SIZE).length = 0 at short
            rw [List.length_take] at short
            unfold DBUF_SIZE at short
            omega
          · show 0 + (buf.take DBUF_SIZE).length ≤ DBUF_SIZE
            rw [List.length_take]
            omega
        · exact used db member

theorem putFrom_last {d : DBufBuffer} (used : Used d) (buf : Text) :
    bytesOf (putFrom (buf.length + 1) [d] buf) = d.bytes ++ buf ∧
      ∀ db ∈ putFrom (buf.length + 1) [d] buf, Used db := by
  unfold putFrom
  split
  · rename_i none_
    rw [none_, List.append_nil]
    exact ⟨List.append_nil _, fun db member => List.mem_singleton.mp member ▸ used⟩
  · obtain ⟨bytes, others⟩ := putFrom_nil buf.length
      (buf.drop (DBUF_SIZE - (d.start + d.bytes.length))) (by rw [List.length_drop]; omega)
    refine ⟨?_, fun db member => ?_⟩
    · rw [bytesOf_cons]
      show (d.bytes ++ buf.take (DBUF_SIZE - (d.start + d.bytes.length))) ++ bytesOf
        (putFrom buf.length [] (buf.drop (DBUF_SIZE - (d.start + d.bytes.length)))) = _
      rw [bytes, List.append_assoc, List.take_append_drop]
    · rcases List.mem_cons.mp member with rfl | member
      · refine ⟨fun none_ => used.some_ (List.append_eq_nil_iff.mp none_).1, ?_⟩
        show d.start + (d.bytes ++ buf.take (DBUF_SIZE - (d.start + d.bytes.length))).length ≤ _
        rw [List.length_append, List.length_take]
        have room := used.fits
        omega
      · exact others db member

/-- **`dbuf_put` appends.** -/
theorem Holds.put (holds : dyn.Holds q) (buf : Text) : (dyn.put buf).Holds (q ++ buf) := by
  have length : (dyn.put buf).length = (q ++ buf).length := by
    rw [List.length_append, ← holds.length]
    rfl
  by_cases none_ : dyn.length = 0
  · obtain rfl : q = [] := List.length_eq_zero_iff.mp (holds.length.symm.trans none_)
    obtain ⟨bytes, used⟩ := putFrom_nil (buf.length + 1) buf (Nat.le_succ _)
    have buffers : (dyn.put buf).buffers = putFrom (buf.length + 1) [] buf := by
      unfold DBuf.put
      rw [if_pos none_, holds.buffers_nil]
    exact ⟨buffers ▸ bytes, length, buffers ▸ used⟩
  · have some_ : dyn.buffers ≠ [] := fun none_buffers => by
      have bytes := holds.spells
      rw [none_buffers] at bytes
      exact none_ (holds.length.trans (congrArg List.length bytes.symm))
    obtain ⟨front, d, parts⟩ := List.eq_nil_or_concat dyn.buffers |>.resolve_left some_
    have used := holds.used
    have before := holds.spells
    have buffers : (dyn.put buf).buffers = front ++ putFrom (buf.length + 1) [d] buf := by
      unfold DBuf.put
      rw [if_neg none_, parts]
      simp
    rw [parts, List.concat_eq_append] at used before
    obtain ⟨bytes, more⟩ := putFrom_last (used d (by simp)) buf
    refine ⟨?_, length, fun db member => ?_⟩
    · rw [buffers, bytesOf_append, bytes, ← before, bytesOf_append, List.append_assoc]
      simp [bytesOf]
    · rw [buffers] at member
      rcases List.mem_append.mp member with old | new
      · exact used db (List.mem_append_left _ old)
      · exact more db new

/-! ### Taking off the front -/

theorem deleteFrom_spec {buffers : List DBufBuffer} (used : ∀ db ∈ buffers, Used db) (length : Nat) :
    bytesOf (deleteFrom buffers length) = (bytesOf buffers).drop length ∧
      ∀ db ∈ deleteFrom buffers length, Used db := by
  induction buffers generalizing length with
  | nil => exact ⟨List.drop_nil.symm, fun _ member => absurd member List.not_mem_nil⟩
  | cons db next ih =>
    have rest : ∀ db ∈ next, Used db := fun db member => used db (List.mem_cons_of_mem _ member)
    unfold deleteFrom
    split
    · rename_i zero
      rw [zero]
      exact ⟨rfl, used⟩
    · simp only []
      rw [bytesOf_cons, List.drop_append]
      split
      · rename_i whole
        rw [whole, List.drop_of_length_le (by omega), List.nil_append]
        exact ih rest (length - db.bytes.length)
      · rename_i part
        have short : min db.bytes.length length = length := by omega
        have none_ : length - db.bytes.length = 0 := by omega
        rw [short, bytesOf_cons, none_]
        refine ⟨rfl, fun other member => ?_⟩
        rcases List.mem_cons.mp member with rfl | member
        · have fits := (used db List.mem_cons_self).fits
          refine ⟨fun empty => ?_, ?_⟩
          · have gone := List.drop_eq_nil_iff.mp empty
            omega
          · show db.start + length + (db.bytes.drop length).length ≤ DBUF_SIZE
            rw [List.length_drop]
            omega
        · exact rest other member

theorem Holds.of_used {buffers : List DBufBuffer} (spells : bytesOf buffers = q)
    (used : ∀ db ∈ buffers, Used db) {length : Nat} (same : length = q.length) :
    Holds ⟨buffers, if buffers.isEmpty then 0 else length⟩ q := by
  refine ⟨spells, ?_, used⟩
  show (if buffers.isEmpty then 0 else length) = q.length
  rw [isEmpty_of_bytesOf used, spells, same]
  cases q <;> rfl

/-- **`dbuf_delete` takes bytes off the front.** -/
theorem Holds.delete (holds : dyn.Holds q) (length : Nat) :
    (dyn.delete length).Holds (q.drop length) := by
  obtain ⟨spells, used⟩ := deleteFrom_spec holds.used (min length dyn.length)
  have same : q.drop (min length dyn.length) = q.drop length := by
    rw [holds.length]
    by_cases long : length ≤ q.length
    · rw [Nat.min_eq_left long]
    · rw [List.drop_of_length_le (by omega), List.drop_of_length_le (by omega)]
  rw [holds.spells, same] at spells
  refine .of_used spells used ?_
  rw [List.length_drop, holds.length]
  omega

theorem Holds.clear (holds : dyn.Holds q) : (dyn.delete dyn.length).Holds [] := by
  have rest := holds.delete dyn.length
  rwa [holds.length, List.drop_length, ← holds.length] at rest

theorem drop_takeWhile (p : Char → Bool) (t : Text) :
    t.drop (t.takeWhile p).length = t.dropWhile p := by
  have parts : t.takeWhile p ++ t.dropWhile p = t := List.takeWhile_append_dropWhile
  calc t.drop (t.takeWhile p).length
      = (t.takeWhile p ++ t.dropWhile p).drop (t.takeWhile p).length := by rw [parts]
    _ = t.dropWhile p := List.drop_append_length

theorem flushFrom_spec {buffers : List DBufBuffer} (used : ∀ db ∈ buffers, Used db) :
    bytesOf (flushFrom buffers).1 = (bytesOf buffers).dropWhile isEol ∧
      (∀ db ∈ (flushFrom buffers).1, Used db) ∧
      (flushFrom buffers).2 + (bytesOf (flushFrom buffers).1).length = (bytesOf buffers).length := by
  induction buffers with
  | nil => exact ⟨rfl, fun _ member => absurd member List.not_mem_nil, rfl⟩
  | cons db next ih =>
    obtain ⟨spells, rest, count⟩ := ih fun db member => used db (List.mem_cons_of_mem _ member)
    have parts : (db.bytes.takeWhile isEol).length + (db.bytes.dropWhile isEol).length =
        db.bytes.length := by
      rw [← List.length_append, List.takeWhile_append_dropWhile]
    unfold flushFrom
    simp only []
    rw [bytesOf_cons, List.dropWhile_append]
    split
    · rename_i ends
      have gone : db.bytes.dropWhile isEol = [] := List.length_eq_zero_iff.mp (by omega)
      rw [gone, if_pos List.isEmpty_nil, List.length_append]
      refine ⟨spells, rest, ?_⟩
      show (db.bytes.takeWhile isEol).length + (flushFrom next).2 +
        (bytesOf (flushFrom next).1).length = _
      omega
    · rename_i ends
      have stays : db.bytes.dropWhile isEol ≠ [] := fun gone => by
        rw [gone, List.length_nil] at parts
        exact ends (by omega)
      rw [drop_takeWhile, if_neg (by simpa using stays), bytesOf_cons, List.length_append,
        List.length_append]
      refine ⟨rfl, fun other member => ?_, (Nat.add_assoc ..).symm.trans (congrArg (· + _) parts)⟩
      rcases List.mem_cons.mp member with rfl | member
      · have fits := (used db List.mem_cons_self).fits
        refine ⟨stays, ?_⟩
        show db.start + (db.bytes.takeWhile isEol).length + (db.bytes.dropWhile isEol).length ≤ _
        omega
      · exact used other (List.mem_cons_of_mem _ member)

/-- **`dbuf_flush` skips ends.** -/
theorem Holds.flush (holds : dyn.Holds q) : dyn.flush.Holds (q.dropWhile isEol) := by
  obtain ⟨spells, used, count⟩ := flushFrom_spec holds.used
  rw [holds.spells] at spells count
  refine .of_used spells used ?_
  rw [holds.length, ← spells]
  omega

/-! ### The next line -/

/-- The bytes in front of the first end. -/
def word (t : Text) : Text := t.takeWhile (!isEol ·)

theorem scanFrom_eq (buffers : List DBufBuffer) (length : Nat) :
    scanFrom buffers length =
      if (word ((bytesOf buffers).take length)).length < min length (bytesOf buffers).length then
        some (word ((bytesOf buffers).take length))
      else none := by
  induction buffers generalizing length with
  | nil =>
    rw [if_neg (by simp [bytesOf])]
    rfl
  | cons db next ih =>
    unfold scanFrom
    split
    · rename_i zero
      rw [zero, if_neg (by simp)]
    · have seen : (db.bytes.take length).length = min length db.bytes.length := List.length_take
      have first : (word (db.bytes.take length)).length ≤ (db.bytes.take length).length :=
        List.takeWhile_prefix _ |>.length_le
      have both : word ((bytesOf (db :: next)).take length) =
          if (word (db.bytes.take length)).length = (db.bytes.take length).length then
            db.bytes.take length ++ word ((bytesOf next).take (length - db.bytes.length))
          else word (db.bytes.take length) := by
        rw [bytesOf_cons, List.take_append]
        exact List.takeWhile_append
      rw [both, bytesOf_cons, List.length_append]
      simp only []
      change (if (word (db.bytes.take length)).length < _ then some (word (db.bytes.take length))
        else (scanFrom next (length - (word (db.bytes.take length)).length)).map
          (word (db.bytes.take length) ++ ·)) = _
      split
      · rename_i short
        rw [if_neg (Nat.ne_of_lt short), if_pos (by omega)]
      · rename_i whole
        have all : (word (db.bytes.take length)).length = (db.bytes.take length).length := by omega
        have same : word (db.bytes.take length) = db.bytes.take length :=
          (List.takeWhile_prefix _).eq_of_length all
        have left : length - (db.bytes.take length).length = length - db.bytes.length := by omega
        rw [if_pos all, same, left, ih, List.length_append]
        by_cases found : (word ((bytesOf next).take (length - db.bytes.length))).length <
            min (length - db.bytes.length) (bytesOf next).length
        · rw [if_pos found, if_pos (by omega)]
          rfl
        · rw [if_neg found, if_neg (by omega)]
          rfl

/-- The next line of some bytes and what is left after it, if its end is among the first `length`;
otherwise no line, and all of them. -/
def nextLine (q : Text) (length : Nat) : Text × Text :=
  let line := word (q.take length)
  if line.length < min length q.length then (line, (q.drop line.length).dropWhile isEol) else ([], q)

theorem nextLine_nil (length : Nat) : nextLine [] length = ([], []) := by
  unfold nextLine
  simp only []
  rw [if_neg (by simp)]

theorem nextLine_word (plain : ∀ c ∈ q, isEol c = false) (length : Nat) :
    nextLine q length = ([], q) := by
  have all : word (q.take length) = q.take length :=
    List.takeWhile_eq_self_iff.mpr fun c member => by
      rw [plain c (List.mem_of_mem_take member)]
      rfl
  unfold nextLine
  simp only []
  rw [all, List.length_take, if_neg (Nat.lt_irrefl _)]

theorem nextLine_line {line t : Text} {c : Char} (plain : ∀ c ∈ line, isEol c = false)
    (isEnd : isEol c = true) {length : Nat} (short : line.length < length) :
    nextLine (line ++ c :: t) length = (line, t.dropWhile isEol) := by
  have first : word ((line ++ c :: t).take length) = line := by
    obtain ⟨more, split_⟩ : ∃ more, length - line.length = more + 1 :=
      ⟨length - line.length - 1, by omega⟩
    rw [List.take_append, List.take_of_length_le (Nat.le_of_lt short), split_, List.take_succ_cons]
    refine (List.takeWhile_append_of_pos fun d member => ?_).trans ?_
    · rw [plain d member]
      rfl
    · rw [List.takeWhile_cons_of_neg (by simp [isEnd]), List.append_nil]
  unfold nextLine
  simp only []
  rw [first, List.length_append, List.length_cons, if_pos (by omega), List.drop_append_length,
    List.dropWhile_cons_of_pos isEnd]

/-- **`dbuf_getmsg` takes the next line off.** -/
theorem Holds.getmsg (holds : dyn.Holds q) (length : Nat) :
    (dyn.getmsg length).2 = (nextLine (q.dropWhile isEol) length).1 ∧
      (dyn.getmsg length).1.Holds (nextLine (q.dropWhile isEol) length).2 := by
  have flushed := holds.flush
  generalize q.dropWhile isEol = q at flushed ⊢
  unfold DBuf.getmsg
  simp only []
  by_cases zero : dyn.flush.length = 0
  · obtain rfl : q = [] := List.length_eq_zero_iff.mp (flushed.length.symm.trans zero)
    rw [if_pos zero, nextLine_nil]
    exact ⟨rfl, flushed⟩
  · have taken : q.take (min length q.length) = q.take length := List.take_eq_take_min.symm
    rw [if_neg zero, scanFrom_eq, flushed.spells, flushed.length, taken, Nat.min_assoc, Nat.min_self]
    unfold nextLine
    simp only []
    by_cases found : (word (q.take length)).length < min length q.length
    · rw [if_pos found, if_pos found]
      exact ⟨rfl, (flushed.delete _).flush⟩
    · rw [if_neg found, if_neg found]
      exact ⟨rfl, flushed⟩

end DBuf

end PtlinkIrcd
