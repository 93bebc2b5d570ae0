/-
**Lines into a buffer of the caller.**

`dbuf_getmsg` with the buffer that it copies to: the bytes are written while the chain is looked
through, and the terminator when an end of line is found.

* `dbuf_getmsg` — the call, without a value when it writes outside the buffer.
* `dbuf_getmsg_eq` — it finds what `DBuf.getmsg` finds, and stays inside the buffer.
* `Extracts` — **what a call is for**: the next line, if it is complete and short.
* `getmsgs_lines` — repeated calls return the lines, up to the first that is too long.
-/

import PtlinkIrcd.Lib.Buffers
import PtlinkIrcd.Lib.Lines
import PtlinkIrcd.Net.Dbuf

namespace PtlinkIrcd

open Lib

namespace DBuf

/-- The loop of `dbuf_getmsg` over the chain: `copied` bytes are in the buffer `out` already, and at
most `length` more are looked at. The result is the buffer, and how much is in it where an end was
found. -/
def scanCopy : List DBufBuffer → Nat → Nat → Text → Option (Text × Option Nat)
  | [], _, _, out => some (out, none)
  | db :: next, length, copied, out =>
    if length = 0 then some (out, none)
    else do
      let seen := db.bytes.take length
      let count := (word seen).length
      let out ← copyUntil isEol seen copied out
      if count < seen.length then
        let out ← store out (copied + count) NUL
        some (out, some (copied + count))
      else scanCopy next (length - count) (copied + count) out

def dbuf_getmsg (dyn : DBuf) (out : Text) (length : Nat) : Option (DBuf × Text × Nat) := do
  let dyn := dyn.flush
  if dyn.length = 0 then some (dyn, out, 0)
  else
    let (out, found) ← scanCopy dyn.buffers (min length dyn.length) 0 out
    match found with
    | none => some (dyn, out, 0)
    | some copied => some ((dyn.delete copied).flush, out, copied)

variable {dyn : DBuf} {q out : Text} {buffers : List DBufBuffer} {length copied : Nat}

theorem scanFrom_cons {db : DBufBuffer} {next : List DBufBuffer} (some_ : length ≠ 0) :
    scanFrom (db :: next) length =
      if (word (db.bytes.take length)).length < (db.bytes.take length).length then
        some (word (db.bytes.take length))
      else (scanFrom next (length - (word (db.bytes.take length)).length)).map
        (word (db.bytes.take length) ++ ·) := by
  rw [scanFrom, if_neg some_]
  rfl

theorem scanCopy_cons {db : DBufBuffer} {next : List DBufBuffer} (some_ : length ≠ 0)
    (room : copied + (word (db.bytes.take length)).length ≤ out.length) :
    scanCopy (db :: next) length copied out =
      let out := splice out copied (word (db.bytes.take length))
      let copied := copied + (word (db.bytes.take length)).length
      if (word (db.bytes.take length)).length < (db.bytes.take length).length then
        (store out copied NUL).bind fun out => some (out, some copied)
      else scanCopy next (length - (word (db.bytes.take length)).length) copied out := by
  have copy : copyUntil isEol (db.bytes.take length) copied out =
      some (splice out copied (word (db.bytes.take length))) := copyUntil_eq room
  rw [scanCopy, if_neg some_]
  simp only [copy, Option.bind_eq_bind, Option.bind_some]

/-- **The copy is what the scan finds**, behind what was copied before. -/
theorem scanCopy_eq (room : copied + length ≤ out.length) :
    ∃ out', out'.length = out.length ∧
      scanCopy buffers length copied out =
        some (out', (scanFrom buffers length).map fun line => copied + line.length) ∧
      ∀ line, scanFrom buffers length = some line → out' = splice out copied (line ++ [NUL]) := by
  induction buffers generalizing length copied out with
  | nil => exact ⟨out, rfl, rfl, fun line found => nomatch found⟩
  | cons db next ih =>
    by_cases zero : length = 0
    · rw [scanCopy, scanFrom, if_pos zero, if_pos zero]
      exact ⟨out, rfl, rfl, fun line found => nomatch found⟩
    · have seen : (db.bytes.take length).length ≤ length := List.length_take_le ..
      have count : (word (db.bytes.take length)).length ≤ (db.bytes.take length).length :=
        (List.takeWhile_prefix _).length_le
      rw [scanCopy_cons zero (by omega), scanFrom_cons zero]
      generalize word (db.bytes.take length) = w at count ⊢
      have size : (splice out copied w).length = out.length := length_splice (by omega)
      simp only []
      by_cases short : w.length < (db.bytes.take length).length
      · rw [if_pos short, if_pos short, store_eq (by omega), Option.bind_some,
          splice_splice (by omega)]
        refine ⟨_, length_splice ?_, rfl, fun line found => ?_⟩
        · rw [List.length_append, List.length_singleton]
          omega
        · rw [Option.some.inj found]
      · rw [if_neg short, if_neg short]
        obtain ⟨out', same, copied_, found_⟩ :=
          ih (show copied + w.length + (length - w.length) ≤ (splice out copied w).length by omega)
        refine ⟨out', same.trans size, copied_.trans ?_, fun line found => ?_⟩
        · cases scanFrom next (length - w.length) with
          | none => rfl
          | some line => simp only [Option.map_some, List.length_append, Nat.add_assoc]
        · obtain ⟨rest, inNext, rfl⟩ := Option.map_eq_some_iff.mp found
          rw [found_ rest inNext, splice_splice (by omega), List.append_assoc]

/-- **`dbuf_getmsg` writes to its buffer only**, and takes the line off that `DBuf.getmsg` finds. -/
theorem Holds.dbuf_getmsg (holds : dyn.Holds q) (room : length ≤ out.length) :
    ∃ dyn' out', dyn.dbuf_getmsg out length =
        some (dyn', out', (nextLine (q.dropWhile isEol) length).1.length) ∧
      dyn'.Holds (nextLine (q.dropWhile isEol) length).2 ∧ out'.length = out.length ∧
      ((nextLine (q.dropWhile isEol) length).1 ≠ [] →
        out' = splice out 0 ((nextLine (q.dropWhile isEol) length).1 ++ [NUL])) := by
  have flushed := holds.flush
  generalize q.dropWhile isEol = q at flushed ⊢
  unfold DBuf.dbuf_getmsg
  simp only []
  by_cases zero : dyn.flush.length = 0
  · obtain rfl : q = [] := List.length_eq_zero_iff.mp (flushed.length.symm.trans zero)
    rw [if_pos zero, nextLine_nil]
    exact ⟨dyn.flush, out, rfl, flushed, rfl, fun some_ => absurd rfl some_⟩
  · have scan : scanFrom dyn.flush.buffers (min length dyn.flush.length) =
        if (word (q.take length)).length < min length q.length then some (word (q.take length))
        else none := by
      have taken : q.take (min length q.length) = q.take length := List.take_eq_take_min.symm
      rw [scanFrom_eq, flushed.spells, flushed.length, taken, Nat.min_assoc, Nat.min_self]
    have inside : 0 + min length dyn.flush.length ≤ out.length := by omega
    obtain ⟨out', same, copied, found⟩ := scanCopy_eq inside
    rw [scan] at copied found
    rw [if_neg zero, copied]
    unfold nextLine
    simp only [Option.bind_eq_bind, Option.bind_some]
    by_cases complete : (word (q.take length)).length < min length q.length
    · rw [if_pos complete, if_pos complete]
      have size : 0 + (word (q.take length)).length = (word (q.take length)).length := Nat.zero_add _
      refine ⟨_, out', ?_, (flushed.delete (word (q.take length)).length).flush, same, fun _ =>
        found _ (if_pos complete)⟩
      rw [Option.map_some, size]
    · rw [if_neg complete, if_neg complete]
      exact ⟨dyn.flush, out', rfl, flushed, same, fun some_ => absurd rfl some_⟩

/-! ### What a call is for -/

/-- **The next line**: text without an end, with the end behind it, shorter than the buffer. -/
structure Complete (q : Text) (length : Nat) (line : Text) (c : Char) (rest : Text) : Prop where
  parts : q.dropWhile isEol = line ++ c :: rest
  plain : ∀ d ∈ line, isEol d = false
  ends : isEol c = true
  short : line.length < length

/-- **What a call is for**: a complete line goes to the buffer, with a terminator, and is taken off the
queue with all ends around it; otherwise nothing but the ends in front is taken off. -/
structure Extracts (q out : Text) (dyn' : DBuf) (out' : Text) (returned : Nat) : Prop where
  inside : out'.length = out.length
  line : ∀ line c rest, Complete q out.length line c rest →
    returned = line.length ∧ line ≠ [] ∧ out'.take (line.length + 1) = line ++ [NUL] ∧
      dyn'.Holds (rest.dropWhile isEol)
  without : (¬ ∃ line c rest, Complete q out.length line c rest) →
    returned = 0 ∧ dyn'.Holds (q.dropWhile isEol)

theorem head_dropWhile {c : Char} {t : Text} (parts : q.dropWhile isEol = c :: t) :
    isEol c = false := by
  have first := List.head?_dropWhile_not isEol q
  rw [parts] at first
  simpa using first

theorem Complete.ne_nil {line rest : Text} {c : Char} (complete : Complete q length line c rest) :
    line ≠ [] := by
  rintro rfl
  exact absurd (complete.ends.symm.trans (head_dropWhile complete.parts)) (by decide)

theorem exists_complete (found : (nextLine (q.dropWhile isEol) length).1 ≠ []) :
    ∃ line c rest, Complete q length line c rest := by
  generalize front : q.dropWhile isEol = q' at found
  have parts : word (q'.take length) ++ (q'.take length).dropWhile (!isEol ·) = q'.take length :=
    List.takeWhile_append_dropWhile
  unfold nextLine at found
  simp only [] at found
  by_cases complete : (word (q'.take length)).length < min length q'.length
  · cases behind : (q'.take length).dropWhile (!isEol ·) with
    | nil =>
      have long := congrArg List.length parts
      rw [behind, List.append_nil, List.length_take] at long
      omega
    | cons c t =>
      have ends : isEol c = true := by
        have first := List.head?_dropWhile_not (!isEol ·) (q'.take length)
        rw [behind] at first
        simpa using first
      refine ⟨word (q'.take length), c, t ++ q'.drop length, ?_, fun d member => ?_, ends,
        Nat.lt_of_lt_of_le complete (Nat.min_le_left ..)⟩
      · rw [front, ← List.cons_append, ← behind, ← List.append_assoc, parts, List.take_append_drop]
      · simpa using List.mem_takeWhile_imp member
  · rw [if_neg complete] at found
    exact absurd rfl found

theorem nextLine_of_nil (nothing : (nextLine (q.dropWhile isEol) length).1 = []) :
    (nextLine (q.dropWhile isEol) length).2 = q.dropWhile isEol := by
  generalize front : q.dropWhile isEol = q' at nothing ⊢
  unfold nextLine at nothing ⊢
  simp only [] at nothing ⊢
  by_cases complete : (word (q'.take length)).length < min length q'.length
  · rw [if_pos complete] at nothing
    change word (q'.take length) = [] at nothing
    rw [nothing] at complete
    obtain ⟨c, t, rfl⟩ := List.exists_cons_of_ne_nil (show q' ≠ [] by
      rintro rfl
      simp at complete)
    obtain ⟨n, rfl⟩ : ∃ n, length = n + 1 := ⟨length - 1, by
      rw [List.length_nil] at complete
      omega⟩
    rw [List.take_succ_cons, word, List.takeWhile_cons_of_pos (by simp [head_dropWhile front])]
      at nothing
    exact absurd nothing (List.cons_ne_nil _ _)
  · rw [if_neg complete]

/-- **`dbuf_getmsg` extracts the next line**, for every content of the queue, however it is spread over
the buffers, and stays inside the buffer of the caller. -/
theorem dbuf_getmsg_extracts (holds : dyn.Holds q) (out : Text) :
    ∃ dyn' out' returned, dyn.dbuf_getmsg out out.length = some (dyn', out', returned) ∧
      Extracts q out dyn' out' returned := by
  obtain ⟨dyn', out', called, rest, same, copy⟩ := holds.dbuf_getmsg (le_refl out.length)
  refine ⟨dyn', out', _, called, same, fun line c t complete => ?_, fun none_ => ?_⟩
  · have next : nextLine (q.dropWhile isEol) out.length = (line, t.dropWhile isEol) := by
      rw [complete.parts]
      exact nextLine_line complete.plain complete.ends complete.short
    rw [next] at rest copy ⊢
    refine ⟨rfl, complete.ne_nil, ?_, rest⟩
    rw [copy complete.ne_nil, take_splice _ (by simp), List.take_of_length_le (by simp)]
  · have nothing : (nextLine (q.dropWhile isEol) out.length).1 = [] := by
      by_contra found
      exact none_ (exists_complete found)
    exact ⟨congrArg List.length nothing, nextLine_of_nil nothing ▸ rest⟩

/-! ### Repeated calls -/

/-- Calls until one returns zero, with the lines they return. -/
def getmsgs : Nat → DBuf → Text → Option (List Text × DBuf)
  | 0, _, _ => none
  | fuel + 1, dyn, out => do
    let (dyn, out, returned) ← dyn.dbuf_getmsg out out.length
    if returned = 0 then some ([], dyn)
    else
      let (lines, dyn) ← getmsgs fuel dyn out
      some (out.take returned :: lines, dyn)

/-- What is in front of the queue: a line with its end, or only an open one. -/
theorem line_or_open (q : Text) : (∀ d ∈ q.dropWhile isEol, isEol d = false) ∨
    ∃ line c rest, Complete q (line.length + 1) line c rest := by
  have parts : word (q.dropWhile isEol) ++ (q.dropWhile isEol).dropWhile (!isEol ·) =
      q.dropWhile isEol := List.takeWhile_append_dropWhile
  have plain : ∀ d ∈ word (q.dropWhile isEol), isEol d = false := fun d member => by
    simpa using List.mem_takeWhile_imp member
  cases behind : (q.dropWhile isEol).dropWhile (!isEol ·) with
  | nil =>
    rw [behind, List.append_nil] at parts
    rw [parts] at plain
    exact .inl plain
  | cons c rest =>
    have ends : isEol c = true := by
      have first := List.head?_dropWhile_not (!isEol ·) (q.dropWhile isEol)
      rw [behind] at first
      simpa using first
    exact .inr ⟨_, c, rest, (behind ▸ parts).symm, plain, ends, Nat.lt_succ_self _⟩

theorem Complete.closed {line rest : Text} {c : Char} (complete : Complete q length line c rest) :
    Lines.feed isEol .start q =
      ⟨line :: (Lines.feed isEol .start rest).closed, (Lines.feed isEol .start rest).rest⟩ := by
  have skip : Lines.feed isEol .start (q.dropWhile isEol) = Lines.feed isEol .start q :=
    Lines.feed_dropWhile [] q
  rw [← skip, complete.parts]
  exact (Lines.feed_line complete.plain complete.ne_nil complete.ends [] rest).trans
    (Lines.feed_closed [line] [] rest)

/-- **Repeated calls return every line once, in order**, up to the first one that is too long for the
buffer; where there is no such line, they leave the open one. -/
theorem getmsgs_lines (holds : dyn.Holds q) (out : Text) (fuel : Nat) (enough : q.length < fuel) :
    ∃ dyn', getmsgs fuel dyn out =
        some ((Lines.feed isEol .start q).closed.takeWhile (·.length < out.length), dyn') ∧
      ((∀ line ∈ (Lines.feed isEol .start q).closed, line.length < out.length) →
        dyn'.Holds (Lines.feed isEol .start q).rest) := by
  induction fuel generalizing dyn q out with
  | zero => exact absurd enough (Nat.not_lt_zero _)
  | succ fuel ih =>
    obtain ⟨dyn₁, out₁, returned, called, extracts⟩ := dbuf_getmsg_extracts holds out
    by_cases found : ∃ line c rest, Complete q out.length line c rest
    · obtain ⟨line, c, rest, complete⟩ := found
      obtain ⟨rfl, some_, copy, queue⟩ := extracts.line line c rest complete
      have shorter : (rest.dropWhile isEol).length < fuel := by
        have front : (q.dropWhile isEol).length ≤ q.length := (List.dropWhile_suffix _).length_le
        have behind : (rest.dropWhile isEol).length ≤ rest.length :=
          (List.dropWhile_suffix _).length_le
        rw [complete.parts, List.length_append, List.length_cons] at front
        omega
      obtain ⟨dyn', run, left_⟩ := ih queue out₁ shorter
      have skip : Lines.feed isEol .start (rest.dropWhile isEol) = Lines.feed isEol .start rest :=
        Lines.feed_dropWhile [] rest
      rw [extracts.inside, skip] at run left_
      have taken : out₁.take line.length = line := by
        have word := congrArg (List.take line.length) copy
        rwa [List.take_take, Nat.min_eq_left (Nat.le_succ _), List.take_left] at word
      refine ⟨dyn', ?_, fun short => ?_⟩
      · rw [getmsgs, called]
        simp only [Option.bind_eq_bind, Option.bind_some]
        rw [if_neg (fun zero => some_ (List.length_eq_zero_iff.mp zero)), run, complete.closed,
          List.takeWhile_cons_of_pos (by simpa using complete.short), Option.bind_some, taken]
      · rw [complete.closed] at short ⊢
        exact left_ fun line member => short line (List.mem_cons_of_mem _ member)
    · obtain ⟨rfl, queue⟩ := extracts.without found
      have ran : getmsgs (fuel + 1) dyn out = some ([], dyn₁) := by
        rw [getmsgs, called]
        rfl
      rcases line_or_open q with plain | ⟨line, c, rest, complete⟩
      · have fed : Lines.feed isEol .start q = ⟨[], q.dropWhile isEol⟩ := by
          have skip : Lines.feed isEol .start (q.dropWhile isEol) = Lines.feed isEol .start q :=
            Lines.feed_dropWhile [] q
          rw [← skip]
          exact Lines.feed_word plain .start
        rw [fed]
        exact ⟨dyn₁, ran, fun _ => queue⟩
      · have long : ¬ line.length < out.length := fun short =>
          found ⟨line, c, rest, complete.parts, complete.plain, complete.ends, short⟩
        rw [complete.closed]
        refine ⟨dyn₁, ?_, fun short => absurd (short line List.mem_cons_self) long⟩
        rw [ran, List.takeWhile_cons_of_neg (by simpa using long)]

/-- **`dbuf_getmsg` extracts lines exactly**: one call takes the next line with all ends around it, and
repeated calls return the lines in order. -/
theorem dbuf_getmsg_lines (holds : dyn.Holds q) (out : Text) :
    (∃ dyn' out' returned, dyn.dbuf_getmsg out out.length = some (dyn', out', returned) ∧
      Extracts q out dyn' out' returned) ∧
    ∀ fuel, q.length < fuel → ∃ dyn', getmsgs fuel dyn out =
        some ((Lines.feed isEol .start q).closed.takeWhile (·.length < out.length), dyn') ∧
      ((∀ line ∈ (Lines.feed isEol .start q).closed, line.length < out.length) →
        dyn'.Holds (Lines.feed isEol .start q).rest) :=
  ⟨dbuf_getmsg_extracts holds out, fun fuel enough => getmsgs_lines holds out fuel enough⟩

def sampleQueue : DBuf := DBuf.empty.put ['a', '\n', '\n', 'b']

theorem sampleQueue_lines :
    (∃ dyn' out' returned, sampleQueue.dbuf_getmsg [NUL, NUL] 2 = some (dyn', out', returned) ∧
      Extracts ['a', '\n', '\n', 'b'] [NUL, NUL] dyn' out' returned) ∧
    ∀ fuel, 4 < fuel → ∃ dyn', getmsgs fuel sampleQueue [NUL, NUL] = some ([['a']], dyn') ∧
      ((∀ line ∈ [['a']], line.length < 2) → dyn'.Holds ['b']) :=
  dbuf_getmsg_lines (Holds.empty.put ['a', '\n', '\n', 'b']) [NUL, NUL]

/-- The second end is taken off with the first line. -/
theorem not_only_terminator : ¬ ∀ (dyn : DBuf) (q out line rest : Text) (c : Char), dyn.Holds q →
    2 ≤ out.length → Complete q out.length line c rest → ∃ dyn' out',
      dyn.dbuf_getmsg out out.length = some (dyn', out', line.length) ∧ dyn'.Holds rest := by
  intro only
  have complete : Complete ['a', '\n', '\n', 'b'] 2 ['a'] '\n' ['\n', 'b'] :=
    ⟨rfl, fun d inside => by rw [List.mem_singleton.mp inside]; rfl, rfl, by decide⟩
  obtain ⟨dyn', out', called, rest⟩ := only sampleQueue _ [NUL, NUL] _ _ _
    (Holds.empty.put ['a', '\n', '\n', 'b']) (le_refl 2) complete
  have one : (sampleQueue.dbuf_getmsg [NUL, NUL] 2).map (·.1.length) = some 1 := by decide
  have two : (sampleQueue.dbuf_getmsg [NUL, NUL] 2).map (·.1.length) = some 2 :=
    (congrArg (Option.map (·.1.length)) called).trans (congrArg some rest.length)
  exact absurd (one.symm.trans two) (by decide)

end DBuf

end PtlinkIrcd
