/-
**Lines read through a buffer.**

A reader that takes at most `n` items at a time, and stops behind the end of a line: a line that is too
long comes in several pieces.

* `chunks` — the pieces, with what is already in the buffer.
* `chunks_line`, `chunks_full` — a line that fits comes whole; else the buffer is full first.
* `length_chunk_le` — no piece is longer than the buffer.
-/

import Mathlib.Data.List.Basic

namespace PtlinkIrcd.Lib

variable {α : Type} [DecidableEq α] (eol : α) (n : Nat)

/-- The pieces of a file, with `held` in the buffer. -/
def chunks (held : List α) : List α → List (List α)
  | [] => if held = [] then [] else [held]
  | c :: t => if c = eol ∨ held.length + 1 = n then (held ++ [c]) :: chunks [] t else chunks (held ++ [c]) t

variable {eol n} {held w t : List α}

theorem chunks_word (apart : eol ∉ w) (room : held.length + w.length < n) :
    chunks eol n held (w ++ t) = chunks eol n (held ++ w) t := by
  induction w generalizing held with
  | nil => rw [List.nil_append, List.append_nil]
  | cons c w ih =>
    rw [List.mem_cons, not_or] at apart
    rw [List.length_cons] at room
    rw [List.cons_append, chunks, if_neg (by rintro (same | full); exacts [apart.1 same.symm, by omega]),
      ih apart.2 (by rw [List.length_append, List.length_singleton]; omega), List.append_assoc]
    rfl

/-- **A line that fits comes whole.** -/
theorem chunks_line (apart : eol ∉ w) (room : w.length < n) :
    chunks eol n [] (w ++ eol :: t) = (w ++ [eol]) :: chunks eol n [] t := by
  rw [chunks_word apart (by rw [List.length_nil, Nat.zero_add]; exact room), List.nil_append, chunks,
    if_pos (.inl rfl)]

/-- **The buffer is full** in front of the end of the line. -/
theorem chunks_full (apart : eol ∉ w) (some_ : w ≠ []) (full : w.length = n) :
    chunks eol n [] (w ++ t) = w :: chunks eol n [] t := by
  obtain ⟨front, c, rfl⟩ : ∃ front c, w = front ++ [c] :=
    ⟨_, _, (List.dropLast_append_getLast some_).symm⟩
  rw [List.length_append, List.length_singleton] at full
  rw [List.append_assoc, chunks_word (fun member => apart (List.mem_append_left _ member))
    (by rw [List.length_nil]; omega), List.nil_append, List.singleton_append, chunks, if_pos (.inr full)]

/-- **No piece is longer than the buffer.** -/
theorem length_chunk_le (room : held.length < n) {piece : List α} (member : piece ∈ chunks eol n held t) :
    piece.length ≤ n := by
  have positive : 0 < n := Nat.zero_lt_of_lt room
  induction t generalizing held with
  | nil =>
    rw [chunks] at member
    split_ifs at member
    · cases member
    · rw [List.mem_singleton.mp member]
      exact Nat.le_of_lt room
  | cons c t ih =>
    have length : (held ++ [c]).length = held.length + 1 := by
      rw [List.length_append, List.length_singleton]
    rw [chunks] at member
    split_ifs at member with ends
    · rcases List.mem_cons.mp member with rfl | later
      · rw [length]
        exact room
      · exact @ih [] positive later
    · rw [not_or] at ends
      exact ih (by omega) member

end PtlinkIrcd.Lib
