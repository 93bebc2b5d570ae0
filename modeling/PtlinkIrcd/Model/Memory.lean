/-
**Strings in memory.**

A list of characters stands for memory, and a position in it for a pointer; a read or a write outside
of it has no result.

* `readString`, `strcpy`, `strncpy`, `strncpy_irc`, `strchr` — the string at a pointer, copies of it, and the
  first place of a character in it.
* `strtokenAt` — `strtoken` on its pointer: it ends the token in place.
* `strtokenAt_none`, `strtokenAt_last`, `strtokenAt_word` — what a call does, by what is at the pointer.
-/

import PtlinkIrcd.Lib.Buffers
import PtlinkIrcd.Model.Text

namespace PtlinkIrcd

open Lib

/-- The string at the start of some memory. -/
def stringOf (memory : Text) : Text := memory.takeWhile (· ≠ NUL)

def readString (memory : Text) (i : Nat) : Option Text :=
  if NUL ∈ memory.drop i then some (stringOf (memory.drop i)) else none

/-- `strcpy` from some memory to the place `i` of another. -/
def strcpy (out : Text) (i : Nat) (source : Text) : Option Text :=
  copyThrough (· == NUL) source.length source i out

/-- `strncpy_irc` to the start of `s1`. -/
def strncpy_irc (s1 s2 : Text) (n : Nat) : Option Text := copyThrough (· == NUL) n s2 0 s1

/-- `strncpy` of the C library: it fills up with terminators. -/
def strncpy (dest : Text) (src : Text) (n : Nat) : Option Text :=
  let string := stringOf src
  if n ≤ dest.length then
    some (splice dest 0 (string.take n ++ List.replicate (n - string.length) NUL))
  else none

/-- `strchr`: the place of the first `c` in the string at `i`, if there is one. -/
def strchr (memory : Text) (i : Nat) (c : Char) : Option (Option Nat) := do
  let place ← skipWhile (fun d => d ≠ NUL && d ≠ c) memory i
  let d ← memory[place]?
  some (if d = c then some place else none)

/-- A write before a pointer: `p[-1] = c`. -/
def storeBefore (memory : Text) : Nat → Char → Option Text
  | 0, _ => none
  | i + 1, c => store memory i c

/-- `strtoken`, where `pos` is the pointer that it starts from: `str`, or `*save`. It gives the memory,
what it leaves in `*save`, and the token. -/
def strtokenAt (fs : Char) (memory : Text) :
    Option Nat → Option (Text × Option Nat × Option Nat)
  | none => some (memory, none, none)
  | some pos => do
    let tmp ← skipWhile (fun c => c ≠ NUL && c == fs) memory pos
    let c ← memory[tmp]?
    if c = NUL then some (memory, none, none)
    else
      let pos ← skipWhile (fun c => c ≠ NUL && !c == fs) memory tmp
      let c ← memory[pos]?
      if c = NUL then some (memory, none, some tmp)
      else (store memory pos NUL).bind fun memory => some (memory, some (pos + 1), some tmp)

section

variable {front w after gap : Text} {fs : Char}

theorem stringOf_append (word : NUL ∉ w) : stringOf (w ++ NUL :: after) = w := by
  unfold stringOf
  rw [List.takeWhile_append_of_pos (fun c member => by
    simpa using fun same : c = NUL => word (same ▸ member)), List.takeWhile_cons_of_neg (by simp),
    List.append_nil]

theorem readString_eq (front : Text) (word : NUL ∉ w) :
    readString (front ++ (w ++ NUL :: after)) front.length = some w := by
  unfold readString
  rw [List.drop_left, if_pos (List.mem_append_right _ List.mem_cons_self), stringOf_append word]

theorem strcpy_eq {out : Text} {i : Nat} (word : NUL ∉ w) (room : i + w.length + 1 ≤ out.length) :
    strcpy out i (w ++ NUL :: after) = some (splice out i (w ++ [NUL])) := by
  have plain : ∀ c ∈ w, (c == NUL) = false := fun c member =>
    beq_false_of_ne fun same => word (same ▸ member)
  unfold strcpy
  rw [copyThrough_eq plain (beq_self_eq_true NUL) (by omega), List.take_of_length_le]
  simp

theorem storeBefore_eq (front : Text) (b c : Char) (rest : Text) :
    storeBefore (front ++ b :: rest) (front.length + 1) c = some (front ++ c :: rest) :=
  store_length_append front rest b

theorem skip_all {skip : Char → Bool} {d : Char} (all : ∀ c ∈ w, skip c = true) (ends : skip d = false)
    (front : Text) :
    skipWhile skip (front ++ (w ++ d :: after)) front.length = some (front ++ w).length := by
  have skipped := skipWhile_eq ends front w after
  rw [List.takeWhile_eq_self_iff.mpr all, List.append_assoc] at skipped
  rw [skipped, List.length_append]

theorem strchr_none {c : Char} (string : NUL ∉ w) (apart : c ∉ w) (proper : c ≠ NUL) (front after : Text) :
    strchr (front ++ (w ++ NUL :: after)) front.length c = some none := by
  have plain : ∀ d ∈ w, (decide (d ≠ NUL) && decide (d ≠ c)) = true := fun d member => by
    rw [Bool.and_eq_true, decide_eq_true_eq, decide_eq_true_eq]
    exact ⟨fun same => string (same ▸ member), fun same => apart (same ▸ member)⟩
  have read := getElem?_length_append (front ++ w) (NUL :: after)
  rw [List.append_assoc] at read
  rw [strchr, skip_all plain rfl, Option.bind_eq_bind, Option.bind_some, read]
  exact congrArg some (if_neg proper.symm)

theorem strchr_some {c : Char} (string : NUL ∉ w) (apart : c ∉ w) (front after : Text) :
    strchr (front ++ (w ++ c :: after)) front.length c = some (some (front ++ w).length) := by
  have plain : ∀ d ∈ w, (decide (d ≠ NUL) && decide (d ≠ c)) = true := fun d member => by
    rw [Bool.and_eq_true, decide_eq_true_eq, decide_eq_true_eq]
    exact ⟨fun same => string (same ▸ member), fun same => apart (same ▸ member)⟩
  have read := getElem?_length_append (front ++ w) (c :: after)
  rw [List.append_assoc] at read
  rw [strchr, skip_all plain (by simp), Option.bind_eq_bind, Option.bind_some, read]
  exact congrArg some (if_pos rfl)

/-! ### `strtoken` -/

theorem skip_separators {d : Char} (all : ∀ c ∈ gap, (c == fs) = true) (string : NUL ∉ gap)
    (ends : d = NUL ∨ (d == fs) = false) (front : Text) :
    skipWhile (fun c => c ≠ NUL && c == fs) (front ++ (gap ++ d :: after)) front.length =
      some (front ++ gap).length := by
  refine skip_all (fun c member => ?_) ?_ front
  · rw [all c member, Bool.and_true, decide_eq_true_eq]
    exact fun same => string (same ▸ member)
  · rcases ends with rfl | other
    · rfl
    · rw [other, Bool.and_false]

/-- **There is no token** when there are only separators. -/
theorem strtokenAt_none (all : ∀ c ∈ gap, (c == fs) = true) (string : NUL ∉ gap) (front after : Text) :
    strtokenAt fs (front ++ (gap ++ NUL :: after)) (some front.length) =
      some (front ++ (gap ++ NUL :: after), none, none) := by
  have read := getElem?_length_append (front ++ gap) (NUL :: after)
  rw [List.append_assoc] at read
  rw [strtokenAt, skip_separators all string (.inl rfl), Option.bind_eq_bind, Option.bind_some, read]
  rfl

theorem strtokenAt_find {d : Char} (all : ∀ c ∈ gap, (c == fs) = true)
    (word : IsWord (· == fs) w) (string : NUL ∉ gap ++ w) (ends : d = NUL ∨ (d == fs) = true)
    (front after : Text) :
    strtokenAt fs (front ++ (gap ++ (w ++ d :: after))) (some front.length) =
      if d = NUL then
        some (front ++ (gap ++ (w ++ d :: after)), none, some (front ++ gap).length)
      else
        (store (front ++ (gap ++ (w ++ d :: after))) (front ++ gap ++ w).length NUL).bind fun memory =>
          some (memory, some ((front ++ gap ++ w).length + 1), some (front ++ gap).length) := by
  obtain ⟨e, w, rfl⟩ := List.exists_cons_of_ne_nil word.ne_nil
  rw [List.mem_append, not_or] at string
  have proper : e ≠ NUL := (List.ne_of_not_mem_cons string.2).symm
  have read := getElem?_length_append (front ++ gap) (e :: w ++ d :: after)
  have readEnd := getElem?_length_append (front ++ gap ++ e :: w) (d :: after)
  have start := @skip_separators (w ++ d :: after) gap fs e all string.1
    (.inr (word.no_sep e List.mem_cons_self)) front
  have plain : ∀ c ∈ e :: w, (decide (c ≠ NUL) && !c == fs) = true := fun c member => by
    rw [word.no_sep c member, Bool.not_false, Bool.and_true, decide_eq_true_eq]
    exact fun same => string.2 (same ▸ member)
  have stop : (decide (d ≠ NUL) && !d == fs) = false := by
    rcases ends with rfl | same <;> simp [*]
  have finish := @skip_all (e :: w) after (fun c => c ≠ NUL && !c == fs) d plain stop (front ++ gap)
  simp only [List.append_assoc, List.cons_append, List.head?_cons] at read readEnd start finish ⊢
  rw [strtokenAt, start, Option.bind_eq_bind, Option.bind_some, read, Option.bind_eq_bind,
    Option.bind_some, if_neg proper, finish, Option.bind_some, readEnd, Option.bind_some]

/-- **The last token** has the end of the string behind it. -/
theorem strtokenAt_last (all : ∀ c ∈ gap, (c == fs) = true) (word : IsWord (· == fs) w)
    (string : NUL ∉ gap ++ w) (front after : Text) :
    strtokenAt fs (front ++ (gap ++ (w ++ NUL :: after))) (some front.length) =
      some (front ++ (gap ++ (w ++ NUL :: after)), none, some (front ++ gap).length) := by
  rw [strtokenAt_find all word string (.inl rfl), if_pos rfl]

/-- **A token with a separator behind it**: the separator becomes the end of the token. -/
theorem strtokenAt_word (all : ∀ c ∈ gap, (c == fs) = true) (word : IsWord (· == fs) w)
    (string : NUL ∉ gap ++ w) (proper : fs ≠ NUL) (front after : Text) :
    strtokenAt fs (front ++ (gap ++ (w ++ fs :: after))) (some front.length) =
      some (front ++ (gap ++ (w ++ NUL :: after)), some ((front ++ gap ++ w).length + 1),
        some (front ++ gap).length) := by
  have write := @store_length_append _ NUL (front ++ gap ++ w) after fs
  simp only [List.append_assoc] at write
  rw [strtokenAt_find all word string (.inr (beq_self_eq_true fs)), if_neg proper]
  simp only [List.append_assoc]
  rw [write, Option.bind_some]

end

end PtlinkIrcd
