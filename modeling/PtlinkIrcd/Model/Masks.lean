/-
**Masks.**

What a mask stands for, and `collapse` in the memory of its caller.

* `MaskMatches` — the reference semantics of a mask, up to case.
* `collapse_matches`, `collapse_chain` — the mask without adjacent stars stands for the same names.
* `collapseInPlace` — `collapse` as it moves the pattern about; `collapseInPlace_eq` reads the
  collapsed mask back.
-/

import Mathlib.Data.List.Chain
import PtlinkIrcd.Lib.Buffers
import PtlinkIrcd.Lib.Globs
import PtlinkIrcd.Model.Text

namespace PtlinkIrcd

open Lib

/-- A character of a mask that is no star fits a character of a name. -/
def Fits (m n : Char) : Prop := m = '?' ∨ toLower m = toLower n

/-- What a mask stands for: a star for any run, a question mark for any character, every other
character for itself up to case. -/
def MaskMatches (mask name : Text) : Prop := Glob (· = '*') Fits mask name

theorem maskMatches_star {mask name : Text} :
    MaskMatches ('*' :: mask) name ↔ ∃ rest, rest <:+ name ∧ MaskMatches mask rest :=
  glob_star rfl

theorem maskMatches_cons {m n : Char} {mask name : Text} (plain : m ≠ '*') :
    MaskMatches (m :: mask) (n :: name) ↔ Fits m n ∧ MaskMatches mask name :=
  glob_cons plain

theorem maskMatches_of_fold {p name : Text} (same : p.map toUpper = name.map toUpper) : MaskMatches p name := by
  induction p generalizing name with
  | nil =>
    obtain rfl : name = [] := by simpa using same.symm
    rfl
  | cons c p ih =>
    cases name with
    | nil => simp at same
    | cons d name =>
      obtain ⟨head, tail⟩ := List.cons.inj same
      by_cases star : c = '*'
      · rw [star]
        exact maskMatches_star.mpr ⟨name, List.suffix_cons _ _, ih tail⟩
      · exact (maskMatches_cons star).mpr ⟨.inr (toLower_eq_of_toUpper_eq head), ih tail⟩

/-! ### Adjacent stars -/

theorem collapse_cons_of_ne {c : Char} (plain : c ≠ '*') (t : Text) :
    collapse (c :: t) = c :: collapse t := by
  cases t with
  | nil => rfl
  | cons d t => rw [collapse, if_neg fun stars => plain stars.1]

theorem collapse_star (t : Text) :
    collapse ('*' :: t) = '*' :: collapse (t.dropWhile (· = '*')) := by
  induction t with
  | nil => rfl
  | cons c t ih =>
    by_cases star : c = '*'
    · rw [star, collapse, if_pos ⟨rfl, rfl⟩, ih, List.dropWhile_cons_of_pos (by decide)]
    · rw [collapse, if_neg fun stars => star stars.2, List.dropWhile_cons_of_neg (by simpa using star)]

/-- **A collapsed mask stands for the same names.** -/
theorem collapse_matches (mask name : Text) :
    MaskMatches (collapse mask) name ↔ MaskMatches mask name := by
  unfold MaskMatches
  fun_induction collapse mask generalizing name with
  | case1 => rfl
  | case2 => rfl
  | case3 c d rest stars ih => exact (ih name).trans (Iff.symm (glob_star_star stars.1 stars.2))
  | case4 c d rest _ ih => exact glob_cons_congr ih c name

def Apart (t : Text) : Prop := t.IsChain fun c d => ¬ (c = '*' ∧ d = '*')

theorem collapse_apart (t : Text) : Apart (collapse t) := by
  unfold Apart
  fun_induction collapse t with
  | case1 => exact .nil
  | case2 => exact .singleton _
  | case3 _ _ _ _ ih => exact ih
  | case4 c d rest apart ih =>
    refine ih.cons fun e head => ?_
    rw [head?_collapse] at head
    rw [← Option.some.inj head]
    exact apart

/-! ### `collapse` in place -/

/-- `while ('*' == *t) ++t;` from `t` on. -/
def skipStars (memory : Text) (t : Nat) : Option Nat := skipWhile (· = '*') memory t

/-- `while ((*s1++ = *t++));` in at most so many rounds. -/
def moveDown : Nat → Text → Nat → Nat → Option Text
  | 0, _, _, _ => none
  | rounds + 1, memory, s1, t => do
    let c ← memory[t]?
    let memory ← store memory s1 c
    if c = NUL then some memory else moveDown rounds memory (s1 + 1) (t + 1)

/-- What `collapse` does behind a star: the stars from `s1` on go. -/
def squeeze (memory : Text) (s1 : Nat) : Option Text := do
  let t ← skipStars memory s1
  if s1 ≠ t then moveDown memory.length memory s1 t else some memory

/-- The loop of `collapse` from `s` on, in at most so many rounds. -/
def collapseFrom : Nat → Text → Nat → Option Text
  | 0, _, _ => none
  | rounds + 1, memory, s => do
    let c ← memory[s]?
    if c = NUL then some memory
    else if c = '*' then
      let memory ← squeeze memory (s + 1)
      collapseFrom rounds memory (s + 1)
    else collapseFrom rounds memory (s + 1)

/-- `collapse(pattern)`, with what is in the memory from the pattern on. Neither loop has more rounds
than there are bytes, since a read outside of the memory has no result. -/
def collapseInPlace (memory : Text) : Option Text := collapseFrom memory.length memory 0

section

variable {gap w after : Text} {rounds : Nat}

/-- **The string behind a gap is moved to its start**, and what is behind the string stays. -/
theorem moveDown_eq (front : Text) (some_ : gap ≠ []) (word : NUL ∉ w) (enough : w.length < rounds) :
    ∃ junk, junk.length = gap.length ∧ junk.getLast? = some NUL ∧
      moveDown rounds (front ++ gap ++ w ++ NUL :: after) front.length (front.length + gap.length) =
        some (front ++ w ++ NUL :: (junk ++ after)) := by
  induction rounds generalizing front gap w with
  | zero => exact absurd enough (Nat.not_lt_zero _)
  | succ rounds ih =>
    obtain ⟨g, gap, rfl⟩ := List.exists_cons_of_ne_nil some_
    have write : ∀ c rest, store (front ++ (g :: gap) ++ rest) front.length c =
        some (front ++ [c] ++ gap ++ rest) := by
      intro c rest
      rw [List.append_assoc, List.cons_append, store_length_append]
      simp
    cases w with
    | nil =>
      have read : (front ++ (g :: gap) ++ [] ++ NUL :: after)[front.length + (g :: gap).length]? =
          some NUL := by
        rw [← List.length_append, List.append_nil, getElem?_length_append]
        rfl
      refine ⟨gap ++ [NUL], by simp, List.getLast?_concat, ?_⟩
      rw [moveDown, read, List.append_nil, Option.bind_eq_bind, Option.bind_some, write,
        Option.bind_eq_bind, Option.bind_some, if_pos rfl]
      simp
    | cons c w =>
      have read : (front ++ (g :: gap) ++ (c :: w) ++ NUL :: after)[front.length + (g :: gap).length]? =
          some c := by
        rw [← List.length_append, List.append_assoc, getElem?_length_append]
        rfl
      have plain : c ≠ NUL := (List.ne_of_not_mem_cons word).symm
      obtain ⟨junk, same, ends, moved⟩ := ih (front ++ [c]) (show gap ++ [c] ≠ [] by simp)
        (List.not_mem_of_not_mem_cons word) (Nat.lt_of_succ_lt_succ enough)
      refine ⟨junk, same.trans (by simp), ends, ?_⟩
      rw [moveDown, read, Option.bind_eq_bind, Option.bind_some, List.append_assoc, write,
        Option.bind_eq_bind, Option.bind_some, if_neg plain]
      simpa [Nat.add_assoc, Nat.add_comm, Nat.add_left_comm] using moved

theorem moveDown_one (front : Text) (g : Char) (word : NUL ∉ w) (enough : w.length < rounds) :
    moveDown rounds (front ++ g :: w ++ NUL :: after) front.length (front.length + 1) =
      some (front ++ w ++ NUL :: NUL :: after) := by
  obtain ⟨junk, one, ends, moved⟩ := @moveDown_eq [g] w after rounds front (List.cons_ne_nil g []) word
    enough
  obtain ⟨c, rfl⟩ := List.length_eq_one_iff.mp one
  obtain rfl := Option.some.inj ends
  rw [List.append_assoc front [g] w] at moved
  exact moved

theorem squeeze_eq (front : Text) (word : NUL ∉ w) :
    ∃ junk, (w.dropWhile (· = '*')).length + junk.length = w.length ∧
      squeeze (front ++ w ++ NUL :: after) front.length =
        some (front ++ w.dropWhile (· = '*') ++ NUL :: (junk ++ after)) := by
  have whole := List.takeWhile_append_dropWhile (p := (· = '*')) (l := w)
  unfold squeeze
  rw [skipStars, skipWhile_eq (by decide), Option.bind_eq_bind, Option.bind_some]
  generalize w.takeWhile (· = '*') = stars, w.dropWhile (· = '*') = rest at whole
  subst whole
  by_cases none_ : stars = []
  · exact ⟨[], by simp [none_], by simp [none_]⟩
  · have moves : front.length ≠ front.length + stars.length := by
      have positive := List.length_pos_of_ne_nil none_
      omega
    obtain ⟨junk, same, -, moved⟩ := @moveDown_eq stars rest after _ front none_
      (fun member => word (List.mem_append_right _ member))
      (show rest.length < (front ++ stars ++ rest ++ NUL :: after).length by
        simp only [List.length_append, List.length_cons]
        omega)
    refine ⟨junk, by rw [List.length_append, same, Nat.add_comm], ?_⟩
    rw [if_pos moves, ← List.append_assoc, moved]

theorem collapseFrom_eq (front : Text) (word : NUL ∉ w) (enough : w.length < rounds) :
    ∃ junk, (collapse w).length + junk.length = w.length ∧
      collapseFrom rounds (front ++ w ++ NUL :: after) front.length =
        some (front ++ collapse w ++ NUL :: (junk ++ after)) := by
  induction rounds generalizing front w after with
  | zero => exact absurd enough (Nat.not_lt_zero _)
  | succ rounds ih =>
    cases w with
    | nil =>
      have read : (front ++ [] ++ NUL :: after)[front.length]? = some NUL := by
        rw [List.append_nil, getElem?_length_append]
        rfl
      refine ⟨[], rfl, ?_⟩
      rw [collapseFrom, read, Option.bind_eq_bind, Option.bind_some, if_pos rfl]
      rfl
    | cons c w =>
      have later : NUL ∉ w := List.not_mem_of_not_mem_cons word
      have plain : c ≠ NUL := (List.ne_of_not_mem_cons word).symm
      have fewer := Nat.lt_of_succ_lt_succ enough
      have read : (front ++ c :: w ++ NUL :: after)[front.length]? = some c := by
        rw [List.append_assoc, getElem?_length_append]
        rfl
      have split : front ++ c :: w = front ++ [c] ++ w := List.append_cons front c w
      have next : front.length + 1 = (front ++ [c]).length := by simp
      rw [collapseFrom, read, Option.bind_eq_bind, Option.bind_some, if_neg plain, split, next]
      by_cases star : c = '*'
      · obtain ⟨moved, gone, squeezed⟩ := @squeeze_eq _ after (front ++ [c]) later
        have rest : NUL ∉ w.dropWhile (· = '*') := fun member =>
          later ((List.dropWhile_sublist _).subset member)
        obtain ⟨junk, fits, same⟩ := @ih _ (moved ++ after) (front ++ [c]) rest
          ((List.dropWhile_sublist _).length_le.trans_lt fewer)
        have folded : collapse (c :: w) = c :: collapse (w.dropWhile (· = '*')) := by
          rw [star, collapse_star]
        rw [folded]
        refine ⟨junk ++ moved, ?_, ?_⟩
        · rw [List.length_cons, List.length_cons, List.length_append]
          omega
        · rw [if_pos star, squeezed, Option.bind_eq_bind, Option.bind_some, same,
            List.append_cons front c (collapse _), List.append_assoc junk]
      · obtain ⟨junk, fits, same⟩ := @ih _ after (front ++ [c]) later fewer
        rw [collapse_cons_of_ne star]
        refine ⟨junk, ?_, ?_⟩
        · rw [List.length_cons, List.length_cons]
          omega
        · rw [if_neg star, same, List.append_cons front c (collapse w)]

end

/-- **`collapse` leaves the collapsed mask**, and nothing behind the pattern changes. -/
theorem collapseInPlace_eq {pattern : Text} (word : NUL ∉ pattern) (after : Text) :
    ∃ junk, (collapse pattern).length + junk.length = pattern.length ∧
      collapseInPlace (pattern ++ NUL :: after) =
        some (collapse pattern ++ NUL :: (junk ++ after)) := by
  unfold collapseInPlace
  refine collapseFrom_eq [] word ?_
  rw [List.length_append, List.length_cons]
  omega

/-- **`collapse` preserves the meaning of a mask**: the mask that it leaves stands for the same
names, has no adjacent stars, is not longer, and stays as it is when it is collapsed again. -/
theorem collapse_preserves (pattern : CString) (after : Text) :
    ∃ (result : CString) (junk : Text),
      collapseInPlace (pattern.1 ++ NUL :: after) = some (result.1 ++ NUL :: (junk ++ after)) ∧
      (∀ name, MaskMatches result.1 name ↔ MaskMatches pattern.1 name) ∧
      Apart result.1 ∧ result.1.length ≤ pattern.1.length ∧
      ∀ rest, collapseInPlace (result.1 ++ NUL :: rest) = some (result.1 ++ NUL :: rest) := by
  have word : NUL ∉ collapse pattern.1 := fun member =>
    pattern.2 ((collapse_sublist pattern.1).subset member)
  obtain ⟨junk, fits, collapsed⟩ := collapseInPlace_eq pattern.2 after
  refine ⟨⟨collapse pattern.1, word⟩, junk, collapsed, collapse_matches pattern.1,
    collapse_apart pattern.1, by dsimp only; omega, fun rest => ?_⟩
  obtain ⟨none_, fits, again⟩ := collapseInPlace_eq word rest
  rw [collapse_collapse] at fits again
  obtain rfl : none_ = [] := List.length_eq_zero_iff.mp (by omega)
  exact again

end PtlinkIrcd
