/-
**Quoting in the lines of the configuration.**

The loop of `initconf` over a line writes what a pair denotes in the place of the backslash, and then
moves the rest of the line down, over what it just wrote.

* `quoting` — the loop in the memory of the line.
* `quoting_eq` — it ends, reads nothing behind the terminator, and leaves `Lib.unescape`: **every pair
  becomes its second character**.
* `quoting_iff` — it leaves what the line denotes exactly when no pair before the cut denotes a control
  character and no backslash stands alone at the end.
-/

import PtlinkIrcd.Lib.Fields
import PtlinkIrcd.Model.Masks
import PtlinkIrcd.Model.Memory

namespace PtlinkIrcd

open Lib

/-- The table of `initconf`. -/
def quotes : Text :=
  [NUL,
    NUL, '\x08', NUL, NUL, NUL, '\x0c', NUL,
    NUL, NUL, NUL, NUL, NUL, NUL, '\n',
    NUL, NUL, NUL, '\r', NUL, '\t', NUL,
    '\x0b', NUL, NUL, NUL, NUL,
    NUL, NUL, NUL, NUL, NUL, NUL]

/-- What is written in the place of a backslash before `d`. -/
def quoteOf (d : Char) : Option Char := if d = '\\' then some '\\' else quotes[d.toNat % 32]?

/-- The loop from `tmp` on, in at most so many rounds. -/
def quotingFrom : Nat → Text → Nat → Option Text
  | 0, _, _ => none
  | rounds + 1, memory, tmp => do
    let c ← memory[tmp]?
    if c = NUL then some memory
    else if c = '\\' then
      let d ← memory[tmp + 1]?
      let q ← quoteOf d
      let memory ← store memory tmp q
      -- `for (s = tmp; (*s = *(s+1)); s++);` starts at the place just written
      let memory ← moveDown memory.length memory tmp (tmp + 1)
      quotingFrom rounds memory (tmp + 1)
    else if c = '#' then
      let memory ← store memory tmp NUL
      quotingFrom rounds memory (tmp + 1)
    else quotingFrom rounds memory (tmp + 1)

/-- The quoting of characters and the detection of `#`, with what is in the memory from the line on.
There are not more rounds than bytes, since a read outside of the memory has no result. -/
def quoting (memory : Text) : Option Text := quotingFrom memory.length memory 0

/-! ### What the loop leaves -/

section

theorem stringOf_concat (out : Text) : stringOf (out ++ [NUL]) = stringOf out := by
  unfold stringOf
  rw [List.takeWhile_append]
  split
  case isTrue whole => rw [List.takeWhile_cons_of_neg (by simp), List.append_nil,
    (List.takeWhile_prefix _).eq_of_length whole]
  case isFalse => rfl

theorem stringOf_cons {c : Char} (proper : c ≠ NUL) (out : Text) :
    stringOf (c :: out) = c :: stringOf out := List.takeWhile_cons_of_pos (by simpa using proper)

variable {w after : Text} {rounds : Nat}

theorem quoteOf_some (d : Char) : ∃ q, quoteOf d = some q := by
  unfold quoteOf
  split
  · exact ⟨_, rfl⟩
  · have inside : d.toNat % 32 < quotes.length :=
      (Nat.mod_lt _ (by decide)).trans (show 32 < quotes.length by decide)
    exact ⟨_, List.getElem?_eq_getElem inside⟩

theorem quotingFrom_backslash (front : Text) {d : Char} {behind : Text}
    (next : w ++ NUL :: after = d :: behind) (word : NUL ∉ w) :
    quotingFrom (rounds + 1) (front ++ '\\' :: w ++ NUL :: after) front.length =
      quotingFrom rounds (front ++ w ++ NUL :: NUL :: after) (front.length + 1) := by
  have read : (front ++ '\\' :: w ++ NUL :: after)[front.length]? = some '\\' := by
    rw [List.append_assoc, getElem?_length_append]
    rfl
  have readNext : (front ++ '\\' :: w ++ NUL :: after)[front.length + 1]? = some d := by
    have split : front ++ '\\' :: w ++ NUL :: after = (front ++ ['\\']) ++ d :: behind := by
      rw [List.append_assoc, List.cons_append, next, List.append_cons]
    rw [split, show front.length + 1 = (front ++ ['\\']).length by simp, getElem?_length_append]
    exact List.head?_cons
  obtain ⟨q, found⟩ := quoteOf_some d
  have write : store (front ++ '\\' :: w ++ NUL :: after) front.length q =
      some (front ++ q :: w ++ NUL :: after) := by
    rw [List.append_assoc, List.cons_append, store_length_append]
    simp
  have enough : w.length < (front ++ q :: w ++ NUL :: after).length := by
    simp only [List.length_append, List.length_cons]
    omega
  rw [quotingFrom, read, Option.bind_eq_bind, Option.bind_some, if_neg (by decide), if_pos rfl, readNext,
    Option.bind_eq_bind, Option.bind_some, found, Option.bind_some, write, Option.bind_some,
    moveDown_one front q word enough]
  rfl

/-- **The loop leaves the line without its escapes**, up to the cut. -/
theorem quotingFrom_eq (front : Text) (word : NUL ∉ w) (enough : w.length < rounds) :
    ∃ out, out.length = w.length + 1 ∧ stringOf out = unescape '\\' '#' w ∧
      quotingFrom rounds (front ++ w ++ NUL :: after) front.length = some (front ++ out ++ after) := by
  induction rounds generalizing front w after with
  | zero => exact absurd enough (Nat.not_lt_zero _)
  | succ rounds ih =>
    cases w with
    | nil =>
      have read : (front ++ [] ++ NUL :: after)[front.length]? = some NUL := by
        rw [List.append_nil, getElem?_length_append]
        rfl
      refine ⟨[NUL], rfl, rfl, ?_⟩
      rw [quotingFrom, read, Option.bind_eq_bind, Option.bind_some, if_pos rfl]
      simp
    | cons c w =>
      have later : NUL ∉ w := List.not_mem_of_not_mem_cons word
      have plain : c ≠ NUL := (List.ne_of_not_mem_cons word).symm
      have fewer := Nat.lt_of_succ_lt_succ enough
      have next : ∀ b : Char, front.length + 1 = (front ++ [b]).length := fun b => by simp
      have read : (front ++ c :: w ++ NUL :: after)[front.length]? = some c := by
        rw [List.append_assoc, getElem?_length_append]
        rfl
      by_cases escapes : c = '\\'
      · rw [escapes]
        cases w with
        | nil =>
          rw [@quotingFrom_backslash [] after rounds front NUL after rfl later]
          obtain ⟨more, rfl⟩ := Nat.exists_eq_add_of_lt fewer
          refine ⟨[NUL, NUL], rfl, rfl, ?_⟩
          have ended := @getElem?_length_append _ (front ++ [NUL]) (NUL :: after)
          rw [List.length_append, List.length_singleton, List.append_assoc] at ended
          rw [List.append_nil, quotingFrom]
          simp only [List.singleton_append] at ended
          rw [ended]
          simp
        | cons d w =>
          rw [@quotingFrom_backslash (d :: w) after rounds front d (w ++ NUL :: after) rfl later,
            next d, List.append_cons front d w]
          obtain ⟨out, length, left, same⟩ := @ih _ (NUL :: after) (front ++ [d])
            (List.not_mem_of_not_mem_cons later) (Nat.lt_of_succ_lt fewer)
          have proper : d ≠ NUL := (List.ne_of_not_mem_cons later).symm
          refine ⟨d :: out ++ [NUL], by simp [length], ?_, ?_⟩
          · rw [List.cons_append, stringOf_cons proper, stringOf_concat, left, unescape, if_pos rfl]
          · rw [same]
            simp
      · by_cases cuts : c = '#'
        · have write : store (front ++ c :: w ++ NUL :: after) front.length NUL =
              some (front ++ [NUL] ++ w ++ NUL :: after) := by
            rw [List.append_assoc, List.cons_append, store_length_append]
            simp
          obtain ⟨out, length, -, same⟩ := @ih _ after (front ++ [NUL]) later fewer
          have none_ : unescape '\\' '#' (c :: w) = [] := by
            rw [cuts]
            cases w <;> rfl
          refine ⟨NUL :: out, by simp [length], none_.symm, ?_⟩
          rw [quotingFrom, read, Option.bind_eq_bind, Option.bind_some, if_neg plain, if_neg escapes,
            if_pos cuts, write, Option.bind_eq_bind, Option.bind_some, next NUL, same]
          simp
        · obtain ⟨out, length, left, same⟩ := @ih _ after (front ++ [c]) later fewer
          refine ⟨c :: out, by simp [length], ?_, ?_⟩
          · rw [stringOf_cons plain, left, unescape_cons_of_ne escapes cuts]
          · rw [quotingFrom, read, Option.bind_eq_bind, Option.bind_some, if_neg plain,
              if_neg escapes, if_neg cuts, next c, List.append_cons front c w, same]
            simp

end

/-- **Every pair becomes its second character and a lone backslash goes.** The loop ends, reads
nothing behind the terminator and changes nothing there. -/
theorem quoting_eq (line : CString) (after : Text) :
    ∃ out, out.length = line.1.length + 1 ∧ stringOf out = unescape '\\' '#' line.1 ∧
      quoting (line.1 ++ NUL :: after) = some (out ++ after) := by
  unfold quoting
  refine quotingFrom_eq [] line.2 ?_
  rw [List.length_append, List.length_cons]
  omega

/-! ### What a line denotes -/

/-- The letters that denote a control character behind a backslash. -/
def controlLetters : Text := ['b', 'f', 'n', 'r', 't', 'v']

/-- What a pair denotes: a control character of the table, or its second character. -/
def denoted (d : Char) : Char :=
  if d ∈ controlLetters then quotes.getD (d.toNat % 32) NUL else d

/-- What a line denotes: each pair its character, up to the first `#` that is not in a pair. -/
def unquote : Text → Text
  | [] => []
  | [c] => if c = '#' then [] else [c]
  | c :: d :: rest =>
    if c = '\\' then denoted d :: unquote rest
    else if c = '#' then []
    else c :: unquote (d :: rest)

/-- Before the cut no pair denotes a control character and no backslash is without a second
character. -/
def PlainQuotes : Text → Prop
  | [] => True
  | [c] => c ≠ '\\'
  | c :: d :: rest =>
    if c = '\\' then d ∉ controlLetters ∧ PlainQuotes rest
    else if c = '#' then True
    else PlainQuotes (d :: rest)

theorem denoted_eq_iff (d : Char) : d = denoted d ↔ d ∉ controlLetters := by
  unfold denoted
  constructor
  · intro same letter
    rw [if_pos letter] at same
    have all : ∀ d ∈ controlLetters, d ≠ quotes.getD (d.toNat % 32) NUL := by
      simp [controlLetters, quotes]
    exact all d letter same
  · intro other
    rw [if_neg other]

theorem unescape_eq_unquote_iff (t : Text) : unescape '\\' '#' t = unquote t ↔ PlainQuotes t := by
  fun_induction PlainQuotes t with
  | case1 => exact iff_of_true rfl trivial
  | case2 c =>
    rw [unescape, unquote]
    by_cases escapes : c = '\\'
    · rw [if_pos (.inl escapes), if_neg (by rw [escapes]; decide)]
      exact iff_of_false (by simp) (fun plain => plain escapes)
    · refine iff_of_true ?_ escapes
      by_cases cuts : c = '#' <;> simp [escapes, cuts]
  | case3 d rest ih =>
    rw [unescape, unquote, if_pos rfl, if_pos rfl, List.cons.injEq, denoted_eq_iff, ih]
  | case4 d rest escapes => exact iff_of_true rfl trivial
  | case5 c d rest escapes cuts ih =>
    rw [unescape, unquote, if_neg escapes, if_neg cuts, if_neg escapes, if_neg cuts, List.cons.injEq, ih]
    exact and_iff_right rfl

instance (t : Text) : Decidable (PlainQuotes t) := decidable_of_iff _ (unescape_eq_unquote_iff t)

/-- **The quoting loop leaves what the line denotes exactly when no pair denotes a control character
and no backslash ends the line.** For every line it ends, inside the line and its terminator. -/
theorem quoting_iff (line : CString) (after : Text) :
    ∃ out, out.length = line.1.length + 1 ∧ quoting (line.1 ++ NUL :: after) = some (out ++ after) ∧
      (stringOf out = unquote line.1 ↔ PlainQuotes line.1) := by
  obtain ⟨out, length, left, same⟩ := quoting_eq line after
  refine ⟨out, length, same, ?_⟩
  rw [left]
  exact unescape_eq_unquote_iff line.1

def sampleQuoted : CString := ⟨"K:*.org:no\\tspam:*".toList, by decide⟩

/-- **A pair that denotes a tabulator leaves its letter.** -/
theorem not_quoting : ¬ ∀ (line : CString) (after : Text), ∃ out,
    out.length = line.1.length + 1 ∧ quoting (line.1 ++ NUL :: after) = some (out ++ after) ∧
      stringOf out = unquote line.1 := by
  intro unquotes
  obtain ⟨out, length, same, left⟩ := unquotes sampleQuoted []
  obtain ⟨_, -, left', same'⟩ := quoting_eq sampleQuoted []
  obtain rfl := List.append_cancel_right (Option.some.inj (same.symm.trans same'))
  exact absurd (left'.symm.trans left) (by decide)

end PtlinkIrcd
