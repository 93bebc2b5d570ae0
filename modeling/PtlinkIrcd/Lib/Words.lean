/-
**Words between separators.**

`words sep t` is the list of the maximal runs of non-separators of `t`.

* `words_append_cons` — a word, a separator and a rest: the word, then the words of the rest.
* `words_cases` — a list is all separators, or a word comes first.
* `words_intercalate` — **words with a separator between them are read back**, in order.
-/

import Mathlib.Data.List.Basic

namespace PtlinkIrcd.Lib

variable {α : Type}

/-- The maximal runs of non-separators. -/
def words (sep : α → Bool) (t : List α) : List (List α) := (t.splitOnP sep).filter (!·.isEmpty)

/-- A word: nonempty and free of separators. -/
structure IsWord (sep : α → Bool) (w : List α) : Prop where
  ne_nil : w ≠ []
  no_sep : ∀ c ∈ w, sep c = false

variable {sep : α → Bool}

@[simp] theorem words_nil : words sep [] = [] := rfl

theorem words_append_cons {w : List α} (word : IsWord sep w) {c : α} (hsep : sep c = true)
    (t : List α) : words sep (w ++ c :: t) = w :: words sep t := by
  rw [words, List.splitOnP_append_cons_of_forall_mem word.no_sep c hsep, List.filter_cons,
    if_pos (by simpa using word.ne_nil)]
  rfl

theorem words_word {w : List α} (word : IsWord sep w) : words sep w = [w] := by
  rw [words, List.splitOnP_eq_singleton word.no_sep, List.filter_cons,
    if_pos (by simpa using word.ne_nil)]
  rfl

theorem words_cons_sep {c : α} (hsep : sep c = true) (t : List α) : words sep (c :: t) = words sep t := by
  unfold words
  rw [List.splitOnP_cons_eq_if_modifyHead, if_pos hsep, List.filter_cons_of_neg (by simp)]

theorem words_separators {gap : List α} (all : ∀ c ∈ gap, sep c = true) (t : List α) :
    words sep (gap ++ t) = words sep t := by
  induction gap with
  | nil => rfl
  | cons c gap ih =>
    obtain ⟨first, others⟩ := List.forall_mem_cons.mp all
    rw [List.cons_append, words_cons_sep first, ih others]

/-- A list is of one kind of items, or there is a first one of another kind. -/
theorem run_cases (kind : α → Bool) (t : List α) :
    (∀ c ∈ t, kind c = true) ∨
      ∃ run c rest, t = run ++ c :: rest ∧ (∀ d ∈ run, kind d = true) ∧ kind c = false := by
  induction t with
  | nil => exact .inl nofun
  | cons c t ih =>
    cases same : kind c with
    | false => exact .inr ⟨[], c, t, rfl, nofun, same⟩
    | true =>
      rcases ih with all | ⟨run, d, rest, rfl, all, other⟩
      · exact .inl (List.forall_mem_cons.mpr ⟨same, all⟩)
      · exact .inr ⟨c :: run, d, rest, rfl, List.forall_mem_cons.mpr ⟨same, all⟩, other⟩

/-- A list is all separators, or the first word is the last or has a separator behind it. -/
theorem words_cases (sep : α → Bool) (t : List α) :
    ((∀ c ∈ t, sep c = true) ∧ words sep t = []) ∨
      ∃ gap w, (∀ c ∈ gap, sep c = true) ∧ IsWord sep w ∧
        ((t = gap ++ w ∧ words sep t = [w]) ∨
          ∃ c rest, sep c = true ∧ t = gap ++ (w ++ c :: rest) ∧ words sep t = w :: words sep rest) := by
  rcases run_cases sep t with all | ⟨gap, d, behind, rfl, all, other⟩
  · refine .inl ⟨all, ?_⟩
    rw [← List.append_nil t, words_separators all, words_nil]
  · have word : ∀ run : List α, (∀ c ∈ run, (!sep c) = true) → IsWord sep (d :: run) := fun run plain =>
      ⟨List.cons_ne_nil d run, List.forall_mem_cons.mpr ⟨other, fun c member => by
        simpa using plain c member⟩⟩
    rcases run_cases (!sep ·) behind with plain | ⟨run, c, rest, rfl, plain, ends⟩
    · exact .inr ⟨gap, d :: behind, all, word behind plain, .inl ⟨rfl, by
        rw [words_separators all, words_word (word behind plain)]⟩⟩
    · have hsep : sep c = true := by simpa using ends
      exact .inr ⟨gap, d :: run, all, word run plain, .inr ⟨c, rest, hsep, rfl, by
        rw [words_separators all, ← List.cons_append, words_append_cons (word run plain) hsep]⟩⟩

/-- **Words written with a separator between them are read back.** -/
theorem words_intercalate {c : α} (hsep : sep c = true) {items : List (List α)}
    (word : ∀ item ∈ items, IsWord sep item) : words sep ([c].intercalate items) = items := by
  induction items with
  | nil => rfl
  | cons item items ih =>
    have head := word item List.mem_cons_self
    cases items with
    | nil =>
      rw [List.intercalate_singleton]
      exact words_word head
    | cons next items =>
      rw [List.intercalate_cons_cons, List.append_assoc, List.singleton_append,
        words_append_cons head hsep, ih fun other member => word other (List.mem_cons_of_mem _ member)]

end PtlinkIrcd.Lib
