/-
**Filling pages.**

Items go to the open page one after the other; a page that is full with the item just written is
closed.

* `Pages`, `add`, `fill` — the closed pages and the open one.
* `flatten_fill` — **nothing is lost and nothing is written twice**; `pages` — the pages in the end,
  `flatten_pages`.
* `Room` — every page is within a bound when it is closed, told by the weights alone; `closed_fill_iff`,
  `pages_fill_iff` — **that is so exactly when the pages are**.
-/

import Mathlib.Algebra.GroupWithZero.Nat
import Mathlib.Data.List.Basic

namespace PtlinkIrcd.Lib

variable {α : Type}

/-- The closed pages, and the open one. -/
structure Pages (α : Type) where
  closed : List (List α)
  rest : List α

namespace Pages

/-- Nothing was written. -/
def start : Pages α := ⟨[], []⟩

/-- The weight of a page. -/
def load (weight : α → Nat) (page : List α) : Nat := (page.map weight).sum

variable (weight : α → Nat) (full : Nat → Bool)

/-- Write an item. -/
def add (p : Pages α) (x : α) : Pages α :=
  if full (load weight (p.rest ++ [x])) then ⟨p.closed ++ [p.rest ++ [x]], []⟩
  else ⟨p.closed, p.rest ++ [x]⟩

/-- Write several. -/
def fill (p : Pages α) (items : List α) : Pages α := items.foldl (add weight full) p

/-- **Pages are within a bound when they are closed**, from a load on. -/
def Room (bound : Nat) : Nat → List Nat → Prop
  | _, [] => True
  | idx, w :: ws =>
    if full (idx + w) then idx + w ≤ bound ∧ Room bound 0 ws else Room bound (idx + w) ws

/-- What was written. -/
def all (p : Pages α) : List α := p.closed.flatten ++ p.rest

/-- The pages in the end: an open page without items is none, unless there is no other one. -/
def pages (p : Pages α) : List (List α) :=
  p.closed ++ if p.rest ≠ [] ∨ p.closed = [] then [p.rest] else []

variable {weight full} {p : Pages α} {x : α} {items page : List α}

theorem load_append (page : List α) (x : α) :
    load weight (page ++ [x]) = load weight page + weight x := by
  unfold load
  rw [List.map_append, List.sum_append]
  rfl

theorem all_add (p : Pages α) (x : α) : (p.add weight full x).all = p.all ++ [x] := by
  unfold add all
  split
  · rw [List.flatten_append, List.flatten_singleton, List.append_nil, List.append_assoc]
  · rw [List.append_assoc]

/-- **Nothing is lost and nothing is written twice.** -/
theorem flatten_fill (p : Pages α) (items : List α) :
    (p.fill weight full items).all = p.all ++ items := by
  induction items generalizing p with
  | nil => exact (List.append_nil _).symm
  | cons x items ih =>
    have rest := ih (p.add weight full x)
    rw [all_add, List.append_assoc] at rest
    exact rest

theorem flatten_pages (p : Pages α) : p.pages.flatten = p.all := by
  unfold pages all
  rw [List.flatten_append]
  split
  · rw [List.flatten_singleton]
  · rename_i none_
    rw [not_not.mp (not_or.mp none_).1]
    rfl

theorem pages_ne_nil (p : Pages α) : p.pages ≠ [] := by
  unfold pages
  split
  · exact List.append_ne_nil_of_right_ne_nil _ (List.cons_ne_nil _ _)
  · rename_i none_
    rw [List.append_nil]
    exact (not_or.mp none_).2

theorem mem_pages (member : page ∈ p.pages) : page ∈ p.closed ∨ page = p.rest := by
  unfold pages at member
  rcases List.mem_append.mp member with old | last
  · exact .inl old
  · split at last
    · exact .inr (List.mem_singleton.mp last)
    · exact absurd last List.not_mem_nil

theorem closed_subset_fill (p : Pages α) (items : List α) :
    p.closed ⊆ (p.fill weight full items).closed := by
  induction items generalizing p with
  | nil => exact List.Subset.refl _
  | cons x items ih =>
    refine List.Subset.trans ?_ (ih (p.add weight full x))
    unfold add
    split
    · exact List.subset_append_left ..
    · exact List.Subset.refl _

/-- **The closed pages are within a bound exactly when there is room.** -/
theorem closed_fill_iff {bound : Nat} (before : ∀ page ∈ p.closed, load weight page ≤ bound) :
    (∀ page ∈ (p.fill weight full items).closed, load weight page ≤ bound) ↔
      Room full bound (load weight p.rest) (items.map weight) := by
  induction items generalizing p with
  | nil => exact iff_of_true before trivial
  | cons x items ih =>
    show (∀ page ∈ ((p.add weight full x).fill weight full items).closed, _) ↔ _
    rw [List.map_cons, Room, ← load_append]
    unfold add
    split
    · by_cases fits : load weight (p.rest ++ [x]) ≤ bound
      · rw [ih fun page member => by
          rcases List.mem_append.mp member with old | new
          · exact before page old
          · rw [List.mem_singleton.mp new]
            exact fits]
        exact (and_iff_right fits).symm
      · refine iff_of_false (fun all => fits (all _ ?_)) fun both => fits both.1
        exact closed_subset_fill _ _ (List.mem_append_right _ List.mem_cons_self)
    · exact ih before

/-- **There is room when every item fits a page that was not full.** -/
theorem room_of_slack {bound : Nat} {ws : List Nat} {idx : Nat} (fresh : full 0 = false)
    (slack : ∀ w ∈ ws, ∀ idx, full idx = false → idx + w ≤ bound) (open_ : full idx = false) :
    Room full bound idx ws := by
  induction ws generalizing idx with
  | nil => trivial
  | cons w ws ih =>
    have rest : ∀ {idx}, full idx = false → Room full bound idx ws := fun open_ =>
      ih (fun v member => slack v (List.mem_cons_of_mem w member)) open_
    rw [Room]
    split
    · exact ⟨slack w List.mem_cons_self idx open_, rest fresh⟩
    · rename_i more
      exact rest (Bool.eq_false_iff.mpr more)

theorem rest_fill (open_ : p.rest = [] ∨ full (load weight p.rest) = false) :
    (p.fill weight full items).rest = [] ∨
      full (load weight (p.fill weight full items).rest) = false := by
  induction items generalizing p with
  | nil => exact open_
  | cons x items ih =>
    refine ih ?_
    unfold add
    split
    · exact .inl rfl
    · rename_i more
      exact .inr (Bool.eq_false_iff.mpr more)

/-- **All pages are within a bound exactly when there is room**, if a page that is not full is. -/
theorem pages_fill_iff {bound : Nat} (slack : ∀ idx, full idx = false → idx ≤ bound) :
    (∀ page ∈ (start.fill weight full items).pages, load weight page ≤ bound) ↔
      Room full bound 0 (items.map weight) := by
  have closed := @closed_fill_iff _ weight full start items bound fun _ member =>
    absurd member List.not_mem_nil
  refine Iff.trans ⟨fun fits page member => ?_, fun fits page member => ?_⟩ closed
  · exact fits page (List.mem_append_left _ member)
  · rcases mem_pages member with old | rfl
    · exact fits page old
    · rcases @rest_fill _ weight full start items (.inl rfl) with empty | more
      · rw [empty]
        exact Nat.zero_le _
      · exact slack _ more

end Pages

end PtlinkIrcd.Lib
