/-
**Lists that admit what they do not cover.**

A new entry goes to the head of a list, unless an entry of the list covers it.

* `offer`, `offerAll` — one entry and several, one after the other.
* `Admits` — no entry that is new is covered when its turn comes.
* `subset_offerAll_iff` — **a list takes up all entries exactly when it admits them**.
* `exchange_iff` — **two lists that are given each other's entries end with the same ones exactly when
  each admits the other's**.
-/

import Mathlib.Data.List.Basic

namespace PtlinkIrcd.Lib.Admission

variable {α : Type} (covers : α → α → Bool)

/-- The list after an entry was offered. -/
def offer (held : List α) (x : α) : List α := if held.any (covers · x) then held else x :: held

/-- The list after several entries were offered. -/
def offerAll (held xs : List α) : List α := xs.foldl (offer covers) held

/-- Each entry is in the list or among those before it, or nothing there covers it. -/
def Admits (held xs : List α) : Prop :=
  ∀ before x after, xs = before ++ x :: after →
    x ∈ held ++ before ∨ ∀ y ∈ held ++ before, covers y x = false

variable {covers} {held xs ys : List α} {x y : α}

/-! ### What a list holds -/

theorem offer_of_covered (inside : y ∈ held) (covered : covers y x = true) :
    offer covers held x = held := if_pos (List.any_eq_true.mpr ⟨y, inside, covered⟩)

theorem offer_of_not_covered (free : ∀ y ∈ held, covers y x = false) :
    offer covers held x = x :: held := by
  refine if_neg fun covered => ?_
  obtain ⟨y, inside, covered⟩ := List.any_eq_true.mp covered
  rw [free y inside] at covered
  exact absurd covered Bool.false_ne_true

theorem covered_or_free (covers : α → α → Bool) (held : List α) (x : α) :
    (∃ y ∈ held, covers y x = true) ∨ ∀ y ∈ held, covers y x = false := by
  by_cases covered : ∃ y ∈ held, covers y x = true
  · exact .inl covered
  · refine .inr fun y inside => ?_
    exact Bool.eq_false_iff.mpr fun yes => covered ⟨y, inside, yes⟩

theorem mem_offer_of_mem (inside : y ∈ held) : y ∈ offer covers held x := by
  unfold offer
  split
  · exact inside
  · exact List.mem_cons_of_mem x inside

theorem mem_of_mem_offer (inside : y ∈ offer covers held x) : y = x ∨ y ∈ held := by
  unfold offer at inside
  split at inside
  · exact .inr inside
  · exact List.mem_cons.mp inside

theorem mem_offerAll_of_mem (inside : y ∈ held) : y ∈ offerAll covers held xs := by
  induction xs generalizing held with
  | nil => exact inside
  | cons x xs ih => exact ih (mem_offer_of_mem inside)

theorem mem_of_mem_offerAll (inside : y ∈ offerAll covers held xs) : y ∈ held ∨ y ∈ xs := by
  induction xs generalizing held with
  | nil => exact .inl inside
  | cons x xs ih =>
    rcases ih inside with early | late
    · rcases mem_of_mem_offer early with here | before
      · exact .inr (here ▸ List.mem_cons_self)
      · exact .inl before
    · exact .inr (List.mem_cons_of_mem x late)

theorem mem_of_covered (inside : y ∈ held) (covered : covers y x = true)
    (after : x ∈ offerAll covers held xs) : x ∈ held := by
  induction xs generalizing held with
  | nil => exact after
  | cons z xs ih =>
    have before : x ∈ offer covers held z := ih (mem_offer_of_mem inside) after
    rcases mem_of_mem_offer before with here | before
    · subst here
      rwa [offer_of_covered inside covered] at before
    · exact before

/-! ### What a list admits -/

theorem Admits.congr {other : List α} (same : ∀ y, y ∈ held ↔ y ∈ other)
    (admits : Admits covers held xs) : Admits covers other xs := by
  intro before x after split
  have all : ∀ y, y ∈ held ++ before ↔ y ∈ other ++ before := fun y => by
    rw [List.mem_append, List.mem_append, same]
  refine (admits before x after split).imp (all x).mp fun free y inside => ?_
  exact free y ((all y).mpr inside)

theorem admits_cons : Admits covers held (x :: xs) ↔
    (x ∈ held ∨ ∀ y ∈ held, covers y x = false) ∧ Admits covers (x :: held) xs := by
  have moved : ∀ before y, y ∈ held ++ x :: before ↔ y ∈ (x :: held) ++ before := by
    intro before y
    simp only [List.mem_append, List.mem_cons]
    tauto
  constructor
  · intro admits
    refine ⟨by simpa using admits [] x xs rfl, fun before y after split => ?_⟩
    have here := admits (x :: before) y after (by rw [split]; rfl)
    refine here.imp (moved before y).mp fun free z inside => ?_
    exact free z ((moved before z).mpr inside)
  · rintro ⟨first, rest⟩ before y after split
    cases before with
    | nil =>
      cases split
      simpa using first
    | cons z before =>
      cases split
      refine (rest before y after rfl).imp (moved before y).mpr fun free w inside => ?_
      exact free w ((moved before w).mp inside)

/-- **A list takes up all entries exactly when it admits them.** -/
theorem subset_offerAll_iff :
    (∀ x ∈ xs, x ∈ offerAll covers held xs) ↔ Admits covers held xs := by
  induction xs generalizing held with
  | nil =>
    refine ⟨fun _ before x after split => ?_, fun _ x inside => absurd inside List.not_mem_nil⟩
    exact absurd split (by simp)
  | cons x xs ih =>
    rw [List.forall_mem_cons, admits_cons]
    show x ∈ offerAll covers (offer covers held x) xs ∧
      (∀ y ∈ xs, y ∈ offerAll covers (offer covers held x) xs) ↔ _
    rw [ih]
    rcases covered_or_free covers held x with ⟨y, inside, covered⟩ | free
    · rw [offer_of_covered inside covered]
      have again : x ∈ held → ∀ z, z ∈ held ↔ z ∈ x :: held := fun here z =>
        ⟨List.mem_cons_of_mem x, fun or => (List.mem_cons.mp or).elim (· ▸ here) id⟩
      constructor
      · rintro ⟨after, rest⟩
        have here := mem_of_covered inside covered after
        exact ⟨.inl here, rest.congr (again here)⟩
      · rintro ⟨here, rest⟩
        have here : x ∈ held := here.resolve_right fun free => by
          rw [free y inside] at covered
          exact Bool.false_ne_true covered
        exact ⟨mem_offerAll_of_mem here, rest.congr fun z => (again here z).symm⟩
    · rw [offer_of_not_covered free]
      exact ⟨fun both => ⟨.inr free, both.2⟩,
        fun both => ⟨mem_offerAll_of_mem List.mem_cons_self, both.2⟩⟩

/-- **Two lists that are given each other's entries end with the same ones exactly when each admits
the other's.** -/
theorem exchange_iff :
    (∀ z, z ∈ offerAll covers xs ys ↔ z ∈ offerAll covers ys xs) ↔
      Admits covers xs ys ∧ Admits covers ys xs := by
  rw [← subset_offerAll_iff, ← subset_offerAll_iff]
  constructor
  · intro same
    exact ⟨fun y inside => (same y).mpr (mem_offerAll_of_mem inside),
      fun x inside => (same x).mp (mem_offerAll_of_mem inside)⟩
  · rintro ⟨left, right⟩ z
    constructor
    · intro inside
      exact (mem_of_mem_offerAll inside).elim (right z) mem_offerAll_of_mem
    · intro inside
      exact (mem_of_mem_offerAll inside).elim (left z) mem_offerAll_of_mem

end PtlinkIrcd.Lib.Admission
