/-
**Lists of what was used last.**

A list of a fixed length that a value goes to the front of: from its own place, or from outside, when the
last value drops out.

* `recents` — the distinct values of a history, the latest first.
* `touch` — a value goes to the front.
* `touch_padded` — **touching keeps a list that holds the latest values**, filled up at the end.
-/

import Mathlib.Data.List.Basic

namespace PtlinkIrcd.Lib.Recency

section

variable {α : Type} {fill : α} {list : List α} {n : Nat}

/-- The first `n` values of a list, filled up with `fill`. -/
def padded (n : Nat) (fill : α) (list : List α) : List α := (list ++ List.replicate n fill).take n

theorem take_fill (k : Nat) : (list ++ List.replicate (n + k) fill).take n =
    (list ++ List.replicate n fill).take n := by
  rw [List.take_append, List.take_append, List.take_replicate, List.take_replicate]
  congr 2
  omega

end

variable {α : Type} [DecidableEq α] {a fill : α} {list : List α} {n : Nat}

/-- The distinct values of a history that has the latest first. -/
def recents : List α → List α
  | [] => []
  | a :: history => a :: (recents history).erase a

/-- A value goes to the front of a list of a fixed length. -/
def touch (a : α) (list : List α) : List α :=
  if a ∈ list then a :: list.erase a else a :: list.dropLast

theorem take_erase_of_notMem (outside : a ∉ list.take n) : (list.erase a).take n = list.take n := by
  induction list generalizing n with
  | nil => rfl
  | cons b list ih =>
    cases n with
    | zero => rfl
    | succ n =>
      rw [List.take_succ_cons, List.mem_cons, not_or] at outside
      rw [List.erase_cons_tail (by simpa using Ne.symm outside.1), List.take_succ_cons, List.take_succ_cons,
        ih outside.2]

theorem erase_take_of_mem (inside : a ∈ list.take (n + 1)) :
    (list.take (n + 1)).erase a = (list.erase a).take n := by
  induction list generalizing n with
  | nil => exact absurd inside (by simp)
  | cons b list ih =>
    by_cases same : b = a
    · subst same
      rw [List.take_succ_cons, List.erase_cons_head, List.erase_cons_head]
    · rw [List.take_succ_cons, List.erase_cons_tail (by simpa using same),
        List.erase_cons_tail (by simpa using same)]
      rw [List.take_succ_cons] at inside
      have later := (List.mem_cons.mp inside).resolve_left (Ne.symm same)
      cases n with
      | zero => exact absurd later (by simp)
      | succ n => rw [ih later, List.take_succ_cons]

/-- **A value goes to the front of the latest values**, wherever it was. -/
theorem touch_padded (a : α) (list : List α) (n : Nat) :
    touch a (padded (n + 1) fill list) = padded (n + 1) fill (a :: list.erase a) := by
  unfold touch padded
  rw [List.cons_append, List.take_succ_cons]
  by_cases inside : a ∈ (list ++ List.replicate (n + 1) fill).take (n + 1)
  · rw [if_pos inside, erase_take_of_mem inside]
    by_cases own : a ∈ list
    · rw [List.erase_append_left _ own]
    · -- it is one of the values that fill up the list
      rw [List.erase_append_right _ own, List.erase_of_not_mem own]
      have filled : a = fill := by
        have member := (List.mem_append.mp (List.mem_of_mem_take inside)).resolve_left own
        exact List.eq_of_mem_replicate member
      rw [filled, List.replicate_succ, List.erase_cons_head]
      exact congrArg (fill :: ·) (take_fill 1).symm
  · rw [if_neg inside]
    have shorter : ((list ++ List.replicate (n + 1) fill).take (n + 1)).dropLast =
        (list ++ List.replicate (n + 1) fill).take n := by
      rw [List.dropLast_eq_take, List.take_take, List.length_take, List.length_append,
        List.length_replicate]
      congr 1
      omega
    rw [shorter]
    have outside : a ∉ (list ++ List.replicate (n + 1) fill).take n := fun member =>
      inside (List.take_subset_take_left _ (Nat.le_succ n) member)
    by_cases own : a ∈ list
    · rw [← List.erase_append_left _ own, take_erase_of_notMem outside]
    · rw [List.erase_of_not_mem own]

end PtlinkIrcd.Lib.Recency
