/-
**Two-sided adjacency lists.**

A relation between two kinds of nodes kept twice: every left node lists its right neighbours, every
right node its left ones.

* `Incident left right` — no list repeats a node and the two sides record the same relation.
* `Incident.link`, `Incident.unlink` — entering a new pair on both sides, or taking one out.
* `Incident.isolate` — a right node without neighbours is in no left list.
* `Incident.drop` — a right node loses those of its neighbours that are not kept.
-/

import Mathlib.Data.List.Nodup
import Mathlib.Logic.Function.Basic

namespace PtlinkIrcd.Lib

variable {α β : Type} [DecidableEq α] [DecidableEq β]

/-- The two sides record one relation, without repetition. -/
structure Incident (left : α → List β) (right : β → List α) : Prop where
  left_nodup : ∀ a, (left a).Nodup
  right_nodup : ∀ b, (right b).Nodup
  mem_iff : ∀ a b, b ∈ left a ↔ a ∈ right b

namespace Incident

variable {left : α → List β} {right : β → List α}

omit [DecidableEq α] [DecidableEq β] in
theorem empty : Incident (fun _ : α => ([] : List β)) (fun _ => []) where
  left_nodup _ := List.nodup_nil
  right_nodup _ := List.nodup_nil
  mem_iff _ _ := by simp

omit [DecidableEq α] [DecidableEq β] in
theorem isolate (incident : Incident left right) {b : β} (alone : right b = []) (a : α) :
    b ∉ left a := by
  rw [incident.mem_iff, alone]
  exact List.not_mem_nil

omit [DecidableEq α] [DecidableEq β] in
theorem isolateLeft (incident : Incident left right) {a : α} (alone : left a = []) (b : β) :
    a ∉ right b := by
  rw [← incident.mem_iff, alone]
  exact List.not_mem_nil

omit [DecidableEq α] [DecidableEq β] in
theorem perm_left (incident : Incident left right) {other : α → List β}
    (perm : ∀ a, (other a).Perm (left a)) : Incident other right where
  left_nodup a := (perm a).nodup_iff.mpr (incident.left_nodup a)
  right_nodup := incident.right_nodup
  mem_iff a b := (perm a).mem_iff.trans (incident.mem_iff a b)

omit [DecidableEq α] [DecidableEq β] in
theorem symm (incident : Incident left right) : Incident right left where
  left_nodup := incident.right_nodup
  right_nodup := incident.left_nodup
  mem_iff b a := (incident.mem_iff a b).symm

/-- **A right node loses the neighbours that are not kept**, and they lose it. -/
theorem drop (incident : Incident left right) {b : β} {kept : List α} (sub : kept.Sublist (right b))
    {left' : α → List β}
    (others : ∀ a, left' a = if a ∈ right b ∧ a ∉ kept then (left a).filter (· ≠ b) else left a) :
    Incident left' (Function.update right b kept) where
  left_nodup a := by
    rw [others]
    split
    · exact (incident.left_nodup a).filter _
    · exact incident.left_nodup a
  right_nodup other := by
    by_cases same : other = b
    · subst same
      rw [Function.update_self]
      exact (incident.right_nodup _).sublist sub
    · rw [Function.update_of_ne same]
      exact incident.right_nodup other
  mem_iff a other := by
    rw [others]
    by_cases same : other = b
    · subst same
      rw [Function.update_self]
      by_cases member : a ∈ kept
      · simp [member, incident.mem_iff, sub.subset member]
      · by_cases known : a ∈ right other
        · simp [member, known]
        · simp [member, known, incident.mem_iff]
    · rw [Function.update_of_ne same]
      split <;> simp [same, incident.mem_iff]

/-- **Entering a new pair on both sides.** -/
theorem link (incident : Incident left right) {a : α} {b : β} (fresh : b ∉ left a) :
    Incident (Function.update left a (b :: left a)) (Function.update right b (a :: right b)) where
  left_nodup other := by
    by_cases same : other = a
    · subst same
      rw [Function.update_self]
      exact List.nodup_cons.mpr ⟨fresh, incident.left_nodup _⟩
    · rw [Function.update_of_ne same]
      exact incident.left_nodup other
  right_nodup other := by
    by_cases same : other = b
    · subst same
      rw [Function.update_self]
      exact List.nodup_cons.mpr ⟨fun member => fresh ((incident.mem_iff _ _).mpr member),
        incident.right_nodup _⟩
    · rw [Function.update_of_ne same]
      exact incident.right_nodup other
  mem_iff x y := by
    by_cases hx : x = a <;> by_cases hy : y = b
    · subst hx hy
      simp
    · subst hx
      simp [hy, incident.mem_iff]
    · subst hy
      simp [hx, incident.mem_iff]
    · rw [Function.update_of_ne hx, Function.update_of_ne hy, incident.mem_iff]

/-- **Taking a pair out on both sides.** -/
theorem unlink (incident : Incident left right) (a : α) (b : β) :
    Incident (Function.update left a ((left a).erase b))
      (Function.update right b ((right b).erase a)) where
  left_nodup other := by
    by_cases same : other = a
    · subst same
      rw [Function.update_self]
      exact (incident.left_nodup _).erase _
    · rw [Function.update_of_ne same]
      exact incident.left_nodup other
  right_nodup other := by
    by_cases same : other = b
    · subst same
      rw [Function.update_self]
      exact (incident.right_nodup _).erase _
    · rw [Function.update_of_ne same]
      exact incident.right_nodup other
  mem_iff x y := by
    by_cases hx : x = a <;> by_cases hy : y = b
    · subst hx hy
      rw [Function.update_self, Function.update_self, (incident.left_nodup _).mem_erase_iff,
        (incident.right_nodup _).mem_erase_iff]
      simp
    · subst hx
      rw [Function.update_self, Function.update_of_ne hy, (incident.left_nodup _).mem_erase_iff,
        incident.mem_iff]
      exact and_iff_right hy
    · subst hy
      rw [Function.update_self, Function.update_of_ne hx, (incident.right_nodup _).mem_erase_iff,
        incident.mem_iff]
      exact (and_iff_right hx).symm
    · rw [Function.update_of_ne hx, Function.update_of_ne hy, incident.mem_iff]

end Incident

end PtlinkIrcd.Lib
