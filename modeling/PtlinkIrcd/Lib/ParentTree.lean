/-
**Trees kept by parent pointers.**

Every node but the root points to its parent; nodes outside the tree point nowhere.

* `Under parent a v` — `v` is `a`, or hangs below it.
* `Under.not_child` — nothing that hangs on the root is below its own children.
* `Under.exists_child` — who is properly below a node is below one of its children.
* `Prunes` — some nodes and all below them were taken out; the rest hangs as before
  (`Prunes.under_iff`).
* `Grafts` — a new leaf was hung on a node; the rest hangs as before (`Grafts.under_iff`).
-/

import Mathlib.Data.List.Basic
import Mathlib.Logic.Function.Basic

namespace PtlinkIrcd.Lib

variable {α : Type} {parent other : α → Option α} {root a b c v : α}

/-- `v` is `a`, or hangs below it. -/
inductive Under (parent : α → Option α) (a : α) : α → Prop
  | refl : Under parent a a
  | step {v p : α} (up : parent v = some p) (under : Under parent a p) : Under parent a v

namespace Under

theorem trans (first : Under parent a b) (second : Under parent b v) : Under parent a v := by
  induction second with
  | refl => exact first
  | step up _ ih => exact .step up ih

theorem child (up : parent c = some a) : Under parent a c := .step up .refl

/-- **Who is properly below a node is below one of its children.** -/
theorem exists_child (under : Under parent a v) (ne : v ≠ a) :
    ∃ c, parent c = some a ∧ Under parent c v := by
  induction under with
  | refl => exact absurd rfl ne
  | @step v p up _ ih =>
    by_cases here : p = a
    · exact ⟨v, here ▸ up, .refl⟩
    · obtain ⟨c, child, under⟩ := ih here
      exact ⟨c, child, .step up under⟩

end Under

/-! ### Depth -/

/-- The number of steps down from the root. -/
inductive Depth (parent : α → Option α) (root : α) : Nat → α → Prop
  | root : Depth parent root 0 root
  | step {n : Nat} {v p : α} (up : parent v = some p) (depth : Depth parent root n p) :
      Depth parent root (n + 1) v

theorem Under.exists_depth (under : Under parent root v) : ∃ n, Depth parent root n v := by
  induction under with
  | refl => exact ⟨0, .root⟩
  | step up _ ih =>
    obtain ⟨n, depth⟩ := ih
    exact ⟨n + 1, .step up depth⟩

theorem Depth.unique (none_ : parent root = none) {n m : Nat} (first : Depth parent root n v)
    (second : Depth parent root m v) : n = m := by
  induction first generalizing m with
  | root =>
    cases second with
    | root => rfl
    | step up _ => exact absurd (none_.symm.trans up) (by simp)
  | step up _ ih =>
    cases second with
    | root => exact absurd (none_.symm.trans up) (by simp)
    | step above depth =>
      obtain rfl := Option.some.inj (up.symm.trans above)
      rw [ih depth]

theorem Under.depth_le (none_ : parent root = none) (under : Under parent a v) {n m : Nat}
    (high : Depth parent root n a) (low : Depth parent root m v) : n ≤ m := by
  induction under generalizing m with
  | refl => exact Nat.le_of_eq (high.unique none_ low)
  | step up _ ih =>
    cases low with
    | root => exact absurd (none_.symm.trans up) (by simp)
    | step above depth =>
      obtain rfl := Option.some.inj (up.symm.trans above)
      exact Nat.le_succ_of_le (ih depth)

/-- **No node is below its own children.** -/
theorem Under.not_child (none_ : parent root = none) (rooted : Under parent root a)
    (child : parent c = some a) : ¬ Under parent c a := by
  intro circle
  obtain ⟨n, depth⟩ := rooted.exists_depth
  have deeper := circle.depth_le none_ (.step child depth) depth
  exact Nat.not_succ_le_self n deeper

/-! ### Taking nodes out -/

/-- Some nodes are gone, with all that hung on them. -/
structure Prunes (gone : α → Prop) (parent other : α → Option α) : Prop where
  closed : ∀ v p, parent v = some p → gone p → gone v
  cut : ∀ v, gone v → other v = none
  same : ∀ v, ¬ gone v → other v = parent v

/-- **What stays hangs as before.** -/
theorem Prunes.under_iff {gone : α → Prop} (prunes : Prunes gone parent other) (stays : ¬ gone a) :
    Under other a v ↔ Under parent a v ∧ ¬ gone v := by
  constructor
  · intro under
    induction under with
    | refl => exact ⟨.refl, stays⟩
    | @step v p up _ ih =>
      have here : ¬ gone v := fun gone => absurd ((prunes.cut v gone).symm.trans up) (by simp)
      exact ⟨.step ((prunes.same v here).symm.trans up) ih.1, here⟩
  · rintro ⟨under, here⟩
    induction under with
    | refl => exact .refl
    | step up _ ih =>
      exact .step ((prunes.same _ here).trans up) (ih fun gone => here (prunes.closed _ _ up gone))

/-! ### Hanging a leaf -/

/-- A new leaf `c` hangs on `p`. -/
structure Grafts (c p : α) (parent other : α → Option α) : Prop where
  fresh : ∀ v, parent v ≠ some c
  hung : other c = some p
  same : ∀ v, v ≠ c → other v = parent v

/-- **What was there hangs as before.** -/
theorem Grafts.under_iff {p : α} (grafts : Grafts c p parent other) (ne : v ≠ c) :
    Under other a v ↔ Under parent a v := by
  constructor
  · intro under
    induction under with
    | refl => exact .refl
    | @step v q up _ ih =>
      have old := (grafts.same v ne).symm.trans up
      exact .step old (ih fun same => grafts.fresh v (same ▸ old))
  · intro under
    induction under with
    | refl => exact .refl
    | @step v q up _ ih =>
      exact .step ((grafts.same v ne).trans up) (ih fun same => grafts.fresh v (same ▸ up))

end PtlinkIrcd.Lib
