/-
**Search trees.**

A binary tree is read from left to right, and gone down in a direction that every value gives.

* `inorder` — the values from left to right.
* `search`, `modify` — go down until a value says `.eq`; `.lt` is to the left.
* `Directs dir values` — the directions agree with the order: left of the end of a search, or of a
  value where it turns left, nothing comes in question any more on the right.
* `search_eq_some`, `inorder_modify` — **a search ends at the value that says `.eq`**, wherever it
  stands.
* `insert`, `inorder_insert` — a new leaf, in its place.
-/

import Mathlib.Data.List.Pairwise
import Mathlib.Data.Tree.Basic

namespace PtlinkIrcd.Lib.SearchTree

variable {α : Type}

/-- The values from left to right. -/
def inorder : BinaryTree α → List α
  | .nil => []
  | .node a left right => inorder left ++ a :: inorder right

/-- The value at which a search ends. -/
def search (dir : α → Ordering) : BinaryTree α → Option α
  | .nil => none
  | .node a left right =>
    match dir a with
    | .eq => some a
    | .lt => search dir left
    | .gt => search dir right

/-- Changing the value at which a search ends. -/
def modify (dir : α → Ordering) (f : α → α) : BinaryTree α → BinaryTree α
  | .nil => .nil
  | .node a left right =>
    match dir a with
    | .eq => .node (f a) left right
    | .lt => .node a (modify dir f left) right
    | .gt => .node a left (modify dir f right)

/-- A new leaf: left of the values that it stands `before`. -/
def insert (before : α → Bool) (new : α) : BinaryTree α → BinaryTree α
  | .nil => .node new .nil .nil
  | .node a left right =>
    if before a then .node a (insert before new left) right
    else .node a left (insert before new right)

/-- **The directions agree with the order.** -/
def Directs (dir : α → Ordering) (values : List α) : Prop :=
  values.Pairwise fun a b => dir a ≠ .gt → dir b = .lt

variable {dir : α → Ordering} {t : BinaryTree α} {a b : α}

theorem mem_inorder_node {left right : BinaryTree α} :
    b ∈ inorder (.node a left right) ↔ b ∈ inorder left ∨ b = a ∨ b ∈ inorder right := by
  show b ∈ inorder left ++ a :: inorder right ↔ _
  rw [List.mem_append, List.mem_cons]

theorem directs_node {left right : BinaryTree α} (directs : Directs dir (inorder (.node a left right))) :
    Directs dir (inorder left) ∧ Directs dir (inorder right) ∧
      (∀ b ∈ inorder left, dir b ≠ .gt → dir a = .lt) ∧
      ∀ b ∈ inorder right, dir a ≠ .gt → dir b = .lt := by
  change (inorder left ++ a :: inorder right).Pairwise _ at directs
  rw [List.pairwise_append, List.pairwise_cons] at directs
  obtain ⟨onLeft, ⟨top, onRight⟩, across⟩ := directs
  exact ⟨onLeft, onRight, fun b member => across b member a List.mem_cons_self, top⟩

/-- **A search ends at the value that says `.eq`.** -/
theorem search_eq_some (directs : Directs dir (inorder t)) :
    search dir t = some b ↔ b ∈ inorder t ∧ dir b = .eq := by
  induction t with
  | nil => exact ⟨fun none_ => (nomatch none_), fun member => absurd member.1 List.not_mem_nil⟩
  | node a left right ihLeft ihRight =>
    obtain ⟨onLeft, onRight, before, after⟩ := directs_node directs
    rw [mem_inorder_node]
    unfold search
    cases here : dir a with
    | eq =>
      refine ⟨fun same => ?_, fun found => ?_⟩
      · obtain rfl : a = b := Option.some.inj same
        exact ⟨.inr (.inl rfl), here⟩
      · rcases found with ⟨member | rfl | member, stops⟩
        · exact absurd ((before b member (by simp [stops])).symm.trans here) (by decide)
        · rfl
        · exact absurd ((after b member (by simp [here])).symm.trans stops) (by decide)
    | lt =>
      refine (ihLeft onLeft).trans ⟨fun found => ⟨.inl found.1, found.2⟩, fun found => ?_⟩
      rcases found with ⟨member | rfl | member, stops⟩
      · exact ⟨member, stops⟩
      · exact absurd (here.symm.trans stops) (by decide)
      · exact absurd ((after b member (by simp [here])).symm.trans stops) (by decide)
    | gt =>
      refine (ihRight onRight).trans ⟨fun found => ⟨.inr (.inr found.1), found.2⟩, fun found => ?_⟩
      rcases found with ⟨member | rfl | member, stops⟩
      · exact absurd ((before b member (by simp [stops])).symm.trans here) (by decide)
      · exact absurd (here.symm.trans stops) (by decide)
      · exact ⟨member, stops⟩

/-- **Changing the end of a search** changes the value that says `.eq` and no other. -/
theorem inorder_modify (directs : Directs dir (inorder t)) (f : α → α) :
    inorder (modify dir f t) = (inorder t).map fun a => if dir a = .eq then f a else a := by
  have keeps : ∀ {values : List α}, (∀ b ∈ values, dir b ≠ .eq) →
      values.map (fun a => if dir a = .eq then f a else a) = values := by
    intro values none_
    refine Eq.trans (List.map_congr_left fun b member => ?_) (List.map_id values)
    exact if_neg (none_ b member)
  induction t with
  | nil => rfl
  | node a left right ihLeft ihRight =>
    obtain ⟨onLeft, onRight, before, after⟩ := directs_node directs
    have split_ : inorder (.node a left right) = inorder left ++ a :: inorder right := rfl
    rw [split_, List.map_append, List.map_cons]
    unfold modify
    cases here : dir a with
    | eq =>
      show inorder left ++ f a :: inorder right = _
      rw [if_pos rfl, keeps, keeps]
      · exact fun b member stops => absurd
          ((after b member (by simp [here])).symm.trans stops) (by decide)
      · exact fun b member stops => absurd
          ((before b member (by simp [stops])).symm.trans here) (by decide)
    | lt =>
      show inorder (modify dir f left) ++ a :: inorder right = _
      rw [if_neg (by decide), ihLeft onLeft, keeps fun b member stops => absurd
        ((after b member (by simp [here])).symm.trans stops) (by decide)]
    | gt =>
      show inorder left ++ a :: inorder (modify dir f right) = _
      rw [if_neg (by decide), ihRight onRight, keeps fun b member stops => absurd
        ((before b member (by simp [stops])).symm.trans here) (by decide)]

/-- **A new leaf stands between the values before it and the values after it.** -/
theorem inorder_insert {before : α → Bool}
    (sorted : (inorder t).Pairwise fun a b => before a = true → before b = true) (new : α) :
    ∃ pre post, inorder t = pre ++ post ∧ inorder (insert before new t) = pre ++ new :: post ∧
      (∀ a ∈ pre, before a = false) ∧ ∀ a ∈ post, before a = true := by
  induction t with
  | nil => exact ⟨[], [], rfl, rfl, fun _ member => absurd member List.not_mem_nil,
      fun _ member => absurd member List.not_mem_nil⟩
  | node a left right ihLeft ihRight =>
    have split_ : inorder (.node a left right) = inorder left ++ a :: inorder right := rfl
    rw [split_, List.pairwise_append, List.pairwise_cons] at sorted
    obtain ⟨onLeft, ⟨top, onRight⟩, across⟩ := sorted
    unfold insert
    cases turn : before a with
    | true =>
      obtain ⟨pre, post, parts, put, less, more⟩ := ihLeft onLeft
      refine ⟨pre, post ++ a :: inorder right, ?_, ?_, less, fun b member => ?_⟩
      · rw [split_, parts, List.append_assoc]
      · show inorder (insert before new left) ++ a :: inorder right = _
        rw [put, List.append_assoc]
        rfl
      · rcases List.mem_append.mp member with early | late
        · exact more b early
        · rcases List.mem_cons.mp late with rfl | late
          · exact turn
          · exact top b late turn
    | false =>
      obtain ⟨pre, post, parts, put, less, more⟩ := ihRight onRight
      refine ⟨inorder left ++ a :: pre, post, ?_, ?_, fun b member => ?_, more⟩
      · rw [split_, parts, List.append_assoc]
        rfl
      · show inorder left ++ a :: inorder (insert before new right) = _
        rw [put, List.append_assoc]
        rfl
      · rcases List.mem_append.mp member with early | late
        · by_contra yes
          have yes : before b = true := by simpa using yes
          exact Bool.false_ne_true
            (turn.symm.trans (across b early a List.mem_cons_self yes))
        · rcases List.mem_cons.mp late with rfl | late
          · exact turn
          · exact less b late

end PtlinkIrcd.Lib.SearchTree
