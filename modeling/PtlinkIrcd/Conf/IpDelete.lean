/-
**What a deletion of addresses loses.**

`delete_ip_subtree` puts the in-order neighbour of a removed node in its place, and cuts off what
the loop went through on the way to that neighbour.

* `ValidTree` — disjoint prefixes from left to right, each with its lines.
* `IpNode.CoveredBy`, `covered_iff_inside` — the nodes inside a prefix, and the test of the code.
* `NoneLost` — wherever nodes stay on both sides of a removed one, the neighbour that the coin picks
  comes to stand on top of its side.
* `inorder_delete_sublist`, `delete_inorder_iff` — what is left is in order, and **all that stays is
  left exactly when the deletion loses nothing**; `Untangled` is enough for it.
* `perm_delete_clist` — the lists of the removed nodes are collected, each once.
* `RemovesCovered` — the two together.
-/

import PtlinkIrcd.Conf.IpTree

namespace PtlinkIrcd

open Lib (Covers IsPrefix netmask)
open Lib.SearchTree

variable {coin : Address → Bool} {ip mask : Address} {head node : IpNode} {left right t : IpSubtree}
  {clist : List ConfItem}

/-! ### Coverage -/

/-- A search tree of disjoint prefixes, each with its lines. -/
structure ValidTree (t : IpSubtree) : Prop where
  block : ∀ node ∈ inorder t, IsPrefix node.ip node.ip_mask
  lined : ∀ node ∈ inorder t, node.conf ≠ []
  apart : (inorder t).Pairwise IpNode.Before

/-- All addresses of a node are in `ip/mask`. -/
def IpNode.CoveredBy (ip mask : Address) (node : IpNode) : Prop :=
  ∀ x, node.Holds x → Covers (ip &&& mask) mask x

theorem IpNode.CoveredBy.inside (block : IsPrefix node.ip node.ip_mask)
    (covered : node.CoveredBy ip mask) : node.Inside ip mask := by
  have base : node.ip &&& mask = ip &&& mask := covered node.ip block.cleared
  refine ⟨base, ?_⟩
  -- The last address of the node tells that the mask has no free bit of the node.
  have last : (node.ip ||| ~~~node.ip_mask) &&& mask = node.ip &&& mask := by
    refine (covered _ ?_).trans base.symm
    show (node.ip ||| ~~~node.ip_mask) &&& node.ip_mask = node.ip
    apply BitVec.eq_of_getLsbD_eq
    intro i below
    have bit := congrArg (·.getLsbD i) block.cleared
    simp only [BitVec.getLsbD_and] at bit
    simp only [BitVec.getLsbD_and, BitVec.getLsbD_or, BitVec.getLsbD_not]
    cases on : node.ip_mask.getLsbD i <;> simp_all
  have within : mask &&& node.ip_mask = mask := by
    apply BitVec.eq_of_getLsbD_eq
    intro i below
    have cleared := congrArg (·.getLsbD i) block.cleared
    have bit := congrArg (·.getLsbD i) last
    simp only [BitVec.getLsbD_and, BitVec.getLsbD_or, BitVec.getLsbD_not] at cleared bit
    rw [BitVec.getLsbD_and]
    cases on : node.ip_mask.getLsbD i <;> simp_all
  rw [BitVec.le_def, ← within, BitVec.toNat_and]
  exact Nat.and_le_right

/-- **For a mask of first bits the test of the code is coverage.** -/
theorem covered_iff_inside (block : IsPrefix node.ip node.ip_mask) {length : Nat}
    (short : length ≤ 32) :
    node.CoveredBy ip (netmask 32 length) ↔ node.Inside ip (netmask 32 length) := by
  refine ⟨fun covered => covered.inside block, fun inside x here => ?_⟩
  exact (IsPrefix.of_and ip short).nested block inside.2 inside.1 block.covers_self here

/-! ### Ends on top -/

def LastAtTop : IpSubtree → Prop
  | .nil => True
  | .node _ _ right => right = .nil

def FirstAtTop : IpSubtree → Prop
  | .nil => True
  | .node _ left _ => left = .nil

theorem inorder_eq_nil : inorder t = [] ↔ t = .nil := by
  cases t with
  | nil => exact ⟨fun _ => rfl, fun _ => rfl⟩
  | node a left right => exact ⟨fun none_ => absurd none_ (by simp [inorder]), nofun⟩

theorem predecessor_sublist :
    (inorder (predecessor right left)).Sublist (inorder left ++ inorder right) := by
  induction left with
  | nil => exact .refl _
  | node temp below next _ ih =>
    cases next with
    | nil =>
      show (inorder below ++ temp :: inorder right).Sublist
        ((inorder below ++ [temp]) ++ inorder right)
      rw [List.append_assoc]
      exact .refl _
    | node a l r =>
      refine ih.trans ?_
      show (inorder (.node a l r) ++ inorder right).Sublist
        ((inorder below ++ temp :: inorder (.node a l r)) ++ inorder right)
      exact ((List.sublist_cons_self ..).trans (List.sublist_append_right ..)).append_right _

theorem successor_sublist :
    (inorder (successor left right)).Sublist (inorder left ++ inorder right) := by
  induction right with
  | nil => exact List.append_nil _ ▸ .refl _
  | node temp next below ih _ =>
    cases next with
    | nil => exact .refl _
    | node a l r =>
      refine ih.trans ?_
      show (inorder left ++ inorder (.node a l r)).Sublist
        (inorder left ++ (inorder (.node a l r) ++ temp :: inorder below))
      exact (List.sublist_append_left ..).append_left _

/-- The predecessor takes all of its side along exactly when it is on top of it. -/
theorem inorder_predecessor_iff : inorder (predecessor right left) = inorder left ++ inorder right ↔
    LastAtTop left := by
  cases left with
  | nil => exact ⟨fun _ => trivial, fun _ => rfl⟩
  | node temp below next =>
    cases next with
    | nil =>
      refine ⟨fun _ => rfl, fun _ => ?_⟩
      show inorder below ++ temp :: inorder right = (inorder below ++ [temp]) ++ inorder right
      rw [List.append_assoc]
      rfl
    | node a l r =>
      refine ⟨fun same => ?_, fun top => nomatch top⟩
      have fewer := (@predecessor_sublist (.node a l r) right).length_le
      rw [show predecessor right (.node a l r) = predecessor right (.node temp below (.node a l r))
        from rfl, same] at fewer
      change ((inorder below ++ temp :: inorder (.node a l r)) ++ inorder right).length ≤ _ at fewer
      simp only [List.length_append, List.length_cons] at fewer
      omega

theorem inorder_successor_iff : inorder (successor left right) = inorder left ++ inorder right ↔
    FirstAtTop right := by
  cases right with
  | nil => exact ⟨fun _ => trivial, fun _ => (List.append_nil _).symm⟩
  | node temp next below =>
    cases next with
    | nil => exact ⟨fun _ => rfl, fun _ => rfl⟩
    | node a l r =>
      refine ⟨fun same => ?_, fun top => nomatch top⟩
      have fewer := (@successor_sublist left (.node a l r)).length_le
      rw [show successor left (.node a l r) = successor left (.node temp (.node a l r) below)
        from rfl, same] at fewer
      change (inorder left ++ (inorder (.node a l r) ++ temp :: inorder below)).length ≤ _ at fewer
      simp only [List.length_append, List.length_cons] at fewer
      omega

/-- What a replacement needs to lose nothing. -/
def KeepsBoth (coin : Address → Bool) (head : IpNode) (left right : IpSubtree) : Prop :=
  left = .nil ∨ right = .nil ∨ if coin head.ip then LastAtTop left else FirstAtTop right

theorem replacement_node {a b : IpNode} {l r m n : IpSubtree} :
    replacement coin head (.node a l r) (.node b m n) =
      if coin head.ip then predecessor (.node b m n) (.node a l r)
      else successor (.node a l r) (.node b m n) := rfl

theorem replacement_sublist :
    (inorder (replacement coin head left right)).Sublist (inorder left ++ inorder right) := by
  cases left with
  | nil => exact .refl _
  | node a l r => cases right with
    | nil => exact List.append_nil _ ▸ .refl _
    | node b m n =>
      rw [replacement_node]
      split
      · exact predecessor_sublist
      · exact successor_sublist

theorem inorder_replacement_iff :
    inorder (replacement coin head left right) = inorder left ++ inorder right ↔
      KeepsBoth coin head left right := by
  cases left with
  | nil => exact ⟨fun _ => .inl rfl, fun _ => rfl⟩
  | node a l r => cases right with
    | nil => exact ⟨fun _ => .inr (.inl rfl), fun _ => (List.append_nil _).symm⟩
    | node b m n =>
      have sides : KeepsBoth coin head (.node a l r) (.node b m n) ↔
          if coin head.ip then LastAtTop (.node a l r) else FirstAtTop (.node b m n) := by
        simp [KeepsBoth]
      rw [replacement_node, sides]
      split
      · exact inorder_predecessor_iff
      · exact inorder_successor_iff

theorem lastAtTop_replacement (keeps : KeepsBoth coin head left right) :
    LastAtTop (replacement coin head left right) ↔
      if right = .nil then LastAtTop left else if left = .nil then LastAtTop right
      else coin head.ip = false ∧ (inorder right).length = 1 := by
  by_cases noneRight : right = .nil
  · rw [noneRight, replacement_nil_right, if_pos rfl]
  · rw [if_neg noneRight]
    by_cases noneLeft : left = .nil
    · rw [noneLeft, if_pos rfl]
      rfl
    · rw [if_neg noneLeft]
      have top := (keeps.resolve_left noneLeft).resolve_left noneRight
      cases left with
      | nil => exact absurd rfl noneLeft
      | node a l r => cases right with
        | nil => exact absurd rfl noneRight
        | node b m n =>
          rw [replacement_node]
          cases heads : coin head.ip with
          | true =>
            rw [if_pos heads] at top
            obtain rfl : r = .nil := top
            exact ⟨nofun, nofun⟩
          | false =>
            rw [if_neg (heads ▸ Bool.false_ne_true)] at top
            obtain rfl : m = .nil := top
            show n = .nil ↔ false = false ∧ (inorder n).length + 1 = 1
            rw [Nat.add_eq_right, List.length_eq_zero_iff, inorder_eq_nil, and_iff_right rfl]

theorem firstAtTop_replacement (keeps : KeepsBoth coin head left right) :
    FirstAtTop (replacement coin head left right) ↔
      if left = .nil then FirstAtTop right else if right = .nil then FirstAtTop left
      else coin head.ip = true ∧ (inorder left).length = 1 := by
  by_cases noneLeft : left = .nil
  · rw [noneLeft, if_pos rfl]
    rfl
  · rw [if_neg noneLeft]
    by_cases noneRight : right = .nil
    · rw [noneRight, replacement_nil_right, if_pos rfl]
    · rw [if_neg noneRight]
      have top := (keeps.resolve_left noneLeft).resolve_left noneRight
      cases left with
      | nil => exact absurd rfl noneLeft
      | node a l r => cases right with
        | nil => exact absurd rfl noneRight
        | node b m n =>
          rw [replacement_node]
          cases heads : coin head.ip with
          | true =>
            rw [if_pos heads] at top
            obtain rfl : r = .nil := top
            show l = .nil ↔ true = true ∧ (inorder l ++ [a]).length = 1
            rw [List.length_append, List.length_singleton, Nat.add_eq_right,
              List.length_eq_zero_iff, inorder_eq_nil, and_iff_right rfl]
          | false =>
            rw [if_neg (heads ▸ Bool.false_ne_true)] at top
            obtain rfl : m = .nil := top
            exact ⟨nofun, nofun⟩

/-! ### Deletions that lose nothing -/

/-- The nodes that are to stay, from left to right. -/
def staying (ip mask : Address) (t : IpSubtree) : List IpNode :=
  (inorder t).filter fun node => ¬ node.Inside ip mask

/-- The last of the nodes that stay comes to stand on top. -/
def LastTop (coin : Address → Bool) (ip mask : Address) : IpSubtree → Prop
  | .nil => True
  | .node head left right =>
    if head.Inside ip mask then
      if Emptied ip mask right then LastTop coin ip mask left
      else if Emptied ip mask left then LastTop coin ip mask right
      else coin head.ip = false ∧ (staying ip mask right).length = 1
    else Emptied ip mask right

/-- The first of the nodes that stay comes to stand on top. -/
def FirstTop (coin : Address → Bool) (ip mask : Address) : IpSubtree → Prop
  | .nil => True
  | .node head left right =>
    if head.Inside ip mask then
      if Emptied ip mask left then FirstTop coin ip mask right
      else if Emptied ip mask right then FirstTop coin ip mask left
      else coin head.ip = true ∧ (staying ip mask left).length = 1
    else Emptied ip mask left

/-- **A deletion that loses nothing**: where nodes stay on both sides of one that is removed, the
neighbour that the coin picks comes to stand on top of its side. -/
def NoneLost (coin : Address → Bool) (ip mask : Address) : IpSubtree → Prop
  | .nil => True
  | .node head left right =>
    (head.Inside ip mask → Emptied ip mask left ∨ Emptied ip mask right ∨
      if coin head.ip then LastTop coin ip mask left else FirstTop coin ip mask right) ∧
    NoneLost coin ip mask left ∧ NoneLost coin ip mask right

instance decidableLastTop : (t : IpSubtree) → Decidable (LastTop coin ip mask t)
  | .nil => inferInstanceAs (Decidable True)
  | .node head left right =>
    have := decidableLastTop left
    have := decidableLastTop right
    inferInstanceAs (Decidable (if head.Inside ip mask then
      if Emptied ip mask right then LastTop coin ip mask left
      else if Emptied ip mask left then LastTop coin ip mask right else _ ∧ _
      else Emptied ip mask right))

instance decidableFirstTop : (t : IpSubtree) → Decidable (FirstTop coin ip mask t)
  | .nil => inferInstanceAs (Decidable True)
  | .node head left right =>
    have := decidableFirstTop left
    have := decidableFirstTop right
    inferInstanceAs (Decidable (if head.Inside ip mask then
      if Emptied ip mask left then FirstTop coin ip mask right
      else if Emptied ip mask right then FirstTop coin ip mask left else _ ∧ _
      else Emptied ip mask left))

instance decidableNoneLost : (t : IpSubtree) → Decidable (NoneLost coin ip mask t)
  | .nil => inferInstanceAs (Decidable True)
  | .node head left right =>
    have := decidableNoneLost left
    have := decidableNoneLost right
    inferInstanceAs (Decidable ((_ → _ ∨ _ ∨ if coin head.ip then LastTop coin ip mask left
      else FirstTop coin ip mask right) ∧ _ ∧ _))

theorem staying_eq_nil : staying ip mask t = [] ↔ Emptied ip mask t := by
  unfold staying Emptied
  rw [List.filter_eq_nil_iff]
  refine forall_congr' fun node => imp_congr_right fun _ => ?_
  rw [decide_eq_true_eq, not_not]

theorem staying_node : staying ip mask (.node head left right) =
    staying ip mask left ++ (if head.Inside ip mask then [] else [head]) ++
      staying ip mask right := by
  show ((inorder left ++ head :: inorder right).filter _) = _
  rw [List.filter_append, List.filter_cons]
  split <;> simp_all [staying]

/-- **What is left stays, in order.** -/
theorem inorder_delete_sublist :
    (inorder (delete_ip_subtree coin ip mask t clist).1).Sublist (staying ip mask t) := by
  induction t generalizing clist with
  | nil => exact .refl _
  | node head left right ihLeft ihRight =>
    rw [staying_node]
    by_cases inside : head.Inside ip mask
    · rw [delete_node_inside inside, if_pos inside, List.append_nil]
      exact replacement_sublist.trans (ihLeft.append ihRight)
    · rw [delete_node_outside inside, if_neg inside, List.append_assoc]
      exact ihLeft.append (ihRight.cons_cons head)

/-- What a deletion without a loss leaves, and when an end of it is on top. -/
structure KeptNodes (coin : Address → Bool) (ip mask : Address) (t left_ : IpSubtree) : Prop where
  nodes : inorder left_ = staying ip mask t
  last : LastAtTop left_ ↔ LastTop coin ip mask t
  first : FirstAtTop left_ ↔ FirstTop coin ip mask t

theorem KeptNodes.eq_nil (kept : KeptNodes coin ip mask t left) :
    left = .nil ↔ Emptied ip mask t := by
  rw [← inorder_eq_nil, kept.nodes, staying_eq_nil]

theorem KeptNodes.keepsBoth_iff {left_ right_ : IpSubtree}
    (onLeft : KeptNodes coin ip mask left left_)
    (onRight : KeptNodes coin ip mask right right_) : KeepsBoth coin head left_ right_ ↔
      Emptied ip mask left ∨ Emptied ip mask right ∨
        if coin head.ip then LastTop coin ip mask left else FirstTop coin ip mask right := by
  unfold KeepsBoth
  rw [onLeft.eq_nil, onRight.eq_nil, onLeft.last, onRight.first]

theorem KeptNodes.replaced {left_ right_ : IpSubtree} (inside : head.Inside ip mask)
    (onLeft : KeptNodes coin ip mask left left_) (onRight : KeptNodes coin ip mask right right_)
    (keeps : KeepsBoth coin head left_ right_) :
    KeptNodes coin ip mask (.node head left right) (replacement coin head left_ right_) where
  nodes := by
    rw [inorder_replacement_iff.mpr keeps, onLeft.nodes, onRight.nodes, staying_node, if_pos inside,
      List.append_nil]
  last := by
    rw [lastAtTop_replacement keeps, LastTop, if_pos inside]
    simp only [onLeft.eq_nil, onRight.eq_nil, onLeft.last, onRight.last, onRight.nodes]
  first := by
    rw [firstAtTop_replacement keeps, FirstTop, if_pos inside]
    simp only [onLeft.eq_nil, onRight.eq_nil, onLeft.first, onRight.first, onLeft.nodes]

theorem KeptNodes.stays {left_ right_ : IpSubtree} (outside : ¬ head.Inside ip mask)
    (onLeft : KeptNodes coin ip mask left left_) (onRight : KeptNodes coin ip mask right right_) :
    KeptNodes coin ip mask (.node head left right) (.node head left_ right_) where
  nodes := by
    rw [staying_node, if_neg outside, ← onLeft.nodes, ← onRight.nodes, List.append_assoc]
    rfl
  last := by
    rw [LastTop, if_neg outside]
    exact onRight.eq_nil
  first := by
    rw [FirstTop, if_neg outside]
    exact onLeft.eq_nil

theorem NoneLost.keptNodes (noneLost : NoneLost coin ip mask t) :
    KeptNodes coin ip mask t (delete_ip_subtree coin ip mask t clist).1 := by
  induction t generalizing clist with
  | nil => exact ⟨rfl, Iff.rfl, Iff.rfl⟩
  | node head left right ihLeft ihRight =>
    obtain ⟨here, onLeft, onRight⟩ := noneLost
    by_cases inside : head.Inside ip mask
    · rw [delete_node_inside inside]
      exact (ihLeft onLeft).replaced inside (ihRight onRight)
        (((ihLeft onLeft).keepsBoth_iff (ihRight onRight)).mpr (here inside))
    · rw [delete_node_outside inside]
      exact (ihLeft onLeft).stays inside (ihRight onRight)

/-- Nothing is lost on the way from two lists to one when nothing is lost in the end. -/
theorem eq_of_sublist_append {α : Type} {all first second first' second' : List α}
    (some_ : all.Sublist (first ++ second)) (onFirst : first.Sublist first')
    (onSecond : second.Sublist second') (same : all = first' ++ second') :
    first = first' ∧ second = second' ∧ all = first ++ second := by
  have few := some_.length_le
  have fewFirst := onFirst.length_le
  have fewSecond := onSecond.length_le
  have long := congrArg List.length same
  rw [List.length_append] at few long
  obtain rfl := onFirst.eq_of_length (by omega)
  obtain rfl := onSecond.eq_of_length (by omega)
  exact ⟨rfl, rfl, same⟩

/-- **All that is to stay is left exactly when the deletion loses nothing.** -/
theorem delete_inorder_iff :
    inorder (delete_ip_subtree coin ip mask t clist).1 = staying ip mask t ↔
      NoneLost coin ip mask t := by
  refine ⟨fun all => ?_, fun noneLost => noneLost.keptNodes.nodes⟩
  induction t generalizing clist with
  | nil => trivial
  | node head left right ihLeft ihRight =>
    rw [staying_node] at all
    by_cases inside : head.Inside ip mask
    · rw [delete_node_inside inside, if_pos inside, List.append_nil] at all
      obtain ⟨allLeft, allRight, whole⟩ := eq_of_sublist_append replacement_sublist
        inorder_delete_sublist inorder_delete_sublist all
      have onLeft := ihLeft allLeft
      have onRight := ihRight allRight
      exact ⟨fun _ => (onLeft.keptNodes.keepsBoth_iff onRight.keptNodes).mp
        (inorder_replacement_iff.mp whole), onLeft, onRight⟩
    · rw [delete_node_outside inside, if_neg inside, List.append_assoc] at all
      obtain ⟨allLeft, allRight, _⟩ := eq_of_sublist_append (.refl _) inorder_delete_sublist
        (inorder_delete_sublist.cons_cons head) all
      exact ⟨fun removed => absurd removed inside, ihLeft allLeft,
        ihRight (List.cons.inj allRight).2⟩

theorem LastOnTop.lastTop (top : LastOnTop ip mask t) : LastTop coin ip mask t := by
  induction t with
  | nil => trivial
  | node head left right ihLeft _ =>
    rw [LastTop]
    split
    · rename_i inside
      rw [if_pos top.1]
      exact ihLeft (top.2 inside)
    · exact top.1

theorem FirstOnTop.firstTop (top : FirstOnTop ip mask t) : FirstTop coin ip mask t := by
  induction t with
  | nil => trivial
  | node head left right _ ihRight =>
    rw [FirstTop]
    split
    · rename_i inside
      rw [if_pos top.1]
      exact ihRight (top.2 inside)
    · exact top.1

theorem Untangled.noneLost (untangled : Untangled coin ip mask t) : NoneLost coin ip mask t := by
  induction t with
  | nil => trivial
  | node head left right ihLeft ihRight =>
    obtain ⟨here, onLeft, onRight⟩ := untangled
    refine ⟨fun inside => ?_, ihLeft onLeft, ihRight onRight⟩
    refine (here inside).imp_right (Or.imp_right fun shallow => ?_)
    split at shallow
    · rename_i heads
      rw [if_pos heads]
      exact shallow.lastTop
    · rename_i tails
      rw [if_neg tails]
      exact shallow.firstTop

theorem inorder_delete_ip_subtree (untangled : Untangled coin ip mask t) :
    inorder (delete_ip_subtree coin ip mask t clist).1 =
      (inorder t).filter fun node => ¬ node.Inside ip mask :=
  untangled.noneLost.keptNodes.nodes

/-- **The lists of the removed nodes** are collected, each once. -/
theorem perm_delete_clist : (delete_ip_subtree coin ip mask t clist).2.Perm
    (((inorder t).filter fun node => node.Inside ip mask).flatMap IpNode.conf ++ clist) := by
  induction t generalizing clist with
  | nil => exact .refl _
  | node head left right ihLeft ihRight =>
    have parts : (inorder (.node head left right)).filter (fun node => node.Inside ip mask) =
        (inorder left).filter (fun node => node.Inside ip mask) ++
          (head :: inorder right).filter (fun node => node.Inside ip mask) :=
      List.filter_append ..
    have both := ihRight.trans ((@ihLeft clist).append_left
      (((inorder right).filter fun node => node.Inside ip mask).flatMap IpNode.conf))
    rw [parts, List.flatMap_append]
    by_cases inside : head.Inside ip mask
    · rw [delete_node_inside inside, List.filter_cons_of_pos (by simpa using inside),
        List.flatMap_cons]
      refine (both.append_left head.conf).trans ?_
      rw [← List.append_assoc, ← List.append_assoc]
      exact List.perm_append_comm.append_right clist
    · rw [delete_node_outside inside, List.filter_cons_of_neg (by simpa using inside)]
      refine both.trans ?_
      rw [← List.append_assoc]
      exact List.perm_append_comm.append_right clist

/-! ### The whole contract -/

open scoped Classical in
/-- **What a deletion is for**: the nodes that are not covered stay, in search order, and the lines
of those that are covered are collected, each once. -/
structure RemovesCovered (ip mask : Address) (t : IpSubtree) (clist : List ConfItem)
    (result : IpSubtree × List ConfItem) : Prop where
  exact_ : ∀ node, node ∈ inorder result.1 ↔ node ∈ inorder t ∧ ¬ node.CoveredBy ip mask
  apart : (inorder result.1).Pairwise IpNode.Before
  collected : result.2.Perm
    (((inorder t).filter fun node => node.CoveredBy ip mask).flatMap IpNode.conf ++ clist)

theorem IpNode.Before.ne {a b : IpNode} (before : a.Before b) : a ≠ b := by
  rintro rfl
  have size := a.ip_mask.isLt
  unfold IpNode.Before at before
  omega

/-- **`delete_ip_subtree` removes exactly the covered nodes** when it loses nothing and its test is
coverage, as for every mask of first bits, and not otherwise. -/
theorem delete_ip_subtree_removes_covered_iff (valid : ValidTree t) :
    RemovesCovered ip mask t clist (delete_ip_subtree coin ip mask t clist) ↔
      NoneLost coin ip mask t ∧
        ∀ node ∈ inorder t, node.Inside ip mask → node.CoveredBy ip mask := by
  have stays : ∀ node, node ∈ staying ip mask t ↔ node ∈ inorder t ∧ ¬ node.Inside ip mask :=
    fun node => by rw [staying, List.mem_filter, decide_eq_true_eq]
  constructor
  · intro removes
    have same : ∀ node ∈ inorder t, node.Inside ip mask → node.CoveredBy ip mask := by
      intro node member inside
      by_contra uncovered
      have left_ := inorder_delete_sublist.subset ((removes.exact_ node).mpr ⟨member, uncovered⟩)
      exact ((stays node).mp left_).2 inside
    have distinct : (staying ip mask t).Nodup :=
      (valid.apart.imp fun before => before.ne).filter _
    have all : staying ip mask t ⊆ inorder (delete_ip_subtree coin ip mask t clist).1 := by
      intro node member
      obtain ⟨member, outside⟩ := (stays node).mp member
      exact (removes.exact_ node).mpr
        ⟨member, fun covered => outside (covered.inside (valid.block node member))⟩
    have whole : inorder (delete_ip_subtree coin ip mask t clist).1 = staying ip mask t :=
      inorder_delete_sublist.eq_of_length_le (distinct.length_le_of_subset all)
    exact ⟨delete_inorder_iff.mp whole, same⟩
  · rintro ⟨noneLost, same⟩
    have agree : ∀ node ∈ inorder t, (node.Inside ip mask ↔ node.CoveredBy ip mask) :=
      fun node member => ⟨same node member, fun covered => covered.inside (valid.block node member)⟩
    refine ⟨fun node => ?_, ?_, ?_⟩
    · rw [noneLost.keptNodes.nodes, stays]
      exact and_congr_right fun member => not_congr (agree node member)
    · rw [noneLost.keptNodes.nodes]
      exact valid.apart.filter _
    · refine perm_delete_clist.trans (.of_eq ?_)
      congr 2
      exact List.filter_congr fun node member => decide_eq_decide.mpr (agree node member)

def sampleLine (second : Address) : IpNode :=
  new_ip_subtree (0x01000000 ||| second <<< 16) (netmask 32 16)
    [⟨CONF_DLINE, 0, 0x01000000 ||| second <<< 16, netmask 32 16, []⟩]

/-- Five lines, as they were put in: one in the middle, and two on each side of it. -/
def sampleLines : IpSubtree :=
  [sampleLine 3, sampleLine 1, sampleLine 2, sampleLine 5, sampleLine 4].foldl
    insert_ip_subtree .nil

theorem inorder_sampleLines : inorder sampleLines = [1, 2, 3, 4, 5].map sampleLine := by decide

theorem sampleLines_valid : ValidTree sampleLines where
  block := by
    rw [inorder_sampleLines]
    exact List.forall_mem_map.mpr fun second _ => .of_and _ (by decide)
  lined := by
    rw [inorder_sampleLines]
    exact List.forall_mem_map.mpr fun second _ => List.cons_ne_nil _ _
  apart := by
    rw [inorder_sampleLines]
    unfold IpNode.Before
    decide

/-- The line at the end of one side is removed, and nothing else. -/
theorem delete_ip_subtree_removes_covered_sample :
    RemovesCovered 0x01020304 (netmask 32 16) sampleLines []
      (delete_ip_subtree (fun _ => true) 0x01020304 (netmask 32 16) sampleLines []) := by
  refine (delete_ip_subtree_removes_covered_iff sampleLines_valid).mpr ⟨by decide, ?_⟩
  intro node member inside
  exact (covered_iff_inside (sampleLines_valid.block node member) (by decide)).mpr inside

/-- The line in the middle is removed, and the one on the left is gone with it. -/
theorem not_delete_ip_subtree_removes_covered : ¬ ∀ (coin : Address → Bool) (ip mask : Address)
    (t : IpSubtree) (clist : List ConfItem), ValidTree t →
      RemovesCovered ip mask t clist (delete_ip_subtree coin ip mask t clist) := by
  intro removes
  have middle := removes (fun _ => true) 0x01030000 (netmask 32 16) sampleLines [] sampleLines_valid
  have uncovered : ¬ (sampleLine 1).CoveredBy 0x01030000 (netmask 32 16) := fun covered =>
    absurd (covered 0x01010000 (by decide)) (by decide)
  have left_ := (middle.exact_ (sampleLine 1)).mpr ⟨by decide, uncovered⟩
  exact absurd left_ (by decide)

end PtlinkIrcd
