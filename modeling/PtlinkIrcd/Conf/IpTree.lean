/-
**Trees of addresses.**

The trees of `dline_conf.c`, one for each first octet, that the D-lines and the K-lines for addresses
share.

* `find_ip_subtree`, `insert_ip_subtree`, `delete_ip_subtree` — the operations on one tree.
* `Untangled` — no node that a deletion takes out has the neighbour that replaces it deeper down.
* `mem_delete_clist` — the lists that a deletion collects.
-/

import PtlinkIrcd.Lib.Prefixes
import PtlinkIrcd.Lib.SearchTree
import PtlinkIrcd.Model.Flags
import PtlinkIrcd.Model.Text

namespace PtlinkIrcd

open Lib (Covers)
open Lib.SearchTree

/-- An IPv4 address in host order. The code has it in an `unsigned long`, whose other bits are zero; where a
conversion makes a difference, `w` is the number of them all. -/
abbrev Address := BitVec 32

def octet (ip : Address) : BitVec 8 := ip.extractLsb' 24 8

def CONF_CLIENT : Flags := 0x0002
def CONF_KILL : Flags := 0x0080
def CONF_DLINE : Flags := 0x20000

def CONF_FLAGS_E_LINED : Flags := 0x0020

/-- A line of the configuration: `aConfItem`. -/
structure ConfItem where
  status : Flags
  flags : Flags
  ip : Address
  ip_mask : Address
  user : Text
deriving DecidableEq

/-- A node of the trees. -/
structure IpNode where
  ip : Address
  ip_mask : Address
  conf : List ConfItem
deriving DecidableEq

def IpNode.Holds (node : IpNode) (x : Address) : Prop := Covers node.ip node.ip_mask x

instance (node : IpNode) (x : Address) : Decidable (node.Holds x) :=
  inferInstanceAs (Decidable (Covers _ _ _))

/-- The addresses of one node are below those of another. -/
def IpNode.Before (a b : IpNode) : Prop := a.ip.toNat + (2 ^ 32 - a.ip_mask.toNat) ≤ b.ip.toNat

/-- `struct ip_subtree`. -/
abbrev IpSubtree := BinaryTree IpNode

def new_ip_subtree (ip mask : Address) (clist : List ConfItem) : IpNode := ⟨ip &&& mask, mask, clist⟩

def insert_ip_subtree (head : IpSubtree) (node : IpNode) : IpSubtree :=
  insert (fun cur => node.ip < cur.ip) node head

/-- The way `find_ip_subtree` takes at a node. -/
def ipDirection (ip : Address) (cur : IpNode) : Ordering :=
  if cur.ip = ip &&& cur.ip_mask then .eq
  else if cur.ip > ip &&& cur.ip_mask then .lt
  else .gt

def find_ip_subtree (head : IpSubtree) (ip : Address) : Option IpNode :=
  search (ipDirection ip) head

/-! ### Deletion -/

/-- The in-order predecessor in the place of a node whose right side is `right`: the loop goes down to
it, and what it went through is not linked any more, unless it is the first node. -/
def predecessor (right : IpSubtree) : IpSubtree → IpSubtree
  | .nil => right
  | .node temp below .nil => .node temp below right
  | .node _ _ next => predecessor right next

/-- The in-order successor in the place of a node whose left side is `left`. -/
def successor (left : IpSubtree) : IpSubtree → IpSubtree
  | .nil => left
  | .node temp .nil below => .node temp left below
  | .node _ next _ => successor left next

/-- What takes the place of a node that is removed. The coin is `rand`, by the address of the node. -/
def replacement (coin : Address → Bool) (head : IpNode) (left right : IpSubtree) : IpSubtree :=
  match left, right with
  | .nil, right => right
  | left, .nil => left
  | left, right => if coin head.ip then predecessor right left else successor left right

/-- `delete_ip_subtree`: the tree that is left, and the lists of the nodes that match, before those of
`clist`. -/
def delete_ip_subtree (coin : Address → Bool) (ip mask : Address) :
    IpSubtree → List ConfItem → IpSubtree × List ConfItem
  | .nil, clist => (.nil, clist)
  | .node head left right, clist =>
    let left := delete_ip_subtree coin ip mask left clist
    let right := delete_ip_subtree coin ip mask right left.2
    if head.ip &&& mask = ip &&& mask then
      if head.ip_mask < mask then (.node head left.1 right.1, right.2)
      else (replacement coin head left.1 right.1, head.conf ++ right.2)
    else (.node head left.1 right.1, right.2)

/-- The nodes that a deletion takes out. -/
def IpNode.Inside (ip mask : Address) (node : IpNode) : Prop :=
  node.ip &&& mask = ip &&& mask ∧ mask ≤ node.ip_mask

instance (ip mask : Address) (node : IpNode) : Decidable (node.Inside ip mask) :=
  inferInstanceAs (Decidable (_ ∧ _))

section Delete

variable {coin : Address → Bool} {ip mask : Address} {head : IpNode} {left right t : IpSubtree}
  {clist : List ConfItem} {conf : ConfItem}

def Emptied (ip mask : Address) (t : IpSubtree) : Prop := ∀ node ∈ inorder t, node.Inside ip mask

instance : Decidable (Emptied ip mask t) := inferInstanceAs (Decidable (∀ _ ∈ _, _))

/-- The last node that stays is not below another one that stays. -/
def LastOnTop (ip mask : Address) : IpSubtree → Prop
  | .nil => True
  | .node head left right =>
    Emptied ip mask right ∧ (head.Inside ip mask → LastOnTop ip mask left)

/-- The first node that stays is not below another one that stays. -/
def FirstOnTop (ip mask : Address) : IpSubtree → Prop
  | .nil => True
  | .node head left right =>
    Emptied ip mask left ∧ (head.Inside ip mask → FirstOnTop ip mask right)

/-- **A deletion that loses nothing**: wherever nodes stay on both sides of one that is taken out, the
neighbour on the side of the coin is at the top of its side. -/
def Untangled (coin : Address → Bool) (ip mask : Address) : IpSubtree → Prop
  | .nil => True
  | .node head left right =>
    (head.Inside ip mask → Emptied ip mask left ∨ Emptied ip mask right ∨
      if coin head.ip then LastOnTop ip mask left else FirstOnTop ip mask right) ∧
    Untangled coin ip mask left ∧ Untangled coin ip mask right

instance decidableLastOnTop : (t : IpSubtree) → Decidable (LastOnTop ip mask t)
  | .nil => inferInstanceAs (Decidable True)
  | .node _ left _ =>
    have := decidableLastOnTop left
    inferInstanceAs (Decidable (_ ∧ (_ → _)))

instance decidableFirstOnTop : (t : IpSubtree) → Decidable (FirstOnTop ip mask t)
  | .nil => inferInstanceAs (Decidable True)
  | .node _ _ right =>
    have := decidableFirstOnTop right
    inferInstanceAs (Decidable (_ ∧ (_ → _)))

instance decidableUntangled : (t : IpSubtree) → Decidable (Untangled coin ip mask t)
  | .nil => inferInstanceAs (Decidable True)
  | .node _ left right =>
    have := decidableUntangled left
    have := decidableUntangled right
    inferInstanceAs (Decidable ((_ → _ ∨ _ ∨ _) ∧ _ ∧ _))

theorem delete_node_inside (inside : head.Inside ip mask) :
    delete_ip_subtree coin ip mask (.node head left right) clist =
      (replacement coin head (delete_ip_subtree coin ip mask left clist).1
          (delete_ip_subtree coin ip mask right
            (delete_ip_subtree coin ip mask left clist).2).1,
        head.conf ++ (delete_ip_subtree coin ip mask right
          (delete_ip_subtree coin ip mask left clist).2).2) := by
  rw [delete_ip_subtree]
  rw [if_pos inside.1, if_neg (BitVec.not_lt.mpr inside.2)]

theorem delete_node_outside (outside : ¬ head.Inside ip mask) :
    delete_ip_subtree coin ip mask (.node head left right) clist =
      (.node head (delete_ip_subtree coin ip mask left clist).1
          (delete_ip_subtree coin ip mask right
            (delete_ip_subtree coin ip mask left clist).2).1,
        (delete_ip_subtree coin ip mask right
          (delete_ip_subtree coin ip mask left clist).2).2) := by
  rw [delete_ip_subtree]
  by_cases same : head.ip &&& mask = ip &&& mask
  · rw [if_pos same, if_pos (BitVec.not_le.mp fun long => outside ⟨same, long⟩)]
  · rw [if_neg same]

/-- **The lists that a deletion collects.** -/
theorem mem_delete_clist : conf ∈ (delete_ip_subtree coin ip mask t clist).2 ↔
    conf ∈ clist ∨ ∃ node ∈ inorder t, node.Inside ip mask ∧ conf ∈ node.conf := by
  induction t generalizing clist with
  | nil => exact ⟨.inl, fun collected => collected.elim id fun ⟨_, member, _⟩ => (nomatch member)⟩
  | node head left right ihLeft ihRight =>
    have parts : (∃ node ∈ inorder (.node head left right), node.Inside ip mask ∧ conf ∈ node.conf) ↔
        (∃ node ∈ inorder left, node.Inside ip mask ∧ conf ∈ node.conf) ∨
        (head.Inside ip mask ∧ conf ∈ head.conf) ∨
        ∃ node ∈ inorder right, node.Inside ip mask ∧ conf ∈ node.conf := by
      simp only [mem_inorder_node, or_and_right, exists_or, exists_eq_left]
    rw [parts]
    by_cases inside : head.Inside ip mask
    · rw [delete_node_inside inside, List.mem_append, ihRight, ihLeft, and_iff_right inside]
      simp only [or_assoc, or_left_comm]
    · rw [delete_node_outside inside, ihRight, ihLeft, iff_false_intro (mt And.left inside),
        false_or, or_assoc]

theorem replacement_nil_right : replacement coin head left .nil = left := by
  cases left <;> rfl

end Delete

end PtlinkIrcd
