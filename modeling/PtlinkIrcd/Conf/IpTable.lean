/-
**Tables of addresses.**

`Dline` with `oracle`, and `ip_Kline` with `ike_oracle`: a tree for each first octet, and the bits that
occur in its addresses.

* `IpTable.find`, `IpTable.place`, `IpTable.amend` — a look-up, a new node in the place of those that
  it contains, and a change of the list of one node.
* `IpTable.Laid` — the invariant: the nodes of a tree are disjoint prefixes, from left to right.
* `IpTable.Laid.find_iff` — **a table finds the node that covers an address**.
* `IpTable.Laid.place`, `IpTable.Laid.amend` — what is a node afterwards.
-/

import PtlinkIrcd.Conf.IpDelete

namespace PtlinkIrcd

open Lib (Covers IsPrefix netmask)
open Lib.SearchTree

/-! ### Blocks of addresses -/

/-- A contiguous prefix of at least eight bits, with its host bits clear. -/
structure Block (ip mask : Address) : Prop extends IsPrefix ip mask where
  long : netmask 32 8 ≤ mask

def ConfItem.Holds (conf : ConfItem) (x : Address) : Prop := Covers conf.ip conf.ip_mask x

instance (conf : ConfItem) (x : Address) : Decidable (conf.Holds x) :=
  inferInstanceAs (Decidable (Covers _ _ _))

def ConfItem.elined (conf : ConfItem) : Bool := conf.flags.has CONF_FLAGS_E_LINED

theorem octet_and (x : Address) : octet (x &&& netmask 32 8) = octet x := by
  apply BitVec.eq_of_getLsbD_eq
  intro i below
  unfold octet netmask
  rw [BitVec.getLsbD_extractLsb', BitVec.getLsbD_extractLsb', BitVec.getLsbD_and,
    BitVec.getLsbD_shiftLeft, BitVec.getLsbD_allOnes]
  have inside : 24 + i < 32 := by omega
  have high : ¬ 24 + i < 24 := by omega
  have all : i < 32 := by omega
  simp [inside, high, all]

theorem Block.octet_eq {ip mask x : Address} (block : Block ip mask) (here : Covers ip mask x) :
    octet x = octet ip := by
  rw [← octet_and x, ← octet_and ip,
    block.toIsPrefix.and_eq_of_covers (by decide) block.long here]

theorem ipDirection_eq {x : Address} {node : IpNode} :
    ipDirection x node = .eq ↔ node.Holds x := by
  unfold ipDirection IpNode.Holds Covers
  rw [eq_comm]
  constructor
  · intro stops
    by_contra other
    rw [if_neg fun same => other same.symm] at stops
    split at stops <;> exact absurd stops (by decide)
  · intro same
    rw [if_pos same.symm]

theorem ipDirection_lt {x : Address} {node : IpNode} (block : Block node.ip node.ip_mask) :
    ipDirection x node = .lt ↔ x.toNat < node.ip.toNat := by
  rw [← block.and_lt_iff]
  unfold ipDirection
  constructor
  · intro left
    split at left
    · exact absurd left (by decide)
    · split at left
      · assumption
      · exact absurd left (by decide)
  · intro less
    rw [if_neg fun same => absurd (same ▸ less) (BitVec.lt_irrefl _), if_pos less]

theorem directs_of_before {values : List IpNode} (x : Address)
    (block : ∀ node ∈ values, Block node.ip node.ip_mask) (apart : values.Pairwise IpNode.Before) :
    Directs (ipDirection x) values := by
  refine apart.imp_of_mem fun {a b} inA inB before stays => ?_
  rw [ipDirection_lt (block b inB)]
  have under : x.toNat < a.ip.toNat + (2 ^ 32 - a.ip_mask.toNat) := by
    cases here : ipDirection x a with
    | gt => exact absurd here stays
    | lt =>
      have := (ipDirection_lt (block a inA)).mp here
      omega
    | eq => exact ((block a inA).covers_iff_range.mp (ipDirection_eq.mp here)).2
  exact Nat.lt_of_lt_of_le under before

/-! ### Tables -/

def IpNode.relist (change : List ConfItem → List ConfItem) (node : IpNode) : IpNode :=
  { node with conf := change node.conf }

/-- `Dline` with `oracle`, or `ip_Kline` with `ike_oracle`. -/
structure IpTable where
  tree : BitVec 8 → IpSubtree
  oracle : BitVec 8 → Address

namespace IpTable

/-- The table of the start, and of `clear_Dline_table`. -/
def clear : IpTable := ⟨fun _ => .nil, fun _ => 0⟩

/-- `find_ip_subtree` in the tree of the address. -/
def find (t : IpTable) (ip : Address) : Option IpNode := find_ip_subtree (t.tree (octet ip)) ip

/-- `oracle[ip>>24] |= ((0xffffffff-mask)+ip)`. -/
def hear (t : IpTable) (ip mask : Address) : IpTable :=
  { t with
    oracle := Function.update t.oracle (octet ip)
      (t.oracle (octet ip) ||| (0xffffffff - mask + ip)) }

/-- The lists of the nodes that match a new line, as `delete_ip_subtree` collects them. -/
def taken (t : IpTable) (coin : Address → Bool) (conf_ptr : ConfItem) : List ConfItem :=
  (delete_ip_subtree coin conf_ptr.ip conf_ptr.ip_mask (t.tree (octet conf_ptr.ip)) []).2

/-- A new node for a line, in the place of the nodes that match it; `weed` cuts down their lists. -/
def place (t : IpTable) (coin : Address → Bool) (weed : List ConfItem → List ConfItem)
    (conf_ptr : ConfItem) : IpTable :=
  let node := new_ip_subtree conf_ptr.ip conf_ptr.ip_mask
    (conf_ptr :: weed (t.taken coin conf_ptr))
  let head := (delete_ip_subtree coin conf_ptr.ip conf_ptr.ip_mask
    (t.tree (octet conf_ptr.ip)) []).1
  { t.hear conf_ptr.ip conf_ptr.ip_mask with
    tree := Function.update t.tree (octet conf_ptr.ip) (insert_ip_subtree head node) }

/-- A new list for the node that is found. -/
def amend (t : IpTable) (ip : Address) (change : List ConfItem → List ConfItem) : IpTable :=
  { t with
    tree := Function.update t.tree (octet ip)
      (modify (ipDirection ip) (IpNode.relist change) (t.tree (octet ip))) }

def Node (t : IpTable) (node : IpNode) : Prop := node ∈ inorder (t.tree (octet node.ip))

/-- **The nodes of a tree are disjoint prefixes from left to right**, under their octet, and the
oracle has the bits of their addresses. -/
structure Laid (t : IpTable) : Prop where
  block : ∀ o, ∀ node ∈ inorder (t.tree o), Block node.ip node.ip_mask
  under : ∀ o, ∀ node ∈ inorder (t.tree o), octet node.ip = o
  apart : ∀ o, (inorder (t.tree o)).Pairwise IpNode.Before
  heard : ∀ o, ∀ node ∈ inorder (t.tree o), ∀ x, node.Holds x → t.oracle o &&& x = x

theorem Laid.clear : clear.Laid where
  block _ _ member := (nomatch member)
  under _ _ member := (nomatch member)
  apart _ := .nil
  heard _ _ member := (nomatch member)

variable {t : IpTable} {coin : Address → Bool} {weed change : List ConfItem → List ConfItem}
  {conf_ptr : ConfItem} {node other : IpNode} {x ip mask : Address}

theorem Laid.node_of_mem (laid : t.Laid) {o : BitVec 8} (member : node ∈ inorder (t.tree o)) :
    t.Node node := by
  unfold Node
  rw [laid.under o node member]
  exact member

/-- **A table finds the node that covers an address.** -/
theorem Laid.find_iff (laid : t.Laid) : t.find x = some node ↔ t.Node node ∧ node.Holds x := by
  unfold find find_ip_subtree
  rw [search_eq_some (directs_of_before x (laid.block _) (laid.apart _)), ipDirection_eq]
  constructor
  · exact fun found => ⟨laid.node_of_mem found.1, found.2⟩
  · rintro ⟨member, here⟩
    rw [(laid.block _ node member).octet_eq here]
    exact ⟨member, here⟩

theorem Laid.find_eq_none (laid : t.Laid) :
    t.find x = none ↔ ∀ node, t.Node node → ¬ node.Holds x := by
  rw [Option.eq_none_iff_forall_ne_some]
  exact ⟨fun none_ node member here => none_ node (laid.find_iff.mpr ⟨member, here⟩),
    fun none_ node found => none_ node (laid.find_iff.mp found).1 (laid.find_iff.mp found).2⟩

theorem Laid.unique (laid : t.Laid) (member : t.Node node) (here : node.Holds x)
    (member' : t.Node other) (here' : other.Holds x) : node = other :=
  Option.some.inj ((laid.find_iff.mpr ⟨member, here⟩).symm.trans
    (laid.find_iff.mpr ⟨member', here'⟩))

theorem Laid.heard_of (laid : t.Laid) (member : t.Node node) (here : node.Holds x) :
    t.oracle (octet x) &&& x = x := by
  rw [(laid.block _ node member).octet_eq here]
  exact laid.heard _ node member x here

/-! ### More bits -/

theorem and_of_or_left {a b y : Address} (has : a &&& y = y) : (a ||| b) &&& y = y := by
  apply BitVec.eq_of_getLsbD_eq
  intro i _
  have bit := congrArg (·.getLsbD i) has
  simp only [BitVec.getLsbD_and] at bit
  rw [BitVec.getLsbD_and, BitVec.getLsbD_or, Bool.and_or_distrib_right, bit]
  cases y.getLsbD i <;> simp

theorem and_of_or_right {a b y : Address} (has : b &&& y = y) : (a ||| b) &&& y = y := by
  rw [BitVec.or_comm]
  exact and_of_or_left has

theorem Laid.hear (laid : t.Laid) : (t.hear ip mask).Laid where
  block := laid.block
  under := laid.under
  apart := laid.apart
  heard o node member y here := by
    have before := laid.heard o node member y here
    unfold IpTable.hear
    by_cases same : o = octet ip
    · simp only [same, Function.update_self]
      exact and_of_or_left (same ▸ before)
    · simp only [Function.update_of_ne same]
      exact before

/-! ### A new list -/

/-- What becomes of a node when the list of the node of an address changes. -/
def amended (ip : Address) (change : List ConfItem → List ConfItem) (old : IpNode) : IpNode :=
  if old.Holds ip then old.relist change else old

@[simp] theorem amended_ip {old : IpNode} : (amended ip change old).ip = old.ip := by
  unfold amended
  split <;> rfl

@[simp] theorem amended_ip_mask {old : IpNode} :
    (amended ip change old).ip_mask = old.ip_mask := by
  unfold amended
  split <;> rfl

@[simp] theorem amended_holds {old : IpNode} : (amended ip change old).Holds x ↔ old.Holds x := by
  unfold IpNode.Holds
  rw [amended_ip, amended_ip_mask]

theorem Laid.inorder_amend (laid : t.Laid) (o : BitVec 8) :
    inorder ((t.amend ip change).tree o) = (inorder (t.tree o)).map (amended ip change) := by
  unfold IpTable.amend
  by_cases same : o = octet ip
  · simp only [same, Function.update_self]
    rw [inorder_modify (directs_of_before ip (laid.block _) (laid.apart _))]
    refine List.map_congr_left fun old _ => ?_
    unfold amended
    simp only [ipDirection_eq]
  · simp only [Function.update_of_ne same]
    refine Eq.trans (List.map_id _).symm (List.map_congr_left fun old member => ?_)
    unfold amended
    rw [if_neg fun here => same ?_]
    · rfl
    · rw [(laid.block o old member).octet_eq here, laid.under o old member]

/-- **A change of the list of one node** keeps the invariant. -/
theorem Laid.amend (laid : t.Laid) : (t.amend ip change).Laid := by
  refine ⟨fun o node member => ?_, fun o node member => ?_, fun o => ?_,
    fun o node member y here => ?_⟩
  · rw [laid.inorder_amend, List.mem_map] at member
    obtain ⟨old, member, rfl⟩ := member
    rw [amended_ip, amended_ip_mask]
    exact laid.block o old member
  · rw [laid.inorder_amend, List.mem_map] at member
    obtain ⟨old, member, rfl⟩ := member
    rw [amended_ip]
    exact laid.under o old member
  · rw [laid.inorder_amend, List.pairwise_map]
    refine (laid.apart o).imp fun {a b} before => ?_
    unfold IpNode.Before
    rw [amended_ip, amended_ip, amended_ip_mask]
    exact before
  · rw [laid.inorder_amend, List.mem_map] at member
    obtain ⟨old, member, rfl⟩ := member
    exact laid.heard o old member y (amended_holds.mp here)

theorem Laid.node_amend (laid : t.Laid) :
    (t.amend ip change).Node node ↔ ∃ old, t.Node old ∧ node = amended ip change old := by
  unfold Node
  rw [laid.inorder_amend, List.mem_map]
  constructor
  · rintro ⟨old, member, rfl⟩
    rw [amended_ip] at member
    exact ⟨old, member, rfl⟩
  · rintro ⟨old, member, rfl⟩
    rw [amended_ip]
    exact ⟨old, member, rfl⟩

/-! ### A new node -/

theorem before_or_before (block : Block ip mask) (block' : Block node.ip node.ip_mask)
    (free : node.Holds ip → mask < node.ip_mask) (outside : ¬ node.Inside ip mask) :
    (¬ ip < node.ip → node.ip.toNat + (2 ^ 32 - node.ip_mask.toNat) ≤ ip.toNat) ∧
      (ip < node.ip → ip.toNat + (2 ^ 32 - mask.toNat) ≤ node.ip.toNat) := by
  have inside : node.Holds ip ∨ Covers ip mask node.ip → False := by
    intro meets
    rcases BitVec.le_total mask node.ip_mask with short | long
    · refine outside ⟨?_, short⟩
      rw [block.cleared]
      rcases meets with meets | meets
      · exact block.toIsPrefix.nested block'.toIsPrefix short block.covers_self meets
          block'.covers_self
      · exact meets
    · have here : node.Holds ip := by
        rcases meets with meets | meets
        · exact meets
        · exact block'.toIsPrefix.nested block.toIsPrefix long block'.covers_self meets
            block.covers_self
      exact absurd (free here) (BitVec.not_lt.mpr long)
  constructor
  · intro more
    have range := (not_iff_not.mpr block'.covers_iff_range).mp fun here => inside (.inl here)
    rw [BitVec.not_lt, BitVec.le_def] at more
    omega
  · intro less
    have range := (not_iff_not.mpr block.covers_iff_range).mp fun here => inside (.inr here)
    rw [BitVec.lt_def] at less
    omega

def fresh (t : IpTable) (coin : Address → Bool) (weed : List ConfItem → List ConfItem)
    (conf_ptr : ConfItem) : IpNode :=
  ⟨conf_ptr.ip, conf_ptr.ip_mask, conf_ptr :: weed (t.taken coin conf_ptr)⟩

/-- What a new line needs to take its place: no node contains it, and the deletion loses nothing. -/
structure Room (t : IpTable) (coin : Address → Bool) (conf_ptr : ConfItem) : Prop where
  block : Block conf_ptr.ip conf_ptr.ip_mask
  free : ∀ node, t.Node node → node.Holds conf_ptr.ip → conf_ptr.ip_mask < node.ip_mask
  untangled : Untangled coin conf_ptr.ip conf_ptr.ip_mask (t.tree (octet conf_ptr.ip))

theorem Laid.mem_taken (laid : t.Laid) (block : Block conf_ptr.ip conf_ptr.ip_mask)
    {conf : ConfItem} : conf ∈ t.taken coin conf_ptr ↔
      ∃ node, t.Node node ∧ node.Inside conf_ptr.ip conf_ptr.ip_mask ∧ conf ∈ node.conf := by
  unfold taken
  rw [mem_delete_clist]
  constructor
  · rintro (none_ | ⟨node, member, inside⟩)
    · exact nomatch none_
    · exact ⟨node, laid.node_of_mem member, inside⟩
  · rintro ⟨node, member, inside, inList⟩
    refine .inr ⟨node, ?_, inside, inList⟩
    rw [← block.octet_eq (inside.1.trans block.cleared)]
    exact member

theorem place_tree (block : Block conf_ptr.ip conf_ptr.ip_mask) (o : BitVec 8) :
    (t.place coin weed conf_ptr).tree o = if o = octet conf_ptr.ip then
      insert_ip_subtree (delete_ip_subtree coin conf_ptr.ip conf_ptr.ip_mask
        (t.tree (octet conf_ptr.ip)) []).1 (t.fresh coin weed conf_ptr) else t.tree o := by
  unfold place new_ip_subtree
  rw [block.cleared]
  exact Function.update_apply ..

theorem place_oracle {o : BitVec 8} {y : Address}
    (has : t.oracle o &&& y = y ∨ o = octet conf_ptr.ip ∧ Covers conf_ptr.ip conf_ptr.ip_mask y) :
    (t.place coin weed conf_ptr).oracle o &&& y = y := by
  show Function.update t.oracle (octet conf_ptr.ip)
    (t.oracle (octet conf_ptr.ip) ||| (0xffffffff - conf_ptr.ip_mask + conf_ptr.ip)) o &&& y = y
  by_cases same : o = octet conf_ptr.ip
  · rw [same, Function.update_self]
    rcases has with has | ⟨_, here⟩
    · exact and_of_or_left (same ▸ has)
    · exact and_of_or_right here.and_hull
  · rw [Function.update_of_ne same]
    exact has.resolve_right fun own => same own.1

/-- **Where a new line stands** in its tree. -/
theorem Laid.inorder_place (laid : t.Laid) (room : t.Room coin conf_ptr)
    (weed : List ConfItem → List ConfItem) :
    ∃ pre post, (inorder (t.tree (octet conf_ptr.ip))).filter
        (fun node => ¬ node.Inside conf_ptr.ip conf_ptr.ip_mask) = pre ++ post ∧
      inorder ((t.place coin weed conf_ptr).tree (octet conf_ptr.ip)) =
        pre ++ t.fresh coin weed conf_ptr :: post ∧
      (∀ node ∈ pre, node.Before (t.fresh coin weed conf_ptr)) ∧
      ∀ node ∈ post, (t.fresh coin weed conf_ptr).Before node := by
  have left_ : inorder (delete_ip_subtree coin conf_ptr.ip conf_ptr.ip_mask
      (t.tree (octet conf_ptr.ip)) []).1 = _ := inorder_delete_ip_subtree room.untangled
  have apart := (laid.apart (octet conf_ptr.ip)).filter
    fun node => ¬ node.Inside conf_ptr.ip conf_ptr.ip_mask
  rw [← left_] at apart
  have sorted : (inorder (delete_ip_subtree coin conf_ptr.ip conf_ptr.ip_mask
      (t.tree (octet conf_ptr.ip)) []).1).Pairwise fun a b =>
      decide (conf_ptr.ip < a.ip) = true → decide (conf_ptr.ip < b.ip) = true := by
    refine apart.imp fun {a b} before less => ?_
    have less : conf_ptr.ip < a.ip := of_decide_eq_true less
    refine decide_eq_true ?_
    unfold IpNode.Before at before
    rw [BitVec.lt_def] at less ⊢
    omega
  obtain ⟨pre, post, parts, put, less, more⟩ := inorder_insert sorted (t.fresh coin weed conf_ptr)
  have around : ∀ node ∈ pre ++ post, _ := fun node member => by
    rw [← parts, left_, List.mem_filter, decide_eq_true_eq] at member
    exact before_or_before room.block (laid.block _ node member.1)
      (room.free node (laid.node_of_mem member.1)) member.2
  refine ⟨pre, post, left_.symm.trans parts, ?_, fun node member => ?_, fun node member => ?_⟩
  · rw [place_tree room.block, if_pos rfl]
    exact put
  · exact (around node (List.mem_append_left _ member)).1 (of_decide_eq_false (less node member))
  · exact (around node (List.mem_append_right _ member)).2 (of_decide_eq_true (more node member))

theorem Laid.mem_place (laid : t.Laid) (room : t.Room coin conf_ptr) {o : BitVec 8} :
    node ∈ inorder ((t.place coin weed conf_ptr).tree o) ↔
      (o = octet conf_ptr.ip ∧ node = t.fresh coin weed conf_ptr) ∨
      (node ∈ inorder (t.tree o) ∧ ¬ node.Inside conf_ptr.ip conf_ptr.ip_mask) := by
  by_cases same : o = octet conf_ptr.ip
  · subst same
    obtain ⟨pre, post, parts, put, _, _⟩ := laid.inorder_place room weed
    have kept : node ∈ inorder (t.tree (octet conf_ptr.ip)) ∧
        ¬ node.Inside conf_ptr.ip conf_ptr.ip_mask ↔ node ∈ pre ++ post := by
      rw [← parts, List.mem_filter, decide_eq_true_eq]
    rw [put, and_iff_right rfl, kept, List.mem_append, List.mem_cons, List.mem_append]
    exact or_left_comm
  · rw [place_tree room.block, if_neg same, or_iff_right fun own => same own.1]
    refine ⟨fun member => ⟨member, fun inside => same ?_⟩, fun kept => kept.1⟩
    rw [← laid.under o node member]
    exact room.block.octet_eq (inside.1.trans room.block.cleared)

/-- **A new line** takes the place of the nodes that it contains, and the invariant holds. -/
theorem Laid.place (laid : t.Laid) (room : t.Room coin conf_ptr) :
    (t.place coin weed conf_ptr).Laid := by
  refine ⟨fun o node member => ?_, fun o node member => ?_, fun o => ?_,
    fun o node member y here => ?_⟩
  · rcases (laid.mem_place room).mp member with ⟨_, rfl⟩ | ⟨member, _⟩
    · exact room.block
    · exact laid.block o node member
  · rcases (laid.mem_place room).mp member with ⟨same, rfl⟩ | ⟨member, _⟩
    · exact same.symm
    · exact laid.under o node member
  · by_cases same : o = octet conf_ptr.ip
    · subst same
      obtain ⟨pre, post, parts, put, less, more⟩ := laid.inorder_place room weed
      have apart := (laid.apart (octet conf_ptr.ip)).filter
        fun node => ¬ node.Inside conf_ptr.ip conf_ptr.ip_mask
      rw [parts] at apart
      obtain ⟨onLeft, onRight, across⟩ := List.pairwise_append.mp apart
      rw [put]
      refine List.pairwise_append.mpr ⟨onLeft, List.pairwise_cons.mpr ⟨more, onRight⟩, ?_⟩
      intro a inA b inB
      rcases List.mem_cons.mp inB with rfl | inB
      · exact less a inA
      · exact across a inA b inB
    · rw [place_tree room.block, if_neg same]
      exact laid.apart o
  · rcases (laid.mem_place room).mp member with ⟨same, rfl⟩ | ⟨member, _⟩
    · exact place_oracle (.inr ⟨same, here⟩)
    · exact place_oracle (.inl (laid.heard o node member y here))

theorem Laid.node_place (laid : t.Laid) (room : t.Room coin conf_ptr) :
    (t.place coin weed conf_ptr).Node node ↔ node = t.fresh coin weed conf_ptr ∨
      t.Node node ∧ ¬ node.Inside conf_ptr.ip conf_ptr.ip_mask := by
  unfold Node
  rw [laid.mem_place room]
  constructor
  · rintro (⟨_, new⟩ | kept)
    · exact .inl new
    · exact .inr kept
  · rintro (rfl | kept)
    · exact .inl ⟨rfl, rfl⟩
    · exact .inr kept

end IpTable

end PtlinkIrcd
