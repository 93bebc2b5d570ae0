/-
**What the D-line table answers.**

* `Orderly` — the invariant: the nodes cover what the D-lines cover, and each has the exceptions that
  it overlaps, as far as they do not wait.
* `Suits` — the insertions that keep it; `Kept.after`.
* `DlineSpec` — what the lines say about an address.
* `run_match_Dline` — **a table of suitable insertions answers as its lines say**, in any order.
* `not_run_match_Dline` — an exception that waits, and a D-line that is thrown away for it.
-/

import PtlinkIrcd.Conf.Dline

namespace PtlinkIrcd

open Lib (Covers IsPrefix Meets netmask)
open Lib.SearchTree (inorder)

/-! ### Insertions -/

/-- An insertion: a D-line by `add_Dline`, with the coins of its deletion, or an exception by
`add_dline`. -/
inductive DlineEvent
  | dline (coin : Address → Bool) (conf_ptr : ConfItem)
  | exception (conf_ptr : ConfItem)

/-- A line is for a contiguous prefix of at least eight bits with its host bits cleared, and a D-line
is not marked as an exception. -/
def DlineEvent.Proper : DlineEvent → Prop
  | .dline _ conf_ptr => Block conf_ptr.ip conf_ptr.ip_mask ∧ conf_ptr.elined = false
  | .exception conf_ptr => Block conf_ptr.ip conf_ptr.ip_mask

def DlineTable.after (s : DlineTable) : DlineEvent → DlineTable
  | .dline coin conf_ptr => s.add_Dline coin conf_ptr
  | .exception conf_ptr => s.add_dline conf_ptr

def dlines : List DlineEvent → List ConfItem
  | [] => []
  | .dline _ conf_ptr :: before => conf_ptr :: dlines before
  | .exception _ :: before => dlines before

def exceptions : List DlineEvent → List ConfItem
  | [] => []
  | .dline _ _ :: before => exceptions before
  | .exception conf_ptr :: before => exceptionOf conf_ptr :: exceptions before

/-- The tables that insertions lead to, the last one first in the list. -/
inductive DlineRun (allowed : DlineTable → DlineEvent → Prop) : List DlineEvent → DlineTable → Prop
  | clear : DlineRun allowed [] .clear
  | step {events : List DlineEvent} {s : DlineTable} (run : DlineRun allowed events s)
      (event : DlineEvent) (proper : event.Proper) (ok : allowed s event) :
      DlineRun allowed (event :: events) (s.after event)

/-- **What the lines say**: an address of a D-line is excepted when an exception has it too. -/
structure DlineSpec (lines excepted : List ConfItem) (answer : Address → Option ConfItem) : Prop where
  exception : ∀ x, (∃ conf, answer x = some conf ∧ conf.elined = true) ↔
    (∃ d ∈ lines, d.Holds x) ∧ ∃ e ∈ excepted, e.Holds x
  listed : ∀ x conf, answer x = some conf → conf.elined = true → conf ∈ excepted ∧ conf.Holds x
  dline : ∀ x, (∃ d ∈ lines, d.Holds x) → (¬ ∃ e ∈ excepted, e.Holds x) →
    ∃ d ∈ lines, answer x = some d ∧ d.Holds x
  free : ∀ x, (¬ ∃ d ∈ lines, d.Holds x) → answer x = none

def IpNode.Overlaps (node : IpNode) (conf : ConfItem) : Prop :=
  Meets node.ip node.ip_mask conf.ip conf.ip_mask

instance (node : IpNode) (conf : ConfItem) : Decidable (node.Overlaps conf) :=
  inferInstanceAs (Decidable (Meets _ _ _ _))

/-- **The insertions that a table is made for.** A D-line is inside another one of the table, or: no
exception that waits has its address, no exception of a D-line beside it overlaps it, and the deletion
of the D-lines inside it loses nothing. Every D-line that an exception overlaps has its address. -/
def Suits (s : DlineTable) : DlineEvent → Prop
  | .dline coin conf_ptr =>
    (∃ node ∈ inorder (s.lines.tree (octet conf_ptr.ip)),
      node.Holds conf_ptr.ip ∧ node.ip_mask ≤ conf_ptr.ip_mask) ∨
    (∀ e ∈ s.leftover, ¬ e.Holds conf_ptr.ip) ∧
    (∀ node ∈ inorder (s.lines.tree (octet conf_ptr.ip)),
      ¬ node.Inside conf_ptr.ip conf_ptr.ip_mask → ∀ e ∈ node.conf.tail,
        ¬ Meets e.ip e.ip_mask conf_ptr.ip conf_ptr.ip_mask) ∧
    Untangled coin conf_ptr.ip conf_ptr.ip_mask (s.lines.tree (octet conf_ptr.ip))
  | .exception conf_ptr =>
    ∀ node ∈ inorder (s.lines.tree (octet conf_ptr.ip)),
      node.Overlaps conf_ptr → node.Holds conf_ptr.ip

/-! ### The invariant -/

/-- **The nodes cover what the D-lines cover**, and each one has its D-line first and behind it the
exceptions that it overlaps; those that wait may overlap only a node that has their address. -/
structure Orderly (lines excepted waiting : List ConfItem) (t : IpTable) : Prop where
  laid : t.Laid
  proper : ∀ e ∈ excepted, Block e.ip e.ip_mask ∧ exceptionOf e = e
  covered : ∀ x, (∃ d ∈ lines, d.Holds x) ↔ ∃ node, t.Node node ∧ node.Holds x
  headed : ∀ node, t.Node node → ∃ d ∈ lines, node.conf.head? = some d ∧ d.ip = node.ip ∧
    d.ip_mask = node.ip_mask ∧ d.elined = false
  listed : ∀ node, t.Node node → ∀ e ∈ node.conf.tail, e ∈ excepted ∧ node.Holds e.ip
  met : ∀ e ∈ excepted, ∀ node, t.Node node → node.Overlaps e →
    e ∈ node.conf.tail ∨ e ∈ waiting ∧ node.Holds e.ip
  placed : ∀ e ∈ excepted, e ∈ waiting ∨ ∃ node, t.Node node ∧ node.Holds e.ip ∧ e ∈ node.conf.tail
  waits : ∀ e ∈ waiting, e ∈ excepted

/-- The whole table is orderly, and no exception waits that has a D-line. -/
structure Kept (lines excepted : List ConfItem) (s : DlineTable) : Prop where
  orderly : Orderly lines excepted s.leftover s.lines
  unplaced : ∀ e ∈ s.leftover, ∀ node, s.lines.Node node → ¬ node.Holds e.ip

section Invariant

variable {lines excepted waiting later new : List ConfItem} {t t' : IpTable} {s : DlineTable}
  {conf_ptr e : ConfItem} {coin : Address → Bool} {node : IpNode} {x : Address}

theorem elined_exceptionOf : (exceptionOf conf_ptr).elined = true :=
  Flags.has_self (show CONF_FLAGS_E_LINED ≠ 0#32 by decide)

theorem Orderly.elined (orderly : Orderly lines excepted waiting t) (member : e ∈ excepted) :
    e.elined = true := by
  rw [← (orderly.proper e member).2]
  exact elined_exceptionOf

theorem Orderly.isSome_head (orderly : Orderly lines excepted waiting t) (member : t.Node node) :
    node.conf.head?.isSome := by
  obtain ⟨d, _, head, _⟩ := orderly.headed node member
  rw [head]
  rfl

theorem Orderly.overlaps (orderly : Orderly lines excepted waiting t) (member : t.Node node)
    (here : node.Holds x) (memberE : e ∈ excepted) (hereE : e.Holds x) : node.Overlaps e :=
  (orderly.laid.block _ node member).toIsPrefix.meets (orderly.proper e memberE).1.toIsPrefix here
    hereE

theorem Orderly.attached (orderly : Orderly lines excepted waiting t) (attached : Attached t t' new)
    (known : ∀ e ∈ new, e ∈ excepted) (known' : ∀ e ∈ later, e ∈ waiting)
    (went : ∀ e ∈ waiting, e ∈ later ∨ e ∈ new ∧ ∃ node, t.Node node ∧ node.Holds e.ip) :
    Orderly lines excepted later t' where
  laid := attached.laid
  proper := orderly.proper
  covered x := by
    rw [orderly.covered]
    constructor
    · rintro ⟨old, member, here⟩
      obtain ⟨node, member, grew⟩ := attached.forth old member
      exact ⟨node, member, grew.holds.mpr here⟩
    · rintro ⟨node, member, here⟩
      obtain ⟨old, member, grew⟩ := attached.back node member
      exact ⟨old, member, grew.holds.mp here⟩
  headed node member := by
    obtain ⟨old, member, grew⟩ := attached.back node member
    rw [grew.head, grew.ip, grew.ip_mask]
    exact orderly.headed old member
  listed node member e inTail := by
    obtain ⟨old, member, grew⟩ := attached.back node member
    rw [grew.holds]
    rcases (grew.mem_tail e).mp inTail with before | ⟨now, here⟩
    · exact orderly.listed old member e before
    · exact ⟨known e now, here⟩
  met e memberE node member overlaps := by
    obtain ⟨old, member, grew⟩ := attached.back node member
    unfold IpNode.Overlaps at overlaps
    rw [grew.ip, grew.ip_mask] at overlaps
    rw [grew.mem_tail, grew.holds]
    rcases orderly.met e memberE old member overlaps with before | ⟨waits, here⟩
    · exact .inl (.inl before)
    · rcases went e waits with stays | ⟨now, _⟩
      · exact .inr ⟨stays, here⟩
      · exact .inl (.inr ⟨now, here⟩)
  placed e memberE := by
    rcases orderly.placed e memberE with waits | ⟨old, member, here, before⟩
    · rcases went e waits with stays | ⟨now, old, member, here⟩
      · exact .inl stays
      · obtain ⟨node, member, grew⟩ := attached.forth old member
        exact .inr ⟨node, member, grew.holds.mpr here, (grew.mem_tail e).mpr (.inr ⟨now, here⟩)⟩
    · obtain ⟨node, member, grew⟩ := attached.forth old member
      exact .inr ⟨node, member, grew.holds.mpr here, (grew.mem_tail e).mpr (.inl before)⟩
  waits e stays := orderly.waits e (known' e stays)

/-- A new exception waits first, when every node that it overlaps has its address. -/
theorem Orderly.expect (orderly : Orderly lines excepted waiting t)
    (block : Block conf_ptr.ip conf_ptr.ip_mask)
    (suits : ∀ node, t.Node node → node.Overlaps conf_ptr → node.Holds conf_ptr.ip) :
    Orderly lines (exceptionOf conf_ptr :: excepted) (exceptionOf conf_ptr :: waiting) t where
  laid := orderly.laid
  proper e member := by
    rcases List.mem_cons.mp member with rfl | member
    · exact ⟨block, rfl⟩
    · exact orderly.proper e member
  covered := orderly.covered
  headed := orderly.headed
  listed node member e inTail :=
    ⟨List.mem_cons_of_mem _ (orderly.listed node member e inTail).1,
      (orderly.listed node member e inTail).2⟩
  met e memberE node member overlaps := by
    rcases List.mem_cons.mp memberE with rfl | memberE
    · exact .inr ⟨List.mem_cons_self, suits node member overlaps⟩
    · exact (orderly.met e memberE node member overlaps).imp_right
        fun waits => ⟨List.mem_cons_of_mem _ waits.1, waits.2⟩
  placed e memberE := by
    rcases List.mem_cons.mp memberE with rfl | memberE
    · exact .inl List.mem_cons_self
    · exact (orderly.placed e memberE).imp_left (List.mem_cons_of_mem _)
  waits e waits := by
    rcases List.mem_cons.mp waits with rfl | waits
    · exact List.mem_cons_self
    · exact List.mem_cons_of_mem _ (orderly.waits e waits)

theorem holds_of_inside (block : Block conf_ptr.ip conf_ptr.ip_mask)
    (block' : Block node.ip node.ip_mask) (inside : node.Inside conf_ptr.ip conf_ptr.ip_mask)
    (here : node.Holds x) : conf_ptr.Holds x :=
  block.toIsPrefix.nested block'.toIsPrefix inside.2 (inside.1.trans block.cleared)
    block'.covers_self here

/-- **A new D-line** takes over the exceptions of the D-lines inside it. -/
theorem Orderly.place (orderly : Orderly lines excepted waiting t)
    (room : t.Room coin conf_ptr) (dline : conf_ptr.elined = false)
    (uncovered : ∀ e ∈ waiting, ¬ e.Holds conf_ptr.ip)
    (beside : ∀ node, t.Node node → ¬ node.Inside conf_ptr.ip conf_ptr.ip_mask →
      ∀ e ∈ node.conf.tail, ¬ Meets e.ip e.ip_mask conf_ptr.ip conf_ptr.ip_mask) :
    Orderly (conf_ptr :: lines) excepted waiting (t.place coin trim_Dlines conf_ptr) := by
  have block := room.block
  have inherits : ∀ node, t.Node node → node.Inside conf_ptr.ip conf_ptr.ip_mask →
      ∀ e ∈ node.conf.tail, e ∈ (t.fresh coin trim_Dlines conf_ptr).conf.tail := by
    intro node member inside e inTail
    refine List.mem_filter.mpr ⟨?_, orderly.elined (orderly.listed node member e inTail).1⟩
    exact (orderly.laid.mem_taken block).mpr ⟨node, member, inside, List.mem_of_mem_tail inTail⟩
  refine ⟨orderly.laid.place room, orderly.proper, fun x => ?_, fun node member => ?_,
    fun node member e inTail => ?_, fun e memberE node member overlaps => ?_,
    fun e memberE => ?_, orderly.waits⟩
  · constructor
    · rintro ⟨d, member, here⟩
      rcases List.mem_cons.mp member with rfl | member
      · exact ⟨_, (orderly.laid.node_place room).mpr (.inl rfl), here⟩
      · obtain ⟨old, member, here⟩ := (orderly.covered x).mp ⟨d, member, here⟩
        by_cases inside : old.Inside conf_ptr.ip conf_ptr.ip_mask
        · exact ⟨_, (orderly.laid.node_place room).mpr (.inl rfl),
            holds_of_inside block (orderly.laid.block _ old member) inside here⟩
        · exact ⟨old, (orderly.laid.node_place room).mpr (.inr ⟨member, inside⟩), here⟩
    · rintro ⟨node, member, here⟩
      rcases (orderly.laid.node_place room).mp member with rfl | ⟨member, _⟩
      · exact ⟨conf_ptr, List.mem_cons_self, here⟩
      · obtain ⟨d, member, here⟩ := (orderly.covered x).mpr ⟨node, member, here⟩
        exact ⟨d, List.mem_cons_of_mem _ member, here⟩
  · rcases (orderly.laid.node_place room).mp member with rfl | ⟨member, _⟩
    · exact ⟨conf_ptr, List.mem_cons_self, rfl, rfl, rfl, dline⟩
    · obtain ⟨d, member, rest⟩ := orderly.headed node member
      exact ⟨d, List.mem_cons_of_mem _ member, rest⟩
  · rcases (orderly.laid.node_place room).mp member with rfl | ⟨member, _⟩
    · obtain ⟨inList, marked⟩ := List.mem_filter.mp inTail
      obtain ⟨old, member, inside, inConf⟩ := (orderly.laid.mem_taken block).mp inList
      obtain ⟨d, _, head, _, _, plain⟩ := orderly.headed old member
      rcases List.mem_cons.mp (List.cons_head?_tail head ▸ inConf) with rfl | inConf
      · exact absurd (marked.symm.trans plain) (by decide)
      · have before := orderly.listed old member e inConf
        exact ⟨before.1, holds_of_inside block (orderly.laid.block _ old member) inside before.2⟩
    · exact orderly.listed node member e inTail
  · rcases (orderly.laid.node_place room).mp member with rfl | ⟨member, _⟩
    · -- an exception that overlaps the new D-line waits, or is on a node inside it
      have meets : Meets conf_ptr.ip conf_ptr.ip_mask e.ip e.ip_mask := overlaps
      rcases orderly.placed e memberE with waits | ⟨old, member, here, inTail⟩
      · exact .inr ⟨waits, meets.resolve_right (uncovered e waits)⟩
      · by_cases inside : old.Inside conf_ptr.ip conf_ptr.ip_mask
        · exact .inl (inherits old member inside e inTail)
        · exact absurd meets.symm (beside old member inside e inTail)
    · exact orderly.met e memberE node member overlaps
  · rcases orderly.placed e memberE with waits | ⟨old, member, here, inTail⟩
    · exact .inl waits
    · by_cases inside : old.Inside conf_ptr.ip conf_ptr.ip_mask
      · exact .inr ⟨_, (orderly.laid.node_place room).mpr (.inl rfl),
          holds_of_inside block (orderly.laid.block _ old member) inside here,
          inherits old member inside e inTail⟩
      · exact .inr ⟨old, (orderly.laid.node_place room).mpr (.inr ⟨member, inside⟩), here, inTail⟩

/-! ### Runs -/

theorem Orderly.contained (orderly : Orderly lines excepted waiting t)
    (block : Block conf_ptr.ip conf_ptr.ip_mask) (member : t.Node node)
    (here : node.Holds conf_ptr.ip) (broader : node.ip_mask ≤ conf_ptr.ip_mask) :
    Orderly (conf_ptr :: lines) excepted waiting t where
  laid := orderly.laid
  proper := orderly.proper
  covered x := by
    rw [← orderly.covered]
    constructor
    · rintro ⟨d, memberD, hereD⟩
      rcases List.mem_cons.mp memberD with rfl | memberD
      · refine (orderly.covered x).mpr ⟨node, member, ?_⟩
        exact (orderly.laid.block _ node member).toIsPrefix.nested block.toIsPrefix broader here
          block.covers_self hereD
      · exact ⟨d, memberD, hereD⟩
    · rintro ⟨d, memberD, hereD⟩
      exact ⟨d, List.mem_cons_of_mem _ memberD, hereD⟩
  headed old member := by
    obtain ⟨d, memberD, rest⟩ := orderly.headed old member
    exact ⟨d, List.mem_cons_of_mem _ memberD, rest⟩
  listed := orderly.listed
  met := orderly.met
  placed := orderly.placed
  waits := orderly.waits

theorem Block.add_Dline (block : Block conf_ptr.ip conf_ptr.ip_mask) :
    s.add_Dline coin conf_ptr = s.addMasked coin conf_ptr := by
  unfold DlineTable.add_Dline
  rw [if_neg]
  intro none_
  exact absurd block.long (by rw [none_]; decide)

/-- A node with an exception that meets a line is in the tree of the line. -/
theorem Orderly.mem_tree (orderly : Orderly lines excepted waiting t)
    (block : Block conf_ptr.ip conf_ptr.ip_mask) (member : t.Node node) (inTail : e ∈ node.conf.tail)
    (meets : Meets e.ip e.ip_mask conf_ptr.ip conf_ptr.ip_mask) :
    node ∈ inorder (t.tree (octet conf_ptr.ip)) := by
  obtain ⟨memberE, here⟩ := orderly.listed node member e inTail
  have own : octet e.ip = octet node.ip := (orderly.laid.block _ node member).octet_eq here
  have same : octet e.ip = octet conf_ptr.ip := by
    rcases meets with covers | covers
    · exact ((orderly.proper e memberE).1.octet_eq covers).symm
    · exact block.octet_eq covers
  rw [← same, own]
  exact member

theorem Kept.place (kept : Kept lines excepted s) (room : s.lines.Room coin conf_ptr)
    (dline : conf_ptr.elined = false) (uncovered : ∀ e ∈ s.leftover, ¬ e.Holds conf_ptr.ip)
    (beside : ∀ node ∈ inorder (s.lines.tree (octet conf_ptr.ip)),
      ¬ node.Inside conf_ptr.ip conf_ptr.ip_mask → ∀ e ∈ node.conf.tail,
        ¬ Meets e.ip e.ip_mask conf_ptr.ip conf_ptr.ip_mask) :
    Kept (conf_ptr :: lines) excepted
      ⟨(rescan_dlines (s.lines.place coin trim_Dlines conf_ptr) s.leftover).1,
        (rescan_dlines (s.lines.place coin trim_Dlines conf_ptr) s.leftover).2⟩ := by
  have orderly := kept.orderly
  have placed := orderly.place room dline uncovered fun node member outside e inTail meets =>
    beside node (orderly.mem_tree room.block member inTail meets) outside e inTail meets
  have rescan := attached_rescan_dlines placed.laid (fun _ member => placed.isSome_head member)
    s.leftover fun e waits => (orderly.proper e (orderly.waits e waits)).2
  generalize s.lines.place coin trim_Dlines conf_ptr = t at *
  obtain ⟨attached, rest⟩ := rescan
  rw [rest]
  refine ⟨placed.attached attached ?_ ?_ ?_, ?_⟩
  · exact fun e now => orderly.waits e (List.mem_filter.mp now).1
  · exact fun e stays => (List.mem_filter.mp stays).1
  · intro e waits
    cases found : t.find e.ip with
    | none => exact .inl (List.mem_filter.mpr ⟨waits, by rw [found]; rfl⟩)
    | some node =>
      exact .inr ⟨List.mem_filter.mpr ⟨waits, by rw [found]; rfl⟩, node,
        placed.laid.find_iff.mp found⟩
  · intro e stays node member here
    obtain ⟨old, member, grew⟩ := attached.back node member
    have none_ := Option.isNone_iff_eq_none.mp (List.mem_filter.mp stays).2
    exact placed.laid.find_eq_none.mp none_ old member (grew.holds.mp here)

/-- **A suitable D-line** keeps the invariant. -/
theorem Kept.add_Dline (kept : Kept lines excepted s) (block : Block conf_ptr.ip conf_ptr.ip_mask)
    (dline : conf_ptr.elined = false) (suits : Suits s (.dline coin conf_ptr)) :
    Kept (conf_ptr :: lines) excepted (s.add_Dline coin conf_ptr) := by
  have laid := kept.orderly.laid
  rw [block.add_Dline]
  unfold DlineTable.addMasked
  by_cases broader : ∃ node, s.lines.Node node ∧ node.Holds conf_ptr.ip ∧
      node.ip_mask ≤ conf_ptr.ip_mask
  · obtain ⟨node, member, here, broader⟩ := broader
    have wide : (some node).any fun node => node.ip_mask ≤ conf_ptr.ip_mask :=
      decide_eq_true broader
    rw [laid.find_iff.mpr ⟨member, here⟩, if_pos wide]
    exact ⟨kept.orderly.contained block member here broader, kept.unplaced⟩
  · have free : ∀ node, s.lines.Node node → node.Holds conf_ptr.ip →
        conf_ptr.ip_mask < node.ip_mask := fun node member here =>
      BitVec.not_le.mp fun wide => broader ⟨node, member, here, wide⟩
    rcases suits with ⟨node, member, here, wide⟩ | ⟨uncovered, beside, untangled⟩
    · exact absurd ⟨node, laid.node_of_mem member, here, wide⟩ broader
    have narrow : ¬ (s.lines.find conf_ptr.ip).any (fun node => node.ip_mask ≤ conf_ptr.ip_mask) := by
      cases found : s.lines.find conf_ptr.ip with
      | none => exact Bool.false_ne_true
      | some node =>
        obtain ⟨member, here⟩ := laid.find_iff.mp found
        exact fun wide => broader ⟨node, member, here, of_decide_eq_true wide⟩
    have none_ : s.find_exception conf_ptr.ip = none := by
      refine List.find?_eq_none.mpr fun e waits covers => uncovered e waits ?_
      exact (of_decide_eq_true covers).symm
    rw [if_neg narrow, none_, if_neg (by decide)]
    exact kept.place ⟨block, free, untangled⟩ dline uncovered beside

/-- **A suitable exception** keeps the invariant. -/
theorem Kept.add_dline (kept : Kept lines excepted s) (block : Block conf_ptr.ip conf_ptr.ip_mask)
    (suits : Suits s (.exception conf_ptr)) :
    Kept lines (exceptionOf conf_ptr :: excepted) (s.add_dline conf_ptr) := by
  have laid := kept.orderly.laid
  have expected := kept.orderly.expect block fun node member overlaps => by
    refine suits node ?_ overlaps
    have same : octet node.ip = octet conf_ptr.ip := by
      rcases overlaps with here | here
      · exact ((laid.block _ node member).octet_eq here).symm
      · exact block.octet_eq here
    rw [← same]
    exact member
  unfold DlineTable.add_dline
  cases found : s.lines.find conf_ptr.ip with
  | none =>
    refine ⟨expected, fun e waits node member => ?_⟩
    rcases List.mem_cons.mp waits with rfl | waits
    · exact laid.find_eq_none.mp found node member
    · exact kept.unplaced e waits node member
  | some node =>
    have attached := (Attached.nil laid).cons (e := exceptionOf conf_ptr)
      fun _ member => kept.orderly.isSome_head member
    refine ⟨expected.attached attached ?_ ?_ ?_, fun e waits new member here => ?_⟩
    · exact fun e now => List.mem_singleton.mp now ▸ List.mem_cons_self
    · exact fun e stays => List.mem_cons_of_mem _ stays
    · intro e waits
      rcases List.mem_cons.mp waits with rfl | waits
      · exact .inr ⟨List.mem_singleton_self _, node, laid.find_iff.mp found⟩
      · exact .inl waits
    · obtain ⟨old, member, grew⟩ := attached.back new member
      exact kept.unplaced e waits old member (grew.holds.mp here)

/-- **Suitable insertions** keep the invariant. -/
theorem DlineRun.kept {events : List DlineEvent} (run : DlineRun Suits events s) :
    Kept (dlines events) (exceptions events) s := by
  induction run with
  | clear => exact ⟨⟨.clear, fun _ none_ => (nomatch none_),
      fun x => ⟨fun ⟨_, none_, _⟩ => (nomatch none_), fun ⟨_, none_, _⟩ => (nomatch none_)⟩,
      fun _ none_ => (nomatch none_), fun _ none_ => (nomatch none_),
      fun _ none_ => (nomatch none_), fun _ none_ => (nomatch none_),
      fun _ none_ => (nomatch none_)⟩, fun _ none_ => (nomatch none_)⟩
  | step run event proper ok ih =>
    cases event with
    | dline coin conf_ptr => exact ih.add_Dline proper.1 proper.2 ok
    | exception conf_ptr => exact ih.add_dline proper ok

/-! ### The answer -/

theorem Kept.match_free (kept : Kept lines excepted s) (none_ : ¬ ∃ d ∈ lines, d.Holds x) :
    s.match_Dline x = none := by
  have missing : s.lines.find x = none := kept.orderly.laid.find_eq_none.mpr
    fun node member here => none_ ((kept.orderly.covered x).mpr ⟨node, member, here⟩)
  unfold DlineTable.match_Dline
  rw [missing]
  exact ite_self none

/-- **An address of a D-line** is excepted by a line that has it, if there is one. -/
theorem Kept.match_covered (kept : Kept lines excepted s) (some_ : ∃ d ∈ lines, d.Holds x) :
    (∃ e ∈ excepted, e.Holds x ∧ s.match_Dline x = some e) ∨
      (¬ ∃ e ∈ excepted, e.Holds x) ∧
        ∃ d ∈ lines, s.match_Dline x = some d ∧ d.Holds x ∧ d.elined = false := by
  have orderly := kept.orderly
  obtain ⟨node, member, here⟩ := (orderly.covered x).mp some_
  obtain ⟨d, memberD, head, ip_, mask_, plain⟩ := orderly.headed node member
  have hereD : d.Holds x := by
    unfold ConfItem.Holds
    rw [ip_, mask_]
    exact here
  have reads : s.match_Dline x =
      (node.conf.find? fun scan => scan.elined && scan.ip == x &&& scan.ip_mask).or
        (node.conf.head?.filter fun conf_ptr =>
          conf_ptr.ip &&& conf_ptr.ip_mask == x &&& conf_ptr.ip_mask) := by
    unfold DlineTable.match_Dline
    rw [orderly.laid.find_iff.mpr ⟨member, here⟩]
    refine (if_neg fun out => out (orderly.laid.heard_of member here)).trans ?_
    dsimp only
    cases node.conf.find? fun scan => scan.elined && scan.ip == x &&& scan.ip_mask <;> rfl
  have list : node.conf = d :: node.conf.tail := (List.cons_head?_tail head).symm
  rw [reads]
  cases scanned : node.conf.find? fun scan => scan.elined && scan.ip == x &&& scan.ip_mask with
  | some scan =>
    have holds := List.find?_some scanned
    simp only [Bool.and_eq_true, beq_iff_eq] at holds
    have inConf := List.mem_of_find?_eq_some scanned
    rw [list] at inConf
    rcases List.mem_cons.mp inConf with rfl | inTail
    · exact absurd (holds.1.symm.trans plain) (by decide)
    · exact .inl ⟨scan, (orderly.listed node member scan inTail).1, holds.2.symm, rfl⟩
  | none =>
    refine .inr ⟨?_, d, memberD, ?_, hereD, plain⟩
    · rintro ⟨e, memberE, hereE⟩
      rcases orderly.met e memberE node member (orderly.overlaps member here memberE hereE)
        with inTail | ⟨waits, own⟩
      · refine List.find?_eq_none.mp scanned e (List.mem_of_mem_tail inTail) ?_
        rw [orderly.elined memberE, Bool.true_and, beq_iff_eq]
        exact hereE.symm
      · exact kept.unplaced e waits node member own
    · have cleared : d.ip &&& d.ip_mask = x &&& d.ip_mask := by
        rw [ip_, mask_, (orderly.laid.block _ node member).cleared]
        exact here.symm
      rw [head, Option.none_or, Option.filter_some, if_pos (beq_iff_eq.mpr cleared)]

/-- **What an orderly table answers.** -/
theorem Kept.spec (kept : Kept lines excepted s) : DlineSpec lines excepted s.match_Dline where
  exception x := by
    constructor
    · rintro ⟨conf, answer, marked⟩
      by_cases some_ : ∃ d ∈ lines, d.Holds x
      · rcases kept.match_covered some_ with ⟨e, member, here, _⟩ | ⟨_, d, _, other, _, plain⟩
        · exact ⟨some_, e, member, here⟩
        · obtain rfl := Option.some.inj (answer.symm.trans other)
          exact absurd (marked.symm.trans plain) (by decide)
      · exact absurd (answer.symm.trans (kept.match_free some_)) (by simp)
    · rintro ⟨some_, excepted_⟩
      rcases kept.match_covered some_ with ⟨e, member, _, answer⟩ | ⟨none_, _⟩
      · exact ⟨e, answer, kept.orderly.elined member⟩
      · exact absurd excepted_ none_
  listed x conf answer marked := by
    by_cases some_ : ∃ d ∈ lines, d.Holds x
    · rcases kept.match_covered some_ with ⟨e, member, here, other⟩ | ⟨_, d, _, other, _, plain⟩
      · obtain rfl := Option.some.inj (answer.symm.trans other)
        exact ⟨member, here⟩
      · obtain rfl := Option.some.inj (answer.symm.trans other)
        exact absurd (marked.symm.trans plain) (by decide)
    · exact absurd (answer.symm.trans (kept.match_free some_)) (by simp)
  dline x some_ none_ := by
    rcases kept.match_covered some_ with ⟨e, member, here, _⟩ | ⟨_, d, member, answer, here, _⟩
    · exact absurd ⟨e, member, here⟩ none_
    · exact ⟨d, member, answer, here⟩
  free x := kept.match_free

/-- What kind of line an address is answered with: none, a D-line or an exception. -/
def DlineTable.verdict (s : DlineTable) (x : Address) : Option Bool :=
  (s.match_Dline x).map (·.elined)

theorem Kept.verdict (kept : Kept lines excepted s) (x : Address) :
    s.verdict x = if ∃ d ∈ lines, d.Holds x then some (decide (∃ e ∈ excepted, e.Holds x))
      else none := by
  unfold DlineTable.verdict
  by_cases some_ : ∃ d ∈ lines, d.Holds x
  · rw [if_pos some_]
    rcases kept.match_covered some_ with ⟨e, member, here, answer⟩ | ⟨none_, d, _, answer, _, plain⟩
    · rw [answer, decide_eq_true ⟨e, member, here⟩]
      exact congrArg some (kept.orderly.elined member)
    · rw [answer, decide_eq_false none_]
      exact congrArg some plain
  · rw [if_neg some_, kept.match_free some_]
    rfl

/-- **A table of suitable insertions answers as its lines say**, and in whatever order they were
inserted. -/
theorem run_match_Dline {events : List DlineEvent} (run : DlineRun Suits events s) :
    DlineSpec (dlines events) (exceptions events) s.match_Dline ∧
      ∀ {events' : List DlineEvent} {s' : DlineTable}, DlineRun Suits events' s' →
        (dlines events').Perm (dlines events) → (exceptions events').Perm (exceptions events) →
        ∀ x, s'.verdict x = s.verdict x := by
  refine ⟨run.kept.spec, fun {events' s'} run' sameLines sameExceptions x => ?_⟩
  rw [run.kept.verdict, run'.kept.verdict]
  simp only [sameLines.mem_iff, sameExceptions.mem_iff]

end Invariant

/-! ### Samples -/

def sampleDline : ConfItem := ⟨CONF_DLINE, 0, 0x0a000000, 0xff000000, []⟩

def sampleException : ConfItem := ⟨CONF_DLINE, CONF_FLAGS_E_LINED, 0x0a000000, 0xffffffff, []⟩

theorem sampleDline_block : Block sampleDline.ip sampleDline.ip_mask :=
  ⟨⟨⟨8, by decide, by decide⟩, by decide⟩, by decide⟩

theorem sampleException_block : Block sampleException.ip sampleException.ip_mask :=
  ⟨⟨⟨32, by decide, by decide⟩, by decide⟩, by decide⟩

/-- The D-line first, and then the exception. -/
theorem run_match_Dline_sample :
    DlineSpec [sampleDline] [sampleException] ((DlineTable.clear.add_Dline (fun _ => true)
      sampleDline).add_dline sampleException).match_Dline := by
  have placed : ∀ node ∈ inorder ((DlineTable.clear.add_Dline (fun _ => true)
      sampleDline).lines.tree (octet sampleException.ip)),
      node.Overlaps sampleException → node.Holds sampleException.ip := by
    decide +kernel
  have first : DlineRun Suits [.dline (fun _ => true) sampleDline]
      (DlineTable.clear.add_Dline (fun _ => true) sampleDline) :=
    .step .clear (.dline (fun _ => true) sampleDline) ⟨sampleDline_block, by decide⟩
      (.inr ⟨fun e none_ => (nomatch none_), fun node none_ => (nomatch none_), trivial⟩)
  exact (run_match_Dline (.step first (.exception sampleException) sampleException_block placed)).1

/-- **An exception waits, and the D-line with its address is thrown away** for all addresses. -/
theorem not_run_match_Dline : ¬ ∀ events s, DlineRun (fun _ _ => True) events s →
    DlineSpec (dlines events) (exceptions events) s.match_Dline := by
  intro all
  have run : DlineRun (fun _ _ => True)
      [.dline (fun _ => true) sampleDline, .exception sampleException]
      ((DlineTable.clear.add_dline sampleException).add_Dline (fun _ => true) sampleDline) :=
    .step (.step .clear (.exception sampleException) sampleException_block trivial)
      (.dline (fun _ => true) sampleDline) ⟨sampleDline_block, by decide⟩ trivial
  have free : ¬ ∃ e ∈ [sampleException], e.Holds 0x0a000001 := by decide
  obtain ⟨d, _, answer, _⟩ := (all _ _ run).dline 0x0a000001
    ⟨sampleDline, List.mem_cons_self, by decide⟩ free
  have thrown : ((DlineTable.clear.add_dline sampleException).add_Dline (fun _ => true)
      sampleDline).match_Dline 0x0a000001 = none := by decide +kernel
  exact absurd (thrown.symm.trans answer) (by simp)

end PtlinkIrcd
