/-
**K-lines for addresses.**

`add_ip_Kline`, `add_ip_Eline` and `match_ip_Kline` of `dline_conf.c`.

* `IpTable.add_ip_Kline`, `IpTable.add_ip_Eline` — one function with two ways to stop and to trim.
* `scanIpLines`, `IpTable.match_ip_Kline` — an E-line wins, and then the last K-line.
* `IpTable.Admits` — the insertions that lose no line; `IpTable.Has.enter`, `IpTable.Has.new`.
* `run_match_ip_Kline` — **a table of such insertions answers as its lines say**.
* `not_run_match_ip_Kline` — a broad K-line that is put in the list of a narrow one.
-/

import PtlinkIrcd.Conf.IpTable

namespace PtlinkIrcd

open Lib (Covers IsPrefix netmask)
open Lib.SearchTree (inorder)

/-! ### The table -/

/-- `cl->ip_mask >= mask` in the trimming functions: `mask` came as an int, and widens with its sign
to the `w` bits of an unsigned long. -/
def atLeast (w : Nat) (ip_mask mask : Address) : Bool := (mask.signExtend w).ule (ip_mask.setWidth w)

def keepsIpKline (w : Nat) (mask : Address) (cl : ConfItem) : Bool :=
  cl.elined || !atLeast w cl.ip_mask mask

def keepsIpEline (w : Nat) (mask : Address) (cl : ConfItem) : Bool := !atLeast w cl.ip_mask mask

/-- What keeps a K-line out of a list, when its mask is shorter and its user is `*`. -/
def stopsIpKline (scan : ConfItem) : Bool := scan.status.has CONF_KILL || scan.elined

/-- A line in the list of a node stops a new line: any user, and a shorter mask. -/
def Stops (stops : ConfItem → Bool) (conf_ptr scan : ConfItem) : Prop :=
  stops scan = true ∧ scan.user = ['*'] ∧ scan.ip_mask < conf_ptr.ip_mask

instance (stops : ConfItem → Bool) (conf_ptr scan : ConfItem) :
    Decidable (Stops stops conf_ptr scan) :=
  inferInstanceAs (Decidable (_ ∧ _ ∧ _))

/-- A list without what a line for any user trims. -/
def weedFor (keeps : Address → ConfItem → Bool) (conf_ptr : ConfItem) (mask : Address)
    (clist : List ConfItem) : List ConfItem :=
  if conf_ptr.user = ['*'] then clist.filter (keeps mask) else clist

namespace IpTable

/-- `add_ip_Kline` and `add_ip_Eline`: a new node when none has the address, else a place at the head
of the list that is there. -/
def enter (t : IpTable) (coin : Address → Bool) (stops : ConfItem → Bool)
    (keeps : Address → ConfItem → Bool) (conf_ptr : ConfItem) : IpTable :=
  match t.find conf_ptr.ip with
  | none => t.place coin (weedFor keeps conf_ptr 0) conf_ptr
  | some node =>
    if ∃ scan ∈ node.conf, Stops stops conf_ptr scan then t
    else (t.hear conf_ptr.ip conf_ptr.ip_mask).amend conf_ptr.ip fun conf =>
      conf_ptr :: weedFor keeps conf_ptr conf_ptr.ip_mask conf

/-- `add_ip_Kline`: a line without a mask is for one address. -/
def add_ip_Kline (t : IpTable) (w : Nat) (coin : Address → Bool) (conf_ptr : ConfItem) : IpTable :=
  t.enter coin stopsIpKline (keepsIpKline w)
    (if conf_ptr.ip_mask = 0 then { conf_ptr with ip_mask := 0xFFFFFFFF } else conf_ptr)

def add_ip_Eline (t : IpTable) (w : Nat) (coin : Address → Bool) (conf_ptr : ConfItem) : IpTable :=
  t.enter coin ConfItem.elined (keepsIpEline w) conf_ptr

end IpTable

/-- The type of the winner so far: an I-line by default. -/
inductive WinnerType
  | I
  | K
deriving DecidableEq

/-- The loop of `match_ip_Kline`. -/
def scanIpLines (ip : Address) (name : Text) :
    List ConfItem → Option ConfItem → WinnerType → Option ConfItem
  | [], winner, _ => winner
  | scan :: next, winner, winnertype =>
    if scan.ip ≠ ip &&& scan.ip_mask then scanIpLines ip name next winner winnertype
    else if scan.elined ∧ ircMatch scan.user name then some scan
    else if scan.status.has CONF_KILL ∧ ircMatch scan.user name then
      scanIpLines ip name next (some scan) .K
    else if scan.status.has CONF_CLIENT ∧ ircMatch scan.user name ∧ winnertype = .I then
      if winner.any fun old => scan.ip_mask ≤ old.ip_mask then
        scanIpLines ip name next winner winnertype
      else scanIpLines ip name next (some scan) winnertype
    else scanIpLines ip name next winner winnertype

def IpTable.match_ip_Kline (t : IpTable) (ip : Address) (name : Option Text) : Option ConfItem :=
  if t.oracle (octet ip) &&& ip ≠ ip then none
  else
    match t.tree (octet ip) with
    | .nil => none
    | _ =>
      match t.find ip, name with
      | some node, some name => scanIpLines ip name node.conf none .I
      | _, _ => none

/-- A line is for an address and a user. -/
def ConfItem.Hits (conf : ConfItem) (x : Address) (name : Text) : Prop :=
  conf.Holds x ∧ ircMatch conf.user name = true

instance (conf : ConfItem) (x : Address) (name : Text) : Decidable (conf.Hits x name) :=
  inferInstanceAs (Decidable (_ ∧ _))

/-- **The loop answers** with the first E-line that is for address and user, or else with the last
such K-line. -/
theorem scanIpLines_eq {x : Address} {name : Text} {list : List ConfItem}
    (kinds : ∀ conf ∈ list, conf.elined = true ∨ conf.status.has CONF_KILL = true)
    (winner : Option ConfItem) (winnertype : WinnerType) :
    scanIpLines x name list winner winnertype =
      ((list.find? fun conf => conf.elined ∧ conf.Hits x name).or
        (list.filter fun conf => conf.Hits x name).getLast?).or winner := by
  induction list generalizing winner winnertype with
  | nil => rfl
  | cons scan next ih =>
    have ih := ih fun conf member => kinds conf (List.mem_cons_of_mem _ member)
    rw [scanIpLines]
    by_cases hits : scan.Hits x name
    · rw [if_neg fun away => away hits.1.symm]
      by_cases marked : scan.elined = true
      · rw [if_pos ⟨marked, hits.2⟩, List.find?_cons, decide_eq_true (And.intro marked hits)]
        rfl
      · have kill := (kinds scan List.mem_cons_self).resolve_left marked
        rw [if_neg fun e => marked e.1, if_pos ⟨kill, hits.2⟩, ih,
          List.find?_cons_of_neg (by simp [marked]), List.filter_cons, decide_eq_true hits,
          if_pos rfl, List.getLast?_cons]
        generalize next.find? _ = first
        generalize (next.filter _).getLast? = last
        cases first <;> cases last <;> rfl
    · have misses : scan.ip ≠ x &&& scan.ip_mask ∨ ircMatch scan.user name = false := by
        by_cases here : scan.ip = x &&& scan.ip_mask
        · refine .inr ?_
          cases user : ircMatch scan.user name
          · rfl
          · exact absurd ⟨here.symm, user⟩ hits
        · exact .inl here
      rw [List.find?_cons_of_neg (by simp [hits]), List.filter_cons_of_neg (by simp [hits])]
      rcases misses with away | other
      · rw [if_pos away, ih]
      · simp only [other, Bool.false_eq_true, and_false, false_and, if_false, ih, ite_self]

/-! ### Insertions that lose no line -/

namespace IpTable

/-- **What a line needs** to be entered without a loss. Its host bits are clear, and when no node has
its address, the deletion loses nothing. Otherwise it lies inside the node; a line that stops it covers
it; and the lines that it trims lie inside it. -/
def Admits (t : IpTable) (coin : Address → Bool) (stops : ConfItem → Bool)
    (keeps : Address → ConfItem → Bool) (conf_ptr : ConfItem) : Prop :=
  conf_ptr.ip &&& conf_ptr.ip_mask = conf_ptr.ip ∧
  match t.find conf_ptr.ip with
  | none => Untangled coin conf_ptr.ip conf_ptr.ip_mask (t.tree (octet conf_ptr.ip))
  | some node =>
    node.ip_mask ≤ conf_ptr.ip_mask ∧
    if ∃ scan ∈ node.conf, Stops stops conf_ptr scan then
      ∃ scan ∈ node.conf, Stops stops conf_ptr scan ∧ scan.Holds conf_ptr.ip
    else
      ∀ old ∈ node.conf, old ∈ weedFor keeps conf_ptr conf_ptr.ip_mask node.conf ∨
        conf_ptr.Holds old.ip ∧ conf_ptr.ip_mask ≤ old.ip_mask

/-- The table has a wanted line for an address and a user, where a look-up finds it. -/
def Has (t : IpTable) (wanted : ConfItem → Prop) (x : Address) (name : Text) : Prop :=
  ∃ node, t.Node node ∧ node.Holds x ∧ ∃ conf ∈ node.conf, wanted conf ∧ conf.Hits x name

section Enter

variable {t : IpTable} {coin : Address → Bool} {stops : ConfItem → Bool}
  {keeps : Address → ConfItem → Bool} {conf_ptr conf : ConfItem} {node : IpNode} {x : Address}
  {name : Text} {wanted : ConfItem → Prop}

/-- A line that is left out of a list is trimmed by a line for any user. -/
theorem mem_weedFor (keeps : Address → ConfItem → Bool) (conf_ptr : ConfItem) (mask : Address)
    {clist : List ConfItem} (member : conf ∈ clist) :
    conf ∈ weedFor keeps conf_ptr mask clist ∨
      conf_ptr.user = ['*'] ∧ keeps mask conf = false := by
  unfold weedFor
  split
  · rename_i any
    rw [List.mem_filter]
    cases kept : keeps mask conf
    · exact .inr ⟨any, rfl⟩
    · exact .inl ⟨member, rfl⟩
  · exact .inl member

theorem mem_of_mem_weedFor {mask : Address} {clist : List ConfItem}
    (member : conf ∈ weedFor keeps conf_ptr mask clist) : conf ∈ clist := by
  unfold weedFor at member
  split at member
  · exact (List.mem_filter.mp member).1
  · exact member

theorem enter_of_none (found : t.find conf_ptr.ip = none) :
    t.enter coin stops keeps conf_ptr = t.place coin (weedFor keeps conf_ptr 0) conf_ptr := by
  unfold IpTable.enter
  rw [found]

theorem enter_of_some (found : t.find conf_ptr.ip = some node) :
    t.enter coin stops keeps conf_ptr = if ∃ scan ∈ node.conf, Stops stops conf_ptr scan then t
      else (t.hear conf_ptr.ip conf_ptr.ip_mask).amend conf_ptr.ip fun conf =>
        conf_ptr :: weedFor keeps conf_ptr conf_ptr.ip_mask conf := by
  unfold IpTable.enter
  rw [found]

theorem Laid.room (laid : t.Laid) (block : Block conf_ptr.ip conf_ptr.ip_mask)
    (found : t.find conf_ptr.ip = none)
    (untangled : Untangled coin conf_ptr.ip conf_ptr.ip_mask (t.tree (octet conf_ptr.ip))) :
    t.Room coin conf_ptr :=
  ⟨block, fun node member here => absurd here (laid.find_eq_none.mp found node member), untangled⟩

/-- **Entering a line** keeps the nodes disjoint, and lists nothing but it and the lines before. -/
theorem Laid.enter (laid : t.Laid) (block : Block conf_ptr.ip conf_ptr.ip_mask)
    (admits : t.Admits coin stops keeps conf_ptr) :
    (t.enter coin stops keeps conf_ptr).Laid ∧
      ∀ node, (t.enter coin stops keeps conf_ptr).Node node → ∀ conf ∈ node.conf,
        conf = conf_ptr ∨ ∃ old, t.Node old ∧ conf ∈ old.conf := by
  obtain ⟨_, admits⟩ := admits
  cases found : t.find conf_ptr.ip with
  | none =>
    simp only [found] at admits
    rw [enter_of_none found]
    have room := laid.room block found admits
    refine ⟨laid.place room, fun node member conf inConf => ?_⟩
    rcases (laid.node_place room).mp member with rfl | ⟨member, _⟩
    · rcases List.mem_cons.mp inConf with rfl | inConf
      · exact .inl rfl
      · obtain ⟨old, member, _, inOld⟩ := (laid.mem_taken block).mp (mem_of_mem_weedFor inConf)
        exact .inr ⟨old, member, inOld⟩
    · exact .inr ⟨node, member, inConf⟩
  | some own =>
    rw [enter_of_some found]
    split
    · exact ⟨laid, fun node member conf inConf => .inr ⟨node, member, inConf⟩⟩
    · refine ⟨laid.hear.amend, fun node member conf inConf => ?_⟩
      obtain ⟨old, before, rfl⟩ := laid.hear.node_amend.mp member
      unfold amended IpNode.relist at inConf
      split at inConf
      · rcases List.mem_cons.mp inConf with rfl | inConf
        · exact .inl rfl
        · exact .inr ⟨old, before, mem_of_mem_weedFor inConf⟩
      · exact .inr ⟨old, before, inConf⟩

/-- **What the table has, it keeps**: a line that is trimmed is replaced by the new one. -/
theorem Has.enter (has : t.Has wanted x name) (laid : t.Laid)
    (block : Block conf_ptr.ip conf_ptr.ip_mask)
    (known : ∀ node, t.Node node → ∀ conf ∈ node.conf, Block conf.ip conf.ip_mask)
    (admits : t.Admits coin stops keeps conf_ptr) (star : ircMatch ['*'] name = true)
    (trims : ∀ mask conf, wanted conf → keeps mask conf = false → wanted conf_ptr) :
    (t.enter coin stops keeps conf_ptr).Has wanted x name := by
  obtain ⟨old, member, here, conf, inConf, want, hits⟩ := has
  obtain ⟨_, admits⟩ := admits
  -- the new line in the place of one that it trims
  have replaced : ∀ {mask}, conf_ptr.Holds x → conf_ptr.user = ['*'] → keeps mask conf = false →
      wanted conf_ptr ∧ conf_ptr.Hits x name := by
    intro mask hereNew any out
    exact ⟨trims mask conf want out, hereNew, by rw [any]; exact star⟩
  cases found : t.find conf_ptr.ip with
  | none =>
    simp only [found] at admits
    rw [enter_of_none found]
    have room := laid.room block found admits
    by_cases inside : old.Inside conf_ptr.ip conf_ptr.ip_mask
    · have hereNew : conf_ptr.Holds x := block.toIsPrefix.nested
        (laid.block _ old member).toIsPrefix inside.2 (inside.1.trans block.cleared)
        (laid.block _ old member).covers_self here
      refine ⟨_, (laid.node_place room).mpr (.inl rfl), hereNew, ?_⟩
      have taken : conf ∈ t.taken coin conf_ptr :=
        (laid.mem_taken block).mpr ⟨old, member, inside, inConf⟩
      rcases mem_weedFor keeps conf_ptr 0 taken with stays | ⟨any, out⟩
      · exact ⟨conf, List.mem_cons_of_mem _ stays, want, hits⟩
      · exact ⟨conf_ptr, List.mem_cons_self, replaced hereNew any out⟩
    · exact ⟨old, (laid.node_place room).mpr (.inr ⟨member, inside⟩), here, conf, inConf, want, hits⟩
  | some own =>
    simp only [found] at admits
    rw [enter_of_some found]
    obtain ⟨_, admits⟩ := admits
    split
    · exact ⟨old, member, here, conf, inConf, want, hits⟩
    · rename_i free
      rw [if_neg free] at admits
      refine ⟨_, laid.hear.node_amend.mpr ⟨old, member, rfl⟩, amended_holds.mpr here, ?_⟩
      unfold amended IpNode.relist
      by_cases reached : old.Holds conf_ptr.ip
      · rw [if_pos reached]
        have same : own = old := laid.unique (laid.find_iff.mp found).1 (laid.find_iff.mp found).2
          member reached
        rcases mem_weedFor keeps conf_ptr conf_ptr.ip_mask inConf with stays | ⟨any, out⟩
        · exact ⟨conf, List.mem_cons_of_mem _ stays, want, hits⟩
        · rcases admits conf (same ▸ inConf) with stays | ⟨inside, longer⟩
          · exact ⟨conf, List.mem_cons_of_mem _ (same ▸ stays), want, hits⟩
          · have hereNew : conf_ptr.Holds x := block.toIsPrefix.nested
              (known old member conf inConf).toIsPrefix longer inside
              (known old member conf inConf).covers_self hits.1
            exact ⟨conf_ptr, List.mem_cons_self, replaced hereNew any out⟩
      · rw [if_neg reached]
        exact ⟨conf, inConf, want, hits⟩

/-- **The new line** is in the table, or another one that is for the same addresses and any user. -/
theorem Has.new (hits : conf_ptr.Hits x name) (want : wanted conf_ptr) (laid : t.Laid)
    (block : Block conf_ptr.ip conf_ptr.ip_mask)
    (known : ∀ node, t.Node node → ∀ conf ∈ node.conf, Block conf.ip conf.ip_mask)
    (admits : t.Admits coin stops keeps conf_ptr) (star : ircMatch ['*'] name = true)
    (stopped : ∀ conf, stops conf = true → wanted conf) :
    (t.enter coin stops keeps conf_ptr).Has wanted x name := by
  obtain ⟨_, admits⟩ := admits
  cases found : t.find conf_ptr.ip with
  | none =>
    simp only [found] at admits
    rw [enter_of_none found]
    exact ⟨_, (laid.node_place (laid.room block found admits)).mpr (.inl rfl), hits.1, conf_ptr,
      List.mem_cons_self, want, hits⟩
  | some own =>
    simp only [found] at admits
    rw [enter_of_some found]
    obtain ⟨member, here⟩ := laid.find_iff.mp found
    obtain ⟨inside, admits⟩ := admits
    have around : own.Holds x := (laid.block _ own member).toIsPrefix.nested block.toIsPrefix inside
      here block.covers_self hits.1
    split
    · rename_i stop
      rw [if_pos stop] at admits
      obtain ⟨scan, inConf, ⟨stops_, any, shorter⟩, covers⟩ := admits
      refine ⟨own, member, around, scan, inConf, stopped scan stops_, ?_, by rw [any]; exact star⟩
      exact (known own member scan inConf).toIsPrefix.nested block.toIsPrefix
        (BitVec.le_of_lt shorter) covers block.covers_self hits.1
    · refine ⟨_, laid.hear.node_amend.mpr ⟨own, member, rfl⟩, amended_holds.mpr around, conf_ptr, ?_,
        want, hits⟩
      unfold amended IpNode.relist
      rw [if_pos here]
      exact List.mem_cons_self

end Enter

end IpTable

/-! ### Runs -/

/-- An insertion with the coins of its deletion: a K-line by `add_ip_Kline`, or an E-line by
`add_ip_Eline`. -/
inductive IpLineEvent
  | kline (coin : Address → Bool) (conf_ptr : ConfItem)
  | eline (coin : Address → Bool) (conf_ptr : ConfItem)

/-- The mask is that of a contiguous prefix of at least eight bits. -/
def Contiguous (mask : Address) : Prop := ∃ length, 8 ≤ length ∧ length ≤ 32 ∧ mask = netmask 32 length

/-- A K-line kills and is not marked as an exception, as an E-line is. -/
def IpLineEvent.Proper : IpLineEvent → Prop
  | .kline _ conf_ptr =>
    Contiguous conf_ptr.ip_mask ∧ conf_ptr.status.has CONF_KILL = true ∧ conf_ptr.elined = false
  | .eline _ conf_ptr => Contiguous conf_ptr.ip_mask ∧ conf_ptr.elined = true

def IpTable.afterLine (t : IpTable) (w : Nat) : IpLineEvent → IpTable
  | .kline coin conf_ptr => t.add_ip_Kline w coin conf_ptr
  | .eline coin conf_ptr => t.add_ip_Eline w coin conf_ptr

def klines : List IpLineEvent → List ConfItem
  | [] => []
  | .kline _ conf_ptr :: before => conf_ptr :: klines before
  | .eline _ _ :: before => klines before

def elines : List IpLineEvent → List ConfItem
  | [] => []
  | .kline _ _ :: before => elines before
  | .eline _ conf_ptr :: before => conf_ptr :: elines before

/-- The tables that insertions lead to, the last one first in the list. -/
inductive IpLineRun (w : Nat) (allowed : IpTable → IpLineEvent → Prop) :
    List IpLineEvent → IpTable → Prop
  | clear : IpLineRun w allowed [] .clear
  | step {events : List IpLineEvent} {t : IpTable} (run : IpLineRun w allowed events t)
      (event : IpLineEvent) (proper : event.Proper) (ok : allowed t event) :
      IpLineRun w allowed (event :: events) (t.afterLine w event)

/-- **The insertions that lose no line**, where an unsigned long has `w` bits. -/
def IpSuits (w : Nat) (t : IpTable) : IpLineEvent → Prop
  | .kline coin conf_ptr => t.Admits coin stopsIpKline (keepsIpKline w) conf_ptr
  | .eline coin conf_ptr => t.Admits coin ConfItem.elined (keepsIpEline w) conf_ptr

/-- A line covers an address, and its user mask matches. -/
def ConfItem.IsFor (conf : ConfItem) (x : Address) (name : Text) : Prop :=
  x &&& conf.ip_mask = conf.ip &&& conf.ip_mask ∧ ircMatch conf.user name = true

instance (conf : ConfItem) (x : Address) (name : Text) : Decidable (conf.IsFor x name) :=
  inferInstanceAs (Decidable (_ ∧ _))

/-- **What the lines say** about an address and a user name. -/
structure IpKlineSpec (kills exempts : List ConfItem) (x : Address) (name : Text)
    (answer : Option ConfItem) : Prop where
  kline : (∃ conf, answer = some conf ∧ conf.status.has CONF_KILL = true ∧ conf.elined = false) ↔
    (∃ k ∈ kills, k.IsFor x name) ∧ ¬ ∃ e ∈ exempts, e.IsFor x name
  sound : ∀ conf, answer = some conf → conf.IsFor x name ∧ (conf ∈ kills ∨ conf ∈ exempts)

/-- **The invariant**: the table lists the lines that were inserted, and has one for whatever an E-line
or a K-line is for. -/
structure IpKept (kills exempts : List ConfItem) (t : IpTable) : Prop where
  laid : t.Laid
  kills_ : ∀ k ∈ kills, Block k.ip k.ip_mask ∧ k.status.has CONF_KILL = true ∧ k.elined = false
  exempts_ : ∀ e ∈ exempts, Block e.ip e.ip_mask ∧ e.elined = true
  listed : ∀ node, t.Node node → ∀ conf ∈ node.conf, conf ∈ kills ∨ conf ∈ exempts
  exempted : ∀ e ∈ exempts, ∀ x name, ircMatch ['*'] name = true → e.Hits x name →
    t.Has (fun conf => conf.elined = true) x name
  killed : ∀ k ∈ kills, ∀ x name, ircMatch ['*'] name = true → k.Hits x name →
    t.Has (fun _ => True) x name

section Runs

variable {kills exempts : List ConfItem} {t : IpTable} {conf_ptr conf : ConfItem}
  {coin : Address → Bool} {x : Address} {name : Text} {w : Nat}

theorem Contiguous.block (contiguous : Contiguous conf_ptr.ip_mask)
    (cleared : conf_ptr.ip &&& conf_ptr.ip_mask = conf_ptr.ip) :
    Block conf_ptr.ip conf_ptr.ip_mask := by
  obtain ⟨length, long, short, same⟩ := contiguous
  refine ⟨⟨⟨length, short, same⟩, cleared⟩, ?_⟩
  rw [same, BitVec.le_def, Lib.toNat_netmask, Lib.toNat_netmask]
  have fewer : 2 ^ (32 - length) ≤ 2 ^ (32 - 8) := Nat.pow_le_pow_right (by omega) (by omega)
  omega

theorem Block.isFor_iff (block : Block conf.ip conf.ip_mask) :
    conf.IsFor x name ↔ conf.Hits x name := by
  unfold ConfItem.IsFor ConfItem.Hits ConfItem.Holds Covers
  rw [block.cleared]

theorem IpKept.known (kept : IpKept kills exempts t) :
    ∀ node, t.Node node → ∀ conf ∈ node.conf, Block conf.ip conf.ip_mask := by
  intro node member conf inConf
  rcases kept.listed node member conf inConf with kill | exempt
  · exact (kept.kills_ conf kill).1
  · exact (kept.exempts_ conf exempt).1

/-- **A K-line that is admitted** keeps the invariant. -/
theorem IpKept.add_ip_Kline (kept : IpKept kills exempts t)
    (block : Block conf_ptr.ip conf_ptr.ip_mask) (kill : conf_ptr.status.has CONF_KILL = true)
    (plain : conf_ptr.elined = false)
    (admits : t.Admits coin stopsIpKline (keepsIpKline w) conf_ptr) :
    IpKept (conf_ptr :: kills) exempts (t.add_ip_Kline w coin conf_ptr) := by
  have masked : conf_ptr.ip_mask ≠ 0 := fun none_ => absurd block.long (by rw [none_]; decide)
  unfold IpTable.add_ip_Kline
  rw [if_neg masked]
  have entered := kept.laid.enter block admits
  refine ⟨entered.1, fun k member => ?_, kept.exempts_, fun node member conf inConf => ?_,
    fun e member x name star hits => ?_, fun k member x name star hits => ?_⟩
  · rcases List.mem_cons.mp member with rfl | member
    · exact ⟨block, kill, plain⟩
    · exact kept.kills_ k member
  · rcases entered.2 node member conf inConf with rfl | ⟨old, before, inOld⟩
    · exact .inl List.mem_cons_self
    · exact (kept.listed old before conf inOld).imp_left (List.mem_cons_of_mem _)
  · refine (kept.exempted e member x name star hits).enter kept.laid block kept.known admits star ?_
    intro mask conf marked out
    unfold keepsIpKline at out
    rw [marked] at out
    exact absurd out (by simp)
  · rcases List.mem_cons.mp member with rfl | member
    · exact .new hits trivial kept.laid block kept.known admits star fun _ _ => trivial
    · exact (kept.killed k member x name star hits).enter kept.laid block kept.known admits star
        fun _ _ _ _ => trivial

/-- **An E-line that is admitted** keeps the invariant. -/
theorem IpKept.add_ip_Eline (kept : IpKept kills exempts t)
    (block : Block conf_ptr.ip conf_ptr.ip_mask) (marked : conf_ptr.elined = true)
    (admits : t.Admits coin ConfItem.elined (keepsIpEline w) conf_ptr) :
    IpKept kills (conf_ptr :: exempts) (t.add_ip_Eline w coin conf_ptr) := by
  have entered := kept.laid.enter block admits
  refine ⟨entered.1, kept.kills_, fun e member => ?_, fun node member conf inConf => ?_,
    fun e member x name star hits => ?_, fun k member x name star hits => ?_⟩
  · rcases List.mem_cons.mp member with rfl | member
    · exact ⟨block, marked⟩
    · exact kept.exempts_ e member
  · rcases entered.2 node member conf inConf with rfl | ⟨old, before, inOld⟩
    · exact .inr List.mem_cons_self
    · exact (kept.listed old before conf inOld).imp_right (List.mem_cons_of_mem _)
  · rcases List.mem_cons.mp member with rfl | member
    · exact .new hits marked kept.laid block kept.known admits star fun _ same => same
    · exact (kept.exempted e member x name star hits).enter kept.laid block kept.known admits star
        fun _ _ _ _ => marked
  · exact (kept.killed k member x name star hits).enter kept.laid block kept.known admits star
      fun _ _ _ _ => trivial

/-- **Admitted insertions** keep the invariant. -/
theorem IpLineRun.kept {events : List IpLineEvent} (run : IpLineRun w (IpSuits w) events t) :
    IpKept (klines events) (elines events) t := by
  induction run with
  | clear => exact ⟨.clear, fun _ none_ => (nomatch none_), fun _ none_ => (nomatch none_),
      fun _ none_ => (nomatch none_), fun _ none_ => (nomatch none_), fun _ none_ => (nomatch none_)⟩
  | step run event proper ok ih =>
    cases event with
    | kline coin conf_ptr =>
      exact ih.add_ip_Kline (proper.1.block ok.1) proper.2.1 proper.2.2 ok
    | eline coin conf_ptr => exact ih.add_ip_Eline (proper.1.block ok.1) proper.2 ok

theorem match_ip_Kline_eq : t.match_ip_Kline x (some name) =
    if t.oracle (octet x) &&& x ≠ x then none
    else (t.find x).bind fun node => scanIpLines x name node.conf none .I := by
  unfold IpTable.match_ip_Kline IpTable.find
  split
  · rfl
  · cases tree_ : t.tree (octet x) with
    | nil => rfl
    | node head left right =>
      simp only
      cases find_ip_subtree _ x <;> rfl

/-- **What a table of admitted lines answers.** -/
theorem IpKept.spec (kept : IpKept kills exempts t) (star : ircMatch ['*'] name = true) :
    IpKlineSpec kills exempts x name (t.match_ip_Kline x (some name)) := by
  have kills_ : ∀ {k}, k ∈ kills → (k.IsFor x name ↔ k.Hits x name) := fun member =>
    (kept.kills_ _ member).1.isFor_iff
  have exempts_ : ∀ {e}, e ∈ exempts → (e.IsFor x name ↔ e.Hits x name) := fun member =>
    (kept.exempts_ _ member).1.isFor_iff
  by_cases covered : ∃ node, t.Node node ∧ node.Holds x
  · obtain ⟨node, member, here⟩ := covered
    have kinds : ∀ conf ∈ node.conf, conf.elined = true ∨ conf.status.has CONF_KILL = true := by
      intro conf inConf
      rcases kept.listed node member conf inConf with kill | exempt
      · exact .inr (kept.kills_ conf kill).2.1
      · exact .inl (kept.exempts_ conf exempt).2
    have reads : t.match_ip_Kline x (some name) =
        (node.conf.find? fun conf => conf.elined ∧ conf.Hits x name).or
          (node.conf.filter fun conf => conf.Hits x name).getLast? := by
      rw [match_ip_Kline_eq, if_neg fun out => out (kept.laid.heard_of member here),
        kept.laid.find_iff.mpr ⟨member, here⟩]
      exact (scanIpLines_eq kinds none .I).trans Option.or_none
    -- a line that the table has is in the list of this node
    have inList : ∀ {wanted : ConfItem → Prop}, t.Has wanted x name →
        ∃ conf ∈ node.conf, wanted conf ∧ conf.Hits x name := by
      rintro wanted ⟨other, member', here', found⟩
      rw [kept.laid.unique member here member' here']
      exact found
    rw [reads]
    cases first : node.conf.find? fun conf => conf.elined ∧ conf.Hits x name with
    | some e =>
      have holds := List.find?_some first
      rw [decide_eq_true_eq] at holds
      have exempt : e ∈ exempts := by
        rcases kept.listed node member e (List.mem_of_find?_eq_some first) with kill | exempt
        · exact absurd (holds.1.symm.trans (kept.kills_ e kill).2.2) (by decide)
        · exact exempt
      refine ⟨⟨?_, fun ⟨_, none_⟩ => absurd ⟨e, exempt, (exempts_ exempt).mpr holds.2⟩ none_⟩, ?_⟩
      · rintro ⟨conf, same, _, plain⟩
        obtain rfl := Option.some.inj same
        exact absurd (holds.1.symm.trans plain) (by decide)
      · intro conf same
        obtain rfl := Option.some.inj same
        exact ⟨(exempts_ exempt).mpr holds.2, .inr exempt⟩
    | none =>
      have noExempt : ¬ ∃ e ∈ exempts, e.IsFor x name := by
        rintro ⟨e, exempt, isFor⟩
        obtain ⟨conf, inConf, marked, hits⟩ :=
          inList (kept.exempted e exempt x name star ((exempts_ exempt).mp isFor))
        exact List.find?_eq_none.mp first conf inConf (decide_eq_true ⟨marked, hits⟩)
      have answers : ∀ conf, (node.conf.filter fun conf => conf.Hits x name).getLast? = some conf →
          conf ∈ kills ∧ conf.Hits x name := by
        intro conf last
        obtain ⟨inConf, hits⟩ := List.mem_filter.mp (List.mem_of_getLast? last)
        have hits := of_decide_eq_true hits
        rcases kept.listed node member conf inConf with kill | exempt
        · exact ⟨kill, hits⟩
        · exact absurd ⟨conf, exempt, (exempts_ exempt).mpr hits⟩ noExempt
      rw [Option.none_or]
      refine ⟨⟨?_, ?_⟩, fun conf last => ?_⟩
      · rintro ⟨conf, last, _⟩
        obtain ⟨kill, hits⟩ := answers conf last
        exact ⟨⟨conf, kill, (kills_ kill).mpr hits⟩, noExempt⟩
      · rintro ⟨⟨k, kill, isFor⟩, _⟩
        obtain ⟨conf, inConf, _, hits⟩ :=
          inList (kept.killed k kill x name star ((kills_ kill).mp isFor))
        have some_ : (node.conf.filter fun conf => conf.Hits x name) ≠ [] :=
          List.ne_nil_of_mem (List.mem_filter.mpr ⟨inConf, decide_eq_true hits⟩)
        have last := List.getLast?_eq_some_getLast some_
        have own := answers _ last
        exact ⟨_, last, (kept.kills_ _ own.1).2⟩
      · obtain ⟨kill, hits⟩ := answers conf last
        exact ⟨(kills_ kill).mpr hits, .inl kill⟩
  · have nothing : ∀ {wanted : ConfItem → Prop}, ¬ t.Has wanted x name :=
      fun ⟨node, member, here, _⟩ => covered ⟨node, member, here⟩
    have reads : t.match_ip_Kline x (some name) = none := by
      rw [match_ip_Kline_eq, kept.laid.find_eq_none.mpr fun node member here =>
        covered ⟨node, member, here⟩]
      exact ite_self none
    rw [reads]
    refine ⟨⟨fun ⟨_, none_, _⟩ => (nomatch none_), ?_⟩, fun _ none_ => (nomatch none_)⟩
    rintro ⟨⟨k, kill, isFor⟩, _⟩
    exact absurd (kept.killed k kill x name star ((kills_ kill).mp isFor)) nothing

/-- **A table of admitted lines answers as its lines say**, for every name that `match` can go
through. -/
theorem run_match_ip_Kline {events : List IpLineEvent} (run : IpLineRun w (IpSuits w) events t)
    (x : Address) (name : Text) (short : name.length ≤ 2 * (MATCH_MAX_CALLS - 1)) :
    IpKlineSpec (klines events) (elines events) x name (t.match_ip_Kline x (some name)) :=
  run.kept.spec (ircMatch_star short)

end Runs

/-! ### Samples -/

def sampleNarrow : ConfItem := ⟨CONF_KILL, 0, 0x0a000000, 0xffffff00, ['a']⟩

def sampleBroad : ConfItem := ⟨CONF_KILL, 0, 0x0a000000, 0xff000000, ['b']⟩

/-- The broad line first. -/
theorem run_match_ip_Kline_sample :
    IpKlineSpec [sampleNarrow, sampleBroad] [] 0x0a010101 ['b']
      (((IpTable.clear.add_ip_Kline 64 (fun _ => true) sampleBroad).add_ip_Kline 64 (fun _ => true)
        sampleNarrow).match_ip_Kline 0x0a010101 (some ['b'])) := by
  have first : IpLineRun 64 (IpSuits 64) [.kline (fun _ => true) sampleBroad]
      (IpTable.clear.add_ip_Kline 64 (fun _ => true) sampleBroad) :=
    .step .clear (.kline (fun _ => true) sampleBroad)
      ⟨⟨8, by decide, by decide, by decide⟩, by decide, by decide⟩ ⟨by decide, trivial⟩
  have admits : (IpTable.clear.add_ip_Kline 64 (fun _ => true) sampleBroad).Admits (fun _ => true)
      stopsIpKline (keepsIpKline 64) sampleNarrow := by
    have found : (IpTable.clear.add_ip_Kline 64 (fun _ => true) sampleBroad).find sampleNarrow.ip =
        some ⟨0x0a000000, 0xff000000, [sampleBroad]⟩ := by decide +kernel
    unfold IpTable.Admits
    rw [found]
    refine ⟨by decide, by decide, ?_⟩
    decide +kernel
  exact run_match_ip_Kline (.step first (.kline (fun _ => true) sampleNarrow)
    ⟨⟨24, by decide, by decide, by decide⟩, by decide, by decide⟩ admits) 0x0a010101 ['b'] (by decide)

/-- **A broad line that is put in the list of a narrow node** is not found beside it. -/
theorem not_run_match_ip_Kline : ¬ ∀ w events t, IpLineRun w (fun _ _ => True) events t →
    ∀ x name, name.length ≤ 10 →
      IpKlineSpec (klines events) (elines events) x name (t.match_ip_Kline x (some name)) := by
  intro all
  have run : IpLineRun 64 (fun _ _ => True)
      [.kline (fun _ => true) sampleBroad, .kline (fun _ => true) sampleNarrow]
      ((IpTable.clear.add_ip_Kline 64 (fun _ => true) sampleNarrow).add_ip_Kline 64 (fun _ => true)
        sampleBroad) :=
    .step (.step .clear (.kline (fun _ => true) sampleNarrow)
      ⟨⟨24, by decide, by decide, by decide⟩, by decide, by decide⟩ trivial)
      (.kline (fun _ => true) sampleBroad)
      ⟨⟨8, by decide, by decide, by decide⟩, by decide, by decide⟩ trivial
  have free : ¬ ∃ e ∈ ([] : List ConfItem), e.IsFor 0x0a010101 ['b'] := fun ⟨_, none_, _⟩ =>
    (nomatch none_)
  obtain ⟨conf, answer, _⟩ := (all 64 _ _ run 0x0a010101 ['b'] (by decide)).kline.mpr
    ⟨⟨sampleBroad, List.mem_cons_self, by decide +kernel⟩, free⟩
  have missed : ((IpTable.clear.add_ip_Kline 64 (fun _ => true) sampleNarrow).add_ip_Kline 64
      (fun _ => true) sampleBroad).match_ip_Kline 0x0a010101 (some ['b']) = none := by
    decide +kernel
  exact absurd (missed.symm.trans answer) (by simp)

end PtlinkIrcd
