/-
**Temporary K-lines.**

`add_temp_kline`, `find_tkline`, `report_temp_klines` and `flush_temp_klines` of `s_conf.c`, and
`remove_tkline_match` of `m_unkline.c`, on the memory of the entries.

* `Tklines` — the two lists: their heads and their cells.
* `Ledger` — what the lists are for: the entries added and not yet removed.
* `TklinesKept` — the memory holds the ledger; `TklinesKept.called` is its step.
* `run_tklines` — **the lists hold what was added and not removed, and are searched well**, as long
  as no report finds the first entry of a list expired.
* `not_run_tklines` — such a report frees an entry and leaves the list leading to it.
-/

import PtlinkIrcd.Conf.IpTree
import PtlinkIrcd.Lib.Chains
import PtlinkIrcd.Model.Text

set_option linter.unusedSectionVars false

namespace PtlinkIrcd

open Lib (Memory Cell)
open Lib.Memory (scanned Segment Holds)

-- the bits of an `unsigned long`
variable {w : Nat}

/-! ### The lists -/

/-- An entry. `m_kline` sets its user and host. -/
structure Tkline (w : Nat) where
  user : Text
  host : Text
  ip : BitVec w
  ip_mask : BitVec w
  hold : Int
deriving DecidableEq

/-- `temporary_klines` and `temporary_ip_klines` with their entries. `made` counts the entries ever
added, and bounds the walks. -/
structure Tklines (w : Nat) where
  memory : Memory (Tkline w)
  made : Nat
  temporary_klines : Option Nat
  temporary_ip_klines : Option Nat

namespace Tkline

/-- `kill_list_ptr->hold <= CurrentTime`. -/
def expired (now : Int) (kill : Tkline w) : Bool := kill.hold ≤ now

@[simp] theorem expired_eq_false {now : Int} {kill : Tkline w} :
    kill.expired now = false ↔ now < kill.hold := by
  simp [expired]

/-- `!user || match(kill_list_ptr->user, user)`. -/
def matchesText (mask : Text) : Option Text → Bool
  | none => true
  | some name => ircMatch mask name

/-- What `find_tkline` looks for in `temporary_klines`. -/
def hitsHost (host user : Option Text) (kill : Tkline w) : Bool :=
  matchesText kill.user user && matchesText kill.host host

/-- What `find_tkline` looks for in `temporary_ip_klines`. -/
def hitsIp (user : Option Text) (ip : BitVec w) (kill : Tkline w) : Bool :=
  matchesText kill.user user && (kill.ip != 0 && (ip &&& kill.ip_mask) == kill.ip)

/-- What `remove_tkline_match` looks for in `temporary_klines`. -/
def sameHost (host user : Text) (kill : Tkline w) : Bool :=
  irccmp kill.host host == 0 && irccmp kill.user user == 0

/-- What `remove_tkline_match` looks for in `temporary_ip_klines`. -/
def sameIp (ip : BitVec w) (kill : Tkline w) : Bool := (ip &&& kill.ip_mask) == kill.ip

end Tkline

open Tkline

namespace Tklines

def start : Tklines w := ⟨fun _ => none, 0, none, none⟩

/-- `add_temp_kline` of an entry at a place that the allocator gave. -/
def add_temp_kline (s : Tklines w) (place : Nat) (aconf : Tkline w) : Tklines w :=
  if aconf.ip = 0 then
    { s with
      memory := Function.update s.memory place (some ⟨aconf, s.temporary_klines⟩)
      made := s.made + 1
      temporary_klines := some place }
  else
    { s with
      memory := Function.update s.memory place (some ⟨aconf, s.temporary_ip_klines⟩)
      made := s.made + 1
      temporary_ip_klines := some place }

/-- The walk of `find_tkline` over `temporary_klines`. -/
def findHost (s : Tklines w) (now : Int) (host user : Option Text) : Tklines w × Option Nat :=
  let head := s.temporary_klines
  let walked := s.memory.scan (expired now) (hitsHost host user) s.made head head head
  ({ s with memory := walked.1, temporary_klines := walked.2.1 }, walked.2.2)

/-- The walk of `find_tkline` over `temporary_ip_klines`. -/
def findIp (s : Tklines w) (now : Int) (user : Option Text) (ip : BitVec w) : Tklines w × Option Nat :=
  let head := s.temporary_ip_klines
  let walked := s.memory.scan (expired now) (hitsIp user ip) s.made head head head
  ({ s with memory := walked.1, temporary_ip_klines := walked.2.1 }, walked.2.2)

def find_tkline (s : Tklines w) (now : Int) (host user : Option Text) (ip : BitVec w) :
    Tklines w × Option Nat :=
  let first := s.findHost now host user
  match first.2 with
  | some kill => (first.1, some kill)
  | none => first.1.findIp now user ip

/-- `show_temp_klines`. Its `tklist` is a copy of the head: a new head reaches no list. -/
def show_temp_klines (s : Tklines w) (now : Int) (tklist : Option Nat) : Tklines w :=
  { s with
    memory := (s.memory.scan (expired now) (fun _ => false) s.made tklist tklist tklist).1 }

def report_temp_klines (s : Tklines w) (now : Int) : Tklines w :=
  let s := s.show_temp_klines now s.temporary_klines
  s.show_temp_klines now s.temporary_ip_klines

def remove_tkline_match (s : Tklines w) (host user : Text) (ip : BitVec w) : Tklines w × Bool :=
  if s.temporary_klines = none ∧ s.temporary_ip_klines = none then (s, false)
  else if ip ≠ 0 then
    let head := s.temporary_ip_klines
    let walked := s.memory.unlink (sameIp ip) s.made head none head
    ({ s with memory := walked.1, temporary_ip_klines := walked.2.1 }, walked.2.2)
  else
    let head := s.temporary_klines
    let walked := s.memory.unlink (sameHost host user) s.made head none head
    ({ s with memory := walked.1, temporary_klines := walked.2.1 }, walked.2.2)

def flush_temp_klines (s : Tklines w) : Tklines w :=
  let memory := s.memory.freeAll s.made s.temporary_klines
  { s with
    memory := memory.freeAll s.made s.temporary_ip_klines
    temporary_klines := none
    temporary_ip_klines := none }

end Tklines

/-! ### Runs -/

/-- A call of one of the functions. -/
inductive TklineCall (w : Nat) where
  | add_temp_kline (place : Nat) (aconf : Tkline w)
  | find_tkline (host user : Option Text) (ip : BitVec w)
  | report_temp_klines
  | remove_tkline_match (host user : Text) (ip : BitVec w)
  | flush_temp_klines

def Tklines.called (s : Tklines w) (now : Int) : TklineCall w → Tklines w
  | .add_temp_kline place aconf => s.add_temp_kline place aconf
  | .find_tkline host user ip => (s.find_tkline now host user ip).1
  | .report_temp_klines => s.report_temp_klines now
  | .remove_tkline_match host user ip => (s.remove_tkline_match host user ip).1
  | .flush_temp_klines => s.flush_temp_klines

/-- The allocator gives a place that is not in use. -/
def TklineCall.Allocates (s : Tklines w) : TklineCall w → Prop
  | .add_temp_kline place _ => s.memory place = none
  | _ => True

/-- The states that calls lead to, each allowed where it happens. -/
inductive TklineRun (Allowed : Tklines w → Int → TklineCall w → Prop) :
    List (Int × TklineCall w) → Tklines w → Prop
  | start : TklineRun Allowed [] .start
  | call {events : List (Int × TklineCall w)} {s : Tklines w} (now : Int) (call : TklineCall w)
      (before : TklineRun Allowed events s) (room : call.Allocates s) (allowed : Allowed s now call) :
      TklineRun Allowed (events ++ [(now, call)]) (s.called now call)

/-- The entries added and not yet removed, each with its place, the last one added first. -/
structure Ledger (w : Nat) where
  hosts : List (Nat × Tkline w)
  ips : List (Nat × Tkline w)

/-- Some entries expire: those that go have reached their time, and the others keep their order. -/
def Expires (now : Int) (old new : List (Nat × Tkline w)) : Prop :=
  new.Sublist old ∧ ∀ e ∈ old, e ∉ new → e.2.hold ≤ now

def Ledger.Step (l : Ledger w) (now : Int) (call : TklineCall w) (l' : Ledger w) : Prop :=
  match call with
  | .add_temp_kline place aconf =>
    l' = if aconf.ip = 0 then { l with hosts := (place, aconf) :: l.hosts }
      else { l with ips := (place, aconf) :: l.ips }
  | .find_tkline .. => Expires now l.hosts l'.hosts ∧ Expires now l.ips l'.ips
  | .report_temp_klines => Expires now l.hosts l'.hosts ∧ Expires now l.ips l'.ips
  | .remove_tkline_match host user ip =>
    l' = if ip ≠ 0 then { l with ips := l.ips.eraseP fun e => sameIp ip e.2 }
      else { l with hosts := l.hosts.eraseP fun e => sameHost host user e.2 }
  | .flush_temp_klines => l' = ⟨[], []⟩

/-- The ledger after these calls. -/
inductive Accounts : List (Int × TklineCall w) → Ledger w → Prop
  | start : Accounts [] ⟨[], []⟩
  | call {events : List (Int × TklineCall w)} {l l' : Ledger w} (now : Int) (call : TklineCall w)
      (before : Accounts events l) (step : l.Step now call l') :
      Accounts (events ++ [(now, call)]) l'

/-- The lists hold the ledger: each entry once, none freed, and no other. -/
structure TklinesKept (s : Tklines w) (l : Ledger w) : Prop where
  holds : Holds s.memory s.temporary_klines s.temporary_ip_klines l.hosts l.ips
  hosts_ip : ∀ e ∈ l.hosts, e.2.ip = 0
  ips_ip : ∀ e ∈ l.ips, e.2.ip ≠ 0
  hosts_le : l.hosts.length ≤ s.made
  ips_le : l.ips.length ≤ s.made

def Tkline.Answers (now : Int) (host user : Option Text) (ip : BitVec w) (kill : Tkline w) : Prop :=
  now < kill.hold ∧
    (kill.ip = 0 ∧ hitsHost host user kill = true ∨ kill.ip ≠ 0 ∧ hitsIp user ip kill = true)

/-- A search returns an entry of the ledger that answers it, and one whenever there is one. -/
structure Ledger.Finds (l : Ledger w) (s : Tklines w) (now : Int) (host user : Option Text)
    (ip : BitVec w) : Prop where
  sound : ∀ place, (s.find_tkline now host user ip).2 = some place →
    ∃ kill, (place, kill) ∈ l.hosts ++ l.ips ∧ kill.Answers now host user ip
  complete : ∀ e ∈ l.hosts ++ l.ips, e.2.Answers now host user ip →
    (s.find_tkline now host user ip).2 ≠ none

/-- The condition: a report finds the first entry of each list unexpired. -/
def HeadsFresh (s : Tklines w) (now : Int) : TklineCall w → Prop
  | .report_temp_klines =>
    ∀ place cell, s.temporary_klines = some place ∨ s.temporary_ip_klines = some place →
      s.memory place = some cell → now < cell.item.hold
  | _ => True

/-! ### The step -/

section Step

variable {s : Tklines w} {l : Ledger w} {now : Int}

theorem expires_scanned (now : Int) (found : Nat × Tkline w → Bool) (old : List (Nat × Tkline w)) :
    Expires now old (scanned (fun e => expired now e.2) found old).1 := by
  refine ⟨Lib.Memory.scanned_sublist .., fun e member gone => ?_⟩
  by_contra early
  have fresh := Lib.Memory.scanned_fresh (fun e => expired now e.2) found old
  have stays : e ∈ old.filter fun e => !expired now e.2 :=
    List.mem_filter.mpr ⟨member, by simpa [expired] using early⟩
  rw [← fresh] at stays
  exact gone (List.mem_filter.mp stays).1

theorem Expires.refl (now : Int) (old : List (Nat × Tkline w)) : Expires now old old :=
  ⟨.refl _, fun _ member gone => absurd member gone⟩

theorem TklinesKept.walkHosts {memory : Memory (Tkline w)} {first : Option Nat} {after : List (Nat × Tkline w)}
    (kept : TklinesKept s l) (walked : Lib.Memory.Walked l.hosts after s.memory memory first)
    (fewer : after.Sublist l.hosts) :
    TklinesKept { s with memory := memory, temporary_klines := first } { l with hosts := after } where
  holds := kept.holds.walk walked fewer
  hosts_ip e member := kept.hosts_ip e (fewer.mem member)
  ips_ip := kept.ips_ip
  hosts_le := fewer.length_le.trans kept.hosts_le
  ips_le := kept.ips_le

theorem TklinesKept.walkIps {memory : Memory (Tkline w)} {first : Option Nat} {after : List (Nat × Tkline w)}
    (kept : TklinesKept s l) (walked : Lib.Memory.Walked l.ips after s.memory memory first)
    (fewer : after.Sublist l.ips) :
    TklinesKept { s with memory := memory, temporary_ip_klines := first } { l with ips := after } where
  holds := (kept.holds.symm.walk walked fewer).symm
  hosts_ip := kept.hosts_ip
  ips_ip e member := kept.ips_ip e (fewer.mem member)
  hosts_le := kept.hosts_le
  ips_le := fewer.length_le.trans kept.ips_le

theorem TklinesKept.standsHosts (kept : TklinesKept s l) :
    Lib.Memory.Stands s.memory s.temporary_klines s.temporary_klines s.temporary_klines []
      l.hosts :=
  Lib.Memory.Segment.stands kept.holds.first kept.holds.left_nodup

theorem TklinesKept.standsIps (kept : TklinesKept s l) :
    Lib.Memory.Stands s.memory s.temporary_ip_klines s.temporary_ip_klines s.temporary_ip_klines []
      l.ips :=
  Lib.Memory.Segment.stands kept.holds.second kept.holds.symm.left_nodup

theorem TklinesKept.add_temp_kline (kept : TklinesKept s l) {place : Nat} {aconf : Tkline w}
    (room : s.memory place = none) :
    TklinesKept (s.add_temp_kline place aconf) (if aconf.ip = 0 then { l with hosts := (place, aconf) :: l.hosts }
      else { l with ips := (place, aconf) :: l.ips }) := by
  unfold Tklines.add_temp_kline
  have hosts_le := kept.hosts_le
  have ips_le := kept.ips_le
  by_cases host : aconf.ip = 0
  · rw [if_pos host, if_pos host]
    refine ⟨kept.holds.push room aconf, ?_, kept.ips_ip, by simpa using hosts_le, by simpa using by omega⟩
    intro e member
    rcases List.mem_cons.mp member with rfl | member
    · exact host
    · exact kept.hosts_ip e member
  · rw [if_neg host, if_neg host]
    refine ⟨(kept.holds.symm.push room aconf).symm, kept.hosts_ip, ?_, by simpa using by omega,
      by simpa using ips_le⟩
    intro e member
    rcases List.mem_cons.mp member with rfl | member
    · exact host
    · exact kept.ips_ip e member

theorem TklinesKept.findHost (kept : TklinesKept s l) (now : Int) (host user : Option Text) :
    TklinesKept (s.findHost now host user).1
        { l with hosts := (scanned (fun e => expired now e.2) (fun e => hitsHost host user e.2) l.hosts).1 } ∧
      (s.findHost now host user).2 = (l.hosts.find? fun e =>
        !expired now e.2 && hitsHost host user e.2).map Prod.fst := by
  obtain ⟨walked, answer⟩ := kept.standsHosts.scan (expired now) (hitsHost host user) s.made kept.hosts_le
  refine ⟨kept.walkHosts walked (Lib.Memory.scanned_sublist ..), answer.trans ?_⟩
  rw [Lib.Memory.scanned_found]

theorem TklinesKept.findIp (kept : TklinesKept s l) (now : Int) (user : Option Text) (ip : BitVec w) :
    TklinesKept (s.findIp now user ip).1
        { l with ips := (scanned (fun e => expired now e.2) (fun e => hitsIp user ip e.2) l.ips).1 } ∧
      (s.findIp now user ip).2 = (l.ips.find? fun e =>
        !expired now e.2 && hitsIp user ip e.2).map Prod.fst := by
  obtain ⟨walked, answer⟩ := kept.standsIps.scan (expired now) (hitsIp user ip) s.made kept.ips_le
  refine ⟨kept.walkIps walked (Lib.Memory.scanned_sublist ..), answer.trans ?_⟩
  rw [Lib.Memory.scanned_found]

/-- **`find_tkline` takes only expired entries out, and answers with the first entry that it looks
for, in the list of hosts before the list of addresses.** -/
theorem TklinesKept.find_tkline (kept : TklinesKept s l) (now : Int) (host user : Option Text) (ip : BitVec w) :
    (∃ l', TklinesKept (s.find_tkline now host user ip).1 l' ∧
      Expires now l.hosts l'.hosts ∧ Expires now l.ips l'.ips) ∧
    (s.find_tkline now host user ip).2 =
      ((l.hosts.find? fun e => !expired now e.2 && hitsHost host user e.2).or
        (l.ips.find? fun e => !expired now e.2 && hitsIp user ip e.2)).map Prod.fst := by
  obtain ⟨hosts, answer⟩ := kept.findHost now host user
  obtain ⟨ips, answer'⟩ := hosts.findIp now user ip
  unfold Tklines.find_tkline
  simp only [answer]
  cases here : l.hosts.find? fun e => !expired now e.2 && hitsHost host user e.2 with
  | some e => exact ⟨⟨_, hosts, expires_scanned .., .refl ..⟩, rfl⟩
  | none => exact ⟨⟨_, ips, expires_scanned .., expires_scanned ..⟩, answer'⟩

theorem head_shown {kill : Option Nat} {items rest : List (Nat × Tkline w)} {m memory : Memory (Tkline w)}
    {first : Option Nat} (segment : Segment m kill items none)
    (fresh : ∀ e, items.head? = some e → expired now e.2 = false)
    (walked : Lib.Memory.Walked rest (scanned (fun e => expired now e.2) (fun _ => false) items).1 m
      memory first) : first = kill := by
  have head := walked.segment.start
  rw [Lib.Memory.scanned_head (expired now) (fun _ => false) items fresh, ← segment.start] at head
  exact head

theorem TklinesKept.showHosts (kept : TklinesKept s l)
    (fresh : ∀ e, l.hosts.head? = some e → expired now e.2 = false) :
    TklinesKept (s.show_temp_klines now s.temporary_klines)
      { l with hosts := (scanned (fun e => expired now e.2) (fun _ => false) l.hosts).1 } := by
  obtain ⟨walked, _⟩ := kept.standsHosts.scan (expired now) (fun _ => false) s.made kept.hosts_le
  have shown := kept.walkHosts walked (Lib.Memory.scanned_sublist ..)
  rw [head_shown kept.holds.first fresh walked] at shown
  exact shown

theorem TklinesKept.showIps (kept : TklinesKept s l)
    (fresh : ∀ e, l.ips.head? = some e → expired now e.2 = false) :
    TklinesKept (s.show_temp_klines now s.temporary_ip_klines)
      { l with ips := (scanned (fun e => expired now e.2) (fun _ => false) l.ips).1 } := by
  obtain ⟨walked, _⟩ := kept.standsIps.scan (expired now) (fun _ => false) s.made kept.ips_le
  have shown := kept.walkIps walked (Lib.Memory.scanned_sublist ..)
  rw [head_shown kept.holds.second fresh walked] at shown
  exact shown

/-- **A report that finds the first entry of each list unexpired.** -/
theorem TklinesKept.report_temp_klines (kept : TklinesKept s l)
    (fresh : HeadsFresh s now .report_temp_klines) :
    ∃ l', TklinesKept (s.report_temp_klines now) l' ∧
      Expires now l.hosts l'.hosts ∧ Expires now l.ips l'.ips := by
  have early : ∀ {items : List (Nat × Tkline w)} {kill : Option Nat}, Segment s.memory kill items none →
      s.temporary_klines = kill ∨ s.temporary_ip_klines = kill →
      ∀ e, items.head? = some e → expired now e.2 = false := by
    intro items kill segment which e head
    have start := segment.start
    rw [head] at start
    obtain ⟨next, cell⟩ := segment.alloc (List.mem_of_mem_head? head)
    rw [start] at which
    exact expired_eq_false.mpr (fresh e.1 _ which cell)
  have hosts := kept.showHosts (early kept.holds.first (.inl rfl))
  have ips := hosts.showIps (early kept.holds.second (.inr rfl))
  exact ⟨_, ips, expires_scanned .., expires_scanned ..⟩

/-- **`remove_tkline_match` takes the first entry that it looks for out**, and says whether there was
one. -/
theorem TklinesKept.removed (kept : TklinesKept s l) (host user : Text) (ip : BitVec w) :
    TklinesKept (s.remove_tkline_match host user ip).1
        (if ip ≠ 0 then { l with ips := l.ips.eraseP fun e => sameIp ip e.2 }
          else { l with hosts := l.hosts.eraseP fun e => sameHost host user e.2 }) ∧
      (s.remove_tkline_match host user ip).2 =
        if ip ≠ 0 then l.ips.any fun e => sameIp ip e.2
        else l.hosts.any fun e => sameHost host user e.2 := by
  unfold Tklines.remove_tkline_match
  split
  · rename_i none_
    have hosts : l.hosts = [] := by
      have start := kept.holds.first.start
      rw [none_.1] at start
      simpa using start.symm
    have ips : l.ips = [] := by
      have start := kept.holds.second.start
      rw [none_.2] at start
      simpa using start.symm
    obtain ⟨hosts', ips'⟩ := l
    obtain rfl : hosts' = [] := hosts
    obtain rfl : ips' = [] := ips
    split
    · exact ⟨kept, rfl⟩
    · exact ⟨kept, rfl⟩
  · split
    · have stands := Lib.Memory.Segment.stands kept.holds.second kept.holds.symm.left_nodup
      obtain ⟨walked, answer⟩ := (⟨stands.passed, stands.ahead, stands.nodup, .inr rfl⟩ :
        Lib.Memory.Stands s.memory s.temporary_ip_klines none s.temporary_ip_klines []
          l.ips).unlink (sameIp ip) s.made kept.ips_le fun _ => rfl
      exact ⟨kept.walkIps walked (List.eraseP_sublist ..), answer⟩
    · have stands := Lib.Memory.Segment.stands kept.holds.first kept.holds.left_nodup
      obtain ⟨walked, answer⟩ := (⟨stands.passed, stands.ahead, stands.nodup, .inr rfl⟩ :
        Lib.Memory.Stands s.memory s.temporary_klines none s.temporary_klines []
          l.hosts).unlink (sameHost host user) s.made kept.hosts_le fun _ => rfl
      exact ⟨kept.walkHosts walked (List.eraseP_sublist ..), answer⟩

theorem TklinesKept.remove_tkline_match (kept : TklinesKept s l) (host user : Text) (ip : BitVec w) :
    TklinesKept (s.remove_tkline_match host user ip).1
      (if ip ≠ 0 then { l with ips := l.ips.eraseP fun e => sameIp ip e.2 }
        else { l with hosts := l.hosts.eraseP fun e => sameHost host user e.2 }) :=
  (kept.removed host user ip).1

theorem TklinesKept.unique {l' : Ledger w} (kept : TklinesKept s l) (kept' : TklinesKept s l') : l = l' := by
  obtain ⟨hosts, ips⟩ := l
  obtain ⟨hosts', ips'⟩ := l'
  obtain rfl : hosts = hosts' := kept.holds.first.unique kept'.holds.first
  obtain rfl : ips = ips' := kept.holds.second.unique kept'.holds.second
  rfl

theorem TklinesKept.flush_temp_klines (kept : TklinesKept s l) : TklinesKept s.flush_temp_klines ⟨[], []⟩ := by
  have hosts := kept.walkHosts
    (kept.holds.first.freeAll s.made kept.hosts_le kept.holds.left_nodup) (List.nil_sublist _)
  exact hosts.walkIps
    (hosts.holds.second.freeAll s.made hosts.ips_le hosts.holds.symm.left_nodup) (List.nil_sublist _)

/-- **A call does to the lists what it does to the ledger.** -/
theorem TklinesKept.called (kept : TklinesKept s l) (call : TklineCall w) (room : call.Allocates s)
    (fresh : HeadsFresh s now call) : ∃ l', l.Step now call l' ∧ TklinesKept (s.called now call) l' := by
  cases call with
  | add_temp_kline place aconf => exact ⟨_, rfl, kept.add_temp_kline room⟩
  | find_tkline host user ip =>
    obtain ⟨⟨l', kept', expire⟩, _⟩ := kept.find_tkline now host user ip
    exact ⟨l', expire, kept'⟩
  | report_temp_klines =>
    obtain ⟨l', kept', expire⟩ := kept.report_temp_klines fresh
    exact ⟨l', expire, kept'⟩
  | remove_tkline_match host user ip => exact ⟨_, rfl, kept.remove_tkline_match host user ip⟩
  | flush_temp_klines => exact ⟨_, rfl, kept.flush_temp_klines⟩

/-- **A search answers as the ledger says.** -/
theorem TklinesKept.finds (kept : TklinesKept s l) (now : Int) (host user : Option Text) (ip : BitVec w) :
    l.Finds s now host user ip := by
  obtain ⟨_, answer⟩ := kept.find_tkline now host user ip
  constructor
  · intro place found
    rw [answer] at found
    obtain ⟨⟨_, kill⟩, which, rfl⟩ := Option.map_eq_some_iff.mp found
    rcases Option.or_eq_some_iff.mp which with here | ⟨_, here⟩
    · have member := List.mem_of_find?_eq_some here
      have hit := List.find?_some here
      simp only [Bool.and_eq_true, Bool.not_eq_true', expired_eq_false] at hit
      exact ⟨kill, List.mem_append_left _ member, hit.1, .inl ⟨kept.hosts_ip _ member, hit.2⟩⟩
    · have member := List.mem_of_find?_eq_some here
      have hit := List.find?_some here
      simp only [Bool.and_eq_true, Bool.not_eq_true', expired_eq_false] at hit
      exact ⟨kill, List.mem_append_right _ member, hit.1, .inr ⟨kept.ips_ip _ member, hit.2⟩⟩
  · intro e member answers none_
    rw [answer, Option.map_eq_none_iff, Option.or_eq_none_iff, List.find?_eq_none,
      List.find?_eq_none] at none_
    have fresh : expired now e.2 = false := expired_eq_false.mpr answers.1
    rcases List.mem_append.mp member with member | member
    · rcases answers.2 with ⟨_, hit⟩ | ⟨other, _⟩
      · exact none_.1 e member (by rw [fresh, hit]; rfl)
      · exact other (kept.hosts_ip e member)
    · rcases answers.2 with ⟨other, _⟩ | ⟨_, hit⟩
      · exact kept.ips_ip e member other
      · exact none_.2 e member (by rw [fresh, hit]; rfl)

end Step

/-! ### Every run -/

theorem TklinesKept.start : TklinesKept (.start : Tklines w) ⟨[], []⟩ where
  holds := .empty
  hosts_ip := nofun
  ips_ip := nofun
  hosts_le := le_rfl
  ips_le := le_rfl

/-- **In every state that calls lead to, the lists hold the entries added and not yet removed, and
`find_tkline` finds an entry exactly when one answers, as long as each report finds the first entry
of each list unexpired.** -/
theorem run_tklines {events : List (Int × TklineCall w)} {s : Tklines w}
    (run : TklineRun HeadsFresh events s) :
    ∃ l, Accounts events l ∧ TklinesKept s l ∧ ∀ now host user ip, l.Finds s now host user ip := by
  suffices held : ∃ l, Accounts events l ∧ TklinesKept s l by
    obtain ⟨l, accounts, kept⟩ := held
    exact ⟨l, accounts, kept, kept.finds⟩
  induction run with
  | start => exact ⟨_, .start, .start⟩
  | call now call before room fresh ih =>
    obtain ⟨l, accounts, kept⟩ := ih
    obtain ⟨l', step, kept'⟩ := kept.called call room fresh
    exact ⟨l', .call now call accounts step, kept'⟩

def sampleTkline : Tkline 64 := ⟨['*'], ['a'], 0, 0, 10⟩

/-- Added, listed in time, searched when it has expired, and listed again. -/
theorem run_tklines_sample : ∃ s : Tklines 64, TklineRun HeadsFresh
    [(0, .add_temp_kline 5 sampleTkline), (4, .report_temp_klines), (12, .find_tkline none none 0),
      (12, .report_temp_klines)] s ∧ s.memory 5 = none ∧
    ∃ l, Accounts [(0, .add_temp_kline 5 sampleTkline), (4, .report_temp_klines),
      (12, .find_tkline none none 0), (12, .report_temp_klines)] l ∧ TklinesKept s l ∧
      ∀ now host user ip, l.Finds s now host user ip := by
  have empty : TklineRun HeadsFresh [] (.start : Tklines 64) := .start
  have run := (((empty.call 0 (.add_temp_kline 5 sampleTkline) rfl
    trivial).call 4 .report_temp_klines trivial ?_).call 12 (.find_tkline none none 0) trivial
    trivial).call 12 .report_temp_klines trivial ?_
  · exact ⟨_, run, by decide, run_tklines run⟩
  · intro place cell which there
    have here : place = 5 := by
      rcases which with which | which
      · exact (Option.some.inj which).symm
      · exact absurd (show (none : Option Nat) = some place from which) nofun
    subst here
    obtain rfl : cell = ⟨sampleTkline, none⟩ := (Option.some.inj there).symm
    decide
  · intro place cell which
    rcases which with which | which
    · exact absurd (show (none : Option Nat) = some place from which) nofun
    · exact absurd (show (none : Option Nat) = some place from which) nofun

/-- **A report that finds the first entry expired** frees it, and leaves `temporary_klines` leading
to it. -/
theorem not_run_tklines : ¬ ∀ (events : List (Int × TklineCall 64)) (s : Tklines 64),
    (events.map Prod.fst).Pairwise (· ≤ ·) → TklineRun (fun _ _ _ => True) events s →
      ∃ l, Accounts events l ∧ TklinesKept s l ∧ ∀ now host user ip, l.Finds s now host user ip := by
  intro claim
  have empty : TklineRun (fun _ _ _ => True) [] (.start : Tklines 64) := .start
  have run := (empty.call 0
    (.add_temp_kline 5 sampleTkline) rfl trivial).call 20 .report_temp_klines trivial trivial
  obtain ⟨l, _, kept, _⟩ := claim _ _ (by decide) run
  obtain ⟨hosts, ips⟩ := l
  cases hosts with
  | nil => exact absurd (show some 5 = (none : Option Nat) from kept.holds.first) nofun
  | cons e hosts =>
    obtain ⟨place, e⟩ := e
    obtain ⟨start, next, cell, _⟩ := kept.holds.first
    obtain rfl : 5 = place := Option.some.inj start
    exact absurd (show (none : Option (Cell (Tkline 64))) = some ⟨e, next⟩ from cell) nofun

end PtlinkIrcd
