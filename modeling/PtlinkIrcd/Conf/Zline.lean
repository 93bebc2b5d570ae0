/-
**Z-lines.**

The list of `zline.c` as a map from hosts to times: `m_zline`, `m_unzline`, `find_zline`, and the two
searches and the entry of `check_client` in `s_conf.c`, on the memory of the entries.

* `Zlines` — the list: its head and its cells.
* `find_zline` — the walk with its trailing pointer; `walk_eq_scan` says that it is `scan`.
* `Listed` — the memory holds the entries of a list, each once, and no others.
* `ZlineEvent.adds` — the entry that an event adds; `ZlineEvent.removes` — the hosts that it takes out.
* `zlines_timed_map` — **after any events, one entry at most is for a host, and a search finds the one
  that was added, has not ended, and was not taken out since**; it frees ended entries only.
-/

import PtlinkIrcd.Conf.Gline
import PtlinkIrcd.Lib.Leases
import PtlinkIrcd.Model.Names

set_option linter.unusedSectionVars false

namespace PtlinkIrcd

open Lib (Memory Cell)
open Lib.Memory (Segment Stands scanned)

/-! ### The list -/

/-- An entry. -/
structure Zline where
  name : CString
  hold : Seconds
  passwd : Option CString
deriving DecidableEq

/-- `CurrentTime > zl->hold`. -/
def Zline.expired (now : Seconds) (zl : Zline) : Bool := zl.hold.toInt < now.toInt

/-- `irccmp(zl->name, host) == 0`. -/
def Zline.isFor (host : CString) (zl : Zline) : Bool := irccmp zl.name.1 host.1 == 0

/-- `zlines` with its entries. `made` counts the entries ever added, and bounds the walks. -/
structure Zlines where
  memory : Memory Zline
  made : Nat
  zlines : Option Nat

namespace Zlines

def start : Zlines := ⟨fun _ => none, 0, none⟩

/-- The walk of `find_zline` from `zl` on, behind `aux_zl`; `zlines` is the head of the list. -/
def walk (now : Seconds) (host : CString) :
    Nat → Option Nat → Option Nat → Option Nat → Memory Zline → Memory Zline × Option Nat × Option Nat
  | 0, zlines, _, _, m => (m, zlines, none)
  | fuel + 1, zlines, aux_zl, zl, m =>
    match zl with
    | none => (m, zlines, none)
    | some a =>
      match m a with
      | none => (m, zlines, none)
      | some cell =>
        if cell.item.expired now then
          match aux_zl with
          | some _ => walk now host fuel zlines aux_zl cell.next ((m.setNext aux_zl cell.next).free a)
          | none => walk now host fuel cell.next none cell.next (m.free a)
        else if cell.item.isFor host then (m, zlines, some a)
        else walk now host fuel zlines (some a) cell.next m

/-- `find_zline`: the list, and the place of the entry. -/
def find_zline (s : Zlines) (now : Seconds) (host : CString) : Zlines × Option Nat :=
  let walked := walk now host s.made s.zlines none s.zlines s.memory
  ({ s with memory := walked.1, zlines := walked.2.1 }, walked.2.2)

/-- `aconf->next = zlines; zlines = aconf`, where the allocator gave a place. -/
def add (s : Zlines) (place : Nat) (aconf : Zline) : Zlines where
  memory := Function.update s.memory place (some ⟨aconf, s.zlines⟩)
  made := s.made + 1
  zlines := some place

def remove (s : Zlines) (host : CString) : Zlines :=
  let walked := s.memory.unlink (Zline.isFor host) s.made s.zlines none s.zlines
  { s with memory := walked.1, zlines := walked.2.1 }

end Zlines

/-! ### Messages and clients -/

/-- The entry that a `ZLINE` asks for: there is none without privileges, a host that is valid, and a
time. `secs` is an `int`. -/
def zlineAsked (now : Seconds) (privileged : Bool) : List CString → Option Zline
  | host :: timestr :: rest =>
    let secs := (secondsOf timestr.1).setWidth 32
    if privileged && valid_hostname host.1 then
      some ⟨host, now + secs.signExtend 64, rest.head?.filter (·.1 ≠ [])⟩
    else none
  | _ => none

/-- `m_zline`, where the allocator would give a place. -/
def Zlines.m_zline (s : Zlines) (now : Seconds) (privileged : Bool) (place : Nat) (parv : List CString) :
    Zlines :=
  match zlineAsked now privileged parv with
  | none => s
  | some aconf =>
    let found := s.find_zline now aconf.name
    if found.2.isSome then found.1 else found.1.add place aconf

def Zlines.m_unzline (s : Zlines) (privileged : Bool) : List CString → Zlines
  | host :: _ => if privileged then s.remove host else s
  | [] => s

/-- A client that `check_client` looks at: `client` says that an I-line takes it, `admitted` that
`verify_access` refuses it for nothing but a Z-line, `cloned` that `check_clones` finds too many of its
kind. -/
structure Connecting where
  realhost : CString
  ip : CString
  client : Bool
  admitted : Bool
  cloned : Bool
  IPIdentifyMode : Bool
  CheckClonesDelay : BitVec 32

/-- The searches of `verify_access`. -/
def Zlines.verify_access (s : Zlines) (now : Seconds) (cptr : Connecting) : Zlines × Option Nat :=
  let found := s.find_zline now cptr.realhost
  if found.2.isSome || cptr.IPIdentifyMode then found else found.1.find_zline now cptr.ip

/-- The entry of `check_client` for a client. -/
def Connecting.throttled (now : Seconds) (cptr : Connecting) : Zline where
  name := cptr.realhost
  hold := now + cptr.CheckClonesDelay.signExtend 64
  passwd := some ⟨"Too many connections from your host, please try again later".toList, by decide⟩

/-- `check_client`, where the allocator would give a place. -/
def Zlines.check_client (s : Zlines) (now : Seconds) (place : Nat) (cptr : Connecting) : Zlines :=
  if cptr.client then
    let verified := s.verify_access now cptr
    if verified.2.isNone && cptr.admitted && cptr.cloned then verified.1.add place (cptr.throttled now)
    else verified.1
  else s

/-! ### Events -/

/-- What happens to the list. -/
inductive ZlineEvent
  | m_zline (privileged : Bool) (place : Nat) (parv : List CString)
  | m_unzline (privileged : Bool) (parv : List CString)
  | find_zline (host : CString)
  | check_client (place : Nat) (cptr : Connecting)

def Zlines.after (s : Zlines) (now : Seconds) : ZlineEvent → Zlines
  | .m_zline privileged place parv => s.m_zline now privileged place parv
  | .m_unzline privileged parv => s.m_unzline privileged parv
  | .find_zline host => (s.find_zline now host).1
  | .check_client place cptr => s.check_client now place cptr

def zlinesAfter (events : List (Seconds × ZlineEvent)) : Zlines :=
  events.foldl (fun s event => s.after event.1 event.2) .start

/-- The entry that an event adds, with its place. -/
def ZlineEvent.adds (now : Seconds) (s : Zlines) : ZlineEvent → Option (Nat × Zline)
  | .m_zline privileged place parv =>
    (zlineAsked now privileged parv).bind fun aconf =>
      if (s.find_zline now aconf.name).2.isSome then none else some (place, aconf)
  | .check_client place cptr =>
    if cptr.client && (s.verify_access now cptr).2.isNone && cptr.admitted && cptr.cloned then
      some (place, cptr.throttled now)
    else none
  | _ => none

/-- An event takes out the entry for a host. -/
def ZlineEvent.removes (host : CString) : ZlineEvent → Bool
  | .m_unzline privileged (other :: _) => privileged && irccmp other.1 host.1 == 0
  | _ => false

/-- The allocator gives a place that is not in use after the searches of the event. -/
def ZlineEvent.Allocates (now : Seconds) (s : Zlines) : ZlineEvent → Prop
  | .m_zline privileged place parv =>
    ∀ aconf ∈ zlineAsked now privileged parv, (s.find_zline now aconf.name).1.memory place = none
  | .check_client place cptr => (s.verify_access now cptr).1.memory place = none
  | _ => True

/-- Events in which the allocator does its part. -/
inductive ZlineRun : List (Seconds × ZlineEvent) → Prop
  | start : ZlineRun []
  | event {events : List (Seconds × ZlineEvent)} {now : Seconds} {e : ZlineEvent} (before : ZlineRun events)
      (room : e.Allocates now (zlinesAfter events)) : ZlineRun (events ++ [(now, e)])

/-! ### The walks -/

/-- The memory holds the entries of a list, each once, and no others. -/
structure Listed (s : Zlines) (list : List (Nat × Zline)) : Prop where
  segment : Segment s.memory s.zlines list none
  nodup : (list.map Prod.fst).Nodup
  length_le : list.length ≤ s.made
  only : ∀ a, a ∉ list.map Prod.fst → s.memory a = none

def zlineKey (e : Nat × Zline) : Text := e.2.name.1.map toUpper

/-- The first second in which an entry does not count. -/
def zlineEnds (e : Nat × Zline) : Int := e.2.hold.toInt + 1

section

variable {s : Zlines} {now : Seconds} {host : CString} {list : List (Nat × Zline)} {e : Nat × Zline}
  {m : Memory Zline} {first last kill : Option Nat} {before rest : List (Nat × Zline)}

/-- **The walk of `find_zline` is the walk that frees expired cells**, for a trailing pointer that is
null exactly at the head. -/
theorem walk_eq_scan (now : Seconds) (host : CString) (fuel : Nat)
    (stands : Stands m first last kill before rest) :
    Zlines.walk now host fuel first (before.getLast?.map Prod.fst) kill m =
      m.scan (Zline.expired now) (Zline.isFor host) fuel first last kill := by
  induction fuel generalizing m first last kill before rest with
  | zero => rfl
  | succ fuel ih =>
    cases rest with
    | nil =>
      obtain rfl : kill = none := stands.ahead
      rfl
    | cons head rest =>
      obtain ⟨a, e⟩ := head
      obtain ⟨rfl, next, cell, _⟩ := stands.ahead
      unfold Zlines.walk Memory.scan
      simp only [cell]
      by_cases old : e.expired now = true
      · rw [if_pos old, if_pos old]
        by_cases start : before = []
        · obtain ⟨here, standing⟩ := (stands.cut cell).1 start
          subst start
          rw [if_pos here]
          exact ih standing
        · obtain ⟨here, behind, standing⟩ := (stands.cut cell).2 start
          have isLast := stands.last.resolve_right start
          have walked := ih standing
          rw [← isLast] at walked
          rw [if_neg here, ← isLast]
          obtain ⟨b, rfl⟩ := Option.ne_none_iff_exists'.mp behind
          exact walked
      · rw [if_neg old, if_neg old]
        by_cases wanted : e.isFor host = true
        · rw [if_pos wanted, if_pos wanted]
        · rw [if_neg wanted, if_neg wanted]
          have walked := ih (stands.pass cell)
          rwa [List.getLast?_concat] at walked

theorem isFor_eq (host : CString) :
    (fun e : Nat × Zline => e.2.isFor host) = fun e => decide (zlineKey e = host.1.map toUpper) := by
  funext e
  rw [Bool.eq_iff_iff, decide_eq_true_eq, Zline.isFor, beq_iff_eq]
  exact irccmp_eq_zero_iff e.2.name.2 host.2

theorem expired_eq (now : Seconds) :
    (fun e : Nat × Zline => e.2.expired now) = Lib.Refusals.ended zlineEnds now.toInt := by
  funext e
  unfold Zline.expired Lib.Refusals.ended zlineEnds
  rw [Bool.eq_iff_iff, decide_eq_true_eq, decide_eq_true_eq]
  exact Int.lt_iff_add_one_le

theorem Listed.walked {after : List (Nat × Zline)} {other : Memory Zline} {head : Option Nat}
    (listed : Listed s list) (walked : Lib.Memory.Walked list after s.memory other head)
    (part : after.Sublist list) : Listed { s with memory := other, zlines := head } after where
  segment := walked.segment
  nodup := listed.nodup.sublist (part.map Prod.fst)
  length_le := part.length_le.trans listed.length_le
  only a out := by
    by_cases inside : a ∈ list.map Prod.fst
    · exact walked.freed a inside out
    · exact (walked.frame a inside).trans (listed.only a inside)

theorem Listed.stands (listed : Listed s list) : Stands s.memory s.zlines none s.zlines [] list :=
  ⟨rfl, listed.segment, listed.nodup, .inr rfl⟩

/-- **`find_zline` is the search of the list.** -/
theorem Listed.find_zline (listed : Listed s list) (now : Seconds) (host : CString) :
    Listed (s.find_zline now host).1
        (Lib.Leases.find zlineKey zlineEnds now.toInt (host.1.map toUpper) list).1 ∧
      (s.find_zline now host).2 =
        (Lib.Leases.find zlineKey zlineEnds now.toInt (host.1.map toUpper) list).2.map Prod.fst := by
  have same := walk_eq_scan now host s.made listed.stands
  obtain ⟨walked, answer⟩ := listed.stands.scan (Zline.expired now) (Zline.isFor host) s.made listed.length_le
  have search : Lib.Leases.find zlineKey zlineEnds now.toInt (host.1.map toUpper) list =
      scanned (fun e => e.2.expired now) (fun e => e.2.isFor host) list := by
    rw [isFor_eq, expired_eq]
    rfl
  rw [search]
  unfold Zlines.find_zline
  dsimp only
  rw [show (none : Option Nat) = (([] : List (Nat × Zline)).getLast?.map Prod.fst) from rfl, same]
  exact ⟨listed.walked walked (Lib.Memory.scanned_sublist ..), answer⟩

/-- **`m_unzline` takes out the entry of a host.** -/
theorem Listed.remove (listed : Listed s list) (host : CString) :
    Listed (s.remove host) (Lib.Leases.revoke zlineKey (host.1.map toUpper) list) := by
  obtain ⟨walked, -⟩ := listed.stands.unlink (Zline.isFor host) s.made listed.length_le fun _ => rfl
  have gone : Lib.Leases.revoke zlineKey (host.1.map toUpper) list =
      list.eraseP fun e => e.2.isFor host := by
    rw [isFor_eq]
    rfl
  rw [gone]
  exact listed.walked walked List.eraseP_sublist

theorem Listed.add (listed : Listed s list) {place : Nat} (room : s.memory place = none) (aconf : Zline) :
    Listed (s.add place aconf) ((place, aconf) :: list) := by
  have out : place ∉ list.map Prod.fst := fun member => by
    obtain ⟨e, inside, rfl⟩ := List.mem_map.mp member
    obtain ⟨next, cell⟩ := listed.segment.alloc inside
    exact absurd (room.symm.trans cell) nofun
  refine ⟨⟨rfl, s.zlines, Function.update_self .., ?_⟩, List.nodup_cons.mpr ⟨out, listed.nodup⟩,
    Nat.succ_le_succ listed.length_le, ?_⟩
  · exact listed.segment.congr fun i member =>
      Function.update_of_ne (fun same : i.1 = place => out (same ▸ List.mem_map_of_mem member)) ..
  · intro a outside
    rw [List.map_cons, List.mem_cons, not_or] at outside
    exact (Function.update_of_ne outside.1 ..).trans (listed.only a outside.2)

/-! ### What an event does -/

/-- What a step at a time does to the entries. -/
abbrev ZlineTurn (now : Seconds) (drops : Text → Prop) (gets : Nat × Zline → Prop) :
    List (Nat × Zline) → List (Nat × Zline) → Prop :=
  Lib.Leases.Turn zlineKey zlineEnds now.toInt drops gets

/-- The folded hosts whose entries an event takes out. -/
def zlineDrops (e : ZlineEvent) (k : Text) : Prop := ∃ host : CString, host.1.map toUpper = k ∧ e.removes host = true

theorem Listed.search (listed : Listed s list) (apart : Lib.Leases.Apart zlineKey list) (now : Seconds)
    (host : CString) : ∃ after, Listed (s.find_zline now host).1 after ∧
      ZlineTurn now (fun _ => False) (fun _ => False) list after ∧
      ((s.find_zline now host).2 = none → ∀ e ∈ after, zlineKey e ≠ host.1.map toUpper) := by
  obtain ⟨found, answer⟩ := listed.find_zline now host
  refine ⟨_, found, .look apart _, fun none_ e member => ?_⟩
  rw [answer, Option.map_eq_none_iff] at none_
  exact Lib.Leases.key_ne_of_find none_ member

theorem Listed.verify_access (listed : Listed s list) (apart : Lib.Leases.Apart zlineKey list) (now : Seconds)
    (cptr : Connecting) : ∃ after, Listed (s.verify_access now cptr).1 after ∧
      ZlineTurn now (fun _ => False) (fun _ => False) list after ∧
      ((s.verify_access now cptr).2 = none → ∀ e ∈ after, zlineKey e ≠ cptr.realhost.1.map toUpper) := by
  obtain ⟨after, found, turn, vacant⟩ := listed.search apart now cptr.realhost
  unfold Zlines.verify_access
  dsimp only
  cases searched : (s.find_zline now cptr.realhost).2 with
  | some a => exact ⟨after, found, turn, fun none_ => absurd (searched.symm.trans none_) nofun⟩
  | none =>
    cases cptr.IPIdentifyMode with
    | true => exact ⟨after, found, turn, vacant⟩
    | false =>
      obtain ⟨later, found', turn', -⟩ := found.search turn.apart now cptr.ip
      refine ⟨later, found', turn.then turn', fun _ e member => ?_⟩
      rcases turn'.sound e member with ⟨was, -⟩ | none_
      · exact vacant searched e was
      · exact none_.elim

/-- A list becomes that of a state: an event takes out entries for some hosts, adds at most one, and
nothing else goes before its end. -/
def Becomes (list : List (Nat × Zline)) (now : Seconds) (drops : Text → Prop) (new : Option (Nat × Zline))
    (s' : Zlines) : Prop :=
  ∃ after, Listed s' after ∧ ZlineTurn now drops (fun e => new = some e) list after

section Events

variable {s' : Zlines} {left : List (Nat × Zline)} {place : Nat} {aconf : Zline}

theorem becomes_none (listed : Listed s' left)
    (turn : ZlineTurn now (fun _ => False) (fun _ => False) list left) :
    Becomes list now (fun _ => False) none s' :=
  ⟨left, listed, turn.congr (fun _ => .rfl) fun _ => ⟨False.elim, nofun⟩⟩

theorem becomes_some (listed : Listed s' left)
    (turn : ZlineTurn now (fun _ => False) (fun _ => False) list left) (room : s'.memory place = none)
    (vacant : ∀ e ∈ left, zlineKey e ≠ aconf.name.1.map toUpper) :
    Becomes list now (fun _ => False) (some (place, aconf)) (s'.add place aconf) := by
  refine ⟨(place, aconf) :: left, listed.add room aconf, ?_⟩
  have cons : ZlineTurn now (fun _ => False) (· = (place, aconf)) left ((place, aconf) :: left) :=
    .cons turn.apart vacant
  refine (turn.then cons).congr (fun _ => .rfl) fun e => ?_
  rw [Option.some.injEq, eq_comm]

theorem Listed.m_zline (listed : Listed s list) (apart : Lib.Leases.Apart zlineKey list) (privileged : Bool)
    (parv : List CString) (room : (ZlineEvent.m_zline privileged place parv).Allocates now s) :
    Becomes list now (fun _ => False) ((ZlineEvent.m_zline privileged place parv).adds now s)
      (s.m_zline now privileged place parv) := by
  rw [Zlines.m_zline, ZlineEvent.adds]
  cases asked : zlineAsked now privileged parv with
  | none => exact becomes_none listed (.refl apart)
  | some aconf =>
    obtain ⟨after, found, turn, vacant⟩ := listed.search apart now aconf.name
    dsimp only [Option.bind_some]
    cases searched : (s.find_zline now aconf.name).2 with
    | some a => exact becomes_none found turn
    | none => exact becomes_some found turn (room aconf asked) (vacant searched)

theorem Listed.check_client (listed : Listed s list) (apart : Lib.Leases.Apart zlineKey list)
    (cptr : Connecting) (room : (ZlineEvent.check_client place cptr).Allocates now s) :
    Becomes list now (fun _ => False) ((ZlineEvent.check_client place cptr).adds now s)
      (s.check_client now place cptr) := by
  rw [Zlines.check_client, ZlineEvent.adds]
  cases cptr.client with
  | false => exact becomes_none listed (.refl apart)
  | true =>
    obtain ⟨after, found, turn, vacant⟩ := listed.verify_access apart now cptr
    rw [if_pos rfl, Bool.true_and]
    dsimp only
    by_cases new : ((s.verify_access now cptr).2.isNone && cptr.admitted && cptr.cloned) = true
    · rw [if_pos new, if_pos new]
      rw [Bool.and_eq_true, Bool.and_eq_true, Option.isNone_iff_eq_none] at new
      exact becomes_some found turn room (vacant new.1.1)
    · rw [if_neg new, if_neg new]
      exact becomes_none found turn

theorem removes_m_unzline {named : CString} {rest : List CString} :
    (ZlineEvent.m_unzline true (named :: rest)).removes host = true ↔
      named.1.map toUpper = host.1.map toUpper := by
  change (true && irccmp named.1 host.1 == 0) = true ↔ _
  rw [Bool.true_and, beq_iff_eq]
  exact irccmp_eq_zero_iff named.2 host.2

theorem removes_eq (event : ZlineEvent) {other : CString} (same : host.1.map toUpper = other.1.map toUpper) :
    event.removes host = event.removes other := by
  cases event with
  | m_unzline privileged parv =>
    cases parv with
    | nil => rfl
    | cons named rest =>
      cases privileged with
      | false => rfl
      | true => rw [Bool.eq_iff_iff, removes_m_unzline, removes_m_unzline, same]
  | _ => rfl

theorem zlineDrops_iff {event : ZlineEvent} :
    zlineDrops event (host.1.map toUpper) ↔ event.removes host = true :=
  ⟨fun ⟨_, same, gone⟩ => removes_eq event same ▸ gone, fun gone => ⟨host, rfl, gone⟩⟩

theorem Listed.m_unzline (listed : Listed s list) (apart : Lib.Leases.Apart zlineKey list) (privileged : Bool)
    (parv : List CString) : Becomes list now (zlineDrops (.m_unzline privileged parv)) none
      (s.m_unzline privileged parv) := by
  have idle (quiet : ∀ host, (ZlineEvent.m_unzline privileged parv).removes host = false) :
      Becomes list now (zlineDrops (.m_unzline privileged parv)) none s := by
    refine ⟨list, listed, (Lib.Leases.Turn.refl apart).congr (fun k => ⟨False.elim, ?_⟩) fun _ => ⟨False.elim, nofun⟩⟩
    rintro ⟨host, -, gone⟩
    exact Bool.false_ne_true ((quiet host).symm.trans gone)
  cases parv with
  | nil => exact idle fun _ => rfl
  | cons host rest =>
    cases privileged with
    | false => exact idle fun _ => rfl
    | true =>
      refine ⟨_, listed.remove host, (Lib.Leases.Turn.revoke apart _).congr (fun k => ?_) fun _ => ⟨False.elim, nofun⟩⟩
      constructor
      · rintro rfl
        exact ⟨host, rfl, removes_m_unzline.mpr rfl⟩
      · rintro ⟨other, rfl, gone⟩
        exact (removes_m_unzline.mp gone).symm

theorem Becomes.quiet {event : ZlineEvent} {new : Option (Nat × Zline)}
    (becomes : Becomes list now (fun _ => False) new s') (quiet : ∀ host, event.removes host = false) :
    Becomes list now (zlineDrops event) new s' := by
  obtain ⟨after, listed, turn⟩ := becomes
  refine ⟨after, listed, turn.congr (fun k => ⟨False.elim, ?_⟩) fun _ => .rfl⟩
  rintro ⟨host, -, gone⟩
  exact Bool.false_ne_true ((quiet host).symm.trans gone)

/-- **What an event does to the list**: it takes out what it removes, lets in what it adds, and nothing
else goes before its end. -/
theorem Listed.after {event : ZlineEvent} (listed : Listed s list) (apart : Lib.Leases.Apart zlineKey list)
    (room : event.Allocates now s) :
    Becomes list now (zlineDrops event) (event.adds now s) (s.after now event) := by
  cases event with
  | m_zline privileged place parv => exact (listed.m_zline apart privileged parv room).quiet fun _ => rfl
  | check_client place cptr => exact (listed.check_client apart cptr room).quiet fun _ => rfl
  | m_unzline privileged parv => exact listed.m_unzline apart privileged parv
  | find_zline host =>
    obtain ⟨after, found, turn, -⟩ := listed.search apart now host
    exact (becomes_none found turn).quiet fun _ => rfl

end Events

/-! ### The map -/

/-- An entry for a host that was added, has not ended, and was not taken out since. -/
def ZlineHeld (events : List (Seconds × ZlineEvent)) (now : Seconds) (host : CString) (e : Nat × Zline) : Prop :=
  ∃ before event after, events = before ++ event :: after ∧
    event.2.adds event.1 (zlinesAfter before) = some e ∧ irccmp e.2.name.1 host.1 = 0 ∧
    now.toInt ≤ e.2.hold.toInt ∧ ∀ later ∈ after, later.2.removes host = false

section Map

variable {events : List (Seconds × ZlineEvent)}

abbrev ZlineStory (events : List (Seconds × ZlineEvent)) (list : List (Nat × Zline)) : Prop :=
  Lib.Leases.Story zlineKey zlineEnds (fun event => event.1.toInt) (fun event => zlineDrops event.2)
    (fun before event e => event.2.adds event.1 (zlinesAfter before) = some e) events list

/-- **The list tells the story of the events.** -/
theorem ZlineRun.story (run : ZlineRun events) :
    ∃ list, Listed (zlinesAfter events) list ∧ ZlineStory events list := by
  induction run with
  | start => exact ⟨[], ⟨rfl, List.nodup_nil, Nat.le_refl 0, fun _ _ => rfl⟩, .start⟩
  | @event events now event before room ih =>
    obtain ⟨list, listed, story⟩ := ih
    obtain ⟨after, listed', turn⟩ := listed.after story.apart room
    refine ⟨after, ?_, story.turn fun _ => turn⟩
    rw [zlinesAfter, List.foldl_concat]
    exact listed'

/-- **What is held is in the list.** -/
theorem mem_iff_zlineHeld (story : ZlineStory events list)
    (timely : ∀ event ∈ events, event.1.toInt ≤ now.toInt) (same : zlineKey e = host.1.map toUpper)
    (lasts : now.toInt < zlineEnds e) : e ∈ list ↔ ZlineHeld events now host e := by
  have named : irccmp e.2.name.1 host.1 = 0 := (irccmp_eq_zero_iff e.2.name.2 host.2).mpr same
  rw [story.mem_iff timely lasts, same]
  simp only [zlineDrops_iff, Bool.not_eq_true]
  constructor
  · rintro ⟨before, event, after, split, adds, since⟩
    exact ⟨before, event, after, split, adds, named, Int.lt_add_one_iff.mp lasts, since⟩
  · rintro ⟨before, event, after, split, adds, -, -, since⟩
    exact ⟨before, event, after, split, adds, since⟩

/-- **A search finds what is held.** -/
theorem find_zline_eq_some (listed : Listed (zlinesAfter events) list) (story : ZlineStory events list)
    (timely : ∀ event ∈ events, event.1.toInt ≤ now.toInt) (host : CString) (place : Nat) :
    ((zlinesAfter events).find_zline now host).2 = some place ↔ ∃ zl, ZlineHeld events now host (place, zl) := by
  rw [(listed.find_zline now host).2, Option.map_eq_some_iff]
  constructor
  · rintro ⟨⟨_, zl⟩, found, rfl⟩
    obtain ⟨member, lasts, same⟩ := Lib.Leases.find_eq_some found
    exact ⟨zl, (mem_iff_zlineHeld story timely same lasts).mp member⟩
  · rintro ⟨zl, held⟩
    obtain ⟨-, -, -, -, -, named, lasts, -⟩ := id held
    have same : zlineKey (place, zl) = host.1.map toUpper := (irccmp_eq_zero_iff zl.name.2 host.2).mp named
    have member := (mem_iff_zlineHeld story timely same (Int.lt_add_one_iff.mpr lasts)).mpr held
    have live : (Lib.Leases.find zlineKey zlineEnds now.toInt (host.1.map toUpper) list).2.isSome = true :=
      Lib.Leases.find_isSome.mpr ⟨_, member, Int.lt_add_one_iff.mpr lasts, same⟩
    obtain ⟨e, found⟩ := Option.isSome_iff_exists.mp live
    obtain ⟨member', -, same'⟩ := Lib.Leases.find_eq_some found
    exact ⟨e, found, congrArg Prod.fst (story.apart.eq_of_mem member' member (same'.trans same.symm))⟩

/-- **The list of Z-lines is a timed map.** After any events before a time, no two entries are for one
host; a search finds the entry for a host that was added, has not ended and was not taken out since, if
there is one; and it takes out entries that have ended only. -/
theorem zlines_timed_map {events : List (Seconds × ZlineEvent)} (run : ZlineRun events) {now : Seconds}
    (timely : ∀ event ∈ events, event.1.toInt ≤ now.toInt) :
    ∃ list, Listed (zlinesAfter events) list ∧
      list.Pairwise (fun e e' => irccmp e.2.name.1 e'.2.name.1 ≠ 0) ∧
      ∀ host : CString,
        (∀ place, ((zlinesAfter events).find_zline now host).2 = some place ↔
          ∃ zl, ZlineHeld events now host (place, zl)) ∧
        ∃ after, Listed ((zlinesAfter events).find_zline now host).1 after ∧ after.Sublist list ∧
          ∀ e ∈ list, e ∉ after → e.2.hold.toInt < now.toInt := by
  obtain ⟨list, listed, story⟩ := run.story
  refine ⟨list, listed, ?_, fun host => ⟨find_zline_eq_some listed story timely host, ?_⟩⟩
  · refine (List.pairwise_map.mp story.apart).imp fun {e e'} other same => other ?_
    exact (irccmp_eq_zero_iff e.2.name.2 e'.2.name.2).mp same
  · refine ⟨_, (listed.find_zline now host).1, Lib.Memory.scanned_sublist .., fun e member gone => ?_⟩
    by_contra lasts
    exact gone (Lib.Refusals.mem_look member (Int.lt_add_one_iff.mpr (Int.not_lt.mp lasts)))

end Map

end

def sampleZlineHost : CString := ⟨"h.example".toList, by decide⟩

/-- A client from another host, of which there are too many. -/
def sampleCloned : Connecting :=
  ⟨⟨"k.example".toList, by decide⟩, ⟨"10.0.0.1".toList, by decide⟩, true, true, true, false, 30⟩

def sampleZlines : List (Seconds × ZlineEvent) :=
  [(0, .m_zline true 7 [sampleZlineHost, ⟨"60".toList, by decide⟩]), (10, .check_client 8 sampleCloned)]

theorem zlineRun_sampleZlines : ZlineRun sampleZlines := by
  have first : ZlineRun [(0, .m_zline true 7 [sampleZlineHost, ⟨"60".toList, by decide⟩])] :=
    .event .start fun _ _ => rfl
  apply ZlineRun.event first
  change (Zlines.verify_access _ 10 sampleCloned).1.memory 8 = none
  decide +kernel

/-- While both last. -/
theorem zlines_timed_map_two :
    ∃ list, Listed (zlinesAfter sampleZlines) list ∧
      list.Pairwise (fun e e' => irccmp e.2.name.1 e'.2.name.1 ≠ 0) ∧
      ∀ host : CString,
        (∀ place, ((zlinesAfter sampleZlines).find_zline 30 host).2 = some place ↔
          ∃ zl, ZlineHeld sampleZlines 30 host (place, zl)) ∧
        ∃ after, Listed ((zlinesAfter sampleZlines).find_zline 30 host).1 after ∧ after.Sublist list ∧
          ∀ e ∈ list, e ∉ after → e.2.hold.toInt < (30 : Seconds).toInt :=
  zlines_timed_map zlineRun_sampleZlines (by decide)

end PtlinkIrcd
