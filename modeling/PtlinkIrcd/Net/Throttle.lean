/-
**The connection throttle.**

`check_clones` and `remove_clone_check` of `throttle.c` on their table of addresses.

* `ThrottleLimits.check_clones`, `remove_clone_check` — the two functions, on chains of records.
* `Placed` — a table whose records are in their chains, each address once.
* `remove_clone_check_undoes_iff` — **when `remove_clone_check` undoes `check_clones`**;
  `not_remove_clone_check_undoes` — it looks in another chain.
* `ThrottleLimits.streak` — the attempts of an address that follow one another closely.
* `counts_after` — the records after a sequence of attempts.
* `check_clones_answers_iff` — **when an attempt is answered as it should be**, in every sequence of
  attempts; `not_check_clones_answers` — the second one too many is let in.
-/

import Mathlib.Data.List.Nodup
import Mathlib.Data.List.TakeWhile
import PtlinkIrcd.Conf.IpTree
import PtlinkIrcd.Model.Text

namespace PtlinkIrcd

/-! ### The functions -/

def THROTTLE_HITLIMIT : Int16 := -1
def THROTTLE_SENTWARN : Int16 := -2

/-- A record. -/
structure aThrottle where
  ip : Address
  last : Int
  connected : Option Text
  count : Int16
deriving DecidableEq

/-- `if (ptr && (ptr->count > 1)) ptr->count--`. -/
def aThrottle.uncount (ptr : aThrottle) : aThrottle :=
  if 1 < ptr.count then { ptr with count := ptr.count - 1 } else ptr

/-- What the throttle is set to. -/
structure ThrottleLimits where
  CheckClonesLimit : Int32
  CheckClonesPeriod : Int32

def addressByte (ip : Address) (i : Nat) : BitVec 8 := ip.extractLsb' (8 * i) 8

/-- The chain that `check_clones` looks in. -/
def checkHash (ip : Address) : BitVec 8 :=
  addressByte ip 0 ^^^ addressByte ip 1 ^^^ addressByte ip 2 ^^^ addressByte ip 3

/-- The chain that `remove_clone_check` looks in. -/
def removeHash (ip : Address) : BitVec 8 :=
  addressByte ip 0 + addressByte ip 1 + addressByte ip 2 + addressByte ip 3

abbrev Chains := BitVec 8 → List aThrottle

namespace ThrottleLimits

variable (limits : ThrottleLimits)

def expired (now : Int) (tptr : aThrottle) : Bool := tptr.last + limits.CheckClonesPeriod.toInt < now

/-- The walk of `check_clones`: expired records on its way to the record of the address go. The records
that stay before it, the record, and those behind it. -/
def scan (now : Int) (ip : Address) : List aThrottle → List aThrottle × Option aThrottle × List aThrottle
  | [] => ([], none, [])
  | tscn :: rest =>
    if ip = tscn.ip then ([], some tscn, rest)
    else if limits.expired now tscn then scan now ip rest
    else
      let walked := scan now ip rest
      (tscn :: walked.1, walked.2)

/-- What becomes of the count of a record that has not expired. -/
def nextCount (count : Int16) : Int16 :=
  if 0 ≤ count then
    if (count + 1).toInt = limits.CheckClonesLimit.toInt then THROTTLE_HITLIMIT else count + 1
  else if count = THROTTLE_HITLIMIT then THROTTLE_SENTWARN
  else count

/-- What `check_clones` does to the record of the address, and whether it says that the connection is
throttled. -/
def touch (now : Int) (remote : Option Text) (tptr : aThrottle) : aThrottle × Bool :=
  let connected := tptr.connected.or remote
  if limits.expired now tptr then ({ tptr with last := now, connected, count := 1 }, false)
  else
    ({ tptr with last := now, connected, count := limits.nextCount tptr.count },
      tptr.count = THROTTLE_HITLIMIT)

def check_clones (throttles : Chains) (now : Int) (ip : Address) (remote : Option Text) :
    Chains × Bool :=
  if ip = 0 then (throttles, false)
  else
    let hval := checkHash ip
    let walked := limits.scan now ip (throttles hval)
    match walked.2 with
    | (some tptr, rest) =>
      let touched := limits.touch now remote tptr
      (Function.update throttles hval (walked.1 ++ touched.1 :: rest), touched.2)
    | (none, _) =>
      (Function.update throttles hval (⟨ip, now, remote, 1⟩ :: walked.1), false)

end ThrottleLimits

/-- What `remove_clone_check` does to a chain. -/
def removeCheck (ip : Address) : List aThrottle → List aThrottle
  | [] => []
  | ptr :: rest => if ip = ptr.ip then ptr.uncount :: rest else ptr :: removeCheck ip rest

def remove_clone_check (throttles : Chains) (ip : Address) : Chains :=
  if ip = 0 then throttles
  else Function.update throttles (removeHash ip) (removeCheck ip (throttles (removeHash ip)))

/-! ### Tables -/

/-- Every record is in the chain of its address, and an address has one at most. -/
structure Placed (throttles : Chains) : Prop where
  hash : ∀ h, ∀ tptr ∈ throttles h, checkHash tptr.ip = h
  nodup : ∀ h, ((throttles h).map aThrottle.ip).Nodup

def recordOf (throttles : Chains) (ip : Address) : Option aThrottle :=
  (throttles (checkHash ip)).find? fun tptr => tptr.ip = ip

section Records

variable {limits : ThrottleLimits} {throttles : Chains} {now : Int} {ip other : Address}
variable {remote : Option Text} {tptr : aThrottle} {found' : Option aThrottle} {l : List aThrottle}

/-- The records before that of an address. -/
def before (ip : Address) (l : List aThrottle) : List aThrottle := l.takeWhile fun t => t.ip ≠ ip

theorem scan_eq (limits : ThrottleLimits) (now : Int) (ip : Address) (l : List aThrottle) :
    limits.scan now ip l =
      ((before ip l).filter fun t => !limits.expired now t,
        l.find? fun t => t.ip = ip, (l.dropWhile fun t => t.ip ≠ ip).tail) := by
  unfold before
  induction l with
  | nil => rfl
  | cons t l ih =>
    unfold ThrottleLimits.scan
    by_cases here : ip = t.ip
    · simp [here]
    · have other : t.ip ≠ ip := Ne.symm here
      rw [if_neg here, ih]
      cases gone : limits.expired now t <;> simp [other, gone]

theorem mem_before (member : tptr ∈ before ip l) : tptr ∈ l ∧ tptr.ip ≠ ip :=
  ⟨(List.takeWhile_prefix _).subset member, by simpa using List.mem_takeWhile_imp member⟩

theorem split_of_find (found : l.find? (fun t => t.ip = ip) = some tptr) :
    l = before ip l ++ tptr :: (l.dropWhile fun t => t.ip ≠ ip).tail ∧ tptr.ip = ip := by
  unfold before
  induction l with
  | nil => cases found
  | cons t l ih =>
    by_cases here : t.ip = ip
    · rw [List.find?_cons_of_pos (by simpa using here)] at found
      obtain rfl := Option.some.inj found
      simp [here]
    · rw [List.find?_cons_of_neg (by simpa using here)] at found
      obtain ⟨split, same⟩ := ih found
      refine ⟨?_, same⟩
      simp only [ne_eq, here, not_false_eq_true, decide_true, List.takeWhile_cons_of_pos,
        List.dropWhile_cons_of_pos, List.cons_append]
      exact congrArg (t :: ·) split

theorem before_of_find (found : l.find? (fun t => t.ip = ip) = none) : before ip l = l := by
  rw [List.find?_eq_none] at found
  exact List.takeWhile_eq_self_iff.mpr fun t member => by simpa using found t member

theorem find_iff (once : (l.map aThrottle.ip).Nodup) :
    l.find? (fun t => t.ip = ip) = some tptr ↔ tptr ∈ l ∧ tptr.ip = ip := by
  refine ⟨fun found => ⟨List.mem_of_find?_eq_some found,
    by simpa using List.find?_some found⟩, fun ⟨member, same⟩ => ?_⟩
  cases found : l.find? fun t => t.ip = ip with
  | none => exact absurd same (by simpa using List.find?_eq_none.mp found tptr member)
  | some t =>
    have sameT : t.ip = ip := by simpa using List.find?_some found
    rw [List.inj_on_of_nodup_map once (List.mem_of_find?_eq_some found) member (sameT.trans same.symm)]

theorem Placed.recordOf_iff (placed : Placed throttles) :
    recordOf throttles ip = some tptr ↔ tptr ∈ throttles (checkHash ip) ∧ tptr.ip = ip :=
  find_iff (placed.nodup _)

theorem touch_ip : (limits.touch now remote tptr).1.ip = tptr.ip := by
  unfold ThrottleLimits.touch
  dsimp only
  split_ifs <;> rfl

theorem expired_iff :
    limits.expired now tptr = true ↔ tptr.last + limits.CheckClonesPeriod.toInt < now :=
  decide_eq_true_iff

theorem touch_last : (limits.touch now remote tptr).1.last = now := by
  unfold ThrottleLimits.touch
  dsimp only
  split_ifs <;> rfl

theorem touch_count : (limits.touch now remote tptr).1.count =
    if limits.expired now tptr then 1 else limits.nextCount tptr.count := by
  unfold ThrottleLimits.touch
  dsimp only
  split_ifs <;> rfl

/-- What `check_clones` leaves in the chain of an address that has a record. -/
theorem check_clones_of_some (nonzero : ip ≠ 0) (found : recordOf throttles ip = some tptr) :
    limits.check_clones throttles now ip remote =
      (Function.update throttles (checkHash ip)
        ((before ip (throttles (checkHash ip))).filter (fun t => !limits.expired now t) ++
          (limits.touch now remote tptr).1 ::
            ((throttles (checkHash ip)).dropWhile fun t => t.ip ≠ ip).tail),
        (limits.touch now remote tptr).2) := by
  have walked : (throttles (checkHash ip)).find? (fun t => t.ip = ip) = some tptr := found
  unfold ThrottleLimits.check_clones
  rw [if_neg nonzero]
  simp only [scan_eq, walked]

theorem check_clones_of_none (nonzero : ip ≠ 0) (absent : recordOf throttles ip = none) :
    limits.check_clones throttles now ip remote =
      (Function.update throttles (checkHash ip) (⟨ip, now, remote, 1⟩ ::
        (before ip (throttles (checkHash ip))).filter fun t => !limits.expired now t), false) := by
  have walked : (throttles (checkHash ip)).find? (fun t => t.ip = ip) = none := absent
  unfold ThrottleLimits.check_clones
  rw [if_neg nonzero]
  simp only [scan_eq, walked]

/-- The record that `check_clones` leaves for its address. -/
def ThrottleLimits.checked (limits : ThrottleLimits) (now : Int) (ip : Address) (remote : Option Text) :
    Option aThrottle → aThrottle
  | some tptr => (limits.touch now remote tptr).1
  | none => ⟨ip, now, remote, 1⟩

theorem check_clones_elsewhere {h : BitVec 8} (elsewhere : h ≠ checkHash ip) :
    (limits.check_clones throttles now ip remote).1 h = throttles h := by
  by_cases nonzero : ip = 0
  · rw [ThrottleLimits.check_clones, if_pos nonzero]
  · cases found : recordOf throttles ip with
    | none =>
      rw [check_clones_of_none nonzero found]
      exact Function.update_of_ne elsewhere ..
    | some tptr =>
      rw [check_clones_of_some nonzero found]
      exact Function.update_of_ne elsewhere ..

theorem Placed.mem_check_clones (placed : Placed throttles) (nonzero : ip ≠ 0) :
    tptr ∈ (limits.check_clones throttles now ip remote).1 (checkHash ip) ↔
      tptr = limits.checked now ip remote (recordOf throttles ip) ∨
        tptr ∈ throttles (checkHash ip) ∧ tptr.ip ≠ ip ∧
          ¬ (tptr ∈ before ip (throttles (checkHash ip)) ∧ limits.expired now tptr) := by
  cases found : recordOf throttles ip with
  | none =>
    have all := before_of_find found
    rw [check_clones_of_none nonzero found, all]
    dsimp only
    rw [Function.update_self]
    have foreign : ∀ t ∈ throttles (checkHash ip), t.ip ≠ ip :=
      fun t member => (mem_before (all.symm ▸ member)).2
    simp only [List.mem_cons, List.mem_filter, ThrottleLimits.checked]
    refine or_congr_right ⟨fun ⟨member, live⟩ => ⟨member, foreign _ member, ?_⟩,
      fun ⟨member, _, stays⟩ => ⟨member, ?_⟩⟩
    · simp_all
    · simp_all
  | some t =>
    rw [check_clones_of_some nonzero found]
    dsimp only
    rw [Function.update_self]
    obtain ⟨split, same⟩ := split_of_find found
    set kept := before ip (throttles (checkHash ip)) with kept_eq
    set behind := ((throttles (checkHash ip)).dropWhile fun t => t.ip ≠ ip).tail
    have once := placed.nodup (checkHash ip)
    rw [split, List.map_append, List.map_cons, List.nodup_append] at once
    have foreign : ∀ r ∈ behind, r.ip ≠ ip := fun r member same' =>
      (List.nodup_cons.mp once.2.1).1 (by rw [same, ← same']; exact List.mem_map_of_mem member)
    have apart : ∀ r ∈ behind, r ∉ kept := fun r member inside =>
      once.2.2 _ (List.mem_map_of_mem inside) _
        (List.mem_cons_of_mem _ (List.mem_map_of_mem member)) rfl
    have early : ∀ r ∈ kept, r.ip ≠ ip := fun r member => (mem_before member).2
    rw [split]
    simp only [List.mem_append, List.mem_cons, List.mem_filter, ThrottleLimits.checked]
    constructor
    · rintro (⟨inside, live⟩ | rfl | inside)
      · exact .inr ⟨.inl inside, early _ inside, fun gone => by simp [gone.2] at live⟩
      · exact .inl rfl
      · exact .inr ⟨.inr (.inr inside), foreign _ inside, fun both => apart _ inside both.1⟩
    · rintro (rfl | ⟨inside | rfl | inside, ne, stays⟩)
      · exact .inr (.inl rfl)
      · exact .inl ⟨inside, by simpa using fun gone => stays ⟨inside, gone⟩⟩
      · exact absurd same ne
      · exact .inr (.inr inside)

theorem checked_ip (found : recordOf throttles ip = found') :
    (limits.checked now ip remote found').ip = ip := by
  cases found' with
  | none => rfl
  | some t => exact touch_ip.trans (split_of_find found).2

theorem Placed.check_clones (placed : Placed throttles) :
    Placed (limits.check_clones throttles now ip remote).1 := by
  by_cases zero : ip = 0
  · rwa [ThrottleLimits.check_clones, if_pos zero]
  refine ⟨fun h tptr member => ?_, fun h => ?_⟩
  · by_cases here : h = checkHash ip
    · subst here
      rcases (placed.mem_check_clones zero).mp member with rfl | ⟨old, -⟩
      · rw [checked_ip rfl]
      · exact placed.hash _ _ old
    · rw [check_clones_elsewhere here] at member
      exact placed.hash h _ member
  · by_cases here : h = checkHash ip
    · subst here
      have once := placed.nodup (checkHash ip)
      cases found : recordOf throttles ip with
      | none =>
        rw [check_clones_of_none zero found, before_of_find found]
        dsimp only
        rw [Function.update_self, List.map_cons, List.nodup_cons]
        refine ⟨fun member => ?_, once.sublist (List.filter_sublist.map _)⟩
        obtain ⟨t, inside, same⟩ := List.mem_map.mp member
        have foreign := List.find?_eq_none.mp found t (List.mem_of_mem_filter inside)
        exact foreign (decide_eq_true same)
      | some t =>
        obtain ⟨split, same⟩ := split_of_find found
        rw [check_clones_of_some zero found]
        rw [split, List.map_append, List.map_cons] at once
        simp only [Function.update_self, List.map_append, List.map_cons, touch_ip]
        exact once.sublist ((List.filter_sublist.map _).append (List.Sublist.refl _))
    · rw [check_clones_elsewhere here]
      exact placed.nodup h

theorem Placed.recordOf_check_clones_self (placed : Placed throttles) (nonzero : ip ≠ 0) :
    recordOf (limits.check_clones throttles now ip remote).1 ip =
      some (limits.checked now ip remote (recordOf throttles ip)) :=
  placed.check_clones.recordOf_iff.mpr
    ⟨(placed.mem_check_clones nonzero).mpr (.inl rfl), checked_ip rfl⟩

theorem Placed.recordOf_check_clones_other (placed : Placed throttles) (ne : other ≠ ip) :
    recordOf (limits.check_clones throttles now ip remote).1 other = some tptr ↔
      recordOf throttles other = some tptr ∧ ¬ (ip ≠ 0 ∧
        tptr ∈ before ip (throttles (checkHash ip)) ∧ limits.expired now tptr) := by
  by_cases zero : ip = 0
  · simp [ThrottleLimits.check_clones, zero]
  rw [placed.check_clones.recordOf_iff, placed.recordOf_iff]
  by_cases here : checkHash other = checkHash ip
  · rw [here, placed.mem_check_clones zero]
    constructor
    · rintro ⟨rfl | ⟨old, -, stays⟩, same⟩
      · exact absurd ((checked_ip rfl).symm.trans same).symm ne
      · exact ⟨⟨old, same⟩, fun gone => stays gone.2⟩
    · rintro ⟨⟨old, same⟩, stays⟩
      exact ⟨.inr ⟨old, same ▸ ne, fun gone => stays ⟨zero, gone⟩⟩, same⟩
  · rw [check_clones_elsewhere here]
    refine ⟨fun ⟨member, same⟩ => ⟨⟨member, same⟩, fun gone => here ?_⟩, And.left⟩
    rw [← same, placed.hash _ _ (mem_before gone.2.1).1]

theorem uncount_ip (ptr : aThrottle) : ptr.uncount.ip = ptr.ip := by
  unfold aThrottle.uncount
  split_ifs <;> rfl

theorem removeCheck_eq (once : (l.map aThrottle.ip).Nodup) :
    removeCheck ip l = l.map fun ptr => if ptr.ip = ip then ptr.uncount else ptr := by
  induction l with
  | nil => rfl
  | cons ptr rest ih =>
    rw [List.map_cons, List.nodup_cons] at once
    unfold removeCheck
    by_cases here : ip = ptr.ip
    · have rest_eq : rest.map (fun t => if t.ip = ip then t.uncount else t) = rest := by
        refine (List.map_congr_left fun t member => if_neg fun same => once.1 ?_).trans (List.map_id _)
        exact (same.trans here) ▸ List.mem_map_of_mem member
      rw [if_pos here, List.map_cons, if_pos here.symm, rest_eq]
    · rw [if_neg here, List.map_cons, if_neg (Ne.symm here), ih once.2]

theorem find?_removeCheck (once : (l.map aThrottle.ip).Nodup) :
    (removeCheck ip l).find? (fun t => t.ip = other) =
      (l.find? fun t => t.ip = other).map fun ptr => if ptr.ip = ip then ptr.uncount else ptr := by
  rw [removeCheck_eq once, List.find?_map]
  refine congrArg (fun p => (List.find? p l).map _) (funext fun t => ?_)
  by_cases here : t.ip = ip <;> simp [here, uncount_ip]

theorem Placed.recordOf_remove (placed : Placed throttles) :
    recordOf (remove_clone_check throttles ip) other =
      if ip ≠ 0 ∧ other = ip ∧ removeHash ip = checkHash ip then
        (recordOf throttles ip).map aThrottle.uncount
      else recordOf throttles other := by
  unfold remove_clone_check
  by_cases zero : ip = 0
  · rw [if_pos zero, if_neg fun cond => cond.1 zero]
  rw [if_neg zero]
  by_cases here : removeHash ip = checkHash other
  · have walked : (removeCheck ip (throttles (checkHash other))).find? (fun t => t.ip = other) = _ :=
      find?_removeCheck (placed.nodup (checkHash other))
    unfold recordOf
    rw [here, Function.update_self, walked]
    cases found : (throttles (checkHash other)).find? fun t => t.ip = other with
    | none =>
      split_ifs with cond
      · rw [cond.2.1] at found
        rw [found]
        rfl
      · rfl
    | some t =>
      have same : t.ip = other := by simpa using List.find?_some found
      split_ifs with cond
      · rw [cond.2.1] at found
        simp [found, same.trans cond.2.1]
      · have ne : t.ip ≠ ip := fun eq => cond ⟨zero, same.symm.trans eq, by
          rw [same.symm.trans eq]⟩
        simp [ne]
  · have stays : ¬ (ip ≠ 0 ∧ other = ip ∧ removeHash ip = checkHash ip) :=
      fun ⟨_, same, agree⟩ => here (same ▸ agree)
    rw [if_neg stays]
    unfold recordOf
    rw [Function.update_of_ne (Ne.symm here)]

theorem Placed.remove_clone_check (placed : Placed throttles) :
    Placed (remove_clone_check throttles ip) := by
  unfold PtlinkIrcd.remove_clone_check
  split_ifs with zero
  · exact placed
  have ips : ((removeCheck ip (throttles (removeHash ip))).map aThrottle.ip) =
      (throttles (removeHash ip)).map aThrottle.ip := by
    rw [removeCheck_eq (placed.nodup _), List.map_map]
    refine List.map_congr_left fun t _ => ?_
    by_cases here : t.ip = ip <;> simp [here, uncount_ip]
  refine ⟨fun h tptr member => ?_, fun h => ?_⟩
  · by_cases here : h = removeHash ip
    · subst here
      rw [Function.update_self] at member
      have inIps := ips ▸ List.mem_map_of_mem (f := aThrottle.ip) member
      obtain ⟨t, old, same⟩ := List.mem_map.mp inIps
      rw [← same, placed.hash _ _ old]
    · rw [Function.update_of_ne here] at member
      exact placed.hash h _ member
  · by_cases here : h = removeHash ip
    · subst here
      rw [Function.update_self, ips]
      exact placed.nodup _
    · rw [Function.update_of_ne here]
      exact placed.nodup h

end Records

/-! ### Counts -/

section Counts

variable (limits : ThrottleLimits) {tptr : aThrottle} {now : Int} {remote : Option Text}

theorem toInt_nextCount (count : Int16) :
    (limits.nextCount count).toInt =
      if 0 ≤ count.toInt then
        if (if count.toInt = 32767 then -32768 else count.toInt + 1) = limits.CheckClonesLimit.toInt then -1
        else if count.toInt = 32767 then -32768 else count.toInt + 1
      else if count.toInt = -1 then -2
      else count.toInt := by
  have low := count.le_toInt
  have high := count.toInt_lt
  have next : 0 ≤ count.toInt → (count + 1).toInt =
      if count.toInt = 32767 then -32768 else count.toInt + 1 := by
    intro nonneg
    rw [Int16.toInt_add, show (1 : Int16).toInt = 1 from rfl]
    rw [Int.bmod_def]
    split_ifs <;> omega
  have isHit : count = THROTTLE_HITLIMIT ↔ count.toInt = -1 := by
    rw [← Int16.toInt_inj]
    rfl
  unfold ThrottleLimits.nextCount
  simp only [Int16.le_iff_toInt_le, show (0 : Int16).toInt = 0 from rfl]
  by_cases nonneg : 0 ≤ count.toInt
  · rw [if_pos nonneg, if_pos nonneg, next nonneg]
    by_cases hit : (if count.toInt = 32767 then -32768 else count.toInt + 1) =
        limits.CheckClonesLimit.toInt
    · rw [if_pos hit, if_pos hit]
      rfl
    · rw [if_neg hit, if_neg hit, next nonneg]
  · rw [if_neg nonneg, if_neg nonneg]
    by_cases hit : count = THROTTLE_HITLIMIT
    · rw [if_pos hit, if_pos (isHit.mp hit)]
      rfl
    · rw [if_neg hit, if_neg fun eq => hit (isHit.mpr eq)]

theorem toInt_uncount (ptr : aThrottle) :
    ptr.uncount.count.toInt = if 1 < ptr.count.toInt then ptr.count.toInt - 1 else ptr.count.toInt := by
  have low := ptr.count.le_toInt
  have high := ptr.count.toInt_lt
  unfold aThrottle.uncount
  simp only [Int16.lt_iff_toInt_lt, show (1 : Int16).toInt = 1 from rfl]
  split_ifs with many
  · show (ptr.count - 1).toInt = _
    rw [Int16.toInt_sub, show (1 : Int16).toInt = 1 from rfl]
    rw [Int.bmod_def]
    split_ifs <;> omega
  · rfl

/-- The count after so many attempts that follow a first one closely. -/
def ThrottleLimits.counted : Nat → Int16
  | 0 => 1
  | n + 1 => limits.nextCount (counted n)

theorem toInt_counted (n : Nat) :
    (limits.counted n).toInt =
      let limit := limits.CheckClonesLimit.toInt
      if 2 ≤ limit ∧ limit ≤ 32767 ∧ limit ≤ n + 1 then if limit = n + 1 then -1 else (-2 : Int)
      else if n < 32767 then (n + 1 : Int)
      else if limit = -32768 then if n = 32767 then -1 else -2
      else -32768 := by
  induction n with
  | zero =>
    show (1 : Int) = _
    dsimp only
    split_ifs <;> omega
  | succ n ih =>
    show (limits.nextCount (limits.counted n)).toInt = _
    rw [toInt_nextCount, ih]
    dsimp only
    generalize limits.CheckClonesLimit.toInt = limit
    push_cast
    split_ifs <;> omega

/-- When an attempt finds that its predecessors have reached the limit. -/
theorem counted_eq_hit_iff (n : Nat) :
    limits.counted n = THROTTLE_HITLIMIT ↔
      (n + 1 : Int) = limits.CheckClonesLimit.toInt ∧ 1 ≤ n ∧ n < 32767 ∨
        limits.CheckClonesLimit.toInt = -32768 ∧ n = 32767 := by
  rw [← Int16.toInt_inj, toInt_counted]
  show _ = (-1 : Int) ↔ _
  dsimp only
  generalize limits.CheckClonesLimit.toInt = limit
  split_ifs <;> omega

end Counts

/-! ### Undoing -/

section Undoing

variable (limits : ThrottleLimits) (throttles : Chains) (now : Int) (ip : Address)
variable (remote : Option Text)

def ThrottleLimits.undone : Chains :=
  remove_clone_check (limits.check_clones throttles now ip remote).1 ip

/-- The count of the address is as before, or its entry is not there or at zero when it was not there,
and no other entry has changed. -/
structure TakenBack : Prop where
  own : match recordOf throttles ip with
    | some tptr => (recordOf (limits.undone throttles now ip remote) ip).map aThrottle.count =
        some tptr.count
    | none => ∀ tptr, recordOf (limits.undone throttles now ip remote) ip = some tptr → tptr.count = 0
  others : ∀ other, other ≠ ip →
    recordOf (limits.undone throttles now ip remote) other = recordOf throttles other

/-- No record that has expired is in the way, and the record of the address has a count that the two
functions lead back to. -/
def Undoable : Prop :=
  ip = 0 ∨
    (∀ t ∈ before ip (throttles (checkHash ip)), limits.expired now t = false) ∧
      ∃ tptr, recordOf throttles ip = some tptr ∧
        if limits.expired now tptr then tptr.count = 1
        else if tptr.count < 0 then tptr.count ≠ THROTTLE_HITLIMIT
        else 1 ≤ tptr.count ∧ tptr.count < 32767 ∧
          (tptr.count + 1).toInt ≠ limits.CheckClonesLimit.toInt ∧ removeHash ip = checkHash ip

variable {limits throttles now ip remote}

/-- What `remove_clone_check` leaves of the record of its address. -/
def uncounted (ip : Address) (tptr : aThrottle) : aThrottle :=
  if removeHash ip = checkHash ip then tptr.uncount else tptr

theorem Placed.others_iff (placed : Placed throttles) (nonzero : ip ≠ 0) :
    (∀ other, other ≠ ip → recordOf (limits.undone throttles now ip remote) other =
      recordOf throttles other) ↔
        ∀ t ∈ before ip (throttles (checkHash ip)), limits.expired now t = false := by
  have same_after : ∀ {other}, other ≠ ip → recordOf (limits.undone throttles now ip remote) other =
      recordOf (limits.check_clones throttles now ip remote).1 other := by
    intro other ne
    rw [ThrottleLimits.undone, placed.check_clones.recordOf_remove, if_neg fun cond => ne cond.2.1]
  constructor
  · intro stay t member
    obtain ⟨inside, ne⟩ := mem_before member
    have found : recordOf throttles t.ip = some t :=
      placed.recordOf_iff.mpr ⟨(placed.hash _ _ inside).symm ▸ inside, rfl⟩
    have still := (same_after ne).symm.trans ((stay t.ip ne).trans found)
    have kept := ((placed.recordOf_check_clones_other ne).mp still).2
    exact Bool.eq_false_iff.mpr fun gone => kept ⟨nonzero, member, gone⟩
  · intro live other ne
    rw [same_after ne]
    ext t
    have kept : ¬ (ip ≠ 0 ∧ t ∈ before ip (throttles (checkHash ip)) ∧ limits.expired now t) :=
      fun gone => by simp [live t gone.2.1] at gone
    rw [placed.recordOf_check_clones_other ne, and_iff_left kept]

theorem Placed.recordOf_undone (placed : Placed throttles) (nonzero : ip ≠ 0) :
    recordOf (limits.undone throttles now ip remote) ip =
      some (uncounted ip (limits.checked now ip remote (recordOf throttles ip))) := by
  rw [ThrottleLimits.undone, placed.check_clones.recordOf_remove,
    placed.recordOf_check_clones_self nonzero]
  unfold uncounted
  by_cases agree : removeHash ip = checkHash ip
  · rw [if_pos ⟨nonzero, rfl, agree⟩]
    simp [agree]
  · rw [if_neg fun cond => agree cond.2.2]
    simp [agree]

theorem count_undone_iff (tptr : aThrottle) :
    (uncounted ip (limits.touch now remote tptr).1).count = tptr.count ↔
    if limits.expired now tptr then tptr.count = 1
    else if tptr.count < 0 then tptr.count ≠ THROTTLE_HITLIMIT
    else 1 ≤ tptr.count ∧ tptr.count < 32767 ∧
      (tptr.count + 1).toInt ≠ limits.CheckClonesLimit.toInt ∧ removeHash ip = checkHash ip := by
  have next : tptr.count.toInt < 32767 → (tptr.count + 1).toInt = tptr.count.toInt + 1 := by
    intro small
    have low := tptr.count.le_toInt
    rw [Int16.toInt_add, show (1 : Int16).toInt = 1 from rfl, Int.bmod_def]
    split_ifs <;> omega
  have high := tptr.count.toInt_lt
  have value : ∀ checked : aThrottle, (uncounted ip checked).count.toInt =
      if removeHash ip = checkHash ip ∧ 1 < checked.count.toInt then checked.count.toInt - 1
      else checked.count.toInt := by
    intro checked
    unfold uncounted
    by_cases agree : removeHash ip = checkHash ip
    · simp only [agree, true_and, if_true, toInt_uncount]
    · simp only [agree, false_and, if_false]
  simp only [← Int16.toInt_inj, value, touch_count, apply_ite Int16.toInt, toInt_nextCount, Int16.lt_iff_toInt_lt,
    Int16.le_iff_toInt_le, ne_eq, show (0 : Int16).toInt = 0 from rfl,
    show (1 : Int16).toInt = 1 from rfl, show (32767 : Int16).toInt = 32767 from rfl,
    show THROTTLE_HITLIMIT.toInt = -1 from rfl]
  cases limits.expired now tptr
  · simp only [Bool.false_eq_true, if_false]
    by_cases small : tptr.count.toInt < 32767
    · have sum := next small
      by_cases agree : removeHash ip = checkHash ip
      · simp only [agree, true_and, and_true]
        split_ifs <;> omega
      · simp only [agree, false_and, and_false, if_false]
        split_ifs <;> constructor <;> intro same <;>
          first | omega | exact same.elim
    · split_ifs <;> omega
  · simp only [if_true]
    split_ifs <;> omega

/-- **When `remove_clone_check` undoes `check_clones`**, for every table in order. -/
theorem remove_clone_check_undoes_iff (placed : Placed throttles) :
    TakenBack limits throttles now ip remote ↔ Undoable limits throttles now ip := by
  by_cases zero : ip = 0
  · have nothing : limits.undone throttles now ip remote = throttles := by
      rw [ThrottleLimits.undone, ThrottleLimits.check_clones, if_pos zero, remove_clone_check,
        if_pos zero]
    refine iff_of_true ⟨?_, fun other _ => by rw [nothing]⟩ (.inl zero)
    rw [nothing]
    cases found : recordOf throttles ip with
    | none => exact fun tptr same => by cases same
    | some tptr => rfl
  have split : TakenBack limits throttles now ip remote ↔ _ ∧ _ := ⟨fun h => ⟨h.1, h.2⟩, fun h => ⟨h.1, h.2⟩⟩
  rw [split, placed.others_iff zero, placed.recordOf_undone zero]
  unfold Undoable
  rw [or_iff_right zero, and_comm]
  refine and_congr_right fun _ => ?_
  cases found : recordOf throttles ip with
  | none =>
    refine iff_of_false (fun none_left => ?_) fun ⟨tptr, same, _⟩ => by cases same
    have fresh := none_left _ rfl
    unfold uncounted at fresh
    split_ifs at fresh <;> cases fresh
  | some tptr =>
    simp only [Option.map_some, Option.some.injEq, exists_eq_left']
    exact count_undone_iff tptr

/-- A second attempt, undone, from an address for which both functions look in the same chain. -/
theorem remove_clone_check_undoes_sample :
    TakenBack ⟨10, 60⟩ (ThrottleLimits.check_clones ⟨10, 60⟩ (fun _ => []) 0 0x7f#32 none).1 1 0x7f#32 none :=
  (remove_clone_check_undoes_iff (Placed.check_clones ⟨by simp, by simp⟩)).mpr
    (.inr ⟨by decide, _, rfl, by decide⟩)

/-- The second attempt from `1.1.0.0` stays counted. -/
theorem not_remove_clone_check_undoes :
    ¬ ∀ limits throttles now ip remote, Placed throttles → TakenBack limits throttles now ip remote := by
  intro undoes
  have undone : some (2 : Int16) = some 1 := (undoes ⟨10, 60⟩
    (ThrottleLimits.check_clones ⟨10, 60⟩ (fun _ => []) 0 0x101#32 none).1 1 0x101#32 none
     (Placed.check_clones ⟨by simp, by simp⟩)).own
  exact absurd undone (by decide)

end Undoing

/-! ### Sequences of attempts -/

/-- A connection attempt. -/
structure Attempt where
  time : Int
  ip : Address
  remote : Option Text

/-- The times of the attempts from an address, the latest first. -/
def timesOf (ip : Address) (attempts : List Attempt) : List Int :=
  (attempts.filter fun a => a.ip = ip).map Attempt.time

section Sequences

variable (limits : ThrottleLimits) {earlier : List Attempt} {a b : Attempt} {ip : Address}

/-- How many times there are before `now`, from the latest on, without a gap over the period. -/
def ThrottleLimits.close (limits : ThrottleLimits) : Int → List Int → Nat
  | _, [] => 0
  | now, last :: older =>
    if now - last ≤ limits.CheckClonesPeriod.toInt then limits.close last older + 1 else 0

/-- How many attempts from an address lead up to one at `now`. -/
def ThrottleLimits.streak (ip : Address) (now : Int) (earlier : List Attempt) : Nat :=
  limits.close now (timesOf ip earlier)

/-- The table after a sequence of attempts, the latest first. -/
def ThrottleLimits.after (limits : ThrottleLimits) : List Attempt → Chains
  | [] => fun _ => []
  | a :: earlier => (limits.check_clones (limits.after earlier) a.time a.ip a.remote).1

/-- What `check_clones` says of an attempt. -/
def ThrottleLimits.throttled (earlier : List Attempt) (a : Attempt) : Bool :=
  (limits.check_clones (limits.after earlier) a.time a.ip a.remote).2

/-- The attempt is throttled when its address has made as many attempts as the limit, and only then. -/
def ThrottleLimits.Answers (earlier : List Attempt) (a : Attempt) : Prop :=
  limits.throttled earlier a = true ↔
    limits.CheckClonesLimit.toInt ≤ limits.streak a.ip a.time earlier

/-- The record of an address is what its attempts make it, or it has expired. -/
def ThrottleLimits.Counts (attempts : List Attempt) (ip : Address) : List Int → Prop
  | [] => recordOf (limits.after attempts) ip = none
  | last :: older =>
    (∃ tptr, recordOf (limits.after attempts) ip = some tptr ∧ tptr.last = last ∧
      tptr.count = limits.counted (limits.close last older)) ∨
    recordOf (limits.after attempts) ip = none ∧
      ∃ a ∈ attempts, last + limits.CheckClonesPeriod.toInt < a.time

variable {limits}

theorem placed_after (attempts : List Attempt) : Placed (limits.after attempts) := by
  induction attempts with
  | nil => exact ⟨by simp [ThrottleLimits.after], by simp [ThrottleLimits.after]⟩
  | cons a earlier ih => exact ih.check_clones

theorem timesOf_cons_self : timesOf a.ip (a :: earlier) = a.time :: timesOf a.ip earlier := by
  simp [timesOf]

theorem timesOf_cons_other (other : a.ip ≠ ip) : timesOf ip (a :: earlier) = timesOf ip earlier := by
  simp [timesOf, other]

theorem ThrottleLimits.Counts.self (counts : limits.Counts earlier a.ip (timesOf a.ip earlier))
    (nonzero : a.ip ≠ 0) (order : ∀ b ∈ earlier, b.time ≤ a.time) :
    limits.Counts (a :: earlier) a.ip (timesOf a.ip (a :: earlier)) := by
  rw [timesOf_cons_self]
  refine .inl ⟨_, (placed_after earlier).recordOf_check_clones_self nonzero, ?_⟩
  cases times : timesOf a.ip earlier with
  | nil =>
    rw [times] at counts
    have absent : recordOf (limits.after earlier) a.ip = none := counts
    rw [absent]
    exact ⟨rfl, rfl⟩
  | cons last older =>
    rw [times] at counts
    rcases counts with ⟨tptr, found, rfl, count⟩ | ⟨absent, b, member, gone⟩
    · rw [found]
      refine ⟨touch_last, touch_count.trans ?_⟩
      unfold ThrottleLimits.close
      by_cases old : limits.expired a.time tptr = true
      · have gap := expired_iff.mp old
        rw [if_pos old, if_neg (by omega)]
        rfl
      · have gap := mt expired_iff.mpr old
        rw [if_neg old, if_pos (by omega), count]
        rfl
    · rw [absent]
      have late := order b member
      unfold ThrottleLimits.close
      rw [if_neg (by omega)]
      exact ⟨rfl, rfl⟩

theorem ThrottleLimits.Counts.other (counts : limits.Counts earlier ip (timesOf ip earlier))
    (other : a.ip ≠ ip) : limits.Counts (a :: earlier) ip (timesOf ip (a :: earlier)) := by
  have kept : ∀ tptr, recordOf (limits.after (a :: earlier)) ip = some tptr ↔ _ :=
    fun tptr => (placed_after earlier).recordOf_check_clones_other (Ne.symm other)
  rw [timesOf_cons_other other]
  have absent_stays : recordOf (limits.after earlier) ip = none →
      recordOf (limits.after (a :: earlier)) ip = none := by
    intro absent
    refine Option.eq_none_iff_forall_ne_some.mpr fun tptr found => ?_
    rw [((kept tptr).mp found).1] at absent
    cases absent
  cases times : timesOf ip earlier with
  | nil =>
    rw [times] at counts
    exact absent_stays counts
  | cons last older =>
    rw [times] at counts
    rcases counts with ⟨tptr, found, same, count⟩ | ⟨absent, b, member, gone⟩
    · cases now : recordOf (limits.after (a :: earlier)) ip with
      | some t =>
        obtain rfl := Option.some.inj (((kept t).mp now).1.symm.trans found)
        exact .inl ⟨t, now, same, count⟩
      | none =>
        refine .inr ⟨now, a, List.mem_cons_self, ?_⟩
        by_contra live
        have stays := (kept tptr).mpr ⟨found, fun gone => live ?_⟩
        · rw [now] at stays
          cases stays
        · exact same ▸ expired_iff.mp gone.2.2
    · exact .inr ⟨absent_stays absent, b, List.mem_cons_of_mem _ member, gone⟩

theorem counts_after {attempts : List Attempt} (order : attempts.Pairwise fun a b => b.time ≤ a.time)
    (nonzero : ip ≠ 0) : limits.Counts attempts ip (timesOf ip attempts) := by
  induction attempts with
  | nil => rfl
  | cons a earlier ih =>
    rw [List.pairwise_cons] at order
    by_cases here : a.ip = ip
    · subst here
      exact (ih order.2).self nonzero order.1
    · exact (ih order.2).other here

theorem throttled_iff (order : (a :: earlier).Pairwise fun a b => b.time ≤ a.time) :
    limits.throttled earlier a = true ↔ a.ip ≠ 0 ∧ ∃ n, limits.streak a.ip a.time earlier = n + 1 ∧
      limits.counted n = THROTTLE_HITLIMIT := by
  rw [List.pairwise_cons] at order
  unfold ThrottleLimits.throttled
  by_cases zero : a.ip = 0
  · simp [ThrottleLimits.check_clones, zero]
  have counts : limits.Counts earlier a.ip (timesOf a.ip earlier) := counts_after order.2 zero
  rw [and_iff_right zero]
  unfold ThrottleLimits.streak
  cases times : timesOf a.ip earlier with
  | nil =>
    rw [times] at counts
    rw [check_clones_of_none zero counts]
    exact iff_of_false (by simp) fun ⟨n, same, _⟩ => by cases same
  | cons last older =>
    rw [times] at counts
    unfold ThrottleLimits.close
    rcases counts with ⟨tptr, found, rfl, count⟩ | ⟨absent, b, member, gone⟩
    · rw [check_clones_of_some zero found]
      unfold ThrottleLimits.touch
      by_cases old : limits.expired a.time tptr = true
      · have gap := expired_iff.mp old
        rw [if_pos old, if_neg (by omega)]
        exact iff_of_false (by simp) fun ⟨n, same, _⟩ => by cases same
      · have gap := mt expired_iff.mpr old
        rw [if_neg old, if_pos (by omega)]
        simp [count]
    · rw [check_clones_of_none zero absent]
      have late := order.1 b member
      rw [if_neg (by omega)]
      exact iff_of_false (by simp) fun ⟨n, same, _⟩ => by cases same

/-- **When an attempt is answered as it should be**: the limit is not reached yet, or the attempt is
the first one over a limit that the records can count to. -/
theorem check_clones_answers_iff (order : (a :: earlier).Pairwise fun a b => b.time ≤ a.time) :
    limits.Answers earlier a ↔
      (limits.streak a.ip a.time earlier : Int) < limits.CheckClonesLimit.toInt ∨
        a.ip ≠ 0 ∧ (limits.streak a.ip a.time earlier = limits.CheckClonesLimit.toInt ∧
            2 ≤ limits.streak a.ip a.time earlier ∧ limits.streak a.ip a.time earlier ≤ 32767 ∨
          limits.streak a.ip a.time earlier = 32768 ∧ limits.CheckClonesLimit.toInt = -32768) := by
  unfold ThrottleLimits.Answers
  rw [throttled_iff order]
  simp only [counted_eq_hit_iff]
  generalize limits.streak a.ip a.time earlier = n
  generalize limits.CheckClonesLimit.toInt = limit
  by_cases zero : a.ip = 0
  · simp [zero]
  · simp only [ne_eq, zero, not_false_eq_true, true_and]
    constructor
    · intro same
      by_contra other
      obtain ⟨m, eq, hit⟩ := same.mpr (by omega)
      omega
    · intro fits
      refine ⟨fun ⟨m, eq, hit⟩ => by omega, fun reached => ⟨n - 1, by omega, by omega⟩⟩

/-- The first attempt over a limit of two. -/
theorem check_clones_answers_sample :
    ThrottleLimits.Answers ⟨2, 10⟩ [⟨0, 0x7f#32, none⟩, ⟨0, 0x7f#32, none⟩] ⟨0, 0x7f#32, none⟩ :=
  (check_clones_answers_iff (by simp)).mpr (.inr ⟨by decide, .inl (by decide)⟩)

/-- The next one is let in. -/
theorem not_check_clones_answers :
    ¬ ∀ (limits : ThrottleLimits) (earlier : List Attempt) (a : Attempt),
      (a :: earlier).Pairwise (fun a b => b.time ≤ a.time) → limits.Answers earlier a := by
  intro answers
  have refused := (answers ⟨2, 10⟩ (List.replicate 3 ⟨0, 0x7f#32, none⟩) ⟨0, 0x7f#32, none⟩
    (by simp)).mpr (by decide)
  exact absurd refused (by decide)

end Sequences

end PtlinkIrcd
