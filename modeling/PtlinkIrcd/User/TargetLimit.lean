/-
**How fast a client may turn to new targets.**

`check_target_limit` of `m_message.c` keeps hashes of the last targets in an array, with the last one in
front, and the time from which a new target is allowed.

* `check_target_limit` — the function, on the array of hashes.
* `check_target_limit_old`, `check_target_limit_new` — a hash of the array, and another one.
* `targets_eq` — **the array holds the latest hashes that were let through, each once**.
* `bucket_after` — the time stamp is a bucket of tokens.
* `target_limit` — the array, and **at most `MAXTARGETS + 1 + span / TARGET_DELAY` new targets in any
  window of `span` seconds**.
-/

import PtlinkIrcd.Lib.Buckets
import PtlinkIrcd.Lib.Recency
import PtlinkIrcd.Model.Text

namespace PtlinkIrcd

open Lib (Bucket)
open Lib.Recency

def MAXTARGETS : Nat := 10

def TARGET_DELAY : Int := 128

/-! ### The function -/

/-- What the function keeps of a client. -/
structure Targeting where
  targets : List UInt8
  size : targets.length = MAXTARGETS
  nexttarget : Int
  since : Int
  zombie : Bool

/-- `CheckSpamOnTarget` and `is_spam`. -/
structure TargetEnv where
  CheckSpamOnTarget : Bool
  is_spam : Text → Bool

/-- A call: the time, the address of the target, its name, whether it was created by the message, and the
message. -/
structure TargetCall where
  now : Int
  target : Nat
  name : Text
  created : Bool
  fmsg : Text

/-- `ERR_TARGETTOOFAST` with the seconds to wait, and the notice to the operators. -/
inductive TargetNotice
  | toofast (name : Text) (wait : Int)
  | triggered
deriving DecidableEq

def targetHash (target : Nat) : UInt8 :=
  let tmp := (target &&& 0xffff00) >>> 8
  UInt8.ofNat ((tmp * tmp % 2 ^ 32) >>> 12)

def memmove (array : List UInt8) (dest src n : Nat) : List UInt8 :=
  array.mapIdx fun i byte => if dest ≤ i ∧ i < dest + n then array.getD (src + (i - dest)) byte else byte

theorem length_memmove (array : List UInt8) (dest src n : Nat) :
    (memmove array dest src n).length = array.length := List.length_mapIdx

/-- The first `p` hashes move up by one, and a hash comes to the front. -/
def Targeting.moveUp (sptr : Targeting) (p : Nat) (hash : UInt8) : Targeting :=
  { sptr with
    targets := (memmove sptr.targets 1 0 p).set 0 hash
    size := by rw [List.length_set, length_memmove, sptr.size] }

/-- `check_target_limit`: the client, whether there are too many targets, and what is sent. -/
def check_target_limit (env : TargetEnv) (sptr : Targeting) (call : TargetCall) :
    Targeting × Bool × List TargetNotice :=
  let hash := targetHash call.target
  if sptr.targets[0]? = some hash then (sptr, false, [])
  else
    match (List.range' 1 (MAXTARGETS - 1)).find? fun p => sptr.targets[p]? = some hash with
    | some p => (sptr.moveUp p hash, false, [])
    | none =>
      if call.created then (sptr.moveUp (MAXTARGETS - 1) hash, false, [])
      else if call.now < sptr.nexttarget then
        if sptr.nexttarget - call.now < TARGET_DELAY + 8 then
          let sptr := { sptr with nexttarget := sptr.nexttarget + 2, since := call.now + 10 }
          if env.CheckSpamOnTarget ∧ ('#' ∈ call.fmsg ∨ env.is_spam call.fmsg) then
            ({ sptr with zombie := true }, true, [.triggered])
          else (sptr, true, [.toofast call.name (sptr.nexttarget - call.now), .triggered])
        else (sptr, true, [])
      else
        let nexttarget := sptr.nexttarget + TARGET_DELAY
        let nexttarget :=
          if nexttarget < call.now - TARGET_DELAY * (MAXTARGETS - 1) then
            call.now - TARGET_DELAY * (MAXTARGETS - 1)
          else nexttarget
        ({ sptr with nexttarget }.moveUp (MAXTARGETS - 1) hash, false, [])

/-! ### One call -/

section

variable {env : TargetEnv} {sptr : Targeting} {call : TargetCall} {array : List UInt8} {hash : UInt8}

theorem set_memmove {p : Nat} (inside : p < array.length) (hash : UInt8) :
    (memmove array 1 0 p).set 0 hash = hash :: array.eraseIdx p := by
  apply List.ext_getElem?
  intro i
  cases i with
  | zero =>
    rw [List.getElem?_set, if_pos rfl, if_pos (by rw [length_memmove]; omega), List.getElem?_cons_zero]
  | succ i =>
    rw [List.getElem?_set, if_neg (by omega), List.getElem?_cons_succ, memmove, List.getElem?_mapIdx,
      List.getElem?_eraseIdx]
    by_cases before : i < p
    · have room : i + 1 < array.length := by omega
      have some_ : array[i + 1]? = some array[i + 1] := List.getElem?_eq_getElem room
      rw [some_, if_pos before, Option.map_some, if_pos (by omega), Nat.zero_add, Nat.add_sub_cancel,
        List.getD_eq_getElem?_getD, List.getElem?_eq_getElem (by omega : i < array.length), Option.getD_some]
    · rw [if_neg before]
      cases array[i + 1]? with
      | none => rfl
      | some byte => rw [Option.map_some, if_neg (by omega)]

theorem targets_moveUp {p : Nat} (inside : p < MAXTARGETS) :
    (sptr.moveUp p hash).targets = hash :: sptr.targets.eraseIdx p :=
  set_memmove (sptr.size.symm ▸ inside) hash

/-- The hash of the target is in the array. -/
def KnownTarget (sptr : Targeting) (call : TargetCall) : Prop := targetHash call.target ∈ sptr.targets

instance (sptr : Targeting) (call : TargetCall) : Decidable (KnownTarget sptr call) :=
  inferInstanceAs (Decidable (_ ∈ _))

/-- **A hash of the array** goes to the front, and nothing else changes. -/
theorem check_target_limit_old (known : KnownTarget sptr call) :
    (check_target_limit env sptr call).2.1 = false ∧
      (check_target_limit env sptr call).1.targets = touch (targetHash call.target) sptr.targets ∧
        (check_target_limit env sptr call).1.nexttarget = sptr.nexttarget := by
  have member : targetHash call.target ∈ sptr.targets := known
  unfold check_target_limit touch
  dsimp only
  rw [if_pos member]
  by_cases first : sptr.targets[0]? = some (targetHash call.target)
  · rw [if_pos first]
    refine ⟨rfl, ?_, rfl⟩
    obtain ⟨rest, same⟩ : ∃ rest, sptr.targets = targetHash call.target :: rest := by
      cases list : sptr.targets with
      | nil => rw [list] at first; cases first
      | cons hash rest =>
        rw [list] at first
        exact ⟨rest, congrArg (· :: rest) (Option.some.inj first)⟩
    rw [same, List.erase_cons_head]
  · rw [if_neg first]
    -- the place at which the loop stops is the first one with the hash
    have place := List.idxOf_lt_length_iff.mpr known
    have there : sptr.targets[sptr.targets.idxOf (targetHash call.target)]? = some (targetHash call.target) :=
      List.getElem?_eq_some_iff.mpr ⟨place, List.getElem_idxOf place⟩
    have later : 1 ≤ sptr.targets.idxOf (targetHash call.target) := by
      by_contra front
      rw [Nat.lt_one_iff.mp (Nat.not_le.mp front)] at there
      exact first there
    have found : (List.range' 1 (MAXTARGETS - 1)).find? (fun p => sptr.targets[p]? =
        some (targetHash call.target)) = some (sptr.targets.idxOf (targetHash call.target)) := by
      rw [List.find?_range'_eq_some]
      refine ⟨by simpa using there, ?_, fun p after before => ?_⟩
      · rw [List.mem_range'_1]
        have size := sptr.size
        exact ⟨later, by omega⟩
      · have other := List.not_of_lt_findIdx before
        simp only [Bool.not_eq_true', decide_eq_false_iff_not]
        intro same
        obtain ⟨inside, same⟩ := List.getElem?_eq_some_iff.mp same
        simp [same] at other
    rw [found]
    refine ⟨rfl, ?_, rfl⟩
    dsimp only
    rw [targets_moveUp (sptr.size ▸ place), List.erase_eq_eraseIdx_of_idxOf rfl]

/-- **Another hash** is let through, or nothing but the time changes. -/
theorem check_target_limit_new (unknown : ¬ KnownTarget sptr call) :
    ((check_target_limit env sptr call).2.1 = false ∧
      (check_target_limit env sptr call).1.targets = touch (targetHash call.target) sptr.targets ∧
        (call.created = true ∧ (check_target_limit env sptr call).1.nexttarget = sptr.nexttarget ∨
          call.created = false ∧ sptr.nexttarget ≤ call.now ∧
            (check_target_limit env sptr call).1.nexttarget = max (sptr.nexttarget + TARGET_DELAY)
              (call.now - TARGET_DELAY * (MAXTARGETS - 1 : Nat)))) ∨
    (check_target_limit env sptr call).2.1 = true ∧
      (check_target_limit env sptr call).1.targets = sptr.targets ∧
        sptr.nexttarget ≤ (check_target_limit env sptr call).1.nexttarget := by
  have nowhere : ∀ p, sptr.targets[p]? ≠ some (targetHash call.target) := fun p same =>
    unknown (List.mem_of_getElem? same)
  have missed : (List.range' 1 (MAXTARGETS - 1)).find? (fun p => sptr.targets[p]? =
      some (targetHash call.target)) = none := by
    rw [List.find?_eq_none]
    exact fun p _ same => nowhere p (by simpa using same)
  have pushed : ∀ s : Targeting, s.targets = sptr.targets →
      (s.moveUp (MAXTARGETS - 1) (targetHash call.target)).targets =
        touch (targetHash call.target) sptr.targets := by
    intro s same
    have outside : targetHash call.target ∉ sptr.targets := unknown
    rw [targets_moveUp (by decide), same, touch, if_neg outside,
      List.eraseIdx_eq_dropLast (by rw [sptr.size]; decide)]
  unfold check_target_limit
  dsimp only
  rw [if_neg (nowhere 0), missed]
  dsimp only
  by_cases created : call.created = true
  · rw [if_pos created]
    exact .inl ⟨rfl, pushed sptr rfl, .inl ⟨created, rfl⟩⟩
  · rw [if_neg created]
    by_cases early : call.now < sptr.nexttarget
    · rw [if_pos early]
      refine .inr ?_
      split_ifs
      · exact ⟨rfl, rfl, by dsimp only; omega⟩
      · exact ⟨rfl, rfl, by dsimp only; omega⟩
      · exact ⟨rfl, rfl, le_rfl⟩
    · rw [if_neg early]
      refine .inl ⟨rfl, pushed _ rfl, .inr ⟨by simpa using created, Int.not_lt.mp early, ?_⟩⟩
      show (if _ then _ else _) = _
      have depth : ((MAXTARGETS - 1 : Nat) : Int) = (MAXTARGETS : Int) - 1 := rfl
      rw [depth]
      split_ifs with back
      · exact (max_eq_right back.le).symm
      · exact (max_eq_left (Int.not_lt.mp back)).symm

end

/-! ### A sequence of calls -/

/-- The client behind a sequence of calls. -/
def afterCalls (env : TargetEnv) (sptr : Targeting) : List TargetCall → Targeting
  | [] => sptr
  | call :: calls => afterCalls env (check_target_limit env sptr call).1 calls

def accepted (env : TargetEnv) (sptr : Targeting) : List TargetCall → List TargetCall
  | [] => []
  | call :: calls =>
    let rest := accepted env (check_target_limit env sptr call).1 calls
    if (check_target_limit env sptr call).2.1 then rest else call :: rest

/-- The calls that are let through for a target that is not in the array and was not created. -/
def acceptedNew (env : TargetEnv) (sptr : Targeting) : List TargetCall → List TargetCall
  | [] => []
  | call :: calls =>
    let rest := acceptedNew env (check_target_limit env sptr call).1 calls
    if (check_target_limit env sptr call).2.1 = false ∧ ¬ KnownTarget sptr call ∧ call.created = false then
      call :: rest
    else rest

/-- The hashes of a list of calls, the latest first. -/
def latestHashes (calls : List TargetCall) : List UInt8 :=
  (calls.map fun call => targetHash call.target).reverse

section

variable (env : TargetEnv) (sptr : Targeting) (calls : List TargetCall)

/-- **The array holds the latest hashes**, with the ones of `history` before these calls. -/
theorem targets_eq (history : List UInt8) (held : sptr.targets = padded MAXTARGETS 0 (recents history)) :
    (afterCalls env sptr calls).targets =
      padded MAXTARGETS 0 (recents (latestHashes (accepted env sptr calls) ++ history)) := by
  induction calls generalizing sptr history with
  | nil => exact held
  | cons call calls ih =>
    unfold afterCalls accepted
    dsimp only
    have moved : ∀ sptr' : Targeting, sptr'.targets = touch (targetHash call.target) sptr.targets →
        sptr'.targets = padded MAXTARGETS 0 (recents (targetHash call.target :: history)) := by
      intro sptr' touched
      rw [touched, held]
      exact touch_padded _ _ _
    have later : ∀ passed : List TargetCall, latestHashes (call :: passed) ++ history =
        latestHashes passed ++ targetHash call.target :: history := by
      intro passed
      rw [latestHashes, List.map_cons, List.reverse_cons, List.append_assoc]
      rfl
    by_cases known : KnownTarget sptr call
    · obtain ⟨passed, touched, -⟩ := @check_target_limit_old env _ _ known
      rw [if_neg (by rw [passed]; exact Bool.false_ne_true), later]
      exact ih _ _ (moved _ touched)
    · rcases @check_target_limit_new env _ _ known with ⟨passed, touched, -⟩ | ⟨refused, same, -⟩
      · rw [if_neg (by rw [passed]; exact Bool.false_ne_true), later]
        exact ih _ _ (moved _ touched)
      · rw [if_pos refused]
        exact ih _ _ (same.trans held)

/-- **The time stamp is a bucket of tokens** that the new targets are taken from. -/
theorem bucket_after : Bucket TARGET_DELAY (MAXTARGETS - 1) sptr.nexttarget
    ((acceptedNew env sptr calls).map TargetCall.now) (afterCalls env sptr calls).nexttarget := by
  induction calls generalizing sptr with
  | nil => exact .nil _
  | cons call calls ih =>
    unfold afterCalls acceptedNew
    dsimp only
    have rest := ih (check_target_limit env sptr call).1
    by_cases known : KnownTarget sptr call
    · obtain ⟨-, -, same⟩ := @check_target_limit_old env _ _ known
      rw [if_neg fun new => new.2.1 known]
      rwa [same] at rest
    · rcases @check_target_limit_new env _ _ known with
        ⟨passed, -, ⟨created, same⟩ | ⟨created, come, stamped⟩⟩ | ⟨refused, -, later⟩
      · rw [if_neg fun new => by rw [created] at new; exact Bool.noConfusion new.2.2]
        rwa [same] at rest
      · rw [if_pos ⟨passed, known, created⟩, List.map_cons]
        rw [stamped] at rest
        exact .pass come rest
      · rw [if_neg fun new => by rw [refused] at new; exact Bool.noConfusion new.1]
        exact .raise later rest

/-- **The latest targets, and how many new ones in a window of time**, after any calls of a client that has
had no target. -/
theorem target_limit (fresh : sptr.targets = List.replicate MAXTARGETS 0) :
    (afterCalls env sptr calls).targets =
        padded MAXTARGETS 0 (recents (latestHashes (accepted env sptr calls))) ∧
      ∀ (start : Int) (span : Nat),
        ((acceptedNew env sptr calls).countP fun call => start ≤ call.now ∧ call.now ≤ start + span : Int) ≤
          MAXTARGETS + 1 + span / TARGET_DELAY := by
  constructor
  · have latest := targets_eq env sptr calls [] fresh
    rwa [List.append_nil] at latest
  · intro start span
    have few := (bucket_after env sptr calls).countP_window_le (by decide) start span
    rw [List.countP_map] at few
    exact few

/-- A client with its first targets, one of them twice. -/
theorem target_limit_first :
    let env : TargetEnv := { CheckSpamOnTarget := false, is_spam := fun _ => false }
    let sptr : Targeting :=
      { targets := List.replicate MAXTARGETS 0, size := rfl, nexttarget := 0, since := 0, zombie := false }
    let calls : List TargetCall :=
      [0x123400, 0x567800, 0x123400].map fun target =>
        { now := 1000, target, name := [], created := false, fmsg := [] }
    sptr.targets = List.replicate MAXTARGETS 0 ∧
      (afterCalls env sptr calls).targets =
        padded MAXTARGETS 0 (recents (latestHashes (accepted env sptr calls))) := by
  intro env sptr calls
  exact ⟨rfl, (target_limit env sptr calls rfl).1⟩

end

end PtlinkIrcd
