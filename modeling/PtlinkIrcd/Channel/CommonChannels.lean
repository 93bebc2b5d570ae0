/-
**What is told to those on common channels.**

The routines of `send.c` that tell the local users who share a channel with somebody: that he has another nick,
or that he leaves. On a channel with the mode `+q` a user who leaves in the normal way parts.

* `commonLoop` — the loops over the channels and their members, with the marks of `sentalong`.
* `sendto_common_channels`, `sendto_common_channels_quits`, `sendto_common_channels_part` — the routines.
* `toldFrom` — the members that are told; `commonLoop_snd` — the marks make each of them one.
* `leaving_told` — **for every state of the marks, who shares a channel with a user that leaves gets a PART of
  every common channel with `+q`, one QUIT exactly if there is another common channel, and nothing else; of a
  stealth user nobody else is told**.
* `nick_told` — **who shares a channel with a user that changes its nick is told once**.
-/

import PtlinkIrcd.Channel.Message
import PtlinkIrcd.Channel.Runs

namespace PtlinkIrcd

def Written.recipient : Written → Option ClientId
  | .line acptr _ => some acptr
  | .fakeDirection acptr => some acptr
  | .ghosted acptr => some acptr
  | .reply acptr _ _ => some acptr
  | .notice acptr _ => some acptr
  | .elsewhere _ => none
  | .unknownSource _ => none

namespace Ircd

variable (s : Ircd) (fd : ClientId → Option Nat)

/-! ### The routines -/

/-- The channels of a user, each with its members; `fd` is the descriptor of a client unless it is closed. -/
def commonPairs (user : ClientId) : List (ChannelId × ClientId) :=
  (s.client user).channels.flatMap fun chptr => (s.chan chptr).memberIds.map fun cptr => (chptr, cptr)

/-- The loops over the channels and over their members. -/
def commonLoop (skip : ChannelId → Bool) (write : ClientId → Written) :
    List (ChannelId × ClientId) → Serials → Serials × List Written
  | [], marks => (marks, [])
  | (chptr, cptr) :: rest, marks =>
    match fd cptr with
    | none => commonLoop skip write rest marks
    | some i =>
      if !(s.client cptr).myConnect || marks.marked i || skip chptr then commonLoop skip write rest marks
      else
        let (marks, written) := commonLoop skip write rest (marks.mark i)
        (marks, write cptr :: written)

/-- The descriptor of the user himself is marked before. -/
def markUser (user : ClientId) (marks : Serials) : Serials :=
  match fd user with
  | none => marks.next
  | some i => marks.next.mark i

/-- The user himself is told at the end. -/
def tellCommon (skip : ChannelId → Bool) (user : ClientId) (l : Utterance) (marks : Serials) :
    Serials × List Written :=
  let write := fun cptr => s.vsendto_prefix_one cptr user l
  let (marks, written) := s.commonLoop fd skip write (s.commonPairs user) (markUser fd user marks)
  (marks, if (s.client user).myConnect then written ++ [write user] else written)

def sendto_common_channels (user : ClientId) (l : Utterance) (marks : Serials) : Serials × List Written :=
  s.tellCommon fd (fun _ => false) user l marks

/-- A channel on which the user parts; `normalex` is `FLAGS_NORMALEX`. -/
def parts (normalex : Bool) (chptr : ChannelId) : Bool := (s.chan chptr).mode.mode.has MODE_NOQUITS && normalex

def sendto_common_channels_quits (normalex : Bool) (user : ClientId) (l : Utterance) (marks : Serials) :
    Serials × List Written :=
  s.tellCommon fd (s.parts normalex) user l marks

/-- `:nick PART channel :msg`. -/
def partLine (user : ClientId) (chptr : ChannelId) (msg : Text) : Utterance :=
  ⟨(s.client user).name, "PART", (s.chan chptr).chname, msg⟩

def sendto_common_channels_part (normalex : Bool) (user : ClientId) (msg : Text) : List Written :=
  (s.commonPairs user).filterMap fun (chptr, cptr) =>
    if !(s.client cptr).myConnect || (fd cptr).isNone then none
    else if !s.parts normalex chptr then none
    else some (s.vsendto_prefix_one cptr user (s.partLine user chptr msg))

/-- What `exit_one_client` has a user tell that leaves: the PARTs and the QUIT; a stealth user is told himself
if he is a local one. -/
def tellLeaving (normalex : Bool) (user : ClientId) (QModeMsg comment : Text) (marks : Serials) :
    Serials × List Written × List Written :=
  let x := s.client user
  if !x.isStealth then
    let parted := s.sendto_common_channels_part fd normalex user QModeMsg
    let (marks, quit) := s.sendto_common_channels_quits fd normalex user ⟨x.name, "QUIT", [], comment⟩ marks
    (marks, parted, quit)
  else (marks, [], if x.myClient then [.line user (Utterance.cut ⟨x.name, "QUIT", [], "Stealth mode"⟩)] else [])

/-! ### Who is told -/

/-- The members that the loops tell, where `seen` lists the marked descriptors. -/
def toldFrom (skip : ChannelId → Bool) : List Nat → List (ChannelId × ClientId) → List ClientId
  | _, [] => []
  | seen, (chptr, cptr) :: rest =>
    match fd cptr with
    | none => toldFrom skip seen rest
    | some i =>
      if !(s.client cptr).myConnect || decide (i ∈ seen) || skip chptr then toldFrom skip seen rest
      else cptr :: toldFrom skip (i :: seen) rest

theorem commonLoop_snd (skip : ChannelId → Bool) (write : ClientId → Written)
    (pairs : List (ChannelId × ClientId)) {seen : List Nat} {marks : Serials}
    (same : ∀ i, marks.marked i = decide (i ∈ seen)) :
    (s.commonLoop fd skip write pairs marks).2 = (s.toldFrom fd skip seen pairs).map write := by
  induction pairs generalizing seen marks with
  | nil => rfl
  | cons pair rest ih =>
    obtain ⟨chptr, cptr⟩ := pair
    unfold commonLoop toldFrom
    cases fd cptr with
    | none => exact ih same
    | some i =>
      dsimp only
      rw [same i]
      split
      · exact ih same
      · have marked : ∀ j, (marks.mark i).marked j = decide (j ∈ i :: seen) := fun j => by
          rw [Serials.marked_mark, same]
          simp only [List.mem_cons, Bool.decide_or]
        exact congrArg _ (ih marked)

/-- No two open connections have a descriptor. -/
def OwnFds : Prop := ∀ u v i, fd u = some i → fd v = some i → u = v

variable {s fd} {skip : ChannelId → Bool} {pairs : List (ChannelId × ClientId)} {seen : List Nat}

theorem mem_toldFrom (own : OwnFds fd) {v : ClientId} :
    v ∈ s.toldFrom fd skip seen pairs ↔ (s.client v).myConnect = true ∧ (∃ i, fd v = some i ∧ i ∉ seen) ∧
      ∃ chptr, (chptr, v) ∈ pairs ∧ skip chptr = false := by
  induction pairs generalizing seen with
  | nil => simp [toldFrom]
  | cons pair rest ih =>
    obtain ⟨chptr, cptr⟩ := pair
    unfold toldFrom
    cases open_ : fd cptr with
    | none =>
      dsimp only
      rw [ih]
      refine and_congr_right fun _ => and_congr_right fun ⟨i, has, _⟩ => ?_
      have other : v ≠ cptr := by
        rintro rfl
        exact absurd (open_.symm.trans has) (by simp)
      simp [other]
    | some i =>
      dsimp only
      split
      · rename_i passed
        rw [ih]
        refine and_congr_right fun mine => and_congr_right fun ⟨j, has, new⟩ => ?_
        have other : v = cptr → skip chptr = true := by
          rintro rfl
          obtain rfl := Option.some.inj (open_.symm.trans has)
          simpa [mine, new] using passed
        constructor
        · exact fun ⟨c, member, kept⟩ => ⟨c, List.mem_cons_of_mem _ member, kept⟩
        · rintro ⟨c, member, kept⟩
          obtain here | later := List.mem_cons.mp member
          · obtain ⟨rfl, rfl⟩ := Prod.mk.inj here
            exact absurd (other rfl) (by simp [kept])
          · exact ⟨c, later, kept⟩
      · rename_i told
        simp only [Bool.or_eq_true, Bool.not_eq_true', decide_eq_true_eq, not_or, Bool.not_eq_true,
          Bool.not_eq_false] at told
        obtain ⟨⟨mine, new⟩, kept⟩ := told
        rw [List.mem_cons]
        by_cases here : v = cptr
        · subst here
          exact iff_of_true (.inl rfl) ⟨mine, ⟨i, open_, new⟩, chptr, List.mem_cons_self, kept⟩
        · have unseen : (∃ j, fd v = some j ∧ j ∉ i :: seen) ↔ ∃ j, fd v = some j ∧ j ∉ seen := by
            refine exists_congr fun j => and_congr_right fun has => not_congr ?_
            have apart : j ≠ i := by
              rintro rfl
              exact here (own v cptr j has open_)
            simp [apart]
          rw [ih, unseen]
          simp [here]

theorem nodup_toldFrom (own : OwnFds fd) : (s.toldFrom fd skip seen pairs).Nodup := by
  induction pairs generalizing seen with
  | nil => exact List.nodup_nil
  | cons pair rest ih =>
    obtain ⟨chptr, cptr⟩ := pair
    unfold toldFrom
    cases open_ : fd cptr with
    | none => exact ih
    | some i =>
      dsimp only
      split
      · exact ih
      · refine List.nodup_cons.mpr ⟨fun again => ?_, ih⟩
        obtain ⟨-, ⟨j, has, new⟩, -⟩ := (mem_toldFrom own).mp again
        obtain rfl := Option.some.inj (open_.symm.trans has)
        exact new List.mem_cons_self

/-! ### What one of them reads -/

theorem recipient_vsendto_prefix_one (acptr source : ClientId) (l : Utterance) :
    (s.vsendto_prefix_one acptr source l).recipient = some acptr := by
  unfold vsendto_prefix_one
  dsimp only
  split
  · split <;> rfl
  · split <;> rfl

theorem mem_commonPairs {user v : ClientId} {chptr : ChannelId} :
    (chptr, v) ∈ s.commonPairs user ↔ chptr ∈ (s.client user).channels ∧ v ∈ (s.chan chptr).memberIds := by
  unfold commonPairs
  simp only [List.mem_flatMap, List.mem_map, Prod.mk.injEq]
  constructor
  · rintro ⟨c, member, w, inside, rfl, rfl⟩
    exact ⟨member, inside⟩
  · exact fun ⟨member, inside⟩ => ⟨chptr, member, v, inside, rfl, rfl⟩

/-- What is written for one of some clients, each of which gets at most one thing. -/
theorem filter_recipient {ids : List ClientId} {v : ClientId} (nodup : ids.Nodup)
    (write : ClientId → Option Written) (own : ∀ x w, write x = some w → w.recipient = some x) :
    (ids.filterMap write).filter (fun w => w.recipient = some v) = if v ∈ ids then (write v).toList else [] := by
  induction ids with
  | nil => rfl
  | cons x ids ih =>
    obtain ⟨out, nodup⟩ := List.nodup_cons.mp nodup
    have rest := ih nodup
    by_cases here : v = x
    · subst here
      rw [if_neg out] at rest
      rw [if_pos List.mem_cons_self, List.filterMap_cons]
      cases written : write v with
      | none => exact rest
      | some w =>
        have mine := own v w written
        rw [List.filter_cons, if_pos (decide_eq_true mine), rest]
        rfl
    · have same : v ∈ x :: ids ↔ v ∈ ids := by simp [here]
      simp only [same]
      rw [List.filterMap_cons]
      cases written : write x with
      | none => exact rest
      | some w =>
        have other : w.recipient ≠ some v := by
          rw [own x w written]
          exact fun same => here (Option.some.inj same).symm
        rw [List.filter_cons, if_neg (by simpa using other)]
        exact rest

theorem marked_markUser (user : ClientId) (marks : Serials) (i : Nat) :
    (markUser fd user marks).marked i = decide (i ∈ (fd user).toList) := by
  unfold markUser
  cases fd user with
  | none => simp
  | some j => simp

/-- **Who is told by the loops is told once.** -/
theorem filter_tellCommon (own : OwnFds fd) {user v : ClientId} (here : (s.client v).myConnect = true)
    (open_ : (fd v).isSome = true) (other : v ≠ user) (l : Utterance) (marks : Serials) :
    (s.tellCommon fd skip user l marks).2.filter (fun w => w.recipient = some v) =
      if ∃ chptr ∈ (s.client user).channels, v ∈ (s.chan chptr).memberIds ∧ skip chptr = false then
        [s.vsendto_prefix_one v user l] else [] := by
  have last : ∀ told : List Written,
      (if (s.client user).myConnect then told ++ [s.vsendto_prefix_one user user l] else told).filter
        (fun w => w.recipient = some v) = told.filter fun w => w.recipient = some v := by
    intro told
    split
    · rw [List.filter_append, List.filter_cons, recipient_vsendto_prefix_one,
        if_neg (by simpa using other.symm), List.filter_nil, List.append_nil]
    · rfl
  unfold tellCommon
  dsimp only
  rw [last, s.commonLoop_snd fd skip _ _ (marked_markUser user marks), ← List.filterMap_eq_map,
    filter_recipient (nodup_toldFrom own) _ (by
      rintro x w written
      rw [← Option.some.inj written]
      exact recipient_vsendto_prefix_one ..)]
  obtain ⟨i, has⟩ := Option.isSome_iff_exists.mp open_
  have new : i ∉ (fd user).toList := by
    rw [Option.mem_toList]
    exact fun same => other (own v user i has same)
  have told : v ∈ s.toldFrom fd skip (fd user).toList (s.commonPairs user) ↔
      ∃ chptr ∈ (s.client user).channels, v ∈ (s.chan chptr).memberIds ∧ skip chptr = false := by
    rw [mem_toldFrom own, and_iff_right here, and_iff_right ⟨i, has, new⟩]
    simp only [mem_commonPairs, and_assoc]
  simp only [told]
  rfl

theorem filter_part (linked : Lib.Incident (fun u => (s.client u).channels) fun c => (s.chan c).memberIds)
    {user v : ClientId} (here : (s.client v).myConnect = true) (open_ : (fd v).isSome = true) (normalex : Bool)
    (msg : Text) :
    (s.sendto_common_channels_part fd normalex user msg).filter (fun w => w.recipient = some v) =
      ((s.client user).channels.filter fun chptr =>
        s.parts normalex chptr && decide (v ∈ (s.chan chptr).memberIds)).map fun chptr =>
          s.vsendto_prefix_one v user (s.partLine user chptr msg) := by
  unfold sendto_common_channels_part commonPairs
  generalize (s.client user).channels = channels
  induction channels with
  | nil => rfl
  | cons chptr rest ih =>
    rw [List.flatMap_cons, List.filterMap_append, List.filter_append, ih, List.filterMap_map,
      filter_recipient (linked.right_nodup chptr) _ (by
        intro x w written
        dsimp only [Function.comp_apply] at written
        split at written
        · cases written
        · split at written
          · cases written
          · rw [← Option.some.inj written]
            exact recipient_vsendto_prefix_one ..)]
    have some_ : fd v ≠ none := Option.isSome_iff_ne_none.mp open_
    rw [List.filter_cons]
    cases parting : s.parts normalex chptr with
    | false => simp [parting]
    | true =>
      by_cases on : v ∈ (s.chan chptr).memberIds
      · simp [here, some_, parting, on]
      · simp [on]

/-! ### The announcements -/

/-- **A user leaves.** A local client on common channels gets one PART for each of them on which the user
parts, and one QUIT exactly if there is another one; if the user is a stealth one, it gets neither. -/
theorem leaving_told (linked : Lib.Incident (fun u => (s.client u).channels) fun c => (s.chan c).memberIds)
    (own : OwnFds fd) {user v : ClientId} (here : (s.client v).myConnect = true) (open_ : (fd v).isSome = true)
    (other : v ≠ user) (normalex : Bool) (QModeMsg comment : Text) (marks : Serials) :
    let told := (s.tellLeaving fd normalex user QModeMsg comment marks).2
    (told.1.filter (fun w => w.recipient = some v) =
        if (s.client user).isStealth then [] else
          ((s.client user).channels.filter fun chptr =>
            s.parts normalex chptr && decide (v ∈ (s.chan chptr).memberIds)).map fun chptr =>
              s.vsendto_prefix_one v user (s.partLine user chptr QModeMsg)) ∧
      told.2.filter (fun w => w.recipient = some v) =
        if (s.client user).isStealth = false ∧
            ∃ chptr ∈ (s.client user).channels, v ∈ (s.chan chptr).memberIds ∧ s.parts normalex chptr = false then
          [s.vsendto_prefix_one v user ⟨(s.client user).name, "QUIT", [], comment⟩] else [] := by
  unfold tellLeaving
  dsimp only
  cases stealth : (s.client user).isStealth with
  | false =>
    simp only [Bool.not_false, if_true, Bool.false_eq_true, if_false, true_and]
    exact ⟨filter_part linked here open_ normalex QModeMsg, filter_tellCommon own here open_ other _ marks⟩
  | true =>
    simp only [Bool.not_true, Bool.false_eq_true, if_false, if_true, reduceCtorEq, false_and]
    refine ⟨rfl, List.filter_eq_nil_iff.mpr fun w himself forV => ?_⟩
    split at himself
    · rw [List.mem_singleton.mp himself] at forV
      exact other (Option.some.inj (of_decide_eq_true forV)).symm
    · cases himself

def sampleFds (v : ClientId) : Option Nat := if v = 3 then some 5 else none

/-- A user of another server leaves, and the local user on its channel is told. -/
theorem leaving_told_crowd :
    (sampleCrowd.tellLeaving sampleFds true 2 [] "bye" .zero).2.2.filter (fun w => w.recipient = some 3) =
      [sampleCrowd.vsendto_prefix_one 3 2 ⟨"ann", "QUIT", [], "bye"⟩] := by
  have run : Run LeavesStealth sampleCrowd :=
    .step (.step (.step (.step (.step (.boot sampleConf 1000 "home") trivial) trivial) trivial) trivial) trivial
  have own : OwnFds sampleFds := fun u v i first second => by
    unfold sampleFds at first second
    split at first <;> split at second <;> simp_all
  have here : (sampleCrowd.client 3).myConnect = true := by decide +kernel
  have other : (3 : ClientId) ≠ 2 := by decide
  have told := (leaving_told (run_consistent run).incident own here rfl other true [] "bye" .zero).2
  rw [told, if_pos ⟨by decide +kernel, 1, by decide +kernel⟩]
  rfl

/-- **A user has another nick.** A local client is told once if there is a common channel, and not otherwise. -/
theorem nick_told (own : OwnFds fd) {user v : ClientId} (here : (s.client v).myConnect = true)
    (open_ : (fd v).isSome = true) (other : v ≠ user) (nick : Text) (marks : Serials) :
    (s.sendto_common_channels fd user ⟨(s.client user).name, "NICK", [], nick⟩ marks).2.filter
        (fun w => w.recipient = some v) =
      if ∃ chptr ∈ (s.client user).channels, v ∈ (s.chan chptr).memberIds then
        [s.vsendto_prefix_one v user ⟨(s.client user).name, "NICK", [], nick⟩] else [] := by
  unfold sendto_common_channels
  rw [filter_tellCommon own here open_ other]
  simp only [and_true]

end Ircd

end PtlinkIrcd
