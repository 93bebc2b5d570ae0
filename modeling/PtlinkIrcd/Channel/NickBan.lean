/-
**Bans on nicks.**

`add_banid` notes in a ban that it is one on a nick, `P!*@*`, and `nick_is_banned` asks only those. The
block of a ban is not cleared: the note of another ban is what the memory held.

* `TypedBan`, `TypedIrcd` — the bans with their notes.
* `nickMask` — what a ban on a nick is a mask of; `nick_mask_matches_iff` — it matches `nick!*@*` as
  `P` matches the nick.
* `TypedIrcd.calls` — bans added and deleted one after the other.
* `nick_is_banned_iff` — **the answer is right unless a ban of another kind matches whose memory held
  the note by chance**.
-/

import PtlinkIrcd.Channel.Runs
import PtlinkIrcd.Channel.SetMode
import PtlinkIrcd.Model.Match

namespace PtlinkIrcd

open Lib

/-! ### Masks of nicks -/

def BAN_NICK : Int32 := 1

/-- `P` for a mask `P!*@*`. -/
def nickMask (banid : Text) : Option Text :=
  if (banid.dropWhile (· ≠ '!')) = "!*@*" then some (banid.takeWhile (· ≠ '!')) else none

/-- What `nick_is_banned` compares with: `%s!*@*`. -/
def nickName (nick : Text) : Text := nick ++ "!*@*"

theorem nickMask_eq_some {banid mask : Text} :
    nickMask banid = some mask ↔ banid = mask ++ "!*@*" ∧ '!' ∉ mask := by
  unfold nickMask
  constructor
  · intro found
    split at found
    · rename_i shape
      obtain rfl := Option.some.inj found
      refine ⟨?_, fun bang => absurd (List.mem_takeWhile_imp bang) (by decide)⟩
      rw [← shape, List.takeWhile_append_dropWhile]
    · cases found
  · rintro ⟨rfl, none_⟩
    have plain : ∀ c ∈ mask, decide (c ≠ '!') = true := fun c member =>
      decide_eq_true (ne_of_mem_of_not_mem member none_)
    rw [List.dropWhile_append_of_pos plain, List.takeWhile_append_of_pos plain]
    rw [if_pos (by decide)]
    exact congrArg some (List.append_nil mask)

theorem toLower_bang {c : Char} (same : toLower '!' = toLower c) : c = '!' := by
  have number := congrArg Char.toNat same
  rw [toLower_toNat, toLower_toNat] at number
  have bang : '!'.toNat = 33 := rfl
  apply Char.toNat_inj.mp
  split_ifs at number <;> omega

/-- **A mask of a nick matches as its nick does.** -/
theorem nick_mask_matches_iff {mask nick : Text} (none_ : '!' ∉ nick) :
    MaskMatches (mask ++ "!*@*") (nickName nick) ↔ MaskMatches mask nick := by
  unfold MaskMatches nickName
  rw [glob_append]
  constructor
  · rintro ⟨run, rest, split, first, second⟩
    cases rest with
    | nil => exact absurd second (not_glob_nil (by decide))
    | cons c rest =>
      obtain ⟨fit, -⟩ := (glob_cons (by decide)).mp second
      obtain rfl : c = '!' := toLower_bang (fit.resolve_left (by decide))
      have bangs := congrArg (List.count '!') split
      rw [List.count_append, List.count_append, List.count_eq_zero_of_not_mem none_,
        List.count_cons_self] at bangs
      have one : List.count '!' ("!*@*" : Text) = 1 := by decide
      rw [one] at bangs
      have again : '!' ∉ run := List.count_eq_zero.mp (by omega)
      have whole : ∀ {t u : Text}, '!' ∉ t → (t ++ '!' :: u).takeWhile (· ≠ '!') = t := by
        intro t u plain
        rw [List.takeWhile_append_of_pos fun d member =>
          decide_eq_true (ne_of_mem_of_not_mem member plain), List.takeWhile_cons_of_neg (by decide),
          List.append_nil]
      have same := congrArg (List.takeWhile (· ≠ '!')) split
      rw [whole again] at same
      have nick_ : (nick ++ ("!*@*" : Text)).takeWhile (· ≠ '!') = nick := whole none_
      rw [nick_] at same
      rw [same]
      exact first
  · exact fun first => ⟨nick, "!*@*", rfl, first, (by decide : MaskMatches "!*@*" "!*@*")⟩

/-! ### Bans with their notes -/

/-- `struct Ban` with its `bantype`. -/
structure TypedBan where
  ban : Ban
  bantype : Int32
  deriving DecidableEq

/-- The note that `add_banid` leaves in a block, of which the memory held another one. -/
def bantypeOf (memory : Int32) (banid : Text) : Int32 :=
  match banid.dropWhile (· ≠ '!') with
  | _ :: rest => if rest = "*@*" then BAN_NICK else memory
  | [] => memory

theorem bantypeOf_eq (memory : Int32) (banid : Text) :
    bantypeOf memory banid = if (nickMask banid).isSome then BAN_NICK else memory := by
  unfold bantypeOf nickMask
  cases start : banid.dropWhile (· ≠ '!') with
  | nil => rfl
  | cons c rest =>
    have bang : c = '!' := by
      have head := List.head?_dropWhile_not (· ≠ '!') banid
      rw [start] at head
      simpa using head
    have shape : c :: rest = ("!*@*" : Text) ↔ rest = "*@*" := by
      rw [bang]
      exact ⟨fun same => (List.cons.inj same).2, fun same => by rw [same]; rfl⟩
    simp only [shape]
    split <;> rfl

/-- A state whose bans have their notes. -/
structure TypedIrcd where
  s : Ircd
  banlist : ChannelId → List TypedBan
  same : ∀ chptr, (banlist chptr).map TypedBan.ban = (s.chan chptr).banlist

namespace TypedIrcd

variable (t : TypedIrcd)

/-- The ban that `add_banid` makes. -/
def newBan (cptr : ClientId) (banid : Text) : Ban :=
  let x := t.s.client cptr
  ⟨if x.myClient then collapse banid else banid,
    if x.isPerson then line [x.name, "!", x.username, "@", x.host] else x.name, t.s.now⟩

theorem banlist_add_banid (s : Ircd) (cptr : ClientId) (chptr : ChannelId) (banid : Text)
    (t : TypedIrcd) (here : t.s = s) (d : ChannelId) :
    ((s.add_banid cptr chptr banid).1.chan d).banlist =
      if d = chptr ∧ (s.add_banid cptr chptr banid).2 = true then
        t.newBan cptr banid :: (s.chan d).banlist
      else (s.chan d).banlist := by
  subst here
  unfold Ircd.add_banid newBan
  simp only []
  generalize (if (t.s.client cptr).myClient = true then collapse banid else banid) = stored
  generalize (if (t.s.client cptr).isPerson = true then
    line [(t.s.client cptr).name, "!", (t.s.client cptr).username, "@", (t.s.client cptr).host]
      else (t.s.client cptr).name) = who
  split
  · rw [if_neg (by simp)]
    rfl
  · split
    · rw [if_neg (by simp)]
    · by_cases at_ : d = chptr
      · rw [at_, if_pos ⟨rfl, rfl⟩]
        simp only [Ircd.setChan_chan_self]
      · rw [if_neg fun both => at_ both.1]
        simp only [Ircd.setChan_chan_of_ne _ _ at_]

/-- `add_banid`, with what the memory of the block held. -/
def add_banid (cptr : ClientId) (chptr : ChannelId) (banid : Text) (memory : Int32) : TypedIrcd where
  s := (t.s.add_banid cptr chptr banid).1
  banlist d :=
    if d = chptr ∧ (t.s.add_banid cptr chptr banid).2 = true then
      ⟨t.newBan cptr banid, bantypeOf memory (t.newBan cptr banid).banstr⟩ :: t.banlist d
    else t.banlist d
  same d := by
    rw [banlist_add_banid _ _ _ _ t rfl, ← t.same d]
    split <;> rfl

theorem banlist_del_banid (s : Ircd) (chptr : ChannelId) (banid : Text) (d : ChannelId) :
    ((s.del_banid chptr banid).1.chan d).banlist =
      if d = chptr then (s.chan d).banlist.eraseP fun ban => irccmp banid ban.banstr = 0
      else (s.chan d).banlist := by
  unfold Ircd.del_banid
  simp only []
  split
  · by_cases at_ : d = chptr
    · rw [at_, if_pos rfl, Ircd.setChan_chan_self]
    · rw [if_neg at_, Ircd.setChan_chan_of_ne _ _ at_]
  · rename_i none_
    split
    · rename_i at_
      rw [at_, List.eraseP_of_forall_not fun ban member found =>
        none_ (List.any_eq_true.mpr ⟨ban, member, found⟩)]
    · rfl

def del_banid (chptr : ChannelId) (banid : Text) : TypedIrcd where
  s := (t.s.del_banid chptr banid).1
  banlist d :=
    if d = chptr then (t.banlist d).eraseP fun b => irccmp banid b.ban.banstr = 0 else t.banlist d
  same d := by
    rw [banlist_del_banid, ← t.same d]
    split
    · rw [List.eraseP_map]
      rfl
    · rfl

def nick_is_banned (chptr : ChannelId) (nick : Text) (cptr : ClientId) : Bool :=
  (t.s.client cptr).isPerson &&
    (t.banlist chptr).any fun b => b.bantype = BAN_NICK && ircMatch b.ban.banstr (nickName nick)

end TypedIrcd

/-! ### Calls one after the other -/

/-- A call of `add_banid`, with what the memory of the block holds, or of `del_banid`. -/
inductive BanCall
  | add (cptr : ClientId) (banid : Text) (memory : Int32)
  | del (banid : Text)

namespace TypedIrcd

variable (t : TypedIrcd)

def call (chptr : ChannelId) (t : TypedIrcd) : BanCall → TypedIrcd
  | .add cptr banid memory => t.add_banid cptr chptr banid memory
  | .del banid => t.del_banid chptr banid

def calls (chptr : ChannelId) (calls : List BanCall) : TypedIrcd := calls.foldl (call chptr) t

/-- **What a call leaves of a property of all bans** that a new ban has. -/
theorem forall_call {P : TypedBan → Prop} {chptr : ChannelId} {t : TypedIrcd} {c : BanCall}
    (new : ∀ cptr banid memory, c = .add cptr banid memory →
      P ⟨t.newBan cptr banid, bantypeOf memory (t.newBan cptr banid).banstr⟩)
    (before : ∀ b ∈ t.banlist chptr, P b) : ∀ b ∈ (t.call chptr c).banlist chptr, P b := by
  intro b member
  cases c with
  | add cptr banid memory =>
    unfold call add_banid at member
    simp only [] at member
    split at member
    · rcases List.mem_cons.mp member with rfl | old
      · exact new cptr banid memory rfl
      · exact before b old
    · exact before b member
  | del banid =>
    unfold call del_banid at member
    simp only [if_true] at member
    exact before b (List.mem_of_mem_eraseP member)

theorem forall_calls {P : TypedBan → Prop} {chptr : ChannelId} {list : List BanCall}
    (new : ∀ (t : TypedIrcd) cptr banid memory, .add cptr banid memory ∈ list →
      P ⟨t.newBan cptr banid, bantypeOf memory (t.newBan cptr banid).banstr⟩)
    (before : ∀ b ∈ t.banlist chptr, P b) : ∀ b ∈ (t.calls chptr list).banlist chptr, P b := by
  induction list generalizing t with
  | nil => exact before
  | cons c list ih =>
    refine ih (t.call chptr c) (fun t cptr banid memory member =>
      new t cptr banid memory (List.mem_cons_of_mem c member)) ?_
    refine forall_call (fun cptr banid memory same => ?_) before
    exact new t cptr banid memory (by rw [same]; exact List.mem_cons_self)

/-! ### What is reported -/

/-- **A ban on a nick** is stored that matches this one. -/
def NickBanned (chptr : ChannelId) (nick : Text) : Prop :=
  ∃ ban ∈ (t.s.chan chptr).banlist, ∃ mask, ban.banstr = mask ++ "!*@*" ∧ MaskMatches mask nick

theorem no_bang_of_matches {mask nick : Text} (none_ : '!' ∉ nick) (found : MaskMatches mask nick) :
    '!' ∉ mask := by
  intro member
  obtain ⟨front, back, rfl⟩ := List.append_of_mem member
  obtain ⟨run, rest, rfl, -, second⟩ := glob_append.mp found
  cases rest with
  | nil => exact not_glob_nil (by decide) second
  | cons c rest =>
    obtain ⟨fit, -⟩ := (glob_cons (by decide)).mp second
    refine none_ (List.mem_append_right _ ?_)
    rw [toLower_bang (fit.resolve_left (by decide))]
    exact List.mem_cons_self

theorem nickBanned_iff {chptr : ChannelId} {nick : Text} (none_ : '!' ∉ nick) :
    t.NickBanned chptr nick ↔ ∃ b ∈ t.banlist chptr, ∃ mask,
      nickMask b.ban.banstr = some mask ∧ MaskMatches mask nick := by
  unfold NickBanned
  rw [← t.same chptr]
  constructor
  · rintro ⟨ban, member, mask, shape, found⟩
    obtain ⟨b, inside, rfl⟩ := List.mem_map.mp member
    exact ⟨b, inside, mask, nickMask_eq_some.mpr ⟨shape, no_bang_of_matches none_ found⟩, found⟩
  · rintro ⟨b, inside, mask, shape, found⟩
    exact ⟨b.ban, List.mem_map.mpr ⟨b, inside, rfl⟩, mask, (nickMask_eq_some.mp shape).1, found⟩

def Noted (b : TypedBan) : Prop := (nickMask b.ban.banstr).isSome = true → b.bantype = BAN_NICK

theorem noted_calls {chptr : ChannelId} (fresh : t.banlist chptr = []) (list : List BanCall) :
    ∀ b ∈ (t.calls chptr list).banlist chptr, Noted b := by
  refine t.forall_calls (fun t cptr banid memory _ shape => ?_) fun b member => ?_
  · rw [bantypeOf_eq, if_pos shape]
  · rw [fresh] at member
    exact absurd member List.not_mem_nil

/-- Every other ban that matches and has the note by chance stands beside one on the nick. -/
def NoChance (chptr : ChannelId) (nick : Text) : Prop :=
  ∀ b ∈ t.banlist chptr, nickMask b.ban.banstr = none → b.bantype = BAN_NICK →
    MaskMatches b.ban.banstr (nickName nick) → t.NickBanned chptr nick

theorem nick_is_banned_eq {chptr : ChannelId} {nick : Text} {cptr : ClientId}
    (person : (t.s.client cptr).isPerson = true) (short : nick.length ≤ NICKLEN) :
    t.nick_is_banned chptr nick cptr = true ↔
      ∃ b ∈ t.banlist chptr, b.bantype = BAN_NICK ∧ MaskMatches b.ban.banstr (nickName nick) := by
  have name : (nickName nick).length ≤ 30 := by
    unfold NICKLEN at short
    unfold nickName
    rw [List.length_append]
    change _ + 4 ≤ 30
    omega
  unfold nick_is_banned
  rw [person, Bool.true_and, List.any_eq_true]
  simp only [Bool.and_eq_true, decide_eq_true_eq, ircMatch_iff_of_short name]

/-- **The answer is right exactly when no ban matches by chance.** -/
theorem nickBanned_iff_noChance {chptr : ChannelId} {nick : Text} {cptr : ClientId}
    (noted : ∀ b ∈ t.banlist chptr, Noted b) (person : (t.s.client cptr).isPerson = true)
    (none_ : '!' ∉ nick) (short : nick.length ≤ NICKLEN) :
    (t.nick_is_banned chptr nick cptr = true ↔ t.NickBanned chptr nick) ↔
      t.NoChance chptr nick := by
  have listed : t.NickBanned chptr nick → t.nick_is_banned chptr nick cptr = true := by
    intro banned
    obtain ⟨b, inside, mask, shape, found⟩ := (t.nickBanned_iff none_).mp banned
    refine (t.nick_is_banned_eq person short).mpr ⟨b, inside, noted b inside (by rw [shape]; rfl), ?_⟩
    rw [(nickMask_eq_some.mp shape).1]
    exact (nick_mask_matches_iff none_).mpr found
  constructor
  · intro right b inside _ note found
    exact right.mp ((t.nick_is_banned_eq person short).mpr ⟨b, inside, note, found⟩)
  · intro chance
    refine ⟨fun reported => ?_, listed⟩
    obtain ⟨b, inside, note, found⟩ := (t.nick_is_banned_eq person short).mp reported
    cases shape : nickMask b.ban.banstr with
    | none => exact chance b inside shape note found
    | some mask =>
      rw [(nickMask_eq_some.mp shape).1] at found
      exact (t.nickBanned_iff none_).mpr
        ⟨b, inside, mask, shape, (nick_mask_matches_iff none_).mp found⟩

/-- **`nick_is_banned` is right** after any calls whose blocks did not hold the note by chance, and
after others exactly when no ban of another kind matches by chance. -/
theorem nick_is_banned_iff (chptr : ChannelId) (fresh : t.banlist chptr = []) (list : List BanCall)
    (cptr : ClientId) (person : ((t.calls chptr list).s.client cptr).isPerson = true) (nick : Text)
    (none_ : '!' ∉ nick) (short : nick.length ≤ NICKLEN) :
    ((∀ user banid memory, .add user banid memory ∈ list → memory ≠ BAN_NICK) →
      ((t.calls chptr list).nick_is_banned chptr nick cptr = true ↔
        (t.calls chptr list).NickBanned chptr nick)) ∧
    (((t.calls chptr list).nick_is_banned chptr nick cptr = true ↔
      (t.calls chptr list).NickBanned chptr nick) ↔ (t.calls chptr list).NoChance chptr nick) := by
  have exact_ := (t.calls chptr list).nickBanned_iff_noChance (noted_calls t fresh list) person none_
    short
  refine ⟨fun clean => exact_.mpr fun b inside shape note _ => ?_, exact_⟩
  have kept : ∀ b ∈ (t.calls chptr list).banlist chptr,
      nickMask b.ban.banstr = none → b.bantype ≠ BAN_NICK := by
    refine t.forall_calls (fun t user banid memory member shape => ?_) fun b member => ?_
    · rw [bantypeOf_eq, shape]
      exact clean user banid memory member
    · rw [fresh] at member
      exact absurd member List.not_mem_nil
  exact absurd note (kept b inside shape)

def sampleTyped : TypedIrcd where
  s := { Ircd.blank Ircd.sampleConf 1000 "home" with client := fun _ => Ircd.sampleUser }
  banlist _ := []
  same _ := rfl

theorem nick_is_banned_iff_ann :
    ((sampleTyped.calls 0 [.add 1 "an*!*@*" 7, .add 1 "*!?@*" 0]).nick_is_banned 0 "ann" 1 = true ↔
      (sampleTyped.calls 0 [.add 1 "an*!*@*" 7, .add 1 "*!?@*" 0]).NickBanned 0 "ann") :=
  (sampleTyped.nick_is_banned_iff 0 rfl _ 1 (by decide +kernel) "ann" (by decide) (by decide)).1
    fun user banid memory member => by
      rcases List.mem_cons.mp member with first | rest
      · obtain ⟨-, -, rfl⟩ := BanCall.add.inj first
        decide
      · obtain ⟨-, -, rfl⟩ := BanCall.add.inj (List.mem_singleton.mp rest)
        decide

/-- **A ban on user names of one letter bans every nick** when its block held the note. -/
theorem not_nick_is_banned : ¬ ∀ (t : TypedIrcd) (chptr : ChannelId), t.banlist chptr = [] →
    ∀ list cptr, ((t.calls chptr list).s.client cptr).isPerson = true → ∀ nick, '!' ∉ nick →
      nick.length ≤ NICKLEN → ((t.calls chptr list).nick_is_banned chptr nick cptr = true ↔
        (t.calls chptr list).NickBanned chptr nick) := by
  intro right
  have reported : (sampleTyped.calls 0 [.add 1 "*!?@*" 1]).nick_is_banned 0 "ann" 1 = true := by
    decide +kernel
  obtain ⟨b, inside, mask, shape, -⟩ := (nickBanned_iff _ (by decide)).mp
    ((right sampleTyped 0 rfl [.add 1 "*!?@*" 1] 1 (by decide +kernel) "ann" (by decide)
      (by decide)).mp reported)
  have bans : ((sampleTyped.calls 0 [.add 1 "*!?@*" 1]).banlist 0).map
      (fun b => nickMask b.ban.banstr) = [none] := by decide +kernel
  have bad : nickMask b.ban.banstr ∈ [none] := by
    rw [← bans]
    exact List.mem_map.mpr ⟨b, inside, rfl⟩
  rw [shape] at bad
  exact absurd bad (by simp)

end TypedIrcd

end PtlinkIrcd
