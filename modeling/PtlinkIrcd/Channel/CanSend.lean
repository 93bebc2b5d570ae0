/-
**Who may send to a channel.**

* `SendLink` — what the link of a member remembers of its messages.
* `check_for_chan_flood` — the limiter of `+f`; `floodTest` asks it when the bit is set.
* `can_send` — zero, or why a message is refused; `can_send_flood_iff` says when it is the limiter.
* `floodTest_refuses_iff` — **the limiter can refuse at all exactly when the bit is set and the pair
  is one of at least two messages in a positive time**.
* `sendLinkOf`, `floodRefused` — a member who sent messages at some times, and whether the last one
  was refused; `floodRefused_iff` — refused is what ends a streak of `msgs` messages.
-/

import PtlinkIrcd.Channel.JoinPartKick
import PtlinkIrcd.Channel.Message
import PtlinkIrcd.Lib.Streaks

namespace PtlinkIrcd

open Lib.Streaks

/-- The settings that `can_send` reads. `FloodLimit_Msg` is the text with the two numbers in it. -/
structure SendConf where
  HALFOPS : Bool
  OperCanAlwaysSend : Bool
  AllowChanCTCP : Bool
  ChanFloodTime : Int
  spam_words : List Text
  FloodLimit_Msg : Int32 → Int32 → Text

/-- The counters of a link. The length of `lmsg` is `lsize`; `nmsg` is a number without the bounds of
an `int`. -/
structure SendLink where
  nmsg : Int
  lastmsg : Int
  lmsg : Option Text
  lmsg_time : Int

/-- The link that `add_user_to_channel` makes. -/
def SendLink.zero : SendLink := ⟨0, 0, none, 0⟩

/-- `check_for_chan_flood`: the link, and for a message that is refused the comment of the answer and
the time until which its sender is held. -/
def check_for_chan_flood (conf : SendConf) (now : Int) (mode : Mode) (lp : SendLink) :
    SendLink × Option (Text × Int) :=
  if mode.msgs ≤ 1 ∨ mode.per < 1 then (lp, none)
  else if now - lp.lastmsg ≥ mode.per.toInt then ({ lp with lastmsg := now, nmsg := 1 }, none)
  else
    let lp : SendLink := { lp with nmsg := lp.nmsg + 1, lastmsg := now }
    if lp.nmsg ≥ mode.msgs.toInt then
      (lp, some (conf.FloodLimit_Msg mode.msgs mode.per, now + 10))
    else (lp, none)

/-- The test of `can_send` for the limit of messages. -/
def floodTest (conf : SendConf) (now : Int) (mode : Mode) (lp : SendLink) :
    SendLink × Option (Text × Int) :=
  if mode.mode.has MODE_FLOODLIMIT then check_for_chan_flood conf now mode lp else (lp, none)

def is_spam (conf : SendConf) (text : Text) : Bool :=
  conf.spam_words.any fun word => word <:+: text.map toUpper

/-- The first word from a `#` on is not the name of the channel. -/
def namesOther (chname msg : Text) : Bool :=
  let cp := msg.dropWhile (· ≠ '#')
  let word := cp.takeWhile (· ≠ ' ')
  cp ≠ [] && (word.length ≠ chname.length || strcasecmp word (chname.take word.length) ≠ 0)

/-- A CTCP request other than an action or a sound. -/
def isOtherCtcp (msg : Text) : Bool :=
  msg.head? = some (Char.ofNat 1) && !decide (("ACTION " : Text) <+: msg.tail) &&
    !decide (("SOUND " : Text) <+: msg.tail)

/-- The flags of a link that a message passes for. -/
def SendConf.spoken (conf : SendConf) : Flags :=
  CHFL_CHANOP ||| CHFL_VOICE ||| if conf.HALFOPS then CHFL_HALFOP else 0

/-- The tests of `can_send` before the one for the limit of messages: its value, if they settle it. -/
def can_send_settled (conf : SendConf) (x : Client) (c : Channel) (lp : Option Member) :
    Option Flags :=
  if x.myClient && x.isStealth then some MODE_NOPRIVMSGS
  else if x.isService || x.isTechAdmin || (conf.OperCanAlwaysSend && x.isOper) then some 0
  else if c.mode.mode.has MODE_NOPRIVMSGS && lp.isNone then some MODE_NOPRIVMSGS
  else if lp.any fun l => l.flags.has conf.spoken then some 0
  else if c.mode.mode.has MODE_MODERATED then some MODE_MODERATED
  else if c.is_banned x then some MODE_BAN
  else if !x.myClient then some 0
  else none

/-- The tests behind it, with the link of the sender. -/
def can_send_text (conf : SendConf) (now : Int) (x : Client) (c : Channel) (lp : Option Member)
    (link : SendLink) (msg : Text) : Flags × SendLink :=
  if !conf.AllowChanCTCP && isOtherCtcp msg && !x.isOper then (-1, link)
  else if c.mode.mode.has MODE_NOSPAM && (is_spam conf msg || namesOther c.chname msg) then
    (MODE_NOSPAM, link)
  else if c.mode.mode.has MODE_NOFLOOD && lp.isSome then
    if link.lmsg = some msg && now - link.lmsg_time < conf.ChanFloodTime then (MODE_NOFLOOD, link)
    else (0, { link with lmsg := some msg, lmsg_time := now })
  else (0, link)

/-- `can_send`: the value, the link of the sender, and what the limiter answers. -/
def can_send (conf : SendConf) (now : Int) (cptr : ClientId) (x : Client) (c : Channel)
    (link : SendLink) (msg : Text) : Flags × SendLink × Option (Text × Int) :=
  let lp := find_user_link c.members cptr
  match can_send_settled conf x c lp with
  | some value => (value, link, none)
  | none =>
    let limited := if lp.isSome then floodTest conf now c.mode link else (link, none)
    if limited.2.isSome then (MODE_FLOODLIMIT, limited)
    else
      let tested := can_send_text conf now x c lp limited.1 msg
      (tested.1, tested.2, none)

/-! ### When the limiter refuses -/

section Answers

variable {conf : SendConf} {now : Int} {cptr : ClientId} {x : Client} {c : Channel}
  {lp : Option Member} {link : SendLink} {msg : Text}

theorem can_send_settled_ne {value : Flags} (settled : can_send_settled conf x c lp = some value) :
    value ≠ MODE_FLOODLIMIT := by
  unfold can_send_settled at settled
  repeat' split at settled
  all_goals first | cases settled; decide | cases settled

theorem can_send_text_ne : (can_send_text conf now x c lp link msg).1 ≠ MODE_FLOODLIMIT := by
  unfold can_send_text
  repeat' split
  · exact (by decide : (-1 : Flags) ≠ MODE_FLOODLIMIT)
  · exact (by decide : MODE_NOSPAM ≠ MODE_FLOODLIMIT)
  · exact (by decide : MODE_NOFLOOD ≠ MODE_FLOODLIMIT)
  · exact (by decide : (0 : Flags) ≠ MODE_FLOODLIMIT)
  · exact (by decide : (0 : Flags) ≠ MODE_FLOODLIMIT)

/-- **`can_send` answers with the limit of messages exactly when a message of a member comes to the
limiter and is refused there.** -/
theorem can_send_flood_iff : (can_send conf now cptr x c link msg).1 = MODE_FLOODLIMIT ↔
    can_send_settled conf x c (find_user_link c.members cptr) = none ∧
      (find_user_link c.members cptr).isSome = true ∧
      (floodTest conf now c.mode link).2.isSome = true := by
  unfold can_send
  simp only []
  cases settled : can_send_settled conf x c (find_user_link c.members cptr) with
  | some value => exact iff_of_false (can_send_settled_ne settled) fun all => by cases all.1
  | none =>
    simp only []
    cases find_user_link c.members cptr with
    | none => exact iff_of_false can_send_text_ne fun all => by cases all.2.1
    | some l =>
      rw [Option.isSome_some, if_pos rfl]
      split
      · rename_i refused
        exact iff_of_true rfl ⟨trivial, rfl, refused⟩
      · rename_i passed
        exact iff_of_false can_send_text_ne fun all => passed all.2.2

end Answers

def Mode.Limits (mode : Mode) : Prop :=
  mode.mode.has MODE_FLOODLIMIT = true ∧ 1 < mode.msgs ∧ 1 ≤ mode.per

instance (mode : Mode) : Decidable mode.Limits := inferInstanceAs (Decidable (_ ∧ _ ∧ _))

/-- **Without them no message is refused.** -/
theorem floodTest_idle {mode : Mode} (idle : ¬ mode.Limits) (conf : SendConf) (now : Int)
    (link : SendLink) : floodTest conf now mode link = (link, none) := by
  unfold floodTest check_for_chan_flood
  split
  · rename_i bit
    refine if_pos ?_
    by_contra works
    obtain ⟨many, positive⟩ := not_or.mp works
    exact idle ⟨bit, Int32.not_le.mp many, Int32.not_lt.mp positive⟩
  · rfl

theorem floodTest_works {mode : Mode} (works : mode.Limits) (conf : SendConf) (now : Int)
    (link : SendLink) :
    (floodTest conf now mode link).1 =
        { link with
          nmsg := if now < link.lastmsg + mode.per.toInt then link.nmsg + 1 else 1
          lastmsg := now } ∧
      ((floodTest conf now mode link).2.isSome = true ↔
        now < link.lastmsg + mode.per.toInt ∧ mode.msgs.toInt ≤ link.nmsg + 1) := by
  have active : ¬ (mode.msgs ≤ 1 ∨ mode.per < 1) :=
    not_or.mpr ⟨Int32.not_le.mpr works.2.1, Int32.not_lt.mpr works.2.2⟩
  unfold floodTest check_for_chan_flood
  rw [if_pos works.1, if_neg active]
  simp only []
  split
  · rename_i late
    have pause : ¬ now < link.lastmsg + mode.per.toInt := by omega
    rw [if_neg pause]
    exact ⟨rfl, iff_of_false (by simp) fun both => pause both.1⟩
  · rename_i early
    have soon : now < link.lastmsg + mode.per.toInt := by omega
    rw [if_pos soon]
    split
    · rename_i enough
      exact ⟨rfl, iff_of_true rfl ⟨soon, enough⟩⟩
    · rename_i few
      exact ⟨rfl, iff_of_false (by simp) fun both => few both.2⟩

/-- **The limiter can refuse** exactly when the bit is set and the pair is one of at least two messages
in a positive time. -/
theorem floodTest_refuses_iff (mode : Mode) :
    (∃ conf now link, (floodTest conf now mode link).2.isSome = true) ↔ mode.Limits := by
  constructor
  · rintro ⟨conf, now, link, refused⟩
    by_contra idle
    rw [floodTest_idle idle] at refused
    cases refused
  · intro works
    refine ⟨⟨false, false, false, 0, [], fun _ _ => []⟩, 0, ⟨mode.msgs.toInt, 0, none, 0⟩, ?_⟩
    have positive := Int32.le_iff_toInt_le.mp works.2.2
    change 1 ≤ _ at positive
    refine ((floodTest_works works ..).2).mpr ⟨?_, ?_⟩
    · show (0 : Int) < 0 + mode.per.toInt
      omega
    · show mode.msgs.toInt ≤ mode.msgs.toInt + 1
      omega

/-! ### A member who sends -/

/-- The link of a member after messages at some times, the last one first. -/
def sendLinkOf (conf : SendConf) (mode : Mode) : List Int → SendLink
  | [] => .zero
  | now :: earlier => (floodTest conf now mode (sendLinkOf conf mode earlier)).1

def floodRefused (conf : SendConf) (mode : Mode) : List Int → Bool
  | [] => false
  | now :: earlier => (floodTest conf now mode (sendLinkOf conf mode earlier)).2.isSome

/-- **The counter of a link is the length of the streak**, and the time that of the last message. -/
theorem sendLinkOf_counts {mode : Mode} (works : mode.Limits) (conf : SendConf) (now : Int)
    (earlier : List Int) :
    (sendLinkOf conf mode (now :: earlier)).lastmsg = now ∧
      (sendLinkOf conf mode (now :: earlier)).nmsg = streak mode.per.toInt (now :: earlier) := by
  induction earlier generalizing now with
  | nil =>
    rw [sendLinkOf, (floodTest_works works ..).1]
    refine ⟨rfl, ?_⟩
    show (if now < 0 + mode.per.toInt then (0 : Int) + 1 else 1) = ((1 : Nat) : Int)
    split <;> rfl
  | cons u earlier ih =>
    obtain ⟨last, count⟩ := ih u
    rw [sendLinkOf, (floodTest_works works ..).1]
    refine ⟨rfl, ?_⟩
    show (if now < (sendLinkOf conf mode (u :: earlier)).lastmsg + mode.per.toInt then
      (sendLinkOf conf mode (u :: earlier)).nmsg + 1 else 1) = _
    rw [last, count, streak]
    split
    · rename_i soon
      rw [if_pos (show Soon _ now u from soon)]
      rfl
    · rename_i late
      rw [if_neg (show ¬ Soon _ now u from late)]
      rfl

/-- **A message is refused exactly when it ends a streak of `msgs` messages.** -/
theorem floodRefused_iff {mode : Mode} (works : mode.Limits) (conf : SendConf)
    (history : List Int) :
    floodRefused conf mode history = true ↔ mode.msgs.toInt ≤ streak mode.per.toInt history := by
  have many := Int32.lt_iff_toInt_lt.mp works.2.1
  change 1 < _ at many
  cases history with
  | nil => exact iff_of_false Bool.false_ne_true (by show ¬ _ ≤ (0 : Int); omega)
  | cons now earlier =>
    rw [floodRefused, (floodTest_works works ..).2]
    cases earlier with
    | nil =>
      refine iff_of_false (fun both => ?_) (by show ¬ _ ≤ ((1 : Nat) : Int); omega)
      have few : mode.msgs.toInt ≤ 0 + 1 := both.2
      omega
    | cons u earlier =>
      obtain ⟨last, count⟩ := sendLinkOf_counts works conf u earlier
      rw [last, count, streak]
      split
      · rename_i soon
        exact ⟨fun both => both.2, fun long => ⟨soon, long⟩⟩
      · rename_i late
        exact iff_of_false (fun both => late both.1) (by show ¬ _ ≤ ((1 : Nat) : Int); omega)

end PtlinkIrcd
