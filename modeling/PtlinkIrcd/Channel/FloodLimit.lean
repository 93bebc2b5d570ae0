/-
**The limit of messages as a rate.**

`check_for_chan_flood` counts messages each of which comes less than `per` seconds after the one
before it, however long all of them took.

* `ModeRun.limited` — a channel with the bit has at least two messages to count, whatever was heard.
* `flood_limiter_rate_iff` — **the limiter is a limit of `msgs` messages in `per` seconds exactly when
  no streak of `msgs` messages takes that long**.
-/

import PtlinkIrcd.Channel.ModeData

namespace PtlinkIrcd

open Lib.Streaks

/-! ### Channels with the bit -/

/-- With the bit there are at least two messages to count. -/
def FloodCounted (flood : Bool × Int32 × Int32) : Prop := flood.1 = true → 1 < flood.2.1

namespace Ircd

theorem counted_edit {m : ModeSource} {l : ModeLoop} {change : ModeChange}
    (allows : Allows m l change) (before : FloodCounted (l.s.chan m.chptr).mode.flood) :
    FloodCounted ((l.s.chan m.chptr).edit change.edit).mode.flood := by
  rcases edit_flood allows with same | ⟨pair, read, set⟩ | clear
  · rw [same]
    exact before
  · obtain ⟨cp, reads⟩ := setfl_of_floodRead read
    rw [set]
    exact fun _ => (setfl_pair reads).1
  · rw [clear]
    exact fun bit => absurd bit (by decide)

theorem counted_sjoinMerge {mode oldmode : Mode} (off : mode.mode.has MODE_FLOODLIMIT = false)
    (verdict : Verdict) (before : FloodCounted oldmode.flood) :
    FloodCounted (sjoinMerge verdict mode oldmode).flood := by
  rw [sjoinMerge_flood off]
  split
  · exact before
  · split
    · intro bit
      have many : 1 < oldmode.msgs := before bit
      have some_ : oldmode.msgs ≠ 0 := by
        intro zero
        rw [zero] at many
        exact absurd many (by decide)
      rw [if_pos some_]
      exact many
    · exact fun bit => absurd bit Bool.false_ne_true

/-- **Every channel with the bit counts messages.** -/
theorem ModeRun.counted {allowed : Ircd → ModeMessage → Prop} {s : Ircd} (run : ModeRun allowed s)
    (chptr : ChannelId) : FloodCounted (s.chan chptr).mode.flood := by
  refine run.invariant (P := fun mode => FloodCounted mode.flood) (fun mode plain bit => ?_) ?_ chptr
  · exact absurd ((show mode.mode.has MODE_FLOODLIMIT = true from bit).symm.trans plain.flood)
      (by decide)
  · intro s msg ok before d
    cases msg with
    | mode cptr sptr chptr parv =>
      have meets : s.lettersMeet (fun _ _ _ => True) cptr sptr chptr parv :=
        .inr (wordsMeet_true ..)
      exact set_channel_mode_keeps (P := fun mode => FloodCounted mode.flood)
        (fun _ allows kept => counted_edit allows kept) meets before d
    | sjoin cptr sptr parv =>
      refine m_sjoin_keeps (P := fun mode => FloodCounted mode.flood) (fun chptr mode left => ?_) before d
      obtain ⟨verdict, read, oldmode, reads, old, rfl⟩ := sjoinLeaves_cases left
      refine counted_sjoinMerge (sjoinRead_bit reads) verdict ?_
      rcases old with rfl | rfl
      · exact fun bit => absurd bit (by decide)
      · exact before chptr

end Ircd

/-! ### The limiter as a rate limiter -/

theorem streak_le_one {per : Int} (none_ : per ≤ 0) {history : List Int}
    (sorted : history.Pairwise (· ≥ ·)) : streak per history ≤ 1 := by
  cases history with
  | nil => exact Nat.zero_le _
  | cons t history =>
    cases history with
    | nil => exact Nat.le_refl _
    | cons u history =>
      have later : u ≤ t := (List.pairwise_cons.mp sorted).1 u List.mem_cons_self
      have late : ¬ Soon per t u := show ¬ t < u + per by omega
      rw [streak, if_neg late]

/-- **A message is refused exactly when it ends a streak**, for every pair of at least two messages. -/
theorem floodRefused_iff_streak {mode : Mode} (bit : mode.mode.has MODE_FLOODLIMIT = true)
    (many : 1 < mode.msgs) (conf : SendConf) {history : List Int}
    (sorted : history.Pairwise (· ≥ ·)) :
    floodRefused conf mode history = true ↔
      mode.msgs.toInt.toNat ≤ streak mode.per.toInt history := by
  have some_ := Int32.lt_iff_toInt_lt.mp many
  change 1 < _ at some_
  by_cases positive : 1 ≤ mode.per
  · rw [floodRefused_iff ⟨bit, many, positive⟩]
    exact Int.toNat_le.symm
  · have idle : ¬ mode.Limits := fun works => positive works.2.2
    have never : floodRefused conf mode history = false := by
      cases history with
      | nil => rfl
      | cons now earlier =>
        rw [floodRefused, floodTest_idle idle]
        rfl
    have below := Int32.lt_iff_toInt_lt.mp (Int32.not_le.mp positive)
    change _ < 1 at below
    have short := @streak_le_one mode.per.toInt (by omega) _ sorted
    rw [never]
    exact iff_of_false Bool.false_ne_true (by omega)

namespace Ircd

/-- **The limiter is a limit of `msgs` messages in `per` seconds exactly when no streak of `msgs`
messages takes that long**, on every channel with the bit and for every history of messages. -/
theorem flood_limiter_rate_iff (s : Ircd) (run : ModeRun (fun _ _ => True) s) (chptr : ChannelId)
    (bit : (s.chan chptr).mode.mode.has MODE_FLOODLIMIT = true) (conf : SendConf)
    (history : List Int) (sorted : history.Pairwise (· ≥ ·)) :
    RateLimits (s.chan chptr).mode.per.toInt (s.chan chptr).mode.msgs.toInt
        (floodRefused conf (s.chan chptr).mode) history ↔
      Dense (s.chan chptr).mode.per.toInt (s.chan chptr).mode.msgs.toInt.toNat history := by
  have many : 1 < (s.chan chptr).mode.msgs := run.counted chptr bit
  have some_ := Int32.lt_iff_toInt_lt.mp many
  change 1 < _ at some_
  rw [← rateLimits_iff (by omega) sorted fun h inside =>
    floodRefused_iff_streak bit many conf (sorted.sublist inside.sublist)]
  rw [Int.toNat_of_nonneg (by omega)]

/-- A configuration for the messages of a member. -/
def sampleSend : SendConf := ⟨false, false, false, 0, [], fun _ _ => "Flood!"⟩

/-- Three messages within ten seconds. -/
theorem flood_limiter_rate_iff_quick :
    RateLimits 10 3 (floodRefused sampleSend ((sampleLimited "3:10").chan 1).mode) [108, 104, 100] ↔
      Dense 10 3 [108, 104, 100] := by
  have mode : ((sampleLimited "3:10").chan 1).mode.flood = (true, 3, 10) := by decide +kernel
  have bit : ((sampleLimited "3:10").chan 1).mode.mode.has MODE_FLOODLIMIT = true :=
    congrArg Prod.fst mode
  have msgs : ((sampleLimited "3:10").chan 1).mode.msgs = 3 :=
    congrArg (fun flood => flood.2.1) mode
  have per : ((sampleLimited "3:10").chan 1).mode.per = 10 :=
    congrArg (fun flood => flood.2.2) mode
  have iff := flood_limiter_rate_iff (sampleLimited "3:10")
    (.message (.message (.start sampleKnown_plain) trivial) trivial) 1 bit sampleSend
    [108, 104, 100] (by decide)
  rw [msgs, per] at iff
  exact iff

/-- **A message every nine seconds is refused under a limit of three in ten.** -/
theorem not_flood_limiter_rate : ¬ ∀ s, ModeRun (fun _ _ => True) s → ∀ chptr,
    (s.chan chptr).mode.mode.has MODE_FLOODLIMIT = true → ∀ conf history,
    history.Pairwise (· ≥ ·) → RateLimits (s.chan chptr).mode.per.toInt
      (s.chan chptr).mode.msgs.toInt (floodRefused conf (s.chan chptr).mode) history := by
  intro limits
  have rate := limits (sampleLimited "3:10")
    (.message (.message (.start sampleKnown_plain) trivial) trivial) 1 (by decide +kernel) sampleSend
    [118, 109, 100] (by decide)
  have refused : floodRefused sampleSend ((sampleLimited "3:10").chan 1).mode [118, 109, 100] =
      true := by decide +kernel
  have few := rate.deserved 118 [109, 100] (List.suffix_refl _) refused
  have mode : ((sampleLimited "3:10").chan 1).mode.flood = (true, 3, 10) := by decide +kernel
  have msgs : ((sampleLimited "3:10").chan 1).mode.msgs = 3 :=
    congrArg (fun flood => flood.2.1) mode
  have per : ((sampleLimited "3:10").chan 1).mode.per = 10 :=
    congrArg (fun flood => flood.2.2) mode
  rw [msgs, per] at few
  exact absurd few (by decide)

end Ircd

end PtlinkIrcd
