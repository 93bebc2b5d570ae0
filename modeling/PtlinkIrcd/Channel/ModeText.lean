/-
**The buffers of `channel_modes`.**

The letters go to `mbuf`, the parameters to `pbuf`, and the pair of the limit of messages is printed
to `tmppbuf[6]` before it is appended to `pbuf`.

* `ModeTextFits` — all three arrays hold what is written to them.
* `ShortPair` — a pair whose numbers take three characters at most.
* `channel_modes_fits_iff` — `mbuf` and `pbuf` never run over; `tmppbuf` does exactly when a pair is
  printed that is not short.
* `ModeRun.fits` — **nothing runs over in a run whose messages leave short pairs.**
-/

import Mathlib.Tactic.NormNum
import PtlinkIrcd.Channel.ModeRuns

namespace PtlinkIrcd

/-! ### Numbers -/

/-- **A pair of which `%i:%i` takes four characters at most.** -/
def ShortPair (msgs per : Int32) : Prop :=
  0 ≤ msgs.toInt ∧ msgs.toInt < 10 ∧ -10 < per.toInt ∧ per.toInt < 100 ∨
    -10 < msgs.toInt ∧ msgs.toInt < 100 ∧ 0 ≤ per.toInt ∧ per.toInt < 10

instance (msgs per : Int32) : Decidable (ShortPair msgs per) :=
  inferInstanceAs (Decidable (_ ∧ _ ∧ _ ∧ _ ∨ _ ∧ _ ∧ _ ∧ _))

theorem length_printFlood (m : Mode) :
    (printFlood m).length = (printD m.msgs).length + (printD m.per).length + 1 := by
  unfold printFlood
  rw [List.length_append, List.length_cons]
  omega

theorem shortPair_iff (m : Mode) : ShortPair m.msgs m.per ↔ (printFlood m).length ≤ 4 := by
  have some_ := length_printD_pos m.msgs
  have some' := length_printD_pos m.per
  have one := length_printD_le_iff (v := m.msgs) (k := 0)
  have one' := length_printD_le_iff (v := m.per) (k := 0)
  have two := length_printD_le_iff (v := m.msgs) (k := 1)
  have two' := length_printD_le_iff (v := m.per) (k := 1)
  norm_num at one one' two two'
  rw [length_printFlood]
  unfold ShortPair
  omega

/-! ### The arrays -/

def TMPPBUFLEN : Nat := 6

def tmppbuf (m : Mode) (server oper is_list : Bool) : Option Text :=
  if m.msgs ≠ 0 ∧ (server || oper || is_list) = true then some (printFlood m ++ [' ']) else none

/-- What `channel_modes` writes fits the arrays, each with its terminator. -/
structure ModeTextFits (m : Mode) (server oper is_list : Bool) : Prop where
  mbuf : (channel_modes m server oper is_list).1.length < MODEBUFLEN
  pbuf : (channel_modes m server oper is_list).2.length < MODEBUFLEN
  tmppbuf : ∀ text ∈ tmppbuf m server oper is_list, text.length < TMPPBUFLEN

section Lengths

variable (m : Mode) (server oper is_list : Bool)

theorem length_letters_le (flags : List (Char × Flags)) (word : Flags) :
    (letters flags word).length ≤ flags.length := by
  unfold letters
  rw [List.length_map]
  exact List.length_filter_le ..

theorem length_ite_le {p : Prop} [Decidable p] {t : Text} {k : Nat} (short : t.length ≤ k) :
    (if p then t else []).length ≤ k := by
  split
  · exact short
  · exact Nat.zero_le _

theorem channel_modes_letters : (channel_modes m server oper is_list).1.length ≤ 22 := by
  have head := length_letters_le channelFlagsHead m.mode
  have tail := length_letters_le channelFlagsTail m.mode
  have one : ∀ (p : Prop) [Decidable p] (c : Char), (if p then [c] else []).length ≤ 1 :=
    fun p _ c => length_ite_le (Nat.le_refl 1)
  have limit := one (m.limit ≠ 0) 'l'
  have key := one (m.key ≠ []) 'k'
  have flood := one (m.msgs ≠ 0) 'f'
  unfold channel_modes
  simp only [List.length_cons, List.length_append]
  change _ ≤ 6 at head
  change _ ≤ 12 at tail
  omega

theorem channel_modes_params : (channel_modes m server oper is_list).2 =
    (if m.limit ≠ 0 ∧ (server || is_list) = true then printD m.limit ++ [' '] else []) ++
      (if m.key ≠ [] then (if server then m.key else []) ++ [' '] else []) ++
      (tmppbuf m server oper is_list).getD [] := by
  unfold channel_modes tmppbuf
  simp only [Bool.and_eq_true, decide_eq_true_eq]
  congr 1
  split <;> rfl

theorem channel_modes_room (key : m.key.length ≤ KEYLEN) :
    (channel_modes m server oper is_list).2.length ≤ 60 := by
  have limit := length_printD_le m.limit
  have msgs := length_printD_le m.msgs
  have per := length_printD_le m.per
  change _ ≤ 23 at key
  rw [channel_modes_params, List.length_append, List.length_append]
  have first : (if m.limit ≠ 0 ∧ (server || is_list) = true then printD m.limit ++ [' ']
      else []).length ≤ 12 := length_ite_le (by rw [List.length_append]; exact Nat.succ_le_succ limit)
  have inner : (if server = true then m.key else []).length ≤ 23 := length_ite_le key
  have second : (if m.key ≠ [] then (if server = true then m.key else []) ++ [' ']
      else []).length ≤ 24 := length_ite_le (by rw [List.length_append]; exact Nat.succ_le_succ inner)
  have third : ((tmppbuf m server oper is_list).getD []).length ≤ 24 := by
    unfold tmppbuf
    split
    · rw [Option.getD_some, List.length_append, length_printFlood, List.length_singleton]
      omega
    · exact Nat.zero_le _
  omega

end Lengths

/-- **The arrays hold the modes exactly when no long pair is printed.** -/
theorem modeTextFits_iff {m : Mode} (key : m.key.length ≤ KEYLEN) (server oper is_list : Bool) :
    ModeTextFits m server oper is_list ↔
      (m.msgs ≠ 0 → (server || oper || is_list) = true → ShortPair m.msgs m.per) := by
  have printed : (∀ text ∈ tmppbuf m server oper is_list, text.length < TMPPBUFLEN) ↔
      (m.msgs ≠ 0 → (server || oper || is_list) = true → ShortPair m.msgs m.per) := by
    unfold tmppbuf
    rw [shortPair_iff]
    split
    · rename_i both
      simp only [Option.mem_some_iff, forall_eq', List.length_append, List.length_singleton]
      change _ < 6 ↔ _
      exact ⟨fun short _ _ => by omega, fun short => by have := short both.1 both.2; omega⟩
    · rename_i quiet
      simp only [Option.mem_def, reduceCtorEq, false_implies, implies_true, true_iff]
      exact fun some_ reader => absurd ⟨some_, reader⟩ quiet
  have mbuf := channel_modes_letters m server oper is_list
  have pbuf := channel_modes_room m server oper is_list key
  refine ⟨fun fits => printed.mp fits.tmppbuf, fun short => ⟨?_, ?_, printed.mpr short⟩⟩
  · change _ < 200
    omega
  · change _ < 200
    omega

/-! ### Every state -/

namespace Ircd

/-- A letter that sets no pair, or a short one. -/
def SetsShort (m : ModeSource) (l : ModeLoop) (c : Char) : Prop :=
  ∀ pair ∈ floodRead m l c, ShortPair pair.1 pair.2

instance (m : ModeSource) (l : ModeLoop) (c : Char) : Decidable (SetsShort m l c) :=
  Option.decidableForallMem (floodRead m l c)

/-- **A message that leaves a short pair.** -/
def LeavesShort (s : Ircd) : ModeMessage → Prop
  | .mode cptr sptr chptr parv => s.lettersMeet SetsShort cptr sptr chptr parv
  | .sjoin _ sptr parv =>
    ∀ leaf ∈ s.sjoinLeaves sptr parv, leaf.2.msgs ≠ 0 → ShortPair leaf.2.msgs leaf.2.per

/-- What keeps the arrays from running over. -/
structure Printable (mode : Mode) : Prop where
  key : mode.key.length ≤ KEYLEN
  pair : mode.msgs ≠ 0 → ShortPair mode.msgs mode.per

theorem printable_edit {m : ModeSource} {l : ModeLoop} {change : ModeChange}
    (short : SetsShort m l change.letter)
    (allows : Allows m l change) (before : Printable (l.s.chan m.chptr).mode) :
    Printable ((l.s.chan m.chptr).edit change.edit).mode := by
  cases edit : change.edit with
  | flood pair =>
    cases pair with
    | none => exact ⟨before.key, fun some_ => absurd rfl some_⟩
    | some pair => exact ⟨before.key, fun _ => short _ (floodRead_of_allows allows edit)⟩
  | key key =>
    refine ⟨?_, before.pair⟩
    cases allows with
    | key =>
      rw [← ModeEdit.key.inj edit]
      exact List.length_take_le ..
    | unkey =>
      rw [← ModeEdit.key.inj edit]
      exact Nat.zero_le _
    | _ => exact absurd edit (by simp)
  | limit nusers => cases nusers <;> exact ⟨before.key, before.pair⟩
  | status who flag add => exact before
  | ban ban => exact before
  | unban banid => exact before
  | bit flag add => exact ⟨before.key, before.pair⟩

/-- **What the messages of a run leave can be printed.** -/
theorem ModeRun.printable {s : Ircd} (run : ModeRun LeavesShort s) (chptr : ChannelId) :
    Printable (s.chan chptr).mode := by
  refine run.invariant (fun mode plain => ?_) ?_ chptr
  · refine ⟨?_, fun some_ => absurd plain.msgs some_⟩
    rw [plain.key]
    exact Nat.zero_le _
  · intro s msg ok before d
    cases msg with
    | mode cptr sptr chptr parv => exact set_channel_mode_keeps printable_edit ok before d
    | sjoin cptr sptr parv =>
      exact m_sjoin_keeps (fun chptr mode left =>
        ⟨sjoinLeaves_key left (before chptr).key, ok _ left⟩) before d

/-- **`channel_modes` and its arrays**: in a run whose messages leave short pairs nothing runs over,
and a state of modes makes something run over exactly when it prints a long pair. -/
theorem channel_modes_fits {s : Ircd} (run : ModeRun LeavesShort s) (chptr : ChannelId)
    (server oper is_list : Bool) :
    ModeTextFits (s.chan chptr).mode server oper is_list ∧
      ∀ m : Mode, m.key.length ≤ KEYLEN → (ModeTextFits m server oper is_list ↔
        (m.msgs ≠ 0 → (server || oper || is_list) = true → ShortPair m.msgs m.per)) := by
  have printable := run.printable chptr
  refine ⟨?_, fun m key => modeTextFits_iff key server oper is_list⟩
  exact (modeTextFits_iff printable.key ..).mpr fun some_ _ => printable.pair some_

/-- A server sets a limit of ten seconds on the channel that it opened. -/
def sampleFlooded (pair : Text) : Ircd :=
  (sampleKnown.hears (.sjoin 1 1 ["hub", "1000", "#c", "+nt", ".@ann"])).hears
    (.mode 1 1 1 ["+f", pair])

theorem channel_modes_fits_ten :
    ModeTextFits ((sampleFlooded "5:10").chan 1).mode true true true ∧
      ((sampleFlooded "5:10").chan 1).mode.msgs = 5 := by
  refine ⟨(channel_modes_fits (.message (.message (.start sampleKnown_plain) ?_) ?_) 1 true true
    true).1, by decide +kernel⟩
  · unfold LeavesShort
    decide +kernel
  · unfold LeavesShort
    decide +kernel

/-- **A pair of two numbers of two digits runs over `tmppbuf`.** -/
theorem not_channel_modes_fits : ¬ ∀ s, ModeRun (fun _ _ => True) s → ∀ chptr server oper is_list,
    ModeTextFits (s.chan chptr).mode server oper is_list := by
  intro fits
  have fit := fits (sampleFlooded "99:99")
    (.message (.message (.start sampleKnown_plain) trivial) trivial) 1 true false false
  have printed : tmppbuf ((sampleFlooded "99:99").chan 1).mode true false false =
      some "99:99 " := by decide +kernel
  exact absurd (fit.tmppbuf _ printed) (by decide)

end Ircd

end PtlinkIrcd
