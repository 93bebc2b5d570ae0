/-
**The letters of a MODE command under their signs.**

The words of a command are mode strings and arguments, by turns as the letters take them.

* `modeText` — the mode strings of a command; `modeWords_reads` — the loop beside a reader of them.
* `SameMarks` — a letter leaves the sign, and the marks of `f` and `l`, alone.
* `takenBits` — the bits that are named under another sign than plus by a source that may change them.
* `modeLoop_kept` — **a channel that these do not take from the kept ones stays one of them.**
-/

import PtlinkIrcd.Channel.ModeEffect

namespace PtlinkIrcd

/-! ### The mode strings -/

/-- The mode strings of a command, one after the other: the first parameter, and what no letter takes as
its argument. -/
def modeText (m : ModeSource) : Nat → ModeLoop → Text → Text
  | 0, _, curr => curr
  | rounds + 1, l, curr =>
    curr ++
      match (curr.foldl (modeLetter m) l).parv with
      | [] => []
      | next :: parv => modeText m rounds { curr.foldl (modeLetter m) l with parv := parv } next

/-- **What a loop whose letters meet a condition keeps, together with what a reader of the letters has
seen of them.** -/
theorem modeWords_reads {γ : Type} {m : ModeSource} {ok : ModeLoop → Char → Prop}
    {read : γ → Char → γ} {P : γ → ModeLoop → Prop}
    (letter : ∀ g l c, ok l c → P g l → P (read g c) (modeLetter m l c))
    (next : ∀ g l parv, P g l → P g { l with parv := parv }) (rounds : Nat) {g : γ} {l : ModeLoop}
    {curr : Text} (meets : wordsMeet m ok rounds l curr) (start : P g l) :
    P ((modeText m rounds l curr).foldl read g) (modeWords m rounds l curr) := by
  have word : ∀ (curr : Text) (g : γ) (l : ModeLoop), wordMeets m ok l curr → P g l →
      P (curr.foldl read g) (curr.foldl (modeLetter m) l) := by
    intro curr
    induction curr with
    | nil => exact fun g l _ start => start
    | cons c curr ih => exact fun g l meets start => ih _ _ meets.2 (letter g l c meets.1 start)
  induction rounds generalizing g l curr with
  | zero => exact word curr g l meets start
  | succ rounds ih =>
    unfold wordsMeet at meets
    unfold modeWords modeText
    have before := word curr g l meets.1 start
    have after := meets.2
    rw [List.foldl_append]
    generalize curr.foldl (modeLetter m) l = first at before after ⊢
    generalize curr.foldl read g = seen at before ⊢
    dsimp only at after ⊢
    revert after
    cases first.parv with
    | nil => exact fun _ => before
    | cons following parv => exact fun after => ih after (next _ _ _ before)

/-! ### Letters that leave the marks alone -/

/-- The sign and the marks of `f` and `l` are the same. -/
structure SameMarks (l other : ModeLoop) : Prop where
  whatt : other.whatt = l.whatt
  floodset : other.floodset = l.floodset
  limitset : other.limitset = l.limitset

namespace SameMarks

theorem refl (l : ModeLoop) : SameMarks l l := ⟨rfl, rfl, rfl⟩

theorem modeAdmin (m : ModeSource) (l : ModeLoop) : SameMarks l (modeAdmin m l) := by
  unfold PtlinkIrcd.modeAdmin modeAdminOf ModeLoop.status ModeLoop.opless ModeLoop.complain ModeLoop.tell
  simp only []
  repeat' split
  all_goals exact ⟨rfl, rfl, rfl⟩

theorem modeStatusOf (m : ModeSource) (c : Char) (flag : Flags) (who : ClientId) (arg : Text)
    (l : ModeLoop) : SameMarks l (modeStatusOf m c flag who arg l) := by
  unfold PtlinkIrcd.modeStatusOf ModeLoop.status ModeLoop.opless ModeLoop.complain ModeLoop.tell
  simp only []
  repeat' split
  all_goals exact ⟨rfl, rfl, rfl⟩

theorem modeStatus (m : ModeSource) (c : Char) (flag : Flags) (l : ModeLoop) :
    SameMarks l (modeStatus m c flag l) := by
  unfold PtlinkIrcd.modeStatus ModeLoop.complain
  simp only []
  repeat' split
  all_goals first
    | exact ⟨rfl, rfl, rfl⟩
    | exact ⟨(modeStatusOf ..).whatt, (modeStatusOf ..).floodset, (modeStatusOf ..).limitset⟩

theorem modeKey (m : ModeSource) (l : ModeLoop) : SameMarks l (modeKey m l) := by
  unfold PtlinkIrcd.modeKey modeKeyOf ModeLoop.opless ModeLoop.complain
  simp only []
  repeat' split
  all_goals exact ⟨rfl, rfl, rfl⟩

theorem modeBan (m : ModeSource) (l : ModeLoop) : SameMarks l (modeBan m l) := by
  unfold PtlinkIrcd.modeBan modeBanList modeBanOf ModeLoop.opless ModeLoop.complain
  simp only []
  repeat' split
  all_goals exact ⟨rfl, rfl, rfl⟩

theorem modeBit (m : ModeSource) (c : Char) (flag : Flags) (l : ModeLoop) :
    SameMarks l (modeBit m c flag l) := by
  unfold PtlinkIrcd.modeBit modeBitRefused modeBitOf ModeLoop.opless ModeLoop.complain
  simp only []
  repeat' split
  all_goals exact ⟨rfl, rfl, rfl⟩

theorem modeUnknown (m : ModeSource) (c : Char) (l : ModeLoop) : SameMarks l (modeUnknown m c l) := by
  unfold PtlinkIrcd.modeUnknown ModeLoop.complain
  repeat' split
  all_goals exact ⟨rfl, rfl, rfl⟩

end SameMarks

theorem modeFlood_whatt (m : ModeSource) (l : ModeLoop) : (modeFlood m l).whatt = l.whatt := by
  unfold modeFlood
  split
  · rfl
  split
  · rfl
  split
  · rfl
  unfold modeFloodOf ModeLoop.tell
  simp only []
  repeat' split
  all_goals rfl

theorem modeLimit_whatt (m : ModeSource) (l : ModeLoop) : (modeLimit m l).whatt = l.whatt := by
  unfold modeLimit
  split
  · rfl
  split
  · rfl
  split
  · rfl
  unfold modeLimitOf ModeLoop.tell
  simp only []
  repeat' split
  all_goals rfl

/-- **The sign is what the last sign says.** -/
theorem modeLetter_whatt (m : ModeSource) (l : ModeLoop) (c : Char) :
    (modeLetter m l c).whatt =
      if c = '+' then .add else if c = '-' then .del else if c = '=' then .query else l.whatt := by
  unfold modeLetter
  repeat' split
  · rfl
  · rfl
  · rfl
  · exact (SameMarks.modeAdmin ..).whatt
  · exact (SameMarks.modeStatus ..).whatt
  · exact (SameMarks.modeStatus ..).whatt
  · exact (SameMarks.modeStatus ..).whatt
  · exact (SameMarks.modeKey ..).whatt
  · exact (SameMarks.modeBan ..).whatt
  · exact modeFlood_whatt m l
  · exact modeLimit_whatt m l
  · exact (SameMarks.modeBit ..).whatt
  · exact (SameMarks.modeUnknown ..).whatt

/-! ### Bits that are taken -/

/-- The sign at the end of a mode string, and the bits that were named under another one than plus. -/
structure Taken where
  whatt : Whatt
  bits : Flags

def Taken.read (m : ModeSource) (g : Taken) (c : Char) : Taken :=
  if c = '+' then { g with whatt := .add }
  else if c = '-' then { g with whatt := .del }
  else if c = '=' then { g with whatt := .query }
  else if g.whatt = .add || !m.maySet c then g
  else { g with bits := g.bits ||| (modeBits.lookup c).getD 0 }

/-- The bits that mode strings take, as far as their source may. -/
def takenBits (m : ModeSource) (curr : Text) : Flags := (curr.foldl (Taken.read m) ⟨.add, 0⟩).bits

def KEPT_FLAGS : Flags := MODE_REGISTERED ||| (MODE_ADMINONLY ||| MODE_OPERONLY ||| MODE_LOG)

theorem keeps_and_kept (conf : Conf) (bits : Flags) :
    keeps conf (bits &&& KEPT_FLAGS) = keeps conf bits := by
  unfold keeps
  rw [Flags.and_has (by decide), Flags.and_has (by decide)]

theorem keeps_of_within {conf : Conf} {mask bits : Flags} (within : Flags.Within mask bits)
    (kept : keeps conf bits = true) : keeps conf mask = true := by
  unfold keeps at kept ⊢
  rw [Bool.or_eq_true, Bool.and_eq_true] at kept ⊢
  exact kept.imp (fun both => ⟨both.1, within.has both.2⟩) within.has

/-- **The invariant**: of the bits that keep the channel, the loop has those that were not taken. -/
structure LeavesKept (m : ModeSource) (old : Flags) (g : Taken) (l : ModeLoop) : Prop where
  whatt : l.whatt = g.whatt
  bits : Flags.Within (l.s.chan m.chptr).mode.mode (old &&& KEPT_FLAGS &&& ~~~g.bits)

namespace LeavesKept

variable {m : ModeSource} {old : Flags} {g : Taken} {l other : ModeLoop} {c : Char}

theorem read_whatt (m : ModeSource) (g : Taken) (c : Char) : (g.read m c).whatt =
    if c = '+' then .add else if c = '-' then .del else if c = '=' then .query else g.whatt := by
  unfold Taken.read
  repeat' split
  all_goals rfl

theorem read_bits (m : ModeSource) (g : Taken) (c : Char) :
    ∃ flag, (g.read m c).bits = g.bits ||| flag := by
  unfold Taken.read
  repeat' split
  all_goals first | exact ⟨_, rfl⟩ | exact ⟨0#32, BitVec.or_zero.symm⟩

theorem read_taken {flag : Flags} (found : modeBits.lookup c = some flag) (sign : g.whatt ≠ .add)
    (may : m.maySet c = true) : (g.read m c).bits = g.bits ||| flag := by
  have named : ∀ d, modeBits.lookup d = none → c ≠ d := fun d none_ same =>
    absurd (found.symm.trans (same ▸ none_)) (by simp)
  unfold Taken.read
  rw [if_neg (named '+' rfl), if_neg (named '-' rfl), if_neg (named '=' rfl), if_neg (by simp [sign, may]),
    found]
  rfl

/-- Bits that the channel has stay those that it has when more are taken. -/
theorem more {mode : Flags} (within : Flags.Within mode (old &&& KEPT_FLAGS &&& ~~~g.bits)) :
    Flags.Within mode (old &&& KEPT_FLAGS &&& ~~~(g.read m c).bits) := by
  obtain ⟨flag, taken⟩ := read_bits m g c
  rw [taken, BitVec.not_or, ← BitVec.and_assoc]
  exact within.and _

theorem cleared {mode flag : Flags} (apart : flag &&& KEPT_FLAGS = 0#32)
    (within : Flags.Within mode (old &&& KEPT_FLAGS &&& ~~~g.bits)) :
    Flags.Within (mode &&& ~~~flag) (old &&& KEPT_FLAGS &&& ~~~g.bits) := by
  have dropped := within.drop flag
  have same : old &&& KEPT_FLAGS &&& ~~~g.bits &&& ~~~flag = old &&& KEPT_FLAGS &&& ~~~g.bits := by
    have off := Flags.not_and_of_disjoint apart
    calc old &&& KEPT_FLAGS &&& ~~~g.bits &&& ~~~flag
        = old &&& (~~~flag &&& KEPT_FLAGS) &&& ~~~g.bits := by ac_rfl
      _ = old &&& KEPT_FLAGS &&& ~~~g.bits := by rw [off]
  rw [same] at dropped
  exact dropped

/-- **One more letter.** -/
theorem letter (leaves : LeavesKept m old g l) (c : Char) :
    LeavesKept m old (g.read m c) (modeLetter m l c) := by
  refine ⟨by rw [modeLetter_whatt, read_whatt, leaves.whatt], ?_⟩
  rcases modeLetter_cases m l c with idles | ⟨_, aside⟩ | ⟨change, rfl, allows, makes⟩
  · rw [idles.sends.chan]
    exact more leaves.bits
  · rw [aside.keeps.mode]
    exact more leaves.bits
  · obtain ⟨invites, block⟩ := makes.block
    rw [block]
    show Flags.Within ((l.s.chan m.chptr).edit change.edit).mode.mode _
    cases allows with
    | bit found turn may once room new =>
      show Flags.Within ((l.s.chan m.chptr).mode.mode.change _ _) _
      unfold Flags.change
      split
      · exact (more leaves.bits).or _
      · rename_i removed
        have sign : g.whatt ≠ .add := fun same =>
          removed (decide_eq_true (leaves.whatt.trans same))
        rw [read_taken found sign may, BitVec.not_or, ← BitVec.and_assoc]
        exact leaves.bits.drop _
    | flood => exact (more leaves.bits).or _
    | unflood => exact more (cleared (by decide) leaves.bits)
    | limit => exact (more leaves.bits).or _
    | unlimit => exact more (cleared (by decide) leaves.bits)
    | _ => exact more leaves.bits

end LeavesKept

/-! ### The command -/

theorem Steps.frame {m : ModeSource} {l other : ModeLoop} {c : Char} (steps : Steps m l c other) :
    ModeFrame m.chptr l.s other.s := by
  rcases steps with idles | ⟨_, aside⟩ | ⟨_, _, _, makes⟩
  · exact .sends _ idles.sends
  · exact aside.frame
  · exact makes.frame

namespace Ircd

variable (s : Ircd) (cptr sptr : ClientId) (chptr : ChannelId) (parv : List Text)

/-- **A MODE writes in one channel**, and neither its members nor its counters. -/
theorem set_channel_mode_frame : ModeFrame chptr s (s.set_channel_mode cptr sptr chptr parv) := by
  unfold set_channel_mode
  split
  · exact .sends _ (.send ..)
  · have loop : ModeFrame chptr s (s.modeLoop cptr sptr chptr parv).s :=
      modeWords_run (P := fun l => ModeFrame chptr s l.s)
        (fun l c _ frame => frame.trans (modeLetter_cases (s.modeSource cptr sptr chptr) l c).frame)
        (fun _ _ frame => frame) _
        (wordsMeet_true ..) (.refl chptr s)
    exact loop.trans (.sends _ (sends_modeTell ..))

/-- What the mode strings of a command take from the modes of a channel. -/
def modeTaken : Flags :=
  takenBits (s.modeSource cptr sptr chptr)
    (modeText (s.modeSource cptr sptr chptr) parv.tail.length (s.modeStart parv.tail) (parv.headD []))

variable {s cptr sptr chptr parv}

/-- **A channel is still kept** by the bits that are not taken. -/
theorem set_channel_mode_kept
    (kept : keeps s.conf ((s.chan chptr).mode.mode &&& ~~~s.modeTaken cptr sptr chptr parv) = true) :
    keeps s.conf ((s.set_channel_mode cptr sptr chptr parv).chan chptr).mode.mode = true := by
  unfold set_channel_mode
  split
  · exact keeps_of_within ((show Flags.Within _ _ from BitVec.and_self).and _) kept
  · rw [(sends_modeTell ..).chan]
    have leaves := modeWords_reads
      (P := LeavesKept (s.modeSource cptr sptr chptr) (s.chan chptr).mode.mode)
      (fun _ _ c _ leaves => leaves.letter c) (fun _ _ _ leaves => ⟨leaves.whatt, leaves.bits⟩) _
      (wordsMeet_true (s.modeSource cptr sptr chptr) parv.tail.length (s.modeStart parv.tail)
        (parv.headD [])) (g := ⟨.add, 0⟩) ⟨rfl, .and (.and BitVec.and_self _) _⟩
    refine keeps_of_within leaves.bits ?_
    rw [BitVec.and_assoc, BitVec.and_comm KEPT_FLAGS, ← BitVec.and_assoc, keeps_and_kept]
    exact kept

end Ircd

end PtlinkIrcd
