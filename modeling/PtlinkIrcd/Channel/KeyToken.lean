/-
**A stored key is one word of a line.**

`fix_key`, for a local user, masks a byte and then drops what could not be read back. `fix_key_old`,
for a server, masks after `check_string` has looked for blanks and drops line feeds and colons only,
so that a byte with its highest bit set becomes a blank or a carriage return. `m_sjoin` stores the
parameter as it came, which the parser has cut off at blanks.

* `KeyToken` — a key that a line carries and that is read back (`KeyToken.reads_back`).
* `keptBytes` — the bytes of a parameter that `fix_key_old` keeps.
* `FromLine` — the parameters of a message are those of a line.
* `stored_key_token` — **stored keys are words as long as no server sets a key with such a byte**,
  and exactly then.
-/

import Mathlib.Data.List.TakeWhile
import PtlinkIrcd.Channel.ModeRuns
import PtlinkIrcd.Model.Names

namespace PtlinkIrcd

/-! ### Words of a line -/

/-- **A key that can be sent and read back.** -/
structure KeyToken (key : Text) : Prop where
  short : key.length ≤ KEYLEN
  ended : NUL ∉ key
  noBlank : ' ' ∉ key
  noReturn : '\r' ∉ key
  noFeed : '\n' ∉ key
  noColon : key.head? ≠ some ':'

theorem KeyToken.nil : KeyToken [] := ⟨Nat.zero_le _, by simp, by simp, by simp, by simp, by simp⟩

/-- **A key is read back** from the parameters that it was sent with. -/
theorem KeyToken.reads_back {key : Text} (token : KeyToken key) (some_ : key ≠ []) (slots : Nat)
    (rest : Text) :
    params (slots + 2) (' ' :: (key ++ ' ' :: rest)) = key :: params (slots + 1) (' ' :: rest) :=
  params_middle ⟨some_, token.noBlank, token.noColon⟩ slots rest

def CleanLine (text : Text) : Prop := NUL ∉ text ∧ '\r' ∉ text ∧ '\n' ∉ text

theorem IsMiddle.keyToken {p text : Text} (middle : IsMiddle p) (inside : p ⊆ text)
    (clean : CleanLine text) : KeyToken (p.take KEYLEN) := by
  have part : p.take KEYLEN ⊆ p := List.take_subset ..
  refine ⟨List.length_take_le .., fun bad => clean.1 (inside (part bad)),
    fun bad => middle.noBlank (part bad), fun bad => clean.2.1 (inside (part bad)),
    fun bad => clean.2.2 (inside (part bad)), ?_⟩
  cases p with
  | nil => exact absurd rfl middle.ne_nil
  | cons c p => exact middle.noColon

/-! ### The two ways to clean a key -/

/-- **A local user's key is a word.** -/
theorem keyToken_fix_key (arg : Text) : KeyToken ((fix_key arg).take KEYLEN) := by
  have plain : ∀ c ∈ (fix_key arg).take KEYLEN, c ≠ ':' ∧ ' ' < c := by
    intro c inside
    have kept := (List.mem_filter.mp (List.mem_of_mem_take inside)).2
    simpa using kept
  refine ⟨List.length_take_le .., fun bad => ?_, fun bad => ?_, fun bad => ?_, fun bad => ?_,
    fun bad => ?_⟩
  · exact absurd (plain _ bad).2 (by decide)
  · exact absurd (plain _ bad).2 (by decide)
  · exact absurd (plain _ bad).2 (by decide)
  · exact absurd (plain _ bad).2 (by decide)
  · exact (plain _ (List.mem_of_mem_head? bad)).1 rfl

/-- The bytes of a parameter that `fix_key_old` keeps, as they were before they were masked, as far
as a key goes. -/
def keptBytes (p : Text) : Text :=
  (((check_string p).takeWhile fun c => sevenBits c ≠ NUL).filter fun c =>
    sevenBits c ≠ '\n' ∧ sevenBits c ≠ ':').take KEYLEN

/-- **A parameter without a byte that is masked to a blank or a carriage return.** -/
def MasksWell (p : Text) : Prop := ∀ c ∈ keptBytes p, sevenBits c ≠ ' ' ∧ sevenBits c ≠ '\r'

instance (p : Text) : Decidable (MasksWell p) :=
  List.decidableBAll _ (keptBytes p)

theorem take_fix_key_old (p : Text) :
    (fix_key_old (check_string p)).take KEYLEN = (keptBytes p).map sevenBits := by
  have swap : ∀ t : Text, ((t.map sevenBits).filter fun c => c ≠ '\n' ∧ c ≠ ':').takeWhile (· ≠ NUL) =
      ((t.takeWhile fun c => sevenBits c ≠ NUL).filter fun c =>
        sevenBits c ≠ '\n' ∧ sevenBits c ≠ ':').map sevenBits := by
    intro t
    induction t with
    | nil => rfl
    | cons c t ih =>
      rw [List.map_cons]
      by_cases ends : sevenBits c = NUL
      · rw [ends, List.filter_cons_of_pos (by decide), List.takeWhile_cons_of_neg (by decide),
          List.takeWhile_cons_of_neg (by simp [ends])]
        rfl
      · rw [List.takeWhile_cons_of_pos (by simpa using ends)]
        by_cases kept : sevenBits c ≠ '\n' ∧ sevenBits c ≠ ':'
        · rw [List.filter_cons_of_pos (by simpa using kept), List.filter_cons_of_pos (by simpa using kept),
            List.takeWhile_cons_of_pos (by simpa using ends), ih, List.map_cons]
        · rw [List.filter_cons_of_neg (by simpa using kept), List.filter_cons_of_neg (by simpa using kept),
            ih]
  unfold fix_key_old keptBytes
  rw [swap, List.map_take]

/-- **A server's key is a word exactly when its bytes mask well.** -/
theorem keyToken_fix_key_old_iff (p : Text) :
    KeyToken ((fix_key_old (check_string p)).take KEYLEN) ↔ MasksWell p := by
  have kept : ∀ c ∈ keptBytes p, sevenBits c ≠ NUL ∧ sevenBits c ≠ '\n' ∧ sevenBits c ≠ ':' := by
    intro c inside
    obtain ⟨before, plain⟩ := List.mem_filter.mp (List.mem_of_mem_take inside)
    have ended := List.mem_takeWhile_imp before
    exact ⟨by simpa using ended, by simpa using plain⟩
  rw [take_fix_key_old]
  constructor
  · intro token c inside
    exact ⟨fun blank => token.noBlank (List.mem_map.mpr ⟨c, inside, blank⟩),
      fun return_ => token.noReturn (List.mem_map.mpr ⟨c, inside, return_⟩)⟩
  · intro masks
    have none_ : ∀ d, (∀ c ∈ keptBytes p, sevenBits c ≠ d) → d ∉ (keptBytes p).map sevenBits := by
      intro d never bad
      obtain ⟨c, inside, same⟩ := List.mem_map.mp bad
      exact never c inside same
    refine ⟨?_, none_ _ fun c inside => (kept c inside).1, none_ _ fun c inside => (masks c inside).1,
      none_ _ fun c inside => (masks c inside).2, none_ _ fun c inside => (kept c inside).2.1, ?_⟩
    · rw [List.length_map]
      exact List.length_take_le ..
    · exact fun colon => none_ _ (fun c inside => (kept c inside).2.2) (List.mem_of_mem_head? colon)

/-! ### Every state -/

/-- The parameter of which a letter of a server makes the key. -/
def keyRead (m : ModeSource) (l : ModeLoop) (c : Char) : Option Text :=
  match l.parv with
  | [] => none
  | p :: _ =>
    if c = 'k' ∧ l.whatt = .add ∧ l.keychange = false ∧ m.isok = true ∧ m.my = false ∧
        l.len + (l.keyText m).length + 2 < MODEBUFLEN then some p
    else none

/-- A letter that sets no key of a server, or one that masks well. -/
def SetsToken (m : ModeSource) (l : ModeLoop) (c : Char) : Prop :=
  ∀ p ∈ keyRead m l c, MasksWell p

instance (m : ModeSource) (l : ModeLoop) (c : Char) : Decidable (SetsToken m l c) :=
  Option.decidableForallMem (keyRead m l c)

theorem keyText_add {m : ModeSource} {l : ModeLoop} {p : Text} {parv : List Text}
    (turn : l.whatt = .add) (args : l.parv = p :: parv) :
    l.keyText m =
      (if m.my then fix_key (check_string p) else fix_key_old (check_string p)).take KEYLEN := by
  have add : l.whatt ≠ .del := by rw [turn]; decide
  unfold ModeLoop.keyText ModeLoop.keyArg
  simp only []
  rw [if_neg add, args, if_neg (List.cons_ne_nil p parv)]
  rfl

theorem keyToken_edit {m : ModeSource} {l : ModeLoop} {change : ModeChange}
    (sets : SetsToken m l change.letter) (allows : Allows m l change)
    (before : KeyToken (l.s.chan m.chptr).mode.key) :
    KeyToken ((l.s.chan m.chptr).edit change.edit).mode.key := by
  cases allows with
  | key turn args once some_ ok new room =>
    show KeyToken (l.keyText m)
    obtain ⟨p, parv, args⟩ := List.exists_cons_of_ne_nil args
    have masks := sets p
    unfold keyRead at masks
    rw [args] at masks
    rw [keyText_add turn args]
    cases own : m.my with
    | true => exact keyToken_fix_key _
    | false => exact (keyToken_fix_key_old_iff p).mpr (masks (if_pos ⟨rfl, turn, once, ok, own, room⟩))
  | unkey => exact .nil
  | _ => exact before

/-- A message is a line that the parser took apart. -/
def ModeMessage.FromLine : ModeMessage → Prop
  | .mode _ _ _ parv => ∃ text, CleanLine text ∧ parv <:+ params (MAXPARA - 1) text
  | .sjoin _ _ parv => ∃ text, CleanLine text ∧ parv.tail = params (MAXPARA - 1) text

namespace Ircd

/-- **The key of an SJOIN is a word.** -/
theorem keyToken_sjoinLeaves {s : Ircd} {cptr sptr : ClientId} {parv : List Text}
    (fromLine : (ModeMessage.sjoin cptr sptr parv).FromLine) {chptr : ChannelId} {mode : Mode}
    (left : s.sjoinLeaves sptr parv = some (chptr, mode))
    (before : KeyToken (s.chan chptr).mode.key) : KeyToken mode.key := by
  obtain ⟨text, clean, line⟩ := fromLine
  obtain ⟨verdict, read, oldmode, reads, old, rfl⟩ := sjoinLeaves_cases left
  have args : parv.drop 4 <:+ params (MAXPARA - 1) text := by
    rw [← line, ← List.drop_one, show 4 = 1 + 3 from rfl, ← List.drop_drop]
    exact List.drop_suffix ..
  have new : KeyToken read.1.key := by
    refine sjoinModes_keeps (P := fun mode => KeyToken mode.key) (fun _ cp rest more inside _ => ?_)
      (fun _ _ kept => kept) (fun _ _ kept => kept) (fun _ _ kept => kept) (sjoinRead_modes reads)
      args .nil
    obtain ⟨middle, part⟩ := params_followed inside more
    exact middle.keyToken part clean
  rcases sjoinMerge_key verdict read.1 oldmode with same | same
  · rw [same]
    exact new
  · rw [same]
    rcases old with rfl | rfl
    · exact .nil
    · exact before

/-- A MODE whose keys of a server mask well, or an SJOIN that is a line. -/
def BringsTokens (s : Ircd) : ModeMessage → Prop
  | .mode cptr sptr chptr parv => s.lettersMeet SetsToken cptr sptr chptr parv
  | .sjoin cptr sptr parv => (ModeMessage.sjoin cptr sptr parv).FromLine

theorem ModeRun.keyToken {s : Ircd} (run : ModeRun BringsTokens s) (chptr : ChannelId) :
    KeyToken (s.chan chptr).mode.key := by
  refine run.invariant (P := fun mode => KeyToken mode.key) (fun mode plain => ?_) ?_ chptr
  · rw [plain.key]
    exact .nil
  · intro s msg ok before d
    cases msg with
    | mode cptr sptr chptr parv =>
      exact set_channel_mode_keeps (P := fun mode => KeyToken mode.key) keyToken_edit ok before d
    | sjoin cptr sptr parv =>
      have line : (ModeMessage.sjoin cptr sptr parv).FromLine := ok
      exact m_sjoin_keeps (P := fun mode => KeyToken mode.key) (fun chptr mode left =>
        keyToken_sjoinLeaves line left (before chptr)) before d

theorem modeKey_key {m : ModeSource} {l : ModeLoop} {p : Text} {parv : List Text}
    (turn : l.whatt = .add) (args : l.parv = p :: parv) (once : l.keychange = false)
    (ok : m.isok = true) (room : l.len + KEYLEN + 2 < MODEBUFLEN) :
    ((modeKey m l).s.chan m.chptr).mode.key =
      if l.keyText m = [] then (l.s.chan m.chptr).mode.key else l.keyText m := by
  have size : (l.keyText m).length ≤ KEYLEN := List.length_take_le ..
  unfold modeKey
  rw [if_neg (by simp [turn, args]), if_neg (by simp [once])]
  by_cases none_ : l.keyArg m = []
  · have empty : l.keyText m = [] := by
      unfold ModeLoop.keyText
      rw [none_, List.take_nil]
    rw [if_pos none_, if_pos empty]
  · have some_ : l.keyText m ≠ [] := by
      intro empty
      rcases List.take_eq_nil_iff.mp empty with zero | none'
      · exact absurd zero (by decide)
      · exact none_ none'
    have cut : (l.keyArg m).take KEYLEN = l.keyText m := rfl
    rw [if_neg none_, if_neg (by simp [ok]), if_neg some_, cut]
    generalize l.keyText m = arg at size
    unfold modeKeyOf
    simp only []
    rw [if_neg (by omega), if_pos turn]
    split
    · assumption
    · rw [setMode, setChan_chan_self]

theorem modeKey_key_refused {m : ModeSource} (l : ModeLoop) (ok : m.isok = false) :
    ((modeKey m l).s.chan m.chptr).mode.key = (l.s.chan m.chptr).mode.key := by
  unfold modeKey
  split
  · rfl
  · split
    · rfl
    · split
      · rfl
      · rw [if_pos (by simp [ok]), (Idles.opless ..).sends.chan]

theorem modeKey_parv {m : ModeSource} {l : ModeLoop} {p : Text} {parv : List Text}
    (turn : l.whatt = .add) (args : l.parv = p :: parv) : (modeKey m l).parv = parv := by
  have tail : l.parv.tail = parv := by rw [args]; rfl
  unfold modeKey
  rw [if_neg (by simp [turn, args])]
  split
  · exact tail
  · split
    · exact tail
    · split
      · unfold ModeLoop.opless ModeLoop.complain
        split <;> exact tail
      · unfold modeKeyOf
        simp only []
        rw [if_pos turn]
        split
        · exact tail
        · split <;> exact tail

/-- **A key that is set is a word** exactly when nothing is set, or a user of this server sets it, or
its bytes mask well. -/
theorem keyToken_set_channel_mode_iff (s : Ircd) (cptr sptr : ClientId) (chptr : ChannelId) (p : Text)
    (before : KeyToken (s.chan chptr).mode.key) :
    KeyToken ((s.set_channel_mode cptr sptr chptr ["+k", p]).chan chptr).mode.key ↔
      s.modeSecured sptr chptr = true ∨ (s.modeSource cptr sptr chptr).isok = false ∨
        (s.client sptr).myClient = true ∨ MasksWell p := by
  let m := s.modeSource cptr sptr chptr
  let l : ModeLoop := { s.modeStart [p] with whatt := .add }
  have loop : s.modeLoop cptr sptr chptr ["+k", p] = modeKey m l := by
    have left : (modeKey m l).parv = [] := modeKey_parv rfl rfl
    show (match (modeKey m l).parv with
      | [] => modeKey m l
      | next :: parv => modeWords m 0 { modeKey m l with parv := parv } next) = modeKey m l
    rw [left]
  have told : ((modeTell m (modeKey m l)).chan chptr).mode.key =
      ((modeKey m l).s.chan m.chptr).mode.key := by
    rw [(sends_modeTell ..).chan]
    rfl
  unfold set_channel_mode
  by_cases secured : s.modeSecured sptr chptr = true
  · rw [if_pos secured]
    simp only [secured, true_or, iff_true]
    exact before
  · rw [if_neg secured, loop, told]
    cases ok : m.isok with
    | false =>
      rw [modeKey_key_refused l ok]
      simp only [secured, true_or, or_true, iff_true]
      exact before
    | true =>
      have room : l.len + KEYLEN + 2 < MODEBUFLEN := show 0 + KEYLEN + 2 < MODEBUFLEN by decide
      have key := modeKey_key (show l.whatt = .add from rfl) (show l.parv = p :: [] from rfl) rfl ok
        room
      rw [or_iff_right secured, or_iff_right Bool.false_ne_true.symm, key]
      have text := keyText_add (show l.whatt = .add from rfl) (show l.parv = p :: [] from rfl) (m := m)
      have own : m.my = (s.client sptr).myClient := rfl
      cases client : (s.client sptr).myClient with
      | true =>
        have token := keyToken_fix_key (check_string p)
        rw [if_pos (own.trans client)] at text
        simp only [true_or, iff_true]
        split
        · exact before
        · rw [text]
          exact token
      | false =>
        have token := keyToken_fix_key_old_iff p
        rw [if_neg (by rw [own, client]; decide)] at text
        rw [or_iff_right Bool.false_ne_true, ← token, text]
        split
        · rename_i empty
          rw [empty]
          exact ⟨fun _ => .nil, fun _ => before⟩
        · exact Iff.rfl

/-- **Stored keys are words** as long as the keys that servers set mask well. A word is read back from
the line that it is sent in, and the key that is set next is a word only if it masks well. -/
theorem stored_key_token {s : Ircd} (run : ModeRun BringsTokens s) (chptr : ChannelId) :
    KeyToken (s.chan chptr).mode.key ∧
      ((s.chan chptr).mode.key ≠ [] → ∀ slots rest,
        params (slots + 2) (' ' :: ((s.chan chptr).mode.key ++ ' ' :: rest)) =
          (s.chan chptr).mode.key :: params (slots + 1) (' ' :: rest)) ∧
      ∀ cptr sptr p, (KeyToken ((s.set_channel_mode cptr sptr chptr ["+k", p]).chan chptr).mode.key ↔
        s.modeSecured sptr chptr = true ∨ (s.modeSource cptr sptr chptr).isok = false ∨
          (s.client sptr).myClient = true ∨ MasksWell p) := by
  have token := run.keyToken chptr
  exact ⟨token, token.reads_back, fun cptr sptr p =>
    keyToken_set_channel_mode_iff s cptr sptr chptr p token⟩

/-- The channel of an SJOIN with a key, of which a server then sets another key. -/
def sampleKeyHeard (key : Text) : Ircd :=
  (sampleKnown.hears (.sjoin 1 1 ["hub", "1000", "#c", "+ntk", "first", ".@ann"])).hears
    (.mode 1 1 1 ["+k", key])

theorem fromLine_sampleKeyHeard :
    (ModeMessage.sjoin 1 1 ["hub", "1000", "#c", "+ntk", "first", ".@ann"]).FromLine :=
  ⟨" 1000 #c +ntk first .@ann", by unfold CleanLine; decide, by decide +kernel⟩

theorem stored_key_token_pass :
    KeyToken ((sampleKeyHeard "pass").chan 1).mode.key ∧
      ((sampleKeyHeard "pass").chan 1).mode.key = "pass" :=
  ⟨(stored_key_token (.message (.message (.start sampleKnown_plain) fromLine_sampleKeyHeard)
    (by unfold BringsTokens lettersMeet; decide +kernel)) 1).1, by decide +kernel⟩

/-- **A server's key with a byte 0xA0 is stored with a blank.** -/
theorem not_stored_key_token : ¬ ∀ s, ModeRun (fun _ msg => msg.FromLine) s → ∀ chptr,
    KeyToken (s.chan chptr).mode.key := by
  intro tokens
  have token := tokens (sampleKeyHeard "a\u00a0b")
    (.message (.message (.start sampleKnown_plain) fromLine_sampleKeyHeard)
      ⟨" +k a\u00a0b", by unfold CleanLine; decide, by decide +kernel⟩) 1
  have key : ((sampleKeyHeard "a\u00a0b").chan 1).mode.key = "a b" := by decide +kernel
  rw [key] at token
  exact token.noBlank (by decide)

end Ircd

end PtlinkIrcd
