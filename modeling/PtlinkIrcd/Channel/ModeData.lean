/-
**Modes with parameters and their data.**

A channel has a limit of users, a key and a limit of messages exactly when `limit`, `key` and `msgs`
say so, and `channel_modes` shows them so. The limit of messages is a bit besides, which `can_send`
asks first.

* `Mode.Agrees` — the bit agrees with the numbers, and the letters with what is enforced.
* `agrees_iff` — for that the numbers have to be there exactly when the bit is, and to be a pair that
  the limiter works with; the limit of users and the key agree in any case.
* `edit_flood`, `sjoinMerge_flood` — what a change and a message do to the bit and the numbers.
* `mode_data_agrees` — **every state of a run agrees in which no MODE sets a pair with a negative
  time and no SJOIN leaves a pair**; and an SJOIN keeps a state so exactly when it leaves none.
-/

import PtlinkIrcd.Channel.CanSend
import PtlinkIrcd.Channel.ModeRuns

namespace PtlinkIrcd

/-! ### What is enforced -/

/-- The modes without the bits, which `can_join` asks before the parameters. -/
def Mode.params (mode : Mode) : Mode := { mode with mode := 0 }

/-- **`can_join` refuses somebody for a parameter.** -/
def Mode.Refuses (mode : Mode) (numeric : Nat) : Prop :=
  ∃ (s : Ircd) (u : ClientId) (chptr : ChannelId) (given : Option Text),
    (s.chan chptr).mode = mode.params ∧ (s.can_join u chptr given).2 = numeric

/-- **Modes agree with their data.** -/
structure Mode.Agrees (mode : Mode) : Prop where
  bit : mode.mode.has MODE_FLOODLIMIT = true ↔ mode.msgs ≠ 0
  per : mode.msgs ≠ 0 → mode.per ≠ 0
  flood : ∀ server oper is_list, 'f' ∈ (channel_modes mode server oper is_list).1 ↔
    ∃ conf now link, (floodTest conf now mode link).2.isSome = true
  limit : ∀ server oper is_list, 'l' ∈ (channel_modes mode server oper is_list).1 ↔
    mode.Refuses ERR_CHANNELISFULL
  key : ∀ server oper is_list, 'k' ∈ (channel_modes mode server oper is_list).1 ↔
    mode.Refuses ERR_BADCHANNELKEY

section Letters

variable (mode : Mode) (server oper is_list : Bool)

theorem not_mem_letters {flags : List (Char × Flags)} {c : Char} (other : c ∉ flags.map Prod.fst)
    (word : Flags) : c ∉ letters flags word := by
  intro inside
  obtain ⟨f, member, same⟩ := List.mem_map.mp inside
  exact other (List.mem_map.mpr ⟨f, List.mem_of_mem_filter member, same⟩)

theorem mem_channel_modes {c : Char}
    (other : c ∉ '+' :: (channelFlagsHead.map Prod.fst ++ channelFlagsTail.map Prod.fst)) :
    c ∈ (channel_modes mode server oper is_list).1 ↔
      mode.limit ≠ 0 ∧ c = 'l' ∨ mode.key ≠ [] ∧ c = 'k' ∨ mode.msgs ≠ 0 ∧ c = 'f' := by
  obtain ⟨sign, bits⟩ := not_or.mp (fun h => other (List.mem_cons.mpr h))
  obtain ⟨first, last⟩ := not_or.mp (fun h => bits (List.mem_append.mpr h))
  have one : ∀ (p : Prop) [Decidable p] (d : Char), c ∈ (if p then [d] else []) ↔ p ∧ c = d := by
    intro p _ d
    split <;> simp [*]
  unfold channel_modes
  simp only [List.mem_cons, List.mem_append, sign, not_mem_letters first, not_mem_letters last, one,
    false_or, or_false, or_assoc, List.cons_append]

theorem f_mem_channel_modes : 'f' ∈ (channel_modes mode server oper is_list).1 ↔ mode.msgs ≠ 0 := by
  rw [mem_channel_modes _ _ _ _ (by decide)]
  simp

theorem l_mem_channel_modes : 'l' ∈ (channel_modes mode server oper is_list).1 ↔ mode.limit ≠ 0 := by
  rw [mem_channel_modes _ _ _ _ (by decide)]
  simp

theorem k_mem_channel_modes : 'k' ∈ (channel_modes mode server oper is_list).1 ↔ mode.key ≠ [] := by
  rw [mem_channel_modes _ _ _ _ (by decide)]
  simp

end Letters

namespace Ircd

variable {s : Ircd} {u : ClientId} {chptr : ChannelId} {given : Option Text} {mode : Mode}

theorem joinRefusal_bitless {c : Channel} (x : Client) (bitless : c.mode.mode = 0) :
    joinRefusal c x given =
      if c.mode.key ≠ [] && (given.getD [] = [] || irccmp c.mode.key (given.getD []) ≠ 0) then
        some (("k" : Text), ERR_BADCHANNELKEY)
      else if c.mode.limit ≠ 0 && c.users ≥ c.mode.limit.toInt then some ("l", ERR_CHANNELISFULL)
      else if c.is_banned x then some ("b", ERR_BANNEDFROMCHAN)
      else none := by
  have none_ : ∀ flag, Flags.has 0 flag = false := Flags.zero_has
  unfold joinRefusal
  rw [bitless]
  simp only [none_, Bool.and_false, Bool.false_and, Bool.false_eq_true, if_false]

theorem joinRefusal_of_can_join {numeric : Nat} (some_ : numeric ≠ 0)
    (refused : (s.can_join u chptr given).2 = numeric) :
    ∃ letter, joinRefusal (s.chan chptr) (s.client u) given = some (letter, numeric) := by
  unfold can_join at refused
  simp only [] at refused
  split at refused
  · exact absurd refused.symm some_
  · split at refused
    · exact absurd refused.symm some_
    · split at refused
      · exact absurd refused.symm some_
      · split at refused
        · exact absurd refused.symm some_
        · cases found : joinRefusal (s.chan chptr) (s.client u) given with
          | none =>
            rw [found] at refused
            exact absurd refused.symm some_
          | some both =>
            obtain ⟨letter, n⟩ := both
            rw [found] at refused
            exact ⟨letter, by rw [show n = numeric from refused]⟩

/-- A channel in a state in which a client without rights asks for it. -/
def asked (c : Channel) : Ircd := (blank sampleConf 0 "home").setChan 0 c

theorem can_join_asked (c : Channel) (given : Option Text) {letter : Text} {numeric : Nat}
    (refused : joinRefusal c .zero given = some (letter, numeric)) :
    ((asked c).can_join 1 0 given).2 = numeric := by
  have client : (asked c).client 1 = .zero := rfl
  have chan : (asked c).chan 0 = c := setChan_chan_self ..
  have invited : (asked c).invited 1 = [] := rfl
  unfold can_join
  rw [client, chan]
  simp only [refused]
  rw [if_neg (by decide), if_neg (by simp [Client.isOper, Client.zero]),
    if_neg (by simp [Client.isOper, Client.zero]), if_neg (by simp [invited])]

/-- **The limit of users refuses exactly when it is not zero.** -/
theorem refuses_limit (mode : Mode) : mode.Refuses ERR_CHANNELISFULL ↔ mode.limit ≠ 0 := by
  constructor
  · rintro ⟨s, u, chptr, given, modes, refused⟩ zero
    obtain ⟨letter, found⟩ := joinRefusal_of_can_join (by decide) refused
    rw [joinRefusal_bitless _ (by rw [modes]; rfl)] at found
    have limit : (s.chan chptr).mode.limit = 0 := by rw [modes]; exact zero
    rw [limit] at found
    repeat' split at found
    · exact absurd (Prod.mk.inj (Option.some.inj found)).2 (by decide)
    · rename_i full
      simp at full
    · exact absurd (Prod.mk.inj (Option.some.inj found)).2 (by decide)
    · cases found
  · intro some_
    let c : Channel := { Channel.zero [] 0 with mode := mode.params, users := mode.limit.toInt }
    have full : joinRefusal c .zero (some mode.key) = some (("l" : Text), ERR_CHANNELISFULL) := by
      have limit : c.mode.limit ≠ 0 := some_
      have key : c.mode.key = mode.key := rfl
      rw [joinRefusal_bitless _ (show c.mode.mode = 0 from rfl), if_neg, if_pos]
      · rw [decide_eq_true limit, Bool.true_and]
        exact decide_eq_true (Int.le_refl _)
      · rw [key, Option.getD_some, irccmp_self]
        simp
    exact ⟨asked c, 1, 0, some mode.key, congrArg Channel.mode (setChan_chan_self ..),
      can_join_asked c _ full⟩

/-- **The key refuses exactly when there is one.** -/
theorem refuses_key (mode : Mode) : mode.Refuses ERR_BADCHANNELKEY ↔ mode.key ≠ [] := by
  constructor
  · rintro ⟨s, u, chptr, given, modes, refused⟩ none_
    obtain ⟨letter, found⟩ := joinRefusal_of_can_join (by decide) refused
    rw [joinRefusal_bitless _ (by rw [modes]; rfl)] at found
    have key : (s.chan chptr).mode.key = [] := by rw [modes]; exact none_
    rw [key] at found
    repeat' split at found
    · rename_i keyed
      simp at keyed
    · exact absurd (Prod.mk.inj (Option.some.inj found)).2 (by decide)
    · exact absurd (Prod.mk.inj (Option.some.inj found)).2 (by decide)
    · cases found
  · intro some_
    let c : Channel := { Channel.zero [] 0 with mode := mode.params }
    have keyed : joinRefusal c .zero none = some (("k" : Text), ERR_BADCHANNELKEY) := by
      have key : c.mode.key ≠ [] := some_
      rw [joinRefusal_bitless _ (show c.mode.mode = 0 from rfl), if_pos]
      simp [key]
    exact ⟨asked c, 1, 0, none, congrArg Channel.mode (setChan_chan_self ..),
      can_join_asked c _ keyed⟩

end Ircd

/-! ### The bit and the numbers -/

def Mode.flood (mode : Mode) : Bool × Int32 × Int32 :=
  (mode.mode.has MODE_FLOODLIMIT, mode.msgs, mode.per)

/-- No limit, or one that the limiter works with. -/
def FloodData (flood : Bool × Int32 × Int32) : Prop :=
  flood.1 = false ∧ flood.2.1 = 0 ∨ flood.1 = true ∧ 1 < flood.2.1 ∧ 1 ≤ flood.2.2

instance (flood : Bool × Int32 × Int32) : Decidable (FloodData flood) :=
  inferInstanceAs (Decidable (_ ∧ _ ∨ _ ∧ _ ∧ _))

/-- **Modes agree with their data exactly when the bit and the numbers do.** -/
theorem agrees_iff (mode : Mode) : mode.Agrees ↔ FloodData mode.flood := by
  have positive : ∀ v : Int32, 1 ≤ v → v ≠ 0 := by
    intro v pos zero
    rw [zero] at pos
    exact absurd pos (by decide)
  constructor
  · intro agrees
    have works := (agrees.flood true true true).symm.trans (f_mem_channel_modes ..)
    rw [floodTest_refuses_iff] at works
    by_cases some_ : mode.msgs = 0
    · refine .inl ⟨?_, some_⟩
      cases bit : mode.mode.has MODE_FLOODLIMIT with
      | false => exact bit
      | true => exact absurd some_ (agrees.bit.mp bit)
    · exact .inr (works.mpr some_)
  · intro data
    have bit : mode.mode.has MODE_FLOODLIMIT = true ↔ mode.msgs ≠ 0 := by
      rcases data with ⟨off, none_⟩ | ⟨on, many, -⟩
      · exact iff_of_false (by rw [show mode.mode.has MODE_FLOODLIMIT = false from off]; decide)
          (fun some_ => some_ none_)
      · exact iff_of_true on (positive _ (Int32.le_of_lt many))
    refine ⟨bit, fun some_ => ?_, fun server oper is_list => ?_, fun server oper is_list => ?_,
      fun server oper is_list => ?_⟩
    · rcases data with ⟨-, none_⟩ | ⟨-, -, pos⟩
      · exact absurd none_ some_
      · exact positive _ pos
    · rw [f_mem_channel_modes, floodTest_refuses_iff]
      rcases data with ⟨off, none_⟩ | works
      · exact iff_of_false (fun some_ => some_ none_)
          (fun works => absurd (works.1.symm.trans off) (by decide))
      · exact iff_of_true (bit.mp works.1) works
    · rw [l_mem_channel_modes, Ircd.refuses_limit]
    · rw [k_mem_channel_modes, Ircd.refuses_key]

/-! ### What messages do to them -/

theorem setfl_pair {cp : Text} {pair : Int32 × Int32} (read : setfl cp = some pair) :
    1 < pair.1 ∧ pair.2 ≠ 0 := by
  unfold setfl at read
  simp only [] at read
  split at read
  · cases read
  · rename_i range
    simp only [Bool.or_eq_true, decide_eq_true_eq, not_or] at range
    rw [← Option.some.inj read]
    exact ⟨Int32.not_le.mp range.1.2, range.2⟩

theorem setfl_of_floodRead {m : ModeSource} {l : ModeLoop} {c : Char} {pair : Int32 × Int32}
    (read : floodRead m l c = some pair) : ∃ cp, setfl cp = some pair := by
  unfold floodRead at read
  split at read
  · cases read
  · simp only [] at read
    split at read
    · exact ⟨_, read⟩
    · cases read

/-- **A change leaves the bit and the numbers alone, sets them to the pair that was read, or clears
them.** -/
theorem edit_flood {m : ModeSource} {l : ModeLoop} {change : ModeChange}
    (allows : Allows m l change) :
    ((l.s.chan m.chptr).edit change.edit).mode.flood = (l.s.chan m.chptr).mode.flood ∨
      (∃ pair, floodRead m l change.letter = some pair ∧
        ((l.s.chan m.chptr).edit change.edit).mode.flood = (true, pair)) ∨
      ((l.s.chan m.chptr).edit change.edit).mode.flood = (false, 0, 0) := by
  have kept : ∀ flag : Flags, flag &&& MODE_FLOODLIMIT = 0#32 → ∀ add,
      (((l.s.chan m.chptr).mode.mode.change add flag).has MODE_FLOODLIMIT =
        (l.s.chan m.chptr).mode.mode.has MODE_FLOODLIMIT) :=
    fun flag apart add => Flags.change_has_of_disjoint apart _ add
  cases edit : change.edit with
  | status who flag add => exact .inl rfl
  | key key => exact .inl rfl
  | ban ban => exact .inl rfl
  | unban banid => exact .inl rfl
  | flood pair =>
    cases pair with
    | some pair =>
      refine .inr (.inl ⟨pair, floodRead_of_allows allows edit, ?_⟩)
      have set := Flags.change_has_self (show MODE_FLOODLIMIT ≠ 0#32 by decide)
        (l.s.chan m.chptr).mode.mode true
      exact congrArg (·, pair) set
    | none =>
      have clear := Flags.change_has_self (show MODE_FLOODLIMIT ≠ 0#32 by decide)
        (l.s.chan m.chptr).mode.mode false
      exact .inr (.inr (congrArg (·, (0, 0)) clear))
  | limit nusers =>
    refine .inl ?_
    cases nusers with
    | some nusers => exact congrArg (·, _) (kept MODE_LIMIT (by decide) true)
    | none => exact congrArg (·, _) (kept MODE_LIMIT (by decide) false)
  | bit flag add =>
    refine .inl (congrArg (·, _) (kept flag ?_ add))
    cases allows with
    | @bit c word letter =>
      obtain ⟨rfl, -⟩ := ModeEdit.bit.inj edit
      have others : Flags.apart (modeBits.map Prod.snd) [ MODE_FLOODLIMIT] = true := by decide
      obtain ⟨before, after, table, -⟩ := List.lookup_eq_some_iff.mp letter
      have member : (c, word) ∈ modeBits := by
        rw [table]
        exact List.mem_append_right _ List.mem_cons_self
      exact Flags.and_eq_zero_of_apart others (List.mem_map.mpr ⟨_, member, rfl⟩) List.mem_cons_self
    | _ => exact absurd edit (by simp)

namespace Ircd

theorem sjoinRead_bit {x : Client} {parv : List Text} {read : Mode × List Text}
    (reads : sjoinRead x parv = some read) : read.1.mode.has MODE_FLOODLIMIT = false := by
  refine sjoinModes_keeps (P := fun mode => mode.mode.has MODE_FLOODLIMIT = false)
    (fun _ _ _ _ _ off => off) (fun _ _ off => off) (fun _ _ off => off) (fun mode c off => ?_)
    (sjoinRead_modes reads) (List.suffix_refl _) (Flags.zero_has _)
  show Flags.has (mode.mode ||| sjoinFlag c) MODE_FLOODLIMIT = false
  rw [Flags.or_has, off, Bool.false_or]
  unfold sjoinFlag
  split <;> decide

/-- **What a message does to the bit and the numbers.** -/
theorem sjoinMerge_flood {mode : Mode} (off : mode.mode.has MODE_FLOODLIMIT = false)
    (verdict : Verdict) (oldmode : Mode) :
    (sjoinMerge verdict mode oldmode).flood =
      if verdict.keepNew = false then oldmode.flood
      else if verdict.keepOur = true then
        (oldmode.flood.1, if oldmode.msgs ≠ 0 then oldmode.msgs else mode.msgs,
          if oldmode.per ≠ 0 then oldmode.per else mode.per)
      else (false, mode.msgs, mode.per) := by
  unfold sjoinMerge Mode.flood
  cases verdict.keepNew with
  | false => rfl
  | true =>
    cases verdict.keepOur with
    | true =>
      rw [if_neg (show ¬ (!true) = true by decide), if_pos rfl, if_neg (show ¬ true = false by decide),
        if_pos rfl]
      simp only [Flags.or_has, off, Bool.false_or]
    | false => exact congrArg (·, _) off

/-- **A message leaves data that agree** exactly when its modes do not count, it brings no pair, or
the channel keeps a pair of its own. -/
theorem sjoinMerge_floodData_iff {mode : Mode} (off : mode.mode.has MODE_FLOODLIMIT = false)
    {verdict : Verdict} {oldmode : Mode} (before : FloodData oldmode.flood) :
    FloodData (sjoinMerge verdict mode oldmode).flood ↔
      mode.msgs = 0 ∨ verdict.keepNew = false ∨ verdict.keepOur = true ∧ oldmode.msgs ≠ 0 := by
  have quiet : ∀ per, FloodData (false, mode.msgs, per) ↔ mode.msgs = 0 := by
    intro per
    unfold FloodData
    simp
  rw [sjoinMerge_flood off]
  cases verdict.keepNew with
  | false => simpa using before
  | true =>
    cases verdict.keepOur with
    | false => simpa using quiet mode.per
    | true =>
      rw [if_neg (by decide), if_pos rfl]
      rcases before with ⟨clear, none_⟩ | ⟨set, many, positive⟩
      · have none' : oldmode.msgs = 0 := none_
        rw [clear, if_neg (by simp [none']), quiet]
        simp [none']
      · have some_ : oldmode.msgs ≠ 0 := by
          intro zero
          rw [show oldmode.flood.2.1 = 0 from zero] at many
          exact absurd many (by decide)
        have some' : oldmode.per ≠ 0 := by
          intro zero
          rw [show oldmode.flood.2.2 = 0 from zero] at positive
          exact absurd positive (by decide)
        rw [if_pos some_, if_pos some']
        exact iff_of_true (.inr ⟨set, many, positive⟩) (.inr (.inr ⟨rfl, some_⟩))

/-! ### Every state -/

/-- A letter that sets no pair, or one with a positive time. -/
def SetsPositive (m : ModeSource) (l : ModeLoop) (c : Char) : Prop :=
  ∀ pair ∈ floodRead m l c, 1 ≤ pair.2

instance (m : ModeSource) (l : ModeLoop) (c : Char) : Decidable (SetsPositive m l c) :=
  Option.decidableForallMem (floodRead m l c)

/-- An SJOIN that leaves no pair: it brings none, its modes do not count, or the channel keeps a pair
of its own. -/
def LeavesNoPair (s : Ircd) (sptr : ClientId) (parv : List Text) : Prop :=
  ∀ read ∈ sjoinRead (s.client sptr) parv, read.1.msgs = 0 ∨
    ∃ chptr ∈ s.hash_find_channel (parv.getD 2 []),
      let verdict := (s.chan chptr).verdict false (atol (parv.getD 1 [])) (read.2.headD [])
      verdict.keepNew = false ∨ verdict.keepOur = true ∧ (s.chan chptr).mode.msgs ≠ 0

/-- **A message after which the data agree.** -/
def KeepsData (s : Ircd) : ModeMessage → Prop
  | .mode cptr sptr chptr parv => s.lettersMeet SetsPositive cptr sptr chptr parv
  | .sjoin _ sptr parv => s.LeavesNoPair sptr parv

theorem sjoinLeaves_floodData_iff {s : Ircd} {sptr : ClientId} {parv : List Text}
    (before : ∀ chptr, FloodData (s.chan chptr).mode.flood) :
    (∀ leaf ∈ s.sjoinLeaves sptr parv, FloodData leaf.2.flood) ↔ s.LeavesNoPair sptr parv := by
  unfold sjoinLeaves LeavesNoPair
  cases reads : sjoinRead (s.client sptr) parv with
  | none => simp
  | some read =>
    have off := sjoinRead_bit reads
    cases found : s.hash_find_channel (parv.getD 2 []) with
    | some chptr => simpa using sjoinMerge_floodData_iff off (before chptr)
    | none =>
      have zero : FloodData Mode.zero.flood := by decide
      have iff := @sjoinMerge_floodData_iff _ off ⟨atol (parv.getD 1 []), true, true⟩ _ zero
      simpa [Mode.zero] using iff

theorem floodData_edit {m : ModeSource} {l : ModeLoop} {change : ModeChange}
    (positive : SetsPositive m l change.letter) (allows : Allows m l change)
    (before : FloodData (l.s.chan m.chptr).mode.flood) :
    FloodData ((l.s.chan m.chptr).edit change.edit).mode.flood := by
  rcases edit_flood allows with same | ⟨pair, read, set⟩ | clear
  · rw [same]
    exact before
  · obtain ⟨cp, reads⟩ := setfl_of_floodRead read
    rw [set]
    exact .inr ⟨rfl, (setfl_pair reads).1, positive _ read⟩
  · rw [clear]
    exact .inl ⟨rfl, rfl⟩

theorem ModeRun.floodData {s : Ircd} (run : ModeRun KeepsData s) (chptr : ChannelId) :
    FloodData (s.chan chptr).mode.flood := by
  refine run.invariant (P := fun mode => FloodData mode.flood) (fun mode plain => ?_) ?_ chptr
  · exact .inl ⟨plain.flood, plain.msgs⟩
  · intro s msg ok before d
    cases msg with
    | mode cptr sptr chptr parv =>
      exact set_channel_mode_keeps (P := fun mode => FloodData mode.flood) floodData_edit ok before d
    | sjoin cptr sptr parv =>
      exact m_sjoin_keeps (P := fun mode => FloodData mode.flood) (fun chptr mode left =>
        (sjoinLeaves_floodData_iff before).mpr ok (chptr, mode) left) before d

/-- The modes of all channels agree after an SJOIN exactly when what it leaves does. -/
theorem agrees_m_sjoin_iff (s : Ircd) (cptr sptr : ClientId) (parv : List Text)
    (before : ∀ chptr, (s.chan chptr).mode.Agrees) :
    (∀ chptr, ((s.m_sjoin cptr sptr parv).chan chptr).mode.Agrees) ↔ s.LeavesNoPair sptr parv := by
  rw [← sjoinLeaves_floodData_iff fun chptr => (agrees_iff _).mp (before chptr)]
  constructor
  · intro after leaf left
    have here := after leaf.1
    have left' : s.sjoinLeaves sptr parv = some leaf := left
    rw [m_sjoin_mode, left'] at here
    simp only [if_pos] at here
    exact (agrees_iff _).mp here
  · intro leaves chptr
    exact m_sjoin_keeps (fun d mode left => (agrees_iff _).mpr (leaves (d, mode) left)) before chptr

/-- **Modes agree with their data** in every state of a run whose messages keep them so, and an SJOIN
does exactly when it leaves no pair. -/
theorem mode_data_agrees {s : Ircd} (run : ModeRun KeepsData s) :
    (∀ chptr, (s.chan chptr).mode.Agrees) ∧
      ∀ cptr sptr parv, (∀ chptr, ((s.m_sjoin cptr sptr parv).chan chptr).mode.Agrees) ↔
        s.LeavesNoPair sptr parv := by
  have agrees : ∀ chptr, (s.chan chptr).mode.Agrees := fun chptr =>
    (agrees_iff _).mpr (run.floodData chptr)
  exact ⟨agrees, fun cptr sptr parv => agrees_m_sjoin_iff s cptr sptr parv agrees⟩

/-- The channel of an SJOIN, of which a server then sets the limit of messages. -/
def sampleLimited (pair : Text) : Ircd :=
  (sampleKnown.hears (.sjoin 1 1 ["hub", "1000", "#c", "+ntl", "20", ".@ann"])).hears
    (.mode 1 1 1 ["+f", pair])

theorem mode_data_agrees_five :
    ((sampleLimited "5:10").chan 1).mode.Agrees ∧
      ((sampleLimited "5:10").chan 1).mode.flood = (true, 5, 10) := by
  refine ⟨(mode_data_agrees (.message (.message (.start sampleKnown_plain) ?_) ?_)).1 1,
    by decide +kernel⟩
  · unfold KeepsData LeavesNoPair
    decide +kernel
  · unfold KeepsData lettersMeet
    decide +kernel

/-- **An SJOIN with a pair shows a limit that nothing enforces.** -/
theorem not_mode_data_agrees :
    ¬ ∀ s, ModeRun (fun _ _ => True) s → ∀ chptr, (s.chan chptr).mode.Agrees := by
  intro agrees
  have bad := (agrees_iff _).mp (agrees
    (sampleKnown.hears (.sjoin 1 1 ["hub", "1000", "#c", "+ntf", "5:10", ".@ann"]))
    (.message (.start sampleKnown_plain) trivial) 1)
  have left : ((sampleKnown.hears (.sjoin 1 1
      ["hub", "1000", "#c", "+ntf", "5:10", ".@ann"])).chan 1).mode.flood = (false, 5, 10) := by
    decide +kernel
  rw [left] at bad
  exact absurd bad (by decide)

end Ircd

end PtlinkIrcd
