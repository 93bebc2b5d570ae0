/-
**Messages about modes, one after the other.**

* `ModeMessage` — a MODE or an SJOIN that reached its handler, from any source.
* `Ircd.lettersMeet` — a condition on every letter of a MODE where it is read.
* `Ircd.sjoinLeaves` — the modes that an SJOIN leaves to its channel.
* `ModeRun allowed` — the states that such messages lead to, when each is allowed where it is heard.
  Whatever else happens in between leaves the modes of a channel alone, or makes a channel whose
  modes are plain.
* `ModeRun.invariant` — what plain modes have and every allowed message keeps, all modes have.
-/

import PtlinkIrcd.Channel.ModeEffect
import PtlinkIrcd.Channel.Runs

namespace PtlinkIrcd

/-! ### Messages -/

/-- A message that writes modes of channels. -/
inductive ModeMessage
  | mode (cptr sptr : ClientId) (chptr : ChannelId) (parv : List Text)
  | sjoin (cptr sptr : ClientId) (parv : List Text)

/-- The modes of a channel that was made, and perhaps opened: bits without a parameter. -/
structure Mode.Plain (mode : Mode) : Prop where
  limit : mode.limit = 0
  key : mode.key = []
  msgs : mode.msgs = 0
  per : mode.per = 0
  flood : mode.mode.has MODE_FLOODLIMIT = false

theorem Mode.plain_zero : Mode.zero.Plain := ⟨rfl, rfl, rfl, rfl, rfl⟩

namespace Ircd

def hears (s : Ircd) : ModeMessage → Ircd
  | .mode cptr sptr chptr parv => s.set_channel_mode cptr sptr chptr parv
  | .sjoin cptr sptr parv => s.m_sjoin cptr sptr parv

/-- **The states that messages about modes lead to.** -/
inductive ModeRun (allowed : Ircd → ModeMessage → Prop) : Ircd → Prop
  | start {s : Ircd} (plain : ∀ chptr, (s.chan chptr).mode.Plain) : ModeRun allowed s
  | message {s : Ircd} (run : ModeRun allowed s) {msg : ModeMessage} (ok : allowed s msg) :
      ModeRun allowed (s.hears msg)
  | other {s t : Ircd} (run : ModeRun allowed s)
      (modes : ∀ chptr, (t.chan chptr).mode = (s.chan chptr).mode ∨ (t.chan chptr).mode.Plain) :
      ModeRun allowed t

/-- **The invariants of modes.** -/
theorem ModeRun.invariant {allowed : Ircd → ModeMessage → Prop} {P : Mode → Prop}
    (plain : ∀ mode : Mode, mode.Plain → P mode)
    (step : ∀ s msg, allowed s msg → (∀ chptr, P (s.chan chptr).mode) →
      ∀ chptr, P ((s.hears msg).chan chptr).mode)
    {s : Ircd} (run : ModeRun allowed s) (chptr : ChannelId) : P (s.chan chptr).mode := by
  induction run generalizing chptr with
  | start fresh => exact plain _ (fresh chptr)
  | message _ ok ih => exact step _ _ ok ih chptr
  | other _ modes ih =>
    rcases modes chptr with same | fresh
    · rw [same]
      exact ih chptr
    · exact plain _ fresh

end Ircd

/-! ### MODE -/

/-- The pair that a letter sets as the limit of messages. -/
def floodRead (m : ModeSource) (l : ModeLoop) (c : Char) : Option (Int32 × Int32) :=
  match l.parv with
  | [] => none
  | p :: _ =>
    let arg := check_string p
    if c = 'f' ∧ l.whatt = .add ∧ l.floodset = false ∧ m.isok = true ∧ 3 ≤ arg.length ∧
        isvalidopt arg = true ∧ l.len + arg.length + 2 < MODEBUFLEN then setfl arg
    else none

theorem floodRead_of_allows {m : ModeSource} {l : ModeLoop} {change : ModeChange}
    {pair : Int32 × Int32} (allows : Allows m l change) (edit : change.edit = .flood (some pair)) :
    floodRead m l change.letter = some pair := by
  cases allows with
  | flood turn args once ok long valid read room =>
    unfold floodRead
    rw [args]
    simp only []
    rw [if_pos ⟨trivial, turn, once, ok, long, valid, room⟩, read]
    exact congrArg some (Option.some.inj (ModeEdit.flood.inj edit))
  | _ => exact absurd edit (by simp)

namespace Ircd

/-- The letters of a message meet a condition where they are read, or none is read at all. -/
def lettersMeet (s : Ircd) (ok : ModeSource → ModeLoop → Char → Prop) (cptr sptr : ClientId)
    (chptr : ChannelId) (parv : List Text) : Prop :=
  s.modeSecured sptr chptr = true ∨
    wordsMeet (s.modeSource cptr sptr chptr) (ok (s.modeSource cptr sptr chptr))
      parv.tail.length (s.modeStart parv.tail) (parv.headD [])

instance (s : Ircd) (ok : ModeSource → ModeLoop → Char → Prop)
    [∀ m l c, Decidable (ok m l c)] (cptr sptr : ClientId) (chptr : ChannelId)
    (parv : List Text) : Decidable (s.lettersMeet ok cptr sptr chptr parv) :=
  inferInstanceAs (Decidable (_ ∨ _))

section SetMode

variable {P : Mode → Prop} {ok : ModeSource → ModeLoop → Char → Prop}

theorem modeLetter_keeps
    (kept : ∀ {m : ModeSource} {l : ModeLoop} {change : ModeChange}, ok m l change.letter →
      Allows m l change → P (l.s.chan m.chptr).mode →
      P ((l.s.chan m.chptr).edit change.edit).mode)
    {m : ModeSource} {l : ModeLoop} {c : Char} (meets : ok m l c)
    (before : ∀ chptr, P (l.s.chan chptr).mode) (chptr : ChannelId) :
    P ((modeLetter m l c).s.chan chptr).mode := by
  rcases modeLetter_cases m l c with idles | ⟨_, aside⟩ | ⟨change, rfl, allows, makes⟩
  · rw [idles.sends.chan]
    exact before chptr
  · by_cases here : chptr = m.chptr
    · rw [here, aside.keeps.mode]
      exact before _
    · rw [aside.frame.chan chptr here]
      exact before chptr
  · by_cases here : chptr = m.chptr
    · obtain ⟨invites, block⟩ := makes.block
      rw [here, block]
      exact kept meets allows (before _)
    · rw [makes.frame.chan chptr here]
      exact before chptr

/-- **A MODE keeps what its changes keep.** -/
theorem set_channel_mode_keeps
    (kept : ∀ {m : ModeSource} {l : ModeLoop} {change : ModeChange}, ok m l change.letter →
      Allows m l change → P (l.s.chan m.chptr).mode →
      P ((l.s.chan m.chptr).edit change.edit).mode)
    {s : Ircd} {cptr sptr : ClientId} {chptr : ChannelId} {parv : List Text}
    (meets : s.lettersMeet ok cptr sptr chptr parv) (before : ∀ d, P (s.chan d).mode)
    (d : ChannelId) : P ((s.set_channel_mode cptr sptr chptr parv).chan d).mode := by
  unfold set_channel_mode
  split
  · exact before d
  · rename_i free
    rw [(sends_modeTell ..).chan]
    exact modeWords_run (P := fun l => ∀ d, P (l.s.chan d).mode)
      (fun _ _ meets => modeLetter_keeps kept meets) (fun _ _ same => same) _
      (meets.resolve_left free) before d

end SetMode

/-! ### SJOIN -/

/-- The channel that a message is about, and the modes that it leaves to it. -/
def sjoinLeaves (s : Ircd) (sptr : ClientId) (parv : List Text) : Option (ChannelId × Mode) :=
  (sjoinRead (s.client sptr) parv).map fun read =>
    let newts := atol (parv.getD 1 [])
    let nicks := read.2.headD []
    match s.hash_find_channel (parv.getD 2 []) with
    | some chptr =>
      (chptr, sjoinMerge ((s.chan chptr).verdict false newts nicks) read.1 (s.chan chptr).mode)
    | none => (s.nextChan, sjoinMerge ⟨newts, true, true⟩ read.1 .zero)

section Sjoin

variable {s : Ircd}

theorem add_user_mode (s : Ircd) (chptr : ChannelId) (who : ClientId) (flags : Flags)
    (d : ChannelId) :
    ((s.add_user_to_channel chptr who flags).chan d).mode = (s.chan d).mode := by
  cases has : (s.client who).user with
  | none =>
    unfold add_user_to_channel
    rw [has]
  | some user =>
    rw [add_user_chan_eq has]
    split
    · rename_i here
      rw [here]
    · rfl

theorem sjoinEnter_mode (s : Ircd) (chptr : ChannelId) (u : ClientId) (fl : Flags)
    (nick name : Text) (d : ChannelId) :
    ((s.sjoinEnter chptr u fl nick name).chan d).mode = (s.chan d).mode := by
  unfold sjoinEnter
  split
  · rfl
  · rw [(Sends.sendIf ..).chan]
    exact add_user_mode ..

theorem sjoinWho_mode (cptr sptr : ClientId) (chptr : ChannelId) (source name : Text)
    (keepNew : Bool) (l : SjoinLoop) (s0 : Text) (d : ChannelId) :
    ((sjoinWho cptr sptr chptr source name keepNew l s0).s.chan d).mode = (l.s.chan d).mode := by
  have sent := Sends.find_chasing l.s sptr (sjoinNick l.s.conf.HALFOPS s0).2
  cases who : l.s.bringable cptr (sjoinNick l.s.conf.HALFOPS s0).2 with
  | none =>
    rw [sjoinWho_none sptr chptr source name keepNew who]
    exact congrArg Channel.mode (congrFun sent.chan d)
  | some u =>
    rw [sjoinWho_some sptr chptr source name keepNew who]
    simp only []
    rw [(sends_statusParams ..).chan]
    exact (sjoinEnter_mode ..).trans (congrArg Channel.mode (congrFun sent.chan d))

/-- **The nicks of a message change no modes.** -/
theorem sjoinPeople_mode (s : Ircd) (cptr sptr : ClientId) (chptr : ChannelId)
    (source name modes : Text) (verdict : Verdict) (nicks : Text) (d : ChannelId) :
    ((s.sjoinPeople cptr sptr chptr source name modes verdict nicks).chan d).mode =
      (s.chan d).mode := by
  have loop : ∀ (words : List Text) (l : SjoinLoop),
      ((words.foldl (sjoinWho cptr sptr chptr source name verdict.keepNew) l).s.chan d).mode =
        (l.s.chan d).mode := by
    intro words
    induction words with
    | nil => exact fun _ => rfl
    | cons s0 words ih => exact fun l => (ih _).trans (sjoinWho_mode ..)
  unfold sjoinPeople
  simp only []
  rw [(Sends.sendIf ..).chan]
  refine Eq.trans ?_ (loop (strtoken ' ' nicks) ⟨s, .plus, [], 0⟩)
  split <;> rfl

theorem sjoinOn_mode (s : Ircd) (cptr sptr : ClientId) (chptr : ChannelId) (isnew : Bool)
    (source name modes : Text) (newts : Int) (mode : Mode) (nicks : Text) (d : ChannelId) :
    ((s.sjoinOn cptr sptr chptr isnew source name modes newts mode nicks).chan d).mode =
      if d = chptr then
        sjoinMerge ((s.chan chptr).verdict isnew newts nicks) mode (s.chan chptr).mode
      else (s.chan d).mode := by
  have zero := sends_sjoinZero s sptr chptr name isnew newts (s.chan chptr).channelts
  unfold sjoinOn
  simp only []
  rw [sjoinPeople_mode]
  obtain ⟨within, -, block⟩ := sjoinMode_spec
    ((s.sjoinZero sptr chptr name isnew newts (s.chan chptr).channelts).setChannelts chptr
      ((s.chan chptr).verdict isnew newts nicks).ts) sptr chptr source (s.chan chptr).channelts
    newts ((s.chan chptr).verdict isnew newts nicks) mode
  split
  · rename_i here
    rw [here]
    refine (congrArg Channel.mode block).trans ?_
    simp only [setChannelts, setChan_chan_self]
    rw [zero.chan]
  · rename_i elsewhere
    refine (congrArg Channel.mode (within.chan d elsewhere)).trans ?_
    rw [setChannelts, setChan_chan_of_ne _ _ elsewhere, zero.chan]

/-- **The modes after an SJOIN.** -/
theorem m_sjoin_mode (s : Ircd) (cptr sptr : ClientId) (parv : List Text) (d : ChannelId) :
    ((s.m_sjoin cptr sptr parv).chan d).mode =
      match s.sjoinLeaves sptr parv with
      | none => (s.chan d).mode
      | some (chptr, mode) => if d = chptr then mode else (s.chan d).mode := by
  unfold sjoinLeaves
  cases reads : sjoinRead (s.client sptr) parv with
  | none =>
    unfold m_sjoin
    rw [reads]
    rfl
  | some read =>
    obtain ⟨mode, args⟩ := read
    simp only [Option.map_some]
    cases found : s.hash_find_channel (parv.getD 2 []) with
    | some chptr =>
      rw [m_sjoin_found reads found]
      exact sjoinOn_mode ..
    | none =>
      rw [m_sjoin_made reads found, sjoinOn_mode, createChannel_chan, createChannel_chan,
        if_pos rfl]
      by_cases here : d = s.nextChan
      · rw [if_pos here, if_pos here]
        rfl
      · rw [if_neg here, if_neg here, if_neg here]

/-- **An SJOIN keeps what the modes that it leaves have.** -/
theorem m_sjoin_keeps {P : Mode → Prop} {cptr sptr : ClientId} {parv : List Text}
    (leaves : ∀ chptr mode, s.sjoinLeaves sptr parv = some (chptr, mode) → P mode)
    (before : ∀ d, P (s.chan d).mode) (d : ChannelId) :
    P ((s.m_sjoin cptr sptr parv).chan d).mode := by
  rw [m_sjoin_mode]
  cases left : s.sjoinLeaves sptr parv with
  | none => exact before d
  | some leaf =>
    simp only []
    split
    · exact leaves _ _ left
    · exact before d

/-- **What each letter of the mode argument keeps, the argument keeps.** A key is a parameter that
another one follows. -/
theorem sjoinModes_keeps {P : Mode → Prop} {given : List Text}
    (key : ∀ (mode : Mode) (cp : Text) (rest : List Text), rest ≠ [] → cp :: rest <:+ given →
      P mode → P { mode with key := cp.take KEYLEN })
    (limit : ∀ (mode : Mode) (cp : Text), P mode → P { mode with limit := atoi cp })
    (flood : ∀ (mode : Mode) (cp : Text), P mode → P { mode with
      msgs := atoi (cp.takeWhile (· ≠ ':')), per := atoi (cp.dropWhile (· ≠ ':')).tail })
    (bit : ∀ (mode : Mode) (c : Char), P mode → P { mode with mode := mode.mode ||| sjoinFlag c })
    {letters : Text} {mode : Mode} {args : List Text} {read : Mode × List Text}
    (reads : sjoinModes letters mode args = some read) (inside : args <:+ given)
    (start : P mode) : P read.1 := by
  induction letters generalizing mode args with
  | nil =>
    rw [← Option.some.inj reads]
    exact start
  | cons c letters ih =>
    have later : args.tail <:+ given := (List.tail_suffix args).trans inside
    unfold sjoinModes at reads
    split at reads
    · split at reads
      · cases reads
      · rename_i more
        cases args with
        | nil => exact absurd rfl more
        | cons cp rest => exact ih reads later (key _ cp rest more inside start)
    · split at reads
      · split at reads
        · cases reads
        · exact ih reads later (limit _ _ start)
      · split at reads
        · simp only [] at reads
          split at reads
          · exact ih reads inside start
          · split at reads
            · cases reads
            · exact ih reads later (flood _ _ start)
        · exact ih reads inside (bit _ _ start)

theorem sjoinRead_modes {x : Client} {parv : List Text} {read : Mode × List Text}
    (reads : sjoinRead x parv = some read) :
    sjoinModes (parv.getD 3 []) .zero (parv.drop 4) = some read := by
  unfold sjoinRead at reads
  simp only [] at reads
  repeat' split at reads
  all_goals first | cases reads | exact reads

/-- What a message leaves is its modes merged with those of the channel, or with none. -/
theorem sjoinLeaves_cases {sptr : ClientId} {parv : List Text} {chptr : ChannelId} {mode : Mode}
    (left : s.sjoinLeaves sptr parv = some (chptr, mode)) :
    ∃ verdict read oldmode, sjoinRead (s.client sptr) parv = some read ∧
      (oldmode = .zero ∨ oldmode = (s.chan chptr).mode) ∧
      mode = sjoinMerge verdict read.1 oldmode := by
  unfold sjoinLeaves at left
  obtain ⟨read, reads, leaf⟩ := Option.map_eq_some_iff.mp left
  simp only [] at leaf
  split at leaf
  · cases leaf
    exact ⟨_, read, _, reads, .inr rfl, rfl⟩
  · cases leaf
    exact ⟨_, read, _, reads, .inl rfl, rfl⟩

theorem sjoinMerge_key (verdict : Verdict) (mode oldmode : Mode) :
    (sjoinMerge verdict mode oldmode).key = mode.key ∨
      (sjoinMerge verdict mode oldmode).key = oldmode.key := by
  unfold sjoinMerge
  split
  · exact .inr rfl
  · split
    · simp only []
      split
      · exact .inr rfl
      · exact .inl rfl
    · exact .inl rfl

theorem sjoinLeaves_key {sptr : ClientId} {parv : List Text} {chptr : ChannelId} {mode : Mode}
    (left : s.sjoinLeaves sptr parv = some (chptr, mode))
    (before : (s.chan chptr).mode.key.length ≤ KEYLEN) : mode.key.length ≤ KEYLEN := by
  obtain ⟨verdict, read, oldmode, reads, old, rfl⟩ := sjoinLeaves_cases left
  have new : read.1.key.length ≤ KEYLEN := by
    refine sjoinModes_keeps (P := fun mode => mode.key.length ≤ KEYLEN) (fun _ cp _ _ _ _ => ?_)
      (fun _ _ kept => kept) (fun _ _ kept => kept) (fun _ _ kept => kept) (sjoinRead_modes reads)
      (List.suffix_refl _) (Nat.zero_le _)
    exact List.length_take_le ..
  rcases sjoinMerge_key verdict read.1 oldmode with same | same
  · rw [same]
    exact new
  · rw [same]
    rcases old with rfl | rfl
    · exact Nat.zero_le _
    · exact before

end Sjoin

/-! ### The first state -/

theorem boot_plain (conf : Conf) (now : Int) (name : Text) (chptr : ChannelId) :
    ((boot conf now name).chan chptr).mode.Plain := by
  have made : (blank conf now name).get_channel_create me "&Connects" =
      (blank conf now name).createChannel "&Connects" := rfl
  have chan := createChannel_chan (blank conf now name) "&Connects" chptr
  unfold boot init_local_log_channels
  rw [made]
  simp only [setMode]
  by_cases log : chptr = 0
  · rw [log]
    refine ⟨rfl, rfl, rfl, rfl, ?_⟩
    show Flags.has (0#32 ||| (MODE_LOG ||| MODE_OPERONLY ||| MODE_SECRET ||| MODE_NOPRIVMSGS))
      MODE_FLOODLIMIT = false
    decide
  · have number : ((blank conf now name).createChannel "&Connects").2 = 0 := rfl
    rw [number, setChan_chan_of_ne _ _ log, chan]
    rw [if_neg (show ¬ chptr = (blank conf now name).nextChan from log)]
    exact Mode.plain_zero

theorem introduce_chan (s : Ircd) (u : ClientId) (x : Client) : (s.introduce u x).chan = s.chan := by
  unfold introduce
  split
  · unfold linkServ
    split
    · rfl
    · split <;> rfl
  · rfl

theorem sampleKnown_plain (chptr : ChannelId) : (sampleKnown.chan chptr).mode.Plain := by
  unfold sampleKnown after
  rw [introduce_chan]
  simp only []
  rw [introduce_chan]
  exact boot_plain ..

end Ircd

end PtlinkIrcd
