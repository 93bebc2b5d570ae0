/-
**The bans of a channel when two servers link.**

`send_mode_list` of `channel.c` writes the ban list of a channel to a new link in MODE lines, and
`set_channel_mode` of the other server adds the masks; `add_banid` skips a mask that a ban it has
matches, whoever sends it.

* `send_mode_list` — the lines; `Spelled` says what a line carries, `banLines_spelled` that the
  lines carry the list, in order, when every mask is `Sendable`; `sendable_pretty_mask` — what a user
  of a server sets is.
* `Ircd.hear_mode` — a line that arrives; `Hears.hear_mode` — a line of bans does to the list what
  `offerAll` of `Lib.Admission` does.
* `bans_converge_iff` — **the two lists become the same exactly when each admits the masks of the
  other**; `Ircd.not_bans_converge` — they need not.
-/

import Mathlib.Data.List.TakeWhile
import PtlinkIrcd.Channel.ModeEffect
import PtlinkIrcd.Channel.Runs
import PtlinkIrcd.Lib.Admission
import PtlinkIrcd.Model.Parse

set_option linter.unusedSectionVars false

namespace PtlinkIrcd

open Lib.Admission

/-! ### Sending -/

/-- The variables of `send_mode_list`, with what it has sent: `modebuf` and `parabuf` of each line. -/
structure ModeList where
  modebuf : Text
  parabuf : Text
  count : Nat
  sent : List (Text × Text)

namespace ModeList

def put (flag : Char) (l : ModeList) (name : Text) : ModeList :=
  { l with
    modebuf := l.modebuf ++ [flag]
    parabuf := l.parabuf ++ ' ' :: name
    count := l.count + 1 }

/-- A line is sent; the name starts the next one, unless the line was full. -/
def flush (flag : Char) (l : ModeList) (name : Text) : ModeList where
  modebuf := if l.count ≠ 3 then ['+', flag] else ['+']
  parabuf := if l.count ≠ 3 then name else []
  count := 0
  sent := l.sent ++ [(l.modebuf, l.parabuf)]

def step (flag : Char) (l : ModeList) (name : Text) : ModeList :=
  if l.parabuf.length + name.length + 10 < MODEBUFLEN then
    if (l.put flag name).count = 3 then (l.put flag name).flush flag name else l.put flag name
  else if l.parabuf ≠ [] || l.count = 3 then l.flush flag name
  else l

/-- All lines: what is still in the buffers is sent last. -/
def all (l : ModeList) : List (Text × Text) :=
  l.sent ++ if l.modebuf.tail ≠ [] || l.parabuf ≠ [] then [(l.modebuf, l.parabuf)] else []

end ModeList

def send_mode_list (modebuf parabuf : Text) (top : List Text) (flag : Char) : ModeList :=
  top.foldl (ModeList.step flag) ⟨modebuf, parabuf, if parabuf = [] then 0 else 1, []⟩

namespace Ircd

def masks (s : Ircd) (chptr : ChannelId) : List Text := (s.chan chptr).banlist.map Ban.banstr

def modeLine (s : Ircd) (chname : Text) (bufs : Text × Text) : Text :=
  wire (line [":", s.meName, " MODE ", chname, " ", bufs.1, " ", bufs.2])

/-- The MODE lines at the end of `send_channel_modes`. -/
def banLines (s : Ircd) (chptr : ChannelId) : List Text :=
  let c := s.chan chptr
  if c.chname.head? ≠ some '#' then []
  else
    (send_mode_list ['+'] [] (s.masks chptr) 'b').all.map (s.modeLine c.chname)

def hear_mode (s : Ircd) (cptr : ClientId) (pbuffer : Text) : Ircd :=
  match s.parse cptr pbuffer with
  | .message source command parv => if command = "MODE" then s.m_mode cptr source parv else s
  | _ => s

def hear_modes (s : Ircd) (cptr : ClientId) (lines : List Text) : Ircd :=
  lines.foldl (fun s pbuffer => s.hear_mode cptr pbuffer) s

end Ircd

/-! ### What a line carries -/

/-- A mask that a MODE line can carry. -/
structure Sendable (mask : Text) : Prop where
  ne_nil : mask ≠ []
  noSpace : ∀ c ∈ mask, isSpace c = false
  noColon : mask.head? ≠ some ':'
  short : mask.length + 10 < MODEBUFLEN

theorem Sendable.middle {mask : Text} (sendable : Sendable mask) : IsMiddle mask where
  ne_nil := sendable.ne_nil
  noBlank := fun blank => absurd (sendable.noSpace ' ' blank) (by decide)
  noColon := sendable.noColon

theorem check_string_noSpace (t : Text) : ∀ c ∈ check_string t, isSpace c = false := by
  intro c inside
  unfold check_string at inside
  split at inside
  · rw [List.mem_singleton.mp inside]
    decide
  · have plain := List.mem_takeWhile_imp inside
    simpa using plain

theorem head?_check_string {t : Text} {c : Char} (head : (check_string t).head? = some c) :
    c = '*' ∨ t.head? = some c := by
  cases t with
  | nil => exact .inl (Option.some.inj head).symm
  | cons d t =>
    unfold check_string at head
    rw [if_neg (List.cons_ne_nil d t), List.takeWhile_cons] at head
    split at head
    · exact .inr head
    · exact absurd head (by simp)

/-- A mask of three parts without blanks, of which the first does not start with a colon. -/
theorem sendable_make_nick_user_host {nick name host : Text} (colon : nick.head? ≠ some ':')
    (plain : ∀ part ∈ [nick, name, host], ∀ c ∈ part, isSpace c = false) :
    Sendable (collapse (make_nick_user_host nick name host)) where
  ne_nil := by
    have mark : '!' ∈ collapse (make_nick_user_host nick name host) :=
      (mem_collapse (by decide)).mpr (by simp [make_nick_user_host])
    exact List.ne_nil_of_mem mark
  noSpace := by
    intro c inside
    have inside := (collapse_sublist _).subset inside
    simp only [make_nick_user_host, List.mem_append] at inside
    rcases inside with (((inside | mark) | inside) | mark) | inside
    · exact plain nick (by simp) c (List.mem_of_mem_take inside)
    · rw [List.mem_singleton.mp mark]
      decide
    · exact plain name (by simp) c (List.mem_of_mem_take inside)
    · rw [List.mem_singleton.mp mark]
      decide
    · exact plain host (by simp) c (List.mem_of_mem_take inside)
  noColon := by
    rw [head?_collapse]
    cases nick with
    | nil => exact fun head => absurd (Option.some.inj head) (by decide)
    | cons c nick => exact colon
  short := by
    have most := (collapse_sublist (make_nick_user_host nick name host)).length_le
    have parts : (make_nick_user_host nick name host).length ≤
        NICKLEN + 1 + USERLEN + 1 + HOSTLEN := by
      simp only [make_nick_user_host, List.length_append, List.length_take]
      show _ + 1 + _ + 1 + _ ≤ _
      omega
    exact Nat.lt_of_le_of_lt (Nat.add_le_add_right (Nat.le_trans most parts) 10) (by decide)

/-- **Every mask that a user of a server sets can be sent.** -/
theorem sendable_pretty_mask {arg : Text} (colon : arg.head? ≠ some ':') :
    Sendable (collapse (pretty_mask arg)) := by
  have star : ∀ c ∈ ['*'], isSpace c = false := fun c inside => by
    rw [List.mem_singleton.mp inside]
    rfl
  have nick : (check_string (arg.takeWhile (· ≠ '!'))).head? ≠ some ':' := by
    intro head
    rcases head?_check_string head with star | first
    · exact absurd star (by decide)
    · refine colon ?_
      cases arg with
      | nil => exact first
      | cons c arg =>
        rw [List.takeWhile_cons] at first
        split at first
        · exact first
        · exact absurd first (by simp)
  have whole : (check_string arg).head? ≠ some ':' := fun head =>
    (head?_check_string head).elim (fun star => absurd star (by decide)) colon
  have parts : ∀ nick name host : Text, (∀ c ∈ nick, isSpace c = false) →
      (∀ c ∈ name, isSpace c = false) →
      (∀ c ∈ host, isSpace c = false) →
      ∀ part ∈ [nick, name, host], ∀ c ∈ part, isSpace c = false := by
    intro nick name host first second third part inside
    simp only [List.mem_cons, List.not_mem_nil, or_false] at inside
    rcases inside with rfl | rfl | rfl
    · exact first
    · exact second
    · exact third
  unfold pretty_mask
  simp only []
  split
  · split
    · exact sendable_make_nick_user_host nick (parts _ _ _ (check_string_noSpace _)
        (check_string_noSpace _) (check_string_noSpace _))
    · exact sendable_make_nick_user_host nick (parts _ _ _ (check_string_noSpace _)
        (check_string_noSpace _) star)
  · split
    · exact sendable_make_nick_user_host (by decide) (parts _ _ _ star (check_string_noSpace _)
        (check_string_noSpace _))
    · split
      · exact sendable_make_nick_user_host (by decide) (parts _ _ _ star star
          (check_string_noSpace _))
      · exact sendable_make_nick_user_host whole (parts _ _ _ (check_string_noSpace _) star star)

def spaced (words : List Text) : Text := words.flatMap (' ' :: ·)

theorem spaced_append (words more : List Text) :
    spaced (words ++ more) = spaced words ++ spaced more := List.flatMap_append

theorem spaced_cons (word : Text) (words : List Text) :
    spaced (word :: words) = ' ' :: word ++ spaced words := List.flatMap_cons

theorem spaced_singleton (word : Text) : spaced [word] = ' ' :: word := by
  rw [spaced_cons]
  exact List.append_nil _

/-- The masks in the two buffers: a letter for each, and the masks with a blank before each, except
that the first one may be without. -/
structure Spelled (bufs : Text × Text) (words : List Text) : Prop where
  letters : bufs.1 = '+' :: List.replicate words.length 'b'
  text : bufs.2 = spaced words ∨ ' ' :: bufs.2 = spaced words
  room : (spaced words).length ≤ 191
  few : words.length ≤ 4

theorem Spelled.nil : Spelled (['+'], []) [] := ⟨rfl, .inl rfl, Nat.zero_le _, Nat.zero_le _⟩

theorem Spelled.single {mask : Text} (sendable : Sendable mask) :
    Spelled (['+', 'b'], mask) [mask] := by
  refine ⟨rfl, .inr (spaced_singleton mask).symm, ?_, by simp⟩
  have short := sendable.short
  unfold MODEBUFLEN at short
  rw [spaced_singleton, List.length_cons]
  omega

theorem Spelled.length_le {bufs : Text × Text} {words : List Text} (spelled : Spelled bufs words) :
    (spaced words).length ≤ bufs.2.length + 1 := by
  rcases spelled.text with same | blank
  · rw [same]
    exact Nat.le_succ _
  · rw [← blank, List.length_cons]

theorem Spelled.put {bufs : Text × Text} {words : List Text} {mask : Text}
    (spelled : Spelled bufs words) (few : words.length ≤ 3)
    (fits : bufs.2.length + mask.length + 10 < MODEBUFLEN) :
    Spelled (bufs.1 ++ ['b'], bufs.2 ++ ' ' :: mask) (words ++ [mask]) := by
  have all : spaced (words ++ [mask]) = spaced words ++ ' ' :: mask := by
    rw [spaced_append, spaced_singleton]
  refine ⟨?_, ?_, ?_, ?_⟩
  · rw [spelled.letters, List.length_append, List.length_singleton, List.replicate_succ',
      List.cons_append]
  · rw [all]
    rcases spelled.text with same | blank
    · exact .inl (by rw [same])
    · exact .inr (by rw [← blank, List.cons_append])
  · have before := spelled.length_le
    unfold MODEBUFLEN at fits
    rw [all, List.length_append, List.length_cons]
    omega
  · rw [List.length_append, List.length_singleton]
    omega

/-- **What a round makes of the buffers**: the name is written and stays, it is written as the third one
and goes out, or it does not fit and starts the next line. -/
inductive ModeList.Stepped (flag : Char) (l : ModeList) (name : Text) : ModeList → Prop
  | put (fits : l.parabuf.length + name.length + 10 < MODEBUFLEN) (few : l.count + 1 < 3) :
      Stepped flag l name (l.put flag name)
  | third (fits : l.parabuf.length + name.length + 10 < MODEBUFLEN) :
      Stepped flag l name ⟨['+'], [], 0, l.sent ++ [((l.put flag name).modebuf, (l.put flag name).parabuf)]⟩
  | next : Stepped flag l name ⟨['+', flag], name, 0, l.sent ++ [(l.modebuf, l.parabuf)]⟩

theorem ModeList.step_stepped (flag : Char) {l : ModeList} {name : Text} (low : l.count < 3)
    (short : name.length + 10 < MODEBUFLEN) : l.Stepped flag name (l.step flag name) := by
  unfold step
  split
  · rename_i fits
    split
    · rename_i full
      unfold flush
      rw [if_neg (not_not.mpr full), if_neg (not_not.mpr full)]
      exact .third fits
    · rename_i more
      have more : ¬ l.count + 1 = 3 := more
      exact .put fits (by omega)
  · rename_i full
    have written : l.parabuf ≠ [] := by
      intro nothing
      rw [nothing, List.length_nil] at full
      omega
    have notThree : l.count ≠ 3 := Nat.ne_of_lt low
    rw [if_pos (by simp [written])]
    unfold flush
    rw [if_pos notThree, if_pos notThree]
    exact .next

/-- The lines sent carry the masks so far, together with the buffers. -/
structure ModeList.Carries (l : ModeList) (words : List Text) : Prop where
  split : ∃ groups now, List.Forall₂ Spelled l.sent groups ∧
    Spelled (l.modebuf, l.parabuf) now ∧ now.length ≤ l.count + 1 ∧ groups.flatten ++ now = words
  low : l.count < 3

theorem ModeList.Carries.step {l : ModeList} {words : List Text} {mask : Text}
    (carries : l.Carries words) (sendable : Sendable mask) :
    (l.step 'b' mask).Carries (words ++ [mask]) := by
  obtain ⟨⟨groups, now, sent, current, few, rfl⟩, low⟩ := carries
  have joined : ∀ now, groups.flatten ++ now = (groups ++ [now]).flatten := fun now => by
    rw [List.flatten_append, List.flatten_singleton]
  have stepped := ModeList.step_stepped 'b' low sendable.short
  generalize l.step 'b' mask = after at stepped ⊢
  cases stepped with
  | put fits open_ =>
    refine ⟨⟨groups, now ++ [mask], sent, current.put (by omega) fits, ?_, (List.append_assoc ..).symm⟩,
      open_⟩
    rw [List.length_append, List.length_singleton]
    exact Nat.succ_le_succ few
  | third fits =>
    refine ⟨⟨groups ++ [now ++ [mask]], [], ?_, .nil, Nat.zero_le _, ?_⟩, show 0 < 3 by decide⟩
    · exact List.rel_append sent (.cons (current.put (by omega) fits) .nil)
    · rw [← joined, List.append_nil, List.append_assoc]
  | next =>
    refine ⟨⟨groups ++ [now], [mask], ?_, .single sendable, Nat.le_refl 1, by rw [← joined]⟩,
      show 0 < 3 by decide⟩
    exact List.rel_append sent (.cons current .nil)

theorem ModeList.Carries.run {l : ModeList} {words masks : List Text} (carries : l.Carries words)
    (sendable : ∀ mask ∈ masks, Sendable mask) :
    (masks.foldl (ModeList.step 'b') l).Carries (words ++ masks) := by
  induction masks generalizing l words with
  | nil =>
    rw [List.append_nil]
    exact carries
  | cons mask masks ih =>
    have first := carries.step (sendable mask List.mem_cons_self)
    have rest := ih first fun other inside => sendable other (List.mem_cons_of_mem mask inside)
    rwa [List.append_assoc, List.singleton_append] at rest

theorem Spelled.written_iff {bufs : Text × Text} {words : List Text}
    (spelled : Spelled bufs words) :
    (bufs.1.tail ≠ [] || bufs.2 ≠ []) = true ↔ words ≠ [] := by
  cases words with
  | nil =>
    have text : bufs.2 = [] := spelled.text.elim id fun blank =>
      absurd blank (List.cons_ne_nil ' ' bufs.2)
    rw [spelled.letters, text]
    decide
  | cons mask words =>
    rw [spelled.letters]
    simp

theorem ModeList.Carries.all {l : ModeList} {words : List Text} (carries : l.Carries words) :
    ∃ groups, List.Forall₂ Spelled l.all groups ∧ groups.flatten = words := by
  obtain ⟨⟨groups, now, sent, current, -, split⟩, -⟩ := carries
  unfold ModeList.all
  by_cases nothing : now = []
  · refine ⟨groups, ?_, by rw [← split, nothing, List.append_nil]⟩
    rw [if_neg fun written => current.written_iff.mp written nothing, List.append_nil]
    exact sent
  · refine ⟨groups ++ [now], ?_, by rw [← split, List.flatten_append, List.flatten_singleton]⟩
    rw [if_pos (current.written_iff.mpr nothing)]
    exact List.rel_append sent (.cons current .nil)

/-- **The lines of a burst carry the list**, in its order. -/
theorem banLines_spelled (s : Ircd) (chptr : ChannelId)
    (shared : (s.chan chptr).chname.head? = some '#')
    (sendable : ∀ mask ∈ s.masks chptr, Sendable mask) :
    ∃ bufs groups, s.banLines chptr = bufs.map (s.modeLine (s.chan chptr).chname) ∧
      List.Forall₂ Spelled bufs groups ∧ groups.flatten = s.masks chptr := by
  have start : ModeList.Carries ⟨['+'], [], 0, []⟩ [] :=
    ⟨⟨[], [], .nil, .nil, Nat.zero_le _, rfl⟩, show 0 < 3 by decide⟩
  obtain ⟨groups, spelled, split⟩ := (start.run sendable).all
  exact ⟨_, groups, if_neg (not_not.mpr shared), spelled, split⟩

/-! ### Reading a line -/

theorem params_last {t : Text} (middle : IsMiddle t) (slots : Nat) :
    params (slots + 1) (' ' :: t) = [t] := by
  cases t with
  | nil => exact absurd rfl middle.ne_nil
  | cons c t =>
    have noBlank := middle.noBlank
    have noColon : c ≠ ':' := fun colon => middle.noColon (by rw [colon]; rfl)
    have all : ∀ d ∈ c :: t, decide (d ≠ ' ') = true := fun d inside =>
      decide_eq_true fun blank => noBlank (blank ▸ inside)
    have start : (' ' :: c :: t).dropWhile (· = ' ') = c :: t := by
      rw [List.dropWhile_cons, if_pos (by decide), List.dropWhile_cons,
        if_neg (by simpa using all c List.mem_cons_self)]
    rw [params, start]
    simp only []
    rw [if_neg noColon, (List.takeWhile_eq_self_iff).mpr all, List.dropWhile_eq_nil_iff.mpr all,
      params_nil, ite_self]

theorem params_spaced {words : List Text} (middle : ∀ word ∈ words, IsMiddle word) {slots : Nat}
    (few : words.length ≤ slots) : params slots (spaced words) = words := by
  induction words generalizing slots with
  | nil => exact params_nil slots
  | cons word words ih =>
    have first := middle word List.mem_cons_self
    rw [List.length_cons] at few
    cases words with
    | nil =>
      obtain ⟨slots, rfl⟩ := Nat.exists_eq_add_of_le' few
      rw [spaced_singleton]
      exact params_last first slots
    | cons next words =>
      rw [List.length_cons] at few
      obtain ⟨slots, rfl⟩ := Nat.exists_eq_add_of_le' (Nat.le_trans (Nat.le_add_left 2 _) few)
      have rest : params (slots + 1) (spaced (next :: words)) = next :: words :=
        ih (fun other inside => middle other (List.mem_cons_of_mem word inside))
          (by rw [List.length_cons]; omega)
      rw [spaced_cons, spaced_cons, List.cons_append, List.cons_append, params_middle first,
        ← List.cons_append, ← spaced_cons, rest]

/-- The masks in the buffers are read back, with the blank that `parabuf` may start with. -/
theorem Spelled.params_eq {bufs : Text × Text} {words : List Text} (spelled : Spelled bufs words)
    (middle : ∀ word ∈ words, IsMiddle word) {slots : Nat} (few : words.length ≤ slots + 1) :
    params (slots + 1) (' ' :: bufs.2) = words := by
  rcases spelled.text with same | blank
  · rw [same]
    cases words with
    | nil => rfl
    | cons word words =>
      rw [spaced_cons, List.cons_append, params_space, ← List.cons_append, ← spaced_cons]
      exact params_spaced middle few
  · rw [blank]
    exact params_spaced middle few

/-- The name of a server. -/
structure ServerName (name : Text) : Prop where
  ne_nil : name ≠ []
  noBlank : ' ' ∉ name
  short : name.length ≤ HOSTLEN

/-- **A MODE line of a burst is parsed to the command with its masks.** -/
theorem parse_modeLine {s : Ircd} {cptr source : ClientId} {name chname : Text}
    {bufs : Text × Text} {words : List Text} (server : (s.client cptr).isServer = true)
    (prefixed : s.prefixed name = some source) (link : (s.client source).link = some cptr)
    (named : ServerName name) (channel : IsMiddle chname) (spelled : Spelled bufs words)
    (middle : ∀ word ∈ words, IsMiddle word) :
    s.parse cptr (line [":", name, " MODE ", chname, " ", bufs.1, " ", bufs.2]) =
      .message source "MODE" (name :: chname :: bufs.1 :: words) := by
  have text : line [":", name, " MODE ", chname, " ", bufs.1, " ", bufs.2] =
      ':' :: (name ++ ' ' :: ("MODE" ++ ' ' :: (chname ++ ' ' :: (bufs.1 ++ ' ' :: bufs.2)))) := by
    simp [line]
  have letters : IsMiddle bufs.1 := by
    rw [spelled.letters]
    exact ⟨List.cons_ne_nil _ _, by simp, by simp⟩
  obtain ⟨sender, rest⟩ := takeWhile_word named.noBlank
    ("MODE" ++ ' ' :: (chname ++ ' ' :: (bufs.1 ++ ' ' :: bufs.2)))
  obtain ⟨command, tail⟩ := takeWhile_word (t := "MODE") (by decide)
    (chname ++ ' ' :: (bufs.1 ++ ' ' :: bufs.2))
  have cut : name.take HOSTLEN = name := List.take_of_length_le named.short
  have parv : params (MAXPARA - 1) (' ' :: (chname ++ ' ' :: (bufs.1 ++ ' ' :: bufs.2))) =
      chname :: bufs.1 :: words := by
    show params (12 + 2) _ = _
    rw [params_middle channel, params_middle letters 11,
      spelled.params_eq middle (Nat.le_trans spelled.few (by decide))]
  have whole : parseCommand source name
      ("MODE" ++ ' ' :: (chname ++ ' ' :: (bufs.1 ++ ' ' :: bufs.2))) =
      .message source "MODE" (name :: chname :: bufs.1 :: words) := by
    unfold parseCommand
    rw [if_neg (by simp), if_neg (by simp [isNumeric]), command, tail, parv]
    rfl
  have skip : ∀ more : Text, (' ' :: ("MODE" ++ more)).dropWhile (· = ' ') = "MODE" ++ more :=
    fun _ => rfl
  have start : ∀ more : Text, (':' :: more).dropWhile (· = ' ') = ':' :: more := fun _ => rfl
  rw [text]
  unfold Ircd.parse
  rw [start]
  simp only [if_true]
  rw [sender, rest, cut, skip, if_pos (by simp [named.ne_nil, server]), prefixed]
  simp only []
  rw [if_neg (not_not.mpr link)]
  exact whole

theorem modeLine_eq {s : Ircd} {chname : Text} {bufs : Text × Text} {words : List Text}
    (named : ServerName s.meName) (channel : chname.length ≤ CHANNELLEN)
    (spelled : Spelled bufs words) :
    s.modeLine chname bufs = line [":", s.meName, " MODE ", chname, " ", bufs.1, " ", bufs.2] := by
  have letters : bufs.1.length ≤ 5 := by
    rw [spelled.letters, List.length_cons, List.length_replicate]
    exact Nat.succ_le_succ spelled.few
  have text : bufs.2.length ≤ 191 := by
    have room := spelled.room
    rcases spelled.text with same | blank
    · rwa [same]
    · rw [← blank, List.length_cons] at room
      omega
  have name := named.short
  unfold HOSTLEN at name
  unfold CHANNELLEN at channel
  refine List.take_of_length_le ?_
  simp [line, BUFSIZE]
  omega

/-! ### Taking over masks -/

/-- Only the log and the bans of a channel differ. -/
def Rebanned (chptr : ChannelId) (s t : Ircd) : Prop :=
  ∃ events bans num_bed, t = { s with
    sent := s.sent ++ events
    chan := Function.update s.chan chptr
      { s.chan chptr with banlist := bans, num_bed := num_bed } }

namespace Rebanned

variable {chptr : ChannelId} {s t r : Ircd}

theorem of_sends (sends : Ircd.Sends s t) : Rebanned chptr s t := by
  obtain ⟨events, rfl⟩ := sends
  exact ⟨events, (s.chan chptr).banlist, (s.chan chptr).num_bed, by rw [Function.update_eq_self]⟩

theorem refl (s : Ircd) : Rebanned chptr s s := .of_sends (.refl s)

theorem setBans (s : Ircd) (bans : List Ban) (num_bed : Int) :
    Rebanned chptr s (s.setChan chptr
      { s.chan chptr with banlist := bans, num_bed := num_bed }) :=
  ⟨[], bans, num_bed, by rw [List.append_nil]; rfl⟩

theorem trans (first : Rebanned chptr s t) (second : Rebanned chptr t r) : Rebanned chptr s r := by
  obtain ⟨events, bans, num_bed, rfl⟩ := first
  obtain ⟨more, later, number, rfl⟩ := second
  refine ⟨events ++ more, later, number, ?_⟩
  simp only [Function.update_idem, Function.update_self, List.append_assoc]

theorem client (changed : Rebanned chptr s t) : t.client = s.client := by
  obtain ⟨events, bans, num_bed, rfl⟩ := changed
  rfl

theorem chname (changed : Rebanned chptr s t) (other : ChannelId) :
    (t.chan other).chname = (s.chan other).chname := by
  obtain ⟨events, bans, num_bed, rfl⟩ := changed
  show Channel.chname (Function.update s.chan chptr _ other) = _
  by_cases same : other = chptr
  · rw [same, Function.update_self]
  · rw [Function.update_of_ne same]

theorem prefixed (changed : Rebanned chptr s t) (name : Text) :
    t.prefixed name = s.prefixed name := by
  obtain ⟨events, bans, num_bed, rfl⟩ := changed
  rfl

theorem hash_find_channel (changed : Rebanned chptr s t) (name : Text) :
    t.hash_find_channel name = s.hash_find_channel name := by
  have named := changed.chname
  have table : t.channelTable = s.channelTable := by
    obtain ⟨events, bans, num_bed, rfl⟩ := changed
    rfl
  unfold Ircd.hash_find_channel
  simp only [named, table]

end Rebanned

theorem Client.not_myClient_of_isServer {x : Client} (server : x.isServer = true) :
    x.myClient = false := by
  refine Bool.eq_false_iff.mpr fun mine => ?_
  rw [Client.not_isServer_of_myClient mine] at server
  exact absurd server (by decide)

/-- The server takes a mask as it stands, or has a ban that matches it. -/
theorem add_banid_masks {s : Ircd} {cptr : ClientId} (server : (s.client cptr).isServer = true)
    (chptr : ChannelId) (mask : Text) :
    Rebanned chptr s (s.add_banid cptr chptr mask).1 ∧
      (s.add_banid cptr chptr mask).1.masks chptr = offer ircMatch (s.masks chptr) mask := by
  have notMine := Client.not_myClient_of_isServer server
  unfold Ircd.add_banid offer Ircd.masks
  simp only [server, notMine, Bool.not_true, Bool.false_and, if_false, Bool.false_eq_true,
    List.any_map, Function.comp_def]
  split
  · exact ⟨.refl s, rfl⟩
  · refine ⟨.setBans .., ?_⟩
    rw [Ircd.setChan_chan_self]
    rfl

/-- From one state of the loop to another the source adds masks. -/
structure Adds (m : ModeSource) (l : ModeLoop) (masks rest : List Text) (r : ModeLoop) : Prop where
  parv : r.parv = rest
  whatt : r.whatt = .add
  len : r.len ≤ l.len + (spaced masks).length
  changed : Rebanned m.chptr l.s r.s
  masks_eq : r.s.masks m.chptr = offerAll ircMatch (l.s.masks m.chptr) masks

theorem modeLetter_ban {m : ModeSource} {l : ModeLoop} {mask : Text} {rest : List Text}
    (source : m.x.isServer = true) (server : (l.s.client m.sptr).isServer = true)
    (whatt : l.whatt = .add) (args : l.parv = mask :: rest) (sendable : Sendable mask)
    (room : l.len + mask.length + 2 < MODEBUFLEN) :
    Adds m l [mask] rest (modeLetter m l 'b') := by
  have notMine : m.my = false := Client.not_myClient_of_isServer source
  have ok : m.isok = true := by simp [ModeSource.isok, ModeSource.ischop, source]
  have arg : check_string mask = mask := by
    unfold check_string
    rw [if_neg sendable.ne_nil]
    exact List.takeWhile_eq_self_iff.mpr fun c inside => by simp [sendable.noSpace c inside]
  have letter : modeLetter m l 'b' = modeBanOf m mask { l with parv := rest } := by
    show modeBan m l = _
    unfold modeBan
    rw [if_neg (by simp [whatt]), args]
    simp only []
    rw [if_neg (by simp [notMine]), if_neg (by simp [ok]), if_neg (by simp [notMine]),
      if_neg (by simp [notMine]), arg]
  obtain ⟨changed, masks⟩ := add_banid_masks server m.chptr mask
  have spent : (spaced [mask]).length = mask.length + 1 := by rw [spaced_singleton]; rfl
  rw [letter]
  unfold modeBanOf
  rw [if_neg (Nat.not_le.mpr room)]
  simp only [whatt, if_true]
  split
  · refine ⟨rfl, rfl, ?_, changed, masks⟩
    rw [spent]
    exact Nat.le_refl _
  · exact ⟨rfl, rfl, Nat.le_add_right _ _, changed, masks⟩

theorem modeWords_spent {m : ModeSource} {l : ModeLoop} {curr : Text} (rounds : Nat)
    (spent : (curr.foldl (modeLetter m) l).parv = []) :
    modeWords m rounds l curr = curr.foldl (modeLetter m) l := by
  cases rounds with
  | zero => rfl
  | succ rounds =>
    unfold modeWords
    simp only [spent]

theorem letters_ban {m : ModeSource} {l : ModeLoop} {masks : List Text}
    (source : m.x.isServer = true) (server : (l.s.client m.sptr).isServer = true)
    (whatt : l.whatt = .add) (args : l.parv = masks) (sendable : ∀ mask ∈ masks, Sendable mask)
    (room : l.len + (spaced masks).length + 1 < MODEBUFLEN) :
    Adds m l masks [] ((List.replicate masks.length 'b').foldl (modeLetter m) l) := by
  induction masks generalizing l with
  | nil => exact ⟨args, whatt, Nat.le_add_right _ _, .refl l.s, rfl⟩
  | cons mask masks ih =>
    have all : (spaced (mask :: masks)).length = mask.length + 1 + (spaced masks).length := by
      rw [spaced_cons, List.length_append, List.length_cons]
    rw [all] at room
    have first := modeLetter_ban source server whatt args (sendable mask List.mem_cons_self)
      (by omega)
    have spent := first.len
    rw [spaced_singleton, List.length_cons] at spent
    have rest := ih (l := modeLetter m l 'b') (by rw [first.changed.client]; exact server)
      first.whatt first.parv (fun other inside => sendable other (List.mem_cons_of_mem mask inside))
      (by omega)
    refine ⟨rest.parv, rest.whatt, ?_, first.changed.trans rest.changed, ?_⟩
    · rw [all]
      exact Nat.le_trans rest.len (by omega)
    · rw [List.length_cons, List.replicate_succ, List.foldl_cons, rest.masks_eq, first.masks_eq]
      rfl

/-! ### A burst that arrives -/

/-- The name of a channel that servers share. -/
structure SharedName (chname : Text) : Prop where
  hash : chname.head? = some '#'
  chars : check_channel_name chname = true
  short : chname.length ≤ CHANNELLEN

theorem SharedName.middle {chname : Text} (shared : SharedName chname) : IsMiddle chname where
  ne_nil := fun none_ => by
    have hash := shared.hash
    rw [none_] at hash
    exact absurd hash (by simp)
  noBlank := fun blank => absurd (List.all_eq_true.mp shared.chars ' ' blank) (by decide)
  noColon := by
    rw [shared.hash]
    decide

/-- A server knows its peer by this name, and a channel by that one. -/
structure Hears (s : Ircd) (peer : ClientId) (chptr : ChannelId) (name chname : Text) : Prop where
  server : (s.client peer).isServer = true
  link : (s.client peer).link = some peer
  prefixed : s.prefixed name = some peer
  found : s.hash_find_channel chname = some chptr

namespace Hears

variable {s t : Ircd} {peer : ClientId} {chptr : ChannelId} {name chname : Text}

theorem rebanned (hears : Hears s peer chptr name chname) (changed : Rebanned chptr s t) :
    Hears t peer chptr name chname where
  server := by rw [changed.client]; exact hears.server
  link := by rw [changed.client]; exact hears.link
  prefixed := by rw [changed.prefixed]; exact hears.prefixed
  found := by rw [changed.hash_find_channel]; exact hears.found

theorem set_channel_mode (hears : Hears s peer chptr name chname) {masks : List Text}
    (sendable : ∀ mask ∈ masks, Sendable mask) (room : (spaced masks).length ≤ 191) :
    Rebanned chptr s (s.set_channel_mode peer peer chptr
        (('+' :: List.replicate masks.length 'b') :: masks)) ∧
      (s.set_channel_mode peer peer chptr
        (('+' :: List.replicate masks.length 'b') :: masks)).masks chptr =
        offerAll ircMatch (s.masks chptr) masks := by
  have notMine := Client.not_myClient_of_isServer hears.server
  have open_ : s.modeSecured peer chptr = false := by simp [Ircd.modeSecured, notMine]
  have adds : Adds (s.modeSource peer peer chptr) (s.modeStart masks) masks []
      ((List.replicate masks.length 'b').foldl (modeLetter (s.modeSource peer peer chptr))
        (s.modeStart masks)) :=
    letters_ban hears.server hears.server rfl rfl sendable
      (show 0 + (spaced masks).length + 1 < MODEBUFLEN by unfold MODEBUFLEN; omega)
  have loop : s.modeLoop peer peer chptr (('+' :: List.replicate masks.length 'b') :: masks) =
      (List.replicate masks.length 'b').foldl (modeLetter (s.modeSource peer peer chptr))
        (s.modeStart masks) :=
    modeWords_spent masks.length adds.parv
  have told : Ircd.Sends (s.modeLoop peer peer chptr
      (('+' :: List.replicate masks.length 'b') :: masks)).s (s.set_channel_mode peer peer chptr
        (('+' :: List.replicate masks.length 'b') :: masks)) := by
    unfold Ircd.set_channel_mode
    rw [if_neg (by simp [open_])]
    exact sends_modeTell ..
  rw [loop] at told
  refine ⟨adds.changed.trans (.of_sends told), ?_⟩
  have same := congrArg (fun chan => (chan chptr).banlist.map Ban.banstr) told.chan
  exact same.trans adds.masks_eq

/-- **A MODE line of a burst adds its masks**, one after the other. -/
theorem hear_mode (hears : Hears s peer chptr name chname) (named : ServerName name)
    (shared : SharedName chname) {bufs : Text × Text} {masks : List Text}
    (spelled : Spelled bufs masks) (sendable : ∀ mask ∈ masks, Sendable mask) :
    Rebanned chptr s (s.hear_mode peer
        (line [":", name, " MODE ", chname, " ", bufs.1, " ", bufs.2])) ∧
      (s.hear_mode peer (line [":", name, " MODE ", chname, " ", bufs.1, " ", bufs.2])).masks chptr =
        offerAll ircMatch (s.masks chptr) masks := by
  have parsed := parse_modeLine hears.server hears.prefixed hears.link named shared.middle spelled
    fun mask inside => (sendable mask inside).middle
  have heard : s.hear_mode peer (line [":", name, " MODE ", chname, " ", bufs.1, " ", bufs.2]) =
      s.set_channel_mode peer peer chptr
        (('+' :: List.replicate masks.length 'b') :: masks) := by
    unfold Ircd.hear_mode
    rw [parsed]
    simp only [if_true]
    unfold Ircd.m_mode
    simp only [List.getD_cons_succ, List.getD_cons_zero]
    rw [if_neg (by simp), if_neg (by simp [isChannelName, shared.hash]),
      if_neg (by simp [shared.chars]), hears.found]
    simp only []
    rw [if_neg (by simp), ← spelled.letters]
    rfl
  rw [heard]
  exact hears.set_channel_mode sendable spelled.room

/-- **A burst adds all masks of the list.** -/
theorem hear_modes (hears : Hears s peer chptr name chname) (named : ServerName name)
    (shared : SharedName chname) {bufs : List (Text × Text)} {groups : List (List Text)}
    (spelled : List.Forall₂ Spelled bufs groups)
    (sendable : ∀ mask ∈ groups.flatten, Sendable mask) :
    (s.hear_modes peer (bufs.map fun bufs =>
        line [":", name, " MODE ", chname, " ", bufs.1, " ", bufs.2])).masks chptr =
      offerAll ircMatch (s.masks chptr) groups.flatten := by
  induction spelled generalizing s with
  | nil => rfl
  | @cons buf group bufs groups first rest ih =>
    rw [List.flatten_cons] at sendable ⊢
    obtain ⟨changed, masks⟩ := hears.hear_mode named shared first fun mask inside =>
      sendable mask (List.mem_append_left _ inside)
    have later := ih (hears.rebanned changed) fun mask inside =>
      sendable mask (List.mem_append_right _ inside)
    rw [masks] at later
    exact later.trans (List.foldl_append ..).symm

end Hears

/-! ### A netjoin -/

/-- A server that links, with its peer and the channel. -/
structure Site where
  s : Ircd
  peer : ClientId
  chptr : ChannelId
  server : (s.client peer).isServer = true
  link : (s.client peer).link = some peer
  named : ServerName s.meName
  shared : SharedName (s.chan chptr).chname

namespace Site

def masks (x : Site) : List Text := x.s.masks x.chptr

def joined (x y : Site) : List Text :=
  (x.s.hear_modes x.peer (y.s.banLines y.chptr)).masks x.chptr

/-- A server knows the other one by its name, and its channel by the name that it has there. -/
structure Knows (x y : Site) : Prop where
  prefixed : x.s.prefixed y.s.meName = some x.peer
  found : x.s.hash_find_channel (y.s.chan y.chptr).chname = some x.chptr

theorem Knows.of_names {x y : Site} (name chname : Text) (named : y.s.meName = name)
    (called : (y.s.chan y.chptr).chname = chname) (prefixed : x.s.prefixed name = some x.peer)
    (found : x.s.hash_find_channel chname = some x.chptr) : x.Knows y where
  prefixed := by rw [named, prefixed]
  found := by rw [called, found]

/-- **What a burst does to a list.** -/
theorem joined_eq {x y : Site} (knows : x.Knows y) (sendable : ∀ mask ∈ y.masks, Sendable mask) :
    x.joined y = offerAll ircMatch x.masks y.masks := by
  obtain ⟨bufs, groups, lines, spelled, all⟩ :=
    banLines_spelled y.s y.chptr y.shared.hash sendable
  have hears : Hears x.s x.peer x.chptr y.s.meName (y.s.chan y.chptr).chname :=
    ⟨x.server, x.link, knows.prefixed, knows.found⟩
  have whole : bufs.map (y.s.modeLine (y.s.chan y.chptr).chname) = bufs.map fun bufs =>
      line [":", y.s.meName, " MODE ", (y.s.chan y.chptr).chname, " ", bufs.1, " ", bufs.2] := by
    clear lines all
    induction spelled with
    | nil => rfl
    | cons first rest ih =>
      rw [List.map_cons, List.map_cons, ih, modeLine_eq y.named y.shared.short first]
  unfold joined
  rw [lines, whole, hears.hear_modes y.named y.shared spelled (by rw [all]; exact sendable), all]
  rfl

end Site

/-- Two servers that link and have the same channel with the same time stamp. -/
structure Netjoin where
  a : Site
  b : Site
  there : a.Knows b
  here : b.Knows a
  channelts : (a.s.chan a.chptr).channelts = (b.s.chan b.chptr).channelts

def Netjoin.Converges (j : Netjoin) : Prop :=
  ∀ mask, mask ∈ j.a.joined j.b ↔ mask ∈ j.b.joined j.a

/-- **The ban lists become the same exactly when each admits the masks of the other.** -/
theorem bans_converge_iff (j : Netjoin) (sendableA : ∀ mask ∈ j.a.masks, Sendable mask)
    (sendableB : ∀ mask ∈ j.b.masks, Sendable mask) :
    j.Converges ↔
      Admits ircMatch j.a.masks j.b.masks ∧ Admits ircMatch j.b.masks j.a.masks := by
  unfold Netjoin.Converges
  rw [Site.joined_eq j.there sendableB, Site.joined_eq j.here sendableA]
  exact exchange_iff

namespace Ircd

/-- A server on whose channel a user has set a ban, and that another server links to. -/
def sampleBanned (name peer nick mask : Text) : Ircd :=
  let s := ((boot sampleConf 1000 name).after
    (.introduce 3 { sampleLocal with name := nick })).after (.join 3 3 [nick, "#c"])
  (s.m_mode 3 3 [nick, "#c", "+b", mask]).after (.introduce 1 { sampleServer with name := peer })

example : (sampleBanned "west" "east" "ann" "bad").masks 1 = ["bad!*@*"] := by decide +kernel

def sampleNetjoin : Netjoin where
  a := ⟨sampleBanned "west" "east" "ann" "bad", 1, 1, by decide +kernel, by decide +kernel,
    ⟨by decide +kernel, by decide +kernel, by decide +kernel⟩,
    ⟨by decide +kernel, by decide +kernel, by decide +kernel⟩⟩
  b := ⟨sampleBanned "east" "west" "bob" "b*", 1, 1, by decide +kernel, by decide +kernel,
    ⟨by decide +kernel, by decide +kernel, by decide +kernel⟩,
    ⟨by decide +kernel, by decide +kernel, by decide +kernel⟩⟩
  there := .of_names "east" "#c" (by decide +kernel) (by decide +kernel) (by decide +kernel)
    (by decide +kernel)
  here := .of_names "west" "#c" (by decide +kernel) (by decide +kernel) (by decide +kernel)
    (by decide +kernel)
  channelts := by decide +kernel

theorem not_bans_converge : ¬ ∀ j : Netjoin,
    (j.a.masks.length : Int) + j.b.masks.length < MAXBANS → j.Converges := by
  intro all
  have both := all sampleNetjoin (by decide +kernel) "bad!*@*"
  revert both
  decide +kernel

theorem bans_converge_iff_sample : sampleNetjoin.Converges ↔
    Admits ircMatch sampleNetjoin.a.masks sampleNetjoin.b.masks ∧
      Admits ircMatch sampleNetjoin.b.masks sampleNetjoin.a.masks := by
  have left : sampleNetjoin.a.masks = [collapse (pretty_mask "bad")] := by decide +kernel
  have right : sampleNetjoin.b.masks = [collapse (pretty_mask "b*")] := by decide +kernel
  refine bans_converge_iff sampleNetjoin (fun mask inside => ?_) fun mask inside => ?_
  · rw [left, List.mem_singleton] at inside
    exact inside ▸ sendable_pretty_mask (by decide)
  · rw [right, List.mem_singleton] at inside
    exact inside ▸ sendable_pretty_mask (by decide)

end Ircd

end PtlinkIrcd
