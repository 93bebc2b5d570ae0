/-
**The names on a channel.**

`m_names` appends the names to a buffer one after the other, each with the mark of its status in
front and a blank behind. A line is sent when it may not hold another name.

* `NamesLoop.put` — one name; the room left has to do for `NICKLEN`, but not for marks and the blank.
* `namesChannel` — the texts of the lines for a channel; `m_names` — the command.
* `namesChannel_pages` — the lines are pages filled with the names that the user may see.
* `names_listed_iff` — **each of these is listed exactly once, and the lines are of at most 510 bytes
  exactly when no name that overruns is met on a line that still has room**; a user whose nick has 18
  characters or fewer never sees such a line (`namesRoom_of_short`).
-/

import Mathlib.Data.List.TakeWhile
import PtlinkIrcd.Channel.Runs
import PtlinkIrcd.Lib.Pages

namespace PtlinkIrcd

/-! ### Writing names -/

/-- The names that are told of an abuser. -/
def TRUNCATED_NAMES : Nat := 20

def RPL_ENDOFNAMES : Nat := 366

/-- What `m_names` reads besides the state: `mename` is the name of the server or of the virtual link
of the user, `clientName` is what `get_client_name` says of the user. -/
structure NamesView where
  AdminWithDot : Bool
  mename : Text
  clientName : Text

def statusMark (HALFOPS AdminWithDot : Bool) (flags : Flags) : Text :=
  (if AdminWithDot && flags.has CHFL_CHANADM then ['.'] else []) ++
    (if flags.has CHFL_CHANOP then ['@']
      else if HALFOPS && flags.has CHFL_HALFOP then ['%']
      else if flags.has CHFL_VOICE then ['+'] else [])

def Channel.isPub (c : Channel) : Bool := !c.mode.mode.has (MODE_PRIVATE ||| MODE_SECRET)

/-- What a line for a channel starts with, behind the nick. -/
def Channel.namesStart (c : Channel) : Text :=
  (if c.isPub then '=' else if c.mode.mode.has MODE_SECRET then '@' else '*') ::
    ' ' :: c.chname ++ [' ', ':']

def namReply (mename nick buf : Text) : Text := line [":", mename, " 353 ", nick, " ", buf]

/-- The loop: the buffer, its length as it is counted, whether anything is left to be sent, and the
texts that were sent. -/
structure NamesLoop where
  buf : Text
  idx : Nat
  flag : Bool
  lines : List Text

/-- Append a name, and send the line when it may not hold another one. -/
def NamesLoop.put (mlen : Nat) (start mark name : Text) (l : NamesLoop) : NamesLoop :=
  let buf := l.buf ++ mark ++ name.take NICKLEN ++ [' ']
  let idx := l.idx + mark.length + (name.length + 1)
  if mlen + idx + NICKLEN > BUFSIZE - 3 then ⟨start, start.length, false, l.lines ++ [buf]⟩
  else ⟨buf, idx, true, l.lines⟩

def NamesLoop.sent (l : NamesLoop) : List Text := l.lines ++ if l.flag then [l.buf] else []

def NamesView.mlen (view : NamesView) : Nat := view.mename.length + NICKLEN + 7

namespace Ircd

variable (s : Ircd) (view : NamesView)

def showChannel (sptr : ClientId) (chptr : ChannelId) : Bool :=
  (s.chan chptr).isPub || s.isMember sptr chptr || (s.client sptr).isAnOper

/-- Whether a user may see that another one is on a channel. -/
def seesName (sptr : ClientId) (chptr : ChannelId) (c2ptr : ClientId) : Bool :=
  !((s.client c2ptr).isInvisible && !s.isMember sptr chptr && !(s.client sptr).isAnOper) &&
    !((s.client c2ptr).isStealth && c2ptr ≠ sptr)

def namesWho (sptr : ClientId) (chptr : ChannelId) (l : NamesLoop) (lp : Member) : NamesLoop :=
  if s.seesName sptr chptr lp.cptr then
    l.put view.mlen (s.chan chptr).namesStart (statusMark s.conf.HALFOPS view.AdminWithDot lp.flags)
      (s.client lp.cptr).name
  else l

/-- The texts of the lines for a channel. -/
def namesChannel (sptr : ClientId) (chptr : ChannelId) : List Text :=
  let start := (s.chan chptr).namesStart
  ((s.chan chptr).members.foldl (s.namesWho view sptr chptr) ⟨start, start.length, true, []⟩).sent

/-- Whether a client is listed apart from the channels: a person whom no channel shows, and none
that is secret hides. -/
def namesApart (sptr c2ptr : ClientId) : Bool :=
  let x := s.client c2ptr
  x.isPerson && !x.isInvisible && !x.isStealth &&
    x.channels.all fun ch3ptr =>
      !((s.chan ch3ptr).isPub || s.isMember sptr ch3ptr) && !(s.chan ch3ptr).mode.mode.has MODE_SECRET

/-- The texts of the lines of the sweep over all clients. -/
def namesSweep (sptr : ClientId) : List Text :=
  let start : Text := "* * :"
  (s.GlobalClientList.foldl
    (fun (l : NamesLoop) c2ptr =>
      if s.namesApart sptr c2ptr then l.put view.mlen start [] (s.client c2ptr).name else l)
    ⟨start, start.length, false, []⟩).sent

/-- A parameter with more than one comma, as the operators are told of it. -/
def abuseText (para : Text) : Text :=
  let first := para.takeWhile (· ≠ ',')
  let second := (para.drop (first.length + 1)).takeWhile (· ≠ ',')
  para.take (min (first.length + second.length + 2) TRUNCATED_NAMES)

def m_names (sptr : ClientId) (nick para : Text) : List Sent :=
  let reply := fun buf => Sent.one sptr (namReply view.mename nick buf)
  if !(s.client sptr).myConnect then []
  else if para.count ',' > 1 then
    [.ops (line ["POSSIBLE /names abuser ", abuseText para, " [", view.clientName, "]"]),
      .reply sptr ERR_TOOMANYTARGETS ["NAMES", "1"]]
  else
    let para := para.takeWhile (· ≠ ',')
    if !check_channel_name para then [.reply sptr ERR_BADCHANNAME [nick, para]]
    else
      let ch2ptr := s.hash_find_channel para
      let shown := s.channel.filter fun chptr =>
        (ch2ptr = some chptr || para = []) && s.showChannel sptr chptr
      let replies := (shown.flatMap (s.namesChannel view sptr)).map reply
      if para ≠ [] then replies ++ [.reply sptr RPL_ENDOFNAMES [nick, para]]
      else
        replies ++ (s.namesSweep view sptr).map reply ++ [.reply sptr RPL_ENDOFNAMES [nick, "*"]]

end Ircd

/-! ### Lines as pages -/

def NamesView.entry (view : NamesView) (s : Ircd) (lp : Member) : Text :=
  statusMark s.conf.HALFOPS view.AdminWithDot lp.flags ++ (s.client lp.cptr).name.take NICKLEN ++ [' ']

def NamesView.width (view : NamesView) (s : Ircd) (lp : Member) : Nat :=
  (statusMark s.conf.HALFOPS view.AdminWithDot lp.flags).length + ((s.client lp.cptr).name.length + 1)

/-- Whether a line with names of some bytes behind its start is sent. -/
def NamesView.full (view : NamesView) (start : Text) (bytes : Nat) : Bool :=
  view.mlen + (start.length + bytes) + NICKLEN > BUFSIZE - 3

def NamesView.page (view : NamesView) (s : Ircd) (start : Text) (names : List Member) : Text :=
  start ++ names.flatMap (view.entry s)

open Lib (Pages)

section Loop

variable {s : Ircd} {view : NamesView} {start : Text} {l : NamesLoop} {p : Pages Member}
  {lp : Member} {sptr : ClientId} {chptr : ChannelId}

/-- **The invariant of the loop**: the buffer is the open page, what was sent are the closed ones. -/
structure NamesLoop.Fills (l : NamesLoop) (view : NamesView) (s : Ircd) (start : Text)
    (p : Pages Member) : Prop where
  buf : l.buf = view.page s start p.rest
  idx : l.idx = start.length + Pages.load (view.width s) p.rest
  flag : l.flag = true ↔ p.rest ≠ [] ∨ p.closed = []
  lines : l.lines = p.closed.map (view.page s start)

theorem NamesLoop.Fills.put (fills : l.Fills view s start p) (lp : Member) :
    (l.put view.mlen start (statusMark s.conf.HALFOPS view.AdminWithDot lp.flags) (s.client lp.cptr).name).Fills
      view s start (p.add (view.width s) (view.full start) lp) := by
  have buf : l.buf ++ statusMark s.conf.HALFOPS view.AdminWithDot lp.flags ++
      (s.client lp.cptr).name.take NICKLEN ++ [' '] = view.page s start (p.rest ++ [lp]) := by
    rw [fills.buf]
    unfold NamesView.page NamesView.entry
    rw [List.flatMap_append, List.flatMap_singleton]
    simp only [List.append_assoc]
  have idx : l.idx + (statusMark s.conf.HALFOPS view.AdminWithDot lp.flags).length +
      ((s.client lp.cptr).name.length + 1) =
        start.length + Pages.load (view.width s) (p.rest ++ [lp]) := by
    rw [fills.idx, Pages.load_append]
    unfold NamesView.width
    omega
  unfold NamesLoop.put Pages.add NamesView.full
  simp only [buf, idx, decide_eq_true_eq]
  split
  · refine ⟨?_, rfl, ?_, ?_⟩
    · exact (List.append_nil _).symm
    · simp
    · rw [List.map_append, fills.lines]
      rfl
  · exact ⟨rfl, rfl, by simp, fills.lines⟩

/-- **The lines for a channel are pages** of the names that the user may see. -/
theorem namesLoop_fills (members : List Member) (fills : l.Fills view s (s.chan chptr).namesStart p) :
    (members.foldl (s.namesWho view sptr chptr) l).Fills view s (s.chan chptr).namesStart
      (p.fill (view.width s) (view.full (s.chan chptr).namesStart)
        (members.filter fun lp => s.seesName sptr chptr lp.cptr)) := by
  induction members generalizing l p with
  | nil => exact fills
  | cons lp members ih =>
    rw [List.foldl_cons]
    rw [List.filter_cons, Ircd.namesWho]
    split
    · exact ih (fills.put lp)
    · exact ih fills

end Loop

/-! ### What the user is told -/

theorem length_namReply (mename nick buf : Text) :
    (namReply mename nick buf).length = mename.length + nick.length + 7 + buf.length := by
  unfold namReply line
  simp only [List.flatten_cons, List.flatten_nil, List.append_nil, List.length_append]
  change 1 + (_ + (5 + (_ + (1 + _)))) = _
  omega

theorem length_page {s : Ircd} {names : List Member}
    (short : ∀ lp ∈ names, (s.client lp.cptr).name.length ≤ NICKLEN) (view : NamesView)
    (start : Text) :
    (view.page s start names).length = start.length + Pages.load (view.width s) names := by
  have entries : names.map (fun lp => (view.entry s lp).length) = names.map (view.width s) := by
    refine List.map_congr_left fun lp member => ?_
    unfold NamesView.entry NamesView.width
    rw [List.take_of_length_le (short lp member), List.length_append, List.length_append,
      List.length_singleton]
    omega
  unfold NamesView.page Pages.load
  rw [List.length_append, List.length_flatMap, entries]

namespace Ircd

variable (s : Ircd) (view : NamesView) (sptr : ClientId) (chptr : ChannelId) (nick : Text)

/-- The members whose names a user may see. -/
def shownNames : List Member :=
  (s.chan chptr).members.filter fun lp => s.seesName sptr chptr lp.cptr

/-- **Every name is listed once, with its mark, on lines that fit.** -/
structure NamesListed : Prop where
  once : ∃ groups : List (List Member), groups.flatten = s.shownNames sptr chptr ∧
    s.namesChannel view sptr chptr = groups.map (view.page s (s.chan chptr).namesStart)
  fits : ∀ buf ∈ s.namesChannel view sptr chptr, (namReply view.mename nick buf).length ≤ 510

/-- The bytes of a line for a channel in front of the names. -/
def namesHeader : Nat :=
  view.mename.length + nick.length + 7 + (s.chan chptr).namesStart.length

/-- **No name overruns a line that still has room.** -/
def NamesRoom : Prop :=
  s.namesHeader view chptr nick ≤ 510 ∧
    Pages.Room (view.full (s.chan chptr).namesStart) (510 - s.namesHeader view chptr nick) 0
      ((s.shownNames sptr chptr).map (view.width s))

def namesPages : List (List Member) :=
  (Pages.start.fill (view.width s) (view.full (s.chan chptr).namesStart) (s.shownNames sptr chptr)).pages

/-- **The lines for a channel are these pages.** -/
theorem namesChannel_pages : s.namesChannel view sptr chptr =
    (s.namesPages view sptr chptr).map (view.page s (s.chan chptr).namesStart) := by
  have start : NamesLoop.Fills ⟨(s.chan chptr).namesStart, (s.chan chptr).namesStart.length, true, []⟩
      view s (s.chan chptr).namesStart Pages.start :=
    ⟨(List.append_nil _).symm, rfl, by simp [Pages.start], rfl⟩
  have fills := @namesLoop_fills s view _ _ sptr chptr (s.chan chptr).members start
  unfold namesChannel NamesLoop.sent namesPages Pages.pages
  simp only []
  rw [fills.lines, fills.buf, List.map_append]
  congr 1
  by_cases more : (Pages.start.fill (view.width s) (view.full (s.chan chptr).namesStart)
      (s.shownNames sptr chptr)).rest ≠ [] ∨ (Pages.start.fill (view.width s)
        (view.full (s.chan chptr).namesStart) (s.shownNames sptr chptr)).closed = []
  · rw [if_pos (fills.flag.mpr more), if_pos more]
    rfl
  · rw [if_neg (fun flag => more (fills.flag.mp flag)), if_neg more]
    rfl

theorem flatten_namesPages : (s.namesPages view sptr chptr).flatten = s.shownNames sptr chptr := by
  unfold namesPages
  rw [Pages.flatten_pages]
  exact Pages.flatten_fill Pages.start _

theorem length_namesLine {page : List Member}
    (short : ∀ lp ∈ (s.chan chptr).members, (s.client lp.cptr).name.length ≤ NICKLEN)
    (member : page ∈ s.namesPages view sptr chptr) :
    (namReply view.mename nick (view.page s (s.chan chptr).namesStart page)).length =
      s.namesHeader view chptr nick + Pages.load (view.width s) page := by
  have shown : page ⊆ s.shownNames sptr chptr := by
    intro lp inside
    rw [← s.flatten_namesPages view]
    exact List.mem_flatten.mpr ⟨page, member, inside⟩
  rw [length_namReply, length_page fun lp inside => short lp (List.mem_of_mem_filter (shown inside))]
  unfold namesHeader
  omega

theorem namesHeader_of_not_full (own : nick.length ≤ NICKLEN) {idx : Nat}
    (more : view.full (s.chan chptr).namesStart idx = false) :
    s.namesHeader view chptr nick + idx ≤ 510 := by
  have more : ¬ view.mlen + ((s.chan chptr).namesStart.length + idx) + NICKLEN > BUFSIZE - 3 :=
    of_decide_eq_false more
  unfold NamesView.mlen NICKLEN BUFSIZE at more
  unfold NICKLEN at own
  unfold namesHeader
  omega

/-- **The names are listed exactly once, and the lines fit exactly when no name overruns a line.** -/
theorem names_listed_iff
    (short : ∀ lp ∈ (s.chan chptr).members, (s.client lp.cptr).name.length ≤ NICKLEN)
    (own : nick.length ≤ NICKLEN) :
    s.NamesListed view sptr chptr nick ↔ s.NamesRoom view sptr chptr nick := by
  have pages := s.namesChannel_pages view sptr chptr
  have room := @Pages.pages_fill_iff _ (view.width s) (view.full (s.chan chptr).namesStart)
    (s.shownNames sptr chptr) (510 - s.namesHeader view chptr nick) fun idx more => by
      have fits := s.namesHeader_of_not_full view chptr nick own more
      omega
  constructor
  · rintro ⟨-, fits⟩
    have line : ∀ page ∈ s.namesPages view sptr chptr,
        s.namesHeader view chptr nick + Pages.load (view.width s) page ≤ 510 := by
      intro page member
      rw [← s.length_namesLine view sptr chptr nick short member]
      exact fits _ (pages ▸ List.mem_map_of_mem member)
    refine ⟨?_, room.mp fun page member => ?_⟩
    · obtain ⟨page, member⟩ := List.exists_mem_of_ne_nil _ (Pages.pages_ne_nil _)
      have first := line page member
      omega
    · have fits := line page member
      omega
  · rintro ⟨header, space⟩
    refine ⟨⟨_, s.flatten_namesPages view sptr chptr, pages⟩, fun buf member => ?_⟩
    rw [pages] at member
    obtain ⟨page, inside, rfl⟩ := List.mem_map.mp member
    have fits := room.mpr space page inside
    rw [s.length_namesLine view sptr chptr nick short inside]
    omega

theorem length_statusMark_le (HALFOPS AdminWithDot : Bool) (flags : Flags) :
    (statusMark HALFOPS AdminWithDot flags).length ≤ 2 := by
  unfold statusMark
  have dot : (if AdminWithDot && flags.has CHFL_CHANADM then ['.'] else []).length ≤ 1 := by
    split <;> decide
  have letter : (if flags.has CHFL_CHANOP then ['@']
      else if HALFOPS && flags.has CHFL_HALFOP then ['%']
      else if flags.has CHFL_VOICE then ['+'] else []).length ≤ 1 := by
    repeat' split
    all_goals decide
  rw [List.length_append]
  exact Nat.add_le_add dot letter

/-- **Names never overrun a line to a user whose nick is two characters shorter than it may be.** -/
theorem namesRoom_of_short (short : ∀ lp ∈ (s.chan chptr).members,
      (s.client lp.cptr).name.length ≤ NICKLEN) (own : nick.length + 2 ≤ NICKLEN)
    (mename : view.mename.length ≤ HOSTLEN) (chname : (s.chan chptr).chname.length ≤ CHANNELLEN) :
    s.NamesRoom view sptr chptr nick := by
  have start : (s.chan chptr).namesStart.length = (s.chan chptr).chname.length + 4 := by
    unfold Channel.namesStart
    simp
  have idle : ∀ idx, view.full (s.chan chptr).namesStart idx = false ↔
      view.mename.length + (s.chan chptr).chname.length + idx ≤ 458 := by
    intro idx
    unfold NamesView.full NamesView.mlen NICKLEN BUFSIZE
    rw [start, decide_eq_false_iff_not]
    omega
  unfold HOSTLEN at mename
  unfold CHANNELLEN at chname
  unfold NICKLEN at own
  have header : s.namesHeader view chptr nick =
      view.mename.length + nick.length + (s.chan chptr).chname.length + 11 := by
    unfold namesHeader
    rw [start]
    omega
  refine ⟨by omega, Pages.room_of_slack ((idle 0).mpr (by omega)) ?_ ((idle 0).mpr (by omega))⟩
  intro w member idx more
  obtain ⟨lp, shown, rfl⟩ := List.mem_map.mp member
  have name := short lp (List.mem_of_mem_filter shown)
  have mark := length_statusMark_le s.conf.HALFOPS view.AdminWithDot lp.flags
  have before := (idle idx).mp more
  unfold NICKLEN at name
  unfold NamesView.width
  omega

theorem m_names_channel {s : Ircd} {sptr : ClientId} {chptr : ChannelId} {name : Text}
    (own : (s.client sptr).myConnect = true) (some_ : name ≠ []) (comma : ',' ∉ name)
    (valid : check_channel_name name = true) (found : s.hash_find_channel name = some chptr)
    (channels : s.channel.Nodup) (listed : chptr ∈ s.channel)
    (shown : s.showChannel sptr chptr = true) :
    s.m_names view sptr nick name =
      ((s.namesChannel view sptr chptr).map fun buf =>
        Sent.one sptr (namReply view.mename nick buf)) ++ [.reply sptr RPL_ENDOFNAMES [nick, name]] := by
  have whole : name.takeWhile (· ≠ ',') = name := List.takeWhile_eq_self_iff.mpr fun c member => by
    simpa using ne_of_mem_of_not_mem member comma
  have one : (s.channel.filter fun d => (some chptr = some d || name = []) && s.showChannel sptr d) =
      [chptr] := by
    have same : (s.channel.filter fun d =>
        (some chptr = some d || name = []) && s.showChannel sptr d) =
          s.channel.filter (· == chptr) := by
      refine List.filter_congr fun d _ => ?_
      by_cases here : d = chptr
      · simp [here, shown]
      · simp [here, Ne.symm here, some_]
    rw [same, List.filter_beq, List.count_eq_one_of_mem channels listed]
    rfl
  have few : ¬ name.count ',' > 1 := by
    rw [List.count_eq_zero_of_not_mem comma]
    decide
  unfold m_names
  simp only []
  rw [own, if_neg (by decide), if_neg few, whole, valid, if_neg (by decide), if_pos some_, found, one,
    List.flatMap_singleton]

/-- A channel of a user with a nick of 14 characters and of 20 operators with nicks of 20. -/
def sampleNamed : Ircd :=
  { blank sampleConf 1000 "home" with
    client := fun u => { Client.zero with
      name := List.replicate (if u = 1 then 14 else 20) (Char.ofNat (96 + u)) }
    chan := fun _ => { Channel.zero "#c" 1000 with
      members := ⟨1, 0⟩ :: (List.range 20).map fun i => ⟨i + 2, CHFL_CHANADM ||| CHFL_CHANOP⟩ } }

/-- The server, and administrators with a dot. -/
def sampleView : NamesView := ⟨true, "home", "a!a@a.org"⟩

theorem short_sampleNamed : ∀ lp ∈ (sampleNamed.chan 0).members,
    (sampleNamed.client lp.cptr).name.length ≤ NICKLEN := by
  decide +kernel

theorem names_listed_iff_fourteen :
    sampleNamed.NamesListed sampleView 1 0 (sampleNamed.client 1).name :=
  (sampleNamed.names_listed_iff sampleView 1 0 _ short_sampleNamed (by decide)).mpr
    (sampleNamed.namesRoom_of_short sampleView 1 0 _ short_sampleNamed (by decide) (by decide)
      (by decide))

/-- **The last operator on the line is two bytes too much for another operator.** -/
theorem not_names_listed : ¬ ∀ (s : Ircd) view sptr chptr nick,
    (∀ lp ∈ (s.chan chptr).members, (s.client lp.cptr).name.length ≤ NICKLEN) →
    nick.length ≤ NICKLEN → s.NamesListed view sptr chptr nick := by
  intro listed
  have fits := (listed sampleNamed sampleView 2 0 (sampleNamed.client 2).name short_sampleNamed
    (by decide)).fits
  have long : ((sampleNamed.namesChannel sampleView 2 0).map fun buf =>
      (namReply sampleView.mename (sampleNamed.client 2).name buf).length) = [512] := by
    decide +kernel
  obtain ⟨buf, member, size⟩ := List.mem_map.mp
    (show 512 ∈ (sampleNamed.namesChannel sampleView 2 0).map fun buf =>
      (namReply sampleView.mename (sampleNamed.client 2).name buf).length by
        rw [long]
        exact List.mem_cons_self)
  have short := fits buf member
  rw [size] at short
  exact absurd short (by decide)

end Ircd

end PtlinkIrcd
