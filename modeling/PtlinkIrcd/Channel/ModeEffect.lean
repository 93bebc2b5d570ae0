/-
**What one letter of a MODE command does.**

A letter either changes nothing and writes nothing (`Idles`), or it makes one `ModeChange`: it writes
its sign, itself and perhaps a parameter, and edits the channel accordingly. Two effects are not written
(`Aside`): invitations that go with an `i` that is not set, and the mark of a member that a deopped source
names.

* `ModeEdit`, `Channel.edit` — the edits.
* `Allows m l change` — the state of the loop in which a letter makes a change, with every test that
  it passed.
* `modeLetter_cases` — **a letter idles, does something aside, or makes a change that is allowed.** What
  follows about the command goes by these cases and does not look at the switch again.
* `modeWords_run` — an invariant of the letters is one of the whole loop.
-/

import PtlinkIrcd.Channel.SetMode
import PtlinkIrcd.Channel.SjoinEffect

set_option linter.unusedSectionVars false

namespace PtlinkIrcd

/-! ### Edits of a channel -/

/-- What a letter edits. -/
inductive ModeEdit
  | status (who : ClientId) (flag : Flags) (add : Bool)
  | key (key : Text)
  | ban (ban : Ban)
  | unban (banid : Text)
  | flood (pair : Option (Int32 × Int32))
  | limit (nusers : Option Int32)
  | bit (flag : Flags) (add : Bool)

/-- The number of bans after one was deleted. -/
def countedDown (num_bed : Int) : Int := if num_bed > 0 then num_bed - 1 else 0

def Channel.edit (c : Channel) : ModeEdit → Channel
  | .status who flag add => { c with members := changeLink who (changedFlags flag add) c.members }
  | .key key => { c with mode := { c.mode with key := key } }
  | .ban ban => { c with banlist := ban :: c.banlist, num_bed := c.num_bed + 1 }
  | .unban banid =>
    { c with
      banlist := c.banlist.eraseP fun ban => irccmp banid ban.banstr = 0
      num_bed := countedDown c.num_bed }
  | .flood (some (msgs, per)) =>
    { c with mode := { c.mode with
      mode := c.mode.mode ||| MODE_FLOODLIMIT, msgs := msgs, per := per } }
  | .flood none =>
    { c with mode := { c.mode with mode := c.mode.mode &&& ~~~MODE_FLOODLIMIT, msgs := 0, per := 0 } }
  | .limit (some nusers) =>
    { c with mode := { c.mode with mode := c.mode.mode ||| MODE_LIMIT, limit := nusers } }
  | .limit none =>
    { c with mode := { c.mode with mode := c.mode.mode &&& ~~~MODE_LIMIT, limit := 0 } }
  | .bit flag add => { c with mode := { c.mode with mode := c.mode.mode.change add flag } }

/-- The same channel with other invitations. -/
def Channel.inviting (c : Channel) (invites : List ClientId) : Channel :=
  { c with invites := invites }

theorem changeLink_ids (who : ClientId) (f : Flags → Flags) (members : List Member) :
    (changeLink who f members).map Member.cptr = members.map Member.cptr := by
  induction members with
  | nil => rfl
  | cons l members ih =>
    unfold changeLink
    split
    · rfl
    · rw [List.map_cons, List.map_cons, ih]

theorem find_changeLink (who u : ClientId) (f : Flags → Flags) (members : List Member) :
    find_user_link (changeLink who f members) u =
      if u = who then (find_user_link members u).map fun l => { l with flags := f l.flags }
      else find_user_link members u := by
  induction members with
  | nil => split <;> rfl
  | cons l members ih =>
    unfold changeLink
    by_cases here : l.cptr = who
    · rw [if_pos here]
      by_cases self : u = who
      · rw [if_pos self]
        unfold find_user_link
        rw [List.find?_cons_of_pos (by simp [here, self]),
          List.find?_cons_of_pos (by simp [here, self])]
        rfl
      · rw [if_neg self]
        have ne : ¬ l.cptr = u := fun same => self (same.symm.trans here)
        unfold find_user_link
        rw [List.find?_cons_of_neg (by simp [ne]), List.find?_cons_of_neg (by simp [ne])]
    · rw [if_neg here]
      by_cases there : l.cptr = u
      · have self : ¬ u = who := fun same => here (there.trans same)
        rw [if_neg self]
        unfold find_user_link
        rw [List.find?_cons_of_pos (by simp [there]), List.find?_cons_of_pos (by simp [there])]
      · unfold find_user_link at ih ⊢
        rw [List.find?_cons_of_neg (by simp [there]), List.find?_cons_of_neg (by simp [there]), ih]

theorem user_channel_mode_changeLink (c : Channel) (who u : ClientId) (f : Flags → Flags) :
    Channel.user_channel_mode { c with members := changeLink who f c.members } u =
      if u = who ∧ (find_user_link c.members u).isSome then f (c.user_channel_mode u)
      else c.user_channel_mode u := by
  unfold Channel.user_channel_mode
  simp only []
  rw [find_changeLink]
  by_cases self : u = who
  · rw [if_pos self]
    cases find_user_link c.members u with
    | none => rw [if_neg (by simp)]; rfl
    | some l => rw [if_pos ⟨self, rfl⟩]; rfl
  · rw [if_neg self, if_neg (fun both => self both.1)]

theorem Channel.edit_memberIds (c : Channel) (edit : ModeEdit) :
    (c.edit edit).memberIds = c.memberIds := by
  unfold Channel.edit
  split
  case h_1 => exact changeLink_ids ..
  all_goals rfl

theorem Channel.edit_frame (c : Channel) (edit : ModeEdit) :
    (c.edit edit).chname = c.chname ∧ (c.edit edit).users = c.users ∧
      (c.edit edit).iusers = c.iusers ∧ (c.edit edit).invites = c.invites ∧
      (c.edit edit).channelts = c.channelts := by
  unfold Channel.edit
  split <;> exact ⟨rfl, rfl, rfl, rfl, rfl⟩

/-- The modes, the bans, the members and their statuses are the same. -/
structure Channel.Keeps (c d : Channel) : Prop where
  mode : d.mode = c.mode
  banlist : d.banlist = c.banlist
  members : d.memberIds = c.memberIds
  statuses : ∀ u flag, MODE_DEOPPED &&& flag = 0#32 →
    (d.user_channel_mode u).has flag = (c.user_channel_mode u).has flag

namespace Channel.Keeps

theorem refl (c : Channel) : c.Keeps c := ⟨rfl, rfl, rfl, fun _ _ _ => rfl⟩

theorem trans {c d e : Channel} (first : c.Keeps d) (second : d.Keeps e) : c.Keeps e where
  mode := second.mode.trans first.mode
  banlist := second.banlist.trans first.banlist
  members := second.members.trans first.members
  statuses u flag apart := (second.statuses u flag apart).trans (first.statuses u flag apart)

theorem set_deopped (s : Ircd) (cptr : ClientId) (chptr : ChannelId) (flag : Flags) :
    (s.chan chptr).Keeps ((s.set_deopped cptr chptr flag).chan chptr) := by
  unfold Ircd.set_deopped
  simp only []
  rw [Ircd.setChan_chan_self]
  refine ⟨rfl, rfl, changeLink_ids .., fun u other apart => ?_⟩
  rw [user_channel_mode_changeLink]
  split
  · split
    · rfl
    · rw [Flags.or_has, Flags.has_of_disjoint apart, Bool.or_false]
  · rfl

end Channel.Keeps

/-! ### Steps within the modes of a channel -/

/-- Only the log, the modes, bans, statuses and invitations of one channel differ. -/
structure ModeFrame (chptr : ChannelId) (s other : Ircd) : Prop extends Ircd.Quiet s other where
  now : other.now = s.now
  clientTable : other.clientTable = s.clientTable
  whowas : other.whowas = s.whowas
  client : ∀ u, ∃ user, other.client u = { s.client u with user := user }
  chan : ∀ c, c ≠ chptr → other.chan c = s.chan c
  channelts : (other.chan chptr).channelts = (s.chan chptr).channelts

namespace ModeFrame

variable {chptr : ChannelId} {s other third : Ircd}

theorem refl (chptr : ChannelId) (s : Ircd) : ModeFrame chptr s s :=
  ⟨.refl s, rfl, rfl, rfl, fun _ => ⟨_, rfl⟩, fun _ _ => rfl, rfl⟩

theorem trans (first : ModeFrame chptr s other) (second : ModeFrame chptr other third) :
    ModeFrame chptr s third where
  toQuiet := first.toQuiet.trans second.toQuiet
  now := second.now.trans first.now
  clientTable := second.clientTable.trans first.clientTable
  whowas := second.whowas.trans first.whowas
  client u := by
    obtain ⟨_, eq⟩ := first.client u
    obtain ⟨user, eq'⟩ := second.client u
    rw [eq] at eq'
    exact ⟨user, eq'⟩
  chan c ne := (second.chan c ne).trans (first.chan c ne)
  channelts := second.channelts.trans first.channelts

theorem sends (chptr : ChannelId) (sends : Ircd.Sends s other) : ModeFrame chptr s other := by
  have still := sends.still.toQuiet
  obtain ⟨events, rfl⟩ := sends
  exact ⟨still, rfl, rfl, rfl, fun _ => ⟨_, rfl⟩, fun _ _ => rfl, rfl⟩

/-- Writing a block with the same name, members, counters and time stamp. -/
theorem setBlock (s : Ircd) {chptr : ChannelId} {c : Channel}
    (ids : c.memberIds = (s.chan chptr).memberIds) (chname : c.chname = (s.chan chptr).chname)
    (users : c.users = (s.chan chptr).users) (iusers : c.iusers = (s.chan chptr).iusers)
    (channelts : c.channelts = (s.chan chptr).channelts) :
    ModeFrame chptr s (s.setChan chptr c) := by
  have block : ∀ d, (s.setChan chptr c).chan d = s.chan d ∨
      d = chptr ∧ (s.setChan chptr c).chan d = c := by
    intro d
    by_cases same : d = chptr
    · exact .inr ⟨same, by rw [same, Ircd.setChan_chan_self]⟩
    · exact .inl (Ircd.setChan_chan_of_ne s c same)
  refine ⟨⟨⟨fun _ => rfl, fun _ => rfl, ?_, ?_⟩, fun _ => rfl, ?_, fun _ => rfl, fun _ => rfl,
    fun _ => rfl, ?_, rfl, rfl, rfl, rfl, rfl⟩, rfl, rfl, rfl, fun _ => ⟨_, rfl⟩,
    fun d ne => Ircd.setChan_chan_of_ne s c ne, by rw [Ircd.setChan_chan_self, channelts]⟩
  all_goals
    intro d
    rcases block d with same | ⟨rfl, same⟩ <;> rw [same]
    assumption

theorem setChan (s : Ircd) {chptr : ChannelId} (edit : ModeEdit) :
    ModeFrame chptr s (s.setChan chptr ((s.chan chptr).edit edit)) := by
  obtain ⟨chname, users, iusers, _, channelts⟩ := (s.chan chptr).edit_frame edit
  exact setBlock s ((s.chan chptr).edit_memberIds edit) chname users iusers channelts

theorem set_deopped (s : Ircd) (cptr : ClientId) (chptr : ChannelId) (flag : Flags) :
    ModeFrame chptr s (s.set_deopped cptr chptr flag) := by
  unfold Ircd.set_deopped
  exact setBlock s (changeLink_ids ..) rfl rfl rfl rfl

theorem setInvited (s : Ircd) (u : ClientId) (invited : List ChannelId) :
    let after := s.setInvited u invited
    after.now = s.now ∧ after.clientTable = s.clientTable ∧ after.whowas = s.whowas ∧
      (∀ v, ∃ user, after.client v = { s.client v with user := user }) ∧ after.chan = s.chan := by
  unfold Ircd.setInvited
  split
  · exact ⟨rfl, rfl, rfl, fun _ => ⟨_, rfl⟩, rfl⟩
  · refine ⟨rfl, rfl, rfl, fun v => ?_, rfl⟩
    exact Ircd.setUser_client_eq ..

theorem del_invite (s : Ircd) (u : ClientId) (chptr : ChannelId) :
    ModeFrame chptr s (s.del_invite u chptr) := by
  have quiet := Ircd.Quiet.del_invite s u chptr
  obtain ⟨now, clientTable, whowas, client, chan⟩ := setInvited (s.setChan chptr
    { s.chan chptr with invites := (s.chan chptr).invites.erase u }) u ((s.invited u).erase chptr)
  refine ⟨quiet, now, clientTable, whowas, client, fun c ne => ?_, ?_⟩
  · exact (congrFun chan c).trans (Ircd.setChan_chan_of_ne _ _ ne)
  · refine (congrArg Channel.channelts (congrFun chan chptr)).trans ?_
    rw [Ircd.setChan_chan_self]

theorem foldl {ι : Type} (step : Ircd → ι → Ircd) (frame : ∀ s i, ModeFrame chptr s (step s i))
    (items : List ι) (s : Ircd) : ModeFrame chptr s (items.foldl step s) := by
  induction items generalizing s with
  | nil => exact refl ..
  | cons item items ih => exact (frame s item).trans (ih _)

end ModeFrame

/-! ### Changes -/

/-- What a letter writes, and what it edits. -/
structure ModeChange where
  add : Bool
  letter : Char
  text : Option Text
  /-- What `len` grows by. -/
  cost : Nat
  edit : ModeEdit

namespace ModeChange

def sign (change : ModeChange) : Char := if change.add then '+' else '-'

def param (change : ModeChange) : Text :=
  match change.text with
  | none => []
  | some text => text ++ [' ']

end ModeChange

/-- The status letters that only a channel operator or half-op changes. -/
def statusFlag : List (Char × Flags) := [('o', MODE_CHANOP), ('h', MODE_HALFOP), ('v', MODE_VOICE)]

/-- The argument of the letter `k`, cut to size. -/
def ModeLoop.keyText (l : ModeLoop) (m : ModeSource) : Text := (l.keyArg m).take KEYLEN

def banArg (m : ModeSource) (p : Text) : Text :=
  if m.my then collapse (pretty_mask (check_string p)) else check_string p

/-- **When a letter makes a change**, and which. -/
inductive Allows (m : ModeSource) (l : ModeLoop) : ModeChange → Prop
  | admin {p : Text} {parv : List Text} {who : ClientId}
      (turn : l.whatt ≠ .query) (args : l.parv = p :: parv)
      (found : l.s.chased (check_string p) = some who) (user : (l.s.client who).user.isSome)
      (own : m.my = true → l.whatt = .del ∧ who = m.sptr) (ok : m.isok = true)
      (on : l.s.isMember who m.chptr = true)
      (room : l.len + (check_string p).length + 2 < MODEBUFLEN) :
      Allows m l ⟨l.whatt = .add, 'a', some (l.s.client who).name, (check_string p).length + 1,
        .status who MODE_CHANADM (l.whatt = .add)⟩
  | status {c : Char} {flag : Flags} {p : Text} {parv : List Text} {who : ClientId}
      (letter : (c, flag) ∈ statusFlag) (built : c = 'h' → m.HALFOPS = true) (turn : l.whatt ≠ .query)
      (args : l.parv = p :: parv) (found : l.s.chased (check_string p) = some who) (user : (l.s.client who).user.isSome)
      (on : l.s.isMember who m.chptr = true) (seen : (l.s.client who).isStealth = false)
      (other : ¬ (who = m.sptr ∧ c = 'o' ∧ l.whatt = .add))
      (chop : m.HALFOPS = true → c = 'o' ∨ c = 'h' → m.ischop = true) (ok : m.isok = true)
      (safe : m.my = true → l.whatt = .del → (l.s.chan m.chptr).is_chan_adm who = true →
        (l.s.chan m.chptr).is_chan_adm m.sptr = true)
      (room : l.len + (check_string p).length + 2 < MODEBUFLEN) :
      Allows m l ⟨l.whatt = .add, c, some (l.s.client who).name, (check_string p).length + 1,
        .status who flag (l.whatt = .add)⟩
  | key (turn : l.whatt = .add) (args : l.parv ≠ []) (once : l.keychange = false)
      (some_ : l.keyText m ≠ []) (ok : m.isok = true)
      (new : (l.s.chan m.chptr).mode.key ≠ l.keyText m)
      (room : l.len + (l.keyText m).length + 2 < MODEBUFLEN) :
      Allows m l ⟨true, 'k', some (l.keyText m), (l.keyText m).length + 1,
        .key (l.keyText m)⟩
  | unkey (turn : l.whatt = .del) (once : l.keychange = false) (some_ : l.keyText m ≠ [])
      (ok : m.isok = true)
      (named : l.keyText m = ['*'] ∨ l.keyText m = (l.s.chan m.chptr).mode.key)
      (room : l.len + (l.keyText m).length + 2 < MODEBUFLEN) :
      Allows m l ⟨false, 'k', some (l.s.chan m.chptr).mode.key, (l.keyText m).length + 1, .key []⟩
  | ban {p : Text} {parv : List Text} {ban : Ban}
      (turn : l.whatt = .add) (args : l.parv = p :: parv) (ok : m.isok = true)
      (colon : m.my = true → (check_string p).head? ≠ some ':')
      (banstr : ban.banstr =
        if (l.s.client m.sptr).myClient then collapse (banArg m p) else banArg m p)
      (fresh : (l.s.chan m.chptr).banlist.any (fun old => ircMatch old.banstr ban.banstr) = false)
      (room : l.len + (banArg m p).length + 2 < MODEBUFLEN) :
      Allows m l ⟨true, 'b', some (banArg m p), (banArg m p).length + 1, .ban ban⟩
  | unban {p : Text} {parv : List Text}
      (turn : l.whatt = .del) (args : l.parv = p :: parv) (ok : m.isok = true)
      (known : (l.s.chan m.chptr).banlist.any
        (fun ban => irccmp (banArg m p) ban.banstr = 0) = true)
      (room : l.len + (banArg m p).length + 2 < MODEBUFLEN) :
      Allows m l ⟨false, 'b', some (banArg m p), (banArg m p).length + 1, .unban (banArg m p)⟩
  | flood {p : Text} {parv : List Text} {pair : Int32 × Int32}
      (turn : l.whatt = .add) (args : l.parv = p :: parv) (once : l.floodset = false)
      (ok : m.isok = true) (long : 3 ≤ (check_string p).length)
      (valid : isvalidopt (check_string p) = true) (read : setfl (check_string p) = some pair)
      (room : l.len + (check_string p).length + 2 < MODEBUFLEN) :
      Allows m l ⟨true, 'f', some (check_string p), (check_string p).length + 1, .flood (some pair)⟩
  | unflood (turn : l.whatt = .del) (once : l.floodset = false) (ok : m.isok = true) :
      Allows m l ⟨false, 'f', none, 0, .flood none⟩
  | limit {p : Text} {parv : List Text} (turn : l.whatt = .add) (args : l.parv = p :: parv)
      (once : l.limitset = false) (ok : m.isok = true) (pos : ¬ atoi (check_string p) ≤ 0)
      (room : l.len + (printD (atoi (check_string p))).length + 2 < MODEBUFLEN) :
      Allows m l ⟨true, 'l', some (printD (atoi (check_string p))),
        (printD (atoi (check_string p))).length + 1, .limit (some (atoi (check_string p)))⟩
  | unlimit (turn : l.whatt = .del) (once : l.limitset = false) (ok : m.isok = true) :
      Allows m l ⟨false, 'l', none, 0, .limit none⟩
  | bit {c : Char} {flag : Flags} (letter : modeBits.lookup c = some flag)
      (turn : c = 'i' → l.whatt ≠ .query) (may : m.maySet c = true)
      (once : m.my = true → c ∉ l.done) (room : l.len + 2 < MODEBUFLEN)
      (new : (l.s.chan m.chptr).mode.mode.has flag = !decide (l.whatt = .add)) :
      Allows m l ⟨l.whatt = .add, c, none, 2, .bit flag (l.whatt = .add)⟩

/-- The marks of letters that are taken once only grow. -/
structure Marks (l other : ModeLoop) : Prop where
  keychange : l.keychange = true → other.keychange = true
  floodset : l.floodset = true → other.floodset = true
  limitset : l.limitset = true → other.limitset = true

/-- Nothing is written. -/
structure Unwritten (l other : ModeLoop) : Prop where
  mbuf : other.mbuf = l.mbuf
  pbuf : other.pbuf = l.pbuf
  len : other.len = l.len
  marks : Marks l other

/-- Nothing changes and nothing is written. -/
structure Idles (l other : ModeLoop) : Prop extends Unwritten l other where
  sends : Ircd.Sends l.s other.s

/-- **What a letter does without writing it.** -/
inductive Aside (m : ModeSource) (l : ModeLoop) (c : Char) (other : ModeLoop) : Prop
  /-- A removed `i` takes the invitations also where the bit is not set. -/
  | uninvited (letter : c = 'i') (turn : l.whatt = .del) (may : m.maySet 'i' = true)
      (room : l.len + 2 < MODEBUFLEN)
      (unset : (l.s.chan m.chptr).mode.mode.has MODE_INVITEONLY = false)
      (after : other.s = l.s.withoutInvites m.chptr)
  /-- Without half-ops, who is named by a deopped source is marked, too. -/
  | deopped {who : ClientId} (letter : c = 'o') (turn : l.whatt = .add) (deop : m.isdeop = true)
      (on : l.s.isMember who m.chptr = true)
      (after : Ircd.Sends (l.s.set_deopped who m.chptr MODE_CHANOP) other.s)

/-- A change is made. -/
structure Makes (m : ModeSource) (l : ModeLoop) (change : ModeChange) (other : ModeLoop) : Prop where
  frame : ModeFrame m.chptr l.s other.s
  block : ∃ invites, other.s.chan m.chptr =
    ((l.s.chan m.chptr).edit change.edit).inviting invites
  mbuf : other.mbuf = l.mbuf ++ [change.sign, change.letter]
  pbuf : other.pbuf = l.pbuf ++ change.param
  len : other.len = l.len + change.cost
  marks : Marks l other
  marked : (change.letter = 'k' → other.keychange = true) ∧
    (change.letter = 'f' → other.floodset = true) ∧ (change.letter = 'l' → other.limitset = true)

/-- A letter idles, does something aside, or makes an allowed change. -/
def Steps (m : ModeSource) (l : ModeLoop) (c : Char) (other : ModeLoop) : Prop :=
  Idles l other ∨ Unwritten l other ∧ Aside m l c other ∨
    ∃ change, change.letter = c ∧ Allows m l change ∧ Makes m l change other

theorem Steps.made {m : ModeSource} {l other : ModeLoop} {change : ModeChange} {c : Char}
    (letter : change.letter = c) (allows : Allows m l change) (makes : Makes m l change other) :
    Steps m l c other :=
  .inr (.inr ⟨change, letter, allows, makes⟩)

/-! ### Idle steps -/

section Idle

variable {m : ModeSource} {l other third : ModeLoop}

theorem Marks.refl (l : ModeLoop) : Marks l l := ⟨id, id, id⟩

theorem Marks.trans (first : Marks l other) (second : Marks other third) : Marks l third :=
  ⟨second.keychange ∘ first.keychange, second.floodset ∘ first.floodset,
    second.limitset ∘ first.limitset⟩

theorem Unwritten.trans (first : Unwritten l other) (second : Unwritten other third) :
    Unwritten l third :=
  ⟨second.mbuf.trans first.mbuf, second.pbuf.trans first.pbuf, second.len.trans first.len,
    first.marks.trans second.marks⟩

theorem Idles.refl (l : ModeLoop) : Idles l l := ⟨⟨rfl, rfl, rfl, .refl l⟩, .refl _⟩

theorem Idles.trans (first : Idles l other) (second : Idles other third) : Idles l third :=
  ⟨first.toUnwritten.trans second.toUnwritten, first.sends.trans second.sends⟩

theorem Idles.sends_only (sends : Ircd.Sends l.s other.s) (mbuf : other.mbuf = l.mbuf)
    (pbuf : other.pbuf = l.pbuf) (len : other.len = l.len) (keychange : other.keychange = l.keychange)
    (floodset : other.floodset = l.floodset) (limitset : other.limitset = l.limitset) :
    Idles l other :=
  ⟨⟨mbuf, pbuf, len, ⟨fun h => keychange.trans h, fun h => floodset.trans h,
    fun h => limitset.trans h⟩⟩, sends⟩

theorem Idles.complain (l : ModeLoop) (m : ModeSource) (err : SmErr) (event : Sent) :
    Idles l (l.complain m err event) := by
  unfold ModeLoop.complain
  split
  · exact .sends_only (.send ..) rfl rfl rfl rfl rfl rfl
  · exact .refl l

theorem Idles.opless (l : ModeLoop) (m : ModeSource) : Idles l (l.opless m) := .complain ..

theorem Idles.tell (l : ModeLoop) (m : ModeSource) (event : Sent) : Idles l (l.tell m event) :=
  .sends_only (.sendIf ..) rfl rfl rfl rfl rfl rfl

theorem Idles.parv (l : ModeLoop) (parv : List Text) : Idles l { l with parv := parv } :=
  .sends_only (.refl _) rfl rfl rfl rfl rfl rfl

theorem find_chasing_some {s s' : Ircd} {sptr : ClientId} {user : Text} {who : ClientId × Bool}
    (found : s.find_chasing sptr user = (s', some who)) :
    s' = s ∧ s.chased user = some who.1 := by
  have chased := s.find_chasing_snd sptr user
  rw [found] at chased
  refine ⟨?_, chased.symm⟩
  unfold Ircd.find_chasing at found
  split at found
  · exact (congrArg Prod.fst found).symm
  · split at found
    · exact (congrArg Prod.fst found).symm
    · exact absurd (congrArg Prod.snd found) (by simp)

theorem find_chasing_none {s s' : Ircd} {sptr : ClientId} {user : Text}
    (found : s.find_chasing sptr user = (s', none)) : Ircd.Sends s s' := by
  have sends := Ircd.Sends.find_chasing s sptr user
  rw [found] at sends
  exact sends

theorem add_or_del (turn : l.whatt ≠ .query) : l.whatt = .add ∨ l.whatt = .del := by
  cases known : l.whatt with
  | add => exact .inl rfl
  | del => exact .inr rfl
  | query => exact absurd known turn

theorem plus_eq_sign (turn : l.whatt ≠ .query) :
    l.whatt.plus = if decide (l.whatt = .add) then '+' else '-' := by
  rcases add_or_del turn with known | known <;> rw [known] <;> rfl

theorem Makes.write (m : ModeSource) (l other : ModeLoop) (add : Bool) (c : Char) (text : Text)
    (tmp : Nat) (edit : ModeEdit) (sign : l.whatt.plus = if add then '+' else '-') (s : Ircd) (sends : Ircd.Sends l.s s)
    (chan : other.s = s.setChan m.chptr ((s.chan m.chptr).edit edit))
    (mbuf : other.mbuf = l.mbuf ++ [l.whatt.plus, c]) (pbuf : other.pbuf = l.pbuf ++ text ++ [' '])
    (len : other.len = l.len + tmp + 1) (marks : Marks l other)
    (marked : (c = 'k' → other.keychange = true) ∧ (c = 'f' → other.floodset = true) ∧
      (c = 'l' → other.limitset = true)) :
    Makes m l ⟨add, c, some text, tmp + 1, edit⟩ other where
  frame := by
    rw [chan]
    exact (ModeFrame.sends _ sends).trans (.setChan s edit)
  block := by
    refine ⟨((l.s.chan m.chptr).edit edit).invites, ?_⟩
    rw [chan, Ircd.setChan_chan_self, sends.chan]
    rfl
  mbuf := by
    rw [mbuf, sign]
    rfl
  pbuf := by rw [pbuf, List.append_assoc]; rfl
  len := by rw [len, Nat.add_assoc]
  marks := marks
  marked := marked

theorem Makes.read {change : ModeChange} {parv : List Text}
    (makes : Makes m { l with parv := parv } change other) : Makes m l change other :=
  ⟨makes.frame, makes.block, makes.mbuf, makes.pbuf, makes.len,
    ⟨makes.marks.keychange, makes.marks.floodset, makes.marks.limitset⟩, makes.marked⟩

end Idle

/-! ### The letters about members -/

theorem ModeSource.isdeop_of_ischop (m : ModeSource) (chop : m.ischop = true) : m.isdeop = false := by
  unfold isdeop
  rw [chop]
  rfl

theorem ModeSource.isok_of_isdeop (m : ModeSource) (without : m.HALFOPS = false)
    (deop : m.isdeop = true) : m.isok = false := by
  have chop : m.ischop = false := by
    by_contra chop
    rw [Bool.not_eq_false] at chop
    exact absurd (deop.symm.trans (m.isdeop_of_ischop chop)) Bool.true_eq_false.mp
  have service : m.x.isService = false := by
    unfold ischop at chop
    rw [Bool.or_eq_false_iff, Bool.or_eq_false_iff] at chop
    exact chop.1.2
  unfold isok half_op
  rw [chop, without, deop, service]
  rfl

section Members

variable {m : ModeSource} {l : ModeLoop}

theorem status_cases (l : ModeLoop) (m : ModeSource) {c : Char} (flag : Flags) (who : ClientId) (tmp : Nat)
    (turn : l.whatt ≠ .query) (unmarked : c ≠ 'k' ∧ c ≠ 'f' ∧ c ≠ 'l') :
    Idles l (l.status m c flag who tmp) ∨ l.len + tmp + 2 < MODEBUFLEN ∧
      Makes m l ⟨l.whatt = .add, c, some (l.s.client who).name, tmp + 1,
        .status who flag (l.whatt = .add)⟩ (l.status m c flag who tmp) := by
  unfold ModeLoop.status
  split
  · exact .inl (.refl l)
  · rename_i room
    refine .inr ⟨Nat.lt_of_not_le room, ?_⟩
    exact .write _ _ _ _ _ _ _ _ (plus_eq_sign turn) l.s (.refl _) rfl rfl rfl rfl ⟨id, id, id⟩
      ⟨fun same => absurd same unmarked.1, fun same => absurd same unmarked.2.1,
        fun same => absurd same unmarked.2.2⟩

theorem modeAdmin_cases (m : ModeSource) (l : ModeLoop) : Steps m l 'a' (modeAdmin m l) := by
  unfold modeAdmin
  split
  · exact .inl (.refl l)
  · rename_i turn
    split
    · exact .inl (.refl l)
    · rename_i p parv args
      split
      · rename_i found
        exact .inl (.sends_only (find_chasing_none found) rfl rfl rfl rfl rfl rfl)
      · rename_i s who _ found
        obtain ⟨rfl, chased⟩ := find_chasing_some found
        unfold modeAdminOf
        simp only []
        have skip : Idles l { l with parv := parv } := .parv l parv
        split
        · exact .inl skip
        · rename_i user
          split
          · exact .inl skip
          · rename_i own
            split
            · exact .inl (skip.trans (.opless ..))
            · rename_i ok
              split
              · exact .inl (skip.trans (.tell ..))
              · rename_i on
                rw [Bool.or_eq_true, not_or] at on
                have own' : m.my = true → l.whatt = .del ∧ who = m.sptr := by
                  intro my
                  rw [my] at own
                  simpa [not_or] using own
                rcases status_cases { l with parv := parv } m (c := 'a') MODE_CHANADM who
                  (check_string p).length turn (by decide) with idle | ⟨room, makes⟩
                · exact .inl (skip.trans idle)
                · exact .made rfl (.admin turn args chased (by simpa [Option.isSome_iff_ne_none] using user)
                    own' (by simpa using ok) (by simpa using on.1) room) makes.read

/-- The end of a status letter: the mark of the deopped is written before the tests, which then fail. -/
theorem modeStatusOf_cases {c : Char} {flag : Flags} (letter : (c, flag) ∈ statusFlag)
    (built : c = 'h' → m.HALFOPS = true) (turn : l.whatt ≠ .query) {p : Text} {parv : List Text}
    (args : l.parv = p :: parv) {who : ClientId} (found : l.s.chased (check_string p) = some who) :
    Steps m l c (modeStatusOf m c flag who (check_string p) { l with parv := parv }) := by
  have skip : Idles l { l with parv := parv } := .parv l parv
  unfold modeStatusOf
  simp only []
  split
  · exact .inl skip
  rename_i user
  split
  · exact .inl (skip.trans (.tell ..))
  rename_i on
  rw [Bool.or_eq_true, not_or] at on
  split
  · exact .inl skip
  rename_i other
  split
  · exact .inl skip
  rename_i chop
  have chop' : m.HALFOPS = true → c = 'o' ∨ c = 'h' → m.ischop = true := by
    intro halfops letter
    by_contra chopless
    refine chop ?_
    rw [Bool.not_eq_true] at chopless
    rw [chopless, halfops]
    rcases letter with rfl | rfl <;> rfl
  by_cases deopped : (m.isdeop && decide (c = 'o') && decide (l.whatt = .add)) = true
  · rw [if_pos deopped]
    rw [Bool.and_eq_true, Bool.and_eq_true, decide_eq_true_eq, decide_eq_true_eq] at deopped
    obtain ⟨⟨deop, rfl⟩, add⟩ := deopped
    have without : m.HALFOPS = false := by
      by_contra halfops
      rw [Bool.not_eq_false] at halfops
      exact absurd (deop.symm.trans (m.isdeop_of_ischop (chop' halfops (.inl rfl)))) Bool.true_eq_false.mp
    rw [m.isok_of_isdeop without deop]
    simp only [Bool.not_false, if_true]
    have flag_ : flag = MODE_CHANOP := by simpa [statusFlag] using letter
    have marked : Unwritten l { l with parv := parv, s := l.s.set_deopped who m.chptr flag } :=
      ⟨rfl, rfl, rfl, ⟨id, id, id⟩⟩
    refine .inr (.inl ⟨marked.trans (Idles.opless ..).toUnwritten,
      .deopped rfl add deop (by simpa using on.1) ?_⟩)
    rw [flag_]
    exact (Idles.opless ..).sends
  rw [if_neg deopped]
  split
  · exact .inl (skip.trans (.opless ..))
  rename_i ok
  split
  · exact .inl (skip.trans (.tell ..))
  rename_i safe
  have unmarked : c ≠ 'k' ∧ c ≠ 'f' ∧ c ≠ 'l' := by
    unfold statusFlag at letter
    simp only [List.mem_cons, Prod.mk.injEq, List.not_mem_nil, or_false] at letter
    rcases letter with ⟨rfl, _⟩ | ⟨rfl, _⟩ | ⟨rfl, _⟩ <;> decide
  rcases status_cases { l with parv := parv } m flag who (check_string p).length turn unmarked
    with idle | ⟨room, makes⟩
  · exact .inl (skip.trans idle)
  · refine .made rfl (.status letter built turn args found ?_ ?_ ?_ ?_ chop' ?_ ?_ room) makes.read
    · simpa [Option.isSome_iff_ne_none] using user
    · simpa using on.1
    · simpa using on.2
    · simpa [and_assoc] using other
    · simpa using ok
    · intro my del adm
      by_contra notAdm
      refine safe ?_
      rw [Bool.not_eq_true] at notAdm
      simp only [my, del, adm, notAdm, decide_true, Bool.not_false, Bool.and_true]

theorem modeStatus_cases (l : ModeLoop) {c : Char} {flag : Flags} (letter : (c, flag) ∈ statusFlag)
    (built : c = 'h' → m.HALFOPS = true) : Steps m l c (modeStatus m c flag l) := by
  unfold modeStatus
  simp only []
  split
  · exact .inl ((Idles.complain ..).trans (.parv ..))
  split
  · exact .inl ((Idles.complain ..).trans (.parv ..))
  split
  · exact .inl (.refl l)
  rename_i turn
  split
  · exact .inl (.refl l)
  rename_i p parv args
  split
  · exact .inl (.parv l parv)
  split
  · rename_i found
    exact .inl (.sends_only (find_chasing_none found) rfl rfl rfl rfl rfl rfl)
  · rename_i s who _ found
    obtain ⟨rfl, chased⟩ := find_chasing_some found
    exact modeStatusOf_cases letter built turn args chased

end Members

/-! ### The letters with other parameters -/

section Parameters

variable {m : ModeSource} {l : ModeLoop}

theorem sends_modeOldKey (m : ModeSource) (s : Ircd) : Ircd.Sends s (modeOldKey m s) := by
  unfold modeOldKey
  simp only []
  split
  · exact (Ircd.Sends.send ..).trans (.send ..)
  · exact .refl s

theorem Idles.keyed (l : ModeLoop) (parv : List Text) :
    Idles l { l with parv := parv, keychange := true } :=
  ⟨⟨rfl, rfl, rfl, ⟨fun _ => rfl, id, id⟩⟩, .refl _⟩

theorem Makes.keyed {change : ModeChange} {parv : List Text} {other : ModeLoop}
    (makes : Makes m { l with parv := parv, keychange := true } change other) :
    Makes m l change other :=
  ⟨makes.frame, makes.block, makes.mbuf, makes.pbuf, makes.len,
    ⟨fun _ => makes.marks.keychange rfl, makes.marks.floodset, makes.marks.limitset⟩, makes.marked⟩

theorem modeKeyOf_add (m : ModeSource) (l : ModeLoop) (arg : Text) (turn : l.whatt = .add)
    (keyed : l.keychange = true) :
    Idles l (modeKeyOf m arg l) ∨ l.len + arg.length + 2 < MODEBUFLEN ∧
      (l.s.chan m.chptr).mode.key ≠ arg ∧
      Makes m l ⟨true, 'k', some arg, arg.length + 1, .key arg⟩ (modeKeyOf m arg l) := by
  unfold modeKeyOf
  simp only []
  split
  · exact .inl (.refl l)
  rename_i room
  split
  · exact .inl (.refl l)
  rename_i new
  have sends := sends_modeOldKey m l.s
  have makes := Makes.write m l { l.write 'k' arg arg.length with
      s := (modeOldKey m l.s).setMode m.chptr { (l.s.chan m.chptr).mode with key := arg } }
    true 'k' arg arg.length (.key arg)
    (by rw [turn]; rfl) (modeOldKey m l.s) sends (by rw [← sends.chan]; rfl) rfl rfl rfl ⟨id, id, id⟩
    ⟨fun _ => keyed, by simp, by simp⟩
  exact .inr ⟨Nat.lt_of_not_le room, new, makes⟩

theorem modeKeyOf_del (m : ModeSource) (l : ModeLoop) (arg : Text) (turn : l.whatt = .del)
    (keyed : l.keychange = true) :
    Idles l (modeKeyOf m arg l) ∨ l.len + arg.length + 2 < MODEBUFLEN ∧
      (arg = ['*'] ∨ arg = (l.s.chan m.chptr).mode.key) ∧
      Makes m l ⟨false, 'k', some (l.s.chan m.chptr).mode.key, arg.length + 1, .key []⟩
        (modeKeyOf m arg l) := by
  have notAdd : l.whatt ≠ .add := by rw [turn]; decide
  unfold modeKeyOf
  simp only []
  split
  · exact .inl (.refl l)
  rename_i room
  split
  · exact .inl (.refl l)
  rename_i same
  have named : arg = ['*'] ∨ arg = (l.s.chan m.chptr).mode.key := by
    by_cases star : arg = ['*']
    · exact .inl star
    · exact .inr (by simpa [star] using same)
  have makes := Makes.write m l { l.write 'k' (l.s.chan m.chptr).mode.key arg.length with
      s := l.s.setMode m.chptr { (l.s.chan m.chptr).mode with key := [] } }
    false 'k' (l.s.chan m.chptr).mode.key arg.length (.key [])
    (by rw [turn]; rfl) l.s (.refl _) rfl rfl rfl rfl ⟨id, id, id⟩ ⟨fun _ => keyed, by simp, by simp⟩
  exact .inr ⟨Nat.lt_of_not_le room, named, makes⟩

theorem modeKey_cases (m : ModeSource) (l : ModeLoop) : Steps m l 'k' (modeKey m l) := by
  unfold modeKey
  split
  · exact .inl (.refl l)
  rename_i turn
  split
  · exact .inl (.parv ..)
  rename_i once
  rw [Bool.not_eq_true] at once
  split
  · exact .inl (.keyed ..)
  rename_i some_
  split
  · exact .inl ((Idles.keyed ..).trans (.opless ..))
  rename_i ok
  have ok : m.isok = true := by simpa using ok
  have notQuery : l.whatt ≠ .query := fun query => turn (by simp [query])
  have some' : l.keyText m ≠ [] := by
    intro empty
    rcases List.take_eq_nil_iff.mp empty with zero | none_
    · exact absurd zero (by decide)
    · exact some_ none_
  rcases add_or_del notQuery with whatt | whatt
  · have args : l.parv ≠ [] := fun none_ => turn (by simp [whatt, none_])
    rcases modeKeyOf_add m { l with parv := l.parv.tail, keychange := true } (l.keyText m) whatt rfl
      with idle | ⟨room, new, makes⟩
    · exact .inl ((Idles.keyed ..).trans idle)
    · exact .made rfl (.key whatt args once some' ok new room) makes.keyed
  · rcases modeKeyOf_del m { l with parv := l.parv.tail, keychange := true } (l.keyText m) whatt rfl
      with idle | ⟨room, named, makes⟩
    · exact .inl ((Idles.keyed ..).trans idle)
    · exact .made rfl (.unkey whatt once some' ok named room) makes.keyed

theorem add_banid_cases (s : Ircd) (cptr : ClientId) (chptr : ChannelId) (banid : Text) :
    Ircd.Sends s (s.add_banid cptr chptr banid).1 ∧ (s.add_banid cptr chptr banid).2 = false ∨
      ∃ ban : Ban, ban.banstr = (if (s.client cptr).myClient then collapse banid else banid) ∧
        (s.chan chptr).banlist.any (fun old => ircMatch old.banstr ban.banstr) = false ∧
        s.add_banid cptr chptr banid =
          (s.setChan chptr ((s.chan chptr).edit (.ban ban)), true) := by
  unfold Ircd.add_banid
  simp only []
  generalize (if (s.client cptr).myClient then collapse banid else banid) = banid
  split
  · exact .inl ⟨.send .., rfl⟩
  split
  · exact .inl ⟨.refl s, rfl⟩
  · rename_i fresh
    exact .inr ⟨⟨banid, _, s.now⟩, rfl, by simpa using fresh, rfl⟩

theorem del_banid_cases (s : Ircd) (chptr : ChannelId) (banid : Text) :
    s.del_banid chptr banid = (s, false) ∨
      (s.chan chptr).banlist.any (fun ban => irccmp banid ban.banstr = 0) = true ∧
        s.del_banid chptr banid = (s.setChan chptr ((s.chan chptr).edit (.unban banid)), true) := by
  unfold Ircd.del_banid
  simp only []
  split
  · rename_i known
    exact .inr ⟨known, rfl⟩
  · exact .inl rfl

theorem modeBanList_idles (m : ModeSource) (l : ModeLoop) : Idles l (modeBanList m l) := by
  unfold modeBanList
  split
  · exact .refl l
  simp only []
  refine .sends_only (Ircd.Sends.trans ?_ (.send ..)) rfl rfl rfl rfl rfl rfl
  generalize (l.s.chan m.chptr).banlist = bans
  generalize l.s = s
  induction bans generalizing s with
  | nil => exact .refl s
  | cons ban bans ih => exact (Ircd.Sends.send ..).trans (ih _)

theorem modeBanOf_cases {p : Text} {parv : List Text} (args : l.parv = p :: parv)
    (turn : l.whatt ≠ .query) (ok : m.isok = true)
    (colon : m.my = true → l.whatt = .add → (check_string p).head? ≠ some ':') :
    Steps m l 'b' (modeBanOf m (banArg m p) { l with parv := parv }) := by
  have skip : Idles l { l with parv := parv } := .parv l parv
  unfold modeBanOf
  simp only []
  split
  · exact .inl skip
  rename_i room
  have room : l.len + (banArg m p).length + 2 < MODEBUFLEN := Nat.lt_of_not_le room
  rcases add_or_del turn with add | del
  · rw [if_pos add]
    have colon : m.my = true → (check_string p).head? ≠ some ':' := fun my => colon my add
    rcases add_banid_cases l.s m.sptr m.chptr (banArg m p) with
      ⟨sends, refused⟩ | ⟨ban, banstr, fresh, added⟩
    · rw [if_neg (by simp [refused])]
      exact .inl (.sends_only sends rfl rfl rfl rfl rfl rfl)
    · rw [added]
      have makes := Makes.write m l
        { ModeLoop.write { l with parv := parv } 'b' (banArg m p) (banArg m p).length with
          opcnt := l.opcnt + 1
          s := l.s.setChan m.chptr ((l.s.chan m.chptr).edit (.ban ban)) }
        true 'b' (banArg m p) (banArg m p).length (.ban ban)
        (by rw [add]; rfl) l.s (.refl _) rfl rfl rfl rfl ⟨id, id, id⟩ ⟨by simp, by simp, by simp⟩
      exact .made rfl (.ban add args ok colon banstr fresh room) makes
  · have notAdd : l.whatt ≠ .add := by rw [del]; decide
    rw [if_neg notAdd]
    rcases del_banid_cases l.s m.chptr (banArg m p) with none_ | ⟨known, deleted⟩
    · rw [none_]
      exact .inl skip
    · rw [deleted]
      have makes := Makes.write m l
        { ModeLoop.write { l with parv := parv } 'b' (banArg m p) (banArg m p).length with
          opcnt := l.opcnt + 1
          s := l.s.setChan m.chptr ((l.s.chan m.chptr).edit (.unban (banArg m p))) }
        false 'b' (banArg m p) (banArg m p).length (.unban (banArg m p))
        (by rw [del]; rfl) l.s (.refl _) rfl rfl rfl rfl ⟨id, id, id⟩ ⟨by simp, by simp, by simp⟩
      exact .made rfl (.unban del args ok known room) makes

theorem modeBan_cases (m : ModeSource) (l : ModeLoop) : Steps m l 'b' (modeBan m l) := by
  unfold modeBan
  split
  · exact .inl (modeBanList_idles m l)
  rename_i turn
  split
  · exact .inl (modeBanList_idles m l)
  rename_i p parv args
  simp only []
  split
  · exact .inl (.parv ..)
  split
  · exact .inl ((Idles.parv ..).trans (.opless ..))
  rename_i ok
  split
  · exact .inl (.parv ..)
  rename_i colon
  refine modeBanOf_cases args turn (by simpa using ok) fun my add head => colon ?_
  simp [my, add, head]

theorem modeFlood_cases (m : ModeSource) (l : ModeLoop) : Steps m l 'f' (modeFlood m l) := by
  unfold modeFlood
  split
  · exact .inl (.refl l)
  rename_i turn
  split
  · exact .inl (.parv ..)
  rename_i ok
  have ok : m.isok = true := by simpa using ok
  split
  · exact .inl (.parv ..)
  rename_i once
  have once : l.floodset = false := by simpa using once
  have set_ : ∀ parv : List Text, Idles l { l with parv := parv, floodset := true } := fun parv =>
    ⟨⟨rfl, rfl, rfl, ⟨id, fun _ => rfl, id⟩⟩, .refl _⟩
  simp only []
  rcases add_or_del turn with add | del
  · rw [if_pos add]
    split
    · exact .inl ((set_ l.parv).trans (.tell ..))
    rename_i p parv args
    unfold modeFloodOf
    split
    · exact .inl (set_ parv)
    rename_i room
    split
    · exact .inl (set_ parv)
    rename_i valid
    split
    · exact .inl (set_ parv)
    rename_i msgs per read
    rw [Bool.or_eq_true, not_or] at valid
    have makes := Makes.write m l
      { ModeLoop.write { l with parv := parv, floodset := true } 'f' (check_string p)
          (check_string p).length with
        s := l.s.setChan m.chptr ((l.s.chan m.chptr).edit (.flood (some (msgs, per)))) }
      true 'f' (check_string p) (check_string p).length (.flood (some (msgs, per)))
      (by rw [add]; rfl) l.s (.refl _) rfl rfl rfl rfl ⟨id, fun _ => rfl, id⟩ ⟨by simp, fun _ => rfl, by simp⟩
    exact .made rfl (.flood add args once ok (by simpa using valid.1) (by simpa using valid.2) read
      (Nat.lt_of_not_le room)) makes
  · have notAdd : l.whatt ≠ .add := by rw [del]; decide
    rw [if_neg notAdd]
    refine .made rfl (.unflood del once ok) ?_
    exact ⟨.setChan l.s (.flood none), ⟨_, Ircd.setChan_chan_self ..⟩, rfl, (List.append_nil _).symm, rfl,
      ⟨id, fun _ => rfl, id⟩, ⟨by simp, fun _ => rfl, by simp⟩⟩

theorem modeLimit_cases (m : ModeSource) (l : ModeLoop) : Steps m l 'l' (modeLimit m l) := by
  unfold modeLimit
  split
  · exact .inl (.refl l)
  rename_i turn
  split
  · exact .inl (.parv ..)
  rename_i ok
  have ok : m.isok = true := by simpa using ok
  split
  · exact .inl (.parv ..)
  rename_i once
  have once : l.limitset = false := by simpa using once
  have set_ : ∀ parv : List Text, Idles l { l with parv := parv, limitset := true } := fun parv =>
    ⟨⟨rfl, rfl, rfl, ⟨id, id, fun _ => rfl⟩⟩, .refl _⟩
  simp only []
  rcases add_or_del turn with add | del
  · rw [if_pos add]
    split
    · exact .inl ((set_ l.parv).trans (.tell ..))
    rename_i p parv args
    unfold modeLimitOf
    simp only []
    split
    · exact .inl (set_ parv)
    rename_i pos
    split
    · exact .inl (set_ parv)
    rename_i room
    have makes := Makes.write m l
      { ModeLoop.write { l with parv := parv, limitset := true } 'l'
          (printD (atoi (check_string p))) (printD (atoi (check_string p))).length with
        s := l.s.setChan m.chptr ((l.s.chan m.chptr).edit (.limit (some (atoi (check_string p))))) }
      true 'l' (printD (atoi (check_string p))) (printD (atoi (check_string p))).length
      (.limit (some (atoi (check_string p))))
      (by rw [add]; rfl) l.s (.refl _) rfl rfl rfl rfl ⟨id, id, fun _ => rfl⟩ ⟨by simp, by simp, fun _ => rfl⟩
    exact .made rfl (.limit add args once ok pos (Nat.lt_of_not_le room)) makes
  · have notAdd : l.whatt ≠ .add := by rw [del]; decide
    rw [if_neg notAdd]
    refine .made rfl (.unlimit del once ok) ?_
    exact ⟨.setChan l.s (.limit none), ⟨_, Ircd.setChan_chan_self ..⟩, rfl, (List.append_nil _).symm, rfl,
      ⟨id, id, fun _ => rfl⟩, ⟨by simp, by simp, fun _ => rfl⟩⟩

end Parameters

/-! ### The letters of bits -/

section Bits

variable {m : ModeSource} {l : ModeLoop}

theorem withoutInvites_block (s : Ircd) (chptr : ChannelId) : ∃ invites,
    (s.withoutInvites chptr).chan chptr = (s.chan chptr).inviting invites := by
  unfold Ircd.withoutInvites
  generalize (s.chan chptr).invites = us
  induction us generalizing s with
  | nil => exact ⟨_, rfl⟩
  | cons u us ih =>
    obtain ⟨invites, eq⟩ := ih (s.del_invite u chptr)
    refine ⟨invites, ?_⟩
    have one : (s.del_invite u chptr).chan chptr =
        (s.chan chptr).inviting ((s.chan chptr).invites.erase u) := by
      refine (congrFun (Ircd.setInvited_chan ..) chptr).trans ?_
      exact Ircd.setChan_chan_self ..
    rw [List.foldl_cons, eq, one]
    rfl

/-- What is left aside: only one channel and the invitations to it differ. -/
theorem Aside.frame {other : ModeLoop} {c : Char} (aside : Aside m l c other) :
    ModeFrame m.chptr l.s other.s := by
  cases aside with
  | uninvited _ _ _ _ _ after =>
    rw [after]
    exact .foldl (fun s cptr => s.del_invite cptr m.chptr) (fun s u => .del_invite s u m.chptr) _ l.s
  | deopped _ _ _ _ after =>
    exact (ModeFrame.set_deopped ..).trans (.sends _ after)

/-- **What is done aside changes no mode, no ban and no status.** -/
theorem Aside.keeps {other : ModeLoop} {c : Char} (aside : Aside m l c other) :
    (l.s.chan m.chptr).Keeps (other.s.chan m.chptr) := by
  cases aside with
  | uninvited _ _ _ _ _ after =>
    obtain ⟨invites, block⟩ := withoutInvites_block l.s m.chptr
    rw [after, block]
    exact ⟨rfl, rfl, rfl, fun _ _ _ => rfl⟩
  | deopped _ _ _ _ after =>
    rw [after.chan]
    exact .set_deopped ..

theorem modeBitOf_cases {c : Char} {flag : Flags} (letter : modeBits.lookup c = some flag)
    (turn : c = 'i' → l.whatt ≠ .query) (may : m.maySet c = true)
    (once : m.my = true → c ∉ l.done) (done : List Char) :
    Steps m l c (modeBitOf m c flag { l with done := done }) := by
  have skip : Idles l { l with done := done } := .sends_only (.refl _) rfl rfl rfl rfl rfl rfl
  unfold modeBitOf
  simp only []
  split
  · exact .inl skip
  rename_i room
  have unmarked : c ≠ 'k' ∧ c ≠ 'f' ∧ c ≠ 'l' := by
    have apart : ∀ d, modeBits.lookup d = none → c ≠ d := fun d none_ same =>
      absurd ((same ▸ letter).symm.trans none_) (by simp)
    exact ⟨apart 'k' rfl, apart 'f' rfl, apart 'l' rfl⟩
  have cleared : ∃ invites s, s = (if c = 'i' && !decide (l.whatt = .add)
      then l.s.withoutInvites m.chptr else l.s) ∧ ModeFrame m.chptr l.s s ∧
      s.chan m.chptr = (l.s.chan m.chptr).inviting invites := by
    split
    · obtain ⟨invites, eq⟩ := withoutInvites_block l.s m.chptr
      exact ⟨invites, _, rfl, ModeFrame.foldl (fun s cptr => s.del_invite cptr m.chptr)
        (fun s u => .del_invite s u m.chptr) _ l.s, eq⟩
    · exact ⟨_, _, rfl, .refl .., rfl⟩
  obtain ⟨invites, s, same, frame, block⟩ := cleared
  have cleared_mode : ((if c = 'i' && !decide (l.whatt = .add) then l.s.withoutInvites m.chptr
      else l.s).chan m.chptr).mode = (l.s.chan m.chptr).mode := by
    rw [← same, block]
    rfl
  by_cases idle : (l.s.chan m.chptr).mode.mode.has flag = decide (l.whatt = .add)
  · rw [if_pos (by rw [cleared_mode, idle])]
    split
    · rename_i uninvites
      rw [Bool.and_eq_true, decide_eq_true_eq, Bool.not_eq_true', decide_eq_false_iff_not] at uninvites
      obtain ⟨rfl, notAdd⟩ := uninvites
      have flag_ : flag = MODE_INVITEONLY := (Option.some.inj letter).symm
      refine .inr (.inl ⟨⟨rfl, rfl, rfl, ⟨id, id, id⟩⟩, ?_⟩)
      refine .uninvited rfl ((add_or_del (turn rfl)).resolve_left notAdd) may (Nat.lt_of_not_le room) ?_ rfl
      rw [← flag_, idle, decide_eq_false notAdd]
    · exact .inl skip
  rw [if_neg (by rw [cleared_mode]; exact idle)]
  rw [← same]
  refine .made rfl (.bit letter turn may once (Nat.lt_of_not_le room) (Bool.eq_not_of_ne idle)) ?_
  refine ⟨frame.trans (.setChan s (.bit flag (l.whatt = .add))), ⟨invites, ?_⟩, rfl,
    (List.append_nil _).symm, rfl, ⟨id, id, id⟩, fun same => absurd same unmarked.1,
    fun same => absurd same unmarked.2.1, fun same => absurd same unmarked.2.2⟩
  refine (Ircd.setChan_chan_self ..).trans ?_
  rw [block]
  rfl

theorem modeBit_cases {c : Char} {flag : Flags} (letter : modeBits.lookup c = some flag)
    (m : ModeSource) (l : ModeLoop) : Steps m l c (modeBit m c flag l) := by
  unfold modeBit
  split
  · exact .inl (.refl l)
  rename_i turn
  split
  · refine .inl ?_
    unfold modeBitRefused
    split
    · exact .complain ..
    · exact .opless ..
  rename_i may
  split
  · exact .inl (.refl l)
  rename_i once
  refine modeBitOf_cases letter (fun i query => turn ?_) (by simpa using may) (fun my done => once ?_) _
  · simp [i, query]
  · simp [my, done]

end Bits

/-! ### The switch -/

/-- **A letter idles, or makes a change that is allowed.** -/
theorem modeLetter_cases (m : ModeSource) (l : ModeLoop) (c : Char) :
    Steps m l c (modeLetter m l c) := by
  have sign : ∀ whatt, Steps m l c { l with whatt := whatt } := fun whatt =>
    .inl (.sends_only (.refl _) rfl rfl rfl rfl rfl rfl)
  have member : ∀ {c flag}, (c, flag) ∈ statusFlag → (c = 'h' → m.HALFOPS = true) →
      Steps m l c (modeStatus m c flag l) := fun letter built => modeStatus_cases l letter built
  unfold modeLetter
  refine iteInduction (fun _ => sign .add) fun _ => ?_
  refine iteInduction (fun _ => sign .del) fun _ => ?_
  refine iteInduction (fun _ => sign .query) fun _ => ?_
  refine iteInduction (fun letter => letter ▸ modeAdmin_cases m l) fun _ => ?_
  refine iteInduction (fun letter => letter ▸ member (by decide) fun same => absurd same (by decide)) fun _ => ?_
  refine iteInduction (fun both => ?_) fun _ => ?_
  · obtain ⟨rfl, built⟩ := (by simpa using both : c = 'h' ∧ m.HALFOPS = true)
    exact member (by decide) fun _ => built
  refine iteInduction (fun letter => letter ▸ member (by decide) fun same => absurd same (by decide)) fun _ => ?_
  refine iteInduction (fun letter => letter ▸ modeKey_cases m l) fun _ => ?_
  refine iteInduction (fun letter => letter ▸ modeBan_cases m l) fun _ => ?_
  refine iteInduction (fun letter => letter ▸ modeFlood_cases m l) fun _ => ?_
  refine iteInduction (fun letter => letter ▸ modeLimit_cases m l) fun _ => ?_
  cases letter : modeBits.lookup c with
  | some flag => exact modeBit_cases letter m l
  | none =>
    refine .inl ?_
    unfold modeUnknown
    exact iteInduction (fun _ => .refl l) fun _ => .complain ..

/-! ### The loop -/

/-- A condition on the loop before each letter of a mode string. -/
def wordMeets (m : ModeSource) (ok : ModeLoop → Char → Prop) : ModeLoop → Text → Prop
  | _, [] => True
  | l, c :: curr => ok l c ∧ wordMeets m ok (modeLetter m l c) curr

/-- A condition on the loop before each letter of the command. -/
def wordsMeet (m : ModeSource) (ok : ModeLoop → Char → Prop) : Nat → ModeLoop → Text → Prop
  | 0, l, curr => wordMeets m ok l curr
  | rounds + 1, l, curr =>
    wordMeets m ok l curr ∧
      match (curr.foldl (modeLetter m) l).parv with
      | [] => True
      | next :: parv =>
        wordsMeet m ok rounds { curr.foldl (modeLetter m) l with parv := parv } next

instance wordMeets.decidable (m : ModeSource) (ok : ModeLoop → Char → Prop)
    [∀ l c, Decidable (ok l c)] : ∀ l curr, Decidable (wordMeets m ok l curr)
  | _, [] => .isTrue trivial
  | l, c :: curr =>
    have := wordMeets.decidable m ok (modeLetter m l c) curr
    inferInstanceAs (Decidable (_ ∧ _))

instance wordsMeet.decidable (m : ModeSource) (ok : ModeLoop → Char → Prop)
    [∀ l c, Decidable (ok l c)] : ∀ rounds l curr, Decidable (wordsMeet m ok rounds l curr)
  | 0, l, curr => wordMeets.decidable m ok l curr
  | rounds + 1, l, curr =>
    have : Decidable (match (curr.foldl (modeLetter m) l).parv with
        | [] => True
        | next :: parv =>
          wordsMeet m ok rounds { curr.foldl (modeLetter m) l with parv := parv } next) :=
      match (curr.foldl (modeLetter m) l).parv with
      | [] => .isTrue trivial
      | next :: _ => wordsMeet.decidable m ok rounds _ next
    inferInstanceAs (Decidable (_ ∧ _))

/-- **What every letter preserves under a condition, a loop preserves whose letters meet it.** -/
theorem modeWords_run {m : ModeSource} {ok : ModeLoop → Char → Prop} {P : ModeLoop → Prop}
    (letter : ∀ l c, ok l c → P l → P (modeLetter m l c))
    (next : ∀ l parv, P l → P { l with parv := parv }) (rounds : Nat) {l : ModeLoop} {curr : Text}
    (meets : wordsMeet m ok rounds l curr) (start : P l) : P (modeWords m rounds l curr) := by
  have word : ∀ (curr : Text) (l : ModeLoop), wordMeets m ok l curr → P l →
      P (curr.foldl (modeLetter m) l) := by
    intro curr
    induction curr with
    | nil => exact fun l _ start => start
    | cons c curr ih => exact fun l meets start => ih _ meets.2 (letter l c meets.1 start)
  induction rounds generalizing l curr with
  | zero => exact word curr l meets start
  | succ rounds ih =>
    unfold wordsMeet at meets
    unfold modeWords
    have before := word curr l meets.1 start
    have after := meets.2
    generalize curr.foldl (modeLetter m) l = first at before after ⊢
    simp only []
    split
    · exact before
    · rename_i following parv left
      rw [left] at after
      exact ih after (next _ _ before)

theorem sends_modeTell (m : ModeSource) (l : ModeLoop) : Ircd.Sends l.s (modeTell m l) := by
  unfold modeTell
  simp only []
  split
  · exact (Ircd.Sends.send ..).trans (.send ..)
  · exact .refl _

theorem wordsMeet_true (m : ModeSource) (rounds : Nat) (l : ModeLoop) (curr : Text) :
    wordsMeet m (fun _ _ => True) rounds l curr := by
  have word : ∀ (curr : Text) (l : ModeLoop), wordMeets m (fun _ _ => True) l curr := by
    intro curr
    induction curr with
    | nil => exact fun _ => trivial
    | cons c curr ih => exact fun l => ⟨trivial, ih _⟩
  induction rounds generalizing l curr with
  | zero => exact word curr l
  | succ rounds ih =>
    unfold wordsMeet
    refine ⟨word curr l, ?_⟩
    split
    · trivial
    · exact ih ..

end PtlinkIrcd
