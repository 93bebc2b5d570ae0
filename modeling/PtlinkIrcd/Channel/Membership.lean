/-
**Entering and leaving channels.**

`channel.c`: the two lists and three counters that record who is on a channel, and the creation and
destruction of channel blocks.

* `get_channel` — finds a channel by name; with `CREATE` it makes one that is not there.
* `add_user_to_channel`, `remove_user_from_channel` — both lists and the counters.
* `sub1_from_channel` — counts one user off and destroys a channel left empty, unless it is `kept`.
-/

import PtlinkIrcd.Model.State

namespace PtlinkIrcd

/-! ### Member links -/

def find_user_link (members : List Member) (cptr : ClientId) : Option Member :=
  members.find? fun l => l.cptr = cptr

/-- The mode bits under which a channel stays without users. -/
def keeps (conf : Conf) (bits : Flags) : Bool :=
  (conf.RestrictedChans && bits.has MODE_REGISTERED) ||
    bits.has (MODE_ADMINONLY ||| MODE_OPERONLY ||| MODE_LOG)

theorem keeps_or (conf : Conf) (a b : Flags) :
    keeps conf (a ||| b) = (keeps conf a || keeps conf b) := by
  unfold keeps
  rw [Flags.or_has, Flags.or_has, Bool.and_or_distrib_left]
  ac_rfl

namespace Channel

/-- The flags of a member; none when the client is not on the channel. -/
def user_channel_mode (c : Channel) (cptr : ClientId) : Flags :=
  ((find_user_link c.members cptr).map Member.flags).getD 0

def is_chan_op (c : Channel) (cptr : ClientId) : Bool := (c.user_channel_mode cptr).has CHFL_CHANOP
def is_chan_adm (c : Channel) (cptr : ClientId) : Bool := (c.user_channel_mode cptr).has CHFL_CHANADM
def has_voice (c : Channel) (cptr : ClientId) : Bool := (c.user_channel_mode cptr).has CHFL_VOICE
def has_halfop (c : Channel) (cptr : ClientId) : Bool := (c.user_channel_mode cptr).has CHFL_HALFOP

def halfop_chanop (c : Channel) (cptr : ClientId) : Bool :=
  (c.user_channel_mode cptr).has CHFL_HALFOP || (c.user_channel_mode cptr).has CHFL_CHANOP

/-- Who may kick: with half-ops they may, too. -/
def kicks (c : Channel) (HALFOPS : Bool) (cptr : ClientId) : Bool :=
  if HALFOPS then c.halfop_chanop cptr else c.is_chan_op cptr

/-- The channels that stay when their last user leaves. -/
def kept (conf : Conf) (c : Channel) : Bool := keeps conf c.mode.mode

end Channel

def check_channel_name (name : Text) : Bool := name.all isChanChar

def isChannelName (name : Text) : Bool := name.head? = some '#' || name.head? = some '&'

namespace Ircd

def isMember (s : Ircd) (cptr : ClientId) (chptr : ChannelId) : Bool :=
  chptr ∈ (s.client cptr).channels

def channelExists (s : Ircd) (name : Text) : Bool := (s.hash_find_channel name).isSome

def setChannelts (s : Ircd) (chptr : ChannelId) (ts : Int) : Ircd :=
  s.setChan chptr { s.chan chptr with channelts := ts }

def setMode (s : Ircd) (chptr : ChannelId) (mode : Mode) : Ircd :=
  s.setChan chptr { s.chan chptr with mode := mode }

/-! ### Invitations -/

def setInvited (s : Ircd) (cptr : ClientId) (invited : List ChannelId) : Ircd :=
  match (s.client cptr).user with
  | none => s
  | some user => s.setUser cptr { user with invited := invited }

@[simp] theorem setInvited_chan (s : Ircd) (cptr : ClientId) (invited : List ChannelId) :
    (s.setInvited cptr invited).chan = s.chan := by
  unfold setInvited
  split <;> rfl

def invited (s : Ircd) (cptr : ClientId) : List ChannelId :=
  ((s.client cptr).user.map User.invited).getD []

/-- `del_invite`: one link on either side. -/
def del_invite (s : Ircd) (cptr : ClientId) (chptr : ChannelId) : Ircd :=
  let c := s.chan chptr
  let s := s.setChan chptr { c with invites := c.invites.erase cptr }
  s.setInvited cptr ((s.invited cptr).erase chptr)

/-! ### Channel blocks -/

/-- What `get_channel` leaves of a name: a local client's is cut. -/
def cutName (s : Ircd) (cptr : ClientId) (chname : Text) : Text :=
  if (s.client cptr).myClient && chname.length > CHANNELLEN then chname.take CHANNELLEN else chname

/-- The part of `get_channel` that makes a channel. -/
def createChannel (s : Ircd) (chname : Text) : Ircd × ChannelId :=
  let chptr := s.nextChan
  ({ s with
      chan := Function.update s.chan chptr (.zero chname s.now)
      nextChan := chptr + 1
      channel := chptr :: s.channel
      channelTable := s.channelTable.add (hashChannelName chname) chptr
      countChan := s.countChan + 1 },
   chptr)

def get_channel (s : Ircd) (cptr : ClientId) (chname : Text) : Option ChannelId :=
  if chname = [] then none else s.hash_find_channel (s.cutName cptr chname)

/-- `get_channel` with `CREATE`, of a name that is not empty. -/
def get_channel_create (s : Ircd) (cptr : ClientId) (chname : Text) : Ircd × ChannelId :=
  match s.hash_find_channel (s.cutName cptr chname) with
  | some chptr => (s, chptr)
  | none => s.createChannel (s.cutName cptr chname)

/-- The part of `sub1_from_channel` that frees the block. -/
def destroyChannel (s : Ircd) (chptr : ChannelId) : Ircd :=
  let s := (s.chan chptr).invites.foldl (fun s cptr => s.del_invite cptr chptr) s
  { s with
    channel := s.channel.erase chptr
    channelTable := s.channelTable.del (hashChannelName (s.chan chptr).chname) chptr
    chan := Function.update s.chan chptr (.zero [] 0)
    countChan := s.countChan - 1 }

def sub1_from_channel (s : Ircd) (chptr : ChannelId) : Ircd :=
  let c := s.chan chptr
  if c.users - 1 ≤ 0 then
    let s := s.setChan chptr { c with users := 0 }
    if c.kept s.conf then s else s.destroyChannel chptr
  else s.setChan chptr { c with users := c.users - 1 }

/-! ### Users of a channel -/

/-- `add_user_to_channel`; nothing happens to a client without a user. -/
def add_user_to_channel (s : Ircd) (chptr : ChannelId) (who : ClientId) (flags : Flags) : Ircd :=
  match (s.client who).user with
  | none => s
  | some user =>
    let c := s.chan chptr
    let s := s.setChan chptr
      { c with
        members := ⟨who, flags⟩ :: c.members
        users := c.users + 1
        iusers := if (s.client who).isStealth then c.iusers + 1 else c.iusers }
    s.setUser who { user with channel := chptr :: user.channel, joined := user.joined + 1 }

/-- The two lists and the counters of `remove_user_from_channel`, before the channel is counted
down. -/
def unlinkUser (s : Ircd) (sptr : ClientId) (user : User) (chptr : ChannelId) : Ircd :=
  let c := s.chan chptr
  let s := s.setChan chptr
    { c with
      members := c.members.eraseP fun l => l.cptr = sptr
      iusers := if (s.client sptr).isStealth then c.iusers - 1 else c.iusers }
  s.setUser sptr { user with channel := user.channel.erase chptr, joined := user.joined - 1 }

/-- `remove_user_from_channel`; the client has a user. -/
def remove_user_from_channel (s : Ircd) (sptr : ClientId) (chptr : ChannelId) : Ircd :=
  match (s.client sptr).user with
  | none => s
  | some user => (s.unlinkUser sptr user chptr).sub1_from_channel chptr

/-- The loop that takes a user off all channels, always the head of `user->channel`; `before` is what
it does first at each. -/
def removeFromAll (before : Ircd → ChannelId → Ircd) (sptr : ClientId) : Nat → Ircd → Ircd
  | 0, s => s
  | fuel + 1, s =>
    match (s.client sptr).channels with
    | [] => s
    | chptr :: _ =>
      removeFromAll before sptr fuel ((before s chptr).remove_user_from_channel sptr chptr)

end Ircd

end PtlinkIrcd
