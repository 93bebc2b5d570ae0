/-
**The state of one server.**

The structures of `client.h`, `channel.h`, `struct.h` and `whowas.h`, and the globals the modelled
commands read or write. A pointer is an index into one of the two memories `client` and `chan`;
a linked list is the list of what its links point at, head first.

* `Mode`, `Member`, `Ban`, `Channel` — a channel and the links of its lists.
* `User`, `Server`, `Client` — a connection, a user or a server.
* `Ircd` — the whole server, with the log `sent` of everything it has sent.

Fields that no modelled function reads (topics, statistics, buffers) are left out.
-/

import PtlinkIrcd.Lib.ChainTable
import PtlinkIrcd.Model.Flags
import PtlinkIrcd.Model.Text

namespace PtlinkIrcd

/-- Index of a `struct Client`. -/
abbrev ClientId := Nat

/-- Index of a `struct Channel`. -/
abbrev ChannelId := Nat

/-- Strings are written as literals. -/
instance : Coe String Text := ⟨String.toList⟩

/-! ### Constants -/

def HOSTLEN : Nat := 63
def NICKLEN : Nat := 20
def USERLEN : Nat := 10
def CHANNELLEN : Nat := 32
def KEYLEN : Nat := 23
def TOPICLEN : Nat := 300
def BUFSIZE : Nat := 512
def MODEBUFLEN : Nat := 200
def MAXMODEPARAMS : Nat := 6
def MAXPARA : Nat := 15
def MAXBANS : Int := 60
def KILLCHASETIMELIMIT : Int := 90
def NICKNAMEHISTORYLENGTH : Nat := 3000

def CHFL_CHANOP : Flags := 0x0001
def CHFL_VOICE : Flags := 0x0002
def CHFL_DEOPPED : Flags := 0x0004
def CHFL_CHANADM : Flags := 0x0020
def CHFL_HALFOP : Flags := 0x0080

def MODE_CHANOP : Flags := CHFL_CHANOP
def MODE_VOICE : Flags := CHFL_VOICE
def MODE_DEOPPED : Flags := CHFL_DEOPPED
def MODE_CHANADM : Flags := CHFL_CHANADM
def MODE_HALFOP : Flags := CHFL_HALFOP
def MODE_PRIVATE : Flags := 0x0008
def MODE_SECRET : Flags := 0x0010
def MODE_MODERATED : Flags := 0x0020
def MODE_TOPICLIMIT : Flags := 0x0040
def MODE_INVITEONLY : Flags := 0x0080
def MODE_NOPRIVMSGS : Flags := 0x0100
def MODE_LIMIT : Flags := 0x2000
def MODE_REGISTERED : Flags := 0x4000
def MODE_REGONLY : Flags := 0x8000
def MODE_OPERONLY : Flags := 0x10000
def MODE_ADMINONLY : Flags := 0x20000
def MODE_NOSPAM : Flags := 0x40000
def MODE_NOFLOOD : Flags := 0x80000
def MODE_NOCOLORS : Flags := 0x100000
def MODE_NOQUITS : Flags := 0x200000
def MODE_KNOCK : Flags := 0x400000
def MODE_FLOODLIMIT : Flags := 0x800000
def MODE_NOBOTS : Flags := 0x1000000
def MODE_NONICKCH : Flags := 0x2000000
def MODE_SSLONLY : Flags := 0x4000000
def MODE_LOG : Flags := 0x10000000
def MODE_FLAGS : Flags := 0x01ffffff

def UMODE_WALLOP : Flags := 0x00000001
def UMODE_INVISIBLE : Flags := 0x00000002
def UMODE_ZOMBIE : Flags := 0x00000004
def UMODE_IDENTIFIED : Flags := 0x00000008
def UMODE_SADMIN : Flags := 0x00000010
def UMODE_SSL : Flags := 0x00000200
def UMODE_SPY : Flags := 0x00002000
def UMODE_OPER : Flags := 0x00004000
def UMODE_LOCOP : Flags := 0x00008000
def UMODE_ADMIN : Flags := 0x00020000
def UMODE_TECHADMIN : Flags := 0x00040000
def UMODE_NETADMIN : Flags := 0x00080000
def UMODE_HELPER : Flags := 0x00100000
def UMODE_BOT : Flags := 0x00200000
def UMODE_NODCC : Flags := 0x00400000
def UMODE_PRIVATE : Flags := 0x00800000
def UMODE_REGMSG : Flags := 0x01000000
def UMODE_STEALTH : Flags := 0x02000000
def UMODE_HIDEOPER : Flags := 0x04000000
def UMODE_FLOODEX : Flags := 0x08000000

def FLAGS2_OPER_GLOBAL_KILL : Flags := 0x0020
def FLAGS2_OPER_REMOTE : Flags := 0x0040
def FLAGS2_OPER_UNKLINE : Flags := 0x0080
def FLAGS2_OPER_GLINE : Flags := 0x0100
def FLAGS2_OPER_K : Flags := 0x0400
def FLAGS2_OPER_DIE : Flags := 0x0800
def FLAGS2_OPER_REHASH : Flags := 0x1000

def RPL_NAMREPLY : Nat := 353
def RPL_UMODEIS : Nat := 221
def RPL_CHANNELMODEIS : Nat := 324
def RPL_CREATIONTIME : Nat := 329
def RPL_BANLIST : Nat := 367
def RPL_ENDOFBANLIST : Nat := 368
def RPL_AWAY : Nat := 301
def ERR_NOSUCHNICK : Nat := 401
def ERR_NOSUCHCHANNEL : Nat := 403
def ERR_TOOMANYCHANNELS : Nat := 405
def ERR_TOOMANYTARGETS : Nat := 407
def ERR_USERNOTINCHANNEL : Nat := 441
def ERR_NOTONCHANNEL : Nat := 442
def ERR_NEEDMOREPARAMS : Nat := 461
def ERR_CHANNELISFULL : Nat := 471
def ERR_UNKNOWNMODE : Nat := 472
def ERR_INVITEONLYCHAN : Nat := 473
def ERR_BANNEDFROMCHAN : Nat := 474
def ERR_BADCHANNELKEY : Nat := 475
def ERR_NEEDREGGEDNICK : Nat := 477
def ERR_BANLISTFULL : Nat := 478
def ERR_BADCHANNAME : Nat := 479
def ERR_CHANOPRIVSNEEDED : Nat := 482
def ERR_NOPRIVILEGES : Nat := 481
def ERR_CANTKICKADMIN : Nat := 485
def ERR_UMODEUNKNOWNFLAG : Nat := 501
def ERR_USERSDONTMATCH : Nat := 502
def ERR_SSLREQUIRED : Nat := 515

/-! ### Channels -/

/-- `struct Mode`. -/
structure Mode where
  mode : Flags
  limit : Int32
  key : Text
  msgs : Int32
  per : Int32
  deriving DecidableEq

/-- What `memset` leaves. -/
def Mode.zero : Mode := ⟨0, 0, [], 0, 0⟩

/-- A link of a channel's member list. -/
structure Member where
  cptr : ClientId
  flags : Flags
  deriving DecidableEq

/-- `struct Ban`. -/
structure Ban where
  banstr : Text
  who : Text
  when : Int
  deriving DecidableEq

/-- `struct Channel`. -/
structure Channel where
  chname : Text
  mode : Mode
  users : Int
  iusers : Int
  members : List Member
  invites : List ClientId
  banlist : List Ban
  num_bed : Int
  channelts : Int
  deriving DecidableEq

/-- A zeroed channel block with a name and a time stamp. -/
def Channel.zero (chname : Text) (channelts : Int) : Channel :=
  ⟨chname, .zero, 0, 0, [], [], [], 0, channelts⟩

/-! ### Clients -/

/-- The `status` of a client. -/
inductive Status
  | connecting
  | handshake
  | me
  | unknown
  | server
  | client
  deriving DecidableEq

/-- `struct User`. -/
structure User where
  channel : List ChannelId
  invited : List ChannelId
  joined : Int
  server : Text
  deriving DecidableEq

/-- What `make_user` allocates. -/
def User.zero : User := ⟨[], [], 0, []⟩

/-- `struct Server`: the name of the uplink and the two lists of dependents. -/
structure Server where
  up : Option Text
  servers : List ClientId
  users : List ClientId
  deriving DecidableEq

/-- `struct Client`. -/
structure Client where
  name : Text
  username : Text
  host : Text
  realhost : Text
  status : Status
  umodes : Flags
  flags2 : Flags
  tsinfo : Int
  /-- `from`: the connection this client is behind. -/
  link : Option ClientId
  servptr : Option ClientId
  user : Option User
  serv : Option Server
  /-- `local_flag`. -/
  local_flag : Bool
  /-- `FLAGS_SERVICE`. -/
  service : Bool
  /-- `FLAGS_KILLED`. -/
  killed : Bool
  /-- `FLAGS_RESTRICTED`. -/
  restricted : Bool
  join_leave_count : Int
  oper_warn_count_down : Int
  last_join_time : Int
  last_leave_time : Int
  deriving DecidableEq

/-- A client block that is not in use, or freshly made. -/
def Client.zero : Client :=
  ⟨[], [], [], [], .unknown, 0, 0, 0, none, none, none, none, false, false, false, false, 0, 0, 0, 0⟩

namespace Client

def isMe (x : Client) : Bool := x.status = .me
def isServer (x : Client) : Bool := x.status = .server
def isClient (x : Client) : Bool := x.status = .client
def isPerson (x : Client) : Bool := x.isClient && x.user.isSome
def myConnect (x : Client) : Bool := x.local_flag
def myClient (x : Client) : Bool := x.myConnect && x.isClient
def isOper (x : Client) : Bool := x.umodes.has UMODE_OPER
def isAnOper (x : Client) : Bool := x.umodes.has (UMODE_OPER ||| UMODE_LOCOP)
def isSAdmin (x : Client) : Bool := x.umodes.has UMODE_SADMIN
def isAdmin (x : Client) : Bool := x.umodes.has UMODE_ADMIN
def isNetAdmin (x : Client) : Bool := x.umodes.has UMODE_NETADMIN
def isTechAdmin (x : Client) : Bool := x.umodes.has UMODE_TECHADMIN
def isStealth (x : Client) : Bool := x.umodes.has UMODE_STEALTH
def isIdentified (x : Client) : Bool := x.umodes.has UMODE_IDENTIFIED
def isBot (x : Client) : Bool := x.umodes.has UMODE_BOT
def isInvisible (x : Client) : Bool := x.umodes.has UMODE_INVISIBLE
def isSsl (x : Client) : Bool := x.umodes.has UMODE_SSL
def isService (x : Client) : Bool := x.service

/-- The channels in `user->channel`; none without a user. -/
def channels (x : Client) : List ChannelId := (x.user.map User.channel).getD []

def joined (x : Client) : Int := (x.user.map User.joined).getD 0

theorem not_isServer_of_isClient {x : Client} (client : x.isClient = true) :
    x.isServer = false := by
  unfold isClient at client
  unfold isServer
  rw [of_decide_eq_true client]
  rfl

theorem not_isServer_of_myClient {x : Client} (mine : x.myClient = true) : x.isServer = false :=
  not_isServer_of_isClient (Bool.and_eq_true _ _ ▸ mine).2

theorem not_isPerson_of_isServer {x : Client} (server : x.isServer = true) : x.isPerson = false := by
  unfold isServer at server
  unfold isPerson isClient
  rw [of_decide_eq_true server]
  rfl

end Client

/-- An entry of the nick history. -/
structure Whowas where
  name : Text
  logoff : Int
  online : Option ClientId
  deriving DecidableEq

/-! ### The server -/

/-- What the server sends: the routine that sends it, its targets and the line. -/
inductive Sent
  /-- `sendto_one` of a formatted line. -/
  | one (target : ClientId) (line : Text)
  /-- `sendto_one` of a numeric reply, with the arguments after the two names. -/
  | reply (target : ClientId) (numeric : Nat) (args : List Text)
  /-- `sendto_channel_butserv`: the local members of a channel. -/
  | channel (chptr : ChannelId) (source : ClientId) (line : Text)
  /-- `sendto_channel_butserv` of a line `:sender MODE chname modebuf parabuf`. -/
  | mode (chptr : ChannelId) (source : ClientId) (sender chname modebuf parabuf : Text)
  /-- `sendto_match_servs` of such a line. -/
  | servMode (chptr : ChannelId) (cptr : ClientId) (sender chname modebuf parabuf : Text)
  /-- `sendto_match_servs`: the servers, except the one behind which the message came. -/
  | matchServs (chptr : Option ChannelId) (cptr : ClientId) (line : Text)
  /-- `sendto_serv_butone`. -/
  | servButone (cptr : Option ClientId) (line : Text)
  /-- `sendto_common_channels`: the local users who share a channel. -/
  | commonChannels (user : ClientId) (line : Text)
  /-- Notices to operators. -/
  | ops (line : Text)
  deriving DecidableEq

/-- The settings the modelled commands read. -/
structure Conf where
  /-- Whether the server is built with half-ops; `config.h` leaves them out, and `configure` has a
  switch for them. -/
  HALFOPS : Bool
  RestrictedChans : Bool
  RestrictedChansMsg : Text
  MaxChansPerUser : Int
  MaxChansPerRegUser : Int
  OperCanAlwaysJoin : Bool
  OperByPass : Option Text
  OperKickProtection : Bool
  SecureModes : Bool
  HostSpoofing : Bool
  SPAMNUM : Int
  SPAMTIME : Int
  DefaultChanMode : Text
  /-- The mode bits of `DefaultChanMode`. -/
  new_cmodes : Flags
  OverrideNetsplitMessage : Option Text
  /-- `spoofed`: the cloak of a host. -/
  spoofed : Text → Text

/-- `Count`, without the number of channels. -/
structure Count where
  total : Int
  local_ : Int
  oper : Int
  invisi : Int
  deriving DecidableEq

/-- The whole server. -/
structure Ircd where
  conf : Conf
  /-- `CurrentTime`. -/
  now : Int
  /-- `secure_mode`. -/
  secure_mode : Bool
  /-- Whether `services_on` is set. -/
  services_on : Bool
  client : ClientId → Client
  chan : ChannelId → Channel
  /-- The first channel block never used. -/
  nextChan : ChannelId
  clientTable : Lib.ChainTable ClientId
  channelTable : Lib.ChainTable ChannelId
  GlobalClientList : List ClientId
  /-- The list `channel` of all channels. -/
  channel : List ChannelId
  /-- `Count.chan`. -/
  countChan : Int
  count : Count
  /-- The nick history, newest entry first. -/
  whowas : List Whowas
  sent : List Sent

def me : ClientId := 0

namespace Ircd

def send (s : Ircd) (event : Sent) : Ircd := { s with sent := s.sent ++ [event] }

def sendIf (s : Ircd) (p : Bool) (event : Sent) : Ircd := if p then s.send event else s

def setClient (s : Ircd) (cptr : ClientId) (x : Client) : Ircd :=
  { s with client := Function.update s.client cptr x }

def setUser (s : Ircd) (cptr : ClientId) (user : User) : Ircd :=
  s.setClient cptr { s.client cptr with user := some user }

def setChan (s : Ircd) (chptr : ChannelId) (c : Channel) : Ircd :=
  { s with chan := Function.update s.chan chptr c }

/-! ### Reading back -/

@[simp] theorem send_client (s : Ircd) (event : Sent) : (s.send event).client = s.client := rfl
@[simp] theorem send_chan (s : Ircd) (event : Sent) : (s.send event).chan = s.chan := rfl
@[simp] theorem send_conf (s : Ircd) (event : Sent) : (s.send event).conf = s.conf := rfl

@[simp] theorem sendIf_client (s : Ircd) (p : Bool) (event : Sent) :
    (s.sendIf p event).client = s.client := by
  unfold sendIf
  split <;> rfl

@[simp] theorem setClient_chan (s : Ircd) (cptr : ClientId) (x : Client) :
    (s.setClient cptr x).chan = s.chan := rfl

@[simp] theorem setUser_chan (s : Ircd) (cptr : ClientId) (user : User) :
    (s.setUser cptr user).chan = s.chan := rfl

@[simp] theorem setChan_client (s : Ircd) (chptr : ChannelId) (c : Channel) :
    (s.setChan chptr c).client = s.client := rfl

@[simp] theorem setChan_conf (s : Ircd) (chptr : ChannelId) (c : Channel) :
    (s.setChan chptr c).conf = s.conf := rfl

@[simp] theorem setUser_conf (s : Ircd) (cptr : ClientId) (user : User) :
    (s.setUser cptr user).conf = s.conf := rfl

@[simp] theorem setChan_chan_self (s : Ircd) (chptr : ChannelId) (c : Channel) :
    (s.setChan chptr c).chan chptr = c := Function.update_self ..

theorem setChan_chan_of_ne (s : Ircd) {chptr other : ChannelId} (c : Channel)
    (ne : other ≠ chptr) : (s.setChan chptr c).chan other = s.chan other :=
  Function.update_of_ne ne ..

@[simp] theorem setUser_client_self (s : Ircd) (cptr : ClientId) (user : User) :
    (s.setUser cptr user).client cptr = { s.client cptr with user := some user } :=
  Function.update_self ..

theorem setUser_client_of_ne (s : Ircd) {cptr other : ClientId} (user : User)
    (ne : other ≠ cptr) : (s.setUser cptr user).client other = s.client other :=
  Function.update_of_ne ne ..

theorem setUser_client_eq (s : Ircd) (cptr : ClientId) (user : User) (other : ClientId) :
    ∃ u, (s.setUser cptr user).client other = { s.client other with user := u } := by
  by_cases same : other = cptr
  · subst same
    exact ⟨some user, setUser_client_self ..⟩
  · exact ⟨(s.client other).user, by rw [setUser_client_of_ne s user same]⟩

@[simp] theorem setUser_isStealth (s : Ircd) (cptr : ClientId) (user : User) (other : ClientId) :
    ((s.setUser cptr user).client other).isStealth = (s.client other).isStealth := by
  obtain ⟨u, same⟩ := s.setUser_client_eq cptr user other
  rw [same]
  rfl

def meName (s : Ircd) : Text := (s.client me).name

/-! ### Lookups -/

def find_client (s : Ircd) (name : Text) : Option ClientId :=
  s.clientTable.find (hashNickName name) fun cptr => irccmp name (s.client cptr).name = 0

def find_person (s : Ircd) (name : Text) : Option ClientId :=
  (s.find_client name).filter fun cptr => (s.client cptr).isPerson

def hash_find_channel (s : Ircd) (name : Text) : Option ChannelId :=
  s.channelTable.find (hashChannelName name) fun chptr => irccmp name (s.chan chptr).chname = 0

def get_history (s : Ircd) (nick : Text) (timelimit : Int) : Option ClientId :=
  ((s.whowas.find? fun who => irccmp nick who.name = 0 ∧ ¬ who.logoff < s.now - timelimit).map
    Whowas.online).join

/-- `find_chasing`: the client of that nick, or the one that had it a moment ago, with the value of
`*chasing`; without either, the source is told. -/
def find_chasing (s : Ircd) (sptr : ClientId) (user : Text) : Ircd × Option (ClientId × Bool) :=
  match s.find_client user with
  | some who => (s, some (who, false))
  | none =>
    match s.get_history user KILLCHASETIMELIMIT with
    | some who => (s, some (who, true))
    | none => (s.send (.reply sptr ERR_NOSUCHNICK [(s.client sptr).name, user]), none)

end Ircd

end PtlinkIrcd
