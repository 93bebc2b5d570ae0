/-
**JOIN, PART and KICK.**

`m_join`, `m_part` and `m_kick` of `channel.c`, with what they call: `can_join`, `is_banned` and the
bookkeeping against clients that join and leave in turn. Topics and the list of names that follow
a join are one event each in the log, without their text.
-/

import PtlinkIrcd.Channel.Membership

namespace PtlinkIrcd

def OPER_SPAM_COUNTDOWN : Int := 5
def JOIN_LEAVE_COUNT_EXPIRE_TIME : Int := 120

def line (parts : List Text) : Text := parts.flatten

def make_nick_user_host (nick name host : Text) : Text :=
  nick.take NICKLEN ++ "!" ++ name.take USERLEN ++ "@" ++ host.take HOSTLEN

def Channel.is_banned (c : Channel) (x : Client) : Bool :=
  x.isPerson &&
    c.banlist.any fun ban => ircMatch ban.banstr (make_nick_user_host x.name x.username x.host)

namespace Ircd

/-! ### Who may join -/

/-- The modes and bans that `can_join` goes through: the letter in the notice to the channel
operators and the numeric of the refusal. -/
def joinRefusal (c : Channel) (x : Client) (key : Option Text) : Option (Text × Nat) :=
  if c.mode.key = [] && c.mode.mode.has MODE_INVITEONLY then some ("i", ERR_INVITEONLYCHAN)
  else if c.mode.mode.has MODE_ADMINONLY && !(x.isAdmin || x.isTechAdmin || x.isNetAdmin) then
    some ("A", ERR_INVITEONLYCHAN)
  else if c.mode.mode.has MODE_OPERONLY && !x.isOper then some ("O", ERR_INVITEONLYCHAN)
  else if !x.isSsl && c.mode.mode.has MODE_SSLONLY then some ("C", ERR_SSLREQUIRED)
  else if !x.isIdentified && c.mode.mode.has MODE_REGONLY then some ("R", ERR_NEEDREGGEDNICK)
  else if c.mode.mode.has MODE_NOBOTS && x.isBot then some ("B", ERR_INVITEONLYCHAN)
  else if c.mode.key ≠ [] && (key.getD [] = [] || irccmp c.mode.key (key.getD []) ≠ 0) then
    some ("k", ERR_BADCHANNELKEY)
  else if c.mode.limit ≠ 0 && c.users ≥ c.mode.limit.toInt then some ("l", ERR_CHANNELISFULL)
  else if c.is_banned x then some ("b", ERR_BANNEDFROMCHAN)
  else none

/-- `can_join`: zero, or the numeric of the refusal. With `+K` the channel operators hear of a
refusal. -/
def can_join (s : Ircd) (sptr : ClientId) (chptr : ChannelId) (key : Option Text) : Ircd × Nat :=
  let x := s.client sptr
  let c := s.chan chptr
  if x.isService then (s, 0)
  else if s.conf.OperCanAlwaysJoin && x.isOper && !c.mode.mode.has MODE_ADMINONLY then (s, 0)
  else if x.isOper && key.isSome && s.conf.OperByPass.isSome &&
      irccmp (s.conf.OperByPass.getD []) (key.getD []) = 0 then
    let note := line [x.name, " (", x.username, "@", x.realhost, ") joining ", c.chname,
      " with Oper bypass"]
    ((s.send (.ops (line ["Oper ", note]))).send
      (.servButone none (line [":", s.meName, " GLOBOPS :Oper ", note])), 0)
  else if c.mode.key = [] && chptr ∈ s.invited sptr then (s, 0)
  else
    match joinRefusal c x key with
    | none => (s, 0)
    | some (letter, numeric) =>
      (s.sendIf (c.mode.mode.has MODE_KNOCK) (.channel chptr me (line [":", s.meName, " NOTICE @",
        c.chname, " :", x.name, " failed to join (+", letter, ") channel ", c.chname])), numeric)

/-! ### Clients that join and leave in turn -/

/-- The counters of the spambot check, when a local user leaves. -/
def spamLeave (s : Ircd) (sptr : ClientId) : Ircd :=
  let x := s.client sptr
  if x.myConnect && !x.isAnOper then
    if s.conf.SPAMNUM ≠ 0 && x.join_leave_count ≥ s.conf.SPAMNUM then
      (s.send (.ops (line ["User ", x.name, " (", x.username, "@", x.host,
        ") is a possible spambot"]))).setClient sptr
        { x with oper_warn_count_down := OPER_SPAM_COUNTDOWN }
    else
      let t_delta := s.now - x.last_leave_time
      let count :=
        if t_delta > JOIN_LEAVE_COUNT_EXPIRE_TIME then
          let decrement_count := t_delta / JOIN_LEAVE_COUNT_EXPIRE_TIME
          if decrement_count > x.join_leave_count then 0 else x.join_leave_count - decrement_count
        else if s.now - x.last_join_time < s.conf.SPAMTIME then x.join_leave_count + 1
        else x.join_leave_count
      s.setClient sptr { x with join_leave_count := count, last_leave_time := s.now }
  else s

/-- The check of a possible spambot that joins: whether the join ends here. -/
def spamJoin (s : Ircd) (sptr : ClientId) (name : Text) : Ircd × Bool :=
  let x := s.client sptr
  if s.conf.SPAMNUM ≠ 0 && x.join_leave_count ≥ s.conf.SPAMNUM then
    let count_down := if x.oper_warn_count_down > 0 then x.oper_warn_count_down - 1 else 0
    if count_down = 0 then
      ((s.send (.ops (line ["User ", x.name, " (", x.username, "@", x.host, ") trying to join ",
        name, " is a possible spambot"]))).setClient sptr
        { x with oper_warn_count_down := OPER_SPAM_COUNTDOWN }, true)
    else (s.setClient sptr { x with oper_warn_count_down := count_down }, true)
  else (s, false)

/-- `last_join_time` after successful joins of a local client. -/
def noteJoins (s : Ircd) (sptr : ClientId) (successful : Int) : Ircd :=
  if successful ≠ 0 then
    s.setClient sptr { s.client sptr with last_join_time := s.now }
  else s

/-! ### JOIN -/

/-- The PART line of a channel that a user leaves. -/
def tellPart (s : Ircd) (sptr : ClientId) (source : Text) (chptr : ChannelId) (name : Text) : Ircd :=
  let text := line [":", source, " PART ", name]
  if !(s.client sptr).isStealth then s.send (.channel chptr sptr text)
  else if (s.client sptr).myClient then s.send (.one sptr text)
  else s

/-- `JOIN 0` of a remote user: a part from every channel. -/
def joinZero (s : Ircd) (cptr sptr : ClientId) (source : Text) : Ircd :=
  if (s.client sptr).channels = [] then s
  else
    let s := removeFromAll (fun s chptr => s.tellPart sptr source chptr (s.chan chptr).chname) sptr
      (s.client sptr).channels.length s
    (s.spamLeave sptr).send (.matchServs none cptr (line [":", source, " JOIN 0"]))

/-- The list of names that a JOIN works through: `jbuf` up to its first zero byte. The write
position is kept where it was when a `0` empties the buffer. -/
def joinNames (s : Ircd) (sptr : ClientId) (source : Text) :
    List Text → List Char → Nat → Ircd × Text
  | [], jbuf, _ => (s, jbuf.takeWhile (· ≠ '\x00'))
  | name :: names, jbuf, i =>
    let x := s.client sptr
    if !check_channel_name name then
      joinNames (s.send (.reply sptr ERR_BADCHANNAME [source, name])) sptr source names jbuf i
    else if name.head? = some '&' && !x.myConnect then joinNames s sptr source names jbuf i
    else
      let zero := name.head? = some '0' && atoi name = 0 && !x.myConnect
      if !zero && !isChannelName name then
        let s := s.sendIf x.myClient (.reply sptr ERR_NOSUCHCHANNEL [source, name])
        joinNames s sptr source names jbuf i
      else
        let jbuf := if zero then jbuf.set 0 '\x00' else jbuf
        if i + name.length + 2 ≥ BUFSIZE then (s, jbuf.takeWhile (· ≠ '\x00'))
        else if jbuf ≠ [] && jbuf.head? ≠ some '\x00' then
          joinNames s sptr source names (jbuf ++ ',' :: name) (i + 1 + name.length)
        else joinNames s sptr source names (jbuf ++ name) (i + name.length)

/-- What the servers are told of a user who entered a channel; a user who opened it sets its time
stamp. -/
def tellEntry (s : Ircd) (cptr sptr : ClientId) (source name : Text) (chptr : ChannelId)
    (flags : Flags) : Ircd :=
  if (s.client sptr).myClient && flags.has CHFL_CHANOP then
    (s.setChannelts chptr s.now).send
      (.matchServs (some chptr) cptr (line [":", s.meName, " SJOIN ", printLu s.now, " ", name, " ",
        s.conf.DefaultChanMode, " :@", source]))
  else if (s.client sptr).myClient then
    s.send (.matchServs (some chptr) cptr (line [":", s.meName, " SJOIN ",
      printLu (s.chan chptr).channelts, " ", name, " + :", source]))
  else s.send (.matchServs (some chptr) cptr (line [":", source, " SJOIN :", name]))

def tellJoin (s : Ircd) (sptr : ClientId) (source name : Text) (chptr : ChannelId) : Ircd :=
  let text := line [":", source, " JOIN :", name]
  if !(s.client sptr).isStealth then s.send (.channel chptr sptr text)
  else s.sendIf (s.client sptr).myClient (.one sptr text)

/-- The modes of a channel that a local user opened. -/
def openChannel (s : Ircd) (sptr : ClientId) (chptr : ChannelId) : Ircd :=
  let c := s.chan chptr
  (s.setMode chptr { c.mode with mode := c.mode.mode ||| s.conf.new_cmodes }).send
    (.channel chptr sptr (line [":", s.meName, " MODE ", c.chname, " ", s.conf.DefaultChanMode]))

/-- Entering a channel that may be entered. -/
def enterChannel (s : Ircd) (cptr sptr : ClientId) (source name : Text) (chptr : ChannelId)
    (flags : Flags) : Ircd :=
  let s := s.add_user_to_channel chptr sptr flags
  let s := s.tellEntry cptr sptr source name chptr flags
  let s := s.tellJoin sptr source name chptr
  let x := s.client sptr
  if x.myClient then
    let s := if flags.has CHFL_CHANOP && !x.isStealth then s.openChannel sptr chptr else s
    (s.del_invite sptr chptr).send (.reply sptr RPL_NAMREPLY [source, name])
  else s

/-- Whether a local user is on as many channels as it may. -/
def tooManyChannels (conf : Conf) (x : Client) : Bool :=
  ((x.joined ≥ conf.MaxChansPerUser && (conf.MaxChansPerRegUser = 0 || !x.isIdentified)) ||
      (conf.MaxChansPerRegUser ≠ 0 && x.isIdentified && x.joined ≥ conf.MaxChansPerRegUser)) &&
    !x.isService && (!x.isAnOper || x.joined ≥ conf.MaxChansPerUser * 10)

/-- How the loop of `m_join` goes on after a name: with the next one and a count of successful
joins, or not at all. -/
inductive JoinNext
  | next (successful : Int)
  | stop
  deriving DecidableEq

/-- The end of the loop body: the channel is found or made, and entered if it may be. -/
def joinFound (s : Ircd) (cptr sptr : ClientId) (source name : Text) (key : Option Text)
    (flags : Flags) (successful : Int) : Ircd × JoinNext :=
  let (s, chptr) := s.get_channel_create sptr name
  let name := s.cutName sptr name
  if s.isMember sptr chptr then (s, .next successful)
  else if (s.client sptr).myConnect then
    let (s, i) := s.can_join sptr chptr key
    if i ≠ 0 then
      (s.send (.reply sptr i [source, name]),
        .next (if successful > 0 then successful - 1 else successful))
    else (s.enterChannel cptr sptr source name chptr flags, .next successful)
  else (s.enterChannel cptr sptr source name chptr flags, .next successful)

/-- The body of the second loop of `m_join`, for one name. -/
def joinOne (s : Ircd) (cptr sptr : ClientId) (source name : Text) (key : Option Text)
    (successful : Int) : Ircd × JoinNext :=
  let x := s.client sptr
  if name.head? = some '0' && atoi name = 0 then (s.joinZero cptr sptr source, .next successful)
  else if x.myConnect then
    let isnew := (s.get_channel sptr name).isNone
    let name := s.cutName sptr name
    if isnew && s.conf.RestrictedChans && !x.isOper then
      (s.send (.one sptr (line [":", s.meName, " NOTICE ", source, " :",
        s.conf.RestrictedChansMsg])), .stop)
    else
      let flags := if isnew then CHFL_CHANOP else 0
      if tooManyChannels s.conf x then
        ((s.send (.reply sptr ERR_TOOMANYCHANNELS [source, name])).noteJoins sptr successful, .stop)
      else
        let successful := if flags = 0 then successful + 1 else successful
        let (s, spam) := s.spamJoin sptr name
        if spam then (s, .stop) else s.joinFound cptr sptr source name key flags successful
  else
    let s := s.sendIf (!s.channelExists name) (.ops (line ["User on ",
      (x.user.map User.server).getD [], " remotely JOINing new channel"]))
    s.joinFound cptr sptr source name key 0 successful

/-- The second loop of `m_join`. -/
def joinLoop (cptr sptr : ClientId) (source : Text) :
    List Text → List Text → Int → Ircd → Ircd
  | [], _, successful, s =>
    if (s.client sptr).myConnect then s.noteJoins sptr successful else s
  | name :: names, keys, successful, s =>
    match s.joinOne cptr sptr source name keys.head? successful with
    | (s, .next successful) => joinLoop cptr sptr source names keys.tail successful s
    | (s, .stop) => s

def m_join (s : Ircd) (cptr sptr : ClientId) (parv : List Text) : Ircd :=
  let x := s.client sptr
  let source := parv.getD 0 []
  if x.user.isNone then s
  else if parv.length < 2 || parv.getD 1 [] = [] then
    s.send (.reply sptr ERR_NEEDMOREPARAMS [source, "JOIN"])
  else if s.secure_mode && x.myClient && !x.isIdentified then
    s.send (.reply sptr ERR_NEEDREGGEDNICK [source])
  else
    let (s, jbuf) := s.joinNames sptr source (strtoken ',' (parv.getD 1 [])) [] 0
    joinLoop cptr sptr source (strtoken ',' jbuf) (strtoken ',' (parv.getD 2 [])) 0 s

/-! ### PART -/

/-- The body of the loop of `m_part`. -/
def partOne (s : Ircd) (cptr sptr : ClientId) (source name : Text) : Ircd :=
  match s.get_channel sptr name with
  | none => s.send (.reply sptr ERR_NOSUCHCHANNEL [source, s.cutName sptr name])
  | some chptr =>
    let name := s.cutName sptr name
    if !s.isMember sptr chptr then s.send (.reply sptr ERR_NOTONCHANNEL [source, name])
    else
      let s := s.send (.matchServs (some chptr) cptr (line [":", source, " PART ", name]))
      (s.tellPart sptr source chptr name).remove_user_from_channel sptr chptr

def m_part (s : Ircd) (cptr sptr : ClientId) (parv : List Text) : Ircd :=
  let source := parv.getD 0 []
  if parv.length < 2 || parv.getD 1 [] = [] then
    s.send (.reply sptr ERR_NEEDMOREPARAMS [source, "PART"])
  else
    let names := strtoken ',' (parv.getD 1 [])
    let s := if names ≠ [] then s.spamLeave sptr else s
    names.foldl (fun s name => s.partOne cptr sptr source name) s

/-! ### KICK -/

/-- The checks of `m_kick` on a local source and a member: the numeric of the refusal, after the
complaints that do not stop the kick. -/
def kickChecks (s : Ircd) (cptr sptr who : ClientId) (source user : Text) (chptr : ChannelId) :
    Ircd × Bool :=
  let x := s.client sptr
  let y := s.client who
  let c := s.chan chptr
  let refusal : Sent := .reply sptr ERR_CANTKICKADMIN [source, user, c.chname]
  if s.conf.OperKickProtection && !x.isOper && y.isOper then
    ((s.send (.one who (line [":", s.meName, " NOTICE ", y.name, " :", source,
      " is trying to kick you from ", c.chname]))).send refusal, true)
  else
    let s := s.sendIf (y.isService && !x.isService && x.isSAdmin) refusal
    let s := s.sendIf (c.mode.mode.has MODE_OPERONLY && !x.isOper && !x.isService) refusal
    let s := s.sendIf (c.mode.mode.has MODE_ADMINONLY && !x.isAdmin && !x.isService) refusal
    if (!(s.client cptr).isServer && !x.isService && c.is_chan_adm who && !c.is_chan_adm sptr) ||
        y.isService then
      (s.send refusal, true)
    else if s.conf.HALFOPS && c.has_halfop cptr && (c.is_chan_op who || c.has_halfop who) then
      (s.send (.reply sptr ERR_CHANOPRIVSNEEDED [source, c.chname]), true)
    else (s, false)

/-- The end of `m_kick`, once the kick is allowed. -/
def kickOut (s : Ircd) (cptr sptr who : ClientId) (source name comment : Text)
    (chptr : ChannelId) : Ircd :=
  let text := line [":", source, " KICK ", name, " ", (s.client who).name, " :", comment]
  let s := (s.send (.channel chptr sptr text)).send (.matchServs (some chptr) cptr text)
  s.remove_user_from_channel who chptr

/-- The part of `m_kick` after the target was found. -/
def kickWho (s : Ircd) (cptr sptr who : ClientId) (source user name comment : Text)
    (chptr : ChannelId) : Ircd :=
  if (s.client sptr).myClient && (s.client who).isStealth then
    s.send (.reply sptr ERR_USERNOTINCHANNEL [source, user, name])
  else if s.isMember who chptr then
    if (s.client sptr).myClient then
      let checked := s.kickChecks cptr sptr who source user chptr
      if checked.2 then checked.1
      else checked.1.kickOut cptr sptr who source name comment chptr
    else s.kickOut cptr sptr who source name comment chptr
  else s.send (.reply sptr ERR_USERNOTINCHANNEL [source, user, name])

/-- The part of `m_kick` after the channel was found. -/
def kickOn (s : Ircd) (cptr sptr : ClientId) (source user name comment : Text)
    (chptr : ChannelId) : Ircd :=
  let x := s.client sptr
  let c := s.chan chptr
  if !x.isServer && !x.isService && !c.kicks s.conf.HALFOPS sptr &&
      (x.myConnect || c.channelts = 0) then
    s.send (.reply sptr ERR_CHANOPRIVSNEEDED [source, c.chname])
  else
    match s.find_chasing sptr user with
    | (s, none) => s
    | (s, some (who, _)) => s.kickWho cptr sptr who source user name comment chptr

/-- The part of `m_kick` after its arguments were read. -/
def kickNamed (s : Ircd) (cptr sptr : ClientId) (source user name comment : Text) : Ircd :=
  match s.get_channel sptr name with
  | none => s.send (.reply sptr ERR_NOSUCHCHANNEL [source, s.cutName sptr name])
  | some chptr => s.kickOn cptr sptr source user (s.cutName sptr name) comment chptr

def m_kick (s : Ircd) (cptr sptr : ClientId) (parv : List Text) : Ircd :=
  let source := parv.getD 0 []
  if parv.length < 3 || parv.getD 1 [] = [] then
    s.send (.reply sptr ERR_NEEDMOREPARAMS [source, "KICK"])
  else
    (s.sendIf (s.client sptr).isServer
      (.ops (line ["KICK from ", source, " for ", parv.getD 1 [], " ", parv.getD 2 []]))).kickNamed
      cptr sptr source ((parv.getD 2 []).takeWhile (· ≠ ',')) ((parv.getD 1 []).takeWhile (· ≠ ','))
      ((if parv.getD 3 [] = [] then source else parv.getD 3 []).take TOPICLEN)

end Ircd

end PtlinkIrcd
