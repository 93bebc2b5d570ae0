/-
**MODE of a channel.**

`set_channel_mode` of `channel.c`, the letters one after the other, and `m_mode` of `m_mode.c`.

* `ModeSource` — who changes modes, and what that source may do.
* `ModeLoop` — the variables of the loop over the letters.
* `modeAdmin`, `modeStatus`, `modeKey`, `modeBan`, `modeFlood`, `modeLimit`, `modeBit` — the cases of
  the switch; `modeLetter` is the whole of it.
* `modeWords` — the mode string, then what is left of the parameters as further mode strings.
-/

import PtlinkIrcd.Channel.Safe
import PtlinkIrcd.Channel.Modes
import PtlinkIrcd.User.UserMode

namespace PtlinkIrcd

/-! ### Arguments -/

/-- `check_string`: up to the first blank; a star for an empty string. -/
def check_string (t : Text) : Text := if t = [] then ['*'] else t.takeWhile fun c => !isSpace c

def sevenBits (c : Char) : Char := Char.ofNat (c.toNat % 128)

def fix_key (arg : Text) : Text := (arg.map sevenBits).filter fun c => c ≠ ':' ∧ ' ' < c

/-- `fix_key_old`: the first byte that is masked to zero ends the string. -/
def fix_key_old (arg : Text) : Text :=
  ((arg.map sevenBits).filter fun c => c ≠ '\n' ∧ c ≠ ':').takeWhile (· ≠ NUL)

def pretty_mask (mask : Text) : Text :=
  let nick := mask.takeWhile (· ≠ '!')
  let user := (mask.dropWhile (· ≠ '!')).tail
  let split := '!' ∈ mask
  let last := if split then user else mask
  -- `strrchr` of the last part
  let host := (last.reverse.takeWhile (· ≠ '@')).reverse
  let front := ((last.reverse.dropWhile (· ≠ '@')).tail).reverse
  if '@' ∈ last then
    if split then make_nick_user_host (check_string nick) (check_string front) (check_string host)
    else make_nick_user_host "*" (check_string front) (check_string host)
  else if split then make_nick_user_host (check_string nick) (check_string user) "*"
  else if '.' ∈ mask then make_nick_user_host "*" "*" (check_string mask)
  else make_nick_user_host (check_string mask) "*" "*"

/-- `isvalidopt`: digits and one colon. -/
def isvalidopt (cp : Text) : Bool :=
  cp.all (fun c => c.isDigit || c = ':') && cp.count ':' = 1

/-- The pair that `setfl` reads, when it is in range. -/
def setfl (cp : Text) : Option (Int32 × Int32) :=
  let xxi := atoi (cp.takeWhile (· ≠ ':'))
  let xyi := atoi (cp.dropWhile (· ≠ ':')).tail
  if xxi > 99 || xyi > 99 || xxi ≤ 1 || xyi = 0 then none else some (xxi, xyi)

/-- `collapse_signs`, after a sign. -/
def collapse_signs : Option Char → Text → Text
  | _, [] => []
  | plus, c :: s =>
    (if some c = plus then [] else [c]) ++
      collapse_signs (if c = '+' ∨ c = '-' then some c else plus) s

/-! ### Members and bans -/

/-- Write the flags of the first link of a client. -/
def changeLink (who : ClientId) (f : Flags → Flags) : List Member → List Member
  | [] => []
  | l :: members =>
    if l.cptr = who then { l with flags := f l.flags } :: members
    else l :: changeLink who f members

/-- What `change_chan_flag` does to the flags of a member. -/
def changedFlags (flag : Flags) (add : Bool) (flags : Flags) : Flags :=
  if add then
    let flags := flags ||| (flag &&& MODE_FLAGS)
    if flag.has MODE_CHANOP then flags &&& ~~~MODE_DEOPPED else flags
  else flags &&& (~~~flag &&& MODE_FLAGS)

namespace Ircd

def change_chan_flag (s : Ircd) (chptr : ChannelId) (cptr : ClientId) (flag : Flags) (add : Bool) :
    Ircd :=
  let c := s.chan chptr
  s.setChan chptr { c with members := changeLink cptr (changedFlags flag add) c.members }

def set_deopped (s : Ircd) (cptr : ClientId) (chptr : ChannelId) (flag : Flags) : Ircd :=
  let c := s.chan chptr
  s.setChan chptr { c with
    members := changeLink cptr
      (fun flags => if flags.has flag then flags else flags ||| MODE_DEOPPED) c.members }

/-- `add_banid`: whether the ban was added. -/
def add_banid (s : Ircd) (cptr : ClientId) (chptr : ChannelId) (banid : Text) : Ircd × Bool :=
  let x := s.client cptr
  let c := s.chan chptr
  if !x.isServer && c.num_bed ≥ MAXBANS && x.myClient then
    (s.send (.reply cptr ERR_BANLISTFULL [x.name, c.chname, banid]), false)
  else
    let banid := if x.myClient then collapse banid else banid
    if c.banlist.any fun ban => ircMatch ban.banstr banid then (s, false)
    else
      let who := if x.isPerson then line [x.name, "!", x.username, "@", x.host] else x.name
      (s.setChan chptr { c with
        banlist := ⟨banid, who, s.now⟩ :: c.banlist
        num_bed := c.num_bed + 1 }, true)

/-- `del_banid`: whether a ban was deleted. -/
def del_banid (s : Ircd) (chptr : ChannelId) (banid : Text) : Ircd × Bool :=
  let c := s.chan chptr
  if c.banlist.any fun ban => irccmp banid ban.banstr = 0 then
    (s.setChan chptr { c with
      banlist := c.banlist.eraseP fun ban => irccmp banid ban.banstr = 0
      num_bed := if c.num_bed > 0 then c.num_bed - 1 else 0 }, true)
  else (s, false)

end Ircd

/-! ### The source and the loop -/

/-- The source of a MODE command. -/
structure ModeSource where
  cptr : ClientId
  sptr : ClientId
  chptr : ChannelId
  /-- The block of `sptr`. -/
  x : Client
  /-- `IsServer(cptr)`. -/
  server : Bool
  user_mode_chan : Flags
  channelts : Int
  HALFOPS : Bool

namespace ModeSource

def my (m : ModeSource) : Bool := m.x.myClient
def chan_op (m : ModeSource) : Bool := m.user_mode_chan.has CHFL_CHANOP
def half_op (m : ModeSource) : Bool := m.HALFOPS && m.user_mode_chan.has CHFL_HALFOP
def ischop (m : ModeSource) : Bool := m.x.isServer || m.x.isService || m.chan_op

def isdeop (m : ModeSource) : Bool :=
  !m.ischop && !m.x.isServer && m.user_mode_chan.has CHFL_DEOPPED

def isok (m : ModeSource) : Bool :=
  m.ischop || m.half_op || (!m.isdeop && m.server && m.channelts ≠ 0) || m.x.isService

/-- Whether the source may set or clear the bit of a letter. -/
def maySet (m : ModeSource) (c : Char) : Bool :=
  if c = 'r' then m.x.isService
  else if c = 'O' then m.x.isOper || m.x.isService || m.x.isServer
  else if c = 'A' then
    m.x.isAdmin || m.x.isTechAdmin || m.x.isNetAdmin || m.x.isService || m.x.isServer
  else m.isok

end ModeSource

inductive Whatt
  | add
  | del
  | query
  deriving DecidableEq

def Whatt.plus : Whatt → Char
  | .add => '+'
  | .del => '-'
  | .query => '='

/-- The errors that are sent once. -/
inductive SmErr
  | noops
  | unknown
  | rplB
  | notOnChannel
  | restricted
  deriving DecidableEq

/-- The variables of the loop. -/
structure ModeLoop where
  s : Ircd
  /-- The parameters that are left. -/
  parv : List Text
  whatt : Whatt
  /-- `modebuf` up to `mbufw`. -/
  mbuf : Text
  /-- `parabuf` up to `pbufw`. -/
  pbuf : Text
  len : Nat
  opcnt : Nat
  keychange : Bool
  limitset : Bool
  floodset : Bool
  /-- The letters whose `done` is set. -/
  done : List Char
  errors_sent : List SmErr

namespace ModeLoop

def complain (l : ModeLoop) (m : ModeSource) (err : SmErr) (event : Sent) : ModeLoop :=
  if m.my && err ∉ l.errors_sent then
    { l with s := l.s.send event, errors_sent := err :: l.errors_sent }
  else l

def tell (l : ModeLoop) (m : ModeSource) (event : Sent) : ModeLoop :=
  { l with s := l.s.sendIf m.my event }

def opless (l : ModeLoop) (m : ModeSource) : ModeLoop :=
  l.complain m .noops (.reply m.sptr ERR_CHANOPRIVSNEEDED [m.x.name, (l.s.chan m.chptr).chname])

/-- Write a letter and its parameter, of which `tmp` characters are counted. -/
def write (l : ModeLoop) (c : Char) (text : Text) (tmp : Nat) : ModeLoop :=
  { l with
    mbuf := l.mbuf ++ [l.whatt.plus, c]
    pbuf := l.pbuf ++ text ++ [' ']
    len := l.len + tmp + 1 }

/-- The end of the letters about a member. -/
def status (l : ModeLoop) (m : ModeSource) (c : Char) (flag : Flags) (who : ClientId) (tmp : Nat) :
    ModeLoop :=
  if l.len + tmp + 2 ≥ MODEBUFLEN then l
  else
    let written := l.write c (l.s.client who).name tmp
    { written with
      opcnt := l.opcnt + 1
      s := l.s.change_chan_flag m.chptr who flag (l.whatt = .add) }

end ModeLoop

/-! ### The letters -/

/-- The letter `a`, once its argument named a client. -/
def modeAdminOf (m : ModeSource) (who : ClientId) (arg : Text) (l : ModeLoop) : ModeLoop :=
  let y := l.s.client who
  if y.user.isNone then l
  else if m.my && (l.whatt ≠ .del || who ≠ m.sptr) then l
  else if !m.isok then l.opless m
  else if !l.s.isMember who m.chptr || (m.my && y.isStealth) then
    l.tell m (.reply m.sptr ERR_USERNOTINCHANNEL [m.x.name, arg, (l.s.chan m.chptr).chname])
  else l.status m 'a' MODE_CHANADM who arg.length

def modeAdmin (m : ModeSource) (l : ModeLoop) : ModeLoop :=
  if l.whatt = .query then l
  else
    match l.parv with
    | [] => l
    | p :: parv =>
      match l.s.find_chasing m.sptr (check_string p) with
      | (s, none) => { l with parv := parv, s := s }
      | (s, some (who, _)) =>
        modeAdminOf m who (check_string p) { l with parv := parv, s := s }

/-- The letters `o`, `h` and `v`, once their argument named a client. -/
def modeStatusOf (m : ModeSource) (c : Char) (flag : Flags) (who : ClientId) (arg : Text)
    (l : ModeLoop) : ModeLoop :=
  let y := l.s.client who
  if y.user.isNone then l
  else if !l.s.isMember who m.chptr || y.isStealth then
    l.tell m (.reply m.sptr ERR_USERNOTINCHANNEL [m.x.name, arg, (l.s.chan m.chptr).chname])
  else if who = m.sptr && c = 'o' && l.whatt = .add then l
  else if m.HALFOPS && (c = 'o' || c = 'h') && !m.ischop then l
  else
    let l :=
      if m.isdeop && c = 'o' && l.whatt = .add then
        { l with s := l.s.set_deopped who m.chptr flag }
      else l
    if !m.isok then l.opless m
    else if m.my && l.whatt = .del && (l.s.chan m.chptr).is_chan_adm who &&
        !(l.s.chan m.chptr).is_chan_adm m.sptr then
      l.tell m (.reply m.sptr ERR_CANTKICKADMIN [m.x.name, y.name, (l.s.chan m.chptr).chname])
    else l.status m c flag who arg.length

def modeStatus (m : ModeSource) (c : Char) (flag : Flags) (l : ModeLoop) : ModeLoop :=
  if m.my && (!l.s.isMember m.sptr m.chptr || m.x.isStealth) then
    let told := l.complain m .notOnChannel
      (.reply m.sptr ERR_NOTONCHANNEL [m.x.name, (l.s.chan m.chptr).chname])
    { told with parv := l.parv.tail }
  else if m.my && m.x.restricted && l.whatt = .add then
    let told := l.complain m .restricted (.one m.sptr (line [":", l.s.meName, " NOTICE ", m.x.name,
      " :*** Notice -- You are restricted and cannot chanop others"]))
    { told with parv := l.parv.tail }
  else if l.whatt = .query then l
  else
    match l.parv with
    | [] => l
    | p :: parv =>
      if m.my && l.opcnt ≥ MAXMODEPARAMS then { l with parv := parv }
      else
        match l.s.find_chasing m.sptr (check_string p) with
        | (s, none) => { l with parv := parv, s := s }
        | (s, some (who, _)) =>
          modeStatusOf m c flag who (check_string p) { l with parv := parv, s := s }

/-- What the servers and the members are told when a key is replaced. -/
def modeOldKey (m : ModeSource) (s : Ircd) : Ircd :=
  let c := s.chan m.chptr
  if c.mode.key ≠ [] then
    (s.send (.mode m.chptr m.sptr m.x.name c.chname "-k" c.mode.key)).send
      (.servMode m.chptr m.cptr m.x.name c.chname "-k" c.mode.key)
  else s

/-- The letter `k` with its argument, cut to size. -/
def modeKeyOf (m : ModeSource) (arg : Text) (l : ModeLoop) : ModeLoop :=
  let mode := (l.s.chan m.chptr).mode
  if l.len + arg.length + 2 ≥ MODEBUFLEN then l
  else if l.whatt = .add then
    if mode.key = arg then l
    else
      let written := l.write 'k' arg arg.length
      { written with s := (modeOldKey m l.s).setMode m.chptr { mode with key := arg } }
  else if arg ≠ ['*'] && arg ≠ mode.key then l
  else
    -- either way the stored key is written; a star counts as one character
    let written := l.write 'k' mode.key arg.length
    { written with s := l.s.setMode m.chptr { mode with key := [] } }

/-- The argument of the letter `k`; a removal may go without. -/
def ModeLoop.keyArg (l : ModeLoop) (m : ModeSource) : Text :=
  let arg := if l.parv = [] then ['*'] else check_string (l.parv.headD [])
  if l.whatt = .del then arg else if m.my then fix_key arg else fix_key_old arg

def modeKey (m : ModeSource) (l : ModeLoop) : ModeLoop :=
  if l.whatt = .query || (l.parv = [] && l.whatt ≠ .del) then l
  else if l.keychange then { l with parv := l.parv.tail }
  else if l.keyArg m = [] then { l with parv := l.parv.tail, keychange := true }
  else if !m.isok then
    ModeLoop.opless { l with parv := l.parv.tail, keychange := true } m
  else
    modeKeyOf m ((l.keyArg m).take KEYLEN) { l with parv := l.parv.tail, keychange := true }

def modeBanList (m : ModeSource) (l : ModeLoop) : ModeLoop :=
  if !m.my || SmErr.rplB ∈ l.errors_sent then l
  else
    let c := l.s.chan m.chptr
    let s := c.banlist.foldl
      (fun s ban => s.send (.reply m.cptr RPL_BANLIST
        [(s.client m.cptr).name, c.chname, ban.banstr, ban.who, printLu ban.when])) l.s
    { l with
      s := s.send (.reply m.sptr RPL_ENDOFBANLIST [m.x.name, c.chname])
      errors_sent := .rplB :: l.errors_sent }

def modeBanOf (m : ModeSource) (arg : Text) (l : ModeLoop) : ModeLoop :=
  if l.len + arg.length + 2 ≥ MODEBUFLEN then l
  else
    let done :=
      if l.whatt = .add then l.s.add_banid m.sptr m.chptr arg else l.s.del_banid m.chptr arg
    if done.2 then
      let written := l.write 'b' arg arg.length
      { written with opcnt := l.opcnt + 1, s := done.1 }
    else { l with s := done.1 }

def modeBan (m : ModeSource) (l : ModeLoop) : ModeLoop :=
  if l.whatt = .query then modeBanList m l
  else
    match l.parv with
    | [] => modeBanList m l
    | p :: parv =>
      let arg := check_string p
      let l : ModeLoop := { l with parv := parv }
      if m.my && l.opcnt ≥ MAXMODEPARAMS then l
      else if !m.isok then l.opless m
      else if m.my && arg.head? = some ':' && l.whatt = .add then { l with parv := parv.tail }
      else modeBanOf m (if m.my then collapse (pretty_mask arg) else arg) l

def modeFloodOf (m : ModeSource) (arg : Text) (l : ModeLoop) : ModeLoop :=
  if l.len + arg.length + 2 ≥ MODEBUFLEN then l
  else if arg.length < 3 || !isvalidopt arg then l
  else
    match setfl arg with
    | none => l
    | some (msgs, per) =>
      let mode := (l.s.chan m.chptr).mode
      let written := l.write 'f' arg arg.length
      { written with
        s := l.s.setMode m.chptr
          { mode with mode := mode.mode ||| MODE_FLOODLIMIT, msgs := msgs, per := per } }

def modeFlood (m : ModeSource) (l : ModeLoop) : ModeLoop :=
  if l.whatt = .query then l
  else if !m.isok then { l with parv := if l.whatt = .add then l.parv.tail else l.parv }
  else if l.floodset then { l with parv := if l.whatt = .add then l.parv.tail else l.parv }
  else
    let l : ModeLoop := { l with floodset := true }
    if l.whatt = .add then
      match l.parv with
      | [] => l.tell m (.reply m.sptr ERR_NEEDMOREPARAMS [m.x.name, "MODE +f"])
      | p :: parv => modeFloodOf m (check_string p) { l with parv := parv }
    else
      let mode := (l.s.chan m.chptr).mode
      { l with
        s := l.s.setMode m.chptr
          { mode with mode := mode.mode &&& ~~~MODE_FLOODLIMIT, msgs := 0, per := 0 }
        mbuf := l.mbuf ++ ['-', 'f'] }

def modeLimitOf (m : ModeSource) (arg : Text) (l : ModeLoop) : ModeLoop :=
  let nusers := atoi arg
  if nusers ≤ 0 then l
  else if l.len + (printD nusers).length + 2 ≥ MODEBUFLEN then l
  else
    let mode := (l.s.chan m.chptr).mode
    let written := l.write 'l' (printD nusers) (printD nusers).length
    { written with
      s := l.s.setMode m.chptr
        { mode with mode := mode.mode ||| MODE_LIMIT, limit := nusers } }

def modeLimit (m : ModeSource) (l : ModeLoop) : ModeLoop :=
  if l.whatt = .query then l
  else if !m.isok then { l with parv := if l.whatt = .add then l.parv.tail else l.parv }
  else if l.limitset then { l with parv := if l.whatt = .add then l.parv.tail else l.parv }
  else
    let l : ModeLoop := { l with limitset := true }
    if l.whatt = .add then
      match l.parv with
      | [] => l.tell m (.reply m.sptr ERR_NEEDMOREPARAMS [m.x.name, "MODE +l"])
      | p :: parv => modeLimitOf m (check_string p) { l with parv := parv }
    else
      let mode := (l.s.chan m.chptr).mode
      { l with
        s := l.s.setMode m.chptr { mode with mode := mode.mode &&& ~~~MODE_LIMIT, limit := 0 }
        mbuf := l.mbuf ++ ['-', 'l'] }

/-- The letters of the bits without a parameter. -/
def modeBits : List (Char × Flags) :=
  [('i', MODE_INVITEONLY), ('m', MODE_MODERATED), ('n', MODE_NOPRIVMSGS), ('p', MODE_PRIVATE),
    ('s', MODE_SECRET), ('t', MODE_TOPICLIMIT), ('C', MODE_SSLONLY), ('R', MODE_REGONLY),
    ('K', MODE_KNOCK), ('r', MODE_REGISTERED), ('O', MODE_OPERONLY), ('A', MODE_ADMINONLY),
    ('S', MODE_NOSPAM), ('d', MODE_NOFLOOD), ('c', MODE_NOCOLORS), ('q', MODE_NOQUITS),
    ('B', MODE_NOBOTS), ('N', MODE_NONICKCH)]

def modeBitRefused (m : ModeSource) (c : Char) (l : ModeLoop) : ModeLoop :=
  if c = 'O' || c = 'A' then
    l.complain m .noops (.reply m.sptr ERR_NOPRIVILEGES [m.x.name])
  else l.opless m

/-- The letter of a bit, once it is allowed: a removed `i` takes the invitations with it. -/
def modeBitOf (m : ModeSource) (c : Char) (flag : Flags) (l : ModeLoop) : ModeLoop :=
  if l.len + 2 ≥ MODEBUFLEN then l
  else
    let add : Bool := l.whatt = .add
    let s := if c = 'i' && !add then l.s.withoutInvites m.chptr else l.s
    let mode := (s.chan m.chptr).mode
    -- `OLD_NON_RED`: what changes nothing is not written
    if mode.mode.has flag = add then { l with s := s }
    else
      { l with
        s := s.setMode m.chptr { mode with mode := mode.mode.change add flag }
        mbuf := l.mbuf ++ [if add then '+' else '-', c]
        len := l.len + 2 }

def modeBit (m : ModeSource) (c : Char) (flag : Flags) (l : ModeLoop) : ModeLoop :=
  if c = 'i' && l.whatt = .query then l
  else if !m.maySet c then modeBitRefused m c l
  else if m.my && c ∈ l.done then l
  else modeBitOf m c flag { l with done := if m.my then c :: l.done else l.done }

def modeUnknown (m : ModeSource) (c : Char) (l : ModeLoop) : ModeLoop :=
  if l.whatt = .query then l
  else l.complain m .unknown (.reply m.sptr ERR_UNKNOWNMODE [m.x.name, [c]])

def modeLetter (m : ModeSource) (l : ModeLoop) (c : Char) : ModeLoop :=
  if c = '+' then { l with whatt := .add }
  else if c = '-' then { l with whatt := .del }
  else if c = '=' then { l with whatt := .query }
  else if c = 'a' then modeAdmin m l
  else if c = 'o' then modeStatus m c MODE_CHANOP l
  else if c = 'h' && m.HALFOPS then modeStatus m c MODE_HALFOP l
  else if c = 'v' then modeStatus m c MODE_VOICE l
  else if c = 'k' then modeKey m l
  else if c = 'b' then modeBan m l
  else if c = 'f' then modeFlood m l
  else if c = 'l' then modeLimit m l
  else
    match modeBits.lookup c with
    | some flag => modeBit m c flag l
    | none => modeUnknown m c l

/-! ### The command -/

/-- The loop: the letters of a mode string, then the next parameter that is left as another mode
string. Every further round takes a parameter, so their number bounds the rounds. -/
def modeWords (m : ModeSource) : Nat → ModeLoop → Text → ModeLoop
  | 0, l, curr => curr.foldl (modeLetter m) l
  | rounds + 1, l, curr =>
    let l := curr.foldl (modeLetter m) l
    match l.parv with
    | [] => l
    | next :: parv => modeWords m rounds { l with parv := parv } next

def modeTell (m : ModeSource) (l : ModeLoop) : Ircd :=
  let modebuf := collapse_signs none l.mbuf
  let chname := (l.s.chan m.chptr).chname
  if modebuf ≠ [] then
    (l.s.send (.mode m.chptr m.sptr m.x.name chname modebuf l.pbuf)).send
      (.servMode m.chptr m.cptr m.x.name chname modebuf l.pbuf)
  else l.s

namespace Ircd

def modeSource (s : Ircd) (cptr sptr : ClientId) (chptr : ChannelId) : ModeSource where
  cptr := cptr
  sptr := sptr
  chptr := chptr
  x := s.client sptr
  server := (s.client cptr).isServer
  user_mode_chan := (s.chan chptr).user_channel_mode sptr
  channelts := (s.chan chptr).channelts
  HALFOPS := s.conf.HALFOPS

/-- The variables of the loop at its start. -/
def modeStart (s : Ircd) (parv : List Text) : ModeLoop where
  s := s
  parv := parv
  whatt := .add
  mbuf := []
  pbuf := []
  len := 0
  opcnt := 0
  keychange := false
  limitset := false
  floodset := false
  done := []
  errors_sent := []

/-- The loop of `set_channel_mode`. -/
def modeLoop (s : Ircd) (cptr sptr : ClientId) (chptr : ChannelId) (parv : List Text) : ModeLoop :=
  modeWords (s.modeSource cptr sptr chptr) parv.tail.length (s.modeStart parv.tail) (parv.headD [])

/-- Whether modes may be set on registered channels only. -/
def modeSecured (s : Ircd) (sptr : ClientId) (chptr : ChannelId) : Bool :=
  s.conf.SecureModes && s.services_on && (s.client sptr).myClient &&
    !(s.chan chptr).mode.mode.has MODE_REGISTERED

def set_channel_mode (s : Ircd) (cptr sptr : ClientId) (chptr : ChannelId) (parv : List Text) :
    Ircd :=
  if s.modeSecured sptr chptr then
    s.send (.one sptr (line ["You can only set modes on registered channels (",
      (s.chan chptr).chname, ")"]))
  else modeTell (s.modeSource cptr sptr chptr) (s.modeLoop cptr sptr chptr parv)

def m_mode (s : Ircd) (cptr sptr : ClientId) (parv : List Text) : Ircd :=
  let source := parv.getD 0 []
  let name := parv.getD 1 []
  if parv.length ≤ 1 then s.send (.reply sptr ERR_NEEDMOREPARAMS [source, "MODE"])
  else if !isChannelName name then s.user_mode cptr sptr parv
  else if !check_channel_name name then s.send (.reply sptr ERR_BADCHANNAME [source, name])
  else
    match s.hash_find_channel name with
    | none => s.user_mode cptr sptr parv
    | some chptr =>
      if parv.length < 3 then
        let c := s.chan chptr
        let x := s.client sptr
        let text := channel_modes c.mode (x.isServer || s.isMember sptr chptr) x.isOper false
        (s.send (.reply sptr RPL_CHANNELMODEIS [source, c.chname, text.1, text.2])).send
          (.reply sptr RPL_CREATIONTIME [source, c.chname, printLu c.channelts])
      else s.set_channel_mode cptr sptr chptr (parv.drop 2)

end Ircd

end PtlinkIrcd
