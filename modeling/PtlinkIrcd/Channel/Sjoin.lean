/-
**SJOIN and NJOIN.**

`m_sjoin` in stages: the arguments (`sjoinModes`), the verdict over the two time stamps
(`sjoinVerdict`), the modes that come of it (`sjoinMerge`), the changes told to the local members
(`sjoinDelta`, `sjoinStrip`), and the list of nicks (`sjoinWho`). `m_njoin` is `m_sjoin` under a mark
that nothing in it reads.
-/

import PtlinkIrcd.Channel.Modes

namespace PtlinkIrcd

/-! ### The modes of a message -/

/-- The bit that a letter of the mode argument sets. -/
def sjoinFlag : Char → Flags
  | 'i' => MODE_INVITEONLY
  | 'n' => MODE_NOPRIVMSGS
  | 'p' => MODE_PRIVATE
  | 's' => MODE_SECRET
  | 'm' => MODE_MODERATED
  | 't' => MODE_TOPICLIMIT
  | 'r' => MODE_REGISTERED
  | 'R' => MODE_REGONLY
  | 'C' => MODE_SSLONLY
  | 'K' => MODE_KNOCK
  | 'O' => MODE_OPERONLY
  | 'A' => MODE_ADMINONLY
  | 'S' => MODE_NOSPAM
  | 'd' => MODE_NOFLOOD
  | 'c' => MODE_NOCOLORS
  | 'q' => MODE_NOQUITS
  | 'B' => MODE_NOBOTS
  | 'N' => MODE_NONICKCH
  | _ => 0

/-- The loop over the mode argument: the modes and what is left of the parameters. A parameter is
only taken when another one follows; otherwise the message is dropped. -/
def sjoinModes : Text → Mode → List Text → Option (Mode × List Text)
  | [], mode, args => some (mode, args)
  | c :: s, mode, args =>
    if c = 'k' then
      if args.tail = [] then none
      else sjoinModes s { mode with key := (args.headD []).take KEYLEN } args.tail
    else if c = 'l' then
      if args.tail = [] then none
      else sjoinModes s { mode with limit := atoi (args.headD []) } args.tail
    else if c = 'f' then
      let cp := args.headD []
      if ':' ∉ cp then sjoinModes s mode args
      else if args.tail = [] then none
      else
        sjoinModes s
          { mode with
            msgs := atoi (cp.takeWhile (· ≠ ':'))
            per := atoi (cp.dropWhile (· ≠ ':')).tail }
          args.tail
    else sjoinModes s { mode with mode := mode.mode ||| sjoinFlag c } args

/-- The tests that drop a message, and its modes with what is left of the parameters. -/
def sjoinRead (sptr : Client) (parv : List Text) : Option (Mode × List Text) :=
  let name := parv.getD 2 []
  if sptr.isClient || parv.length < 5 then none
  else if !isChannelName name then none
  else if !check_channel_name name then none
  else if name.head? = some '&' then none
  else sjoinModes (parv.getD 3 []) .zero (parv.drop 4)

/-! ### Whose modes hold -/

/-- What the two time stamps decide: the new time stamp, and whose modes and statuses count. -/
structure Verdict where
  ts : Int
  keepOur : Bool
  keepNew : Bool
  deriving DecidableEq

/-- The verdict. `doesop` is whether the message brings a channel operator, `haveops` whether the
channel has one. -/
def sjoinVerdict (isnew : Bool) (newts oldts : Int) (doesop haveops : Bool) : Verdict :=
  if isnew then ⟨newts, true, true⟩
  else if newts = 0 ∨ oldts = 0 then ⟨0, true, true⟩
  else if newts = oldts then ⟨oldts, true, true⟩
  else if newts < oldts then ⟨if haveops && !doesop then oldts else newts, !doesop, true⟩
  else ⟨if doesop && !haveops then newts else oldts, true, !haveops⟩

/-- The modes of the channel after the message. -/
def sjoinMerge (verdict : Verdict) (mode oldmode : Mode) : Mode :=
  if !verdict.keepNew then oldmode
  else if verdict.keepOur then
    { mode := mode.mode ||| oldmode.mode
      limit := if oldmode.limit > mode.limit then oldmode.limit else mode.limit
      key := if strcmp mode.key oldmode.key < 0 then oldmode.key else mode.key
      msgs := if oldmode.msgs ≠ 0 then oldmode.msgs else mode.msgs
      per := if oldmode.per ≠ 0 then oldmode.per else mode.per }
  else mode

/-- Whether a list of nicks starts with an operator. -/
def sniffsOp (nicks : Text) : Bool := nicks[0]? = some '@' || nicks[1]? = some '@'

def Channel.haveops (c : Channel) : Bool := c.members.any fun l => l.flags.has MODE_CHANOP

/-! ### The changes as text -/

/-- The bits whose addition is told, in order. -/
def sjoinAdded : List (Char × Flags) :=
  [('p', MODE_PRIVATE), ('s', MODE_SECRET), ('m', MODE_MODERATED), ('n', MODE_NOPRIVMSGS),
    ('t', MODE_TOPICLIMIT), ('i', MODE_INVITEONLY), ('r', MODE_REGISTERED), ('R', MODE_REGONLY),
    ('C', MODE_SSLONLY), ('K', MODE_KNOCK), ('O', MODE_OPERONLY), ('A', MODE_ADMINONLY),
    ('B', MODE_NOBOTS), ('S', MODE_NOSPAM), ('d', MODE_NOFLOOD), ('c', MODE_NOCOLORS),
    ('q', MODE_NOQUITS), ('N', MODE_NONICKCH)]

/-- The bits whose removal is told, in order: `K` is not among them. -/
def sjoinRemoved : List (Char × Flags) :=
  [('p', MODE_PRIVATE), ('s', MODE_SECRET), ('m', MODE_MODERATED), ('n', MODE_NOPRIVMSGS),
    ('t', MODE_TOPICLIMIT), ('i', MODE_INVITEONLY), ('r', MODE_REGISTERED), ('R', MODE_REGONLY),
    ('C', MODE_SSLONLY), ('O', MODE_OPERONLY), ('A', MODE_ADMINONLY), ('B', MODE_NOBOTS),
    ('S', MODE_NOSPAM), ('d', MODE_NOFLOOD), ('c', MODE_NOCOLORS), ('q', MODE_NOQUITS),
    ('N', MODE_NONICKCH)]

/-- The letters of the bits that one mode has and the other has not. -/
def ModeLine.flagDelta (flags : List (Char × Flags)) (sign : Char) (present absent : Flags)
    (b : ModeLine) : ModeLine :=
  flags.foldl (fun b f => b.letterIf (present.has f.2 && !absent.has f.2) sign f.1) b

/-- The change from one mode to another, in the buffers. -/
def sjoinDelta (mode oldmode : Mode) : ModeLine :=
  let b := ModeLine.empty.flagDelta sjoinAdded '+' mode.mode oldmode.mode
  let b := b.flagDelta sjoinRemoved '-' oldmode.mode mode.mode
  let b := b.letterIf (oldmode.msgs ≠ 0 ∧ mode.msgs = 0) '-' 'f'
  let b := b.letterIf (oldmode.limit ≠ 0 ∧ mode.limit = 0) '-' 'l'
  let b := b.paramIf (oldmode.key ≠ [] ∧ mode.key = []) '-' 'k' oldmode.key
  let b := b.paramIf (mode.msgs ≠ 0 ∧ (mode.msgs ≠ oldmode.msgs ∨ mode.per ≠ oldmode.per)) '+' 'f'
    (printFlood mode)
  let b := b.paramIf (mode.limit ≠ 0 ∧ oldmode.limit ≠ mode.limit) '+' 'l' (printD mode.limit)
  b.paramIf (mode.key ≠ [] ∧ strcmp oldmode.key mode.key ≠ 0) '+' 'k' mode.key

/-! ### The list of nicks -/

/-- The status that a character before a nick stands for. -/
def sjoinPrefix (HALFOPS : Bool) : Char → Option Flags
  | '.' => some MODE_CHANADM
  | '@' => some MODE_CHANOP
  | '%' => if HALFOPS then some MODE_HALFOP else none
  | '+' => some MODE_VOICE
  | _ => none

/-- The loop over the characters before a nick. -/
def sjoinNick (HALFOPS : Bool) : Text → Flags × Text
  | [] => (0, [])
  | c :: s =>
    match sjoinPrefix HALFOPS c with
    | some flag => (flag ||| (sjoinNick HALFOPS s).1, (sjoinNick HALFOPS s).2)
    | none => (0, c :: s)

/-- The flags a member gets: without the new modes, no status. -/
def sjoinStatus (keepNew : Bool) (fl : Flags) : Flags :=
  if keepNew then fl
  else if fl.has MODE_CHANOP && !fl.has MODE_CHANADM then MODE_DEOPPED
  else 0

def STATUS_FLAGS (HALFOPS : Bool) : Flags :=
  MODE_CHANADM ||| MODE_CHANOP ||| (if HALFOPS then MODE_HALFOP else 0) ||| MODE_VOICE

def Member.strip (HALFOPS : Bool) (l : Member) : Member :=
  { l with flags := l.flags &&& ~~~STATUS_FLAGS HALFOPS }

/-- The state of the loop over the nicks: the server, the buffers, the words written to `sjbuf` and
the count `people`. -/
structure SjoinLoop where
  s : Ircd
  b : ModeLine
  words : Text
  people : Nat

namespace Ircd

/-- The part of the loop body that lets a user in. -/
def sjoinEnter (s : Ircd) (chptr : ChannelId) (acptr : ClientId) (fl : Flags) (nick name : Text) :
    Ircd :=
  if s.isMember acptr chptr then s
  else (s.add_user_to_channel chptr acptr fl).sendIf (!(s.client acptr).isStealth)
    (.channel chptr acptr (line [":", nick, " JOIN :", name]))

/-- The body of the loop over the nicks. -/
def sjoinWho (cptr sptr : ClientId) (chptr : ChannelId) (source name : Text) (keepNew : Bool)
    (l : SjoinLoop) (s0 : Text) : SjoinLoop :=
  let nick := (sjoinNick l.s.conf.HALFOPS s0).2
  let fl := sjoinStatus keepNew (sjoinNick l.s.conf.HALFOPS s0).1
  match l.s.find_chasing sptr nick with
  | (s, none) => { l with s := s }
  | (s, some (acptr, _)) =>
    if (s.client acptr).link ≠ some cptr then { l with s := s }
    else
      let told := statusParams sptr chptr source .plus '+' nick fl
        (s.sjoinEnter chptr acptr fl nick name, l.b)
      { s := told.1
        b := told.2
        words := l.words ++ (if keepNew then s0 else nick) ++ [' ']
        people := l.people + 1 }

/-- The loop over the nicks, and what is sent after it. -/
def sjoinPeople (s : Ircd) (cptr sptr : ClientId) (chptr : ChannelId) (source name modes : Text)
    (verdict : Verdict) (nicks : Text) : Ircd :=
  let text := channel_modes (s.chan chptr).mode (s.client sptr).isServer (s.client sptr).isOper false
  let text := if modes.head? ≠ some '0' && verdict.keepNew then text else (['0'], [])
  let l := (strtoken ' ' nicks).foldl (sjoinWho cptr sptr chptr source name verdict.keepNew)
    ⟨s, .plus, [], 0⟩
  let s := if l.b.pargs ≠ 0 then l.s.sjoin_sendit sptr chptr source l.b else l.s
  s.sendIf (l.people ≠ 0) (.matchServs (some chptr) cptr
    (line [":", source, " SJOIN ", printLu verdict.ts, " ", name, " ", text.1, " ", text.2, " :",
      l.words.dropLast]))

/-- The removal of all statuses, in the buffers after the mode changes. -/
def sjoinStrip (s : Ircd) (sptr : ClientId) (chptr : ChannelId) (source : Text) (oldts newts : Int)
    (b : ModeLine) : Ircd × ModeLine :=
  let c := s.chan chptr
  let told := c.members.foldl
    (fun acc l => statusParams sptr chptr source .empty '-' (s.client l.cptr).name l.flags acc)
    (s, { b with what := none })
  ((told.1.setChan chptr { c with members := c.members.map (Member.strip s.conf.HALFOPS) }).send
      (.channel chptr me (line [":", s.meName, " NOTICE ", c.chname, " :*** Notice -- TS for ",
        c.chname, " changed from ", printLu oldts, " to ", printLu newts])),
    told.2)

/-- The modes of the channel and the statuses of its members, with the MODE lines about them. -/
def sjoinMode (s : Ircd) (sptr : ClientId) (chptr : ChannelId) (source : Text) (oldts newts : Int)
    (verdict : Verdict) (mode : Mode) : Ircd :=
  let oldmode := (s.chan chptr).mode
  let mode := sjoinMerge verdict mode oldmode
  let b := sjoinDelta mode oldmode
  let s := s.setMode chptr mode
  let stripped := if verdict.keepOur then (s, b) else s.sjoinStrip sptr chptr source oldts newts b
  if stripped.2.mbuf ≠ [] then stripped.1.sjoin_sendit sptr chptr source stripped.2 else stripped.1

/-- The warnings about a time stamp that goes to zero. -/
def sjoinZero (s : Ircd) (sptr : ClientId) (chptr : ChannelId) (name : Text) (isnew : Bool)
    (newts oldts : Int) : Ircd :=
  let c := s.chan chptr
  if !isnew && newts = 0 && oldts ≠ 0 then
    (s.send (.channel chptr me (line [":", s.meName, " NOTICE ", c.chname,
      " :*** Notice -- TS for ", c.chname, " changed from ", printLu oldts, " to 0"]))).send
      (.ops (line ["Server ", (s.client sptr).name, " changing TS on ", name, " from ",
        printLu oldts, " to 0"]))
  else s

/-- The part of `m_sjoin` on a channel that was found or made. -/
def sjoinOn (s : Ircd) (cptr sptr : ClientId) (chptr : ChannelId) (isnew : Bool)
    (source name modes : Text) (newts : Int) (mode : Mode) (nicks : Text) : Ircd :=
  let c := s.chan chptr
  let verdict := sjoinVerdict isnew newts c.channelts (sniffsOp nicks) c.haveops
  let s := s.sjoinZero sptr chptr name isnew newts c.channelts
  let s := s.setChannelts chptr verdict.ts
  let s := s.sjoinMode sptr chptr source c.channelts newts verdict mode
  s.sjoinPeople cptr sptr chptr source name modes verdict nicks

def m_sjoin (s : Ircd) (cptr sptr : ClientId) (parv : List Text) : Ircd :=
  match sjoinRead (s.client sptr) parv with
  | none => s
  | some (mode, args) =>
    let name := parv.getD 2 []
    let made := s.get_channel_create sptr name
    made.1.sjoinOn cptr sptr made.2 (!s.channelExists name) (parv.getD 0 []) name (parv.getD 3 [])
      (atol (parv.getD 1 [])) mode (args.headD [])

def m_njoin (s : Ircd) (cptr sptr : ClientId) (parv : List Text) : Ircd := s.m_sjoin cptr sptr parv

end Ircd

end PtlinkIrcd
