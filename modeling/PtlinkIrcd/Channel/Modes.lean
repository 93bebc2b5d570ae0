/-
**The modes of a channel as text.**

* `channelFlagsHead`, `channelFlagsTail` — the letters of the mode bits, in the order in which
  `channel_modes` writes them.
* `channel_modes` — the letters and the parameters of a channel.
* `ModeLine` — the buffers in which a MODE line grows letter by letter.
-/

import PtlinkIrcd.Channel.JoinPartKick

namespace PtlinkIrcd

/-! ### Writing the modes of a channel -/

/-- The letters before the limit and the key. -/
def channelFlagsHead : List (Char × Flags) :=
  [('s', MODE_SECRET), ('p', MODE_PRIVATE), ('m', MODE_MODERATED), ('t', MODE_TOPICLIMIT),
    ('i', MODE_INVITEONLY), ('n', MODE_NOPRIVMSGS)]

/-- The letters after the limit and the key. -/
def channelFlagsTail : List (Char × Flags) :=
  [('r', MODE_REGISTERED), ('C', MODE_SSLONLY), ('R', MODE_REGONLY), ('K', MODE_KNOCK),
    ('O', MODE_OPERONLY), ('A', MODE_ADMINONLY), ('B', MODE_NOBOTS), ('S', MODE_NOSPAM),
    ('d', MODE_NOFLOOD), ('c', MODE_NOCOLORS), ('q', MODE_NOQUITS), ('N', MODE_NONICKCH)]

def letters (flags : List (Char × Flags)) (word : Flags) : Text :=
  (flags.filter fun f => word.has f.2).map Prod.fst

def printFlood (m : Mode) : Text := printD m.msgs ++ ':' :: printD m.per

/-- `channel_modes`: the letters and the parameters. `server` is whether the reader is a server or
a member, `oper` whether it is an operator. -/
def channel_modes (m : Mode) (server oper is_list : Bool) : Text × Text :=
  let limit := m.limit ≠ 0
  let key := m.key ≠ []
  let flood := m.msgs ≠ 0
  ('+' :: letters channelFlagsHead m.mode ++ (if limit then ['l'] else []) ++
      (if key then ['k'] else []) ++ letters channelFlagsTail m.mode ++ (if flood then ['f'] else []),
    (if limit && (server || is_list) then printD m.limit ++ [' '] else []) ++
      (if key then (if server then m.key else []) ++ [' '] else []) ++
      (if flood && (server || oper || is_list) then printFlood m ++ [' '] else []))

/-! ### A MODE line in the making -/

/-- The buffers `modebuf` and `parabuf`, the sign of the last letter and the count of
parameters. -/
structure ModeLine where
  what : Option Char
  mbuf : Text
  parabuf : Text
  pargs : Nat
  deriving DecidableEq

namespace ModeLine

def empty : ModeLine := ⟨none, [], [], 0⟩

def plus : ModeLine := ⟨some '+', ['+'], [], 0⟩

/-- Append a letter, with its sign when that changes. -/
def letter (b : ModeLine) (sign c : Char) : ModeLine :=
  { b with
    what := some sign
    mbuf := b.mbuf ++ (if b.what = some sign then [] else [sign]) ++ [c] }

def param (b : ModeLine) (sign c : Char) (text : Text) : ModeLine :=
  { b.letter sign c with parabuf := b.parabuf ++ text ++ [' '], pargs := b.pargs + 1 }

def letterIf (b : ModeLine) (p : Bool) (sign c : Char) : ModeLine :=
  if p then b.letter sign c else b

/-- Append a letter with a parameter on a condition. -/
def paramIf (b : ModeLine) (p : Bool) (sign c : Char) (text : Text) : ModeLine :=
  if p then b.param sign c text else b

end ModeLine

/-- The status flags of a member and their letters, in the order in which they are written. -/
def statusLetters (HALFOPS : Bool) : List (Char × Flags) :=
  [('a', MODE_CHANADM), ('o', MODE_CHANOP)] ++ (if HALFOPS then [('h', MODE_HALFOP)] else []) ++
    [('v', MODE_VOICE)]

namespace Ircd

def sjoin_sendit (s : Ircd) (sptr : ClientId) (chptr : ChannelId) (sender : Text) (b : ModeLine) :
    Ircd :=
  s.send (.mode chptr sptr sender (s.chan chptr).chname b.mbuf b.parabuf)

/-- Append a letter with a nick; a line with enough parameters is sent and a new one started. -/
def statusParam (s : Ircd) (sptr : ClientId) (chptr : ChannelId) (sender : Text) (start : ModeLine)
    (b : ModeLine) (sign c : Char) (nick : Text) : Ircd × ModeLine :=
  let b := b.param sign c nick
  if b.pargs ≥ MAXMODEPARAMS then (s.sjoin_sendit sptr chptr sender b, start) else (s, b)

def statusParams (sptr : ClientId) (chptr : ChannelId) (sender : Text) (start : ModeLine)
    (sign : Char) (nick : Text) (flags : Flags) (acc : Ircd × ModeLine) : Ircd × ModeLine :=
  (statusLetters acc.1.conf.HALFOPS).foldl
    (fun acc f =>
      if flags.has f.2 then acc.1.statusParam sptr chptr sender start acc.2 sign f.1 nick else acc)
    acc

end Ircd

end PtlinkIrcd
