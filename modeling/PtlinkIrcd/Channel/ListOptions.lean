/-
**Options of LIST.**

What `m_list` of `m_list.c` makes of its parameters, and what `send_list` asks of one channel.

* `LOpts` — `struct ListOptions` with its masks; `find_str_match_link` — the search, which drops the
  masks in front of the one that matches.
* `LOpts.examine` — whether `send_list` shows a channel, and the options after the searches.
* `ListRequest.parse` — the loop of `m_list` over its parameters.
-/

import PtlinkIrcd.Channel.Listing

namespace PtlinkIrcd

/-! ### The filter -/

/-- `struct ListOptions`. -/
structure LOpts extends ListOptions where
  yeslist : List Text
  nolist : List Text

/-- `find_str_match_link`. The head and the place of the search are one pointer, so that the links
before the place go. -/
def find_str_match_link : List Text → Text → Bool × List Text
  | [], _ => (false, [])
  | [mask], str => (ircMatch mask str, [mask])
  | mask :: next :: rest, str =>
    if ircMatch mask str then (true, mask :: next :: rest) else find_str_match_link (next :: rest) str

/-- A search for the name of a channel, and for its topic if that fails. -/
def findChannel (masks : List Text) (chptr : ListedChannel) : Bool × List Text :=
  let byName := find_str_match_link masks chptr.chname
  if byName.1 then byName else find_str_match_link byName.2 chptr.topic

/-- Whether `send_list` shows a channel, and what the searches leave of the masks. -/
def LOpts.examine (cptr : Lister) (l : LOpts) (chptr : ListedChannel) : Bool × LOpts :=
  if !listable cptr l.toListOptions chptr then (false, l)
  else
    let no := findChannel l.nolist chptr
    let l := { l with nolist := no.2 }
    if no.1 then (false, l)
    else if l.yeslist.isEmpty then (true, l)
    else
      let yes := findChannel l.yeslist chptr
      (yes.1, { l with yeslist := yes.2 })

/-! ### The parameters -/

/-- What `m_list` sends. -/
inductive ListReply
  | RPL_LOAD2HI
  | usage (line : Text)
  | RPL_LISTSTART
  | badSyntax
  | line (line : ListLine)

/-- What `m_list` asks of the server. -/
structure ListServer where
  CurrentTime : Int
  lifesux : Bool
  RestrictedChans : Bool
  /-- `channelTable`. -/
  table : Nat → ChannelBlock

def ListServer.hash_find_channel (me : ListServer) (name : Text) : Option ListedChannel :=
  (me.table (hashChannelName name)).list.find? fun chptr => irccmp name chptr.chname = 0

/-- A number stored in a `short`. -/
def short (n : Int) : Int := n.bmod (2 ^ 16)

/-- `CurrentTime - 60 * strtol(...)`, as a `long` wraps. -/
def minutesAgo (now : Int) (number : Text) : Int := (now - 60 * strtol number).bmod (2 ^ 64)

/-- The variables of `m_list`, and the lines for channels that were named in full. -/
structure ListRequest where
  showall : Bool
  yeslist : List Text
  nolist : List Text
  usermin : Int
  usermax : Int
  chantimemin : Int
  chantimemax : Int
  topictimemin : Int
  topictimemax : Int
  named : List ListLine

namespace ListRequest

/-- It should not take over a day to transmit the list. -/
def start (now : Int) : ListRequest :=
  ⟨false, [], [], 0, -1, 0, now + 86400, 0, now + 86400, []⟩

section Parse

variable (me : ListServer) (sptr : Lister)

def mask (r : ListRequest) (name : Text) : ListRequest :=
  if name.head? = some '!' then { r with showall := true, nolist := name.tail :: r.nolist }
  else if '*' ∈ name ∨ '?' ∈ name then { r with showall := true, yeslist := name :: r.yeslist }
  else
    match me.hash_find_channel name with
    | none => r
    | some chptr =>
      if ShowChannel sptr chptr then
        { r with named := r.named ++ [.RPL_LIST name (chptr.users - chptr.iusers) chptr.topic ""] }
      else r

/-- The `switch` on an element; for bad syntax, what was read before. -/
def element (r : ListRequest) (name : Text) : Except ListRequest ListRequest :=
  match name with
  | '>' :: number => .ok { r with showall := true, usermin := short (strtol number) }
  | '<' :: number => .ok { r with showall := true, usermax := short (strtol number) }
  | c :: rest =>
    if c = 't' ∨ c = 'T' then
      match rest with
      | '>' :: number =>
        .ok { r with showall := true, topictimemax := minutesAgo me.CurrentTime number }
      | '<' :: number =>
        .ok { r with showall := true, topictimemin := minutesAgo me.CurrentTime number }
      | [] => .ok { r with showall := true, topictimemin := 1 }
      | _ => .error r
    else if c = 'c' ∨ c = 'C' then
      match rest with
      | '>' :: number =>
        .ok { r with showall := true, chantimemin := minutesAgo me.CurrentTime number }
      | '<' :: number =>
        .ok { r with showall := true, chantimemax := minutesAgo me.CurrentTime number }
      | _ => .error r
    else .ok (r.mask me sptr name)
  | [] => .ok r

/-- The loop over the parameters and over the elements of each. -/
def parse (parv : List Text) : Except ListRequest ListRequest :=
  (parv.tail.flatMap (strtoken ',')).foldlM (element me sptr) (start me.CurrentTime)

end Parse

def lists (now : Int) (r : ListRequest) : Bool :=
  r.showall && !(now < r.chantimemin) && !(now < r.topictimemin)

/-- The options that `m_list` saves; `usermin` is unsigned there. -/
def lopt (r : ListRequest) : LOpts where
  showall := false
  usermin := (r.usermin % 2 ^ 16).toNat
  usermax := r.usermax
  chantimemin := r.chantimemin
  chantimemax := r.chantimemax
  topictimemin := r.topictimemin
  topictimemax := r.topictimemax
  yeslist := r.yeslist
  nolist := r.nolist

end ListRequest

def LOpts.all (me : ListServer) : LOpts where
  showall := false
  usermin := if me.RestrictedChans then 0 else 1
  usermax := -1
  chantimemin := 0
  chantimemax := me.CurrentTime + 86400
  topictimemin := 0
  topictimemax := me.CurrentTime + 86400
  yeslist := []
  nolist := []

def listUsage : List Text := ([
  "   Usage: /raw LIST options (on mirc) or /quote LIST options (ircII)",
  "",
  "If you don't include any options, the default is to send you the",
  "entire unfiltered list of channels. Below are the options you can",
  "use, and what channels LIST will return when you use them.",
  ">number  List channels with more than <number> people.",
  "<number  List channels with less than <number> people.",
  "C>number List channels created between now and <number> minutes ago.",
  "C<number List channels created earlier than <number> minutes ago.",
  "T>number List channels whose topics are older than <number> minutes",
  "         (Ie, they have not changed in the last <number> minutes.",
  "T<number List channels whose topics are not older than <number> minutes.",
  "*mask*   List channels that match *mask*",
  "!*mask*  List channels that do not match *mask*"] : List String).map String.toList

end PtlinkIrcd
