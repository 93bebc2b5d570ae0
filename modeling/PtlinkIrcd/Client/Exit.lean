/-
**Clients that leave.**

`exit_client` of `client.c`, the one way out for users and servers: QUIT, KILL, SQUIT and lost
connections all end there. A server takes along everything that hangs on it. The SQUITs and QUITs
that `remove_dependents` writes to the other servers are left out.
-/

import PtlinkIrcd.Channel.JoinPartKick

namespace PtlinkIrcd

/-- The log channel, made when the server starts. -/
def lch_connects : ChannelId := 0

namespace Ircd

/-! ### The nick history -/

def add_history (s : Ircd) (cptr : ClientId) (online : Bool) : Ircd :=
  let who : Whowas :=
    ⟨(s.client cptr).name.take NICKLEN, s.now, if online then some cptr else none⟩
  { s with whowas := (who :: s.whowas).take NICKNAMEHISTORYLENGTH }

def off_history (s : Ircd) (cptr : ClientId) : Ircd :=
  { s with
    whowas := s.whowas.map fun who =>
      if who.online = some cptr then { who with online := none } else who }

/-! ### One client -/

/-- `del_client_from_llist` on the list of the client's server. -/
def unlinkServ (s : Ircd) (sptr : ClientId) : Ircd :=
  match (s.client sptr).servptr with
  | none => s
  | some servptr =>
    match (s.client servptr).serv with
    | none => s
    | some serv =>
      s.setClient servptr
        { s.client servptr with
          serv := some (if (s.client sptr).isServer then
            { serv with servers := serv.servers.erase sptr }
          else { serv with users := serv.users.erase sptr }) }

/-- The QUIT of a person, and the end of its memberships and invitations. -/
def quitPerson (s : Ircd) (cptr : Option ClientId) (sptr : ClientId) (comment : Text) : Ircd :=
  let x := s.client sptr
  let s := s.sendIf (!x.killed) (.servButone cptr (line [":", x.name, " QUIT :", comment]))
  let s :=
    if !x.isStealth then s.send (.commonChannels sptr (line [":", x.name, " QUIT :", comment]))
    else s.sendIf x.myClient (.one sptr (line [":", x.name, " QUIT :Stealth mode"]))
  let s := removeFromAll (fun s _ => s) sptr (s.client sptr).channels.length s
  (s.invited sptr).foldl (fun s chptr => s.del_invite sptr chptr) s

def uncounted (count : Count) (x : Client) : Count where
  total := count.total - 1
  local_ := count.local_
  oper := if x.isAnOper then count.oper - 1 else count.oper
  invisi := if x.isInvisible then count.invisi - 1 else count.invisi

/-- `update_client_exit_stats`, without the number of servers. -/
def update_client_exit_stats (s : Ircd) (cptr : ClientId) : Ircd :=
  if (s.client cptr).isClient then { s with count := uncounted s.count (s.client cptr) } else s

/-- `release_client_state`: the nick history of a person. -/
def release_client_state (s : Ircd) (cptr : ClientId) : Ircd :=
  if (s.client cptr).isPerson then (s.add_history cptr false).off_history cptr else s

/-- `remove_client_from_list`: the block is free afterwards. -/
def remove_client_from_list (s : Ircd) (cptr : ClientId) : Ircd :=
  -- a client that exited before is not linked in the list
  if cptr ∉ s.GlobalClientList then s
  else
    let s := (s.update_client_exit_stats cptr).release_client_state cptr
    { s with
      GlobalClientList := s.GlobalClientList.erase cptr
      client := Function.update s.client cptr .zero }

def del_from_client_hash_table (s : Ircd) (name : Text) (cptr : ClientId) : Ircd :=
  { s with clientTable := s.clientTable.del (hashNickName name) cptr }

/-- The end of `exit_one_client`. -/
def removeClient (s : Ircd) (sptr : ClientId) : Ircd :=
  (s.del_from_client_hash_table (s.client sptr).name sptr).remove_client_from_list sptr

def exit_one_client (s : Ircd) (cptr : Option ClientId) (sptr source : ClientId) (comment : Text) :
    Ircd :=
  let x := s.client sptr
  let s := s.unlinkServ sptr
  if x.isMe then s.send (.ops (line ["ERROR: tried to exit me! : ", comment]))
  else if x.isServer then
    match x.link with
    | none => s.removeClient sptr
    | some acptr =>
      (s.sendIf ((s.client acptr).isServer && cptr ≠ some acptr && !(s.client acptr).isMe && !x.killed)
        (.one acptr (line [":", (s.client source).name, " SQUIT ", x.name, " :", comment]))).removeClient
          sptr
  else if !x.isPerson then s.removeClient sptr
  else if x.name ≠ [] then (s.quitPerson cptr sptr comment).removeClient sptr
  else s.removeClient sptr

/-! ### A server and its dependents -/

def setKilled (s : Ircd) (cptr : ClientId) : Ircd :=
  s.setClient cptr { s.client cptr with killed := true }

/-- `recurse_remove_clients`. Every round removes a client, so the number of clients bounds the
rounds. -/
def recurse_remove_clients (comment : Text) : Nat → Ircd → ClientId → Ircd
  | 0, s, _ => s
  | fuel + 1, s, sptr =>
    if (s.client sptr).isMe then s
    else
      match (s.client sptr).serv with
      | none => s
      | some serv =>
        match serv.servers, serv.users with
        | acptr :: _, _ =>
          let s := recurse_remove_clients comment fuel s acptr
          let s := (s.setKilled acptr).exit_one_client none acptr me s.meName
          recurse_remove_clients comment fuel s sptr
        | [], acptr :: _ =>
          let s := (s.setKilled acptr).exit_one_client none acptr me comment
          recurse_remove_clients comment fuel s sptr
        | [], [] => s

/-- The last sweep over clients that came through a server linked here. -/
def sweep (s : Ircd) (sptr : ClientId) (servers : Bool) (comment : Text) : Ircd :=
  s.GlobalClientList.foldl
    (fun s acptr =>
      if (s.client acptr).isServer = servers ∧ (s.client acptr).link = some sptr then
        (s.send (.ops (line ["Dependent client ", (s.client acptr).name,
          " not on llist!?"]))).exit_one_client none acptr me comment
      else s)
    s

/-- The part of `exit_client` for servers. -/
def exitServer (s : Ircd) (sptr : ClientId) : Ircd :=
  let x := s.client sptr
  let up := (x.serv.map Server.up).join.getD "<Unknown>"
  let comment1 := s.conf.OverrideNetsplitMessage.getD (line [up, " ", x.name])
  let s := recurse_remove_clients comment1 (s.GlobalClientList.length + 1) s sptr
  if x.servptr = some me then
    let s := s.send (.ops (line [x.name, " was connected"]))
    (s.sweep sptr false comment1).sweep sptr true s.meName
  else s

/-- The end of a connection in `Count.local`. -/
def uncountLocal (s : Ircd) (x : Client) : Ircd :=
  if x.isClient then { s with count := { s.count with local_ := s.count.local_ - 1 } } else s

/-- The part of `exit_client` for connections; `close_connection` clears `from`. -/
def exitLocal (s : Ircd) (sptr : ClientId) (comment : Text) : Ircd :=
  let x := s.client sptr
  let s :=
    if x.isPerson then
      let text := line ["Client exiting: ", x.name, " (", x.username, "@", x.host, ") [", comment,
        "] [", x.realhost, "]"]
      (s.send (.ops text)).send (.channel lch_connects me
        (line [":", s.meName, " PRIVMSG &Connects :Client << ", x.name, " (", x.username, "@", x.host,
          ") [", comment, "] [", x.realhost, "]"]))
    else s.sendIf x.isServer (.servButone (some me)
      (line [":", s.meName, " GLOBOPS :Closing Link: ", x.name, " (", comment, ")"]))
  ((s.uncountLocal x).send (.one sptr (line ["ERROR :Closing Link: ", x.name, " (", comment,
    ")"]))).setClient sptr { x with link := none }

/-- The part of `exit_client` for the services. -/
def servicesDown (s : Ircd) : Ircd :=
  { s with
    services_on := false
    sent := s.sent ++ [.ops "Services DOWN or network split"] }

def exit_client (s : Ircd) (cptr : Option ClientId) (sptr source : ClientId) (comment : Text) :
    Ircd :=
  let x := s.client sptr
  let s := if x.myConnect then s.exitLocal sptr comment else s
  let s := if x.isServer && x.isService then s.servicesDown else s
  let s := if x.isServer then s.exitServer sptr else s
  s.exit_one_client cptr sptr source comment

end Ircd

end PtlinkIrcd
