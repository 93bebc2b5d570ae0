/-
**Users that come, and users that become operators.**

* `register_user`, `nickkilldone` — a local user whose registration is complete, and a user that a
  server introduces.
* `m_oper` — a user that becomes an operator.
* `noopers` — the services take the status of every operator here.
* `show_lusers` — the statistics are counted again.

The checks that refuse a connection before it is a user (K-lines, passwords, full servers) are left
out: a refused connection was never counted.
-/

import PtlinkIrcd.Channel.Runs
import PtlinkIrcd.Model.Parse

namespace PtlinkIrcd

def LOCOP_UMODES : Flags := UMODE_LOCOP ||| UMODE_WALLOP

def OPER_UMODES : Flags := UMODE_OPER ||| UMODE_WALLOP

/-- The operator line that a request for OPER matches: its kind, its modes and its privileges. -/
structure OperConf where
  locop : Bool
  /-- `hold`: the modes from the configuration file, or zero. -/
  hold : Flags
  admin : Bool
  privs : Flags

def OperConf.umodes (aconf : OperConf) : Flags :=
  (if aconf.locop then UMODE_LOCOP else UMODE_OPER) |||
    (if aconf.hold ≠ 0 then aconf.hold &&& ALL_UMODES
      else if aconf.locop then LOCOP_UMODES else OPER_UMODES) |||
    (if aconf.admin then UMODE_ADMIN else 0)

theorem OperConf.umodes_isAnOper (aconf : OperConf) :
    aconf.umodes.has (UMODE_OPER ||| UMODE_LOCOP) = true := by
  unfold OperConf.umodes
  have status : (if aconf.locop then UMODE_LOCOP else UMODE_OPER).has
      (UMODE_OPER ||| UMODE_LOCOP) = true := by
    split <;> decide
  rw [Flags.or_has, Flags.or_has, status, Bool.true_or, Bool.true_or]

namespace Ircd

/-! ### New clients -/

/-- A client on a free block, in the list of all clients and in the hash table. -/
def addClient (s : Ircd) (u : ClientId) (x : Client) : Ircd :=
  { s with
    client := Function.update s.client u x
    GlobalClientList := u :: s.GlobalClientList
    clientTable := s.clientTable.add (hashNickName x.name) u }

/-- A free block: nobody is linked there. -/
def Free (s : Ircd) (u : ClientId) : Prop := s.client u = .zero ∧ u ∉ s.GlobalClientList

instance (s : Ircd) (u : ClientId) : Decidable (s.Free u) := by
  unfold Free
  infer_instance

def setServptr (s : Ircd) (u servptr : ClientId) : Ircd :=
  (s.setClient u { s.client u with servptr := some servptr }).linkServ u

def setCount (s : Ircd) (count : Count) : Ircd := { s with count := count }

/-! ### Local users -/

/-- A connection that has sent NICK and USER; users are invisible at first. -/
def localUser (u : ClientId) (name username host server : Text) (ssl : Bool) : Client :=
  { Client.zero with
    name := name
    username := username
    host := host
    realhost := host
    status := .client
    umodes := (if ssl then UMODE_SSL else 0) ||| UMODE_INVISIBLE
    link := some u
    user := some ⟨[], [], 0, server⟩
    local_flag := true }

/-- `register_user` of a connection. `find_server` of the server's own name is the server. -/
def register_user (s : Ircd) (u : ClientId) (name username host : Text) (ssl : Bool) : Ircd :=
  if s.Free u then
    let x := localUser u name username host s.meName ssl
    let count : Count :=
      { s.count with
        invisi := if x.isInvisible then s.count.invisi + 1 else s.count.invisi
        local_ := s.count.local_ + 1
        total := s.count.total + 1 }
    ((s.addClient u x).setServptr u me).setCount count
  else s

/-! ### Users of other servers -/

def remoteUser (cptr : ClientId) (nick username realhost host server : Text) (tsinfo : Int)
    (umodes : Flags) : Client :=
  { Client.zero with
    name := nick
    username := username
    host := host
    realhost := realhost
    status := .client
    umodes := umodes
    tsinfo := tsinfo
    link := some cptr
    user := some ⟨[], [], 0, server⟩ }

/-- What `nickkilldone` adds for the letters. -/
def countLetters (count : Count) (m : NickModes) : Count :=
  { count with invisi := count.invisi + m.invisi, oper := count.oper + m.oper }

/-- The part of `register_user` for a user that a server introduced. -/
def registerRemote (s : Ircd) (cptr u : ClientId) (nick server : Text) : Ircd :=
  let kill := fun why : List Text =>
    Sent.one cptr (line (":" :: s.meName :: " KILL " :: nick :: " :" :: why))
  match s.find_server server with
  | none =>
    ((s.send (kill [s.meName, " (Ghosted, ", server, " doesn't exist)"])).setKilled u).exit_client none
      u me "Ghost"
  | some servptr =>
    let s := (s.setServptr u servptr).setCount { s.count with total := s.count.total + 1 }
    if (s.client servptr).link ≠ (s.client u).link then
      ((s.send (kill [s.meName, " (", server, " USER from wrong direction)"])).setKilled u).exit_client
        (some u) u me "USER server wrong direction"
    else s

/-- `nickkilldone` of a user that a server introduces with all its parameters. -/
def nickkilldone (s : Ircd) (cptr u : ClientId) (nick modes username realhost host server : Text)
    (newts : Int) : Ircd :=
  if s.Free u then
    let m := nickModes modes
    let x := remoteUser cptr nick username realhost host server newts m.umodes
    ((s.setCount (countLetters s.count m)).addClient u x).registerRemote cptr u nick server
  else s

/-! ### Servers -/

/-- A server whose introduction is complete. -/
def serverBlock (u cptr servptr : ClientId) (name up : Text) (service : Bool) : Client :=
  { Client.zero with
    name := name
    status := .server
    link := some cptr
    servptr := some servptr
    serv := some ⟨some up, [], []⟩
    local_flag := decide (u = cptr)
    service := service }

/-- A server that is linked here or introduced. -/
def addServer (s : Ircd) (u cptr servptr : ClientId) (name : Text) (service : Bool) : Ircd :=
  if s.Free u then
    (s.addClient u (serverBlock u cptr servptr name (s.client servptr).name service)).linkServ u
  else s

/-! ### OPER -/

/-- `m_oper`, for a request with a name and a password: `aconf` is the operator line that they match
on the user's host. Information modes and exemptions are left out. -/
def m_oper (s : Ircd) (cptr sptr : ClientId) (aconf : Option OperConf) : Ircd :=
  let x := s.client sptr
  if ((s.client cptr).isServer || (s.client cptr).isMe) && !x.isOper then
    -- the status is written to `flags`, where no mode is kept
    (s.setCount { s.count with oper := s.count.oper + 1 }).send
      (.servButone (some cptr) (line [":", x.name, " MODE ", x.name, " :+o"]))
  else if x.isAnOper then s
  else
    match aconf with
    | none => s
    | some aconf =>
      ((s.setClient sptr
        { x with umodes := x.umodes ||| aconf.umodes, flags2 := x.flags2 ||| aconf.privs }).setCount
          { s.count with oper := s.count.oper + 1 }).send_umode_out cptr sptr (x.umodes &&& ALL_UMODES)

/-! ### SVSADMIN -/

/-- One round of the loop over `oper_cptr_list`: the operator keeps the modes of a user. -/
def noOper (s : Ircd) (acptr : ClientId) : Ircd :=
  let x := s.client acptr
  let s := s.send (.one acptr (line [":", s.meName, " NOTICE ", x.name,
    " :Please contact your IRC Administrator"]))
  -- `Count.oper` stays
  (s.setClient acptr { x with umodes := x.umodes &&& USER_UMODES }).send_umode_out acptr acptr x.umodes

/-- The operation `noopers` of an SVSADMIN for this server, in `m_svsadmin`; `operators` is
`oper_cptr_list`, which the loop empties. -/
def noopers (s : Ircd) (cptr sptr : ClientId) (operators : List ClientId) : Ircd :=
  if !(s.client cptr).isServer || !(s.client sptr).isService then
    s.sendIf (s.client cptr).isServer (.one cptr (line [":", s.meName,
      " WALLOPS :ignoring SVSADMIN from non-service ", (s.client sptr).name]))
  else
    operators.foldl noOper (s.send (.servButone none (line [":", s.meName,
      " GLOBOPS :Disabling O:Lines on this server"])))

/-! ### LUSERS -/

/-- One round of the loop over `GlobalClientList`; the total is `c_count` and `i_count`. -/
def lusersRound (s : Ircd) (count : Count) (acptr : ClientId) : Count :=
  let x := s.client acptr
  if x.isClient then
    { total := count.total + 1
      local_ := if x.myConnect then count.local_ + 1 else count.local_
      oper := if x.isAnOper then count.oper + 1 else count.oper
      invisi := if x.isInvisible then count.invisi + 1 else count.invisi }
  else count

/-- The recount of `show_lusers`, for a LUSERS or at the end of `register_user`, when it is due. -/
def show_lusers (s : Ircd) : Ircd :=
  s.setCount (s.GlobalClientList.foldl s.lusersRound ⟨0, 0, 0, 0⟩)

end Ircd

end PtlinkIrcd
