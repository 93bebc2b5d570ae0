/-
**A line of the configuration file.**

The parts of `initconf` of `s_conf.c` that look at one line: its fields, the entry that they are, and
what is done with it.

* `ReadConf` — an entry as it is read; `ReadConf.hostField` reads the fields behind the letter.
* `ConfCall` — what `initconf` does to the rest of the server.
* `confLineKind` — what a line is: a comment, a line that is rejected, or one that is acted on.
* `kills_confLine` — the K-lines are those of `KlineFile`.
-/

import PtlinkIrcd.Conf.IpTree
import PtlinkIrcd.Conf.KlineFile

namespace PtlinkIrcd

open Lib (unescape nextField)

/-! ### Entries -/

/-- The bit that the letter of a line sets in `status`. -/
inductive ConfStatus where
  | quarantinedNick
  | client
  | connectServer
  | noconnectServer
  | locop
  | operator
  | me
  | kill
  | admin
  | tline
  | cclass
  | leaf
  | listenPort
  | hub
  | dline
  | xline
  | uline
deriving DecidableEq

def CONF_FLAGS_LIMIT_IP : Flags := 0x0001
def CONF_FLAGS_NO_TILDE : Flags := 0x0002
def CONF_FLAGS_NEED_IDENTD : Flags := 0x0004
def CONF_FLAGS_PASS_IDENTD : Flags := 0x0008
def CONF_FLAGS_NOMATCH_IP : Flags := 0x0010
def CONF_FLAGS_F_LINED : Flags := 0x0040
def CONF_FLAGS_EXEMPTGLINE : Flags := 0x0080
def CONF_FLAGS_DO_IDENTD : Flags := 0x0200
def CONF_FLAGS_ALLOW_AUTO_CONN : Flags := 0x0400
def CONF_FLAGS_ZIP_LINK : Flags := 0x0800
def CONF_FLAGS_LITTLE_I_LINE : Flags := 0x8000

def CONF_OPER_GLOBAL_KILL : Flags := 1
def CONF_OPER_REMOTE : Flags := 2
def CONF_OPER_UNKLINE : Flags := 4
def CONF_OPER_GLINE : Flags := 8
def CONF_OPER_ADMIN : Flags := 16
def CONF_OPER_K : Flags := 32
def CONF_OPER_REHASH : Flags := 64
def CONF_OPER_DIE : Flags := 128

/-- An entry as `initconf` reads it. Of the class there is the number of the line; the modes of an
operator and the address of a server are kept as they are written. -/
structure ReadConf where
  status : ConfStatus
  flags : Flags
  host : Option Text := none
  passwd : Option Text := none
  user : Option Text := none
  name : Option Text := none
  port : Int32 := 0
  /-- `port` of an operator: what he may. -/
  privs : Flags := 0
  cclass : Option Int32 := none
  umodes : Option Text := none
  imodes : Option Text := none
  address : Option Text := none
  sendq : Int32 := 0
deriving DecidableEq

def statusOfLetter : Char → Option (ConfStatus × Flags)
  | 'A' | 'a' => some (.admin, 0)
  | 'C' => some (.connectServer, CONF_FLAGS_ALLOW_AUTO_CONN ||| CONF_FLAGS_ZIP_LINK)
  | 'c' => some (.connectServer, CONF_FLAGS_ALLOW_AUTO_CONN)
  | 'd' => some (.dline, CONF_FLAGS_E_LINED)
  | 'D' => some (.dline, 0)
  | 'H' | 'h' => some (.hub, 0)
  | 'i' => some (.client, CONF_FLAGS_LITTLE_I_LINE)
  | 'I' => some (.client, 0)
  | 'K' | 'k' => some (.kill, 0)
  | 'L' | 'l' => some (.leaf, 0)
  | 'M' | 'm' => some (.me, 0)
  | 'N' | 'n' => some (.noconnectServer, 0)
  | 'O' => some (.operator, 0)
  | 'o' => some (.locop, 0)
  | 'P' | 'p' => some (.listenPort, 0)
  | 'Q' | 'q' => some (.quarantinedNick, 0)
  | 'T' => some (.tline, 0)
  | 'U' | 'u' => some (.uline, 0)
  | 'X' | 'x' => some (.xline, 0)
  | 'Y' | 'y' => some (.cclass, 0)
  | _ => none

/-- The flag of a character before the host or the user of an `I:` line. -/
def confFlag : Char → Option Flags
  | '!' => some CONF_FLAGS_LIMIT_IP
  | '-' => some CONF_FLAGS_NO_TILDE
  | '+' => some CONF_FLAGS_NEED_IDENTD
  | '$' => some CONF_FLAGS_PASS_IDENTD
  | '%' => some CONF_FLAGS_NOMATCH_IP
  | '^' => some CONF_FLAGS_E_LINED
  | '>' => some CONF_FLAGS_F_LINED
  | '_' => some CONF_FLAGS_EXEMPTGLINE
  | _ => none

/-- `set_conf_flags`: the flags with those of the text, and the text behind them. -/
def set_conf_flags (flags : Flags) : Text → Flags × Text
  | [] => (flags, [])
  | c :: tmp =>
    match confFlag c with
    | some flag => set_conf_flags (flags ||| flag) tmp
    | none => (flags, c :: tmp)

/-- What a letter does to the privileges of an operator. -/
def operPriv : Char → Option (Bool × Flags)
  | 'O' => some (true, CONF_OPER_GLOBAL_KILL)
  | 'o' => some (false, CONF_OPER_GLOBAL_KILL)
  | 'U' => some (true, CONF_OPER_UNKLINE)
  | 'u' => some (false, CONF_OPER_UNKLINE)
  | 'R' => some (true, CONF_OPER_REMOTE)
  | 'r' => some (false, CONF_OPER_REMOTE)
  | 'K' => some (true, CONF_OPER_K)
  | 'k' => some (false, CONF_OPER_K)
  | 'G' => some (true, CONF_OPER_GLINE)
  | 'g' => some (false, CONF_OPER_GLINE)
  | 'H' => some (true, CONF_OPER_REHASH)
  | 'h' => some (false, CONF_OPER_REHASH)
  | 'D' => some (true, CONF_OPER_DIE)
  | 'd' => some (false, CONF_OPER_DIE)
  | 'A' => some (true, CONF_OPER_ADMIN)
  | _ => none

def oper_privs_from_string (int_privs : Flags) (privs : Text) : Flags :=
  privs.foldl (fun int_privs c =>
    match operPriv c with
    | some (add, priv) => int_privs.change add priv
    | none => int_privs) int_privs

namespace ReadConf

variable (aconf : ReadConf)

/-- The modes of an operator, or the address of a server. -/
def restFields (line : Option Text) : ReadConf :=
  if aconf.status = .locop ∨ aconf.status = .operator then
    match nextField ':' line with
    | (none, _) => aconf
    | (some tmp, line) => { aconf with umodes := some tmp, imodes := (nextField ':' line).1 }
  else if aconf.status = .connectServer then { aconf with address := (nextField ':' line).1 }
  else aconf

def classField (line : Option Text) : ReadConf :=
  match nextField ':' line with
  | (none, _) => aconf
  | (some tmp, line) =>
    if aconf.status = .cclass then restFields { aconf with sendq := atoi tmp } line
    else restFields { aconf with cclass := some (atoi tmp) } line

def portField (line : Option Text) : ReadConf :=
  match aconf.status, nextField ':' line with
  | .operator, (tmp, line) =>
    let privs := CONF_OPER_GLOBAL_KILL ||| CONF_OPER_REMOTE ||| CONF_OPER_UNKLINE ||| CONF_OPER_K |||
      CONF_OPER_GLINE ||| CONF_OPER_REHASH
    match tmp with
    | none => { aconf with privs := privs }
    | some tmp => classField { aconf with privs := oper_privs_from_string privs tmp } line
  | .locop, (tmp, line) =>
    let privs := CONF_OPER_UNKLINE ||| CONF_OPER_K
    match tmp with
    | none => { aconf with privs := privs }
    | some tmp => classField { aconf with privs := oper_privs_from_string privs tmp } line
  | .connectServer, (some tmp, line) =>
    let port := atoi tmp
    if port < 0 then
      classField
        { aconf with
          flags := aconf.flags.change false CONF_FLAGS_ALLOW_AUTO_CONN
          port := -port } line
    else classField { aconf with port := port } line
  | _, (some tmp, line) => classField { aconf with port := atoi tmp } line
  | _, (none, _) => aconf

def userField (line : Option Text) : ReadConf :=
  match nextField ':' line with
  | (none, _) => aconf
  | (some tmp, line) =>
    let read := if aconf.status = .client then set_conf_flags aconf.flags tmp else (aconf.flags, tmp)
    portField { aconf with flags := read.1, user := some read.2 } line

def passField (line : Option Text) : ReadConf :=
  match nextField ':' line with
  | (none, _) => aconf
  | (some tmp, line) => userField { aconf with passwd := some tmp } line

def hostField (line : Option Text) : ReadConf :=
  match nextField ':' line with
  | (none, _) => aconf
  | (some tmp, line) =>
    let read := if aconf.status = .client then set_conf_flags aconf.flags tmp else (aconf.flags, tmp)
    passField { aconf with flags := read.1, host := some read.2 } line

/-- The name of an `H:` or `L:` line: its user up to a blank. -/
def hubName : ReadConf :=
  match aconf.user with
  | none => { aconf with name := some ['*'], user := some ['*'] }
  | some user => { aconf with name := some (user.takeWhile fun c => c ≠ ' ' ∧ c ≠ '\t'), user := some ['*'] }

/-- `SplitUserHost`; the host is there. -/
def SplitUserHost (host : Text) : Option ReadConf :=
  if '@' ∈ host then
    match aconf.user with
    | none => none
    | some user =>
      some
        { aconf with
          name := some user
          user := some (host.takeWhile (· ≠ '@'))
          host := (host.dropWhile (· ≠ '@')).tail }
  else
    match aconf.user with
    | none => some aconf
    | some user => some { aconf with name := some user, user := some ['*'] }

end ReadConf

/-! ### What is done with an entry -/

/-- What `initconf` does to the rest of the server. -/
inductive ConfCall (w : Nat) where
  | include_list (filename : Text)
  | add_class (cclass ping confreq maxli sendq : Int32)
  | add_listener (port : Int32) (vhost_ip options : Option Text) (cp : Text)
  | add_ip_Iline (aconf : ReadConf) (ip ip_mask : BitVec w)
  | add_ip_Kline (aconf : ReadConf) (ip ip_mask : BitVec w)
  | add_mtrie_conf_entry (aconf : ReadConf)
  /-- A `D:` line. When its host is no address, what an earlier line left in `ip` is used. -/
  | add_Dline (aconf : ReadConf) (found : Option (BitVec w × BitVec w))
  /-- A `d:` line. -/
  | add_dline (aconf : ReadConf) (found : Option (BitVec w × BitVec w))
  | x_conf (aconf : ReadConf)
  | u_conf (aconf : ReadConf)
  | add_q_line (aconf : ReadConf)
  | tlines (host motd : Text)
  /-- The name and the information of the server, and its address. -/
  | setMe (host passwd user : Text)
  | ConfigItemList (aconf : ReadConf)
deriving DecidableEq

/-- What a line is. -/
inductive ConfLineKind (w : Nat) where
  /-- A comment, an empty line, or a line with a dot that includes nothing. -/
  | nothing
  | included (filename : Text)
  /-- "Bad config line". -/
  | bad
  /-- "Error in config file". -/
  | unknown
  /-- A `C:` or an `N:` line, with its entry if there is nothing wrong with it. -/
  | server (connect : Bool) (aconf : Option ReadConf)
  /-- "Bad O/o line host". -/
  | badOper
  /-- "Error opening T:line motd file". -/
  | noMotd
  /-- A field that is used is not there. -/
  | crash
  | takes (calls : List (ConfCall w))
deriving DecidableEq

/-- What `initconf` is called with, and what it finds. -/
structure ConfEnv where
  use_include : Bool
  CheckIdentd : Bool
  /-- Whether `ReadMessageFile` can read a file. -/
  readable : Text → Bool

namespace ReadConf

variable (w : Nat) (env : ConfEnv) (aconf : ReadConf) (host : Text)

/-- An entry that is linked into `ConfigItemList`. -/
def linked : ConfCall w :=
  .ConfigItemList { aconf with host := aconf.host.map collapse, user := aconf.user.map collapse }

/-- What is done for an `I:` line. -/
def iline : ConfCall w :=
  let ident (flags : Flags) := if env.CheckIdentd then flags ||| CONF_FLAGS_DO_IDENTD else flags
  let host := collapse host
  let aconf := { aconf with name := some host, user := some ((aconf.user.map collapse).getD ['*']) }
  let left := '@' ∈ host
  let aconf := if left then
    { aconf with flags := ident aconf.flags, user := some (host.takeWhile (· ≠ '@')) } else aconf
  let host := if left then (host.dropWhile (· ≠ '@')).tail else host
  match is_address w host with
  | some found => .add_ip_Iline { aconf with host := some host } (found.1 &&& found.2) found.2
  | none =>
    let user := aconf.user.getD []
    if '@' ∈ user then
      .add_mtrie_conf_entry
        { aconf with
          flags := ident aconf.flags
          user := some (user.takeWhile (· ≠ '@'))
          host := some (user.dropWhile (· ≠ '@')).tail }
    else .add_mtrie_conf_entry { aconf with host := some user, user := some ['*'] }

/-- What is done for a `K:` line. -/
def kline : ConfCall w :=
  match is_address w host with
  | some found => .add_ip_Kline aconf (found.1 &&& found.2) found.2
  | none =>
    .add_mtrie_conf_entry { aconf with host := some (collapse host), user := aconf.user.map collapse }

/-- What becomes of a `C:` or an `N:` line, when there are not too many. -/
def serverLine : Option ReadConf :=
  match aconf.user, aconf.passwd with
  | some _, some passwd => if passwd = [] then none else aconf.SplitUserHost host
  | _, _ => none

/-- What is done with the entry of a line, whose host is there. -/
def actOn : ConfLineKind w :=
  match aconf.status with
  | .cclass =>
    if -1 < atoi host then
      match aconf.passwd, aconf.user with
      | some passwd, some user =>
        .takes [.add_class (atoi host) (atoi passwd) (atoi user) aconf.port aconf.sendq]
      | _, _ => .crash
    else .takes [aconf.linked w]
  | .listenPort =>
    match aconf.passwd with
    | none => .crash
    | some passwd =>
      let vhost_ip := if passwd.head?.all (· = '*') then none else some passwd
      .takes [.add_listener aconf.port vhost_ip aconf.user host]
  | .client => .takes [aconf.iline w env host]
  | .connectServer => .server true (aconf.serverLine host)
  | .noconnectServer => .server false (aconf.serverLine host)
  | .operator | .locop =>
    match aconf.SplitUserHost host with
    | none => .badOper
    | some aconf => .takes [aconf.linked w]
  | .me =>
    match aconf.passwd, aconf.user with
    | some passwd, some user => .takes [.setMe host passwd user, aconf.linked w]
    | _, _ => .crash
  | .kill => .takes [aconf.kline w host]
  | .dline =>
    let added := { aconf with user := some host }
    if aconf.flags.has CONF_FLAGS_E_LINED then .takes [.add_dline added (is_address w host)]
    else .takes [.add_Dline added (is_address w host)]
  | .xline => .takes [.x_conf { aconf with user := none, name := some host, host := none }]
  | .uline => .takes [.u_conf { aconf with user := none, name := some host, host := none }]
  | .quarantinedNick => .takes [.add_q_line { aconf with name := some host, host := some ['*'] }]
  | .tline =>
    match aconf.passwd with
    | none => .crash
    | some motd => if env.readable motd then .takes [.tlines host motd] else .noMotd
  | .hub | .leaf => .takes [aconf.hubName.linked w]
  | .admin => .takes [aconf.linked w]

end ReadConf

/-- The file that a line with a dot includes. -/
def includeLine (line : Text) : Option (Option Text) :=
  if irccmp (line.tail.take 8) "include ".toList = 0 then
    match Lib.field '"' (line.drop 8) with
    | (_, none) => some none
    | (_, some filename) =>
      match Lib.field '"' filename with
      | (_, none) => some none
      | (filename, some _) => some (some filename)
  else none

/-- What a line is, as `fbgets` reads it. -/
def confLineKind (w : Nat) (env : ConfEnv) (line : Text) : ConfLineKind w :=
  let line := unescape '\\' '#' (cutLine line)
  if line.head?.all (· ∈ ['#', '\n', ' ', '\t']) then .nothing
  else if env.use_include ∧ line.head? = some '.' then
    match includeLine line with
    | none => .nothing
    | some none => .bad
    | some (some filename) => .included filename
  else if line.tail.head? ≠ some ':' then .bad
  else
    match line.head?.bind statusOfLetter with
    | none => .unknown
    | some (status, flags) =>
      let aconf := ReadConf.hostField { status, flags } (some (line.drop 2))
      aconf.actOn w env (aconf.host.getD [])

/-! ### `I:` and `K:` lines -/

/-- What a line is acted on with, when no count is against it. -/
def ConfLineKind.asked {w : Nat} : ConfLineKind w → List (ConfCall w)
  | .included filename => [.include_list filename]
  | .server _ (some aconf) => [aconf.linked w]
  | .takes calls => calls
  | _ => []

def ConfCall.kill {w : Nat} : ConfCall w → Option (ConfEntry w)
  | .add_ip_Kline aconf ip ip_mask => some (.kill aconf.user (.block ip ip_mask) aconf.passwd)
  | .add_mtrie_conf_entry aconf =>
    if aconf.status = .kill then
      match aconf.host, aconf.user with
      | some host, some user => some (.kill (some user) (.mask host) aconf.passwd)
      | _, _ => none
    else none
  | _ => none

def ConfEntry.isKill {w : Nat} : ConfEntry w → Bool
  | .kill .. => true
  | .other .. => false

section Fields

variable {w : Nat} {env : ConfEnv} {aconf : ReadConf} {host : Text} {line : Option Text}

/-- What the fields behind the user do not change. -/
def ReadConf.front (aconf : ReadConf) : ConfStatus × Option Text × Option Text × Option Text :=
  (aconf.status, aconf.host, aconf.passwd, aconf.user)

theorem ReadConf.front_restFields (aconf : ReadConf) (line : Option Text) :
    (aconf.restFields line).front = aconf.front := by
  unfold restFields
  split
  · split <;> rfl
  · split <;> rfl

theorem ReadConf.front_classField (aconf : ReadConf) (line : Option Text) :
    (aconf.classField line).front = aconf.front := by
  unfold classField
  split
  · rfl
  · split
    · exact front_restFields _ _
    · exact front_restFields _ _

theorem ReadConf.front_portField (aconf : ReadConf) (line : Option Text) :
    (aconf.portField line).front = aconf.front := by
  unfold portField
  dsimp only
  split
  · split
    · rfl
    · exact front_classField _ _
  · split
    · rfl
    · exact front_classField _ _
  · split
    · exact front_classField _ _
    · exact front_classField _ _
  · exact front_classField _ _
  · rfl

theorem ReadConf.status_hostField (aconf : ReadConf) (line : Option Text) :
    (aconf.hostField line).status = aconf.status := by
  have user : ∀ (aconf : ReadConf) (line : Option Text), (aconf.userField line).status = aconf.status := by
    intro aconf line
    cases line with
    | none => rfl
    | some t => exact congrArg Prod.fst (front_portField _ _)
  cases line with
  | none => rfl
  | some t =>
    show (passField _ _).status = _
    cases (Lib.field ':' t).2 with
    | none => rfl
    | some t => exact user _ _

theorem ReadConf.front_userField (other : aconf.status ≠ .client) (open_ : aconf.user = none) :
    (aconf.userField line).front = (aconf.status, aconf.host, aconf.passwd, (nextField ':' line).1) := by
  unfold userField
  cases line with
  | none =>
    show (aconf.status, aconf.host, aconf.passwd, aconf.user) = _
    rw [open_]
    rfl
  | some t =>
    dsimp only [nextField]
    rw [if_neg other]
    exact front_portField _ _

theorem ReadConf.front_passField (other : aconf.status ≠ .client) (open_ : aconf.user = none)
    (empty : aconf.passwd = none) : (aconf.passField line).front =
      (aconf.status, aconf.host, (nextField ':' line).1, (nextField ':' (nextField ':' line).2).1) := by
  unfold passField
  cases line with
  | none =>
    show (aconf.status, aconf.host, aconf.passwd, aconf.user) = _
    rw [open_, empty]
    rfl
  | some t => exact front_userField other open_

theorem ReadConf.front_hostField {status : ConfStatus} (other : status ≠ .client) (flags : Flags)
    (line : Option Text) :
    (hostField { status, flags } line).front =
      (status, (nextField ':' line).1, (nextField ':' (nextField ':' line).2).1,
        (nextField ':' (nextField ':' (nextField ':' line).2).2).1) := by
  unfold hostField
  cases line with
  | none => rfl
  | some t =>
    dsimp only [nextField]
    rw [if_neg other]
    exact front_passField other rfl rfl

end Fields

section Kills

variable {w : Nat} {env : ConfEnv} {aconf : ReadConf} {host : Text}

theorem ReadConf.kill_iline (other : aconf.status ≠ .kill) : (aconf.iline w env host).kill = none := by
  have mtrie : ∀ a : ReadConf, a.status = aconf.status →
      (ConfCall.add_mtrie_conf_entry a : ConfCall w).kill = none := fun a same =>
    if_neg (same ▸ other)
  unfold iline
  by_cases left : '@' ∈ collapse host
  · simp only [if_pos left]
    split
    · rfl
    · split
      · exact mtrie _ rfl
      · exact mtrie _ rfl
  · simp only [if_neg left]
    split
    · rfl
    · split
      · exact mtrie _ rfl
      · exact mtrie _ rfl

theorem ReadConf.kills_actOn_other (other : aconf.status ≠ .kill) :
    (aconf.actOn w env host).asked.filterMap ConfCall.kill = [] := by
  have linked : ∀ a : ReadConf, (a.linked w).kill = none := fun _ => rfl
  unfold actOn
  cases status : aconf.status with
  | kill => exact absurd status other
  | client => simp [ConfLineKind.asked, kill_iline other]
  | connectServer =>
    dsimp only
    cases aconf.serverLine host <;> simp [ConfLineKind.asked, linked]
  | noconnectServer =>
    dsimp only
    cases aconf.serverLine host <;> simp [ConfLineKind.asked, linked]
  | operator =>
    dsimp only
    cases aconf.SplitUserHost host <;> simp [ConfLineKind.asked, linked]
  | locop =>
    dsimp only
    cases aconf.SplitUserHost host <;> simp [ConfLineKind.asked, linked]
  | cclass =>
    dsimp only
    split_ifs with positive
    · cases aconf.passwd <;> cases aconf.user <;> rfl
    · rfl
  | listenPort => cases passwd : aconf.passwd <;> rfl
  | me => cases aconf.passwd <;> cases aconf.user <;> rfl
  | dline =>
    dsimp only
    split_ifs <;> rfl
  | tline =>
    dsimp only
    cases aconf.passwd with
    | none => rfl
    | some motd =>
      dsimp only
      split_ifs <;> rfl
  | quarantinedNick | xline | uline | hub | leaf | admin => rfl

theorem ReadConf.kills_actOn (status : aconf.status = .kill) :
    (aconf.actOn w env host).asked.filterMap ConfCall.kill = klineEntry w host aconf.passwd aconf.user := by
  unfold actOn kline klineEntry blockOf
  rw [status]
  cases is_address w host with
  | some found => rfl
  | none =>
    simp only [ConfLineKind.asked, Option.map_none]
    cases user : aconf.user with
    | none => simp [ConfCall.kill]
    | some user' => simp [ConfCall.kill]

theorem filter_klineEntry (host : Text) (passwd user : Option Text) :
    (klineEntry w host passwd user).filter ConfEntry.isKill = klineEntry w host passwd user := by
  unfold klineEntry
  split
  · rfl
  · split <;> rfl

theorem letter_of_kill {c : Char} {flags : Flags} (letter : statusOfLetter c = some (.kill, flags)) :
    c = 'K' ∨ c = 'k' := by
  unfold statusOfLetter at letter
  split at letter <;> simp_all

/-- **The K-lines of a line** are those that it is acted on with. -/
theorem kills_confLine (line : Text) (plain : env.use_include = false) :
    (confLine w (cutLine line)).filter ConfEntry.isKill =
      (confLineKind w env line).asked.filterMap ConfCall.kill := by
  unfold confLine confLineKind confFields
  dsimp only
  generalize unescape '\\' '#' (cutLine line) = t
  by_cases comment : t.head?.all (· ∈ ['#', '\n', ' ', '\t'])
  · rw [if_pos (.inl comment), if_pos comment]
    rfl
  by_cases bad : t.tail.head? ≠ some ':'
  · rw [if_pos (.inr bad), if_neg comment, if_neg (by simp [plain]), if_pos bad]
    rfl
  rw [if_neg (not_or.mpr ⟨comment, bad⟩), if_neg comment, if_neg (by simp [plain]), if_neg bad]
  obtain ⟨c, rest, rfl⟩ : ∃ c rest, t = c :: ':' :: rest := by
    rw [not_not] at bad
    cases t with
    | nil => cases bad
    | cons c t =>
      cases t with
      | nil => cases bad
      | cons d rest =>
        obtain rfl := Option.some.inj bad
        exact ⟨c, rest, rfl⟩
  by_cases colon : c = ':'
  · subst colon
    rfl
  have alone : ':' ∉ [c] := fun member => colon (List.mem_singleton.mp member).symm
  have first : nextField ':' (some (c :: ':' :: rest)) = (some [c], some rest) :=
    congrArg (fun f => (some f.1, f.2)) (Lib.field_append_cons alone rest)
  rw [first]
  simp only [Option.bind_some, List.head?_cons, List.drop_succ_cons, List.drop_zero]
  by_cases kill : c = 'K' ∨ c = 'k'
  · have letter : statusOfLetter c = some (.kill, 0) := by
      rcases kill with rfl | rfl <;> rfl
    rw [if_pos kill, letter]
    dsimp only
    have front := ReadConf.front_hostField (by decide : ConfStatus.kill ≠ .client) 0 (some rest)
    simp only [ReadConf.front, Prod.mk.injEq] at front
    obtain ⟨status, host, passwd, user⟩ := front
    rw [ReadConf.kills_actOn status, host, passwd, user]
    -- a letter is followed by a host
    exact filter_klineEntry _ _ _
  · rw [if_neg kill]
    have left : ((if c ∈ confLetters then [ConfEntry.other c (some rest)] else []) :
        List (ConfEntry w)).filter ConfEntry.isKill = [] := by
      split_ifs <;> rfl
    rw [left]
    cases letter : statusOfLetter c with
    | none => rfl
    | some found =>
      obtain ⟨status, flags⟩ := found
      have other : (ReadConf.hostField { status, flags } (some rest)).status ≠ .kill := by
        rw [ReadConf.status_hostField]
        rintro rfl
        exact kill (letter_of_kill letter)
      exact (ReadConf.kills_actOn_other other).symm

end Kills

end PtlinkIrcd
