/-
**User modes.**

`user_mode` and `m_svsmode`: a command is read letter by letter, with a sign that stays in force
until the next one (`userModeLetter`, `svsModeLetter`).
-/

import PtlinkIrcd.Channel.Modes
import PtlinkIrcd.Client.Exit

namespace PtlinkIrcd

/-- The entries of `user_modes_from_c_to_bitmask` that are not zero. -/
def userModeBits : List (Char × Flags) :=
  [('A', UMODE_ADMIN), ('B', UMODE_BOT), ('H', UMODE_HIDEOPER), ('N', UMODE_NETADMIN),
    ('O', UMODE_LOCOP), ('R', UMODE_REGMSG), ('S', UMODE_STEALTH), ('T', UMODE_TECHADMIN),
    ('a', UMODE_SADMIN), ('f', UMODE_FLOODEX), ('h', UMODE_HELPER), ('i', UMODE_INVISIBLE),
    ('o', UMODE_OPER), ('p', UMODE_PRIVATE), ('r', UMODE_IDENTIFIED), ('s', UMODE_SSL),
    ('v', UMODE_NODCC), ('w', UMODE_WALLOP), ('y', UMODE_SPY), ('z', UMODE_ZOMBIE)]

def user_modes_from_c_to_bitmask (c : Char) : Flags := (userModeBits.lookup c).getD 0

theorem mem_of_lookup {c : Char} {flag : Flags} (found : userModeBits.lookup c = some flag) :
    (c, flag) ∈ userModeBits := by
  obtain ⟨before, after, same, _⟩ := List.lookup_eq_some_iff.mp found
  exact same ▸ List.mem_append_right before List.mem_cons_self

theorem bitmask_off {flag : Flags} {P : Char → Prop}
    (table : ∀ p ∈ userModeBits, P p.1 → p.2 &&& flag = 0#32) {c : Char} (holds : P c) :
    user_modes_from_c_to_bitmask c &&& flag = 0#32 := by
  unfold user_modes_from_c_to_bitmask
  cases found : userModeBits.lookup c with
  | none => exact BitVec.zero_and
  | some bits => exact table (c, bits) (mem_of_lookup found) holds

/-- `user_modes`: the letters in the order in which changes are told. -/
def user_modes : List (Flags × Char) :=
  [(UMODE_SADMIN, 'a'), (UMODE_ADMIN, 'A'), (UMODE_BOT, 'B'), (UMODE_FLOODEX, 'f'),
    (UMODE_HELPER, 'h'), (UMODE_HIDEOPER, 'H'), (UMODE_INVISIBLE, 'i'), (UMODE_NETADMIN, 'N'),
    (UMODE_OPER, 'o'), (UMODE_LOCOP, 'O'), (UMODE_PRIVATE, 'p'), (UMODE_IDENTIFIED, 'r'),
    (UMODE_REGMSG, 'R'), (UMODE_SSL, 's'), (UMODE_STEALTH, 'S'), (UMODE_TECHADMIN, 'T'),
    (UMODE_NODCC, 'v'), (UMODE_WALLOP, 'w'), (UMODE_SPY, 'y'), (UMODE_ZOMBIE, 'z')]

def USER_UMODES : Flags :=
  UMODE_INVISIBLE ||| UMODE_WALLOP ||| UMODE_HELPER ||| UMODE_BOT ||| UMODE_IDENTIFIED |||
    UMODE_PRIVATE ||| UMODE_REGMSG ||| UMODE_STEALTH ||| UMODE_SSL ||| UMODE_FLOODEX

def ALL_UMODES : Flags :=
  USER_UMODES ||| UMODE_LOCOP ||| UMODE_SPY ||| UMODE_OPER ||| UMODE_LOCOP ||| UMODE_SADMIN |||
    UMODE_ZOMBIE ||| UMODE_HELPER ||| UMODE_HIDEOPER ||| UMODE_ADMIN ||| UMODE_TECHADMIN |||
    UMODE_NETADMIN

/-! ### Letter by letter -/

/-- The modes of a user while a command is read: the sign in force, the modes, whether an unknown
letter was seen, `Count.oper` and the privileges. -/
structure UserModeState where
  add : Bool
  umodes : Flags
  badflag : Bool
  oper : Int
  flags2 : Flags

/-- The privileges that end with the operator status. -/
def endedPrivileges : Flags :=
  FLAGS2_OPER_GLOBAL_KILL ||| FLAGS2_OPER_REMOTE ||| FLAGS2_OPER_UNKLINE ||| FLAGS2_OPER_GLINE |||
    FLAGS2_OPER_K

/-- The end of an operator: the modes that are left, and the privileges of a local one. -/
def UserModeState.deoper (m : UserModeState) (mine : Bool) (umodes : Flags) : UserModeState :=
  { m with
    umodes := umodes
    oper := m.oper - 1
    flags2 := if mine then m.flags2 &&& ~~~endedPrivileges else m.flags2 }

/-- The last case of `user_mode`: a letter of the table, or an unknown one. -/
def userModeDefault (m : UserModeState) (c : Char) : UserModeState :=
  if user_modes_from_c_to_bitmask c ≠ 0 then
    { m with umodes := m.umodes.change m.add (user_modes_from_c_to_bitmask c) }
  else { m with badflag := true }

/-- One letter of `user_mode`. `server` is whether the connection is a server, `refuseR` whether
it is a client that may not set `R`, `mine` whether the user is connected here. -/
def userModeLetter (server refuseR mine : Bool) (m : UserModeState) (c : Char) : UserModeState :=
  if c = '+' then { m with add := true }
  else if c = '-' then { m with add := false }
  else if c = 'O' ∨ c = 'o' then
    if m.add then
      if server && !m.umodes.has UMODE_OPER then
        { m with
          umodes := m.umodes ||| (if c = 'o' then UMODE_OPER else UMODE_LOCOP)
          oper := m.oper + 1 }
      else m
    else if !m.umodes.has (UMODE_OPER ||| UMODE_LOCOP) then m
    else m.deoper mine (m.umodes &&& USER_UMODES)
  else if c = ' ' ∨ c = '\n' ∨ c = '\r' ∨ c = '\t' then m
  else if c = 'R' then
    if m.add && refuseR then m else { m with umodes := m.umodes.change m.add UMODE_REGMSG }
  else if c = 's' ∨ c = 'f' then m
  else if c ∈ ['v', 'z', 'r', 'B'] then
    -- falls through: adding is refused by the next test as well
    if !server then m else userModeDefault m c
  else if c ∈ ['S', 'N', 'T', 'h', 'A', 'a'] then
    if !server && m.add then m else userModeDefault m c
  else userModeDefault m c

/-- One letter of `m_svsmode`, for a user connected here. -/
def svsModeLetter (m : UserModeState) (c : Char) : UserModeState :=
  if c = '+' then { m with add := true }
  else if c = '-' then { m with add := false }
  else if c = 'n' ∨ c = 'l' then m
  else if c = 'O' ∨ c = 'o' then
    if m.add then
      if m.umodes.has UMODE_OPER then m
      else { m with umodes := m.umodes ||| UMODE_OPER, oper := m.oper + 1 }
    else if !m.umodes.has (UMODE_OPER ||| UMODE_LOCOP) then m
    else m.deoper true (m.umodes &&& ~~~(UMODE_OPER ||| UMODE_LOCOP))
  else if c = ' ' ∨ c = '\n' ∨ c = '\r' ∨ c = '\t' then m
  else { m with umodes := m.umodes.change m.add (user_modes_from_c_to_bitmask c) }

/-- What `nickkilldone` reads from the modes of a user that a server introduces: the modes, and
what is added to `Count.invisi` and `Count.oper`. -/
structure NickModes where
  umodes : Flags
  invisi : Int
  oper : Int

/-- One letter of `nickkilldone`. -/
def nickLetter (m : NickModes) (c : Char) : NickModes :=
  let flag := user_modes_from_c_to_bitmask c
  { umodes := m.umodes ||| (flag &&& ALL_UMODES)
    invisi := if flag.has UMODE_INVISIBLE then m.invisi + 1 else m.invisi
    oper := if flag.has UMODE_OPER then m.oper + 1 else m.oper }

/-- The loop of `nickkilldone`, which skips the sign. -/
def nickModes (t : Text) : NickModes := (t.drop 1).foldl nickLetter ⟨0, 0, 0⟩

/-- The modes after a command: who is no operator has no modes of operators. -/
def keptModes (umodes : Flags) : Flags :=
  if umodes.has (UMODE_OPER ||| UMODE_LOCOP) then umodes
  else umodes &&& (USER_UMODES ||| UMODE_ZOMBIE)

namespace Ircd

/-- `send_umode`: the letters that changed, in the order of `user_modes`; of a local user only those
under the mask. -/
def send_umode (x : Client) (old sendmask : Flags) : Text :=
  ((user_modes.filter fun f => !x.myClient || f.1.has sendmask).foldl
    (fun b f =>
      (b.letterIf (old.has f.1 && !x.umodes.has f.1) '-' f.2).letterIf
        (!old.has f.1 && x.umodes.has f.1) '+' f.2)
    ModeLine.empty).mbuf

/-- `ubuf` of an introduction: the modes that are set, or a plus sign alone. -/
def introUmode (x : Client) (sendmask : Flags) : Text :=
  if send_umode x 0 sendmask = [] then ['+'] else send_umode x 0 sendmask

/-- `send_umode_out`: the servers hear of a change, and the user whose connection it is. -/
def send_umode_out (s : Ircd) (cptr sptr : ClientId) (old : Flags) : Ircd :=
  let x := s.client sptr
  let text := fun letters : Text => line [":", x.name, " MODE ", x.name, " :", letters]
  let letters := send_umode x old ALL_UMODES
  let own := send_umode x old (ALL_UMODES &&& ~~~UMODE_ZOMBIE)
  (s.sendIf (letters ≠ []) (.servButone (some cptr) (text letters))).sendIf
    (own ≠ [] && (s.client cptr).myClient) (.one cptr (text own))

def setCountOper (s : Ircd) (oper : Int) : Ircd := { s with count := { s.count with oper := oper } }

/-- Count a user that became visible or invisible. -/
def countInvisible (s : Ircd) (old new : Flags) : Ircd :=
  let more : Int := if !old.has UMODE_INVISIBLE && new.has UMODE_INVISIBLE then 1 else 0
  let less : Int := if old.has UMODE_INVISIBLE && !new.has UMODE_INVISIBLE then 1 else 0
  { s with count := { s.count with invisi := s.count.invisi + more - less } }

/-- The letters of a `user_mode`. -/
def userModeLetters (s : Ircd) (cptr sptr : ClientId) (parv : List Text) : UserModeState :=
  let x := s.client sptr
  let refuseR := (s.client cptr).myClient && !(s.client cptr).isIdentified
  (parv.drop 2).flatten.foldl (userModeLetter (s.client cptr).isServer refuseR x.myConnect)
    ⟨true, x.umodes, false, s.count.oper, x.flags2⟩

/-- The host of a user, which an operator that is none any more gets back. -/
def hostAfter (s : Ircd) (x : Client) (umodes : Flags) : Text :=
  if !umodes.has (UMODE_OPER ||| UMODE_LOCOP) && x.isAnOper then
    if s.conf.HostSpoofing then s.conf.spoofed x.realhost else x.realhost
  else x.host

/-- Write what the letters made of a user. -/
def setUserMode (s : Ircd) (sptr : ClientId) (m : UserModeState) : Ircd :=
  let x := s.client sptr
  (s.setClient sptr { x with
    umodes := keptModes m.umodes
    host := s.hostAfter x m.umodes
    flags2 := m.flags2 }).setCountOper m.oper

/-- Whether a source may not change these modes. -/
def userModeForeign (s : Ircd) (sptr acptr : ClientId) (parc : Nat) : Bool :=
  let x := s.client sptr
  (x.isServer || sptr ≠ acptr || (s.client acptr).link ≠ x.link) && (parc > 2 || !x.isOper)

/-- `user_mode`; the notice about a refused `+R` is left out. -/
def user_mode (s : Ircd) (cptr sptr : ClientId) (parv : List Text) : Ircd :=
  let source := parv.getD 0 []
  let x := s.client sptr
  if parv.length < 2 then s.send (.reply sptr ERR_NEEDMOREPARAMS [source, "MODE"])
  else
    match s.find_person (parv.getD 1 []) with
    | none => s.sendIf x.myConnect (.reply sptr ERR_NOSUCHNICK [source, parv.getD 1 []])
    | some acptr =>
      if s.userModeForeign sptr acptr parv.length then
        if (s.client cptr).isServer then
          s.send (.ops (line [":", s.meName, " WALLOPS :MODE for User ", parv.getD 1 [], " From ",
            (s.client cptr).name, "!", x.name]))
        else s.send (.reply sptr ERR_USERSDONTMATCH [source])
      else if parv.length < 3 then
        s.send (.reply sptr RPL_UMODEIS [(s.client acptr).name,
          '+' :: (user_modes.filter fun f => (s.client acptr).umodes.has f.1).map Prod.snd])
      else
        let m := s.userModeLetters cptr sptr parv
        (((s.setUserMode sptr m).sendIf (m.badflag && x.myConnect)
          (.reply sptr ERR_UMODEUNKNOWNFLAG [source])).countInvisible x.umodes
            (keptModes m.umodes)).send_umode_out cptr sptr x.umodes

/-- The parameters of an SVSMODE, with a zero for a time stamp that is left out. -/
def svsParams (parv : List Text) : List Text :=
  if parv.length < 4 ∨ ((parv.getD 2 []).head?.map Char.isDigit).getD false = false then
    parv.take 2 ++ "0".toList :: parv.drop 2
  else parv

/-- `m_svsmode`; the new host of an administrator is left out. -/
def m_svsmode (s : Ircd) (cptr sptr : ClientId) (parv : List Text) : Ircd :=
  if !(s.client cptr).isServer || !(s.client sptr).isService then
    s.sendIf (s.client cptr).isServer (.one cptr (line [":", s.meName,
      " WALLOPS :ignoring SVSMODE from non-service ", (s.client sptr).name]))
  else
    let parv := svsParams parv
    if parv.length < 4 then s
    else
      match s.find_person (parv.getD 1 []) with
      | none => s
      | some acptr =>
        let x := s.client acptr
        if x.myClient then
          let ts := atol (parv.getD 2 [])
          if ts ≠ 0 && ts ≠ x.tsinfo then
            s.send (.ops (line ["Unmatched SVSMODE tsinfo for ", parv.getD 1 []]))
          else
            let m := (parv.getD 3 []).foldl svsModeLetter
              ⟨true, x.umodes, false, s.count.oper, x.flags2⟩
            ((s.setClient acptr { x with
              umodes := m.umodes
              flags2 := m.flags2 }).setCountOper m.oper).send_umode_out acptr acptr x.umodes
        else
          s.sendIf (x.link ≠ some cptr) (.one acptr (line [":", parv.getD 0 [], " SVSMODE ",
            parv.getD 1 [], " ", parv.getD 2 [], " ", parv.getD 3 [], " :", parv.getD 4 []]))

/-! ### What a command writes -/

/-- Whether a command gets as far as writing the modes. -/
def RewritesModes (s : Ircd) (u : ClientId) (parv : List Text) : Prop :=
  3 ≤ parv.length ∧ s.find_person (parv.getD 1 []) = some u

variable {s : Ircd} {sptr : ClientId} {parv : List Text}

theorem userModeForeign_self (server : (s.client sptr).isServer = false) (parc : Nat) :
    s.userModeForeign sptr sptr parc = false := by
  unfold userModeForeign
  simp [server]

theorem sendIf_eq (s : Ircd) (p : Bool) (event : Sent) :
    ∃ sent, s.sendIf p event = { s with sent := sent } := by
  unfold sendIf
  split
  · exact ⟨_, rfl⟩
  · exact ⟨s.sent, rfl⟩

theorem sendIf_sent (s : Ircd) (p : Bool) (event : Sent) :
    (s.sendIf p event).sent = s.sent ++ if p then [event] else [] := by
  cases p
  · exact (List.append_nil _).symm
  · rfl

theorem send_umode_out_eq (s : Ircd) (cptr sptr : ClientId) (old : Flags) :
    ∃ sent, s.send_umode_out cptr sptr old = { s with sent := sent } := by
  unfold send_umode_out
  simp only []
  generalize line [_, _, _, _, _, send_umode _ _ (ALL_UMODES &&& ~~~UMODE_ZOMBIE)] = own
  obtain ⟨first, same⟩ := s.sendIf_eq (send_umode (s.client sptr) old ALL_UMODES ≠ [])
    (.servButone (some cptr) (line [":", (s.client sptr).name, " MODE ", (s.client sptr).name, " :",
      send_umode (s.client sptr) old ALL_UMODES]))
  rw [same]
  obtain ⟨second, same⟩ := sendIf_eq { s with sent := first }
    (send_umode (s.client sptr) old (ALL_UMODES &&& ~~~UMODE_ZOMBIE) ≠ [] && (s.client cptr).myClient)
    (.one cptr own)
  rw [same]
  exact ⟨second, rfl⟩

/-- **A command that writes the modes**, apart from the log. -/
theorem user_mode_eq (cptr : ClientId) (written : s.RewritesModes sptr parv)
    (server : (s.client sptr).isServer = false) :
    let m := s.userModeLetters cptr sptr parv
    ∃ sent, s.user_mode cptr sptr parv =
      { (s.setUserMode sptr m).countInvisible (s.client sptr).umodes (keptModes m.umodes) with
        sent := sent } := by
  have foreign := userModeForeign_self server parv.length
  unfold user_mode
  simp only []
  rw [if_neg (by have := written.1; omega), written.2]
  simp only []
  rw [foreign, if_neg Bool.false_ne_true, if_neg (by have := written.1; omega)]
  generalize s.userModeLetters cptr sptr parv = m
  obtain ⟨told, same⟩ := (s.setUserMode sptr m).sendIf_eq (m.badflag && (s.client sptr).myConnect)
    (.reply sptr ERR_UMODEUNKNOWNFLAG [parv.getD 0 []])
  rw [same]
  obtain ⟨out, same⟩ := send_umode_out_eq
    (({ s.setUserMode sptr m with sent := told } : Ircd).countInvisible (s.client sptr).umodes
      (keptModes m.umodes)) cptr sptr (s.client sptr).umodes
  rw [same]
  exact ⟨out, rfl⟩

theorem user_mode_written (cptr : ClientId) (written : s.RewritesModes sptr parv)
    (server : (s.client sptr).isServer = false) :
    let m := s.userModeLetters cptr sptr parv
    ((s.user_mode cptr sptr parv).client sptr).umodes = keptModes m.umodes ∧
      ((s.user_mode cptr sptr parv).client sptr).flags2 = m.flags2 := by
  obtain ⟨sent, same⟩ := user_mode_eq cptr written server
  simp only []
  rw [same]
  show (Function.update s.client sptr _ sptr).umodes = _ ∧
    (Function.update s.client sptr _ sptr).flags2 = _
  rw [Function.update_self]
  exact ⟨rfl, rfl⟩

/-- **A command that does not get as far**, apart from the log. -/
theorem user_mode_unwritten (cptr : ClientId) (untouched : ¬ s.RewritesModes sptr parv) :
    ∃ sent, s.user_mode cptr sptr parv = { s with sent := sent } := by
  unfold user_mode
  simp only []
  split
  · exact ⟨_, rfl⟩
  · split
    · exact s.sendIf_eq ..
    · rename_i acptr found
      split
      · split <;> exact ⟨_, rfl⟩
      · rename_i accepted
        split
        · exact ⟨_, rfl⟩
        · rename_i params
          refine absurd ⟨by omega, ?_⟩ untouched
          by_contra other
          refine accepted ?_
          have ne : sptr ≠ acptr := fun same => other (same ▸ found)
          unfold userModeForeign
          have long : 2 < parv.length := by omega
          simp [ne, long]

end Ircd

end PtlinkIrcd
