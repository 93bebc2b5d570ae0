/-
**NEWMASK.**

`m_newmask` of `spoof.c`, at the server where the request is made and at a peer that gets its relay.

* `m_newmask` — the function.
* `NewmaskPeer` — a peer that knows the source and has the target with the same host and username.
* `Newmask.Sound` — **a request is rejected and changes nothing, or applied as given, and its relay makes
  the same change at every peer**.
* `newmask_sound_iff` — that is so unless a good host comes with a bad user, or a `+host` with the name
  of the sender is as long as the buffer for it.
-/

import PtlinkIrcd.Channel.Runs
import PtlinkIrcd.Model.Names

namespace PtlinkIrcd

/-! ### The request -/

/-- The user and the host of a mask; without an `@` it is a host. -/
def splitMask (mask : Text) : Option Text × Text :=
  if '@' ∈ mask then (some (mask.takeWhile (· ≠ '@')), (mask.dropWhile (· ≠ '@')).tail)
  else (none, mask)

/-- The host with the name of the sender in front of what follows a plus, as `paramhost` takes it. -/
def paramhost (sender newhost : Text) : Text :=
  if newhost.head? = some '+' then (sender ++ '.' :: newhost.tail).take (HOSTLEN - 1) else newhost

/-- The checks of the host, or the note of an error. -/
def newmaskHost (sender newhost : Text) : Except Text (Option Text) :=
  if newhost = [] then .ok none
  else if newhost.head? = some '+' ∧ HOSTLEN < newhost.length + sender.length then
    .error "Error: Hostname too long"
  else if HOSTLEN < (paramhost sender newhost).length then .error "Error: Hostname too long"
  else if !valid_hostname (paramhost sender newhost) then .error "Error: Invalid hostname"
  else .ok (some (paramhost sender newhost))

def newmaskUser (newuser : Option Text) : Except Text (Option Text) :=
  if newuser.getD [] = [] then .ok none
  else if USERLEN < (newuser.getD []).length then .error "Error: username too long"
  else if !valid_username (newuser.getD []) then .error "Error: Invalid username"
  else .ok newuser

namespace Ircd

variable (s : Ircd)

def setHost (acptr : ClientId) (newhost : Option Text) : Ircd :=
  match newhost with
  | none => s
  | some newhost => s.setClient acptr { s.client acptr with host := newhost }

def setUsername (acptr : ClientId) (newuser : Option Text) : Ircd :=
  match newuser with
  | none => s
  | some newuser => s.setClient acptr { s.client acptr with username := newuser }

/-- A notice of `m_newmask`. `mename` is the server, or the virtual link that the source is on. -/
def newmaskNote (mename nick note : Text) : Text :=
  ([":", mename, " NOTICE ", nick, " :*** ", note] : List Text).flatten

def newmaskTargeted (sptr : ClientId) (parv : List Text) : Bool :=
  (s.client sptr).isService && 2 < parv.length

def newmaskTarget (sptr : ClientId) (parv : List Text) : Option ClientId :=
  if !(s.client sptr).myClient && s.newmaskTargeted sptr parv then s.find_client (parv.getD 2 [])
  else some sptr

def newmaskRelay (sptr acptr : ClientId) (parv : List Text) (newuser newhost : Option Text) : Text :=
  let mask := newuser.getD [] ++ '@' :: newhost.getD []
  if s.newmaskTargeted sptr parv then
    ':' :: ((s.client sptr).name ++ ' ' :: ("NEWMASK".toList ++
      ' ' :: (mask ++ ' ' :: (s.client acptr).name)))
  else ':' :: (parv.getD 0 [] ++ ' ' :: ("NEWMASK".toList ++ ' ' :: mask))

/-- Whether the source may not change masks. -/
def newmaskRefused (OperCanUseNewMask : Bool) (cptr sptr : ClientId) : Bool :=
  let x := s.client sptr
  x.myClient && cptr ≠ me && (!x.isAnOper && !x.isAdmin || !OperCanUseNewMask)

def m_newmask (OperCanUseNewMask : Bool) (mename : Text) (cptr sptr : ClientId) (parv : List Text) :
    Ircd × Int :=
  let sender := parv.getD 0 []
  let mine := (s.client sptr).myClient
  if s.newmaskRefused OperCanUseNewMask cptr sptr then (s.send (.reply sptr ERR_NOPRIVILEGES []), -1)
  else
    match s.newmaskTarget sptr parv with
    | none => (s, -1)
    | some acptr =>
      if parv.length < 2 ∨ parv.getD 1 [] = [] then
        (s.sendIf mine (.one sptr
          (newmaskNote mename sender "Syntax: /NEWMASK <user@host|user@|host>")), 0)
      else
        match newmaskHost sender (splitMask (parv.getD 1 [])).2 with
        | .error note => (s.send (.one sptr (newmaskNote mename sender note)), -1)
        | .ok newhost =>
          let s := s.setHost acptr newhost
          match newmaskUser (splitMask (parv.getD 1 [])).1 with
          | .error note => (s.send (.one sptr (newmaskNote mename sender note)), -1)
          | .ok newuser =>
            let s := s.setUsername acptr newuser
            let s := s.send (.servButone (some cptr) (s.newmaskRelay sptr acptr parv newuser newhost))
            let y := s.client acptr
            (s.sendIf y.myClient (.one acptr (newmaskNote mename y.name
              (["New mask: ", [Char.ofNat 2], y.name, " (", y.username, "@", y.host, ")",
                [Char.ofNat 2]] : List Text).flatten)), 0)

end Ircd

/-! ### What a request asks for -/

/-- A request at a server. -/
structure Newmask where
  s : Ircd
  OperCanUseNewMask : Bool
  mename : Text
  cptr : ClientId
  sptr : ClientId
  parv : List Text

/-- **A peer**: it has the source of the relay behind the link, as no client of its own, and the target
with the same host and username. -/
structure NewmaskPeer (r : Newmask) (acptr : ClientId) (t : Ircd) (link source target : ClientId) :
    Prop where
  knows : Knows t link
    (if r.s.newmaskTargeted r.sptr r.parv then (r.s.client r.sptr).name else r.parv.getD 0 []) source
  remote : (t.client source).myClient = false
  service : (t.client source).isService = (r.s.client r.sptr).isService
  finds : if r.s.newmaskTargeted r.sptr r.parv then
    t.find_client (r.s.client acptr).name = some target else target = source
  host : (t.client target).host = (r.s.client acptr).host
  username : (t.client target).username = (r.s.client acptr).username

namespace Newmask

variable (r : Newmask)

def out : Ircd := (r.s.m_newmask r.OperCanUseNewMask r.mename r.cptr r.sptr r.parv).1

def sender : Text := r.parv.getD 0 []

def newuser : Option Text := (splitMask (r.parv.getD 1 [])).1
def newhost : Text := (splitMask (r.parv.getD 1 [])).2

/-- The host that the request asks for, in full. -/
def host (old : Text) : Text :=
  if r.newhost = [] then old
  else if r.newhost.head? = some '+' then r.sender ++ '.' :: r.newhost.tail
  else r.newhost

def username (old : Text) : Text := if r.newuser.getD [] = [] then old else r.newuser.getD []

def newly : List Sent := r.out.sent.drop r.s.sent.length

/-- The request is rejected: nothing changes, and nothing is relayed. -/
structure Rejected : Prop where
  client : r.out.client = r.s.client
  relayed : ∀ one line, .servButone one line ∉ r.newly

/-- The request is applied, and its relay makes the same change at every peer. -/
structure Applied (acptr : ClientId) : Prop where
  host : (r.out.client acptr).host = r.host (r.s.client acptr).host
  username : (r.out.client acptr).username = r.username (r.s.client acptr).username
  relayed : ∃ line, .servButone (some r.cptr) line ∈ r.newly ∧
    ∀ (t : Ircd) (link source target : ClientId) (OperCanUseNewMask : Bool) (mename : Text),
      NewmaskPeer r acptr t link source target → ∃ parv,
        t.parse link (wire line) = .message source "NEWMASK".toList parv ∧
        let t' := (t.m_newmask OperCanUseNewMask mename link source parv).1
        (t'.client target).host = (r.out.client acptr).host ∧
          (t'.client target).username = (r.out.client acptr).username

/-- **A request is rejected, or applied here and at every peer.** -/
def Sound : Prop :=
  r.Rejected ∨ ∃ acptr, r.s.newmaskTarget r.sptr r.parv = some acptr ∧ r.Applied acptr

/-- The request comes to the checks of its mask, for that target. -/
structure Checked (acptr : ClientId) : Prop where
  allowed : r.s.newmaskRefused r.OperCanUseNewMask r.cptr r.sptr = false
  target : r.s.newmaskTarget r.sptr r.parv = some acptr
  mask : 2 ≤ r.parv.length ∧ r.parv.getD 1 [] ≠ []

end Newmask

/-! ### The parts of a mask -/

theorem splitMask_join {user : Text} (word : '@' ∉ user) (host : Text) :
    splitMask (user ++ '@' :: host) = (some user, host) := by
  have before : ∀ c ∈ user, decide (c ≠ '@') = true := fun c member =>
    decide_eq_true fun same => word (same ▸ member)
  rw [splitMask, if_pos (List.mem_append_right user List.mem_cons_self),
    List.takeWhile_append_of_pos before, List.dropWhile_append_of_pos before,
    List.takeWhile_cons, if_neg (by decide), List.dropWhile_cons, if_neg (by decide), List.append_nil]
  rfl

theorem ne_of_isHostChar {c : Char} (good : IsHostChar c = true) : c ≠ '+' ∧ c ≠ ' ' := by
  constructor <;> rintro rfl <;> exact absurd good (by decide)

theorem ne_of_isUserChar {c : Char} (good : IsUserChar c = true) : c ≠ '@' ∧ c ≠ ' ' ∧ c ≠ ':' := by
  refine ⟨?_, ?_, ?_⟩ <;> rintro rfl <;> exact absurd good (by decide)

theorem newmaskHost_spec {sender newhost : Text} {found : Option Text}
    (passed : newmaskHost sender newhost = .ok found) :
    (newhost = [] ∧ found = none) ∨ (newhost ≠ [] ∧ found = some (paramhost sender newhost) ∧
      (newhost.head? = some '+' → newhost.length + sender.length ≤ HOSTLEN) ∧
      (paramhost sender newhost).length ≤ HOSTLEN ∧ valid_hostname (paramhost sender newhost) = true) := by
  unfold newmaskHost at passed
  split_ifs at passed with empty long_ tooLong invalid
  · exact .inl ⟨empty, (Except.ok.inj passed).symm⟩
  · exact .inr ⟨empty, (Except.ok.inj passed).symm, fun plus => by
      by_contra longer
      exact long_ ⟨plus, by omega⟩, by omega, by simpa using invalid⟩

theorem valid_hostname_ne_nil {host : Text} (valid : valid_hostname host = true) : host ≠ [] := by
  rintro rfl
  exact absurd valid (by decide)

/-- **A host that passed the checks passes them again**, whoever sends it. -/
theorem newmaskHost_again {sender newhost : Text} {found : Option Text}
    (passed : newmaskHost sender newhost = .ok found) (other : Text) :
    newmaskHost other (found.getD []) = .ok found := by
  rcases newmaskHost_spec passed with ⟨-, rfl⟩ | ⟨-, rfl, -, fits, valid⟩
  · rfl
  · have some_ := valid_hostname_ne_nil valid
    have noPlus : (paramhost sender newhost).head? ≠ some '+' := by
      intro plus
      exact (ne_of_isHostChar (valid_hostname_all valid '+' (List.mem_of_head? plus))).1 rfl
    have same : paramhost other (paramhost sender newhost) = paramhost sender newhost := by
      rw [paramhost, if_neg noPlus]
    rw [Option.getD_some, newmaskHost, if_neg some_, if_neg (fun both => noPlus both.1), same,
      if_neg (by omega), valid]
    rfl

theorem newmaskUser_spec {newuser found : Option Text} (passed : newmaskUser newuser = .ok found) :
    (newuser.getD [] = [] ∧ found = none) ∨ (newuser.getD [] ≠ [] ∧ found = newuser ∧
      (newuser.getD []).length ≤ USERLEN ∧ valid_username (newuser.getD []) = true) := by
  unfold newmaskUser at passed
  split_ifs at passed with empty tooLong invalid
  · exact .inl ⟨empty, (Except.ok.inj passed).symm⟩
  · exact .inr ⟨empty, (Except.ok.inj passed).symm, by omega, by simpa using invalid⟩

theorem newmaskUser_again {newuser found : Option Text} (passed : newmaskUser newuser = .ok found) :
    newmaskUser (some (found.getD [])) = .ok found := by
  rcases newmaskUser_spec passed with ⟨-, rfl⟩ | ⟨some_, rfl, fits, valid⟩
  · rfl
  · cases found with
    | none => exact absurd rfl some_
    | some user =>
      rw [Option.getD_some] at some_ fits valid
      rw [newmaskUser, Option.getD_some, Option.getD_some, if_neg some_, if_neg (by omega), valid]
      rfl

/-- **The relayed mask is one word, and splits into its parts.** -/
theorem relayed_mask {sender newhost : Text} {newuser host user : Option Text}
    (hosted : newmaskHost sender newhost = .ok host) (used : newmaskUser newuser = .ok user) :
    IsMiddle (user.getD [] ++ '@' :: host.getD []) ∧
      (user.getD [] ++ '@' :: host.getD []).length ≤ USERLEN + 1 + HOSTLEN ∧
      splitMask (user.getD [] ++ '@' :: host.getD []) = (some (user.getD []), host.getD []) := by
  obtain ⟨hostWord, hostFits⟩ : ' ' ∉ host.getD [] ∧ (host.getD []).length ≤ HOSTLEN := by
    rcases newmaskHost_spec hosted with ⟨-, rfl⟩ | ⟨-, rfl, -, fits, valid⟩
    · exact ⟨List.not_mem_nil, Nat.zero_le _⟩
    · exact ⟨fun blank => (ne_of_isHostChar (valid_hostname_all valid ' ' blank)).2 rfl, fits⟩
  obtain ⟨userChars, userFits⟩ : (∀ c ∈ user.getD [], c ≠ '@' ∧ c ≠ ' ' ∧ c ≠ ':') ∧
      (user.getD []).length ≤ USERLEN := by
    rcases newmaskUser_spec used with ⟨-, rfl⟩ | ⟨-, rfl, fits, valid⟩
    · exact ⟨nofun, Nat.zero_le _⟩
    · exact ⟨fun c member => ne_of_isUserChar (valid_username_all valid c member), fits⟩
  refine ⟨⟨by simp, ?_, ?_⟩, ?_, splitMask_join (fun inside => (userChars '@' inside).1 rfl) _⟩
  · rw [List.mem_append, List.mem_cons, not_or, not_or]
    exact ⟨fun inside => (userChars ' ' inside).2.1 rfl, by decide, hostWord⟩
  · cases start : user.getD [] with
    | nil => exact fun colon => absurd (Option.some.inj colon) (by decide)
    | cons c rest => exact fun colon => (userChars c (start ▸ List.mem_cons_self)).2.2 (Option.some.inj colon)
  · rw [List.length_append, List.length_cons]
    omega

/-! ### The change -/

namespace Ircd

variable {s : Ircd} {acptr : ClientId} {host user : Option Text}

theorem setHost_client : (s.setHost acptr host).client =
    Function.update s.client acptr
      { s.client acptr with host := host.getD (s.client acptr).host } := by
  cases host with
  | none => exact (Function.update_eq_self acptr s.client).symm
  | some host => rfl

theorem setUsername_client : (s.setUsername acptr user).client =
    Function.update s.client acptr
      { s.client acptr with username := user.getD (s.client acptr).username } := by
  cases user with
  | none => exact (Function.update_eq_self acptr s.client).symm
  | some user => rfl

@[simp] theorem setHost_sent : (s.setHost acptr host).sent = s.sent := by
  cases host <;> rfl

@[simp] theorem setUsername_sent : (s.setUsername acptr user).sent = s.sent := by
  cases user <;> rfl

theorem masked_client : ((s.setHost acptr host).setUsername acptr user).client =
    Function.update s.client acptr { s.client acptr with
      host := host.getD (s.client acptr).host
      username := user.getD (s.client acptr).username } := by
  rw [setUsername_client, setHost_client, Function.update_self, Function.update_idem]

theorem masked_same (c : ClientId) :
    (((s.setHost acptr host).setUsername acptr user).client c).name = (s.client c).name ∧
      (((s.setHost acptr host).setUsername acptr user).client c).isService = (s.client c).isService ∧
      (((s.setHost acptr host).setUsername acptr user).client c).myClient = (s.client c).myClient := by
  rw [masked_client]
  by_cases same : c = acptr
  · subst same
    rw [Function.update_self]
    exact ⟨rfl, rfl, rfl⟩
  · rw [Function.update_of_ne same]
    exact ⟨rfl, rfl, rfl⟩

theorem masked_relay (sptr c : ClientId) (parv : List Text) (newuser newhost : Option Text) :
    ((s.setHost acptr host).setUsername acptr user).newmaskRelay sptr c parv newuser newhost =
      s.newmaskRelay sptr c parv newuser newhost := by
  unfold newmaskRelay newmaskTargeted
  rw [(masked_same sptr).1, (masked_same sptr).2.1, (masked_same c).1]

variable (s) in
/-- **A request that passes all checks.** -/
theorem m_newmask_passed (OperCanUseNewMask : Bool) (mename : Text) {cptr sptr : ClientId}
    {parv : List Text} (allowed : s.newmaskRefused OperCanUseNewMask cptr sptr = false)
    (target : s.newmaskTarget sptr parv = some acptr) (mask : 2 ≤ parv.length ∧ parv.getD 1 [] ≠ [])
    (hosted : newmaskHost (parv.getD 0 []) (splitMask (parv.getD 1 [])).2 = .ok host)
    (used : newmaskUser (splitMask (parv.getD 1 [])).1 = .ok user) :
    let out := (s.m_newmask OperCanUseNewMask mename cptr sptr parv).1
    out.client = ((s.setHost acptr host).setUsername acptr user).client ∧
      ∃ notes, out.sent =
        s.sent ++ .servButone (some cptr) (s.newmaskRelay sptr acptr parv user host) :: notes := by
  have some_ : ¬ (parv.length < 2 ∨ parv.getD 1 [] = []) := by
    rintro (short_ | empty)
    · omega
    · exact mask.2 empty
  dsimp only
  unfold m_newmask
  rw [allowed, target]
  simp only [Bool.false_eq_true, if_false, if_neg some_, hosted, used, masked_relay]
  rw [sendIf_client, sendIf_sent]
  exact ⟨rfl, _, by simp only [send, setUsername_sent, setHost_sent, List.append_assoc]; rfl⟩

end Ircd

/-! ### The peer -/

section Peer

variable {r : Newmask} {acptr : ClientId} {t : Ircd} {link source target : ClientId}
  {host user : Option Text}

theorem isCommand_newmask : IsCommand "NEWMASK".toList :=
  ⟨by decide, by decide, by rintro c ⟨⟩; decide, by decide⟩

theorem NewmaskPeer.parse (peer : NewmaskPeer r acptr t link source target)
    (sender : IsName r.sender) (name : IsName (r.s.client r.sptr).name)
    (theirs : IsName (r.s.client acptr).name) (hosted : newmaskHost r.sender r.newhost = .ok host)
    (used : newmaskUser r.newuser = .ok user) :
    t.parse link (wire (r.s.newmaskRelay r.sptr acptr r.parv user host)) =
      .message source "NEWMASK".toList
        (if r.s.newmaskTargeted r.sptr r.parv then
          [(r.s.client r.sptr).name, user.getD [] ++ '@' :: host.getD [], (r.s.client acptr).name]
        else [r.sender, user.getD [] ++ '@' :: host.getD []]) := by
  obtain ⟨word, fits, -⟩ := relayed_mask hosted used
  have limits : USERLEN = 10 ∧ HOSTLEN = 63 ∧ BUFSIZE = 512 := ⟨rfl, rfl, rfl⟩
  have command : "NEWMASK".toList.length = 7 := rfl
  have knows := peer.knows
  unfold Ircd.newmaskRelay wire
  by_cases targeted : r.s.newmaskTargeted r.sptr r.parv = true
  · rw [if_pos targeted] at knows
    simp only [if_pos targeted]
    rw [List.take_of_length_le]
    · rw [knows.parse name isCommand_newmask, show MAXPARA - 1 = 12 + 2 from rfl,
        params_middle word, params_word theirs.toIsMiddle]
    · have := name.fits
      have := theirs.fits
      simp only [List.length_cons, List.length_append, command] at fits ⊢
      omega
  · rw [if_neg targeted] at knows
    simp only [if_neg targeted]
    rw [List.take_of_length_le]
    · rw [knows.parse sender isCommand_newmask, show MAXPARA - 1 = 13 + 1 from rfl, params_word word]
      rfl
    · have : (r.parv.getD 0 []).length ≤ HOSTLEN := sender.fits
      simp only [List.length_cons, List.length_append, command] at fits ⊢
      omega

/-- **The peer makes the same change.** -/
theorem NewmaskPeer.applies (peer : NewmaskPeer r acptr t link source target)
    (hosted : newmaskHost r.sender r.newhost = .ok host) (used : newmaskUser r.newuser = .ok user)
    (OperCanUseNewMask : Bool) (mename : Text) {parv : List Text}
    (read : parv = if r.s.newmaskTargeted r.sptr r.parv then
      [(r.s.client r.sptr).name, user.getD [] ++ '@' :: host.getD [], (r.s.client acptr).name]
      else [r.sender, user.getD [] ++ '@' :: host.getD []]) :
    let t' := (t.m_newmask OperCanUseNewMask mename link source parv).1
    (t'.client target).host = host.getD (r.s.client acptr).host ∧
      (t'.client target).username = user.getD (r.s.client acptr).username := by
  obtain ⟨-, -, split⟩ := relayed_mask hosted used
  have allowed : t.newmaskRefused OperCanUseNewMask link source = false := by
    rw [Ircd.newmaskRefused, peer.remote]
    rfl
  have finds := peer.finds
  have service := peer.service
  obtain ⟨mask, long_, found⟩ : parv.getD 1 [] = user.getD [] ++ '@' :: host.getD [] ∧
      2 ≤ parv.length ∧ t.newmaskTarget source parv = some target := by
    unfold Ircd.newmaskTarget
    by_cases targeted : r.s.newmaskTargeted r.sptr r.parv = true
    · rw [if_pos targeted] at read finds
      have service' : (r.s.client r.sptr).isService = true := by
        rw [Ircd.newmaskTargeted, Bool.and_eq_true] at targeted
        exact targeted.1
      subst read
      refine ⟨rfl, by simp, ?_⟩
      rw [if_pos (by simp [peer.remote, Ircd.newmaskTargeted, service, service'])]
      exact finds
    · rw [if_neg targeted] at read finds
      subst read
      refine ⟨rfl, by simp, ?_⟩
      rw [if_neg (by simp [Ircd.newmaskTargeted]), finds]
  obtain ⟨client, -⟩ := t.m_newmask_passed OperCanUseNewMask mename
    allowed found ⟨long_, by rw [mask]; simp⟩
    (by rw [mask, split]; exact newmaskHost_again hosted (parv.getD 0 []))
    (by rw [mask, split]; exact newmaskUser_again used)
  dsimp only
  rw [client, Ircd.masked_client, Function.update_self]
  exact ⟨by rw [← peer.host], by rw [← peer.username]⟩

end Peer

/-! ### Rejections -/

namespace Newmask

variable {r : Newmask} {acptr : ClientId} {host user : Option Text} {note : Text}

theorem newly_eq {notes : List Sent} (sent : r.out.sent = r.s.sent ++ notes) : r.newly = notes := by
  rw [newly, sent, List.drop_left]

/-- A request that does not come to the checks of its mask is rejected. -/
theorem rejected_of_not_checked (stopped : ∀ acptr, ¬ r.Checked acptr) : r.Rejected := by
  cases refused : r.s.newmaskRefused r.OperCanUseNewMask r.cptr r.sptr with
  | true =>
    have out_ : r.out = r.s.send (.reply r.sptr ERR_NOPRIVILEGES []) := by
      rw [out, Ircd.m_newmask, if_pos refused]
    exact ⟨by rw [out_]; rfl, by rw [newly_eq (congrArg Ircd.sent out_)]; simp⟩
  | false =>
    cases target : r.s.newmaskTarget r.sptr r.parv with
    | none =>
      have out_ : r.out = r.s := by
        simp only [out, Ircd.m_newmask, refused, target, Bool.false_eq_true, if_false]
      have nothing : r.newly = [] := newly_eq (by rw [out_, List.append_nil])
      exact ⟨by rw [out_], by rw [nothing]; simp⟩
    | some acptr =>
      have mask : r.parv.length < 2 ∨ r.parv.getD 1 [] = [] := by
        by_contra both
        rw [not_or] at both
        exact stopped acptr ⟨refused, target, by omega, both.2⟩
      have out_ : r.out = r.s.sendIf (r.s.client r.sptr).myClient (.one r.sptr
          (Ircd.newmaskNote r.mename r.sender "Syntax: /NEWMASK <user@host|user@|host>")) := by
        simp only [out, Ircd.m_newmask, refused, target, if_pos mask, Bool.false_eq_true, if_false]
        rfl
      have sent := congrArg Ircd.sent out_
      rw [Ircd.sendIf_sent] at sent
      refine ⟨by rw [out_, Ircd.sendIf_client], ?_⟩
      rw [newly_eq sent]
      split <;> simp

/-- **A request whose host does not pass is rejected.** -/
theorem rejected_of_badHost (checked : r.Checked acptr)
    (bad : newmaskHost r.sender r.newhost = .error note) : r.Rejected := by
  obtain ⟨allowed, target, long_, some_⟩ := checked
  have mask : ¬ (r.parv.length < 2 ∨ r.parv.getD 1 [] = []) := by
    rintro (short_ | empty)
    · omega
    · exact some_ empty
  have out_ : r.out = r.s.send (.one r.sptr (Ircd.newmaskNote r.mename r.sender note)) := by
    unfold sender newhost at bad
    simp only [out, Ircd.m_newmask, allowed, target, if_neg mask, bad, Bool.false_eq_true, if_false]
    rfl
  exact ⟨by rw [out_]; rfl, by rw [newly_eq (congrArg Ircd.sent out_)]; simp⟩

/-- **A user that does not pass is told to the source, but the host stays.** -/
theorem out_of_badUser (checked : r.Checked acptr)
    (hosted : newmaskHost r.sender r.newhost = .ok host) (bad : newmaskUser r.newuser = .error note) :
    r.out.client = (r.s.setHost acptr host).client ∧
      r.newly = [.one r.sptr (Ircd.newmaskNote r.mename r.sender note)] := by
  obtain ⟨allowed, target, long_, some_⟩ := checked
  have mask : ¬ (r.parv.length < 2 ∨ r.parv.getD 1 [] = []) := by
    rintro (short_ | empty)
    · omega
    · exact some_ empty
  have out_ : r.out = (r.s.setHost acptr host).send
      (.one r.sptr (Ircd.newmaskNote r.mename r.sender note)) := by
    unfold sender newhost at hosted
    unfold newuser at bad
    simp only [out, Ircd.m_newmask, allowed, target, if_neg mask, hosted, bad, Bool.false_eq_true,
      if_false]
    rfl
  refine ⟨by rw [out_]; rfl, newly_eq ?_⟩
  rw [out_, Ircd.send, Ircd.setHost_sent]

/-- **A request that passes is relayed.** -/
theorem out_of_passed (checked : r.Checked acptr)
    (hosted : newmaskHost r.sender r.newhost = .ok host) (used : newmaskUser r.newuser = .ok user) :
    r.out.client acptr = { r.s.client acptr with
        host := host.getD (r.s.client acptr).host
        username := user.getD (r.s.client acptr).username } ∧
      .servButone (some r.cptr) (r.s.newmaskRelay r.sptr acptr r.parv user host) ∈ r.newly := by
  obtain ⟨client, notes, sent⟩ := r.s.m_newmask_passed r.OperCanUseNewMask r.mename checked.allowed
    checked.target checked.mask hosted used
  refine ⟨?_, ?_⟩
  · rw [out, client, Ircd.masked_client, Function.update_self]
  · rw [newly_eq sent]
    exact List.mem_cons_self

/-! ### All or nothing, here and at a peer -/

/-- The host is stored as given unless a `+host` and the name of the sender fill the buffer. -/
theorem host_eq_iff (hosted : newmaskHost r.sender r.newhost = .ok host) (old : Text) :
    host.getD old = r.host old ↔
      ¬ (r.newhost.head? = some '+' ∧ r.newhost.length + r.sender.length = HOSTLEN) := by
  unfold Newmask.host
  rcases newmaskHost_spec hosted with ⟨empty, rfl⟩ | ⟨some_, rfl, fits, -, -⟩
  · rw [if_pos empty, empty]
    exact iff_of_true rfl (by simp)
  · rw [if_neg some_, Option.getD_some, paramhost]
    by_cases plus : r.newhost.head? = some '+'
    · have length : (r.sender ++ '.' :: r.newhost.tail).length =
          r.newhost.length + r.sender.length := by
        have := List.length_pos_iff.mpr some_
        rw [List.length_append, List.length_cons, List.length_tail]
        omega
      have := fits plus
      have limit : HOSTLEN = 63 := rfl
      rw [if_pos plus, if_pos plus, List.take_eq_self_iff, length, and_iff_right plus]
      omega
    · rw [if_neg plus, if_neg plus]
      exact iff_of_true rfl fun both => plus both.1

theorem username_eq (used : newmaskUser r.newuser = .ok user) (old : Text) :
    user.getD old = r.username old := by
  unfold Newmask.username
  rcases newmaskUser_spec used with ⟨empty, rfl⟩ | ⟨some_, rfl, -, -⟩
  · rw [if_pos empty]
    rfl
  · rw [if_neg some_]
    cases named : r.newuser with
    | none => exact absurd (by rw [named]; rfl) some_
    | some user => rfl

/-- A user that does not pass, with a host that is none or the old one. -/
theorem rejected_of_badUser (checked : r.Checked acptr)
    (hosted : newmaskHost r.sender r.newhost = .ok host) (bad : newmaskUser r.newuser = .error note)
    (old : host.getD (r.s.client acptr).host = (r.s.client acptr).host) : r.Rejected := by
  obtain ⟨client, newly⟩ := out_of_badUser checked hosted bad
  refine ⟨?_, by rw [newly]; simp⟩
  rw [client, Ircd.setHost_client, old]
  exact Function.update_eq_self ..

theorem applied_of_passed (checked : r.Checked acptr) (sender : IsName r.sender)
    (name : IsName (r.s.client r.sptr).name) (theirs : IsName (r.s.client acptr).name)
    (hosted : newmaskHost r.sender r.newhost = .ok host) (used : newmaskUser r.newuser = .ok user)
    (whole : ¬ (r.newhost.head? = some '+' ∧ r.newhost.length + r.sender.length = HOSTLEN)) :
    r.Applied acptr := by
  obtain ⟨client, relayed⟩ := out_of_passed checked hosted used
  refine ⟨?_, ?_, _, relayed, fun t link source target OperCanUseNewMask mename peer => ?_⟩
  · rw [client]
    exact (host_eq_iff hosted _).mpr whole
  · rw [client]
    exact username_eq used _
  · refine ⟨_, peer.parse sender name theirs hosted used, ?_⟩
    rw [client]
    exact peer.applies hosted used OperCanUseNewMask mename rfl

theorem Sound.host_eq {newhost : Text} (sound : r.Sound) (checked : r.Checked acptr)
    (hosted : newmaskHost r.sender r.newhost = .ok (some newhost))
    (bad : newmaskUser r.newuser = .error note) : newhost = (r.s.client acptr).host := by
  obtain ⟨client, newly⟩ := out_of_badUser checked hosted bad
  rcases sound with rejected | ⟨_, _, applied⟩
  · have stored := congrArg Client.host (congrFun (client.symm.trans rejected.client) acptr)
    rwa [Ircd.setHost_client, Function.update_self] at stored
  · obtain ⟨line, relayed, -⟩ := applied.relayed
    rw [newly] at relayed
    simp at relayed

/-- **A request is rejected, or applied here and at every peer**, unless its host passes and its user does
not while the host is a new one, or both pass and a `+host` fills the buffer with the name of its
sender. -/
theorem newmask_sound_iff (r : Newmask) (sender : IsName r.sender)
    (name : IsName (r.s.client r.sptr).name)
    (theirs : ∀ acptr, r.s.newmaskTarget r.sptr r.parv = some acptr → IsName (r.s.client acptr).name) :
    r.Sound ↔ ∀ acptr newhost, r.Checked acptr →
      newmaskHost r.sender r.newhost = .ok (some newhost) →
        ((∃ note, newmaskUser r.newuser = .error note) → newhost = (r.s.client acptr).host) ∧
        ((∃ newuser, newmaskUser r.newuser = .ok newuser) →
          ¬ (r.newhost.head? = some '+' ∧ r.newhost.length + r.sender.length = HOSTLEN)) := by
  constructor
  · intro sound acptr newhost checked hosted
    constructor
    · exact fun ⟨_, bad⟩ => sound.host_eq checked hosted bad
    · rintro ⟨newuser, used⟩
      obtain ⟨client, relayed⟩ := out_of_passed checked hosted used
      rcases sound with rejected | ⟨acptr', target, applied⟩
      · exact absurd relayed (rejected.relayed _ _)
      · obtain rfl := Option.some.inj (target.symm.trans checked.target)
        have stored := applied.host
        rw [client] at stored
        exact (host_eq_iff hosted _).mp stored
  · intro spared
    by_cases stopped : ∀ acptr, ¬ r.Checked acptr
    · exact .inl (rejected_of_not_checked stopped)
    · obtain ⟨acptr, checked⟩ : ∃ acptr, r.Checked acptr := by
        simpa only [not_forall, not_not] using stopped
      cases hosted : newmaskHost r.sender r.newhost with
      | error note => exact .inl (rejected_of_badHost checked hosted)
      | ok host =>
        cases used : newmaskUser r.newuser with
        | error note =>
          refine .inl (rejected_of_badUser checked hosted used ?_)
          cases host with
          | none => rfl
          | some newhost => exact (spared acptr newhost checked hosted).1 ⟨note, used⟩
        | ok user =>
          refine .inr ⟨acptr, checked.target, applied_of_passed checked sender name
            (theirs acptr checked.target) hosted used ?_⟩
          cases host with
          | none =>
            rcases newmaskHost_spec hosted with ⟨empty, -⟩ | ⟨-, some_, -⟩
            · rw [empty]
              simp
            · cases some_
          | some newhost => exact (spared acptr newhost checked hosted).2 ⟨user, used⟩

/-- A request of an operator for a mask of its own. -/
def sample (mask : Text) : Newmask where
  s := (Ircd.boot Ircd.sampleConf 1000 "home").after
    (.introduce 3 { Ircd.sampleLocal with umodes := UMODE_OPER })
  OperCanUseNewMask := true
  mename := "home"
  cptr := 3
  sptr := 3
  parv := ["bob", mask]

theorem isName_bob : IsName "bob".toList := ⟨⟨by decide, by decide, by decide⟩, by decide⟩

theorem newmask_sound_iff_sample : (sample "staff@new.org").Sound := by
  refine (newmask_sound_iff (sample "staff@new.org") isName_bob ?_ fun acptr target => ?_).mpr
    fun acptr newhost _ _ => ⟨?_, fun _ plus => absurd plus.1 (by decide)⟩
  · exact isName_bob
  · obtain rfl : 3 = acptr := Option.some.inj target
    exact isName_bob
  · rintro ⟨note, bad⟩
    have used : newmaskUser (sample "staff@new.org").newuser = .ok (some "staff".toList) := rfl
    exact absurd (used.symm.trans bad) nofun

/-- **The host is changed, and the user rejected.** -/
theorem not_newmask_sound : ¬ ∀ r : Newmask, IsName r.sender → IsName (r.s.client r.sptr).name →
    (∀ acptr, r.s.newmaskTarget r.sptr r.parv = some acptr → IsName (r.s.client acptr).name) →
      r.Sound := by
  intro claim
  have sound := claim (sample "st!ff@new.org") isName_bob isName_bob fun acptr target => by
    obtain rfl : 3 = acptr := Option.some.inj target
    exact isName_bob
  have checked : (sample "st!ff@new.org").Checked 3 := ⟨by decide, by decide, by decide, by decide⟩
  have hosted : newmaskHost (sample "st!ff@new.org").sender (sample "st!ff@new.org").newhost =
    .ok (some "new.org".toList) := rfl
  exact absurd (sound.host_eq checked hosted rfl) (by decide)

end Newmask

end PtlinkIrcd
