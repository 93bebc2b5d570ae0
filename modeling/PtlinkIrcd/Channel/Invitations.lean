/-
**Invitations.**

`m_invite` and `add_invite` of `channel.c`, and what holds of the two lists of invitations in every
state of the server.

* `InviteView` — what a command reads of tables that are not modelled.
* `add_invite` — takes back an older invitation to the channel, and the oldest one of a user who has
  as many as it may.
* `Catalogued`, `Invites` — the invariants; `Deed.invites`, `Invites.add_invite` keep them.
* `run_invites` — **the two lists agree in every run**, and name nobody who left.
-/

import PtlinkIrcd.Channel.Deeds
import PtlinkIrcd.Channel.Runs

namespace PtlinkIrcd

def RPL_INVITING : Nat := 341
def ERR_USERONCHANNEL : Nat := 443

/-- What `check_target_limit` answers; its table of targets is keyed by addresses. A source that goes
on too long is made a zombie. -/
inductive TargetLimit
  | within
  | exceeded (told : List Sent) (zombie : Bool)

/-- What an INVITE reads of data that is not modelled: the mask with which the target silences the
source, the away message of the target, and the limit on targets. -/
structure InviteView where
  silenced : Option Text
  away : Option Text
  limit : TargetLimit

namespace Ircd

/-! ### INVITE -/

/-- The part of `add_invite` that makes room: the oldest invitation goes. Without a place for any, the
source reads the first link of an empty list. -/
def forgetOldest (s : Ircd) (cptr : ClientId) : Ircd :=
  if ((s.invited cptr).length : Int) ≥ s.conf.MaxChansPerUser then
    match s.invited cptr with
    | [] => s
    | chptr :: _ => s.del_invite cptr chptr
  else s

/-- The part of `add_invite` that adds the links, at the head of one list and at the end of the
other. -/
def linkInvite (s : Ircd) (cptr : ClientId) (chptr : ChannelId) : Ircd :=
  let c := s.chan chptr
  (s.setChan chptr { c with invites := cptr :: c.invites }).setInvited cptr
    (s.invited cptr ++ [chptr])

def add_invite (s : Ircd) (cptr : ClientId) (chptr : ChannelId) : Ircd :=
  ((s.del_invite cptr chptr).forgetOldest cptr).linkInvite cptr chptr

/-- `need_invite`, unless the source may not invite to the channel. -/
def need_invite (c : Channel) (x : Client) (sptr : ClientId) : Option Bool :=
  if c.mode.mode.has (MODE_OPERONLY ||| MODE_ADMINONLY) then
    if !x.isOper && !x.isService then none else some true
  else if c.mode.mode.has (MODE_INVITEONLY ||| MODE_NOBOTS) then
    if !c.is_chan_op sptr && !x.isService then none else some true
  else some false

def setZombie (s : Ircd) (cptr : ClientId) (zombie : Bool) : Ircd :=
  let x := s.client cptr
  if zombie then s.setClient cptr { x with umodes := x.umodes ||| UMODE_ZOMBIE } else s

/-- What a local source and the operators of a private channel hear of an invitation. -/
def tellInviting (s : Ircd) (view : InviteView) (sptr acptr : ClientId) (chptr : ChannelId)
    (source : Text) (need : Bool) : Ircd × Bool :=
  let x := s.client sptr
  let y := s.client acptr
  let c := s.chan chptr
  let s := s.send (.reply sptr RPL_INVITING [source, y.name, c.chname])
  let s := s.sendIf view.away.isSome (.reply sptr RPL_AWAY [source, y.name, view.away.getD []])
  match view.limit with
  | .exceeded told zombie => (setZombie (told.foldl send s) sptr zombie, false)
  | .within =>
    (s.sendIf (need && c.mode.mode.has MODE_PRIVATE) (.channel chptr sptr (line [":", x.name,
      " PRIVMSG @", c.chname, " :INVITE: ", c.chname, " (", x.name, " invited ", y.name, " [",
      y.username, "@", y.host, "])"])), true)

/-- The end of `m_invite`. -/
def inviteWho (s : Ircd) (acptr : ClientId) (chptr : ChannelId) (source name : Text)
    (need : Bool) : Ircd :=
  let y := s.client acptr
  (if y.myConnect && need then s.add_invite acptr chptr else s).send
    (.one acptr (line [":", source, " INVITE ", y.name, " :", name]))

/-- The part of `m_invite` after the channel was found. -/
def inviteOn (s : Ircd) (view : InviteView) (sptr acptr : ClientId) (chptr : ChannelId)
    (source nick name : Text) : Ircd :=
  let x := s.client sptr
  if !x.isService && !s.isMember sptr chptr then
    s.sendIf x.myClient (.reply sptr ERR_NOTONCHANNEL [source, name])
  else if s.isMember acptr chptr && !(s.client acptr).isStealth then
    s.sendIf x.myClient (.reply sptr ERR_USERONCHANNEL [source, nick, name])
  else
    match need_invite (s.chan chptr) x sptr with
    | none => s.sendIf x.myClient (.reply sptr ERR_CHANOPRIVSNEEDED [source, name])
    | some need =>
      if x.myConnect then
        let told := s.tellInviting view sptr acptr chptr source need
        if told.2 then told.1.inviteWho acptr chptr source name need else told.1
      else s.inviteWho acptr chptr source name need

/-- The part of `m_invite` after the user was found. -/
def inviteNamed (s : Ircd) (view : InviteView) (sptr acptr : ClientId) (source nick name : Text) :
    Ircd :=
  let x := s.client sptr
  let y := s.client acptr
  if !x.isService && !x.isIdentified && (y.umodes.has UMODE_REGMSG || s.secure_mode) then s
  else if view.silenced.isSome then
    s.sendIf (!x.myConnect) (.one sptr (line [":", y.name, " SILENCE ", x.name, " :",
      view.silenced.getD []]))
  else if !check_channel_name name then s.send (.reply sptr ERR_BADCHANNAME [source, name])
  else if !isChannelName name then
    s.sendIf x.myClient (.reply sptr ERR_NOSUCHCHANNEL [source, name])
  else if !y.myConnect && name.head? = some '&' then s
  else
    match s.hash_find_channel name with
    | none => s.sendIf x.myClient (.reply sptr ERR_NOSUCHCHANNEL [source, name])
    | some chptr => s.inviteOn view sptr acptr chptr source nick name

def m_invite (s : Ircd) (view : InviteView) (sptr : ClientId) (parv : List Text) : Ircd :=
  let source := parv.getD 0 []
  let nick := parv.getD 1 []
  if (s.client sptr).umodes.has UMODE_ZOMBIE then s
  else if parv.length < 3 || nick = [] then
    s.send (.reply sptr ERR_NEEDMOREPARAMS [source, "INVITE"])
  else if (s.client sptr).user.isNone then s
  else
    match s.find_person nick with
    | none => s.send (.reply sptr ERR_NOSUCHNICK [source, nick])
    | some acptr => s.inviteNamed view sptr acptr source nick (parv.getD 2 [])

/-! ### The invariants -/

/-- **The list of channels and the hash table hold the same channels.** -/
structure Catalogued (s : Ircd) : Prop where
  nodup : s.channel.Nodup
  table : s.channelTable.Holds (fun c => hashChannelName (s.chan c).chname) s.channel
  below : ∀ c ∈ s.channel, c < s.nextChan

/-- **The two lists of invitations record one relation** between users that are here and channels that
exist, and no user has more of them than it may. -/
structure Invites (s : Ircd) : Prop where
  incident : Lib.Incident s.invited fun c => (s.chan c).invites
  listed : ∀ c, (s.chan c).invites ≠ [] → c ∈ s.channel
  here : ∀ u, (s.client u).user.isSome → u ∈ s.GlobalClientList
  bounded : 1 ≤ s.conf.MaxChansPerUser → ∀ u, ((s.invited u).length : Int) ≤ s.conf.MaxChansPerUser

section Deeds

variable {s t : Ircd} {u : ClientId} {chptr : ChannelId}

theorem Catalogued.mem (catalogued : s.Catalogued) {name : Text}
    (found : s.hash_find_channel name = some chptr) : chptr ∈ s.channel :=
  ((catalogued.table.mem _ _).mp (Lib.ChainTable.find_some found).1).1

theorem Catalogued.congr (catalogued : s.Catalogued)
    (chname : ∀ c, (t.chan c).chname = (s.chan c).chname) (nextChan : t.nextChan = s.nextChan)
    (table : t.channelTable = s.channelTable) (channel : t.channel = s.channel) : t.Catalogued where
  nodup := channel ▸ catalogued.nodup
  table := by
    rw [table, channel]
    exact catalogued.table.congr fun c _ => by rw [chname]
  below := by
    rw [channel, nextChan]
    exact catalogued.below

theorem Invites.congr (invites : s.Invites) (invited : t.invited = s.invited)
    (same : ∀ c, (t.chan c).invites = (s.chan c).invites) (channel : t.channel = s.channel)
    (here : ∀ u, (t.client u).user.isSome → u ∈ t.GlobalClientList) (conf : t.conf = s.conf) :
    t.Invites where
  incident := by
    rw [invited, funext same]
    exact invites.incident
  listed c := by
    rw [same, channel]
    exact invites.listed c
  here := here
  bounded := by
    rw [invited, conf]
    exact invites.bounded

theorem Catalogued.create (catalogued : s.Catalogued) (chname : Text) :
    (s.createChannel chname).1.Catalogued := by
  have fresh : s.nextChan ∉ s.channel := fun member =>
    absurd (catalogued.below _ member) (Nat.lt_irrefl _)
  have others : ∀ c ∈ s.channel, (s.createChannel chname).1.chan c = s.chan c := fun c member =>
    Function.update_of_ne (show c ≠ s.nextChan from fun same => fresh (same ▸ member)) ..
  have made : (s.createChannel chname).1.chan s.nextChan = .zero chname s.now :=
    Function.update_self ..
  refine ⟨List.nodup_cons.mpr ⟨fresh, catalogued.nodup⟩, ?_, fun c member => ?_⟩
  · have held : s.channelTable.Holds
        (fun c => hashChannelName ((s.createChannel chname).1.chan c).chname) s.channel :=
      catalogued.table.congr fun c member => by rw [others c member]
    have added := held.add fresh
    rw [made] at added
    exact added
  · rcases List.mem_cons.mp member with rfl | old
    · exact Nat.lt_succ_self _
    · exact Nat.lt_succ_of_lt (catalogued.below c old)

theorem del_invite_invites (s : Ircd) (u : ClientId) (chptr : ChannelId) :
    (fun c => ((s.del_invite u chptr).chan c).invites) =
      Function.update (fun c => (s.chan c).invites) chptr ((s.chan chptr).invites.erase u) := by
  funext c
  rw [del_invite_chan]
  by_cases same : c = chptr
  · rw [same, Function.update_self, Function.update_self]
    rfl
  · rw [Function.update_of_ne same, Function.update_of_ne same]

/-- **An invitation ends on both sides.** -/
theorem Invites.del_invite (invites : s.Invites) (u : ClientId) (chptr : ChannelId) :
    (s.del_invite u chptr).Invites := by
  have quiet := Quiet.del_invite s u chptr
  have lists := s.del_invite_invites u chptr
  have fewer : ∀ c, (((s.del_invite u chptr).chan c).invites).Sublist (s.chan c).invites := by
    intro c
    rw [congrFun lists c]
    by_cases same : c = chptr
    · rw [same, Function.update_self]
      exact List.erase_sublist
    · rw [Function.update_of_ne same]
  refine ⟨?_, fun c some_ => ?_, fun v has => ?_, fun one v => ?_⟩
  · rw [lists, del_invite_invited]
    exact invites.incident.unlink u chptr
  · rw [quiet.channel]
    refine invites.listed c fun none_ => some_ ?_
    have nothing := fewer c
    rw [none_] at nothing
    exact List.sublist_nil.mp nothing
  · have clients : (s.del_invite u chptr).GlobalClientList = s.GlobalClientList := by
      unfold Ircd.del_invite setInvited
      simp only []
      split <;> rfl
    rw [quiet.hasUser] at has
    rw [clients]
    exact invites.here v has
  · rw [quiet.conf] at one ⊢
    have before := invites.bounded one v
    rw [del_invite_invited]
    by_cases self : v = u
    · rw [self, Function.update_self]
      rw [self] at before
      have less := (List.erase_sublist (a := chptr) (l := s.invited u)).length_le
      omega
    · rw [Function.update_of_ne self]
      exact before

/-- **Nobody is invited any more** to a channel that takes its invitations back. -/
theorem withoutInvites_invites (s : Ircd) (chptr : ChannelId) :
    ((s.withoutInvites chptr).chan chptr).invites = [] := by
  unfold withoutInvites
  generalize same : (s.chan chptr).invites = us
  induction us generalizing s with
  | nil => exact same
  | cons u us ih =>
    refine ih (s.del_invite u chptr) ?_
    rw [del_invite_chan, Function.update_self]
    show (s.chan chptr).invites.erase u = us
    rw [same, List.erase_cons_head]

theorem Invites.withoutInvites (invites : s.Invites) (chptr : ChannelId) :
    (s.withoutInvites chptr).Invites := by
  unfold Ircd.withoutInvites
  generalize (s.chan chptr).invites = us
  induction us generalizing s with
  | nil => exact invites
  | cons u us ih => exact ih (invites.del_invite u chptr)

/-- **Freeing a channel.** -/
theorem Invites.destroy (invites : s.Invites) (catalogued : s.Catalogued) (chptr : ChannelId) :
    (s.destroyChannel chptr).Invites := by
  have before := invites.withoutInvites chptr
  have quiet := withoutInvites_quiet s chptr
  have lists : ∀ c, ((s.destroyChannel chptr).chan c).invites =
      ((s.withoutInvites chptr).chan c).invites := by
    intro c
    rw [destroyChannel_chan]
    split
    · rename_i same
      rw [same, withoutInvites_invites]
      rfl
    · rfl
  refine ⟨?_, fun c some_ => ?_, before.here, before.bounded⟩
  · rw [funext lists]
    exact before.incident
  · rw [lists] at some_
    have ne : c ≠ chptr := by
      rintro rfl
      exact some_ (withoutInvites_invites s c)
    show c ∈ (s.withoutInvites chptr).channel.erase chptr
    rw [quiet.channel, catalogued.nodup.mem_erase_iff]
    exact ⟨ne, quiet.channel ▸ before.listed c some_⟩

theorem Catalogued.destroy (catalogued : s.Catalogued) (chptr : ChannelId) :
    (s.destroyChannel chptr).Catalogued := by
  have quiet := withoutInvites_quiet s chptr
  have before : (s.withoutInvites chptr).Catalogued :=
    catalogued.congr quiet.chname quiet.nextChan quiet.table quiet.channel
  have deleted := before.table.del before.nodup chptr
  refine ⟨before.nodup.erase _, deleted.congr fun c member => ?_, fun c member => ?_⟩
  · rw [destroyChannel_chan, if_neg (before.nodup.mem_erase_iff.mp member).1]
  · exact before.below c (List.mem_of_mem_erase member)

/-- **Every write of a command keeps the catalogue.** -/
theorem Deed.catalogued (deed : Deed s t) (catalogued : s.Catalogued) : t.Catalogued := by
  cases deed with
  | other same =>
    exact catalogued.congr (fun c => by rw [same.chan]) same.nextChan same.channelTable same.channel
  | @chan chptr c _ chname =>
    refine catalogued.congr (fun d => ?_) rfl rfl rfl
    by_cases same : d = chptr
    · rw [same, setChan_chan_self, chname]
    · rw [setChan_chan_of_ne s c same]
  | client => exact ⟨catalogued.nodup, catalogued.table, catalogued.below⟩
  | uninvite u chptr =>
    have quiet := Quiet.del_invite s u chptr
    exact catalogued.congr quiet.chname quiet.nextChan quiet.table quiet.channel
  | create chname => exact catalogued.create chname
  | destroy chptr => exact catalogued.destroy chptr
  | free => exact ⟨catalogued.nodup, catalogued.table, catalogued.below⟩

/-- **Every write of a command keeps the invitations.** -/
theorem Deed.invites (deed : Deed s t) (invites : s.Invites) (catalogued : s.Catalogued) :
    t.Invites := by
  cases deed with
  | other same =>
    have invited : t.invited = s.invited := by
      unfold Ircd.invited
      rw [same.client]
    refine invites.congr invited (fun c => by rw [same.chan]) same.channel ?_ same.conf
    rw [same.client, same.clients]
    exact invites.here
  | @chan chptr c inviting _ =>
    refine invites.congr rfl (fun d => ?_) rfl invites.here rfl
    by_cases same : d = chptr
    · rw [same, setChan_chan_self, inviting]
    · rw [setChan_chan_of_ne s c same]
  | @client u x invited _ _ =>
    have others : ∀ v, v ≠ u → (s.setClient u x).client v = s.client v := fun v ne =>
      Function.update_of_ne ne ..
    have self : (s.setClient u x).client u = x := Function.update_self ..
    refine invites.congr (funext fun v => ?_) (fun _ => rfl) rfl (fun v has => ?_) rfl
    · unfold Ircd.invited
      by_cases same : v = u
      · rw [same, self, invited]
      · rw [others v same]
    · by_cases same : v = u
      · refine invites.here v ?_
        rw [same, self, ← Option.isSome_map (f := User.invited), invited, Option.isSome_map] at has
        rw [same]
        exact has
      · exact invites.here v (others v same ▸ has)
  | uninvite u chptr => exact invites.del_invite u chptr
  | create chname =>
    have fresh : s.nextChan ∉ s.channel := fun member =>
      absurd (catalogued.below _ member) (Nat.lt_irrefl _)
    have lists : ∀ c, ((s.createChannel chname).1.chan c).invites = (s.chan c).invites := by
      intro c
      rw [createChannel_chan]
      split
      · rename_i same
        rw [same]
        exact (not_imp_comm.mp (invites.listed s.nextChan) fresh).symm
      · rfl
    refine ⟨?_, fun c some_ => ?_, invites.here, invites.bounded⟩
    · rw [funext lists]
      exact invites.incident
    · rw [lists] at some_
      exact List.mem_cons_of_mem _ (invites.listed c some_)
  | destroy chptr => exact invites.destroy catalogued chptr
  | @free u alone =>
    have others : ∀ v, v ≠ u → (s.freeClient u).client v = s.client v := fun v ne =>
      Function.update_of_ne ne ..
    have self : (s.freeClient u).client u = .zero := Function.update_self ..
    refine invites.congr (funext fun v => ?_) (fun _ => rfl) rfl (fun v has => ?_) rfl
    · by_cases same : v = u
      · rw [same, alone]
        exact invited_of_none (congrArg Client.user self)
      · unfold Ircd.invited
        rw [others v same]
    · by_cases same : v = u
      · rw [same, self] at has
        exact absurd has Bool.false_ne_true
      · rw [others v same] at has
        exact (List.mem_erase_of_ne same).mpr (invites.here v has)

end Deeds

/-! ### What keeps the invariants -/

/-- **A sane state**: the two lists, the catalogue they refer to, and registered users with nicks. -/
structure Inviting (s : Ircd) : Prop where
  invites : s.Invites
  catalogued : s.Catalogued
  named : s.Named

section Events

variable {s t : Ircd} {u : ClientId} {chptr : ChannelId}

theorem Inviting.deeds (inviting : s.Inviting) (deeds : Deeds s t) : t.Inviting :=
  deeds.preserves (P := Inviting) (fun deed before =>
    ⟨deed.invites before.invites before.catalogued, deed.catalogued before.catalogued,
      deed.named before.named⟩) inviting

/-- **A new invitation**, of a user with a place for it. -/
theorem Inviting.linkInvite (inviting : s.Inviting) (has : (s.client u).user.isSome)
    (listed : chptr ∈ s.channel) (fresh : chptr ∉ s.invited u)
    (room : 1 ≤ s.conf.MaxChansPerUser → ((s.invited u).length : Int) < s.conf.MaxChansPerUser) :
    (s.linkInvite u chptr).Inviting := by
  obtain ⟨user, has⟩ := Option.isSome_iff_exists.mp has
  have written : s.linkInvite u chptr = (s.setChan chptr
      { s.chan chptr with invites := u :: (s.chan chptr).invites }).setUser u
        { user with invited := s.invited u ++ [chptr] } := by
    unfold Ircd.linkInvite setInvited
    simp only [setChan_client, has]
  have invited : (s.linkInvite u chptr).invited =
      Function.update s.invited u (s.invited u ++ [chptr]) := by
    rw [written, setUser_invited]
    rfl
  have chan : (s.linkInvite u chptr).chan =
      Function.update s.chan chptr ((s.chan chptr).inviting (u :: (s.chan chptr).invites)) := by
    rw [written]
    rfl
  have lists : (fun c => ((s.linkInvite u chptr).chan c).invites) =
      Function.update (fun c => (s.chan c).invites) chptr (u :: (s.chan chptr).invites) := by
    funext c
    rw [chan]
    by_cases same : c = chptr
    · rw [same, Function.update_self, Function.update_self]
      rfl
    · rw [Function.update_of_ne same, Function.update_of_ne same]
  have client : ∀ v, ∃ other, (s.linkInvite u chptr).client v =
      { s.client v with user := other } ∧ other.isSome = (s.client v).user.isSome := by
    intro v
    rw [written]
    by_cases self : v = u
    · rw [self, has]
      exact ⟨_, setUser_client_self .., rfl⟩
    · exact ⟨_, setUser_client_of_ne _ _ self, rfl⟩
  have here : (s.linkInvite u chptr).GlobalClientList = s.GlobalClientList := by rw [written]; rfl
  have conf : (s.linkInvite u chptr).conf = s.conf := by rw [written]; rfl
  refine ⟨⟨?_, fun c some_ => ?_, fun v known => ?_, fun one v => ?_⟩, ?_, fun v known => ?_⟩
  · -- the new link stands at the end of the user's list
    rw [lists]
    refine (inviting.invites.incident.link fresh).perm_left fun v => ?_
    rw [invited]
    by_cases self : v = u
    · rw [self, Function.update_self, Function.update_self]
      exact List.perm_append_singleton ..
    · rw [Function.update_of_ne self, Function.update_of_ne self]
  · have channel : (s.linkInvite u chptr).channel = s.channel := by rw [written]; rfl
    rw [channel]
    by_cases same : c = chptr
    · exact same ▸ listed
    · rw [chan, Function.update_of_ne same] at some_
      exact inviting.invites.listed c some_
  · obtain ⟨other, eq, same⟩ := client v
    rw [eq] at known
    rw [here]
    exact inviting.invites.here v (same ▸ known)
  · rw [conf] at one ⊢
    rw [invited]
    by_cases self : v = u
    · have before := room one
      rw [self, Function.update_self, List.length_append, List.length_singleton]
      omega
    · rw [Function.update_of_ne self]
      exact inviting.invites.bounded one v
  · refine inviting.catalogued.congr (fun c => ?_) ?_ ?_ ?_
    · rw [chan]
      by_cases same : c = chptr
      · rw [same, Function.update_self]
        rfl
      · rw [Function.update_of_ne same]
    all_goals
      rw [written]
      rfl
  · obtain ⟨other, eq, same⟩ := client v
    rw [eq] at known ⊢
    exact inviting.named v (same ▸ known)

theorem forgetOldest_spec (s : Ircd) (u : ClientId) : Deeds s (s.forgetOldest u) ∧
    ((s.forgetOldest u).invited u).Sublist (s.invited u) ∧
    (s.forgetOldest u).conf = s.conf ∧ (s.forgetOldest u).channel = s.channel ∧
    (∀ v, ((s.forgetOldest u).client v).user.isSome = (s.client v).user.isSome) ∧
    (1 ≤ s.conf.MaxChansPerUser →
      ((s.invited u).length : Int) ≤ s.conf.MaxChansPerUser →
      (((s.forgetOldest u).invited u).length : Int) < s.conf.MaxChansPerUser) := by
  unfold forgetOldest
  split
  · rename_i full
    split
    · rename_i none_
      refine ⟨.refl s, .refl _, rfl, rfl, fun _ => rfl, fun one _ => ?_⟩
      rw [none_]
      exact one
    · rename_i oldest rest same
      have quiet := Quiet.del_invite s u oldest
      have shorter : (s.del_invite u oldest).invited u = rest := by
        rw [del_invite_invited, Function.update_self, same, List.erase_cons_head]
      refine ⟨.del_invite .., ?_, quiet.conf, quiet.channel, quiet.hasUser, fun _ bound => ?_⟩
      · rw [shorter, same]
        exact List.sublist_cons_self ..
      · rw [shorter]
        rw [same, List.length_cons] at bound
        omega
  · rename_i room
    exact ⟨.refl s, .refl _, rfl, rfl, fun _ => rfl, fun _ _ => by omega⟩

/-- **An invitation keeps both lists.** -/
theorem Inviting.add_invite (inviting : s.Inviting) (has : (s.client u).user.isSome)
    (listed : chptr ∈ s.channel) : (s.add_invite u chptr).Inviting := by
  have quiet := Quiet.del_invite s u chptr
  have before := inviting.deeds (.del_invite s u chptr)
  have gone : chptr ∉ (s.del_invite u chptr).invited u := by
    rw [del_invite_invited, Function.update_self]
    exact (inviting.invites.incident.left_nodup u).not_mem_erase
  obtain ⟨deeds, fewer, conf, channel, hasUser, room⟩ :=
    forgetOldest_spec (s.del_invite u chptr) u
  refine (before.deeds deeds).linkInvite ?_ ?_ (fun member => gone (fewer.subset member)) ?_
  · rw [hasUser, quiet.hasUser]
    exact has
  · rw [channel, quiet.channel]
    exact listed
  · rw [conf]
    exact fun one => room one (before.invites.bounded one u)

theorem tellInviting_spec (s : Ircd) (view : InviteView) (sptr acptr : ClientId) (chptr : ChannelId)
    (source : Text) (need : Bool) :
    let told := s.tellInviting view sptr acptr chptr source need
    Deeds s told.1 ∧ (told.2 = true → Sends s told.1) := by
  have inviting : Sends s ((s.send (.reply sptr RPL_INVITING
      [source, (s.client acptr).name, (s.chan chptr).chname])).sendIf view.away.isSome
        (.reply sptr RPL_AWAY [source, (s.client acptr).name, view.away.getD []])) :=
    (Sends.send ..).trans (.sendIf ..)
  unfold tellInviting
  simp only []
  split
  · rename_i events zombie _
    refine ⟨(Deeds.sends inviting).trans ((Deeds.foldl _ Deeds.send events _).trans ?_),
      fun goes => absurd goes Bool.false_ne_true⟩
    unfold setZombie
    simp only []
    split
    · exact .single (.client rfl rfl rfl)
    · exact .refl _
  · exact ⟨(Deeds.sends inviting).trans (.sendIf ..), fun _ => inviting.trans (.sendIf ..)⟩

theorem Inviting.inviteWho (inviting : s.Inviting) {acptr : ClientId}
    (has : (s.client acptr).user.isSome) (listed : chptr ∈ s.channel) (source name : Text)
    (need : Bool) : (s.inviteWho acptr chptr source name need).Inviting := by
  unfold Ircd.inviteWho
  simp only []
  refine deeds ?_ (.send ..)
  split
  · exact inviting.add_invite has listed
  · exact inviting

/-- **INVITE.** -/
theorem Inviting.m_invite (inviting : s.Inviting) (view : InviteView) (sptr : ClientId)
    (parv : List Text) : (s.m_invite view sptr parv).Inviting := by
  unfold Ircd.m_invite
  simp only []
  split
  · exact inviting
  split
  · exact inviting.deeds (.send ..)
  split
  · exact inviting
  split
  · exact inviting.deeds (.send ..)
  rename_i acptr found
  have has : (s.client acptr).user.isSome := by
    have person := (Option.filter_eq_some_iff.mp found).2
    exact (Bool.and_eq_true _ _ ▸ person).2
  unfold inviteNamed
  simp only []
  split
  · exact inviting
  split
  · exact inviting.deeds (.sendIf ..)
  split
  · exact inviting.deeds (.send ..)
  split
  · exact inviting.deeds (.sendIf ..)
  split
  · exact inviting
  split
  · exact inviting.deeds (.sendIf ..)
  rename_i chptr found
  have listed := inviting.catalogued.mem found
  unfold inviteOn
  simp only []
  split
  · exact inviting.deeds (.sendIf ..)
  split
  · exact inviting.deeds (.sendIf ..)
  split
  · exact inviting.deeds (.sendIf ..)
  rename_i need _
  split
  · obtain ⟨told, goes⟩ := s.tellInviting_spec view sptr acptr chptr (parv.getD 0 []) need
    split
    · rename_i passes
      obtain ⟨events, same⟩ := goes passes
      refine (inviting.deeds told).inviteWho ?_ ?_ ..
      · rw [same]
        exact has
      · rw [same]
        exact listed
    · exact inviting.deeds told
  · exact inviting.inviteWho has listed ..

/-- A client fills a block and stands on the list. -/
def enlist (s : Ircd) (u : ClientId) (x : Client) : Ircd :=
  { s.setClient u x with GlobalClientList := u :: s.GlobalClientList }

theorem Deeds.introduce {x : Client} (free : s.client u = .zero ∧ x.isFresh = true) :
    Deeds (s.enlist u x) (s.introduce u x) := by
  unfold Ircd.introduce linkServ
  rw [if_pos free]
  simp only []
  split
  · exact .single (.other ⟨rfl, rfl, rfl, rfl, rfl, rfl, rfl⟩)
  · split
    · exact .single (.other ⟨rfl, rfl, rfl, rfl, rfl, rfl, rfl⟩)
    · rename_i servptr _ _ serv _
      have written : Deeds (s.enlist u x) ((s.enlist u x).setClient servptr
          { (s.enlist u x).client servptr with
            serv := some (if ((s.enlist u x).client u).isServer then
              { serv with servers := u :: serv.servers }
            else { serv with users := u :: serv.users }) }) := .single (.client rfl rfl rfl)
      exact written.trans (.single (.other ⟨rfl, rfl, rfl, rfl, rfl, rfl, rfl⟩))

/-- **A client comes**, without invitations. -/
theorem Inviting.introduce (inviting : s.Inviting) (u : ClientId) (x : Client)
    (uninvited : ∀ user, x.user = some user → user.invited = []) : (s.introduce u x).Inviting := by
  by_cases free : s.client u = .zero ∧ x.isFresh = true
  · have others : ∀ v, v ≠ u → (s.enlist u x).client v = s.client v := fun v ne =>
      Function.update_of_ne ne ..
    have self : (s.enlist u x).client u = x := Function.update_self ..
    suffices come : (s.enlist u x).Inviting from come.deeds (Deeds.introduce free)
    refine ⟨inviting.invites.congr (funext fun v => ?_) (fun _ => rfl) rfl (fun v has => ?_) rfl,
      ⟨inviting.catalogued.nodup, inviting.catalogued.table, inviting.catalogued.below⟩,
      fun v has => ?_⟩
    · unfold Ircd.invited
      by_cases same : v = u
      · rw [same, self, free.1]
        cases has : x.user with
        | none => rfl
        | some user => exact uninvited user has
      · rw [others v same]
    · by_cases same : v = u
      · exact same ▸ List.mem_cons_self
      · exact List.mem_cons_of_mem _ (inviting.invites.here v (others v same ▸ has))
    · by_cases same : v = u
      · rw [same, self] at has ⊢
        exact Client.named_of_isFresh free.2 has
      · rw [others v same] at has ⊢
        exact inviting.named v has
  · unfold Ircd.introduce
    rw [if_neg free]
    exact inviting

end Events

end Ircd

/-! ### Whole runs -/

/-- What happens to a server whose users invite each other. -/
inductive InviteEvent
  | invite (view : InviteView) (sptr : ClientId) (parv : List Text)
  | other (event : Event)

/-- `make_user` allocates a user without invitations. -/
def Event.makesUser : Event → Bool
  | .introduce _ x => x.user.all fun user => user.invited = []
  | _ => true

namespace Ircd

def afterInvite (s : Ircd) : InviteEvent → Ircd
  | .invite view sptr parv => s.m_invite view sptr parv
  | .other event => if event.makesUser then s.after event else s

/-- The states that such a server reaches. -/
inductive InviteRun : Ircd → Prop
  | boot (conf : Conf) (now : Int) (name : Text) : InviteRun (boot conf now name)
  | step {s : Ircd} (run : InviteRun s) (event : InviteEvent) : InviteRun (s.afterInvite event)

/-- **The lists of invitations agree**: each pair stands once on both sides, no user has more than
`MaxChansPerUser`, and neither side names a channel that was freed or a client that left. -/
structure InvitesAgree (s : Ircd) : Prop where
  mem_iff : ∀ u c, c ∈ s.invited u ↔ u ∈ (s.chan c).invites
  once : (∀ u, (s.invited u).Nodup) ∧ ∀ c, (s.chan c).invites.Nodup
  bounded : ∀ u, ((s.invited u).length : Int) ≤ s.conf.MaxChansPerUser
  exist : ∀ u, ∀ c ∈ s.invited u, c ∈ s.channel
  here : ∀ c, ∀ u ∈ (s.chan c).invites, (s.client u).user.isSome ∧ u ∈ s.GlobalClientList

section Runs

variable {s : Ircd}

theorem Inviting.agree (inviting : s.Inviting) (one : 1 ≤ s.conf.MaxChansPerUser) :
    s.InvitesAgree where
  mem_iff := inviting.invites.incident.mem_iff
  once := ⟨inviting.invites.incident.left_nodup, inviting.invites.incident.right_nodup⟩
  bounded := inviting.invites.bounded one
  exist u c member := by
    refine inviting.invites.listed c fun none_ => ?_
    exact inviting.invites.incident.isolate none_ u member
  here c u member := by
    have has : (s.client u).user.isSome := by
      by_contra none_
      have nowhere := invited_of_none (Option.not_isSome_iff_eq_none.mp none_)
      have invited := (inviting.invites.incident.mem_iff u c).mpr member
      rw [nowhere] at invited
      exact absurd invited List.not_mem_nil
    exact ⟨has, inviting.invites.here u has⟩

theorem Inviting.boot (conf : Conf) (now : Int) (name : Text) : (boot conf now name).Inviting := by
  have sound : (blank conf now name).Sound False := Sound.blank conf now name
  have users : ∀ u, ((blank conf now name).client u).user = none := by
    intro u
    show (Function.update (fun _ => Client.zero) me (bootClient name) u).user = none
    by_cases self : u = me
    · rw [self, Function.update_self]
      rfl
    · rw [Function.update_of_ne self]
      rfl
  have blank : (blank conf now name).Inviting := by
    refine ⟨⟨?_, fun c some_ => absurd rfl some_, fun u has => ?_, fun one u => ?_⟩,
      ⟨sound.listed.nodup, sound.listed.table, sound.listed.below⟩, sound.named⟩
    · have nowhere : (Ircd.blank conf now name).invited = fun _ => [] :=
        funext fun u => invited_of_none (users u)
      rw [nowhere]
      exact Lib.Incident.empty
    · rw [users] at has
      exact absurd has Bool.false_ne_true
    · rw [invited_of_none (users u)]
      exact Int.le_trans (by decide) one
  exact blank.deeds ((Deeds.get_channel_create ..).trans (.setMode ..))

/-- **One event keeps the invariants.** -/
theorem Inviting.after (inviting : s.Inviting) (event : InviteEvent) :
    (s.afterInvite event).Inviting := by
  cases event with
  | invite view sptr parv => exact inviting.m_invite view sptr parv
  | other event =>
    show Inviting (if event.makesUser then s.after event else s)
    split
    · rename_i makes
      cases event with
      | introduce u x =>
        refine inviting.introduce u x fun user has => ?_
        change x.user.all (fun user => decide (user.invited = [])) = true at makes
        rw [has] at makes
        exact of_decide_eq_true makes
      | time now => exact inviting.deeds (.single (.other ⟨rfl, rfl, rfl, rfl, rfl, rfl, rfl⟩))
      | join cptr sptr parv => exact inviting.deeds (.m_join ..)
      | part cptr sptr parv => exact inviting.deeds (.m_part ..)
      | kick cptr sptr parv => exact inviting.deeds (.m_kick ..)
      | njoin cptr sptr parv => exact inviting.deeds (.m_sjoin ..)
      | mode cptr sptr parv => exact inviting.deeds (.m_mode ..)
      | exit cptr sptr source comment => exact inviting.deeds (.exit_client inviting.named ..)
      | umode cptr sptr parv => exact inviting.deeds (.user_mode ..)
      | svsmode cptr sptr parv => exact inviting.deeds (.m_svsmode ..)
    · exact inviting

/-- **Invitations are recorded on both sides in every run**, of users that are here and to channels
that exist. -/
theorem run_invites (run : InviteRun s) (one : 1 ≤ s.conf.MaxChansPerUser) : s.InvitesAgree := by
  refine Inviting.agree ?_ one
  clear one
  induction run with
  | boot conf now name => exact Inviting.boot conf now name
  | step _ event inviting => exact inviting.after event

/-- A user opens a channel that only invited users may join, and invites another one. -/
theorem run_invites_sample :
    ((((((boot sampleConf 1000 "home").afterInvite (.other (.introduce 3 sampleLocal))).afterInvite
      (.other (.introduce 4 { sampleLocal with name := "eve", link := some 4 }))).afterInvite
      (.other (.join 3 3 ["bob", "#c"]))).afterInvite
      (.other (.mode 3 3 ["bob", "#c", "+i"]))).afterInvite
      (.invite ⟨none, none, .within⟩ 3 ["bob", "eve", "#c"])).InvitesAgree :=
  run_invites (.step (.step (.step (.step (.step (.boot sampleConf 1000 "home") _) _) _) _) _)
    (by decide)

end Runs

end Ircd

end PtlinkIrcd
