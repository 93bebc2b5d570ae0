/-
**Channels come and go with their users.**

* `NoGhost` — every listed channel has a member or is one the code keeps.
* `sub1_from_channel` after a user was unlinked, `remove_user_from_channel`, `removeFromAll` and
  `createChannel` keep `Enrolled`, `Listed` and, the last one apart, `NoGhost`.
-/

import PtlinkIrcd.Channel.Consistent

set_option linter.unusedSectionVars false

namespace PtlinkIrcd.Ircd

/-- A channel that has a member, or that stays without one. -/
def Inhabited (s : Ircd) (c : ChannelId) : Prop :=
  (s.chan c).members ≠ [] ∨ (s.chan c).kept s.conf = true

/-- **No ghost channels.** -/
def NoGhost (s : Ircd) : Prop := ∀ c ∈ s.channel, s.Inhabited c

/-! ### Destroying a channel -/

section Destroy

variable {s : Ircd} {chptr : ChannelId} {counted : Prop}

/-- The state after the invitations to a channel were taken back. -/
def withoutInvites (s : Ircd) (chptr : ChannelId) : Ircd :=
  (s.chan chptr).invites.foldl (fun s cptr => s.del_invite cptr chptr) s

theorem withoutInvites_quiet (s : Ircd) (chptr : ChannelId) :
    Quiet s (s.withoutInvites chptr) :=
  Quiet.foldl (fun s cptr => s.del_invite cptr chptr) (fun s u => Quiet.del_invite s u chptr) _ s

theorem del_invite_mode (s : Ircd) (u : ClientId) (chptr c : ChannelId) :
    ((s.del_invite u chptr).chan c).mode = (s.chan c).mode := by
  have frame : (s.del_invite u chptr).chan = (s.setChan chptr
      { s.chan chptr with invites := (s.chan chptr).invites.erase u }).chan := setInvited_chan ..
  rw [frame]
  by_cases same : c = chptr
  · rw [same, setChan_chan_self]
  · rw [setChan_chan_of_ne s _ same]

theorem withoutInvites_mode (s : Ircd) (chptr c : ChannelId) :
    ((s.withoutInvites chptr).chan c).mode = (s.chan c).mode := by
  unfold withoutInvites
  generalize (s.chan chptr).invites = invites
  induction invites generalizing s with
  | nil => rfl
  | cons u invites ih => rw [List.foldl_cons, ih, del_invite_mode]

theorem destroyChannel_chan (c : ChannelId) :
    (s.destroyChannel chptr).chan c =
      if c = chptr then .zero [] 0 else (s.withoutInvites chptr).chan c := by
  by_cases same : c = chptr
  · rw [if_pos same, same]
    exact Function.update_self ..
  · rw [if_neg same]
    exact Function.update_of_ne same ..

/-- **Destroying a channel without members.** -/
theorem Enrolled.destroyChannel (enrolled : s.Enrolled counted)
    (empty : (s.chan chptr).members = []) : (s.destroyChannel chptr).Enrolled counted := by
  have quiet := s.withoutInvites_quiet chptr
  have users : (s.chan chptr).users = 0 := by rw [enrolled.users, empty]; rfl
  have ids : (s.chan chptr).memberIds = [] := members_eq_nil.mp empty
  have iusers : counted → (s.chan chptr).iusers = 0 := fun counts => by
    rw [enrolled.iusers counts]
    unfold stealthMembers
    rw [ids]
    rfl
  refine SameMembership.enrolled
    ⟨quiet.channels, quiet.joined, fun c => ?_, fun c => ?_⟩ (fun _ => quiet.stealth)
    (fun counts c => ?_) enrolled
  all_goals
    rw [destroyChannel_chan]
    split
  · rename_i same; rw [same, ids]; rfl
  · exact quiet.members c
  · rename_i same; rw [same, users]; rfl
  · exact quiet.users c
  · rename_i same; rw [same, iusers counts]; rfl
  · exact quiet.iusers c

theorem Listed.destroyChannel (listed : s.Listed) (inList : chptr ∈ s.channel) : (s.destroyChannel chptr).Listed := by
  have quiet := s.withoutInvites_quiet chptr
  have before : (s.withoutInvites chptr).Listed := quiet.listed listed
  have channel : (s.destroyChannel chptr).channel = s.channel.erase chptr := by
    show (s.withoutInvites chptr).channel.erase chptr = _
    rw [quiet.channel]
  refine ⟨by rw [channel]; exact listed.nodup.erase _, ?_, ?_, ?_, ?_⟩
  · have deleted := before.table.del before.nodup chptr
    refine Lib.ChainTable.Holds.congr deleted fun c member => ?_
    have ne : c ≠ chptr := fun same =>
      before.nodup.not_mem_erase (same ▸ member)
    rw [destroyChannel_chan, if_neg ne]
  · show (s.withoutInvites chptr).countChan - 1 = _
    have pos : 0 < s.channel.length := List.length_pos_of_mem inList
    rw [quiet.count, channel, List.length_erase_of_mem inList, listed.count]
    omega
  · intro c member
    rw [channel] at member
    show c < (s.withoutInvites chptr).nextChan
    rw [quiet.nextChan]
    exact listed.below c (List.mem_of_mem_erase member)
  · intro c notIn
    rw [destroyChannel_chan]
    split
    · rfl
    · rename_i ne
      refine before.outside c fun member => notIn ?_
      rw [quiet.channel] at member
      rw [channel, listed.nodup.mem_erase_iff]
      exact ⟨ne, member⟩

theorem Named.destroyChannel (named : s.Named) : (s.destroyChannel chptr).Named :=
  (s.withoutInvites_quiet chptr).named named

end Destroy

/-! ### Counting a user off -/

section Leave

variable {s : Ircd} {chptr : ChannelId} {u : ClientId} {user : User} {counted : Prop}

/-- A state in which a channel still counts the user who was just unlinked from it. -/
structure Unlinked (s : Ircd) (counted : Prop) (chptr : ChannelId) : Prop extends
    Recorded s counted where
  users : ∀ c, (s.chan c).users = (s.chan c).members.length + if c = chptr then 1 else 0

theorem Enrolled.unlinkUser (enrolled : s.Enrolled counted) (has : (s.client u).user = some user)
    (on : chptr ∈ (s.client u).channels) : (s.unlinkUser u user chptr).Unlinked counted chptr where
  toRecorded := enrolled.toRecorded.unlinkUser has on
  users c := by
    rw [unlinkUser_chan_eq]
    by_cases same : c = chptr
    · have member : u ∈ (s.chan chptr).memberIds :=
        (enrolled.incident.mem_iff _ _).mp on
      have pos : 0 < (s.chan chptr).memberIds.length := List.length_pos_of_mem member
      have erased : ((s.chan chptr).members.eraseP fun l => l.cptr = u).length =
          (s.chan chptr).memberIds.length - 1 := by
        rw [← List.length_map Member.cptr, memberIds_eraseP]
        exact List.length_erase_of_mem member
      rw [if_pos same, if_pos same]
      show (s.chan chptr).users = _
      rw [enrolled.users, length_members, erased]
      omega
    · rw [if_neg same, if_neg same, enrolled.users]
      omega

theorem Unlinked.setUsers (unlinked : s.Unlinked counted chptr) {users : Int}
    (right : users = (s.chan chptr).members.length) :
    (s.setChan chptr { s.chan chptr with users := users }).Enrolled counted := by
  have others : ∀ c, (s.setChan chptr { s.chan chptr with users := users }).chan c =
      if c = chptr then { s.chan chptr with users := users } else s.chan c := by
    intro c
    by_cases same : c = chptr
    · rw [if_pos same, same, setChan_chan_self]
    · rw [if_neg same, setChan_chan_of_ne _ _ same]
  refine ⟨⟨?_, unlinked.joined, fun counts c => ?_⟩, fun c => ?_⟩
  · have ids := setChan_memberIds s chptr { s.chan chptr with users := users }
    have noChange : Function.update (fun d => (s.chan d).memberIds) chptr
        (s.chan chptr).memberIds = fun d => (s.chan d).memberIds := Function.update_eq_self ..
    rw [ids]
    show Lib.Incident _ (Function.update _ chptr (s.chan chptr).memberIds)
    rw [noChange]
    exact unlinked.incident
  · rw [others]
    split
    · exact unlinked.iusers counts chptr
    · exact unlinked.iusers counts c
  · rw [others]
    split
    · exact right
    · rename_i ne
      rw [unlinked.users, if_neg ne]
      exact Int.add_zero _

theorem Listed.setUsers (listed : s.Listed) (users : Int) :
    (s.setChan chptr { s.chan chptr with users := users }).Listed := by
  have others : ∀ c, (s.setChan chptr { s.chan chptr with users := users }).chan c = s.chan c ∨
      c = chptr ∧ (s.setChan chptr { s.chan chptr with users := users }).chan c =
        { s.chan chptr with users := users } := by
    intro c
    by_cases same : c = chptr
    · exact .inr ⟨same, by rw [same, setChan_chan_self]⟩
    · exact .inl (setChan_chan_of_ne _ _ same)
  refine ⟨listed.nodup, ?_, listed.count, listed.below, fun c notIn => ?_⟩
  · refine listed.table.congr fun c _ => ?_
    rcases others c with same | ⟨rfl, same⟩ <;> rw [same]
  · rcases others c with same | ⟨rfl, same⟩ <;> rw [same]
    · exact listed.outside c notIn
    · exact listed.outside c notIn

/-- **Counting a user off after unlinking.** -/
theorem Unlinked.sub1 (unlinked : s.Unlinked counted chptr) (listed : s.Listed)
    (inList : chptr ∈ s.channel) (named : s.Named) :
    (s.sub1_from_channel chptr).Enrolled counted ∧ (s.sub1_from_channel chptr).Listed ∧
      (s.sub1_from_channel chptr).Named := by
  have users := unlinked.users chptr
  rw [if_pos rfl] at users
  unfold sub1_from_channel
  simp only []
  split
  · rename_i last
    have empty : (s.chan chptr).members = [] := List.length_eq_zero_iff.mp (by omega)
    have reset : (s.setChan chptr { s.chan chptr with users := 0 }).Enrolled counted :=
      unlinked.setUsers (by rw [empty]; rfl)
    have stays : (s.setChan chptr { s.chan chptr with users := 0 }).Listed := listed.setUsers 0
    have still : ((s.setChan chptr { s.chan chptr with users := 0 }).chan chptr).members = [] := by
      rw [setChan_chan_self]
      exact empty
    split
    · exact ⟨reset, stays, named⟩
    · exact ⟨reset.destroyChannel still, stays.destroyChannel inList,
        Named.destroyChannel (show (s.setChan chptr { s.chan chptr with users := 0 }).Named from named)⟩
  · exact ⟨unlinked.setUsers (by omega), listed.setUsers _, named⟩

theorem Inhabited.congr {other : Ircd} {c : ChannelId} (inhabited : s.Inhabited c)
    (members : (other.chan c).memberIds = (s.chan c).memberIds)
    (mode : (other.chan c).mode = (s.chan c).mode) (conf : other.conf = s.conf) :
    other.Inhabited c := by
  rcases inhabited with some_ | kept
  · refine .inl ?_
    rw [Ne, members_eq_nil, members, ← members_eq_nil]
    exact some_
  · refine .inr ?_
    unfold Channel.kept at kept ⊢
    rw [mode, conf]
    exact kept

/-- **Counting a user off leaves no ghost.** -/
theorem Unlinked.noGhost (unlinked : s.Unlinked counted chptr) (listed : s.Listed)
    (others : ∀ c ∈ s.channel, c ≠ chptr → s.Inhabited c) :
    (s.sub1_from_channel chptr).NoGhost := by
  have users := unlinked.users chptr
  rw [if_pos rfl] at users
  have quietUsers : ∀ (users : Int) (c : ChannelId), c ∈ s.channel → c ≠ chptr →
      (s.setChan chptr { s.chan chptr with users := users }).Inhabited c := by
    intro users c member ne
    have same := setChan_chan_of_ne s { s.chan chptr with users := users } ne
    exact (others c member ne).congr (by rw [same]) (by rw [same]) rfl
  unfold sub1_from_channel
  simp only []
  split
  · split
    · rename_i kept
      intro c member
      by_cases same : c = chptr
      · subst same
        refine .inr ?_
        rw [setChan_chan_self]
        exact kept
      · exact quietUsers 0 c member same
    · intro c member
      have inOld : c ∈ ((s.setChan chptr
          { s.chan chptr with users := 0 }).withoutInvites chptr).channel.erase chptr := member
      have quiet := withoutInvites_quiet (s.setChan chptr { s.chan chptr with users := 0 }) chptr
      have channel : ((s.setChan chptr
          { s.chan chptr with users := 0 }).withoutInvites chptr).channel = s.channel :=
        quiet.channel
      rw [channel, listed.nodup.mem_erase_iff] at inOld
      refine (quietUsers 0 c inOld.2 inOld.1).congr ?_ ?_ quiet.conf
      · rw [destroyChannel_chan, if_neg inOld.1]
        exact quiet.members c
      · rw [destroyChannel_chan, if_neg inOld.1]
        exact withoutInvites_mode ..
  · rename_i more
    intro c member
    by_cases same : c = chptr
    · subst same
      refine .inl fun empty => ?_
      rw [setChan_chan_self] at empty
      have noMembers : (s.chan c).members = [] := empty
      rw [noMembers, List.length_nil] at users
      omega
    · exact quietUsers _ c member same

/-! ### Leaving a channel -/

theorem remove_channels (chptr : ChannelId) (has : (s.client u).user = some user) :
    (fun v => ((s.remove_user_from_channel u chptr).client v).channels) =
      Function.update (fun v => (s.client v).channels) u ((s.client u).channels.erase chptr) := by
  rw [← unlinkUser_channels chptr has]
  funext v
  unfold remove_user_from_channel
  rw [has]
  simp only []
  unfold sub1_from_channel
  simp only []
  split
  · split
    · rfl
    · exact (withoutInvites_quiet ((s.unlinkUser u user chptr).setChan chptr
        { (s.unlinkUser u user chptr).chan chptr with users := 0 }) chptr).channels v
  · rfl

/-- **The invariants of membership and of the channel lists together.** -/
structure Sound (s : Ircd) (counted : Prop) : Prop where
  enrolled : s.Enrolled counted
  listed : s.Listed
  named : s.Named

theorem Sound.relax (sound : s.Sound counted) : s.Sound False :=
  ⟨⟨⟨sound.enrolled.incident, sound.enrolled.joined, False.elim⟩, sound.enrolled.users⟩, sound.listed,
    sound.named⟩

theorem Sound.inList (sound : s.Sound counted) (on : chptr ∈ (s.client u).channels) :
    chptr ∈ s.channel := by
  by_contra out
  have none_ : (s.chan chptr).memberIds = [] :=
    members_eq_nil.mp (sound.listed.outside chptr out)
  exact sound.enrolled.incident.isolate none_ u on

/-- **Leaving a channel one is on.** -/
theorem Sound.remove (sound : s.Sound counted) (on : chptr ∈ (s.client u).channels) :
    (s.remove_user_from_channel u chptr).Sound counted := by
  obtain ⟨user, has⟩ := exists_user_of_mem on
  have result := (sound.enrolled.unlinkUser has on).sub1 sound.listed.unlinkUser
    (sound.inList on) (sound.named.unlinkUser has)
  unfold remove_user_from_channel
  rw [has]
  exact ⟨result.1, result.2.1, result.2.2⟩

theorem NoGhost.remove (noGhost : s.NoGhost) (sound : s.Sound counted)
    (on : chptr ∈ (s.client u).channels) : (s.remove_user_from_channel u chptr).NoGhost := by
  obtain ⟨user, has⟩ := exists_user_of_mem on
  unfold remove_user_from_channel
  rw [has]
  refine (sound.enrolled.unlinkUser has on).noGhost sound.listed.unlinkUser
    fun c member ne => ?_
  have same : (s.unlinkUser u user chptr).chan c = s.chan c := by
    rw [unlinkUser_chan_eq, if_neg ne]
  exact (noGhost c member).congr (by rw [same]) (by rw [same]) rfl

/-! ### Leaving all channels -/

/-- **The loop over `user->channel`**: with enough rounds the list is empty at the end. -/
theorem Sound.removeFromAll {before : Ircd → ChannelId → Ircd}
    (quiet : ∀ s c, Quiet s (before s c)) :
    ∀ (fuel : Nat) (s : Ircd), s.Sound counted → (s.client u).channels.length ≤ fuel →
      (Ircd.removeFromAll before u fuel s).Sound counted ∧
        ((Ircd.removeFromAll before u fuel s).client u).channels = []
  | 0, s, sound, enough => ⟨sound, List.length_eq_zero_iff.mp (Nat.le_zero.mp enough)⟩
  | fuel + 1, s, sound, enough => by
    unfold Ircd.removeFromAll
    split
    · rename_i none_
      exact ⟨sound, none_⟩
    · rename_i c rest some_
      have still := quiet s c
      have sound' : (before s c).Sound counted :=
        ⟨still.enrolled sound.enrolled, still.listed sound.listed, still.named sound.named⟩
      have channels : ((before s c).client u).channels = c :: rest := by
        rw [still.channels, some_]
      have on : c ∈ ((before s c).client u).channels := by
        rw [channels]
        exact List.mem_cons_self
      obtain ⟨user, has⟩ := exists_user_of_mem on
      have fewer : (((before s c).remove_user_from_channel u c).client u).channels = rest := by
        have all := congrFun (remove_channels c has) u
        rw [Function.update_self, channels, List.erase_cons_head] at all
        exact all
      refine Sound.removeFromAll quiet fuel _ (sound'.remove on) ?_
      rw [fewer]
      rw [some_, List.length_cons] at enough
      omega

theorem NoGhost.removeFromAll {before : Ircd → ChannelId → Ircd}
    (quiet : ∀ s c, Quiet s (before s c))
    (modes : ∀ s c d, ((before s c).chan d).mode = (s.chan d).mode) :
    ∀ (fuel : Nat) (s : Ircd), s.Sound counted → s.NoGhost →
      (Ircd.removeFromAll before u fuel s).NoGhost
  | 0, _, _, noGhost => noGhost
  | fuel + 1, s, sound, noGhost => by
    unfold Ircd.removeFromAll
    split
    · exact noGhost
    · rename_i c rest some_
      have still := quiet s c
      have sound' : (before s c).Sound counted :=
        ⟨still.enrolled sound.enrolled, still.listed sound.listed, still.named sound.named⟩
      have on : c ∈ ((before s c).client u).channels := by
        rw [still.channels, some_]
        exact List.mem_cons_self
      have noGhost' : (before s c).NoGhost := by
        intro d member
        rw [still.channel] at member
        exact (noGhost d member).congr (still.members d) (modes s c d) still.conf
      exact NoGhost.removeFromAll quiet modes fuel _ (sound'.remove on) (noGhost'.remove sound' on)

end Leave

/-! ### Creating a channel -/

section Create

variable {s : Ircd} {counted : Prop}

theorem createChannel_chan (s : Ircd) (chname : Text) (c : ChannelId) :
    ((s.createChannel chname).1.chan c) =
      if c = s.nextChan then .zero chname s.now else s.chan c := by
  by_cases same : c = s.nextChan
  · rw [if_pos same, same]
    exact Function.update_self ..
  · rw [if_neg same]
    exact Function.update_of_ne same ..

/-- **A new channel starts without members.** -/
theorem Sound.createChannel (sound : s.Sound counted) (chname : Text) :
    (s.createChannel chname).1.Sound counted := by
  have unused : s.nextChan ∉ s.channel := fun member =>
    absurd (sound.listed.below _ member) (Nat.lt_irrefl _)
  have empty : (s.chan s.nextChan).members = [] := sound.listed.outside _ unused
  have ids : (s.chan s.nextChan).memberIds = [] := members_eq_nil.mp empty
  have users : (s.chan s.nextChan).users = 0 := by rw [sound.enrolled.users, empty]; rfl
  have iusers : counted → (s.chan s.nextChan).iusers = 0 := fun counts => by
    rw [sound.enrolled.iusers counts]
    unfold stealthMembers
    rw [ids]
    rfl
  have same : SameMembership s (s.createChannel chname).1 ∧
      (counted → ∀ c, ((s.createChannel chname).1.chan c).iusers = (s.chan c).iusers) := by
    refine ⟨⟨fun _ => rfl, fun _ => rfl, fun c => ?_, fun c => ?_⟩, fun counts c => ?_⟩
    all_goals
      rw [createChannel_chan]
      split
    · rename_i eq; rw [eq, ids]; rfl
    · rfl
    · rename_i eq; rw [eq, users]; rfl
    · rfl
    · rename_i eq; rw [eq, iusers counts]; rfl
    · rfl
  refine ⟨same.1.enrolled (fun _ _ => rfl) same.2 sound.enrolled, ⟨?_, ?_, ?_, ?_, ?_⟩, sound.named⟩
  · exact List.nodup_cons.mpr ⟨unused, sound.listed.nodup⟩
  · have renamed : s.channelTable.Holds
        (fun c => hashChannelName ((s.createChannel chname).1.chan c).chname) s.channel :=
      sound.listed.table.congr fun c member => by
        have ne : c ≠ s.nextChan := fun eq => unused (eq ▸ member)
        rw [createChannel_chan, if_neg ne]
    have added := renamed.add unused
    have bucket : hashChannelName ((s.createChannel chname).1.chan s.nextChan).chname =
        hashChannelName chname := by
      rw [createChannel_chan, if_pos rfl]
      rfl
    simp only [bucket] at added
    exact added
  · show s.countChan + 1 = _
    rw [sound.listed.count]
    exact (Int.natCast_add ..).symm
  · intro c member
    rcases List.mem_cons.mp member with rfl | member
    · exact Nat.lt_succ_self _
    · exact Nat.lt_succ_of_lt (sound.listed.below c member)
  · intro c notIn
    rw [createChannel_chan]
    split
    · rfl
    · exact sound.listed.outside c fun member => notIn (List.mem_cons_of_mem _ member)

theorem Sound.get_channel_create (sound : s.Sound counted) (cptr : ClientId) (chname : Text) :
    (s.get_channel_create cptr chname).1.Sound counted ∧
      (s.get_channel_create cptr chname).2 ∈ (s.get_channel_create cptr chname).1.channel := by
  unfold Ircd.get_channel_create
  split
  · rename_i c found
    have spec := Lib.ChainTable.find_some found
    exact ⟨sound, ((sound.listed.table.mem _ _).mp spec.1).1⟩
  · exact ⟨sound.createChannel _, List.mem_cons_self⟩

theorem get_channel_create_inhabited (sound : s.Sound counted) (cptr : ClientId) (chname : Text)
    {c : ChannelId} (member : c ∈ s.channel) (inhabited : s.Inhabited c) :
    (s.get_channel_create cptr chname).1.Inhabited c := by
  unfold Ircd.get_channel_create
  split
  · exact inhabited
  · have ne : c ≠ s.nextChan := Nat.ne_of_lt (sound.listed.below c member)
    have same := createChannel_chan s (s.cutName cptr chname) c
    rw [if_neg ne] at same
    exact inhabited.congr (by rw [same]) (by rw [same]) rfl

end Create

end PtlinkIrcd.Ircd
