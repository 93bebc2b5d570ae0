/-
**Membership is recorded consistently.**

Who is on which channel is kept twice (`members` of the channel, `user->channel` of the user) and
counted three times (`users`, `iusers`, `joined`).

* `Consistent` — the two lists record one relation without repetition and the counters are right.
* `Enrolled counted` — the same, with `iusers` only where it is `counted`: that count is wrong once the
  stealth mode of a member changes, and what the channels do does not depend on it.
* `Listed` — the list of all channels and the hash table hold the same channels, once each,
  `Count.chan` counts them, and nobody is on a block that is not listed.
* Every operation of `Membership.lean` keeps both: `add_user_to_channel`, `unlinkUser` with
  `sub1_from_channel`, `get_channel_create`, `del_invite`.
-/

import PtlinkIrcd.Channel.Membership
import PtlinkIrcd.Lib.Incidence

set_option linter.unusedSectionVars false

namespace PtlinkIrcd

def Channel.memberIds (c : Channel) : List ClientId := c.members.map Member.cptr

namespace Ircd

/-! ### The invariants -/

/-- The number of members that hold `UMODE_STEALTH`. -/
def stealthMembers (s : Ircd) (c : Channel) : Nat :=
  c.memberIds.countP fun u => (s.client u).isStealth

/-- Both lists record the same relation, without repetition. -/
def Linked (s : Ircd) : Prop :=
  Lib.Incident (fun u => (s.client u).channels) fun c => (s.chan c).memberIds

/-- **Everything recorded about membership is right.** -/
structure Consistent (s : Ircd) : Prop where
  incident : Lib.Incident (fun u => (s.client u).channels) fun c => (s.chan c).memberIds
  joined : ∀ u, (s.client u).joined = (s.client u).channels.length
  iusers : ∀ c, (s.chan c).iusers = s.stealthMembers (s.chan c)
  users : ∀ c, (s.chan c).users = (s.chan c).members.length

/-- **Both lists record the same relation, without repetition, and the counters of joined channels
and, if they are `counted`, of stealth members are right.** -/
structure Recorded (s : Ircd) (counted : Prop) : Prop where
  incident : Lib.Incident (fun u => (s.client u).channels) fun c => (s.chan c).memberIds
  joined : ∀ u, (s.client u).joined = (s.client u).channels.length
  iusers : counted → ∀ c, (s.chan c).iusers = s.stealthMembers (s.chan c)

/-- **Everything recorded about membership is right**, the stealth members as far as they are
`counted`. -/
structure Enrolled (s : Ircd) (counted : Prop) : Prop extends Recorded s counted where
  users : ∀ c, (s.chan c).users = (s.chan c).members.length

theorem Enrolled.consistent {s : Ircd} (enrolled : s.Enrolled True) : s.Consistent :=
  ⟨enrolled.incident, enrolled.joined, enrolled.iusers trivial, enrolled.users⟩

/-- **The channel list, the hash table and `Count.chan` agree, and only listed channels have
members.** -/
structure Listed (s : Ircd) : Prop where
  nodup : s.channel.Nodup
  table : s.channelTable.Holds (fun c => hashChannelName (s.chan c).chname) s.channel
  count : s.countChan = s.channel.length
  below : ∀ c ∈ s.channel, c < s.nextChan
  outside : ∀ c, c ∉ s.channel → (s.chan c).members = []

/-- Every client with a user is a registered person with a nick. -/
def Named (s : Ircd) : Prop :=
  ∀ u, (s.client u).user.isSome → (s.client u).isClient ∧ (s.client u).name ≠ []

/-! ### Reading the relation -/

section Reading

variable {s : Ircd}

theorem isMember_iff {u : ClientId} {c : ChannelId} :
    s.isMember u c = true ↔ c ∈ (s.client u).channels := by
  unfold isMember
  exact decide_eq_true_iff

theorem channels_eq {u : ClientId} {user : User} (has : (s.client u).user = some user) :
    (s.client u).channels = user.channel := by
  unfold Client.channels
  rw [has]
  rfl

theorem joined_eq {u : ClientId} {user : User} (has : (s.client u).user = some user) :
    (s.client u).joined = user.joined := by
  unfold Client.joined
  rw [has]
  rfl

theorem exists_user_of_mem {u : ClientId} {c : ChannelId} (on : c ∈ (s.client u).channels) :
    ∃ user, (s.client u).user = some user := by
  unfold Client.channels at on
  cases has : (s.client u).user with
  | none => rw [has] at on; exact absurd on List.not_mem_nil
  | some user => exact ⟨user, rfl⟩

theorem setUser_channels (s : Ircd) (u : ClientId) (user : User) :
    (fun v => ((s.setUser u user).client v).channels) =
      Function.update (fun v => (s.client v).channels) u user.channel := by
  funext v
  by_cases same : v = u
  · subst same
    rw [setUser_client_self, Function.update_self]
    rfl
  · rw [setUser_client_of_ne s user same, Function.update_of_ne same]

theorem setUser_joined (s : Ircd) (u : ClientId) (user : User) :
    (fun v => ((s.setUser u user).client v).joined) =
      Function.update (fun v => (s.client v).joined) u user.joined := by
  funext v
  by_cases same : v = u
  · subst same
    rw [setUser_client_self, Function.update_self]
    rfl
  · rw [setUser_client_of_ne s user same, Function.update_of_ne same]

theorem setChan_memberIds (s : Ircd) (chptr : ChannelId) (c : Channel) :
    (fun d => ((s.setChan chptr c).chan d).memberIds) =
      Function.update (fun d => (s.chan d).memberIds) chptr c.memberIds := by
  funext d
  by_cases same : d = chptr
  · subst same
    rw [setChan_chan_self, Function.update_self]
  · rw [setChan_chan_of_ne s c same, Function.update_of_ne same]

theorem stealthMembers_congr {other : Ircd}
    (same : ∀ u, (other.client u).isStealth = (s.client u).isStealth) (c : Channel) :
    other.stealthMembers c = s.stealthMembers c := by
  unfold stealthMembers
  exact congrArg (fun p => c.memberIds.countP p) (funext same)

end Reading

theorem length_members (c : Channel) : c.members.length = c.memberIds.length :=
  (List.length_map ..).symm

theorem members_eq_nil {c : Channel} : c.members = [] ↔ c.memberIds = [] :=
  List.map_eq_nil_iff.symm

/-! ### Steps that leave membership alone -/

/-- The lists and the counters of membership are unchanged, that of stealth members apart. -/
structure SameMembership (s other : Ircd) : Prop where
  channels : ∀ u, (other.client u).channels = (s.client u).channels
  joined : ∀ u, (other.client u).joined = (s.client u).joined
  members : ∀ c, (other.chan c).memberIds = (s.chan c).memberIds
  users : ∀ c, (other.chan c).users = (s.chan c).users

/-- Nothing that the invariants read is changed. -/
structure Quiet (s other : Ircd) : Prop extends SameMembership s other where
  stealth : ∀ u, (other.client u).isStealth = (s.client u).isStealth
  iusers : ∀ c, (other.chan c).iusers = (s.chan c).iusers
  hasUser : ∀ u, (other.client u).user.isSome = (s.client u).user.isSome
  status : ∀ u, (other.client u).status = (s.client u).status
  name : ∀ u, (other.client u).name = (s.client u).name
  chname : ∀ c, (other.chan c).chname = (s.chan c).chname
  channel : other.channel = s.channel
  table : other.channelTable = s.channelTable
  count : other.countChan = s.countChan
  nextChan : other.nextChan = s.nextChan
  conf : other.conf = s.conf

theorem SameMembership.linked {s other : Ircd} (same : SameMembership s other)
    (linked : s.Linked) : other.Linked := by
  have left : (fun u => (other.client u).channels) = fun u => (s.client u).channels :=
    funext same.channels
  have right : (fun c => (other.chan c).memberIds) = fun c => (s.chan c).memberIds :=
    funext same.members
  unfold Linked
  rw [left, right]
  exact linked

theorem SameMembership.recorded {s other : Ircd} {counted : Prop} (same : SameMembership s other)
    (stealth : counted → ∀ u, (other.client u).isStealth = (s.client u).isStealth)
    (iusers : counted → ∀ c, (other.chan c).iusers = (s.chan c).iusers)
    (recorded : s.Recorded counted) : other.Recorded counted where
  incident := same.linked recorded.incident
  joined u := by rw [same.joined, same.channels, recorded.joined]
  iusers counts c := by
    rw [iusers counts, recorded.iusers counts, stealthMembers_congr (stealth counts)]
    unfold stealthMembers
    rw [same.members]

theorem SameMembership.enrolled {s other : Ircd} {counted : Prop} (same : SameMembership s other)
    (stealth : counted → ∀ u, (other.client u).isStealth = (s.client u).isStealth)
    (iusers : counted → ∀ c, (other.chan c).iusers = (s.chan c).iusers)
    (enrolled : s.Enrolled counted) : other.Enrolled counted where
  toRecorded := same.recorded stealth iusers enrolled.toRecorded
  users c := by
    rw [same.users, enrolled.users, length_members, length_members, same.members]

namespace Quiet

variable {s other third : Ircd}

theorem refl (s : Ircd) : Quiet s s := by
  refine ⟨⟨?_, ?_, ?_, ?_⟩, ?_, ?_, ?_, ?_, ?_, ?_, ?_, ?_, ?_, ?_, ?_⟩
  all_goals first | rfl | exact fun _ => rfl

theorem trans (first : Quiet s other) (second : Quiet other third) : Quiet s third where
  channels u := (second.channels u).trans (first.channels u)
  joined u := (second.joined u).trans (first.joined u)
  stealth u := (second.stealth u).trans (first.stealth u)
  hasUser u := (second.hasUser u).trans (first.hasUser u)
  status u := (second.status u).trans (first.status u)
  name u := (second.name u).trans (first.name u)
  members c := (second.members c).trans (first.members c)
  users c := (second.users c).trans (first.users c)
  iusers c := (second.iusers c).trans (first.iusers c)
  chname c := (second.chname c).trans (first.chname c)
  channel := second.channel.trans first.channel
  table := second.table.trans first.table
  count := second.count.trans first.count
  nextChan := second.nextChan.trans first.nextChan
  conf := second.conf.trans first.conf

theorem enrolled {counted : Prop} (quiet : Quiet s other) (enrolled : s.Enrolled counted) :
    other.Enrolled counted :=
  quiet.toSameMembership.enrolled (fun _ => quiet.stealth) (fun _ => quiet.iusers) enrolled

theorem send (s : Ircd) (event : Sent) : Quiet s (s.send event) := by
  refine ⟨⟨?_, ?_, ?_, ?_⟩, ?_, ?_, ?_, ?_, ?_, ?_, ?_, ?_, ?_, ?_, ?_⟩
  all_goals first | rfl | exact fun _ => rfl

theorem listed (quiet : Quiet s other) (listed : s.Listed) : other.Listed where
  nodup := by rw [quiet.channel]; exact listed.nodup
  table := by
    rw [quiet.table, quiet.channel]
    exact listed.table.congr fun c _ => by rw [quiet.chname]
  count := by rw [quiet.count, quiet.channel]; exact listed.count
  below := by rw [quiet.channel, quiet.nextChan]; exact listed.below
  outside c notIn := by
    rw [members_eq_nil, quiet.members, ← members_eq_nil]
    exact listed.outside c (by rwa [quiet.channel] at notIn)

theorem named (quiet : Quiet s other) (named : s.Named) : other.Named := fun u has => by
  have old := named u (by rw [← quiet.hasUser]; exact has)
  refine ⟨?_, ?_⟩
  · unfold Client.isClient
    rw [quiet.status]
    exact old.1
  · rw [quiet.name]
    exact old.2

/-- Writing the parts of a channel block that the invariants do not read. -/
theorem setChan {chptr : ChannelId} {c : Channel} (members : c.memberIds = (s.chan chptr).memberIds)
    (users : c.users = (s.chan chptr).users) (iusers : c.iusers = (s.chan chptr).iusers)
    (chname : c.chname = (s.chan chptr).chname) : Quiet s (s.setChan chptr c) := by
  have cases : ∀ d, (s.setChan chptr c).chan d = s.chan d ∨
      d = chptr ∧ (s.setChan chptr c).chan d = c := by
    intro d
    by_cases same : d = chptr
    · subst same
      exact .inr ⟨rfl, setChan_chan_self ..⟩
    · exact .inl (setChan_chan_of_ne s c same)
  refine ⟨⟨?_, ?_, ?members, ?users⟩, ?_, ?iusers, ?_, ?_, ?_, ?chname, ?_, ?_, ?_, ?_, ?_⟩
  case members | users | iusers | chname =>
    intro d
    rcases cases d with same | ⟨rfl, same⟩
    · rw [same]
    · rw [same]; assumption
  all_goals first | rfl | exact fun _ => rfl

theorem setUser {u : ClientId} {old user : User} (has : (s.client u).user = some old)
    (channel : user.channel = old.channel) (joined : user.joined = old.joined) :
    Quiet s (s.setUser u user) := by
  have cases : ∀ v, (s.setUser u user).client v = s.client v ∨
      v = u ∧ (s.setUser u user).client v = { s.client u with user := some user } := by
    intro v
    by_cases same : v = u
    · subst same
      exact .inr ⟨rfl, setUser_client_self ..⟩
    · exact .inl (setUser_client_of_ne s user same)
  refine ⟨⟨?channels, ?joined, ?_, ?_⟩, ?stealth, ?_, ?hasUser, ?status, ?name, ?_, ?_, ?_, ?_, ?_,
    ?_⟩
  case channels =>
    intro v
    rcases cases v with same | ⟨rfl, same⟩
    · rw [same]
    · rw [same, channels_eq has, ← channel]; rfl
  case joined =>
    intro v
    rcases cases v with same | ⟨rfl, same⟩
    · rw [same]
    · rw [same, joined_eq has, ← joined]; rfl
  case hasUser =>
    intro v
    rcases cases v with same | ⟨rfl, same⟩
    · rw [same]
    · rw [same, has]; rfl
  case stealth =>
    intro v
    rcases cases v with same | ⟨rfl, same⟩
    · rw [same]
    · rw [same]; rfl
  case status | name =>
    intro v
    rcases cases v with same | ⟨rfl, same⟩ <;> rw [same]
  all_goals first | rfl | exact fun _ => rfl

theorem setInvited (s : Ircd) (u : ClientId) (invited : List ChannelId) :
    Quiet s (s.setInvited u invited) := by
  unfold Ircd.setInvited
  cases has : (s.client u).user with
  | none => exact refl s
  | some user => exact setUser has rfl rfl

theorem del_invite (s : Ircd) (u : ClientId) (chptr : ChannelId) :
    Quiet s (s.del_invite u chptr) := by
  have first : Quiet s (s.setChan chptr
      { s.chan chptr with invites := (s.chan chptr).invites.erase u }) := setChan rfl rfl rfl rfl
  exact first.trans (setInvited ..)

theorem foldl {ι : Type} (step : Ircd → ι → Ircd) (quiet : ∀ s i, Quiet s (step s i))
    (items : List ι) (s : Ircd) : Quiet s (items.foldl step s) := by
  induction items generalizing s with
  | nil => exact refl s
  | cons item items ih => exact (quiet s item).trans (ih _)

end Quiet

/-! ### Entering a channel -/

section Add

variable {s : Ircd} {chptr : ChannelId} {who : ClientId} {user : User} {flags : Flags} {counted : Prop}

theorem add_user_chan (has : (s.client who).user = some user) :
    (fun c => ((s.add_user_to_channel chptr who flags).chan c).memberIds) =
      Function.update (fun c => (s.chan c).memberIds) chptr
        (who :: (s.chan chptr).memberIds) := by
  unfold add_user_to_channel
  rw [has]
  exact setChan_memberIds ..

theorem add_user_channels (chptr : ChannelId) (flags : Flags)
    (has : (s.client who).user = some user) :
    (fun u => ((s.add_user_to_channel chptr who flags).client u).channels) =
      Function.update (fun u => (s.client u).channels) who (chptr :: (s.client who).channels) := by
  rw [channels_eq has]
  unfold add_user_to_channel
  rw [has]
  exact setUser_channels ..

theorem add_user_isStealth (u : ClientId) :
    ((s.add_user_to_channel chptr who flags).client u).isStealth = (s.client u).isStealth := by
  unfold add_user_to_channel
  split
  · rfl
  · rw [setUser_isStealth, setChan_client]

theorem add_user_chan_eq (has : (s.client who).user = some user) (c : ChannelId) :
    (s.add_user_to_channel chptr who flags).chan c =
      if c = chptr then
        { s.chan chptr with
          members := ⟨who, flags⟩ :: (s.chan chptr).members
          users := (s.chan chptr).users + 1
          iusers :=
            if (s.client who).isStealth then (s.chan chptr).iusers + 1 else (s.chan chptr).iusers }
      else s.chan c := by
  unfold add_user_to_channel
  rw [has]
  by_cases same : c = chptr
  · rw [if_pos same, same]
    exact setChan_chan_self ..
  · rw [if_neg same]
    exact setChan_chan_of_ne s _ same

theorem Linked.add_user (linked : s.Linked) (has : (s.client who).user = some user)
    (off : chptr ∉ (s.client who).channels) :
    (s.add_user_to_channel chptr who flags).Linked := by
  unfold Linked
  rw [add_user_channels chptr flags has, add_user_chan has]
  exact Lib.Incident.link linked off

/-- **Adding a user who is not yet on the channel.** -/
theorem Enrolled.add_user (enrolled : s.Enrolled counted) (has : (s.client who).user = some user)
    (off : chptr ∉ (s.client who).channels) :
    (s.add_user_to_channel chptr who flags).Enrolled counted where
  incident := Linked.add_user enrolled.incident has off
  joined u := by
    have channels := congrFun (add_user_channels chptr flags has) u
    have joined : ((s.add_user_to_channel chptr who flags).client u).joined =
        Function.update (fun v => (s.client v).joined) who (user.joined + 1) u := by
      unfold add_user_to_channel
      rw [has]
      exact congrFun (setUser_joined ..) u
    rw [joined, channels]
    by_cases same : u = who
    · rw [same, Function.update_self, Function.update_self, List.length_cons, ← joined_eq has,
        enrolled.joined]
      exact (Int.natCast_add ..).symm
    · rw [Function.update_of_ne same, Function.update_of_ne same, enrolled.joined]
  iusers counts c := by
    rw [stealthMembers_congr add_user_isStealth, add_user_chan_eq has]
    by_cases same : c = chptr
    · rw [if_pos same]
      have old := enrolled.iusers counts chptr
      unfold stealthMembers Channel.memberIds at old ⊢
      rw [List.map_cons, List.countP_cons]
      by_cases stealth : (s.client who).isStealth = true
      · rw [if_pos stealth, if_pos stealth, old]
        exact (Int.natCast_add ..).symm
      · rw [if_neg stealth, if_neg stealth, old, Nat.add_zero]
    · rw [if_neg same, enrolled.iusers counts]
  users c := by
    rw [add_user_chan_eq has]
    by_cases same : c = chptr
    · rw [if_pos same, List.length_cons, enrolled.users]
      exact (Int.natCast_add ..).symm
    · rw [if_neg same, enrolled.users]

theorem Listed.add_user (listed : s.Listed) (inList : chptr ∈ s.channel) :
    (s.add_user_to_channel chptr who flags).Listed := by
  cases has : (s.client who).user with
  | none =>
    unfold add_user_to_channel
    rw [has]
    exact listed
  | some user =>
    have lists : (s.add_user_to_channel chptr who flags).channel = s.channel ∧
        (s.add_user_to_channel chptr who flags).channelTable = s.channelTable ∧
        (s.add_user_to_channel chptr who flags).countChan = s.countChan ∧
        (s.add_user_to_channel chptr who flags).nextChan = s.nextChan := by
      unfold add_user_to_channel
      rw [has]
      exact ⟨rfl, rfl, rfl, rfl⟩
    obtain ⟨channel, table, count, nextChan⟩ := lists
    refine ⟨by rw [channel]; exact listed.nodup, ?_, by rw [count, channel]; exact listed.count,
      by rw [channel, nextChan]; exact listed.below, ?_⟩
    · rw [table, channel]
      refine listed.table.congr fun c _ => ?_
      rw [add_user_chan_eq has]
      split
      · rename_i same; rw [same]
      · rfl
    · intro c notIn
      rw [channel] at notIn
      have ne : c ≠ chptr := fun same => notIn (same ▸ inList)
      rw [add_user_chan_eq has, if_neg ne]
      exact listed.outside c notIn

theorem Named.add_user (named : s.Named) : (s.add_user_to_channel chptr who flags).Named := by
  unfold add_user_to_channel
  split
  · exact named
  · rename_i user has
    intro u some_
    by_cases same : u = who
    · subst same
      rw [setUser_client_self]
      exact named u (by rw [has]; rfl)
    · rw [setUser_client_of_ne _ _ same] at some_ ⊢
      exact named u some_

end Add

/-! ### Leaving a channel -/

section Remove

variable {s : Ircd} {chptr : ChannelId} {u : ClientId} {user : User} {counted : Prop}

theorem memberIds_eraseP (members : List Member) (u : ClientId) :
    (members.eraseP fun l => l.cptr = u).map Member.cptr = (members.map Member.cptr).erase u := by
  induction members with
  | nil => rfl
  | cons l members ih =>
    by_cases same : l.cptr = u
    · simp [same]
    · simp [same, ih]

theorem unlinkUser_chan_eq (c : ChannelId) :
    (s.unlinkUser u user chptr).chan c =
      if c = chptr then
        { s.chan chptr with
          members := (s.chan chptr).members.eraseP fun l => l.cptr = u
          iusers :=
            if (s.client u).isStealth then (s.chan chptr).iusers - 1 else (s.chan chptr).iusers }
      else s.chan c := by
  by_cases same : c = chptr
  · rw [if_pos same, same]
    exact setChan_chan_self ..
  · rw [if_neg same]
    exact setChan_chan_of_ne s _ same

theorem unlinkUser_isStealth (v : ClientId) :
    ((s.unlinkUser u user chptr).client v).isStealth = (s.client v).isStealth := by
  unfold unlinkUser
  rw [setUser_isStealth, setChan_client]

theorem unlinkUser_channels (chptr : ChannelId) (has : (s.client u).user = some user) :
    (fun v => ((s.unlinkUser u user chptr).client v).channels) =
      Function.update (fun v => (s.client v).channels) u ((s.client u).channels.erase chptr) := by
  rw [channels_eq has]
  exact setUser_channels ..

theorem unlinkUser_memberIds :
    (fun c => ((s.unlinkUser u user chptr).chan c).memberIds) =
      Function.update (fun c => (s.chan c).memberIds) chptr ((s.chan chptr).memberIds.erase u) := by
  have erased := memberIds_eraseP (s.chan chptr).members u
  have update := setChan_memberIds s chptr
    { s.chan chptr with
      members := (s.chan chptr).members.eraseP fun l => l.cptr = u
      iusers :=
        if (s.client u).isStealth then (s.chan chptr).iusers - 1 else (s.chan chptr).iusers }
  rw [Channel.memberIds, erased] at update
  exact update

/-- Unlinking a member keeps both lists and the counters of stealth members and joined channels. -/
theorem Recorded.unlinkUser (recorded : s.Recorded counted) (has : (s.client u).user = some user)
    (on : chptr ∈ (s.client u).channels) : (s.unlinkUser u user chptr).Recorded counted where
  incident := by
    rw [unlinkUser_channels chptr has, unlinkUser_memberIds]
    exact recorded.incident.unlink u chptr
  joined v := by
    have channels := congrFun (unlinkUser_channels chptr has) v
    have joined : ((s.unlinkUser u user chptr).client v).joined =
        Function.update (fun v => (s.client v).joined) u (user.joined - 1) v :=
      congrFun (setUser_joined ..) v
    rw [joined, channels]
    by_cases same : v = u
    · have pos : 0 < (s.client u).channels.length := List.length_pos_of_mem on
      rw [same, Function.update_self, Function.update_self, List.length_erase_of_mem on,
        ← joined_eq has, recorded.joined]
      omega
    · rw [Function.update_of_ne same, Function.update_of_ne same, recorded.joined]
  iusers counts c := by
    rw [stealthMembers_congr unlinkUser_isStealth, unlinkUser_chan_eq]
    by_cases same : c = chptr
    · have member : u ∈ (s.chan chptr).memberIds := (recorded.incident.mem_iff _ _).mp on
      have old := recorded.iusers counts chptr
      have count : ((s.chan chptr).memberIds.erase u).countP (fun v => (s.client v).isStealth) +
          (if (s.client u).isStealth then 1 else 0) =
            (s.chan chptr).memberIds.countP fun v => (s.client v).isStealth := by
        rw [(List.perm_cons_erase member).countP_eq, List.countP_cons]
      have erased : s.stealthMembers
          { s.chan chptr with
            members := (s.chan chptr).members.eraseP fun l => l.cptr = u
            iusers :=
              if (s.client u).isStealth then (s.chan chptr).iusers - 1 else (s.chan chptr).iusers } =
          ((s.chan chptr).memberIds.erase u).countP fun v => (s.client v).isStealth :=
        congrArg (List.countP _) (memberIds_eraseP ..)
      unfold stealthMembers at old
      rw [if_pos same, erased, ← Int.add_right_inj (if (s.client u).isStealth then 1 else 0)]
      by_cases stealth : (s.client u).isStealth = true
      · simp only [stealth, if_true] at count ⊢
        omega
      · simp only [stealth, Bool.false_eq_true, if_false] at count ⊢
        omega
    · rw [if_neg same, recorded.iusers counts]

theorem Listed.unlinkUser (listed : s.Listed) : (s.unlinkUser u user chptr).Listed where
  nodup := listed.nodup
  table := by
    refine listed.table.congr fun c _ => ?_
    rw [unlinkUser_chan_eq]
    split
    · rename_i same; rw [same]
    · rfl
  count := listed.count
  below := listed.below
  outside c notIn := by
    have none_ := listed.outside c notIn
    rw [unlinkUser_chan_eq]
    split
    · rename_i same
      show List.eraseP _ (s.chan chptr).members = []
      rw [← same, none_]
      rfl
    · exact none_

theorem Named.setUser (t : Ircd) (named : t.Named) (has : (t.client u).user.isSome) :
    (t.setUser u user).Named := fun v some_ => by
  by_cases same : v = u
  · subst same
    rw [setUser_client_self]
    exact named v has
  · rw [setUser_client_of_ne _ _ same] at some_ ⊢
    exact named v some_

theorem Named.unlinkUser (named : s.Named) (has : (s.client u).user = some user) :
    (s.unlinkUser u user chptr).Named :=
  Named.setUser (s.setChan chptr _) named (by rw [setChan_client, has]; rfl)

end Remove

end Ircd

end PtlinkIrcd
