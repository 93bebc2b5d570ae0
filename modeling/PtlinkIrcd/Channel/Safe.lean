/-
**JOIN, PART and KICK keep the membership invariants.**

* `Still` — a step that changes nothing the invariants read.
* `Safe` — a step from sound states to sound ones that leaves no ghost behind and takes no user
  block away. Closed under composition; `Still` steps are safe.
* `Safe.m_join`, `Safe.m_part`, `Safe.m_kick`.

A channel made for a join is entered at once: nothing in `can_join` refuses a new channel
(`can_join_new`).
-/

import PtlinkIrcd.Channel.JoinPartKick
import PtlinkIrcd.Channel.Lifetime

set_option linter.unusedSectionVars false

namespace PtlinkIrcd.Ircd

/-! ### Steps the invariants do not see -/

/-- Nothing that the invariants read is changed, the modes of channels included. -/
structure Still (s other : Ircd) : Prop extends Quiet s other where
  mode : ∀ c, (other.chan c).mode = (s.chan c).mode

namespace Still

variable {s other third : Ircd}

theorem refl (s : Ircd) : Still s s := ⟨.refl s, fun _ => rfl⟩

theorem trans (first : Still s other) (second : Still other third) : Still s third :=
  ⟨first.toQuiet.trans second.toQuiet, fun c => (second.mode c).trans (first.mode c)⟩

theorem same (client : other.client = s.client) (chan : other.chan = s.chan)
    (conf : other.conf = s.conf) (nextChan : other.nextChan = s.nextChan)
    (channelTable : other.channelTable = s.channelTable) (channel : other.channel = s.channel)
    (countChan : other.countChan = s.countChan) : Still s other := by
  refine ⟨⟨⟨?_, ?_, ?_, ?_⟩, ?_, ?_, ?_, ?_, ?_, ?_, ?_, ?_, ?_, ?_, ?_⟩, ?_⟩
  all_goals first
    | assumption
    | exact fun _ => by rw [client]
    | exact fun _ => by rw [chan]

theorem send (s : Ircd) (event : Sent) : Still s (s.send event) := ⟨.send s event, fun _ => rfl⟩

theorem sendIf (s : Ircd) (p : Bool) (event : Sent) : Still s (s.sendIf p event) := by
  unfold Ircd.sendIf
  split
  · exact send s event
  · exact refl s

theorem del_invite (s : Ircd) (u : ClientId) (chptr : ChannelId) :
    Still s (s.del_invite u chptr) :=
  ⟨.del_invite s u chptr, del_invite_mode s u chptr⟩

/-- Writing the parts of a client block that the invariants do not read. -/
theorem setClient {u : ClientId} {x : Client} (user : x.user = (s.client u).user)
    (status : x.status = (s.client u).status) (stealth : x.isStealth = (s.client u).isStealth)
    (name : x.name = (s.client u).name) : Still s (s.setClient u x) := by
  have cases : ∀ v, (s.setClient u x).client v = s.client v ∨
      v = u ∧ (s.setClient u x).client v = x := by
    intro v
    by_cases same : v = u
    · subst same
      exact .inr ⟨rfl, Function.update_self ..⟩
    · exact .inl (Function.update_of_ne same ..)
  refine ⟨⟨⟨?channels, ?joined, fun _ => rfl, fun _ => rfl⟩, ?stealth, fun _ => rfl, ?hasUser,
    ?status, ?name, fun _ => rfl, rfl, rfl, rfl, rfl, rfl⟩, fun _ => rfl⟩
  case channels =>
    intro v
    rcases cases v with same | ⟨rfl, same⟩ <;> rw [same]
    unfold Client.channels
    rw [user]
  case joined =>
    intro v
    rcases cases v with same | ⟨rfl, same⟩ <;> rw [same]
    unfold Client.joined
    rw [user]
  case stealth =>
    intro v
    rcases cases v with same | ⟨rfl, same⟩ <;> rw [same]
    exact stealth
  case hasUser =>
    intro v
    rcases cases v with same | ⟨rfl, same⟩ <;> rw [same]
    rw [user]
  case status =>
    intro v
    rcases cases v with same | ⟨rfl, same⟩ <;> rw [same]
    exact status
  case name =>
    intro v
    rcases cases v with same | ⟨rfl, same⟩ <;> rw [same]
    exact name

end Still

/-! ### Safe steps -/

theorem Sound.quiet {s other : Ircd} {counted : Prop} (sound : s.Sound counted)
    (quiet : Quiet s other) : other.Sound counted :=
  ⟨quiet.enrolled sound.enrolled, quiet.listed sound.listed, quiet.named sound.named⟩

theorem NoGhost.still {s other : Ircd} (noGhost : s.NoGhost) (still : Still s other) :
    other.NoGhost := by
  intro c member
  rw [still.channel] at member
  exact (noGhost c member).congr (still.members c) (still.mode c) still.conf

/-- **A step that keeps the invariants and every user block.** -/
structure Safe (s other : Ircd) : Prop where
  sound : ∀ {counted : Prop}, s.Sound counted → other.Sound counted
  noGhost : s.Sound False → s.NoGhost → other.NoGhost
  hasUser : ∀ u, (other.client u).user.isSome = (s.client u).user.isSome

namespace Safe

variable {s other third : Ircd}

theorem refl (s : Ircd) : Safe s s := ⟨fun sound => sound, fun _ => id, fun _ => rfl⟩

theorem trans (first : Safe s other) (second : Safe other third) : Safe s third where
  sound sound := second.sound (first.sound sound)
  noGhost sound noGhost := second.noGhost (first.sound sound) (first.noGhost sound noGhost)
  hasUser u := (second.hasUser u).trans (first.hasUser u)

theorem still (still : Still s other) : Safe s other :=
  ⟨fun sound => sound.quiet still.toQuiet, fun _ noGhost => noGhost.still still, still.hasUser⟩

theorem send (s : Ircd) (event : Sent) : Safe s (s.send event) := .still (.send s event)

theorem foldl {ι : Type} (step : Ircd → ι → Ircd) (safe : ∀ s i, Safe s (step s i))
    (items : List ι) (s : Ircd) : Safe s (items.foldl step s) := by
  induction items generalizing s with
  | nil => exact refl s
  | cons item items ih => exact (safe s item).trans (ih _)

/-! ### Leaving -/

theorem setUser_hasUser (t : Ircd) {u : ClientId} {user : User} (has : (t.client u).user.isSome)
    (v : ClientId) : ((t.setUser u user).client v).user.isSome = (t.client v).user.isSome := by
  by_cases same : v = u
  · subst same
    rw [setUser_client_self, has]
    rfl
  · rw [setUser_client_of_ne _ _ same]

theorem remove_hasUser (u v : ClientId) (chptr : ChannelId) :
    ((s.remove_user_from_channel u chptr).client v).user.isSome = (s.client v).user.isSome := by
  unfold remove_user_from_channel
  split
  · rfl
  · rename_i user has
    have unlinked : ((s.unlinkUser u user chptr).client v).user.isSome =
        (s.client v).user.isSome :=
      setUser_hasUser (s.setChan chptr _) (by rw [setChan_client, has]; rfl) v
    rw [← unlinked]
    unfold sub1_from_channel
    simp only []
    split
    · split
      · rfl
      · exact (withoutInvites_quiet ((s.unlinkUser u user chptr).setChan chptr
          { (s.unlinkUser u user chptr).chan chptr with users := 0 }) chptr).hasUser v
    · rfl

theorem remove {u : ClientId} {chptr : ChannelId} (on : chptr ∈ (s.client u).channels) :
    Safe s (s.remove_user_from_channel u chptr) where
  sound sound := sound.remove on
  noGhost sound noGhost := noGhost.remove sound on
  hasUser v := remove_hasUser u v chptr

theorem removeFromAll_hasUser {before : Ircd → ChannelId → Ircd}
    (quiet : ∀ s c, Quiet s (before s c)) (u v : ClientId) :
    ∀ (fuel : Nat) (s : Ircd), ((Ircd.removeFromAll before u fuel s).client v).user.isSome =
      (s.client v).user.isSome
  | 0, _ => rfl
  | fuel + 1, s => by
    unfold Ircd.removeFromAll
    split
    · rfl
    · rename_i c _ _
      rw [removeFromAll_hasUser quiet u v fuel, remove_hasUser, (quiet s c).hasUser]

end Safe

theorem Still.spamLeave (s : Ircd) (u : ClientId) : Still s (s.spamLeave u) := by
  unfold Ircd.spamLeave
  simp only []
  split
  · split
    · exact (Still.send ..).trans (.setClient rfl rfl rfl rfl)
    · exact .setClient rfl rfl rfl rfl
  · exact .refl s

theorem Still.tellPart (s : Ircd) (u : ClientId) (source : Text) (chptr : ChannelId) (name : Text) :
    Still s (s.tellPart u source chptr name) := by
  unfold Ircd.tellPart
  simp only []
  split
  · exact .send ..
  · split
    · exact .send ..
    · exact .refl s

/-! ### PART -/

theorem Safe.partOne (s : Ircd) (cptr sptr : ClientId) (source name : Text) :
    Safe s (s.partOne cptr sptr source name) := by
  unfold Ircd.partOne
  split
  · exact .send ..
  · rename_i chptr _
    simp only []
    split
    · exact .send ..
    · rename_i member
      have on : chptr ∈ (s.client sptr).channels := isMember_iff.mp (by simpa using member)
      have told : ∀ event name,
          Still s ((s.send event).tellPart sptr source chptr name) := fun event name =>
        (Still.send s event).trans (.tellPart ..)
      refine (Safe.still (told _ _)).trans (Safe.remove ?_)
      rw [(told _ _).channels]
      exact on

/-- **PART.** -/
theorem Safe.m_part (s : Ircd) (cptr sptr : ClientId) (parv : List Text) :
    Safe s (s.m_part cptr sptr parv) := by
  unfold Ircd.m_part
  simp only []
  split
  · exact .send ..
  · refine Safe.trans ?_ (Safe.foldl _ (fun s name => Safe.partOne s ..) _ _)
    split
    · exact .still (.spamLeave ..)
    · exact .refl s

/-! ### KICK -/

theorem Still.kickChecks (s : Ircd) (cptr sptr who : ClientId) (source user : Text)
    (chptr : ChannelId) : Still s (s.kickChecks cptr sptr who source user chptr).1 := by
  unfold Ircd.kickChecks
  simp only []
  split
  · exact (Still.send ..).trans (.send ..)
  · have warned := fun a b c (event : Sent) =>
      ((Still.sendIf s a event).trans (.sendIf _ b event)).trans (.sendIf _ c event)
    split
    · exact (warned ..).trans (.send ..)
    · split
      · exact (warned ..).trans (.send ..)
      · exact warned ..

theorem Safe.kickOut (s : Ircd) (cptr sptr who : ClientId) (source name comment : Text)
    (chptr : ChannelId) (on : chptr ∈ (s.client who).channels) :
    Safe s (s.kickOut cptr sptr who source name comment chptr) :=
  (Safe.send ..).trans ((Safe.send ..).trans (Safe.remove on))

theorem Safe.kickWho (s : Ircd) (cptr sptr who : ClientId) (source user name comment : Text)
    (chptr : ChannelId) : Safe s (s.kickWho cptr sptr who source user name comment chptr) := by
  unfold Ircd.kickWho
  simp only []
  split
  · exact .send ..
  · split
    · rename_i member
      have on : chptr ∈ (s.client who).channels := isMember_iff.mp member
      have checked := Still.kickChecks s cptr sptr who source user chptr
      split
      · split
        · exact .still checked
        · refine (Safe.still checked).trans (Safe.kickOut _ _ _ _ _ _ _ _ ?_)
          rw [checked.channels]
          exact on
      · exact Safe.kickOut _ _ _ _ _ _ _ _ on
    · exact .send ..

theorem Still.find_chasing (s : Ircd) (sptr : ClientId) (user : Text) :
    Still s (s.find_chasing sptr user).1 := by
  unfold Ircd.find_chasing
  split
  · exact .refl s
  · split
    · exact .refl s
    · exact .send ..

theorem Safe.kickOn (s : Ircd) (cptr sptr : ClientId) (source user name comment : Text)
    (chptr : ChannelId) : Safe s (s.kickOn cptr sptr source user name comment chptr) := by
  unfold Ircd.kickOn
  simp only []
  split
  · exact .send ..
  · have chased := Still.find_chasing s sptr user
    split
    · rename_i eq
      rw [eq] at chased
      exact .still chased
    · rename_i eq
      rw [eq] at chased
      exact (Safe.still chased).trans (Safe.kickWho ..)

theorem Safe.kickNamed (s : Ircd) (cptr sptr : ClientId) (source user name comment : Text) :
    Safe s (s.kickNamed cptr sptr source user name comment) := by
  unfold Ircd.kickNamed
  split
  · exact .send ..
  · exact Safe.kickOn ..

/-- **KICK.** -/
theorem Safe.m_kick (s : Ircd) (cptr sptr : ClientId) (parv : List Text) :
    Safe s (s.m_kick cptr sptr parv) := by
  unfold Ircd.m_kick
  simp only []
  split
  · exact .send ..
  · exact (Safe.still (.sendIf ..)).trans (Safe.kickNamed ..)

/-! ### JOIN -/

section Join

variable {s : Ircd} {counted : Prop}

theorem Still.spamJoin (s : Ircd) (u : ClientId) (name : Text) :
    Still s (s.spamJoin u name).1 := by
  unfold Ircd.spamJoin
  simp only []
  generalize (if (s.client u).oper_warn_count_down > 0 then
    (s.client u).oper_warn_count_down - 1 else 0 : Int) = count_down
  split
  · split
    · exact (Still.send ..).trans (.setClient rfl rfl rfl rfl)
    · exact .setClient rfl rfl rfl rfl
  · exact .refl s

theorem Still.noteJoins (s : Ircd) (u : ClientId) (successful : Int) :
    Still s (s.noteJoins u successful) := by
  unfold Ircd.noteJoins
  split
  · exact .setClient rfl rfl rfl rfl
  · exact .refl s

theorem Still.can_join (s : Ircd) (u : ClientId) (chptr : ChannelId) (key : Option Text) :
    Still s (s.can_join u chptr key).1 := by
  unfold Ircd.can_join
  simp only []
  split
  · exact .refl s
  · split
    · exact .refl s
    · split
      · exact (Still.send ..).trans (.send ..)
      · split
        · exact .refl s
        · split
          · exact .refl s
          · exact .sendIf ..

theorem joinRefusal_zero (chname : Text) (ts : Int) (x : Client) (key : Option Text) :
    joinRefusal (.zero chname ts) x key = none := by
  have noBan : (Channel.zero chname ts).is_banned x = false := Bool.and_false _
  unfold joinRefusal
  simp only [noBan]
  simp [Channel.zero, Mode.zero]

/-- **Nothing refuses a channel that was just made.** -/
theorem can_join_new {chptr : ChannelId} {chname : Text} {ts : Int}
    (new : s.chan chptr = .zero chname ts) (u : ClientId) (key : Option Text) :
    (s.can_join u chptr key).2 = 0 := by
  have noRefusal : joinRefusal (s.chan chptr) (s.client u) key = none := by
    rw [new, joinRefusal_zero]
  unfold Ircd.can_join
  simp only [noRefusal]
  repeat' split
  all_goals rfl

theorem inhabited_of_mem (sound : s.Sound counted) {u : ClientId} {chptr : ChannelId}
    (on : chptr ∈ (s.client u).channels) : s.Inhabited chptr := by
  refine .inl fun empty => ?_
  exact sound.enrolled.incident.isolate (members_eq_nil.mp empty) u on

/-- All listed channels but one are inhabited. -/
def NoGhostBut (s : Ircd) (chptr : ChannelId) : Prop :=
  ∀ c ∈ s.channel, c ≠ chptr → s.Inhabited c

/-- **A user who enters a channel leaves no ghost there.** -/
theorem NoGhostBut.add_user {chptr : ChannelId} {u : ClientId} {user : User} (flags : Flags)
    (has : (s.client u).user = some user) (others : s.NoGhostBut chptr) :
    (s.add_user_to_channel chptr u flags).NoGhost := by
  intro c member
  have channel : (s.add_user_to_channel chptr u flags).channel = s.channel := by
    unfold add_user_to_channel
    rw [has]
    rfl
  have conf : (s.add_user_to_channel chptr u flags).conf = s.conf := by
    unfold add_user_to_channel
    rw [has]
    rfl
  rw [channel] at member
  by_cases same : c = chptr
  · refine .inl ?_
    rw [add_user_chan_eq has, if_pos same]
    exact List.cons_ne_nil _ _
  · refine (others c member same).congr ?_ ?_ conf <;> rw [add_user_chan_eq has, if_neg same]

theorem add_user_hasUser (chptr : ChannelId) (u v : ClientId) (flags : Flags) :
    ((s.add_user_to_channel chptr u flags).client v).user.isSome = (s.client v).user.isSome := by
  unfold add_user_to_channel
  split
  · rfl
  · rename_i user has
    exact Safe.setUser_hasUser (s.setChan chptr _) (by rw [setChan_client, has]; rfl) v

/-- A step that writes only the modes of one channel. -/
structure StillBut (chptr : ChannelId) (s other : Ircd) : Prop extends Quiet s other where
  mode : ∀ c, c ≠ chptr → (other.chan c).mode = (s.chan c).mode

theorem Still.but {other : Ircd} (still : Still s other) (chptr : ChannelId) :
    StillBut chptr s other :=
  ⟨still.toQuiet, fun c _ => still.mode c⟩

theorem StillBut.trans {chptr : ChannelId} {other third : Ircd} (first : StillBut chptr s other)
    (second : StillBut chptr other third) : StillBut chptr s third :=
  ⟨first.toQuiet.trans second.toQuiet, fun c ne => (second.mode c ne).trans (first.mode c ne)⟩

theorem StillBut.setMode (s : Ircd) (chptr : ChannelId) (mode : Mode) :
    StillBut chptr s (s.setMode chptr mode) :=
  ⟨.setChan rfl rfl rfl rfl, fun _ ne => congrArg Channel.mode (setChan_chan_of_ne s _ ne)⟩

theorem StillBut.setChannelts (s : Ircd) (chptr : ChannelId) (ts : Int) :
    StillBut chptr s (s.setChannelts chptr ts) :=
  ⟨.setChan rfl rfl rfl rfl, fun _ ne => congrArg Channel.mode (setChan_chan_of_ne s _ ne)⟩

theorem StillBut.noGhost {chptr : ChannelId} {other : Ircd} (still : StillBut chptr s other)
    (some_ : (s.chan chptr).members ≠ []) (noGhost : s.NoGhost) : other.NoGhost := by
  intro c member
  rw [still.channel] at member
  by_cases same : c = chptr
  · refine .inl ?_
    rw [Ne, members_eq_nil, still.members, ← members_eq_nil, same]
    exact some_
  · exact (noGhost c member).congr (still.members c) (still.mode c same) still.conf

/-- Everything after the user was added writes only the modes of that channel. -/
theorem enterChannel_but (s : Ircd) (cptr sptr : ClientId) (source name : Text) (chptr : ChannelId)
    (flags : Flags) : StillBut chptr (s.add_user_to_channel chptr sptr flags)
      (s.enterChannel cptr sptr source name chptr flags) := by
  unfold enterChannel
  simp only []
  generalize s.add_user_to_channel chptr sptr flags = s
  have entry : StillBut chptr s (s.tellEntry cptr sptr source name chptr flags) := by
    unfold tellEntry
    split
    · exact (StillBut.setChannelts ..).trans ((Still.send ..).but _)
    · split <;> exact (Still.send ..).but _
  refine entry.trans ?_
  generalize s.tellEntry cptr sptr source name chptr flags = s
  have join : Still s (s.tellJoin sptr source name chptr) := by
    unfold tellJoin
    simp only []
    split
    · exact .send ..
    · exact .sendIf ..
  refine (join.but _).trans ?_
  generalize s.tellJoin sptr source name chptr = s
  have opened : StillBut chptr s (s.openChannel sptr chptr) :=
    (StillBut.setMode ..).trans ((Still.send ..).but _)
  have invited : ∀ (s : Ircd) (event : Sent), StillBut chptr s ((s.del_invite sptr chptr).send event) :=
    fun s event => (((Still.del_invite s sptr chptr).trans (.send _ event)).but _)
  split
  · split
    · exact opened.trans (invited ..)
    · exact invited ..
  · exact (Still.refl s).but _

/-- **Entering a channel.** -/
theorem enterChannel_safe (cptr : ClientId) {sptr : ClientId} (source name : Text)
    {chptr : ChannelId} (flags : Flags) (has : (s.client sptr).user.isSome)
    (sound : s.Sound counted) (off : chptr ∉ (s.client sptr).channels) (inList : chptr ∈ s.channel) :
    (s.enterChannel cptr sptr source name chptr flags).Sound counted ∧
      (s.NoGhostBut chptr → (s.enterChannel cptr sptr source name chptr flags).NoGhost) := by
  obtain ⟨user, has⟩ := Option.isSome_iff_exists.mp has
  have added : (s.add_user_to_channel chptr sptr flags).Sound counted :=
    ⟨sound.enrolled.add_user has off, sound.listed.add_user inList, sound.named.add_user⟩
  have after := enterChannel_but s cptr sptr source name chptr flags
  refine ⟨added.quiet after.toQuiet, fun others => after.noGhost ?_ (others.add_user flags has)⟩
  rw [add_user_chan_eq has, if_pos rfl]
  exact List.cons_ne_nil _ _

theorem get_channel_create_client (s : Ircd) (cptr : ClientId) (chname : Text) :
    (s.get_channel_create cptr chname).1.client = s.client := by
  unfold get_channel_create
  split <;> rfl

theorem get_channel_create_cases (s : Ircd) (cptr : ClientId) (chname : Text) :
    (s.get_channel_create cptr chname).1 = s ∨
      ∃ name, (s.get_channel_create cptr chname).1.chan (s.get_channel_create cptr chname).2 =
        .zero name s.now := by
  unfold get_channel_create
  split
  · exact .inl rfl
  · refine .inr ⟨s.cutName cptr chname, ?_⟩
    show (s.createChannel _).1.chan s.nextChan = _
    rw [createChannel_chan, if_pos rfl]

theorem get_channel_create_but (sound : s.Sound counted) (noGhost : s.NoGhost) (cptr : ClientId)
    (chname : Text) : (s.get_channel_create cptr chname).1.NoGhostBut
      (s.get_channel_create cptr chname).2 := by
  intro c member ne
  have old : c ∈ s.channel := by
    unfold get_channel_create at member ne
    split at member
    · exact member
    · rename_i notFound
      rw [notFound] at ne
      rcases List.mem_cons.mp member with same | old
      · exact absurd same ne
      · exact old
  exact get_channel_create_inhabited sound cptr chname old (noGhost c old)

theorem Safe.joinFound (s : Ircd) (cptr sptr : ClientId) (source name : Text) (key : Option Text)
    (flags : Flags) (successful : Int) (has : (s.client sptr).user.isSome) :
    Safe s (s.joinFound cptr sptr source name key flags successful).1 := by
  have client := get_channel_create_client s sptr name
  have listed := fun (counted : Prop) (sound : s.Sound counted) => sound.get_channel_create sptr name
  have but := fun (sound : s.Sound False) noGhost => get_channel_create_but sound noGhost sptr name
  have cases := get_channel_create_cases s sptr name
  unfold Ircd.joinFound
  simp only []
  generalize s.get_channel_create sptr name = made at client listed but cases ⊢
  obtain ⟨t, chptr⟩ := made
  simp only [] at client listed but cases ⊢
  have entered : ∀ t', Still t t' → chptr ∉ (t.client sptr).channels → ∀ source name,
      Safe s (t'.enterChannel cptr sptr source name chptr flags) := by
    intro t' still off source name
    have has' : (t'.client sptr).user.isSome := by rw [still.hasUser, client]; exact has
    have off' : chptr ∉ (t'.client sptr).channels := by rw [still.channels]; exact off
    have done := fun (counted : Prop) (sound : s.Sound counted) =>
      enterChannel_safe cptr source name flags has' ((listed counted sound).1.quiet still.toQuiet) off'
        (by rw [still.channel]; exact (listed counted sound).2)
    refine ⟨fun sound => (done _ sound).1, fun sound noGhost => (done _ sound).2 ?_, fun u => ?_⟩
    · intro c member ne
      rw [still.channel] at member
      exact (but sound noGhost c member ne).congr (still.members c) (still.mode c) still.conf
    · rw [(enterChannel_but t' cptr sptr source name chptr flags).hasUser, add_user_hasUser,
        still.hasUser, client]
  split
  · rename_i member
    have on : chptr ∈ (t.client sptr).channels := isMember_iff.mp member
    refine ⟨fun sound => (listed _ sound).1, fun sound noGhost c inList => ?_, fun u => by rw [client]⟩
    by_cases same : c = chptr
    · rw [same]
      exact inhabited_of_mem (listed _ sound).1 on
    · exact but sound noGhost c inList same
  · rename_i member
    have off : chptr ∉ (t.client sptr).channels := fun on => member (isMember_iff.mpr on)
    split
    · have checked := Still.can_join t sptr chptr key
      split
      · rename_i refused
        rcases cases with same | ⟨chname, new⟩
        · rw [same] at checked ⊢
          exact (Safe.still checked).trans (.send ..)
        · exact absurd (can_join_new new sptr key) refused
      · exact entered _ checked off _ _
    · exact entered t (.refl t) off _ _

theorem Safe.joinZero (s : Ircd) (cptr sptr : ClientId) (source : Text) :
    Safe s (s.joinZero cptr sptr source) := by
  unfold Ircd.joinZero
  split
  · exact .refl s
  · have told : ∀ (s : Ircd) (c : ChannelId),
        Still s (s.tellPart sptr source c (s.chan c).chname) := fun s c => .tellPart ..
    have left : Safe s (Ircd.removeFromAll
        (fun s chptr => s.tellPart sptr source chptr (s.chan chptr).chname) sptr
        (s.client sptr).channels.length s) := ⟨fun sound =>
      (Sound.removeFromAll (fun s c => (told s c).toQuiet) _ s sound (Nat.le_refl _)).1,
      fun sound => NoGhost.removeFromAll (fun s c => (told s c).toQuiet) (fun s c => (told s c).mode)
        _ s sound,
      fun u => removeFromAll_hasUser (fun s c => (told s c).toQuiet) ..⟩
    exact left.trans (.still ((Still.spamLeave ..).trans (.send ..)))

theorem Safe.joinOne (s : Ircd) (cptr sptr : ClientId) (source name : Text) (key : Option Text)
    (successful : Int) (has : (s.client sptr).user.isSome) :
    Safe s (s.joinOne cptr sptr source name key successful).1 := by
  unfold Ircd.joinOne
  simp only []
  split
  · exact joinZero ..
  · split
    · split
      · exact .send ..
      · split
        · exact .still ((Still.send ..).trans (.noteJoins ..))
        · have spam := Still.spamJoin s sptr (s.cutName sptr name)
          split
          · exact .still spam
          · exact (Safe.still spam).trans (.joinFound _ _ _ _ _ _ _ _ (by rw [spam.hasUser]; exact has))
    · have warned := Still.sendIf s (!s.channelExists name)
        (.ops (line ["User on ", ((s.client sptr).user.map User.server).getD [],
          " remotely JOINing new channel"]))
      exact (Safe.still warned).trans
        (.joinFound _ _ _ _ _ _ _ _ (by rw [warned.hasUser]; exact has))

theorem Safe.joinLoop (cptr sptr : ClientId) (source : Text) :
    ∀ (names keys : List Text) (successful : Int) (s : Ircd), (s.client sptr).user.isSome →
      Safe s (Ircd.joinLoop cptr sptr source names keys successful s)
  | [], _, successful, s, _ => by
    unfold Ircd.joinLoop
    split
    · exact .still (.noteJoins ..)
    · exact .refl s
  | name :: names, keys, successful, s, has => by
    have one := Safe.joinOne s cptr sptr source name keys.head? successful has
    unfold Ircd.joinLoop
    split
    · rename_i eq
      rw [eq] at one
      exact one.trans (joinLoop cptr sptr source names keys.tail _ _ (by rw [one.hasUser]; exact has))
    · rename_i eq
      rw [eq] at one
      exact one

theorem Still.joinNames (s : Ircd) (sptr : ClientId) (source : Text) (names : List Text)
    (jbuf : List Char) (i : Nat) : Still s (s.joinNames sptr source names jbuf i).1 := by
  fun_induction Ircd.joinNames s sptr source names jbuf i
  case case1 => exact .refl _
  case case2 ih => exact (Still.send ..).trans ih
  case case3 ih => exact ih
  case case4 ih => exact (Still.sendIf ..).trans ih
  case case5 => exact .refl _
  case case6 ih => exact ih
  case case7 ih => exact ih

/-- **JOIN.** -/
theorem Safe.m_join (s : Ircd) (cptr sptr : ClientId) (parv : List Text) :
    Safe s (s.m_join cptr sptr parv) := by
  unfold Ircd.m_join
  simp only []
  split
  · exact .refl s
  · rename_i has
    split
    · exact .send ..
    · split
      · exact .send ..
      · have named := Still.joinNames s sptr (parv.getD 0 []) (strtoken ',' (parv.getD 1 [])) [] 0
        refine (Safe.still named).trans (.joinLoop _ _ _ _ _ _ _ ?_)
        rw [named.hasUser]
        exact Option.isSome_iff_ne_none.mpr (by simpa using has)

end Join

end PtlinkIrcd.Ircd
