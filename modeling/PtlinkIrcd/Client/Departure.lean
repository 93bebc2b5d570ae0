/-
**One client leaves.**

* `Parts` — a user leaves channels: nobody else is touched, but that invitations to a channel end with
  it (`Counted.remove`, `Counted.removeFromAll`, `Counted.quitPerson`).
* `Coherent` — the tree, the hash table and the channels agree.
* `Coherent.exit_one_client` — **one exit drops one client.**
-/

import PtlinkIrcd.Channel.Authority
import PtlinkIrcd.Client.ServerTree

set_option linter.unusedSectionVars false

namespace PtlinkIrcd

def Client.invitedTo (invited : List ChannelId) (x : Client) : Client :=
  { x with user := x.user.map fun user => { user with invited := invited } }

namespace Ircd

/-! ### A user leaves channels -/

/-- **A user leaves channels, and nobody else is touched.** -/
structure Parts (u : ClientId) (s t : Ircd) : Prop where
  list : t.GlobalClientList = s.GlobalClientList
  table : t.clientTable = s.clientTable
  members : ∀ c, ((t.chan c).members.filter fun l => l.cptr ≠ u) =
    (s.chan c).members.filter fun l => l.cptr ≠ u
  self : ∃ user, user.isSome = (s.client u).user.isSome ∧
    t.client u = { s.client u with user := user }
  others : ∀ v, v ≠ u → ∃ invited, t.client v = (s.client v).invitedTo invited ∧
    invited.Sublist (s.invited v) ∧
    ∀ c, ¬ (t.chan c).vacant → invited.count c = (s.invited v).count c
  vacant : ∀ c, (s.chan c).vacant → (t.chan c).vacant

section Invited

variable {s t : Ircd} {v : ClientId}

theorem invitedTo_invited (s : Ircd) (v : ClientId) :
    (s.client v).invitedTo (s.invited v) = s.client v := by
  unfold Client.invitedTo invited
  cases has : (s.client v).user with
  | none =>
    show ({ s.client v with user := none } : Client) = s.client v
    rw [← has]
  | some user =>
    show ({ s.client v with user := some user } : Client) = s.client v
    rw [← has]

theorem invited_of_invitedTo {invited : List ChannelId}
    (block : t.client v = (s.client v).invitedTo invited) (sub : invited.Sublist (s.invited v)) :
    t.invited v = invited := by
  unfold Ircd.invited at sub ⊢
  rw [block]
  unfold Client.invitedTo
  cases has : (s.client v).user with
  | none =>
    rw [has] at sub
    exact (List.sublist_nil.mp sub).symm
  | some user => rfl

theorem setInvited_client (s : Ircd) (u v : ClientId) (invited : List ChannelId) :
    (s.setInvited u invited).client v =
      if v = u then (s.client u).invitedTo invited else s.client v := by
  unfold setInvited Client.invitedTo
  split
  · rename_i none_
    split
    · rename_i here
      rw [here, none_]
      show s.client u = { s.client u with user := none }
      rw [← none_]
    · rfl
  · rename_i user has
    split
    · rename_i here
      rw [here, setUser_client_self, has]
      rfl
    · rename_i ne
      rw [setUser_client_of_ne s _ ne]

theorem invited_of_after {gone : List ClientId} {invited : List ChannelId}
    (block : t.client v = (s.client v).after gone invited) (sub : invited.Sublist (s.invited v)) :
    t.invited v = invited := by
  unfold Ircd.invited at sub ⊢
  rw [block]
  unfold Client.after
  cases has : (s.client v).user with
  | none =>
    rw [has] at sub
    exact (List.sublist_nil.mp sub).symm
  | some user => rfl

theorem del_invite_client (s : Ircd) (u v : ClientId) (c : ChannelId) :
    (s.del_invite u c).client v =
      if v = u then (s.client u).invitedTo ((s.invited u).erase c) else s.client v :=
  setInvited_client ..

end Invited

namespace Parts

variable {u v : ClientId} {c : ChannelId} {s t r : Ircd}

theorem same (list : t.GlobalClientList = s.GlobalClientList) (table : t.clientTable = s.clientTable)
    (chan : t.chan = s.chan) (client : t.client = s.client) : Parts u s t := by
  refine ⟨list, table, fun c => by rw [chan], ⟨(s.client u).user, rfl, by rw [client]⟩, fun v _ => ?_,
    fun c vacant => by rw [chan]; exact vacant⟩
  exact ⟨s.invited v, by rw [client, invitedTo_invited], .refl _, fun _ _ => rfl⟩

theorem refl (u : ClientId) (s : Ircd) : Parts u s s := same rfl rfl rfl rfl

theorem trans (first : Parts u s t) (second : Parts u t r) : Parts u s r where
  list := second.list.trans first.list
  table := second.table.trans first.table
  members c := (second.members c).trans (first.members c)
  self := by
    obtain ⟨user, some_, block⟩ := first.self
    obtain ⟨after, same, last⟩ := second.self
    refine ⟨after, ?_, by rw [last, block]⟩
    rw [same, block]
    exact some_
  others v ne := by
    obtain ⟨mid, block, sub, count⟩ := first.others v ne
    obtain ⟨invited, last, subMid, countMid⟩ := second.others v ne
    rw [invited_of_invitedTo block sub] at subMid countMid
    refine ⟨invited, ?_, subMid.trans sub, fun c stands => ?_⟩
    · rw [last, block]
      unfold Client.invitedTo
      cases (s.client v).user <;> rfl
    · rw [countMid c stands, count c fun vacant => stands (second.vacant c vacant)]
  vacant c vacant := second.vacant c (first.vacant c vacant)

theorem send (s : Ircd) (event : Sent) : Parts u s (s.send event) := same rfl rfl rfl rfl

theorem sendIf (s : Ircd) (p : Bool) (event : Sent) : Parts u s (s.sendIf p event) := by
  unfold Ircd.sendIf
  split
  · exact .send s event
  · exact .refl u s

/-- Writing a channel block whose members are the same, the user apart. -/
theorem setChan {block : Channel} (members : (block.members.filter fun l => l.cptr ≠ u) =
      (s.chan c).members.filter fun l => l.cptr ≠ u)
    (vacant : (s.chan c).vacant → block.vacant) : Parts u s (s.setChan c block) := by
  refine ⟨rfl, rfl, fun d => ?_, ⟨(s.client u).user, rfl, rfl⟩, fun v _ =>
    ⟨s.invited v, (invitedTo_invited s v).symm, .refl _, fun _ _ => rfl⟩, fun d empty => ?_⟩
  all_goals
    by_cases here : d = c
    · subst here
      rw [setChan_chan_self]
      first | exact members | exact vacant empty
    · rw [setChan_chan_of_ne s block here]
      try exact empty

theorem setUser {old user : User} (has : (s.client u).user = some old) :
    Parts u s (s.setUser u user) := by
  refine ⟨rfl, rfl, fun _ => rfl, ⟨some user, by rw [has]; rfl, setUser_client_self ..⟩,
    fun v ne => ⟨s.invited v, ?_, .refl _, fun _ _ => rfl⟩, fun _ => id⟩
  rw [setUser_client_of_ne s user ne, invitedTo_invited]

theorem del_invite (s : Ircd) (u : ClientId) (c : ChannelId) : Parts u s (s.del_invite u c) := by
  have first : Parts u s (s.setChan c
      { s.chan c with invites := (s.chan c).invites.erase u }) := by
    refine setChan rfl fun vacant => ?_
    rw [show s.chan c = _ from vacant]
    rfl
  refine first.trans ?_
  show Parts u _ (Ircd.setInvited _ u _)
  unfold setInvited
  split
  · exact .refl u _
  · rename_i has
    exact setUser has

theorem foldl {ι : Type} (step : Ircd → ι → Ircd) (parts : ∀ s i, Parts u s (step s i))
    (items : List ι) (s : Ircd) : Parts u s (items.foldl step s) := by
  induction items generalizing s with
  | nil => exact refl u s
  | cons item items ih => exact (parts s item).trans (ih _)

end Parts

/-! ### Channels that end -/

section Ends

variable {s : Ircd} {u v : ClientId} {c : ChannelId} {user : User}

/-- **Only invitations to the channel are taken back.** -/
theorem withoutInvites_invited (s : Ircd) (c : ChannelId) (v : ClientId) :
    ∃ invited, (s.withoutInvites c).client v = (s.client v).invitedTo invited ∧
      invited.Sublist (s.invited v) ∧ ∀ d, d ≠ c → invited.count d = (s.invited v).count d := by
  unfold withoutInvites
  generalize (s.chan c).invites = invites
  induction invites generalizing s with
  | nil => exact ⟨s.invited v, (invitedTo_invited s v).symm, .refl _, fun _ _ => rfl⟩
  | cons u invites ih =>
    obtain ⟨mid, block, sub, count⟩ : ∃ mid,
        (s.del_invite u c).client v = (s.client v).invitedTo mid ∧ mid.Sublist (s.invited v) ∧
          ∀ d, d ≠ c → mid.count d = (s.invited v).count d := by
      rw [del_invite_client]
      by_cases here : v = u
      · rw [if_pos here, here]
        exact ⟨_, rfl, List.erase_sublist, fun d ne => List.count_erase_of_ne ne⟩
      · rw [if_neg here]
        exact ⟨s.invited v, (invitedTo_invited s v).symm, .refl _, fun _ _ => rfl⟩
    obtain ⟨invited, last, subMid, countMid⟩ := ih (s := s.del_invite u c)
    rw [invited_of_invitedTo block sub] at subMid countMid
    refine ⟨invited, ?_, subMid.trans sub, fun d ne => (countMid d ne).trans (count d ne)⟩
    rw [List.foldl_cons, last, block]
    unfold Client.invitedTo
    cases (s.client v).user <;> rfl

theorem withoutInvites_chan_of_ne (s : Ircd) {c d : ChannelId} (ne : d ≠ c) :
    (s.withoutInvites c).chan d = s.chan d :=
  (ModeFrame.foldl (fun s cptr => s.del_invite cptr c) (fun s u => .del_invite s u c) _ s).chan d ne

theorem Parts.destroyChannel (empty : (s.chan c).members = []) :
    Parts u s (s.destroyChannel c) := by
  have lists : Ircd.GlobalClientList (s.withoutInvites c) = s.GlobalClientList ∧
      (s.withoutInvites c).clientTable = s.clientTable := by
    have frame : ModeFrame c s _ := ModeFrame.foldl (fun s cptr => s.del_invite cptr c)
      (fun s u => .del_invite s u c) (s.chan c).invites s
    refine ⟨?_, frame.clientTable⟩
    unfold withoutInvites
    generalize (s.chan c).invites = invites
    clear frame empty
    induction invites generalizing s with
    | nil => rfl
    | cons u invites ih => rw [List.foldl_cons, ih, (Parts.del_invite s u c).list]
  have invited := withoutInvites_invited s c
  refine ⟨lists.1, lists.2, fun d => ?_, ?_, fun v _ => ?_, fun d vacant => ?_⟩
  · rw [destroyChannel_chan]
    split
    · rename_i here
      rw [here, empty]
      rfl
    · rename_i ne
      rw [withoutInvites_chan_of_ne s ne]
  · obtain ⟨invited, block, _⟩ := invited u
    exact ⟨_, Option.isSome_map, block⟩
  · obtain ⟨invited, block, sub, count⟩ := invited v
    refine ⟨invited, block, sub, fun d stands => count d fun here => stands ?_⟩
    rw [destroyChannel_chan, if_pos here]
    rfl
  · rw [destroyChannel_chan]
    split
    · rfl
    · rename_i ne
      rw [withoutInvites_chan_of_ne s ne]
      exact vacant

theorem filter_eraseP (members : List Member) (u : ClientId) :
    ((members.eraseP fun l => l.cptr = u).filter fun l => l.cptr ≠ u) =
      members.filter fun l => l.cptr ≠ u := by
  induction members with
  | nil => rfl
  | cons l members ih =>
    by_cases here : l.cptr = u
    · simp [here]
    · simp only [ne_eq, decide_not] at ih
      simp [here, ih]

theorem vacant_members {c : Channel} (vacant : c.vacant) : c.members = [] := by
  rw [show c = _ from vacant]
  rfl

theorem Parts.setUsers {users : Int} (right : (s.chan c).vacant → users = 0) :
    Parts u s (s.setChan c { s.chan c with users := users }) := by
  refine Parts.setChan rfl fun vacant => ?_
  rw [right vacant]
  rw [show s.chan c = _ from vacant]
  rfl

theorem Parts.unlinkUser (has : (s.client u).user = some user)
    (some_ : (s.chan c).members ≠ []) : Parts u s (s.unlinkUser u user c) := by
  have left : ∀ {t : Ircd} {after : User}, (t.client u).user = some user →
      Parts u t (t.setUser u after) := .setUser
  refine (Parts.setChan (filter_eraseP ..) fun vacant => ?_).trans (left has)
  exact absurd (vacant_members vacant) some_

/-- A channel that counts a user too many is counted down, and destroyed when nobody is left. -/
theorem Parts.sub1 (more : (s.chan c).users = (s.chan c).memberIds.length + 1) :
    Parts u s (s.sub1_from_channel c) ∧
      (∀ d, ((s.sub1_from_channel c).chan d).memberIds = (s.chan d).memberIds) ∧
      ((s.sub1_from_channel c).chan c).users = (s.chan c).memberIds.length ∧
      ∀ d, d ≠ c → ((s.sub1_from_channel c).chan d).users = (s.chan d).users := by
  have written : ∀ n d, ((s.setChan c { s.chan c with users := n }).chan d).memberIds =
      (s.chan d).memberIds := by
    intro n d
    by_cases same : d = c
    · rw [same, setChan_chan_self]
      rfl
    · rw [setChan_chan_of_ne _ _ same]
  unfold sub1_from_channel
  simp only []
  split
  · rename_i last
    have none_ : (s.chan c).memberIds = [] := List.length_eq_zero_iff.mp (by omega)
    have reset : Parts u s (s.setChan c { s.chan c with users := 0 }) := .setUsers fun _ => rfl
    split
    · refine ⟨reset, written 0, ?_, fun d ne => by rw [setChan_chan_of_ne _ _ ne]⟩
      rw [setChan_chan_self, none_]
      rfl
    · refine ⟨reset.trans (.destroyChannel ?_), fun d => ?_, ?_, fun d ne => ?_⟩
      · rw [setChan_chan_self]
        exact members_eq_nil.mpr none_
      · rw [destroyChannel_chan]
        split
        · rename_i same
          rw [same, none_]
          rfl
        · rename_i ne
          rw [withoutInvites_chan_of_ne _ ne, written]
      · rw [destroyChannel_chan, if_pos rfl, none_]
        rfl
      · rw [destroyChannel_chan, if_neg ne, withoutInvites_chan_of_ne _ ne,
          setChan_chan_of_ne _ _ ne]
  · rename_i some_
    refine ⟨.setUsers fun vacant => ?_, written _, ?_, fun d ne => by rw [setChan_chan_of_ne _ _ ne]⟩
    · rw [members_eq_nil.mp (vacant_members vacant), List.length_nil] at more
      omega
    · rw [setChan_chan_self]
      show (s.chan c).users - 1 = _
      omega

/-- **A user leaves one channel.** -/
theorem Counted.remove (counted : s.Counted) (on : c ∈ (s.client u).channels) :
    (s.remove_user_from_channel u c).Counted ∧ Parts u s (s.remove_user_from_channel u c) := by
  obtain ⟨user, has⟩ := exists_user_of_mem on
  have member : u ∈ (s.chan c).memberIds := (counted.linked.mem_iff u c).mp on
  have positive : 0 < (s.chan c).memberIds.length := List.length_pos_of_mem member
  have unlinked : Parts u s (s.unlinkUser u user c) := .unlinkUser has fun none_ => by
    rw [members_eq_nil.mp none_] at member
    exact absurd member List.not_mem_nil
  have ids : ∀ d, ((s.unlinkUser u user c).chan d).memberIds =
      Function.update (fun d => (s.chan d).memberIds) c ((s.chan c).memberIds.erase u) d :=
    fun d => congrFun unlinkUser_memberIds d
  have users : ∀ d, ((s.unlinkUser u user c).chan d).users = (s.chan d).memberIds.length := by
    intro d
    rw [unlinkUser_chan_eq]
    split
    · rename_i here
      rw [here, ← length_members]
      exact counted.users c
    · rw [counted.users, length_members]
  have more : ((s.unlinkUser u user c).chan c).users =
      ((s.unlinkUser u user c).chan c).memberIds.length + 1 := by
    rw [users, ids, Function.update_self, List.length_erase_of_mem member]
    omega
  obtain ⟨parts, kept, own, apart⟩ := Parts.sub1 (u := u) more
  have whole : s.remove_user_from_channel u c = (s.unlinkUser u user c).sub1_from_channel c := by
    unfold remove_user_from_channel
    rw [has]
  have right : ∀ d, ((s.remove_user_from_channel u c).chan d).memberIds =
      Function.update (fun d => (s.chan d).memberIds) c ((s.chan c).memberIds.erase u) d :=
    fun d => by rw [whole, kept, ids]
  refine ⟨⟨?_, fun d => ?_⟩, whole ▸ unlinked.trans parts⟩
  · unfold Linked
    rw [remove_channels c has, funext right]
    exact counted.linked.unlink u c
  · rw [length_members, right]
    by_cases here : d = c
    · rw [here, whole, own, ids]
    · rw [whole, apart d here, users, Function.update_of_ne here]

/-- **The loop over `user->channel`.** -/
theorem Counted.removeFromAll :
    ∀ (fuel : Nat) (s : Ircd), s.Counted → (s.client u).channels.length ≤ fuel →
      (Ircd.removeFromAll (fun s _ => s) u fuel s).Counted ∧
        Parts u s (Ircd.removeFromAll (fun s _ => s) u fuel s) ∧
          ((Ircd.removeFromAll (fun s _ => s) u fuel s).client u).channels = []
  | 0, s, counted, enough =>
    ⟨counted, .refl u s, List.length_eq_zero_iff.mp (Nat.le_zero.mp enough)⟩
  | fuel + 1, s, counted, enough => by
    unfold Ircd.removeFromAll
    split
    · rename_i none_
      exact ⟨counted, .refl u s, none_⟩
    · rename_i c rest some_
      have on : c ∈ (s.client u).channels := some_ ▸ List.mem_cons_self
      obtain ⟨user, has⟩ := exists_user_of_mem on
      have fewer : ((s.remove_user_from_channel u c).client u).channels = rest := by
        have all := congrFun (remove_channels c has) u
        rw [Function.update_self, some_, List.erase_cons_head] at all
        exact all
      obtain ⟨still, parts⟩ := counted.remove on
      obtain ⟨done, all, off⟩ := Counted.removeFromAll fuel _ still (by
        rw [fewer]
        rw [some_, List.length_cons] at enough
        omega)
      exact ⟨done, parts.trans all, off⟩

theorem Counted.quiet {t : Ircd} (counted : s.Counted) (quiet : Quiet s t) : t.Counted :=
  ⟨quiet.linked counted.linked, fun c => by
    rw [quiet.users, counted.users, length_members, length_members, quiet.members]⟩

/-- **The memberships and invitations of a person end.** -/
theorem Counted.quitPerson (counted : s.Counted) (cptr : Option ClientId) (u : ClientId)
    (comment : Text) : (s.quitPerson cptr u comment).Counted ∧
      Parts u s (s.quitPerson cptr u comment) ∧
        ((s.quitPerson cptr u comment).client u).channels = [] := by
  have told : ∀ (a : Bool) (b : Sent) (c d : Bool) (e f : Sent), Quiet s
      (if c then (s.sendIf a b).send e else (s.sendIf a b).sendIf d f) ∧ Parts u s
      (if c then (s.sendIf a b).send e else (s.sendIf a b).sendIf d f) := by
    intro a b c d e f
    split
    · exact ⟨((Still.sendIf ..).trans (.send ..)).toQuiet, (Parts.sendIf ..).trans (.send ..)⟩
    · exact ⟨((Still.sendIf ..).trans (.sendIf ..)).toQuiet, (Parts.sendIf ..).trans (.sendIf ..)⟩
  have uninvited : ∀ (invited : List ChannelId) (t : Ircd), Quiet t
      (invited.foldl (fun s chptr => s.del_invite u chptr) t) ∧ Parts u t
      (invited.foldl (fun s chptr => s.del_invite u chptr) t) := fun invited t =>
    ⟨.foldl _ (fun s c => .del_invite s u c) _ t, .foldl _ (fun s c => .del_invite s u c) _ t⟩
  unfold Ircd.quitPerson
  simp only []
  have told := told (!(s.client u).killed)
    (.servButone cptr (line [":", (s.client u).name, " QUIT :", comment])) (!(s.client u).isStealth)
    (s.client u).myClient
    (.commonChannels u (line [":", (s.client u).name, " QUIT :", comment]))
    (.one u (line [":", (s.client u).name, " QUIT :Stealth mode"]))
  generalize (if !(s.client u).isStealth then _ else _ : Ircd) = t at told ⊢
  obtain ⟨left, parts, off⟩ := Counted.removeFromAll (u := u) _ t (counted.quiet told.1) (Nat.le_refl _)
  generalize Ircd.removeFromAll (fun s _ => s) u _ t = r at left parts off ⊢
  obtain ⟨quiet, last⟩ := uninvited (r.invited u) r
  refine ⟨left.quiet quiet, told.2.trans (parts.trans last), ?_⟩
  rw [quiet.channels, off]

end Ends

/-! ### One client leaves -/

/-- **The tree, the hash table and the channels agree.** -/
structure Coherent (s : Ircd) : Prop where
  hanging : s.Hanging
  keyed : s.Keyed
  counted : s.Counted
  named : s.Named

section One

variable {s t : Ircd} {u v a : ClientId}

/-- **Off the list of its server.** -/
theorem Hanging.unlinkServ (hanging : s.Hanging) (ne : u ≠ me) (v : ClientId) :
    (s.unlinkServ u).client v =
      { s.client v with serv := (s.client v).serv.map (·.without [u]) } := by
  have apart : ∀ a, s.parent u ≠ some a →
      s.client a = { s.client a with serv := (s.client a).serv.map (·.without [u]) } := by
    intro a other
    cases has : (s.client a).serv with
    | none =>
      show s.client a = { s.client a with serv := none }
      rw [← has]
    | some serv =>
      have out := mt (hanging.parent_of_mem has).mpr other
      rw [not_or] at out
      have same : serv.without [u] = serv := by
        unfold Server.without
        rw [List.filter_eq_self.mpr fun v member => by
            simpa using fun here : v = u => out.1 (here ▸ member),
          List.filter_eq_self.mpr fun v member => by
            simpa using fun here : v = u => out.2 (here ▸ member)]
      show s.client a = { s.client a with serv := some (serv.without [u]) }
      rw [same, ← has]
  have up := parent_of_ne (s := s) ne
  unfold Ircd.unlinkServ
  split
  · rename_i none_
    exact apart v (by rw [up, none_]; simp)
  · rename_i a servptr
    rw [servptr] at up
    split
    · rename_i none_
      have server := hanging.serv a (hanging.up u a up).1
      rw [none_] at server
      exact absurd server (by simp)
    · rename_i serv has
      by_cases here : v = a
      · rw [here, setClient_client_self, has]
        have erased : (if (s.client u).isServer then { serv with servers := serv.servers.erase u }
            else { serv with users := serv.users.erase u }) = serv.without [u] := by
          obtain ⟨nodupS, servers⟩ := hanging.servers a serv has
          obtain ⟨nodupU, users⟩ := hanging.users a serv has
          have filter : ∀ l : List ClientId, (l.filter (· ∉ [u])) = l.filter (· != u) := fun l =>
            List.filter_congr fun v _ => by by_cases same : v = u <;> simp [same]
          unfold Server.without
          rw [filter, filter, ← nodupS.erase_eq_filter, ← nodupU.erase_eq_filter]
          split
          · rename_i server
            rw [List.erase_of_not_mem (a := u) (l := serv.users) fun member => by
              rw [((users u).mp member).2] at server
              exact absurd server (by simp)]
          · rename_i user
            rw [List.erase_of_not_mem (a := u) (l := serv.servers) fun member =>
              user ((servers u).mp member).2]
        rw [erased]
        rfl
      · rw [setClient_client_of_ne s _ here]
        refine apart v fun same => here ?_
        rw [up] at same
        exact (Option.some.inj same).symm

theorem unlinkServ_frame (s : Ircd) (u : ClientId) :
    (s.unlinkServ u).GlobalClientList = s.GlobalClientList ∧
      (s.unlinkServ u).clientTable = s.clientTable ∧ (s.unlinkServ u).chan = s.chan := by
  unfold Ircd.unlinkServ
  split
  · exact ⟨rfl, rfl, rfl⟩
  · split <;> exact ⟨rfl, rfl, rfl⟩

theorem removeClient_frame (listed : u ∈ s.GlobalClientList) :
    (s.removeClient u).GlobalClientList = s.GlobalClientList.erase u ∧
      (s.removeClient u).clientTable =
        s.clientTable.del (hashNickName (s.client u).name) u ∧
      (s.removeClient u).chan = s.chan ∧
      (s.removeClient u).client = Function.update s.client u .zero := by
  unfold removeClient remove_client_from_list
  have still : u ∈ (s.del_from_client_hash_table (s.client u).name u).GlobalClientList := listed
  rw [if_neg (not_not_intro still)]
  simp only []
  unfold update_client_exit_stats release_client_state
  split <;> split <;> exact ⟨rfl, rfl, rfl, rfl⟩

/-- **What is left when a client's block is freed.** -/
theorem Coherent.removeClient (coherent : s.Coherent) (listed : u ∈ s.GlobalClientList)
    (ne : u ≠ me) {mid : Ircd} (counted : mid.Counted) (parts : Parts u (s.unlinkServ u) mid)
    (off : (mid.client u).channels = []) :
    Dropped [u] s (mid.removeClient u) ∧ (mid.removeClient u).Counted ∧
      (mid.removeClient u).Named := by
  obtain ⟨list, table, chan⟩ := unlinkServ_frame s u
  have unlinked := coherent.hanging.unlinkServ ne
  have there : u ∈ mid.GlobalClientList := by rw [parts.list, list]; exact listed
  obtain ⟨listEnd, tableEnd, chanEnd, clientEnd⟩ := removeClient_frame there
  have name : (mid.client u).name = (s.client u).name := by
    obtain ⟨user, _, block⟩ := parts.self
    rw [block, unlinked]
  have others : ∀ v, v ≠ u → ∃ invited, mid.client v = (s.client v).after [u] invited ∧
      invited.Sublist (s.invited v) ∧
      ∀ c, ¬ (mid.chan c).vacant → invited.count c = (s.invited v).count c := by
    intro v other
    obtain ⟨invited, block, sub, count⟩ := parts.others v other
    have same : (s.unlinkServ u).invited v = s.invited v := by
      unfold Ircd.invited
      rw [unlinked]
    rw [same] at sub count
    refine ⟨invited, ?_, sub, count⟩
    rw [block, unlinked]
    rfl
  have absent : ∀ c, u ∉ (mid.chan c).memberIds := counted.linked.isolateLeft off
  refine ⟨⟨?_, fun bucket => ?_, fun v gone => ?_, fun c => ?_, fun v stays => ?_, fun c vacant => ?_⟩,
    ⟨?_, fun c => ?_⟩, fun v has => ?_⟩
  · rw [listEnd, parts.list, list, coherent.hanging.nodup.erase_eq_filter]
    exact List.filter_congr fun v _ => by by_cases same : v = u <;> simp [same]
  · rw [tableEnd, name, parts.table, table]
    have filter : ((s.clientTable bucket).filter (· ∉ [u])) = (s.clientTable bucket).erase u := by
      rw [(coherent.keyed.nodup bucket).erase_eq_filter]
      exact List.filter_congr fun v _ => by by_cases same : v = u <;> simp [same]
    rw [filter]
    unfold Lib.ChainTable.del
    by_cases here : bucket = hashNickName (s.client u).name
    · rw [here, Function.update_self]
    · rw [Function.update_of_ne here, List.erase_of_not_mem fun member =>
        here (coherent.keyed.mem bucket u member).2.symm]
  · rw [List.mem_singleton] at gone
    rw [clientEnd, gone, Function.update_self]
  · have mine := parts.members c
    have all : ((mid.chan c).members.filter fun l => l.cptr ≠ u) = (mid.chan c).members := by
      refine List.filter_eq_self.mpr fun l member => decide_eq_true fun here => absent c ?_
      exact List.mem_map.mpr ⟨l, member, here⟩
    rw [chanEnd, ← all, mine, chan]
    exact List.filter_congr fun l _ => by by_cases same : l.cptr = u <;> simp [same]
  · have other : v ≠ u := fun same => stays (by simp [same])
    rw [clientEnd, Function.update_of_ne other]
    obtain ⟨invited, block, sub, count⟩ := others v other
    exact ⟨invited, block, sub, fun c stands => count c (by rw [chanEnd] at stands; exact stands)⟩
  · rw [chanEnd]
    exact parts.vacant c (by rw [chan]; exact vacant)
  · have left : (fun v => ((mid.removeClient u).client v).channels) =
        fun v => (mid.client v).channels := by
      funext v
      rw [clientEnd]
      by_cases here : v = u
      · rw [here, Function.update_self, off]
        rfl
      · rw [Function.update_of_ne here]
    unfold Linked
    rw [left, chanEnd]
    exact counted.linked
  · rw [chanEnd]
    exact counted.users c
  · by_cases here : v = u
    · rw [here, clientEnd, Function.update_self] at has
      exact absurd has (by simp [Client.zero])
    · obtain ⟨invited, block, _⟩ := others v here
      rw [clientEnd, Function.update_of_ne here, block] at has ⊢
      have before : ((s.client v).user.map fun user =>
        ({ user with invited := invited } : User)).isSome = true := has
      rw [Option.isSome_map] at before
      exact coherent.named v before

theorem channels_of_no_user (none_ : (s.client u).user = none) : (s.client u).channels = [] := by
  unfold Client.channels
  rw [none_]
  rfl

/-- **One exit drops one client.** -/
theorem Coherent.exit_one_client (coherent : s.Coherent) (listed : u ∈ s.GlobalClientList)
    (ne : u ≠ me) (cptr : Option ClientId) (source : ClientId) (comment : Text) :
    Dropped [u] s (s.exit_one_client cptr u source comment) ∧
      (s.exit_one_client cptr u source comment).Counted ∧
        (s.exit_one_client cptr u source comment).Named := by
  have still := Still.unlinkServ s u
  have counted : (s.unlinkServ u).Counted := coherent.counted.quiet still.toQuiet
  have unlinked := coherent.hanging.unlinkServ ne u
  -- a client that is no person is on no channel
  have other : (s.client u).isPerson = false → ∀ t, Still (s.unlinkServ u) t →
      Parts u (s.unlinkServ u) t → Dropped [u] s (t.removeClient u) ∧ (t.removeClient u).Counted ∧
        (t.removeClient u).Named := by
    intro noPerson t quiet parts
    refine coherent.removeClient listed ne (counted.quiet quiet.toQuiet) parts ?_
    have noUser : (s.client u).user = none := by
      cases has : (s.client u).user with
      | none => rfl
      | some user =>
        have registered := (coherent.named u (by rw [has]; rfl)).1
        unfold Client.isPerson at noPerson
        rw [registered, has] at noPerson
        exact absurd noPerson (by simp)
    rw [quiet.channels, still.channels]
    exact channels_of_no_user noUser
  unfold Ircd.exit_one_client
  simp only []
  rw [if_neg (by rw [coherent.hanging.plain]; simp)]
  split
  · rename_i server
    have noPerson := Client.not_isPerson_of_isServer server
    split
    · exact other noPerson _ (.refl _) (.refl u _)
    · exact other noPerson _ (.sendIf ..) (.sendIf ..)
  · split
    · rename_i noPerson
      exact other (by simpa using noPerson) _ (.refl _) (.refl u _)
    · rename_i person
      have isPerson : (s.client u).isPerson = true := by simpa using person
      have some_ := coherent.named u (by
        unfold Client.isPerson at isPerson
        exact (Bool.and_eq_true _ _ ▸ isPerson).2)
      rw [if_pos some_.2]
      obtain ⟨quit, parts, off⟩ := counted.quitPerson cptr u comment
      exact coherent.removeClient listed ne quit parts off

/-- **What is left is coherent**, when nobody hung on the client. -/
theorem Coherent.dropped {gone : List ClientId} (coherent : s.Coherent) (dropped : Dropped gone s t)
    (closed : ∀ v p, s.parent v = some p → p ∈ gone → v ∈ gone) (notMe : me ∉ gone)
    (counted : t.Counted) (named : t.Named) : t.Coherent :=
  ⟨coherent.hanging.dropped dropped closed notMe, coherent.keyed.dropped dropped, counted, named⟩

end One

end Ircd

end PtlinkIrcd
