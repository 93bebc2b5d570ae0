/-
**Who may change a channel.**

* `Unprivileged` — a local client that is no channel operator, half-op, operator, admin or service.
  No letter allows it a change (`Allows.privileged`): every channel `Keeps` its modes, bans and statuses.
* `Spares` — what a channel admin keeps: being admin, and the statuses of operator and voice. A letter
  of a local client that is no channel admin spares every channel admin (`Spares.edit`), and so does a
  KICK (`KickBound.m_kick`).
* `channel_authority` — **the two together.**
-/

import PtlinkIrcd.Channel.ModeEffect
import PtlinkIrcd.Channel.Runs

set_option linter.unusedSectionVars false

namespace PtlinkIrcd

/-! ### Clients without authority -/

/-- A source that may do nothing. -/
structure ModeSource.Powerless (m : ModeSource) : Prop where
  isok : m.isok = false
  maySet : ∀ c, m.maySet c = false

theorem Allows.privileged {m : ModeSource} {l : ModeLoop} {change : ModeChange}
    (allows : Allows m l change) : ¬ m.Powerless := by
  intro powerless
  cases allows with
  | bit letter turn may once room => exact absurd (may.symm.trans (powerless.maySet _)) (by simp)
  | _ => simp_all [powerless.isok]

namespace Ircd

/-- A local client that is no channel operator, no half-op, no operator, no admin and no service. -/
structure Unprivileged (s : Ircd) (sptr : ClientId) (chptr : ChannelId) : Prop where
  mine : (s.client sptr).myClient = true
  noOp : (s.chan chptr).is_chan_op sptr = false
  noHalfop : (s.chan chptr).has_halfop sptr = false
  noOper : (s.client sptr).isOper = false
  noAdmin : ((s.client sptr).isAdmin || (s.client sptr).isTechAdmin ||
    (s.client sptr).isNetAdmin) = false
  noService : (s.client sptr).isService = false

section Unprivileged

variable {s : Ircd} {sptr : ClientId} {chptr : ChannelId}

theorem Unprivileged.powerless (unprivileged : s.Unprivileged sptr chptr) :
    (s.modeSource sptr sptr chptr).Powerless := by
  have noServer := Client.not_isServer_of_myClient unprivileged.mine
  have chopless : (s.modeSource sptr sptr chptr).ischop = false := by
    show ((s.client sptr).isServer || (s.client sptr).isService ||
      (s.chan chptr).is_chan_op sptr) = false
    rw [noServer, unprivileged.noService, unprivileged.noOp]
    rfl
  have isok : (s.modeSource sptr sptr chptr).isok = false := by
    unfold ModeSource.isok
    rw [chopless]
    show (false || (s.conf.HALFOPS && (s.chan chptr).has_halfop sptr) ||
      (_ && (s.client sptr).isServer && _) || (s.client sptr).isService) = false
    rw [unprivileged.noHalfop, noServer, unprivileged.noService, Bool.and_false, Bool.and_false,
      Bool.false_and]
    rfl
  refine ⟨isok, fun c => ?_⟩
  unfold ModeSource.maySet
  split
  · exact unprivileged.noService
  split
  · show ((s.client sptr).isOper || (s.client sptr).isService || (s.client sptr).isServer) = false
    rw [unprivileged.noOper, unprivileged.noService, noServer]
    rfl
  split
  · show ((s.client sptr).isAdmin || (s.client sptr).isTechAdmin || (s.client sptr).isNetAdmin ||
      (s.client sptr).isService || (s.client sptr).isServer) = false
    rw [unprivileged.noAdmin, unprivileged.noService, noServer]
    rfl
  · exact isok

end Unprivileged

end Ircd

/-- **The loop of a source without authority changes no channel.** -/
theorem ModeSource.Powerless.keeps {m : ModeSource} (powerless : m.Powerless) (rounds : Nat)
    (l : ModeLoop) (curr : Text) (d : ChannelId) :
    (l.s.chan d).Keeps ((modeWords m rounds l curr).s.chan d) := by
  refine modeWords_run (P := fun other => (l.s.chan d).Keeps (other.s.chan d))
    (fun other c _ keeps => ?_) (fun other parv keeps => keeps) rounds (wordsMeet_true ..) (.refl _)
  rcases modeLetter_cases m other c with idle | ⟨_, aside⟩ | ⟨change, _, allows, _⟩
  · rw [idle.sends.chan]
    exact keeps
  · by_cases self : d = m.chptr
    · exact keeps.trans (self ▸ aside.keeps)
    · rw [aside.frame.chan d self]
      exact keeps
  · exact absurd powerless allows.privileged

/-! ### Channel admins -/

theorem changedFlags_apart {flag other : Flags} (apart : flag &&& other = 0#32)
    (inside : MODE_FLAGS &&& other = other) (notDeopped : MODE_DEOPPED &&& other = 0#32) (add : Bool)
    (flags : Flags) : (changedFlags flag add flags).has other = flags.has other := by
  unfold changedFlags
  cases add with
  | true =>
    have masked : (flag &&& MODE_FLAGS).has other = false := by
      rw [Flags.and_has inside, Flags.has_of_disjoint apart]
    simp only [if_true]
    split
    · rw [Flags.and_has (Flags.not_and_of_disjoint notDeopped), Flags.or_has, masked, Bool.or_false]
    · rw [Flags.or_has, masked, Bool.or_false]
  | false =>
    have masked : ~~~flag &&& MODE_FLAGS &&& other = other := by
      rw [BitVec.and_assoc, inside, Flags.not_and_of_disjoint apart]
    exact Flags.and_has masked flags

theorem changedFlags_add (flag : Flags) {other : Flags}
    (notDeopped : MODE_DEOPPED &&& other = 0#32) {flags : Flags} (has : flags.has other = true) :
    (changedFlags flag true flags).has other = true := by
  unfold changedFlags
  simp only [if_true]
  split
  · rw [Flags.and_has (Flags.not_and_of_disjoint notDeopped), Flags.or_has, has, Bool.true_or]
  · rw [Flags.or_has, has, Bool.true_or]

theorem changedFlags_del {flag : Flags} (inside : MODE_FLAGS &&& flag = flag) (flags : Flags) :
    (changedFlags flag false flags).has flag = false := by
  have gone : ~~~flag &&& MODE_FLAGS &&& flag = 0#32 := by
    rw [BitVec.and_assoc, inside, BitVec.and_comm, BitVec.and_not_self]
    rfl
  unfold changedFlags
  refine Flags.has_of_disjoint ?_
  rw [if_neg Bool.false_ne_true, BitVec.and_assoc, gone]
  exact BitVec.and_zero

/-- What a channel admin keeps. -/
structure Spares (sptr : ClientId) (before after : Channel) : Prop where
  noAdmin : after.is_chan_adm sptr = false
  admin : ∀ u, before.is_chan_adm u = true → after.is_chan_adm u = true
  op : ∀ u, before.is_chan_adm u = true → before.is_chan_op u = true → after.is_chan_op u = true
  voice : ∀ u, before.is_chan_adm u = true → before.has_voice u = true → after.has_voice u = true

namespace Spares

variable {sptr : ClientId} {before c after : Channel}

theorem keeps (spares : Spares sptr before c) (keeps : c.Keeps after) : Spares sptr before after := by
  refine ⟨?_, fun u adm => ?_, fun u adm op => ?_, fun u adm voice => ?_⟩
  · exact (keeps.statuses sptr CHFL_CHANADM (by decide)).trans spares.noAdmin
  · exact (keeps.statuses u CHFL_CHANADM (by decide)).trans (spares.admin u adm)
  · exact (keeps.statuses u CHFL_CHANOP (by decide)).trans (spares.op u adm op)
  · exact (keeps.statuses u CHFL_VOICE (by decide)).trans (spares.voice u adm voice)

theorem congr (spares : Spares sptr before c) (same : after.members = c.members) :
    Spares sptr before after := by
  have flags : ∀ u, after.user_channel_mode u = c.user_channel_mode u := fun u => by
    unfold Channel.user_channel_mode
    rw [same]
  refine ⟨?_, fun u adm => ?_, fun u adm op => ?_, fun u adm voice => ?_⟩
  · exact (congrArg (Flags.has · CHFL_CHANADM) (flags sptr)).trans spares.noAdmin
  · exact (congrArg (Flags.has · CHFL_CHANADM) (flags u)).trans (spares.admin u adm)
  · exact (congrArg (Flags.has · CHFL_CHANOP) (flags u)).trans (spares.op u adm op)
  · exact (congrArg (Flags.has · CHFL_VOICE) (flags u)).trans (spares.voice u adm voice)

theorem changeLink (spares : Spares sptr before c) {who : ClientId} {flag : Flags} {add : Bool}
    (self : who = sptr → flag = MODE_CHANADM ∧ add = false ∨ flag &&& CHFL_CHANADM = 0#32)
    (other : who ≠ sptr → flag &&& CHFL_CHANADM = 0#32 ∧
      (add = false → c.is_chan_adm who = false)) :
    Spares sptr before
      { c with members := PtlinkIrcd.changeLink who (changedFlags flag add) c.members } := by
  have written := user_channel_mode_changeLink c who (f := changedFlags flag add)
  -- an admin is never the one whose flag is taken
  have kept : ∀ u, before.is_chan_adm u = true → u = who → add = true := by
    intro u adm same
    have now := spares.admin u adm
    have ne : who ≠ sptr := by
      intro self
      rw [same, self] at now
      exact absurd (now.symm.trans spares.noAdmin) Bool.true_eq_false.mp
    by_contra del
    rw [Bool.not_eq_true] at del
    rw [same] at now
    exact absurd (now.symm.trans ((other ne).2 del)) Bool.true_eq_false.mp
  have grows : ∀ (bit : Flags), MODE_DEOPPED &&& bit = 0#32 → ∀ u, before.is_chan_adm u = true →
      (c.user_channel_mode u).has bit = true →
      (Channel.user_channel_mode { c with
        members := PtlinkIrcd.changeLink who (changedFlags flag add) c.members } u).has bit = true := by
    intro bit notDeopped u adm has
    rw [written]
    split
    · rename_i both
      rw [kept u adm both.1]
      exact changedFlags_add flag notDeopped has
    · exact has
  refine ⟨?_, fun u adm => ?_, fun u adm op => ?_, fun u adm voice => ?_⟩
  · show (Channel.user_channel_mode _ sptr).has CHFL_CHANADM = false
    rw [written]
    split
    · rename_i both
      have apart : flag &&& CHFL_CHANADM = 0#32 →
          (changedFlags flag add (c.user_channel_mode sptr)).has CHFL_CHANADM = false := fun apart => by
        rw [changedFlags_apart apart (by decide) (by decide)]
        exact spares.noAdmin
      rcases self both.1.symm with ⟨rfl, rfl⟩ | disjoint
      · exact changedFlags_del (by decide) _
      · exact apart disjoint
    · exact spares.noAdmin
  · exact grows CHFL_CHANADM (by decide) u adm (spares.admin u adm)
  · exact grows CHFL_CHANOP (by decide) u adm (spares.op u adm op)
  · exact grows CHFL_VOICE (by decide) u adm (spares.voice u adm voice)

/-- **A change that a local client makes spares every channel admin.** -/
theorem edit {m : ModeSource} {l : ModeLoop} {change : ModeChange} (mine : m.my = true)
    (allows : Allows m l change) (spares : Spares m.sptr before (l.s.chan m.chptr)) :
    Spares m.sptr before ((l.s.chan m.chptr).edit change.edit) := by
  cases allows with
  | admin turn args found user own ok on room =>
    obtain ⟨del, rfl⟩ := own mine
    refine spares.changeLink (fun _ => .inl ⟨rfl, ?_⟩) (fun ne => absurd rfl ne)
    rw [del]
    rfl
  | @status _ flag _ _ who letter built turn args found user on seen other chop ok safe room =>
    have apart : flag &&& CHFL_CHANADM = 0#32 := by
      unfold statusFlag at letter
      simp only [List.mem_cons, Prod.mk.injEq, List.not_mem_nil, or_false] at letter
      rcases letter with ⟨_, rfl⟩ | ⟨_, rfl⟩ | ⟨_, rfl⟩ <;> decide
    refine spares.changeLink (fun _ => .inr apart) (fun _ => ⟨apart, fun notAdd => ?_⟩)
    have del : l.whatt = .del := (add_or_del turn).resolve_left (of_decide_eq_false notAdd)
    by_contra adm
    rw [Bool.not_eq_false] at adm
    exact absurd ((safe mine del adm).symm.trans spares.noAdmin) Bool.true_eq_false.mp
  | @flood _ _ pair => exact spares.congr rfl
  | _ => exact spares.congr rfl

end Spares

/-! ### The commands -/

namespace Ircd

section Commands

variable {s : Ircd} {sptr : ClientId} {chptr : ChannelId}

theorem set_channel_mode_loop (s : Ircd) (cptr sptr : ClientId) (chptr : ChannelId)
    (parv : List Text) : Sends s (s.set_channel_mode cptr sptr chptr parv) ∨
      Sends (s.modeLoop cptr sptr chptr parv).s (s.set_channel_mode cptr sptr chptr parv) := by
  unfold set_channel_mode
  split
  · exact .inl (.send ..)
  · exact .inr (sends_modeTell ..)

theorem Unprivileged.set_channel_mode (unprivileged : s.Unprivileged sptr chptr)
    (parv : List Text) (d : ChannelId) :
    (s.chan d).Keeps ((s.set_channel_mode sptr sptr chptr parv).chan d) := by
  rcases set_channel_mode_loop s sptr sptr chptr parv with sends | sends
  · rw [sends.chan]
    exact .refl _
  · rw [sends.chan]
    exact unprivileged.powerless.keeps _ (s.modeStart parv.tail) _ d

/-- **MODE of a local client that is no channel admin spares every channel admin.** -/
theorem set_channel_mode_spares (mine : (s.client sptr).myClient = true)
    (noAdmin : (s.chan chptr).is_chan_adm sptr = false) (parv : List Text) :
    Spares sptr (s.chan chptr) ((s.set_channel_mode sptr sptr chptr parv).chan chptr) := by
  have start : Spares sptr (s.chan chptr) (s.chan chptr) :=
    ⟨noAdmin, fun _ adm => adm, fun _ _ op => op, fun _ _ voice => voice⟩
  rcases set_channel_mode_loop s sptr sptr chptr parv with sends | sends
  · rw [sends.chan]
    exact start
  · rw [sends.chan]
    unfold modeLoop
    refine modeWords_run (m := s.modeSource sptr sptr chptr)
      (P := fun l => Spares sptr (s.chan chptr) (l.s.chan chptr)) (fun l c _ spares => ?_)
      (fun l parv spares => spares) _ (wordsMeet_true ..) start
    rcases modeLetter_cases (s.modeSource sptr sptr chptr) l c with
      idle | ⟨_, aside⟩ | ⟨change, _, allows, makes⟩
    · rw [idle.sends.chan]
      exact spares
    · exact spares.keeps aside.keeps
    · obtain ⟨invites, block⟩ := makes.block
      have edited := Spares.edit (m := s.modeSource sptr sptr chptr) mine allows spares
      exact (congrArg (Spares sptr (s.chan chptr)) block).mpr (edited.congr rfl)

/-! ### KICK -/

theorem find_user_link_eraseP {who u : ClientId} (ne : u ≠ who) (members : List Member) :
    find_user_link (members.eraseP fun l => l.cptr = who) u = find_user_link members u := by
  unfold find_user_link
  induction members with
  | nil => rfl
  | cons l members ih =>
    by_cases here : l.cptr = who
    · have notThere : ¬ l.cptr = u := fun there => ne (there.symm.trans here)
      rw [List.eraseP_cons_of_pos (by simp [here]), List.find?_cons_of_neg (by simp [notThere])]
    · rw [List.eraseP_cons_of_neg (by simp [here]), List.find?_cons, List.find?_cons, ih]

theorem two_le_length {u who : ClientId} {ids : List ClientId} (member : u ∈ ids)
    (there : who ∈ ids) (ne : u ≠ who) : 2 ≤ ids.length := by
  match ids, member, there with
  | [only], member, there =>
    rw [List.mem_singleton] at member there
    exact absurd (member.trans there.symm) ne
  | _ :: _ :: _, _, _ => exact Nat.le_add_left 2 _

/-- Membership is recorded on both sides, and the users are counted. -/
structure Counted (s : Ircd) : Prop where
  linked : s.Linked
  users : ∀ c, (s.chan c).users = (s.chan c).members.length

theorem Counted.sends {other : Ircd} (counted : s.Counted) (sends : Sends s other) :
    other.Counted :=
  ⟨sends.still.toQuiet.linked counted.linked, fun c => by rw [sends.chan, counted.users]⟩

/-- **Removing one user leaves the link of every other member.** -/
theorem remove_user_link (counted : s.Counted) {who u : ClientId} {d : ChannelId}
    (on : s.isMember who d = true) (member : u ∈ (s.chan chptr).memberIds)
    (ne : d = chptr → u ≠ who) :
    find_user_link ((s.remove_user_from_channel who d).chan chptr).members u =
      find_user_link (s.chan chptr).members u := by
  obtain ⟨user, has⟩ := exists_user_of_mem (isMember_iff.mp on)
  have block : ∀ c, (s.unlinkUser who user d).chan c = _ := unlinkUser_chan_eq
  unfold remove_user_from_channel
  rw [has]
  simp only []
  unfold sub1_from_channel
  simp only []
  by_cases same : d = chptr
  · subst same
    have ne := ne rfl
    have more : ¬ ((s.unlinkUser who user d).chan d).users - 1 ≤ 0 := by
      have there : who ∈ (s.chan d).memberIds := (isMember_eq counted.linked who d).mp on
      have two : 2 ≤ (s.chan d).memberIds.length := two_le_length member there ne
      rw [block, if_pos rfl]
      show ¬ (s.chan d).users - 1 ≤ 0
      rw [counted.users, length_members]
      omega
    rw [if_neg more, setChan_chan_self, block, if_pos rfl]
    exact find_user_link_eraseP ne _
  · have here : (s.unlinkUser who user d).chan chptr = s.chan chptr := by
      rw [block, if_neg (Ne.symm same)]
    have written : ∀ c, ((s.unlinkUser who user d).setChan d c).chan chptr = s.chan chptr :=
      fun c => (setChan_chan_of_ne _ c (Ne.symm same)).trans here
    split
    · split
      · rw [written]
      · rw [destroyChannel_chan, if_neg (Ne.symm same)]
        have frame : ModeFrame d ((s.unlinkUser who user d).setChan d
            { (s.unlinkUser who user d).chan d with users := 0 })
            (((s.unlinkUser who user d).setChan d
              { (s.unlinkUser who user d).chan d with users := 0 }).withoutInvites d) :=
          ModeFrame.foldl (fun s cptr => s.del_invite cptr d) (fun s u => .del_invite s u d) _ _
        rw [frame.chan chptr (Ne.symm same), written]
    · rw [written]

theorem kickChecks_spec (s : Ircd) (cptr sptr who : ClientId) (source user : Text)
    (chptr : ChannelId) : Sends s (s.kickChecks cptr sptr who source user chptr).1 ∧
      ((s.kickChecks cptr sptr who source user chptr).2 = false → (s.client cptr).isServer = false →
        (s.client sptr).isService = false → (s.chan chptr).is_chan_adm sptr = false →
          (s.chan chptr).is_chan_adm who = false) := by
  unfold kickChecks
  simp only []
  split
  · exact ⟨(Sends.send ..).trans (.send ..), fun refused => absurd refused Bool.true_eq_false.mp⟩
  have complaints := ((Sends.sendIf s ((s.client who).isService && !(s.client sptr).isService &&
    (s.client sptr).isSAdmin) (.reply sptr ERR_CANTKICKADMIN [source, user, (s.chan chptr).chname])).trans
    (.sendIf _ ((s.chan chptr).mode.mode.has MODE_OPERONLY && !(s.client sptr).isOper &&
      !(s.client sptr).isService)
      (.reply sptr ERR_CANTKICKADMIN [source, user, (s.chan chptr).chname]))).trans
    (.sendIf _ ((s.chan chptr).mode.mode.has MODE_ADMINONLY && !(s.client sptr).isAdmin &&
      !(s.client sptr).isService)
      (.reply sptr ERR_CANTKICKADMIN [source, user, (s.chan chptr).chname]))
  generalize ((s.sendIf _ _).sendIf _ _).sendIf _ _ = told at complaints ⊢
  rw [complaints.client]
  split
  · exact ⟨complaints.trans (.send ..), fun refused => absurd refused Bool.true_eq_false.mp⟩
  rename_i allowed
  have spared : (s.client cptr).isServer = false → (s.client sptr).isService = false →
      (s.chan chptr).is_chan_adm sptr = false → (s.chan chptr).is_chan_adm who = false := by
    intro noServer noService noAdmin
    rw [noServer, noService, noAdmin] at allowed
    simp only [Bool.not_false, Bool.true_and, Bool.and_true, Bool.or_eq_true, not_or,
      Bool.not_eq_true] at allowed
    exact allowed.1
  split
  · exact ⟨complaints.trans (.send ..), fun refused => absurd refused Bool.true_eq_false.mp⟩
  · exact ⟨complaints, fun _ => spared⟩

theorem remove_user_stays {who u : ClientId} {d : ChannelId} (on : s.isMember who d = true)
    (ne : d = chptr → u ≠ who) (there : s.isMember u chptr = true) :
    (s.remove_user_from_channel who d).isMember u chptr = true := by
  obtain ⟨user, has⟩ := exists_user_of_mem (isMember_iff.mp on)
  have channels := congrFun (remove_channels d has) u
  rw [isMember_iff] at there ⊢
  refine channels.symm ▸ ?_
  by_cases self : u = who
  · have other : chptr ≠ d := fun same => ne same.symm self
    rw [self, Function.update_self]
    rw [self] at there
    exact (List.mem_erase_of_ne other).mpr there
  · rw [Function.update_of_ne self]
    exact there

/-- A user stays on a channel, with the same flags where the lists of members are counted right. -/
structure StaysOn (u : ClientId) (chptr : ChannelId) (s other : Ircd) : Prop where
  member : s.isMember u chptr = true → other.isMember u chptr = true
  link : s.Counted → u ∈ (s.chan chptr).memberIds →
    find_user_link (other.chan chptr).members u = find_user_link (s.chan chptr).members u

theorem StaysOn.sends {u : ClientId} {other : Ircd} (sends : Sends s other) :
    StaysOn u chptr s other := by
  refine ⟨fun member => ?_, fun _ _ => by rw [sends.chan]⟩
  unfold isMember
  rw [sends.client]
  exact member

theorem StaysOn.after {u : ClientId} {other third : Ircd} (sends : Sends s other)
    (stays : StaysOn u chptr other third) : StaysOn u chptr s third := by
  refine ⟨stays.member ∘ (StaysOn.sends sends).member, fun counted member => ?_⟩
  have link := stays.link (counted.sends sends) (by rw [sends.chan]; exact member)
  rw [link, sends.chan]

theorem StaysOn.kickOut {cptr who u : ClientId} {d : ChannelId} (source name comment : Text)
    (on : s.isMember who d = true) (ne : d = chptr → u ≠ who) :
    StaysOn u chptr s (s.kickOut cptr sptr who source name comment d) := by
  unfold Ircd.kickOut
  simp only []
  generalize line _ = text
  refine .after ((Sends.send s (.channel d sptr text)).trans
    (.send _ (.matchServs (some d) cptr text))) ?_
  exact ⟨remove_user_stays on ne, fun counted member => remove_user_link counted on member ne⟩

/-- A local client that may not kick the admins of a channel. -/
structure KickBound (s : Ircd) (sptr : ClientId) (chptr : ChannelId) : Prop where
  mine : (s.client sptr).myClient = true
  noService : (s.client sptr).isService = false
  noAdmin : (s.chan chptr).is_chan_adm sptr = false

theorem KickBound.sends {other : Ircd} (bound : s.KickBound sptr chptr) (sends : Sends s other) :
    other.KickBound sptr chptr := by
  refine ⟨?_, ?_, ?_⟩
  · rw [sends.client]; exact bound.mine
  · rw [sends.client]; exact bound.noService
  · rw [sends.chan]; exact bound.noAdmin

theorem KickBound.kickWho (bound : s.KickBound sptr chptr) {u : ClientId}
    (admin : (s.chan chptr).is_chan_adm u = true) (who : ClientId) (source user name comment : Text)
    (d : ChannelId) : StaysOn u chptr s (s.kickWho sptr sptr who source user name comment d) := by
  unfold Ircd.kickWho
  split
  · exact .sends (.send ..)
  split
  · rename_i on
    rw [if_pos bound.mine]
    simp only []
    obtain ⟨checked, spared⟩ := kickChecks_spec s sptr sptr who source user d
    split
    · exact .sends checked
    · rename_i allowed
      refine .after checked (.kickOut _ _ _ ?_ fun same self => ?_)
      · unfold isMember
        rw [checked.client]
        exact on
      · rw [same] at spared
        have notAdm := spared (by simpa [same] using allowed) (Client.not_isServer_of_myClient bound.mine)
          bound.noService bound.noAdmin
        rw [← self] at notAdm
        exact absurd (admin.symm.trans notAdm) Bool.true_eq_false.mp
  · exact .sends (.send ..)

/-- **KICK of a local client that is no channel admin leaves every channel admin.** -/
theorem KickBound.m_kick (bound : s.KickBound sptr chptr) {u : ClientId}
    (admin : (s.chan chptr).is_chan_adm u = true) (parv : List Text) :
    StaysOn u chptr s (s.m_kick sptr sptr parv) := by
  unfold Ircd.m_kick
  simp only []
  generalize List.take TOPICLEN _ = comment
  split
  · exact .sends (.send ..)
  have told := Sends.sendIf s (s.client sptr).isServer (.ops (line ["KICK from ", parv.getD 0 [],
    " for ", parv.getD 1 [], " ", parv.getD 2 []]))
  generalize s.sendIf _ _ = t at told ⊢
  unfold kickNamed
  split
  · exact .sends (told.trans (.send ..))
  unfold kickOn
  simp only []
  split
  · exact .sends (told.trans (.send ..))
  split
  · rename_i none_
    exact .sends (told.trans (find_chasing_none none_))
  rename_i chased who _ found
  obtain ⟨same, _⟩ := find_chasing_some found
  rw [same]
  refine .after told ((bound.sends told).kickWho ?_ ..)
  rw [told.chan]
  exact admin

/-- **The authority over a channel.** A local client without authority changes with MODE no mode, no ban
and no status of any channel;
and one that is neither an admin of a channel nor a service takes from its admins neither the status
of operator or voice with MODE nor, with KICK, their place on the channel or any flag. -/
theorem channel_authority (s : Ircd) (sptr : ClientId) (chptr : ChannelId) (parv : List Text) :
    (s.Unprivileged sptr chptr → ∀ d,
        (s.chan d).Keeps ((s.set_channel_mode sptr sptr chptr parv).chan d)) ∧
      (s.KickBound sptr chptr → ∀ u, (s.chan chptr).is_chan_adm u = true →
        Spares sptr (s.chan chptr) ((s.set_channel_mode sptr sptr chptr parv).chan chptr) ∧
          StaysOn u chptr s (s.m_kick sptr sptr parv)) := by
  refine ⟨fun unprivileged => unprivileged.set_channel_mode parv, fun bound u admin => ?_⟩
  exact ⟨set_channel_mode_spares bound.mine bound.noAdmin parv, bound.m_kick admin parv⟩

/-- A user next to a channel admin. -/
theorem channel_authority_crowd :
    (∀ d, (sampleCrowd.chan d).Keeps
        ((sampleCrowd.set_channel_mode 3 3 1 ["+m-o", "ann"]).chan d)) ∧
      Spares 3 (sampleCrowd.chan 1) ((sampleCrowd.set_channel_mode 3 3 1 ["+m-o", "ann"]).chan 1) ∧
        StaysOn 2 1 sampleCrowd (sampleCrowd.m_kick 3 3 ["bob", "#c", "ann"]) := by
  have bound : sampleCrowd.KickBound 3 1 := ⟨by decide, by decide, by decide⟩
  refine ⟨(channel_authority sampleCrowd 3 1 ["+m-o", "ann"]).1
    ⟨by decide, by decide, by decide, by decide, by decide, by decide⟩, ?_⟩
  have modes := (channel_authority sampleCrowd 3 1 ["+m-o", "ann"]).2 bound 2 (by decide)
  have kick := (channel_authority sampleCrowd 3 1 ["bob", "#c", "ann"]).2 bound 2 (by decide)
  exact ⟨modes.1, kick.2⟩

end Commands

end Ircd

end PtlinkIrcd
