/-
**The writes that commands are made of.**

* `Deed` — one write: something that is neither a client block, a channel block nor a list of them;
  a block that keeps its invitations; an invitation that ends; a channel made or freed; a client
  freed that nobody invites.
* `Deeds` — writes one after the other.
* `Deeds.m_join`, `Deeds.m_part`, `Deeds.m_kick`, `Deeds.m_sjoin`, `Deeds.m_mode`, `Deeds.m_svsmode`
  — **a command is nothing but such writes**, whatever the state it meets.
-/

import Mathlib.Logic.Relation
import PtlinkIrcd.Channel.ModeEffect
import PtlinkIrcd.Client.Release

namespace PtlinkIrcd.Ircd

/-! ### Writes -/

/-- The client blocks, the channel blocks and their lists are the same. -/
structure SameBlocks (s t : Ircd) : Prop where
  conf : t.conf = s.conf
  client : t.client = s.client
  chan : t.chan = s.chan
  nextChan : t.nextChan = s.nextChan
  channelTable : t.channelTable = s.channelTable
  channel : t.channel = s.channel
  clients : t.GlobalClientList = s.GlobalClientList

/-- Taking a client off the list frees its block. -/
def freeClient (s : Ircd) (u : ClientId) : Ircd :=
  { s.setClient u .zero with GlobalClientList := s.GlobalClientList.erase u }

/-- **One write.** -/
inductive Deed : Ircd → Ircd → Prop
  | other {s t : Ircd} (same : SameBlocks s t) : Deed s t
  | chan {s : Ircd} {chptr : ChannelId} {c : Channel} (invites : c.invites = (s.chan chptr).invites)
      (chname : c.chname = (s.chan chptr).chname) : Deed s (s.setChan chptr c)
  | client {s : Ircd} {u : ClientId} {x : Client}
      (invited : x.user.map User.invited = (s.client u).user.map User.invited)
      (status : x.status = (s.client u).status) (name : x.name = (s.client u).name) :
      Deed s (s.setClient u x)
  | uninvite (s : Ircd) (u : ClientId) (chptr : ChannelId) : Deed s (s.del_invite u chptr)
  | create (s : Ircd) (chname : Text) : Deed s (s.createChannel chname).1
  | destroy (s : Ircd) (chptr : ChannelId) : Deed s (s.destroyChannel chptr)
  | free {s : Ircd} {u : ClientId} (alone : s.invited u = []) : Deed s (s.freeClient u)

def Deeds (s t : Ircd) : Prop := Relation.ReflTransGen Deed s t

namespace Deeds

variable {s t r : Ircd}

theorem refl (s : Ircd) : Deeds s s := Relation.ReflTransGen.refl

theorem single (deed : Deed s t) : Deeds s t := Relation.ReflTransGen.single deed

theorem trans (first : Deeds s t) (second : Deeds t r) : Deeds s r :=
  Relation.ReflTransGen.trans first second

/-- **What every write preserves, a command preserves.** -/
theorem preserves {P : Ircd → Prop} (deed : ∀ {s t : Ircd}, Deed s t → P s → P t)
    (deeds : Deeds s t) (start : P s) : P t := by
  induction deeds with
  | refl => exact start
  | tail _ last ih => exact deed last ih

theorem sends (sends : Sends s t) : Deeds s t := by
  obtain ⟨events, rfl⟩ := sends
  exact single (.other ⟨rfl, rfl, rfl, rfl, rfl, rfl, rfl⟩)

theorem send (s : Ircd) (event : Sent) : Deeds s (s.send event) := sends (.send ..)

theorem sendIf (s : Ircd) (p : Bool) (event : Sent) : Deeds s (s.sendIf p event) := sends (.sendIf ..)

theorem del_invite (s : Ircd) (u : ClientId) (chptr : ChannelId) : Deeds s (s.del_invite u chptr) :=
  single (.uninvite ..)

theorem setMode (s : Ircd) (chptr : ChannelId) (mode : Mode) : Deeds s (s.setMode chptr mode) :=
  single (.chan rfl rfl)

theorem setChannelts (s : Ircd) (chptr : ChannelId) (ts : Int) :
    Deeds s (s.setChannelts chptr ts) :=
  single (.chan rfl rfl)

theorem setChan {chptr : ChannelId} {c : Channel} (rest : Deeds (s.setChan chptr c) t)
    (invites : c.invites = (s.chan chptr).invites) (chname : c.chname = (s.chan chptr).chname) :
    Deeds s t :=
  (single (.chan invites chname)).trans rest

theorem setClient {u : ClientId} {x : Client} (rest : Deeds (s.setClient u x) t)
    (invited : x.user.map User.invited = (s.client u).user.map User.invited)
    (status : x.status = (s.client u).status) (name : x.name = (s.client u).name) : Deeds s t :=
  (single (.client invited status name)).trans rest

theorem setUser {u : ClientId} {old user : User} (has : (s.client u).user = some old)
    (invited : user.invited = old.invited) : Deeds s (s.setUser u user) := by
  refine single (.client ?_ rfl rfl)
  rw [has]
  exact congrArg some invited

theorem foldl {ι : Type} (step : Ircd → ι → Ircd) (deeds : ∀ s i, Deeds s (step s i))
    (items : List ι) (s : Ircd) : Deeds s (items.foldl step s) := by
  induction items generalizing s with
  | nil => exact refl s
  | cons item items ih => exact (deeds s item).trans (ih _)

/-! ### Users of a channel -/

theorem add_user (s : Ircd) (chptr : ChannelId) (who : ClientId) (flags : Flags) :
    Deeds s (s.add_user_to_channel chptr who flags) := by
  unfold Ircd.add_user_to_channel
  split
  · exact .refl s
  · rename_i user has
    exact setChan (setUser has rfl) rfl rfl

theorem sub1_from_channel (s : Ircd) (chptr : ChannelId) : Deeds s (s.sub1_from_channel chptr) := by
  unfold Ircd.sub1_from_channel
  simp only []
  split
  · split
    · exact single (.chan rfl rfl)
    · exact setChan (single (.destroy ..)) rfl rfl
  · exact single (.chan rfl rfl)

theorem remove_user (s : Ircd) (u : ClientId) (chptr : ChannelId) :
    Deeds s (s.remove_user_from_channel u chptr) := by
  unfold Ircd.remove_user_from_channel
  split
  · exact .refl s
  · rename_i user has
    have unlinked : Deeds s (s.unlinkUser u user chptr) :=
      setChan (setUser has rfl) rfl rfl
    exact unlinked.trans (sub1_from_channel ..)

theorem removeFromAll {before : Ircd → ChannelId → Ircd} (deeds : ∀ s c, Deeds s (before s c))
    (u : ClientId) : ∀ (fuel : Nat) (s : Ircd), Deeds s (Ircd.removeFromAll before u fuel s)
  | 0, s => .refl s
  | fuel + 1, s => by
    unfold Ircd.removeFromAll
    split
    · exact .refl s
    · rename_i chptr _ _
      exact ((deeds s chptr).trans (remove_user ..)).trans (removeFromAll deeds u fuel _)

theorem get_channel_create (s : Ircd) (cptr : ClientId) (chname : Text) :
    Deeds s (s.get_channel_create cptr chname).1 := by
  unfold Ircd.get_channel_create
  split
  · exact .refl s
  · exact single (.create ..)

/-! ### PART and KICK -/

theorem spamLeave (s : Ircd) (u : ClientId) : Deeds s (s.spamLeave u) := by
  unfold Ircd.spamLeave
  simp only []
  split
  · split
    · exact (send ..).trans (single (.client rfl rfl rfl))
    · exact single (.client rfl rfl rfl)
  · exact .refl s

theorem tellPart (s : Ircd) (u : ClientId) (source : Text) (chptr : ChannelId) (name : Text) :
    Deeds s (s.tellPart u source chptr name) := by
  unfold Ircd.tellPart
  simp only []
  split
  · exact send ..
  · split
    · exact send ..
    · exact .refl s

theorem m_part (s : Ircd) (cptr sptr : ClientId) (parv : List Text) :
    Deeds s (s.m_part cptr sptr parv) := by
  have one : ∀ (s : Ircd) name, Deeds s (s.partOne cptr sptr (parv.getD 0 []) name) := by
    intro s name
    unfold Ircd.partOne
    split
    · exact send ..
    · simp only []
      split
      · exact send ..
      · exact (send ..).trans ((tellPart ..).trans (remove_user ..))
  unfold Ircd.m_part
  simp only []
  split
  · exact send ..
  · refine Deeds.trans ?_ (foldl _ (fun s name => one s name) _ _)
    split
    · exact spamLeave ..
    · exact .refl s

theorem kickChecks (s : Ircd) (cptr sptr who : ClientId) (source user : Text) (chptr : ChannelId) :
    Deeds s (s.kickChecks cptr sptr who source user chptr).1 := by
  unfold Ircd.kickChecks
  simp only []
  split
  · exact (send ..).trans (send ..)
  · have warned := fun a b c (event : Sent) =>
      ((sendIf s a event).trans (sendIf _ b event)).trans (sendIf _ c event)
    split
    · exact (warned ..).trans (send ..)
    · split
      · exact (warned ..).trans (send ..)
      · exact warned ..

theorem kickOut (s : Ircd) (cptr sptr who : ClientId) (source name comment : Text)
    (chptr : ChannelId) : Deeds s (s.kickOut cptr sptr who source name comment chptr) :=
  (send ..).trans ((send ..).trans (remove_user ..))

theorem kickWho (s : Ircd) (cptr sptr who : ClientId) (source user name comment : Text)
    (chptr : ChannelId) : Deeds s (s.kickWho cptr sptr who source user name comment chptr) := by
  unfold Ircd.kickWho
  simp only []
  split
  · exact send ..
  · split
    · split
      · have checked := kickChecks s cptr sptr who source user chptr
        split
        · exact checked
        · exact checked.trans (kickOut ..)
      · exact kickOut ..
    · exact send ..

theorem find_chasing (s : Ircd) (sptr : ClientId) (user : Text) :
    Deeds s (s.find_chasing sptr user).1 :=
  sends (.find_chasing ..)

theorem kickOn (s : Ircd) (cptr sptr : ClientId) (source user name comment : Text)
    (chptr : ChannelId) : Deeds s (s.kickOn cptr sptr source user name comment chptr) := by
  unfold Ircd.kickOn
  simp only []
  split
  · exact send ..
  · have chased := find_chasing s sptr user
    split
    · rename_i eq
      rw [eq] at chased
      exact chased
    · rename_i eq
      rw [eq] at chased
      exact chased.trans (kickWho ..)

/-- **KICK.** -/
theorem m_kick (s : Ircd) (cptr sptr : ClientId) (parv : List Text) :
    Deeds s (s.m_kick cptr sptr parv) := by
  have named : ∀ (s : Ircd) source user name comment,
      Deeds s (s.kickNamed cptr sptr source user name comment) := by
    intro s source user name comment
    unfold Ircd.kickNamed
    split
    · exact send ..
    · exact kickOn ..
  unfold Ircd.m_kick
  simp only []
  split
  · exact send ..
  · exact (sendIf ..).trans (named ..)

/-! ### JOIN -/

theorem noteJoins (s : Ircd) (u : ClientId) (successful : Int) :
    Deeds s (s.noteJoins u successful) := by
  unfold Ircd.noteJoins
  split
  · exact single (.client rfl rfl rfl)
  · exact .refl s

theorem spamJoin (s : Ircd) (u : ClientId) (name : Text) : Deeds s (s.spamJoin u name).1 := by
  unfold Ircd.spamJoin
  simp only []
  generalize (if (s.client u).oper_warn_count_down > 0 then
    (s.client u).oper_warn_count_down - 1 else 0 : Int) = count_down
  split
  · split
    · exact (send ..).trans (single (.client rfl rfl rfl))
    · exact single (.client rfl rfl rfl)
  · exact .refl s

theorem can_join (s : Ircd) (u : ClientId) (chptr : ChannelId) (key : Option Text) :
    Deeds s (s.can_join u chptr key).1 := by
  unfold Ircd.can_join
  simp only []
  split
  · exact .refl s
  · split
    · exact .refl s
    · split
      · exact (send ..).trans (send ..)
      · split
        · exact .refl s
        · split
          · exact .refl s
          · exact sendIf ..

theorem enterChannel (s : Ircd) (cptr sptr : ClientId) (source name : Text) (chptr : ChannelId)
    (flags : Flags) : Deeds s (s.enterChannel cptr sptr source name chptr flags) := by
  have entry : ∀ s : Ircd, Deeds s (s.tellEntry cptr sptr source name chptr flags) := by
    intro s
    unfold Ircd.tellEntry
    split
    · exact (setChannelts ..).trans (send ..)
    · split <;> exact send ..
  have join : ∀ s : Ircd, Deeds s (s.tellJoin sptr source name chptr) := by
    intro s
    unfold Ircd.tellJoin
    simp only []
    split
    · exact send ..
    · exact sendIf ..
  have opened : ∀ s : Ircd, Deeds s (s.openChannel sptr chptr) :=
    fun s => (setMode ..).trans (send ..)
  unfold Ircd.enterChannel
  simp only []
  refine (add_user s chptr sptr flags).trans ((entry _).trans ((join _).trans ?_))
  split
  · split
    · exact (opened _).trans ((del_invite ..).trans (send ..))
    · exact (del_invite ..).trans (send ..)
  · exact .refl _

theorem joinFound (s : Ircd) (cptr sptr : ClientId) (source name : Text) (key : Option Text)
    (flags : Flags) (successful : Int) :
    Deeds s (s.joinFound cptr sptr source name key flags successful).1 := by
  have made := get_channel_create s sptr name
  unfold Ircd.joinFound
  simp only []
  split
  · exact made
  · split
    · split
      · exact made.trans ((can_join ..).trans (send ..))
      · exact made.trans ((can_join ..).trans (enterChannel ..))
    · exact made.trans (enterChannel ..)

theorem joinZero (s : Ircd) (cptr sptr : ClientId) (source : Text) :
    Deeds s (s.joinZero cptr sptr source) := by
  unfold Ircd.joinZero
  split
  · exact .refl s
  · exact (removeFromAll (fun s c => tellPart ..) ..).trans ((spamLeave ..).trans (send ..))

theorem joinOne (s : Ircd) (cptr sptr : ClientId) (source name : Text) (key : Option Text)
    (successful : Int) : Deeds s (s.joinOne cptr sptr source name key successful).1 := by
  unfold Ircd.joinOne
  simp only []
  split
  · exact joinZero ..
  · split
    · split
      · exact send ..
      · split
        · exact (send ..).trans (noteJoins ..)
        · split
          · exact spamJoin ..
          · exact (spamJoin ..).trans (joinFound ..)
    · exact (sendIf ..).trans (joinFound ..)

theorem joinLoop (cptr sptr : ClientId) (source : Text) :
    ∀ (names keys : List Text) (successful : Int) (s : Ircd),
      Deeds s (Ircd.joinLoop cptr sptr source names keys successful s)
  | [], _, successful, s => by
    unfold Ircd.joinLoop
    split
    · exact noteJoins ..
    · exact .refl s
  | name :: names, keys, successful, s => by
    have one := joinOne s cptr sptr source name keys.head? successful
    unfold Ircd.joinLoop
    split
    · rename_i eq
      rw [eq] at one
      exact one.trans (joinLoop cptr sptr source names keys.tail _ _)
    · rename_i eq
      rw [eq] at one
      exact one

theorem joinNames (s : Ircd) (sptr : ClientId) (source : Text) (names : List Text)
    (jbuf : List Char) (i : Nat) : Deeds s (s.joinNames sptr source names jbuf i).1 := by
  fun_induction Ircd.joinNames s sptr source names jbuf i
  case case1 => exact .refl _
  case case2 ih => exact (send ..).trans ih
  case case3 ih => exact ih
  case case4 ih => exact (sendIf ..).trans ih
  case case5 => exact .refl _
  case case6 ih => exact ih
  case case7 ih => exact ih

/-- **JOIN.** -/
theorem m_join (s : Ircd) (cptr sptr : ClientId) (parv : List Text) :
    Deeds s (s.m_join cptr sptr parv) := by
  unfold Ircd.m_join
  simp only []
  split
  · exact .refl s
  · split
    · exact send ..
    · split
      · exact send ..
      · exact (joinNames ..).trans (joinLoop ..)

/-! ### SJOIN -/

theorem sjoinWho {start : Ircd} {l : SjoinLoop} (deeds : Deeds start l.s) (cptr sptr : ClientId)
    (chptr : ChannelId) (source name : Text) (keepNew : Bool) (s0 : Text) :
    Deeds start (Ircd.sjoinWho cptr sptr chptr source name keepNew l s0).s := by
  have entered : ∀ (s : Ircd) u fl nick, Deeds s (s.sjoinEnter chptr u fl nick name) := by
    intro s u fl nick
    unfold Ircd.sjoinEnter
    split
    · exact .refl s
    · exact (add_user ..).trans (sendIf ..)
  have chased := find_chasing l.s sptr (sjoinNick l.s.conf.HALFOPS s0).2
  unfold Ircd.sjoinWho
  simp only []
  split
  · rename_i eq
    rw [eq] at chased
    exact deeds.trans chased
  · rename_i eq
    rw [eq] at chased
    split
    · exact deeds.trans chased
    · exact (deeds.trans chased).trans ((entered ..).trans (sends (sends_statusParams ..)))

theorem sjoinPeople (s : Ircd) (cptr sptr : ClientId) (chptr : ChannelId) (source name modes : Text)
    (verdict : Verdict) (nicks : Text) :
    Deeds s (s.sjoinPeople cptr sptr chptr source name modes verdict nicks) := by
  have loop : ∀ (words : List Text) (l : SjoinLoop), Deeds s l.s →
      Deeds s (words.foldl (Ircd.sjoinWho cptr sptr chptr source name verdict.keepNew) l).s := by
    intro words
    induction words with
    | nil => exact fun l deeds => deeds
    | cons s0 words ih => exact fun l deeds => ih _ (sjoinWho deeds ..)
  unfold Ircd.sjoinPeople
  simp only []
  refine (loop (strtoken ' ' nicks) ⟨s, .plus, [], 0⟩ (.refl s)).trans ?_
  split
  · exact (send ..).trans (sendIf ..)
  · exact sendIf ..

theorem sjoinMode (s : Ircd) (sptr : ClientId) (chptr : ChannelId) (source : Text)
    (oldts newts : Int) (verdict : Verdict) (mode : Mode) :
    Deeds s (s.sjoinMode sptr chptr source oldts newts verdict mode) := by
  have stripped : ∀ (s : Ircd) b, Deeds s (s.sjoinStrip sptr chptr source oldts newts b).1 := by
    intro s b
    have told := sends_stripLoop sptr chptr source (fun u => (s.client u).name)
      (s.chan chptr).members (s, { b with what := none })
    refine (sends told).trans (setChan (send ..) ?_ ?_)
    · rw [told.chan]
    · rw [told.chan]
  unfold Ircd.sjoinMode
  simp only []
  generalize sjoinMerge verdict mode (s.chan chptr).mode = merged
  have written := setMode s chptr merged
  have both : Deeds s (if verdict.keepOur then
      (s.setMode chptr merged, sjoinDelta merged (s.chan chptr).mode) else
      (s.setMode chptr merged).sjoinStrip sptr chptr source oldts newts
        (sjoinDelta merged (s.chan chptr).mode)).1 := by
    split
    · exact written
    · exact written.trans (stripped ..)
  generalize (if verdict.keepOur then (s.setMode chptr merged, _) else _ : Ircd × ModeLine) = told
    at both ⊢
  split
  · exact both.trans (send ..)
  · exact both

/-- **SJOIN and NJOIN.** -/
theorem m_sjoin (s : Ircd) (cptr sptr : ClientId) (parv : List Text) :
    Deeds s (s.m_sjoin cptr sptr parv) := by
  unfold Ircd.m_sjoin
  split
  · exact .refl s
  · exact (get_channel_create ..).trans ((sends (sends_sjoinZero ..)).trans
      ((setChannelts ..).trans ((sjoinMode ..).trans (sjoinPeople ..))))

/-! ### MODE -/

section Mode

variable {m : ModeSource} {l : ModeLoop}

theorem complain (l : ModeLoop) (m : ModeSource) (err : SmErr) (event : Sent) :
    Deeds l.s (l.complain m err event).s := by
  unfold ModeLoop.complain
  split
  · exact send ..
  · exact .refl _

theorem status (l : ModeLoop) (m : ModeSource) (c : Char) (flag : Flags) (who : ClientId)
    (tmp : Nat) : Deeds l.s (l.status m c flag who tmp).s := by
  unfold ModeLoop.status
  split
  · exact .refl _
  · exact single (.chan rfl rfl)

theorem modeAdmin (m : ModeSource) (l : ModeLoop) : Deeds l.s (modeAdmin m l).s := by
  unfold PtlinkIrcd.modeAdmin
  split
  · exact .refl _
  · split
    · exact .refl _
    · rename_i p parv _
      have chased := find_chasing l.s m.sptr (check_string p)
      split
      · rename_i eq
        rw [eq] at chased
        exact chased
      · rename_i eq
        rw [eq] at chased
        refine chased.trans ?_
        unfold modeAdminOf
        simp only []
        split
        · exact .refl _
        · split
          · exact .refl _
          · split
            · exact complain { l with parv := parv, s := _ } ..
            · split
              · exact sendIf ..
              · exact status { l with parv := parv, s := _ } ..

theorem modeStatusOf (m : ModeSource) (c : Char) (flag : Flags) (who : ClientId) (arg : Text)
    (l : ModeLoop) : Deeds l.s (modeStatusOf m c flag who arg l).s := by
  have deopped : Deeds l.s (if m.isdeop && c = 'o' && l.whatt = .add then
      { l with s := l.s.set_deopped who m.chptr flag } else l : ModeLoop).s := by
    split
    · exact single (.chan rfl rfl)
    · exact .refl _
  unfold PtlinkIrcd.modeStatusOf
  simp only []
  split
  · exact .refl _
  · split
    · exact sendIf ..
    · split
      · exact .refl _
      · split
        · exact .refl _
        · generalize (if m.isdeop && c = 'o' && l.whatt = .add then
            { l with s := l.s.set_deopped who m.chptr flag } else l : ModeLoop) = k at deopped ⊢
          refine deopped.trans ?_
          split
          · exact complain k ..
          · split
            · exact sendIf ..
            · exact status k ..

theorem modeStatus (m : ModeSource) (c : Char) (flag : Flags) (l : ModeLoop) :
    Deeds l.s (modeStatus m c flag l).s := by
  unfold PtlinkIrcd.modeStatus
  simp only []
  split
  · exact complain l ..
  · split
    · exact complain l ..
    · split
      · exact .refl _
      · split
        · exact .refl _
        · rename_i p parv _
          split
          · exact .refl _
          · have chased := find_chasing l.s m.sptr (check_string p)
            split
            · rename_i eq
              rw [eq] at chased
              exact chased
            · rename_i eq
              rw [eq] at chased
              exact chased.trans (modeStatusOf m c flag _ _ { l with parv := parv, s := _ })

theorem modeKey (m : ModeSource) (l : ModeLoop) : Deeds l.s (modeKey m l).s := by
  have oldKey : ∀ s : Ircd, Deeds s (modeOldKey m s) := by
    intro s
    unfold modeOldKey
    simp only []
    split
    · exact (send ..).trans (send ..)
    · exact .refl s
  have keyed : ∀ (arg : Text) (l : ModeLoop), Deeds l.s (modeKeyOf m arg l).s := by
    intro arg l
    unfold modeKeyOf
    simp only []
    split
    · exact .refl _
    · split
      · split
        · exact .refl _
        · exact (oldKey _).trans (setMode ..)
      · split
        · exact .refl _
        · exact setMode ..
  unfold PtlinkIrcd.modeKey
  split
  · exact .refl _
  · split
    · exact .refl _
    · split
      · exact .refl _
      · split
        · exact complain { l with parv := l.parv.tail, keychange := true } ..
        · exact keyed _ { l with parv := l.parv.tail, keychange := true }

theorem modeBan (m : ModeSource) (l : ModeLoop) : Deeds l.s (modeBan m l).s := by
  have listed : ∀ l : ModeLoop, Deeds l.s (modeBanList m l).s := by
    intro l
    unfold modeBanList
    simp only []
    split
    · exact .refl _
    · exact (foldl _ (fun s ban => send ..) _ _).trans (send ..)
  have banned : ∀ (s : Ircd) arg, Deeds s (s.add_banid m.sptr m.chptr arg).1 := by
    intro s arg
    unfold add_banid
    simp only []
    generalize (if (s.client m.sptr).myClient then collapse arg else arg) = banid
    split
    · exact send ..
    · split
      · exact .refl s
      · exact single (.chan rfl rfl)
  have unbanned : ∀ (s : Ircd) arg, Deeds s (s.del_banid m.chptr arg).1 := by
    intro s arg
    unfold del_banid
    simp only []
    split
    · exact single (.chan rfl rfl)
    · exact .refl s
  have masked : ∀ (arg : Text) (l : ModeLoop), Deeds l.s (modeBanOf m arg l).s := by
    intro arg l
    have done : Deeds l.s (if l.whatt = .add then l.s.add_banid m.sptr m.chptr arg
        else l.s.del_banid m.chptr arg).1 := by
      split
      · exact banned ..
      · exact unbanned ..
    unfold modeBanOf
    simp only []
    generalize (if l.whatt = .add then l.s.add_banid m.sptr m.chptr arg
      else l.s.del_banid m.chptr arg) = written at done ⊢
    split
    · exact .refl _
    · split <;> exact done
  unfold PtlinkIrcd.modeBan
  split
  · exact listed l
  · split
    · exact listed l
    · rename_i p parv _
      simp only []
      split
      · exact .refl _
      · split
        · exact complain { l with parv := parv } ..
        · split
          · exact .refl _
          · exact masked _ { l with parv := parv }

theorem modeFlood (m : ModeSource) (l : ModeLoop) : Deeds l.s (modeFlood m l).s := by
  unfold PtlinkIrcd.modeFlood
  split
  · exact .refl _
  · split
    · exact .refl _
    · split
      · exact .refl _
      · simp only []
        split
        · split
          · exact sendIf ..
          · unfold modeFloodOf
            simp only []
            split
            · exact .refl _
            · split
              · exact .refl _
              · split
                · exact .refl _
                · exact setMode ..
        · exact setMode ..

theorem modeLimit (m : ModeSource) (l : ModeLoop) : Deeds l.s (modeLimit m l).s := by
  unfold PtlinkIrcd.modeLimit
  split
  · exact .refl _
  · split
    · exact .refl _
    · split
      · exact .refl _
      · simp only []
        split
        · split
          · exact sendIf ..
          · unfold modeLimitOf
            simp only []
            split
            · exact .refl _
            · split
              · exact .refl _
              · exact setMode ..
        · exact setMode ..

theorem withoutInvites (s : Ircd) (chptr : ChannelId) : Deeds s (s.withoutInvites chptr) :=
  foldl (fun s cptr => s.del_invite cptr chptr) (fun s u => del_invite s u chptr) _ s

theorem turn {s : Ircd} {p : Prop} [Decidable p] {a b : ModeLoop} (first : Deeds s a.s)
    (second : Deeds s b.s) : Deeds s (if p then a else b).s := by
  split <;> assumption

theorem modeBit (m : ModeSource) (c : Char) (flag : Flags) (l : ModeLoop) :
    Deeds l.s (modeBit m c flag l).s := by
  have cleared : Deeds l.s (if c = 'i' && !decide (l.whatt = .add) then l.s.withoutInvites m.chptr
      else l.s) := by
    split
    · exact withoutInvites ..
    · exact .refl _
  unfold PtlinkIrcd.modeBit
  split
  · exact .refl _
  · split
    · unfold modeBitRefused
      split
      · exact complain l ..
      · exact complain l ..
    · split
      · exact .refl _
      · unfold modeBitOf
        simp only []
        split
        · exact .refl _
        · exact turn cleared (cleared.trans (setMode ..))

/-- **One letter.** -/
theorem modeLetter (m : ModeSource) (l : ModeLoop) (c : Char) : Deeds l.s (modeLetter m l c).s := by
  unfold PtlinkIrcd.modeLetter
  refine turn (.refl _) (turn (.refl _) (turn (.refl _) ?_))
  refine turn (modeAdmin m l) (turn (modeStatus ..) (turn (modeStatus ..) (turn (modeStatus ..) ?_)))
  refine turn (modeKey m l) (turn (modeBan m l) (turn (modeFlood m l) (turn (modeLimit m l) ?_)))
  split
  · exact modeBit ..
  · exact turn (.refl _) (complain ..)

end Mode

theorem set_channel_mode (s : Ircd) (cptr sptr : ClientId) (chptr : ChannelId) (parv : List Text) :
    Deeds s (s.set_channel_mode cptr sptr chptr parv) := by
  unfold Ircd.set_channel_mode
  split
  · exact send ..
  · have loop : Deeds s (s.modeLoop cptr sptr chptr parv).s :=
      modeWords_run (P := fun l => Deeds s l.s) (fun l c _ deeds => deeds.trans (modeLetter _ l c))
        (fun _ _ deeds => deeds) _ (wordsMeet_true ..) (.refl s)
    unfold modeTell
    simp only []
    split
    · exact loop.trans ((send ..).trans (send ..))
    · exact loop

/-! ### Modes of users -/

theorem setCountOper (s : Ircd) (oper : Int) : Deeds s (s.setCountOper oper) :=
  single (.other ⟨rfl, rfl, rfl, rfl, rfl, rfl, rfl⟩)

theorem countInvisible (s : Ircd) (old new : Flags) : Deeds s (s.countInvisible old new) :=
  single (.other ⟨rfl, rfl, rfl, rfl, rfl, rfl, rfl⟩)

theorem send_umode_out (s : Ircd) (cptr sptr : ClientId) (old : Flags) :
    Deeds s (s.send_umode_out cptr sptr old) :=
  (sendIf ..).trans (sendIf ..)

theorem user_mode (s : Ircd) (cptr sptr : ClientId) (parv : List Text) :
    Deeds s (s.user_mode cptr sptr parv) := by
  unfold Ircd.user_mode
  simp only []
  split
  · exact send ..
  · split
    · exact sendIf ..
    · split
      · split
        · exact send ..
        · exact send ..
      · split
        · exact send ..
        · have written : Deeds s (s.setUserMode sptr (s.userModeLetters cptr sptr parv)) :=
            setClient (setCountOper ..) rfl rfl rfl
          exact written.trans ((sendIf ..).trans ((countInvisible ..).trans (send_umode_out ..)))

/-- **SVSMODE.** -/
theorem m_svsmode (s : Ircd) (cptr sptr : ClientId) (parv : List Text) :
    Deeds s (s.m_svsmode cptr sptr parv) := by
  unfold Ircd.m_svsmode
  simp only []
  split
  · exact sendIf ..
  · split
    · exact .refl s
    · split
      · exact .refl s
      · split
        · split
          · exact send ..
          · exact setClient ((setCountOper ..).trans (send_umode_out ..)) rfl rfl rfl
        · exact sendIf ..

/-- **MODE.** -/
theorem m_mode (s : Ircd) (cptr sptr : ClientId) (parv : List Text) :
    Deeds s (s.m_mode cptr sptr parv) := by
  unfold Ircd.m_mode
  simp only []
  split
  · exact send ..
  · split
    · exact user_mode ..
    · split
      · exact send ..
      · split
        · exact user_mode ..
        · split
          · exact (send ..).trans (send ..)
          · exact set_channel_mode ..

end Deeds

/-! ### Invitations that end -/

theorem invited_of_none {s : Ircd} {u : ClientId} (none_ : (s.client u).user = none) :
    s.invited u = [] := by
  unfold invited
  rw [none_]
  rfl

theorem setUser_invited (s : Ircd) (u : ClientId) (user : User) :
    (s.setUser u user).invited = Function.update s.invited u user.invited := by
  funext v
  unfold invited
  by_cases self : v = u
  · rw [self, setUser_client_self, Function.update_self]
    rfl
  · rw [setUser_client_of_ne s user self, Function.update_of_ne self]

theorem del_invite_invited (s : Ircd) (u : ClientId) (chptr : ChannelId) :
    (s.del_invite u chptr).invited = Function.update s.invited u ((s.invited u).erase chptr) := by
  unfold Ircd.del_invite setInvited
  simp only []
  split
  · rename_i none_
    have nowhere : s.invited u = [] := invited_of_none none_
    rw [nowhere, List.erase_nil, ← nowhere, Function.update_eq_self]
    rfl
  · exact setUser_invited ..

theorem del_invite_chan (s : Ircd) (u : ClientId) (chptr : ChannelId) :
    (s.del_invite u chptr).chan = Function.update s.chan chptr
      ((s.chan chptr).inviting ((s.chan chptr).invites.erase u)) :=
  setInvited_chan ..

/-- **Every invitation of a user ends.** -/
theorem invited_foldl {s : Ircd} {u : ClientId} {chptrs : List ChannelId}
    (same : s.invited u = chptrs) :
    (chptrs.foldl (fun s chptr => s.del_invite u chptr) s).invited u = [] := by
  induction chptrs generalizing s with
  | nil => exact same
  | cons chptr chptrs ih =>
    refine ih ?_
    rw [del_invite_invited, Function.update_self, same, List.erase_cons_head]

/-! ### Clients that leave -/

theorem Deed.named {s t : Ircd} (deed : Deed s t) (named : s.Named) : t.Named := by
  cases deed with
  | other same =>
    unfold Named
    rw [same.client]
    exact named
  | chan => exact named
  | @client u x invited status name =>
    intro v has
    by_cases self : v = u
    · subst self
      have block : (s.setClient v x).client v = x := Function.update_self ..
      rw [block] at has ⊢
      have had : (s.client v).user.isSome := by
        rw [← Option.isSome_map (f := User.invited), ← invited, Option.isSome_map]
        exact has
      unfold Client.isClient
      rw [status, name]
      exact named v had
    · have block : (s.setClient u x).client v = s.client v := Function.update_of_ne self ..
      rw [block] at has ⊢
      exact named v has
  | uninvite u chptr => exact (Quiet.del_invite s u chptr).named named
  | create => exact named
  | destroy chptr =>
    exact (withoutInvites_quiet s chptr).named named
  | @free u _ =>
    intro v has
    by_cases self : v = u
    · subst self
      have block : (s.freeClient v).client v = .zero := Function.update_self ..
      rw [block] at has
      exact absurd has Bool.false_ne_true
    · have block : (s.freeClient u).client v = s.client v := Function.update_of_ne self ..
      rw [block] at has ⊢
      exact named v has

theorem Deeds.named {s t : Ircd} (deeds : Deeds s t) : s.Named → t.Named :=
  deeds.preserves fun deed named => deed.named named

namespace Deeds

variable {s t : Ircd} {u : ClientId}

theorem unlinkServ (s : Ircd) (u : ClientId) : Deeds s (s.unlinkServ u) := by
  unfold Ircd.unlinkServ
  split
  · exact .refl s
  · split
    · exact .refl s
    · exact single (.client rfl rfl rfl)

theorem setKilled (s : Ircd) (u : ClientId) : Deeds s (s.setKilled u) :=
  single (.client rfl rfl rfl)

theorem removeClient (alone : s.invited u = []) : Deeds s (s.removeClient u) := by
  have counted : Deeds s
      (((s.del_from_client_hash_table (s.client u).name u).update_client_exit_stats
        u).release_client_state u) ∧
      (((s.del_from_client_hash_table (s.client u).name u).update_client_exit_stats
        u).release_client_state u).client = s.client := by
    unfold release_client_state update_client_exit_stats
    split <;> split <;> exact ⟨single (.other ⟨rfl, rfl, rfl, rfl, rfl, rfl, rfl⟩), rfl⟩
  unfold Ircd.removeClient remove_client_from_list
  split
  · exact single (.other ⟨rfl, rfl, rfl, rfl, rfl, rfl, rfl⟩)
  · refine counted.1.trans (single (.free ?_))
    unfold invited
    rw [counted.2]
    exact alone

/-- **The memberships and invitations of a person end.** -/
theorem quitPerson (s : Ircd) (cptr : Option ClientId) (u : ClientId) (comment : Text) :
    Deeds s (s.quitPerson cptr u comment) ∧ (s.quitPerson cptr u comment).invited u = [] := by
  unfold Ircd.quitPerson
  simp only []
  have told : Deeds s (if !(s.client u).isStealth then
      (s.sendIf (!(s.client u).killed) (.servButone cptr (line [":", (s.client u).name, " QUIT :",
        comment]))).send (.commonChannels u (line [":", (s.client u).name, " QUIT :", comment]))
      else (s.sendIf (!(s.client u).killed) (.servButone cptr (line [":", (s.client u).name,
        " QUIT :", comment]))).sendIf (s.client u).myClient
          (.one u (line [":", (s.client u).name, " QUIT :Stealth mode"]))) := by
    split
    · exact (sendIf ..).trans (send ..)
    · exact (sendIf ..).trans (sendIf ..)
  generalize (if !(s.client u).isStealth then _ else _ : Ircd) = t at told ⊢
  refine ⟨told.trans ((removeFromAll (fun s _ => .refl s) ..).trans
    (foldl _ (fun s chptr => del_invite ..) _ _)), invited_foldl rfl⟩

/-- **One client leaves.** -/
theorem exit_one_client (named : s.Named) (cptr : Option ClientId) (u source : ClientId)
    (comment : Text) : Deeds s (s.exit_one_client cptr u source comment) := by
  have unlinked := unlinkServ s u
  have same := Still.unlinkServ s u
  have alone : (s.client u).isPerson = false → (s.unlinkServ u).invited u = [] := by
    intro noPerson
    refine invited_of_none (Option.not_isSome_iff_eq_none.mp fun has => ?_)
    rw [same.hasUser] at has
    unfold Client.isPerson at noPerson
    rw [(named u has).1, has] at noPerson
    exact Bool.false_ne_true noPerson.symm
  unfold Ircd.exit_one_client
  simp only []
  split
  · exact unlinked.trans (send ..)
  · split
    · rename_i server
      have noPerson := Client.not_isPerson_of_isServer server
      split
      · exact unlinked.trans (removeClient (alone noPerson))
      · refine unlinked.trans ((sendIf ..).trans (removeClient ?_))
        unfold invited
        rw [sendIf_client]
        exact alone noPerson
    · split
      · rename_i noPerson
        exact unlinked.trans (removeClient (alone (by simpa using noPerson)))
      · split
        · obtain ⟨quit, off⟩ := quitPerson (s.unlinkServ u) cptr u comment
          exact unlinked.trans (quit.trans (removeClient off))
        · rename_i isPerson noName
          unfold Client.isPerson at isPerson
          simp only [Bool.not_eq_true', Bool.not_eq_false, Bool.and_eq_true] at isPerson
          exact absurd (named u isPerson.2).2 noName

theorem killed (named : s.Named) (u source : ClientId) (comment : Text) :
    Deeds s ((s.setKilled u).exit_one_client none u source comment) :=
  (setKilled s u).trans (exit_one_client ((setKilled s u).named named) ..)

theorem recurse_remove_clients (comment : Text) : ∀ (fuel : Nat) {s : Ircd} (_ : s.Named)
    (u : ClientId), Deeds s (s.recurse_remove_clients comment fuel u)
  | 0, s, _, _ => .refl s
  | fuel + 1, s, named, u => by
    unfold Ircd.recurse_remove_clients
    split
    · exact .refl s
    · split
      · exact .refl s
      · split
        · rename_i acptr _ _
          have below := recurse_remove_clients comment fuel named acptr
          have one := below.trans (killed (below.named named) acptr me
            (Ircd.recurse_remove_clients comment fuel s acptr).meName)
          exact one.trans (recurse_remove_clients comment fuel (one.named named) u)
        · rename_i acptr _ _ _
          have one := killed named acptr me comment
          exact one.trans (recurse_remove_clients comment fuel (one.named named) u)
        · exact .refl s

theorem sweep (named : s.Named) (u : ClientId) (servers : Bool) (comment : Text) :
    Deeds s (s.sweep u servers comment) := by
  unfold Ircd.sweep
  generalize s.GlobalClientList = clients
  induction clients generalizing s with
  | nil => exact .refl s
  | cons acptr clients ih =>
    have one : Deeds s (if (s.client acptr).isServer = servers ∧
        (s.client acptr).link = some u then
        (s.send (.ops (line ["Dependent client ", (s.client acptr).name,
          " not on llist!?"]))).exit_one_client none acptr me comment else s) := by
      split
      · exact (send ..).trans (exit_one_client ((send ..).named named) ..)
      · exact .refl s
    exact one.trans (ih (one.named named))

theorem exitServer (named : s.Named) (u : ClientId) : Deeds s (s.exitServer u) := by
  unfold Ircd.exitServer
  simp only []
  generalize s.conf.OverrideNetsplitMessage.getD _ = comment1
  have below := recurse_remove_clients comment1 (s.GlobalClientList.length + 1) named u
  split
  · have told := below.trans (send _ (.ops (line [(s.client u).name, " was connected"])))
    have users := told.trans (sweep (told.named named) u false comment1)
    exact users.trans (sweep (users.named named) ..)
  · exact below

theorem exitLocal (s : Ircd) (u : ClientId) (comment : Text) : Deeds s (s.exitLocal u comment) := by
  have closed : ∀ t : Ircd, t.client = s.client → Deeds t
      (((t.uncountLocal (s.client u)).send (.one u (line ["ERROR :Closing Link: ",
        (s.client u).name, " (", comment, ")"]))).setClient u
          { s.client u with link := none }) := by
    intro t same
    have uncounted : Deeds t (t.uncountLocal (s.client u)) ∧
        (t.uncountLocal (s.client u)).client = t.client := by
      unfold uncountLocal
      split
      · exact ⟨single (.other ⟨rfl, rfl, rfl, rfl, rfl, rfl, rfl⟩), rfl⟩
      · exact ⟨.refl t, rfl⟩
    refine uncounted.1.trans ((send ..).trans (single (.client ?_ ?_ ?_)))
    all_goals rw [send_client, uncounted.2, same]
  unfold Ircd.exitLocal
  simp only []
  split
  · exact ((send ..).trans (send ..)).trans (closed _ rfl)
  · exact (sendIf ..).trans (closed _ (sendIf_client ..))

/-- **QUIT, KILL, SQUIT and lost connections.** -/
theorem exit_client (named : s.Named) (cptr : Option ClientId) (u source : ClientId)
    (comment : Text) : Deeds s (s.exit_client cptr u source comment) := by
  unfold Ircd.exit_client
  simp only []
  have closed : Deeds s (if (s.client u).myConnect then s.exitLocal u comment else s) := by
    split
    · exact exitLocal ..
    · exact .refl s
  generalize (if (s.client u).myConnect then s.exitLocal u comment else s) = t at closed ⊢
  have down : Deeds s
      (if (s.client u).isServer && (s.client u).isService then t.servicesDown else t) := by
    split
    · exact closed.trans (single (.other ⟨rfl, rfl, rfl, rfl, rfl, rfl, rfl⟩))
    · exact closed
  generalize (if (s.client u).isServer && (s.client u).isService then t.servicesDown else t) = d
    at down ⊢
  split
  · have below := down.trans (exitServer (down.named named) u)
    exact below.trans (exit_one_client (below.named named) ..)
  · exact down.trans (exit_one_client (down.named named) ..)

end Deeds

end PtlinkIrcd.Ircd
