/-
**What a SJOIN does.**

* `Sends` — a step that only sends; `Within chptr` — a step that changes one channel and who is on
  it, and nothing else.
* `arrivals` — the users that a list of nicks brings, with their flags; `arrive` puts one of them on
  a member list.
* `m_sjoin_found`, `m_sjoin_made` — the channel after the message: the time stamp and the modes of the verdict, the
  members with or without their statuses, and the arrivals.
-/

import PtlinkIrcd.Channel.Safe
import PtlinkIrcd.Channel.Sjoin

set_option linter.unusedSectionVars false

namespace PtlinkIrcd

/-- A member list after a user came: one who was there already keeps the flags it had. -/
def arrive (members : List Member) (l : Member) : List Member :=
  if l.cptr ∈ members.map Member.cptr then members else l :: members

theorem arrive_ne_nil {members : List Member} (l : Member) : arrive members l ≠ [] := by
  unfold arrive
  split
  · rename_i member
    rintro rfl
    exact absurd member List.not_mem_nil
  · exact List.cons_ne_nil _ _

theorem foldl_arrive_ne_nil {members : List Member} (some_ : members ≠ []) (ls : List Member) :
    ls.foldl arrive members ≠ [] := by
  induction ls generalizing members with
  | nil => exact some_
  | cons l ls ih => exact ih (arrive_ne_nil l)

theorem foldl_arrive_eq_nil {ls : List Member} {members : List Member}
    (empty : ls.foldl arrive members = []) : members = [] ∧ ls = [] := by
  cases ls with
  | nil => exact ⟨empty, rfl⟩
  | cons l ls => exact absurd empty (foldl_arrive_ne_nil (arrive_ne_nil l) ls)

def Channel.verdict (c : Channel) (isnew : Bool) (newts : Int) (nicks : Text) : Verdict :=
  sjoinVerdict isnew newts c.channelts (sniffsOp nicks) c.haveops

/-- A channel after a message: users and counters apart. -/
def Channel.sjoined (HALFOPS : Bool) (c : Channel) (verdict : Verdict) (mode : Mode)
    (people : List Member) : Channel :=
  { c with
    channelts := verdict.ts
    mode := sjoinMerge verdict mode c.mode
    members := people.foldl arrive (if verdict.keepOur then c.members
      else c.members.map (Member.strip HALFOPS)) }

namespace Ircd

/-! ### Lookups that a chase makes -/

/-- The client that `find_chasing` finds. -/
def chased (s : Ircd) (nick : Text) : Option ClientId :=
  (s.find_client nick).or (s.get_history nick KILLCHASETIMELIMIT)

theorem find_chasing_snd (s : Ircd) (sptr : ClientId) (nick : Text) :
    (s.find_chasing sptr nick).2.map Prod.fst = s.chased nick := by
  unfold find_chasing chased
  cases s.find_client nick with
  | some who => rfl
  | none =>
    cases s.get_history nick KILLCHASETIMELIMIT with
    | some who => rfl
    | none => rfl

/-! ### Steps that only send -/

def Sends (s other : Ircd) : Prop := ∃ events, other = { s with sent := s.sent ++ events }

namespace Sends

variable {s other third : Ircd}

theorem refl (s : Ircd) : Sends s s := ⟨[], by rw [List.append_nil]⟩

theorem send (s : Ircd) (event : Sent) : Sends s (s.send event) := ⟨[event], rfl⟩

theorem sendIf (s : Ircd) (p : Bool) (event : Sent) : Sends s (s.sendIf p event) := by
  unfold Ircd.sendIf
  split
  · exact send s event
  · exact refl s

theorem trans (first : Sends s other) (second : Sends other third) : Sends s third := by
  obtain ⟨events, rfl⟩ := first
  obtain ⟨more, rfl⟩ := second
  exact ⟨events ++ more, by rw [← List.append_assoc]⟩

theorem still (sends : Sends s other) : Still s other := by
  obtain ⟨events, rfl⟩ := sends
  exact .same rfl rfl rfl rfl rfl rfl rfl

theorem chan (sends : Sends s other) : other.chan = s.chan := by
  obtain ⟨events, rfl⟩ := sends
  rfl

theorem client (sends : Sends s other) : other.client = s.client := by
  obtain ⟨events, rfl⟩ := sends
  rfl

theorem find_chasing (s : Ircd) (sptr : ClientId) (nick : Text) :
    Sends s (s.find_chasing sptr nick).1 := by
  unfold Ircd.find_chasing
  split
  · exact refl s
  · split
    · exact refl s
    · exact send ..

end Sends

/-! ### Steps within one channel -/

/-- Only the log, one channel and its memberships differ; the channel keeps its name, its bans and
its invitations. -/
structure Within (chptr : ChannelId) (s other : Ircd) : Prop where
  conf : other.conf = s.conf
  now : other.now = s.now
  clientTable : other.clientTable = s.clientTable
  channelTable : other.channelTable = s.channelTable
  channel : other.channel = s.channel
  whowas : other.whowas = s.whowas
  client : ∀ u, ∃ user, other.client u = { s.client u with user := user } ∧
    user.isSome = (s.client u).user.isSome
  chan : ∀ c, c ≠ chptr → other.chan c = s.chan c
  same : ∃ mode users iusers members channelts, other.chan chptr =
    { s.chan chptr with
      mode := mode, users := users, iusers := iusers, members := members, channelts := channelts }

namespace Within

variable {chptr : ChannelId} {s other third : Ircd}

theorem refl (chptr : ChannelId) (s : Ircd) : Within chptr s s :=
  ⟨rfl, rfl, rfl, rfl, rfl, rfl, fun _ => ⟨_, rfl, rfl⟩, fun _ _ => rfl, ⟨_, _, _, _, _, rfl⟩⟩

theorem trans (first : Within chptr s other) (second : Within chptr other third) :
    Within chptr s third where
  conf := second.conf.trans first.conf
  now := second.now.trans first.now
  clientTable := second.clientTable.trans first.clientTable
  channelTable := second.channelTable.trans first.channelTable
  channel := second.channel.trans first.channel
  whowas := second.whowas.trans first.whowas
  client u := by
    obtain ⟨_, eq, has⟩ := first.client u
    obtain ⟨user, eq', has'⟩ := second.client u
    rw [eq] at eq' has'
    exact ⟨user, eq', has'.trans has⟩
  chan c ne := (second.chan c ne).trans (first.chan c ne)
  same := by
    obtain ⟨_, _, _, _, _, eq⟩ := first.same
    obtain ⟨_, _, _, _, _, eq'⟩ := second.same
    rw [eq] at eq'
    exact ⟨_, _, _, _, _, eq'⟩

theorem sends (chptr : ChannelId) (sends : Sends s other) : Within chptr s other := by
  obtain ⟨events, rfl⟩ := sends
  exact ⟨rfl, rfl, rfl, rfl, rfl, rfl, fun _ => ⟨_, rfl, rfl⟩, fun _ _ => rfl, ⟨_, _, _, _, _, rfl⟩⟩

theorem add_user (chptr : ChannelId) (s : Ircd) (who : ClientId) (flags : Flags) :
    Within chptr s (s.add_user_to_channel chptr who flags) := by
  cases has : (s.client who).user with
  | none =>
    have same : s.add_user_to_channel chptr who flags = s := by
      unfold add_user_to_channel
      rw [has]
    rw [same]
    exact refl ..
  | some user =>
    refine ⟨?_, ?_, ?_, ?_, ?_, ?_, fun u => ?_, fun c ne => ?_, ?_⟩
    case refine_7 =>
      unfold add_user_to_channel
      rw [has]
      by_cases self : u = who
      · rw [self]
        exact ⟨_, setUser_client_self .., by rw [has]; rfl⟩
      · exact ⟨_, setUser_client_of_ne _ _ self, rfl⟩
    case refine_8 => rw [add_user_chan_eq has, if_neg ne]
    case refine_9 => exact ⟨_, _, _, _, _, by rw [add_user_chan_eq has, if_pos rfl]⟩
    all_goals
      unfold add_user_to_channel
      rw [has]
      rfl

theorem name (within : Within chptr s other) (u : ClientId) :
    (other.client u).name = (s.client u).name := by
  obtain ⟨_, eq, _⟩ := within.client u
  rw [eq]

theorem link (within : Within chptr s other) (u : ClientId) :
    (other.client u).link = (s.client u).link := by
  obtain ⟨_, eq, _⟩ := within.client u
  rw [eq]

theorem hasUser (within : Within chptr s other) (u : ClientId) :
    (other.client u).user.isSome = (s.client u).user.isSome := by
  obtain ⟨_, eq, has⟩ := within.client u
  rw [eq]
  exact has

theorem find_client (within : Within chptr s other) (nick : Text) :
    other.find_client nick = s.find_client nick := by
  unfold Ircd.find_client
  rw [within.clientTable]
  simp only [within.name]

theorem chased (within : Within chptr s other) (nick : Text) : other.chased nick = s.chased nick := by
  unfold Ircd.chased Ircd.get_history
  rw [within.find_client, within.whowas, within.now]

end Within

/-! ### Letting users in -/

/-- **A step within one channel that puts users on its member list**, one after the other. -/
structure LetsIn (chptr : ChannelId) (people : List Member) (s other : Ircd) : Prop where
  within : Within chptr s other
  linked : s.Linked → other.Linked
  sound : ∀ {counted : Prop}, s.Sound counted → chptr ∈ s.channel → other.Sound counted
  block : s.Linked → ∃ users iusers, other.chan chptr =
    { s.chan chptr with
      members := people.foldl arrive (s.chan chptr).members, users := users, iusers := iusers }

section LetsIn

variable {s other third : Ircd} {chptr : ChannelId} {people more : List Member}

theorem LetsIn.sends (chptr : ChannelId) (sends : Sends s other) : LetsIn chptr [] s other where
  within := .sends chptr sends
  linked := sends.still.toQuiet.linked
  sound sound _ := sound.quiet sends.still.toQuiet
  block _ := ⟨_, _, by rw [sends.chan]; rfl⟩

theorem LetsIn.trans (first : LetsIn chptr people s other) (second : LetsIn chptr more other third) :
    LetsIn chptr (people ++ more) s third where
  within := first.within.trans second.within
  linked linked := second.linked (first.linked linked)
  sound sound inList :=
    second.sound (first.sound sound inList) (by rw [first.within.channel]; exact inList)
  block linked := by
    obtain ⟨_, _, eq⟩ := first.block linked
    obtain ⟨users, iusers, eq'⟩ := second.block (first.linked linked)
    exact ⟨users, iusers, by rw [eq', eq, List.foldl_append]⟩

theorem isMember_eq (linked : s.Linked) (u : ClientId) (chptr : ChannelId) :
    s.isMember u chptr = true ↔ u ∈ (s.chan chptr).memberIds :=
  isMember_iff.trans (linked.mem_iff u chptr)

theorem sjoinEnter_noUser {u : ClientId} (none_ : (s.client u).user = none) (chptr : ChannelId)
    (fl : Flags)
    (nick name : Text) : Sends s (s.sjoinEnter chptr u fl nick name) := by
  have same : s.add_user_to_channel chptr u fl = s := by
    unfold add_user_to_channel
    rw [none_]
  unfold sjoinEnter
  split
  · exact .refl s
  · rw [same]
    exact .sendIf ..

/-- **Letting one user in.** -/
theorem LetsIn.sjoinEnter {u : ClientId} (has : (s.client u).user.isSome) (chptr : ChannelId)
    (fl : Flags)
    (nick name : Text) : LetsIn chptr [⟨u, fl⟩] s (s.sjoinEnter chptr u fl nick name) := by
  obtain ⟨user, has⟩ := Option.isSome_iff_exists.mp has
  unfold Ircd.sjoinEnter
  by_cases on : s.isMember u chptr = true
  · rw [if_pos on]
    refine ⟨.refl .., id, fun sound _ => sound, fun linked =>
      ⟨(s.chan chptr).users, (s.chan chptr).iusers, ?_⟩⟩
    have there : u ∈ (s.chan chptr).members.map Member.cptr := (isMember_eq linked u chptr).mp on
    rw [List.foldl_cons, List.foldl_nil, arrive, if_pos there]
  · have off : chptr ∉ (s.client u).channels := fun mem => on (isMember_iff.mpr mem)
    have told := Sends.sendIf (s.add_user_to_channel chptr u fl) (!(s.client u).isStealth)
      (.channel chptr u (line [":", nick, " JOIN :", name]))
    rw [if_neg on]
    refine ⟨(Within.add_user ..).trans (.sends _ told), fun linked => ?_, fun sound inList => ?_,
      fun linked => ⟨(s.chan chptr).users + 1,
        if (s.client u).isStealth then (s.chan chptr).iusers + 1 else (s.chan chptr).iusers, ?_⟩⟩
    · exact told.still.toQuiet.linked (linked.add_user has off)
    · have added : (s.add_user_to_channel chptr u fl).Sound _ :=
        ⟨sound.enrolled.add_user has off, sound.listed.add_user inList, sound.named.add_user⟩
      exact added.quiet told.still.toQuiet
    · have notThere : u ∉ (s.chan chptr).members.map Member.cptr := fun mem =>
        on ((isMember_eq linked u chptr).mpr mem)
      rw [told.chan, add_user_chan_eq has, if_pos rfl, List.foldl_cons, List.foldl_nil, arrive,
        if_neg notThere]

end LetsIn

/-! ### The list of nicks -/

/-- The user that one word of the list brings. -/
def arrival (s : Ircd) (cptr : ClientId) (keepNew : Bool) (s0 : Text) : Option Member :=
  ((s.chased (sjoinNick s.conf.HALFOPS s0).2).filter fun u =>
      (s.client u).link = some cptr ∧ (s.client u).user.isSome).map
    fun u => ⟨u, sjoinStatus keepNew (sjoinNick s.conf.HALFOPS s0).1⟩

/-- The users that a list of nicks brings. -/
def arrivals (s : Ircd) (cptr : ClientId) (keepNew : Bool) (nicks : Text) : List Member :=
  (strtoken ' ' nicks).filterMap (s.arrival cptr keepNew)

theorem Within.arrival {chptr : ChannelId} {s other : Ircd} (within : Within chptr s other)
    (cptr : ClientId) (keepNew : Bool) (s0 : Text) :
    other.arrival cptr keepNew s0 = s.arrival cptr keepNew s0 := by
  unfold Ircd.arrival
  rw [within.chased, within.conf]
  simp only [within.link, within.hasUser]

/-! ### The modes and the statuses -/

section Statuses

variable {s : Ircd} {chptr : ChannelId}

theorem sends_statusParams (sptr : ClientId) (chptr : ChannelId) (sender : Text) (start : ModeLine)
    (sign : Char) (nick : Text) (flags : Flags) (acc : Ircd × ModeLine) :
    Sends acc.1 (statusParams sptr chptr sender start sign nick flags acc).1 := by
  unfold statusParams
  generalize statusLetters _ = items
  induction items generalizing acc with
  | nil => exact .refl _
  | cons f items ih =>
    refine Sends.trans ?_ (ih _)
    beta_reduce
    split
    · unfold statusParam
      simp only []
      split
      · exact .send ..
      · exact .refl _
    · exact .refl _

/-- The user that a nick stands for, when the message may speak for it. -/
def bringable (s : Ircd) (cptr : ClientId) (nick : Text) : Option ClientId :=
  (s.chased nick).filter fun u => (s.client u).link = some cptr

theorem sjoinWho_none {cptr : ClientId} (sptr : ClientId) (chptr : ChannelId) (source name : Text)
    (keepNew : Bool) {l : SjoinLoop} {s0 : Text}
    (nobody : l.s.bringable cptr (sjoinNick l.s.conf.HALFOPS s0).2 = none) :
    sjoinWho cptr sptr chptr source name keepNew l s0 =
      { l with s := (l.s.find_chasing sptr (sjoinNick l.s.conf.HALFOPS s0).2).1 } := by
  have client := (Sends.find_chasing l.s sptr (sjoinNick l.s.conf.HALFOPS s0).2).client
  unfold bringable at nobody
  rw [← l.s.find_chasing_snd sptr (sjoinNick l.s.conf.HALFOPS s0).2] at nobody
  unfold sjoinWho
  simp only []
  generalize l.s.find_chasing sptr (sjoinNick l.s.conf.HALFOPS s0).2 = chase at client nobody ⊢
  obtain ⟨s, _ | ⟨u, chasing⟩⟩ := chase
  · rfl
  · simp only [] at client ⊢
    rw [Option.map_some, Option.filter_some, ← client] at nobody
    rw [if_pos]
    intro link
    simp [link] at nobody

theorem sjoinWho_some {cptr : ClientId} (sptr : ClientId) (chptr : ChannelId) (source name : Text)
    (keepNew : Bool) {l : SjoinLoop} {s0 : Text} {u : ClientId}
    (brings : l.s.bringable cptr (sjoinNick l.s.conf.HALFOPS s0).2 = some u) :
    sjoinWho cptr sptr chptr source name keepNew l s0 =
      let fl := sjoinStatus keepNew (sjoinNick l.s.conf.HALFOPS s0).1
      let nick := (sjoinNick l.s.conf.HALFOPS s0).2
      let told := statusParams sptr chptr source .plus '+' nick fl
        ((l.s.find_chasing sptr nick).1.sjoinEnter chptr u fl nick name, l.b)
      ⟨told.1, told.2, l.words ++ (if keepNew then s0 else nick) ++ [' '], l.people + 1⟩ := by
  have client := (Sends.find_chasing l.s sptr (sjoinNick l.s.conf.HALFOPS s0).2).client
  unfold bringable at brings
  rw [← l.s.find_chasing_snd sptr (sjoinNick l.s.conf.HALFOPS s0).2] at brings
  unfold sjoinWho
  simp only []
  generalize l.s.find_chasing sptr (sjoinNick l.s.conf.HALFOPS s0).2 = chase at client brings ⊢
  obtain ⟨s, _ | ⟨v, chasing⟩⟩ := chase
  · exact absurd brings (by simp)
  · simp only [] at client ⊢
    rw [Option.map_some, Option.filter_eq_some_iff, ← client] at brings
    obtain ⟨same, link⟩ := brings
    have link := of_decide_eq_true link
    cases Option.some.inj same
    rw [if_neg (not_not.mpr link)]

theorem arrival_eq (s : Ircd) (cptr : ClientId) (keepNew : Bool) (s0 : Text) :
    s.arrival cptr keepNew s0 =
      ((s.bringable cptr (sjoinNick s.conf.HALFOPS s0).2).filter fun u => (s.client u).user.isSome).map
        fun u => ⟨u, sjoinStatus keepNew (sjoinNick s.conf.HALFOPS s0).1⟩ := by
  unfold arrival bringable
  cases s.chased (sjoinNick s.conf.HALFOPS s0).2 with
  | none => rfl
  | some u => by_cases link : (s.client u).link = some cptr <;> simp [Option.filter_some, link]

/-- **The body of the loop over the nicks.** -/
theorem LetsIn.sjoinWho (cptr sptr : ClientId) (chptr : ChannelId) (source name : Text)
    (keepNew : Bool) (l : SjoinLoop) (s0 : Text) :
    LetsIn chptr (l.s.arrival cptr keepNew s0).toList l.s
      (sjoinWho cptr sptr chptr source name keepNew l s0).s := by
  have sent := Sends.find_chasing l.s sptr (sjoinNick l.s.conf.HALFOPS s0).2
  rw [arrival_eq]
  cases who : l.s.bringable cptr (sjoinNick l.s.conf.HALFOPS s0).2 with
  | none =>
    rw [sjoinWho_none sptr chptr source name keepNew who]
    exact .sends chptr sent
  | some u =>
    rw [sjoinWho_some sptr chptr source name keepNew who]
    simp only []
    generalize sjoinStatus keepNew (sjoinNick l.s.conf.HALFOPS s0).1 = fl
    generalize (sjoinNick l.s.conf.HALFOPS s0).2 = nick at sent who ⊢
    have told := sends_statusParams sptr chptr source .plus '+' nick fl
      ((l.s.find_chasing sptr nick).1.sjoinEnter chptr u fl nick name, l.b)
    rw [Option.filter_some, ← sent.client]
    cases has : ((l.s.find_chasing sptr nick).1.client u).user with
    | none =>
      have quietly := sjoinEnter_noUser has chptr fl nick name
      exact .sends chptr (sent.trans (quietly.trans told))
    | some user =>
      have entered := LetsIn.sjoinEnter (by rw [has]; rfl) chptr fl nick name
      exact (LetsIn.sends chptr sent).trans (entered.trans (.sends chptr told))

theorem LetsIn.sjoinLoop (cptr sptr : ClientId) (chptr : ChannelId) (source name : Text)
    (keepNew : Bool) (words : List Text) (l : SjoinLoop) :
    LetsIn chptr (words.filterMap (l.s.arrival cptr keepNew)) l.s
      (words.foldl (Ircd.sjoinWho cptr sptr chptr source name keepNew) l).s := by
  induction words generalizing l with
  | nil => exact .sends chptr (.refl l.s)
  | cons s0 words ih =>
    have first := LetsIn.sjoinWho cptr sptr chptr source name keepNew l s0
    have rest := ih (Ircd.sjoinWho cptr sptr chptr source name keepNew l s0)
    have same : (Ircd.sjoinWho cptr sptr chptr source name keepNew l s0).s.arrival cptr keepNew =
        l.s.arrival cptr keepNew := funext (first.within.arrival cptr keepNew)
    rw [same] at rest
    have both := first.trans rest
    rw [List.foldl_cons, List.filterMap_cons]
    cases who : l.s.arrival cptr keepNew s0 with
    | none => rwa [who] at both
    | some m => rwa [who] at both

/-- **The list of nicks.** -/
theorem LetsIn.sjoinPeople (s : Ircd) (cptr sptr : ClientId) (chptr : ChannelId)
    (source name modes : Text) (verdict : Verdict) (nicks : Text) :
    LetsIn chptr (s.arrivals cptr verdict.keepNew nicks) s
      (s.sjoinPeople cptr sptr chptr source name modes verdict nicks) := by
  have loop := LetsIn.sjoinLoop cptr sptr chptr source name verdict.keepNew (strtoken ' ' nicks)
    ⟨s, .plus, [], 0⟩
  unfold Ircd.sjoinPeople
  simp only []
  generalize (strtoken ' ' nicks).foldl (Ircd.sjoinWho cptr sptr chptr source name verdict.keepNew)
    ⟨s, .plus, [], 0⟩ = l at loop ⊢
  have told : ∀ (event : Sent) p, Sends l.s
      ((if l.b.pargs ≠ 0 then l.s.sjoin_sendit sptr chptr source l.b else l.s).sendIf p event) := by
    intro event p
    refine Sends.trans ?_ (.sendIf ..)
    split
    · exact .send ..
    · exact .refl _
  have whole := fun event p => loop.trans (.sends chptr (told event p))
  simp only [List.append_nil] at whole
  exact whole _ _

theorem sends_stripLoop (sptr : ClientId) (chptr : ChannelId) (source : Text)
    (name : ClientId → Text) (members : List Member) (acc : Ircd × ModeLine) :
    Sends acc.1 (members.foldl (fun acc l =>
      statusParams sptr chptr source .empty '-' (name l.cptr) l.flags acc) acc).1 := by
  induction members generalizing acc with
  | nil => exact .refl _
  | cons l members ih => exact (sends_statusParams ..).trans (ih _)

theorem strip_ids (HALFOPS : Bool) (members : List Member) :
    (members.map (Member.strip HALFOPS)).map Member.cptr = members.map Member.cptr := by
  rw [List.map_map]
  rfl

theorem within_setChan {c : Channel} (chname : c.chname = (s.chan chptr).chname)
    (invites : c.invites = (s.chan chptr).invites) (banlist : c.banlist = (s.chan chptr).banlist)
    (num_bed : c.num_bed = (s.chan chptr).num_bed) : Within chptr s (s.setChan chptr c) := by
  refine ⟨rfl, rfl, rfl, rfl, rfl, rfl, fun _ => ⟨_, rfl, rfl⟩, fun d ne =>
    setChan_chan_of_ne s c ne, c.mode, c.users, c.iusers, c.members, c.channelts, ?_⟩
  rw [setChan_chan_self]
  simp only []
  rw [← chname, ← invites, ← banlist, ← num_bed]

theorem sjoinStrip_spec (s : Ircd) (sptr : ClientId) (chptr : ChannelId) (source : Text)
    (oldts newts : Int) (b : ModeLine) :
    Within chptr s (s.sjoinStrip sptr chptr source oldts newts b).1 ∧
      StillBut chptr s (s.sjoinStrip sptr chptr source oldts newts b).1 ∧
      (s.sjoinStrip sptr chptr source oldts newts b).1.chan chptr =
        { s.chan chptr with members := (s.chan chptr).members.map (Member.strip s.conf.HALFOPS) } := by
  have loop := sends_stripLoop sptr chptr source (fun u => (s.client u).name)
    (s.chan chptr).members (s, { b with what := none })
  unfold sjoinStrip
  simp only []
  generalize (s.chan chptr).members.foldl (fun acc l => statusParams sptr chptr source .empty '-'
    (s.client l.cptr).name l.flags acc) (s, { b with what := none }) = told at loop ⊢
  simp only [] at loop
  rw [← loop.chan]
  have written : Within chptr told.1 (told.1.setChan chptr
      { told.1.chan chptr with members := (told.1.chan chptr).members.map (Member.strip s.conf.HALFOPS) }) :=
    within_setChan rfl rfl rfl rfl
  have quiet : StillBut chptr told.1 (told.1.setChan chptr
      { told.1.chan chptr with members := (told.1.chan chptr).members.map (Member.strip s.conf.HALFOPS) }) :=
    ⟨.setChan (strip_ids _ _) rfl rfl rfl, fun c ne =>
      congrArg Channel.mode (setChan_chan_of_ne told.1 _ ne)⟩
  refine ⟨(Within.sends _ loop).trans (written.trans (.sends _ (.send ..))),
    (loop.still.but _).trans (quiet.trans ((Still.send ..).but _)), ?_⟩
  rw [send_chan, setChan_chan_self]

/-- **The modes and the statuses that are left.** -/
theorem sjoinMode_spec (s : Ircd) (sptr : ClientId) (chptr : ChannelId) (source : Text)
    (oldts newts : Int) (verdict : Verdict) (mode : Mode) :
    Within chptr s (s.sjoinMode sptr chptr source oldts newts verdict mode) ∧
      StillBut chptr s (s.sjoinMode sptr chptr source oldts newts verdict mode) ∧
      (s.sjoinMode sptr chptr source oldts newts verdict mode).chan chptr =
        { s.chan chptr with
          mode := sjoinMerge verdict mode (s.chan chptr).mode
          members := if verdict.keepOur then (s.chan chptr).members
            else (s.chan chptr).members.map (Member.strip s.conf.HALFOPS) } := by
  unfold sjoinMode
  simp only []
  generalize sjoinDelta (sjoinMerge verdict mode (s.chan chptr).mode) (s.chan chptr).mode = b
  generalize sjoinMerge verdict mode (s.chan chptr).mode = merged
  have written : Within chptr s (s.setMode chptr merged) := within_setChan rfl rfl rfl rfl
  have block : (s.setMode chptr merged).chan chptr = { s.chan chptr with mode := merged } :=
    setChan_chan_self ..
  have told : ∀ acc : Ircd × ModeLine, Sends acc.1
      (if acc.2.mbuf ≠ [] then acc.1.sjoin_sendit sptr chptr source acc.2 else acc.1) := by
    intro acc
    split
    · exact .send ..
    · exact .refl _
  cases verdict.keepOur with
  | true =>
    simp only [if_true]
    have told := told (s.setMode chptr merged, b)
    exact ⟨written.trans (.sends _ told), (StillBut.setMode ..).trans (told.still.but _),
      by rw [told.chan, block]⟩
  | false =>
    simp only [Bool.false_eq_true, if_false]
    obtain ⟨within, still, stripped⟩ :=
      sjoinStrip_spec (s.setMode chptr merged) sptr chptr source oldts newts b
    have told := told ((s.setMode chptr merged).sjoinStrip sptr chptr source oldts newts b)
    refine ⟨(written.trans within).trans (.sends _ told),
      ((StillBut.setMode ..).trans still).trans (told.still.but _), ?_⟩
    rw [told.chan, stripped, block]
    rfl

end Statuses

/-! ### The whole message -/

section Message

variable {s : Ircd}

theorem within_setChannelts (s : Ircd) (chptr : ChannelId) (ts : Int) :
    Within chptr s (s.setChannelts chptr ts) := within_setChan rfl rfl rfl rfl

theorem sends_sjoinZero (s : Ircd) (sptr : ClientId) (chptr : ChannelId) (name : Text)
    (isnew : Bool) (newts oldts : Int) :
    Sends s (s.sjoinZero sptr chptr name isnew newts oldts) := by
  unfold sjoinZero
  simp only []
  split
  · exact (Sends.send ..).trans (.send ..)
  · exact .refl s

/-- **A message about a channel that is there.** -/
theorem sjoinOn_spec (s : Ircd) (cptr sptr : ClientId) (chptr : ChannelId) (isnew : Bool)
    (source name modes : Text) (newts : Int) (mode : Mode) (nicks : Text) :
    let verdict := (s.chan chptr).verdict isnew newts nicks
    let after := s.sjoinOn cptr sptr chptr isnew source name modes newts mode nicks
    Within chptr s after ∧
      (∀ {counted : Prop}, s.Sound counted → chptr ∈ s.channel → after.Sound counted) ∧
      (s.Linked → after.Linked ∧ ∃ users iusers, after.chan chptr =
        { (s.chan chptr).sjoined s.conf.HALFOPS verdict mode (s.arrivals cptr verdict.keepNew nicks) with
          users := users, iusers := iusers }) := by
  intro verdict after
  have zero := sends_sjoinZero s sptr chptr name isnew newts (s.chan chptr).channelts
  have unfolded : after =
      (((s.sjoinZero sptr chptr name isnew newts (s.chan chptr).channelts).setChannelts chptr
        verdict.ts).sjoinMode sptr chptr source (s.chan chptr).channelts newts verdict
          mode).sjoinPeople cptr sptr chptr source name modes verdict nicks := rfl
  rw [unfolded]
  generalize s.sjoinZero sptr chptr name isnew newts (s.chan chptr).channelts = s₁ at zero ⊢
  have stamped := within_setChannelts s₁ chptr verdict.ts
  have stampedBlock : (s₁.setChannelts chptr verdict.ts).chan chptr =
      { s₁.chan chptr with channelts := verdict.ts } := setChan_chan_self ..
  have stampedStill := StillBut.setChannelts s₁ chptr verdict.ts
  generalize s₁.setChannelts chptr verdict.ts = s₂ at stamped stampedBlock stampedStill ⊢
  obtain ⟨moded, modedStill, modedBlock⟩ :=
    sjoinMode_spec s₂ sptr chptr source (s.chan chptr).channelts newts verdict mode
  generalize s₂.sjoinMode sptr chptr source (s.chan chptr).channelts newts verdict mode = s₃
    at moded modedStill modedBlock ⊢
  have peopled := LetsIn.sjoinPeople s₃ cptr sptr chptr source name modes verdict nicks
  have before : Within chptr s s₃ := (Within.sends _ zero).trans (stamped.trans moded)
  have quiet : Quiet s s₃ :=
    zero.still.toQuiet.trans (stampedStill.toQuiet.trans modedStill.toQuiet)
  refine ⟨before.trans peopled.within, fun sound inList => ?_, fun linked => ?_⟩
  · exact peopled.sound (sound.quiet quiet) (by rw [before.channel]; exact inList)
  · obtain ⟨users, iusers, eq⟩ := peopled.block (quiet.linked linked)
    have same : s₃.arrivals cptr verdict.keepNew nicks = s.arrivals cptr verdict.keepNew nicks := by
      unfold arrivals
      rw [funext (before.arrival cptr verdict.keepNew)]
    refine ⟨peopled.linked (quiet.linked linked), users, iusers, ?_⟩
    have conf : s₂.conf = s.conf := stamped.conf.trans (Within.sends chptr zero).conf
    rw [eq, same, modedBlock, conf, stampedBlock, zero.chan]
    rfl

/-- **NJOIN and SJOIN keep the membership invariants.** -/
theorem Sound.m_sjoin {counted : Prop} (sound : s.Sound counted) (cptr sptr : ClientId)
    (parv : List Text) : (s.m_sjoin cptr sptr parv).Sound counted := by
  unfold Ircd.m_sjoin
  split
  · exact sound
  · obtain ⟨made, inList⟩ := sound.get_channel_create sptr (parv.getD 2 [])
    exact (sjoinOn_spec ..).2.1 made inList

theorem not_isClient_of_sjoinRead {x : Client} {parv : List Text} {read : Mode × List Text}
    (reads : sjoinRead x parv = some read) : x.isClient = false := by
  unfold sjoinRead at reads
  simp only [] at reads
  split at reads
  · exact absurd reads (by simp)
  · rename_i accepted
    simp only [Bool.or_eq_true, not_or, Bool.not_eq_true] at accepted
    exact accepted.1

theorem cutName_of_not_isClient {u : ClientId} (noClient : (s.client u).isClient = false)
    (name : Text) : s.cutName u name = name := by
  unfold cutName Client.myClient
  rw [noClient, Bool.and_false, Bool.false_and]
  rfl

/-- Our modes are kept unless the message is older and starts with an operator. -/
theorem keepOur_iff (newts oldts : Int) (doesop haveops : Bool) :
    (sjoinVerdict false newts oldts doesop haveops).keepOur = true ↔
      newts = 0 ∨ oldts = 0 ∨ oldts ≤ newts ∨ doesop = false := by
  unfold sjoinVerdict
  rw [if_neg Bool.false_ne_true]
  split
  · simp only [true_iff]
    omega
  · split
    · simp only [true_iff]
      omega
    · split
      · rename_i nonzero _ older
        rw [Bool.not_eq_true']
        refine ⟨fun opless => .inr (.inr (.inr opless)), ?_⟩
        rintro (zero | zero | newer | opless)
        · exact absurd (.inl zero) nonzero
        · exact absurd (.inr zero) nonzero
        · exact absurd older (Int.not_lt.mpr newer)
        · exact opless
      · simp only [true_iff]
        omega

/-- The bits that keep a channel survive every verdict that keeps our modes. -/
theorem keeps_sjoinMerge {conf : Conf} {verdict : Verdict} {mode oldmode : Mode}
    (kept : keeps conf mode.mode = true ∧ verdict.keepNew = true ∨
      keeps conf oldmode.mode = true ∧ (verdict.keepOur = true ∨ verdict.keepNew = false)) :
    keeps conf (sjoinMerge verdict mode oldmode).mode = true := by
  unfold sjoinMerge
  cases keepNew : verdict.keepNew with
  | false =>
    rcases kept with ⟨_, new⟩ | ⟨old, _⟩
    · exact absurd (keepNew.symm.trans new) Bool.false_ne_true
    · exact old
  | true => cases keepOur : verdict.keepOur with
    | true =>
      simp only [Bool.not_true, Bool.false_eq_true, if_false, if_true]
      rw [keeps_or, Bool.or_eq_true]
      exact kept.imp And.left And.left
    | false =>
      rcases kept with ⟨new, _⟩ | ⟨_, our | new⟩
      · exact new
      · exact absurd (keepOur.symm.trans our) Bool.false_ne_true
      · exact absurd (new.symm.trans keepNew) Bool.false_ne_true

/-- **When a message leaves no ghost**: it brings somebody, or brings modes under which a channel
stays, or finds a channel with members, or finds one that it does not override. -/
def SjoinInhabits (s : Ircd) (cptr sptr : ClientId) (parv : List Text) : Prop :=
  ∀ mode args, sjoinRead (s.client sptr) parv = some (mode, args) →
    s.arrivals cptr true (args.headD []) ≠ [] ∨
      keeps s.conf mode.mode = true ∧ s.hash_find_channel (parv.getD 2 []) = none ∨
      ∃ chptr, s.hash_find_channel (parv.getD 2 []) = some chptr ∧
        ((s.chan chptr).members ≠ [] ∨ keeps s.conf mode.mode = true ∨
          atol (parv.getD 1 []) = 0 ∨ (s.chan chptr).channelts = 0 ∨
          (s.chan chptr).channelts ≤ atol (parv.getD 1 []) ∨ sniffsOp (args.headD []) = false)

theorem sjoined_kept {conf : Conf} {HALFOPS : Bool} {c : Channel} {verdict : Verdict} {mode : Mode}
    (people : List Member) (users iusers : Int)
    (kept : keeps conf (sjoinMerge verdict mode c.mode).mode = true) :
    Channel.kept conf { c.sjoined HALFOPS verdict mode people with users := users, iusers := iusers } = true :=
  kept

theorem sjoined_members_ne_nil {HALFOPS : Bool} {c : Channel} {verdict : Verdict} (mode : Mode)
    {people : List Member} (some_ : c.members ≠ [] ∨ people ≠ []) :
    (c.sjoined HALFOPS verdict mode people).members ≠ [] := by
  intro empty
  obtain ⟨members, none_⟩ := foldl_arrive_eq_nil empty
  rcases some_ with some_ | some_
  · refine some_ ?_
    split at members
    · exact members
    · exact List.map_eq_nil_iff.mp members
  · exact some_ none_

theorem arrivals_ne_nil {cptr : ClientId} {nicks : Text} (keepNew : Bool)
    (some_ : s.arrivals cptr true nicks ≠ []) : s.arrivals cptr keepNew nicks ≠ [] := by
  intro none_
  refine some_ (List.filterMap_eq_nil_iff.mpr fun s0 member => ?_)
  have nobody := List.filterMap_eq_nil_iff.mp none_ s0 member
  unfold arrival at nobody ⊢
  rw [Option.map_eq_none_iff] at nobody ⊢
  exact nobody

theorem m_sjoin_found {sptr : ClientId} {parv : List Text} {mode : Mode} {args : List Text}
    (reads : sjoinRead (s.client sptr) parv = some (mode, args)) {chptr : ChannelId}
    (found : s.hash_find_channel (parv.getD 2 []) = some chptr) (cptr : ClientId) :
    s.m_sjoin cptr sptr parv = s.sjoinOn cptr sptr chptr false (parv.getD 0 []) (parv.getD 2 [])
      (parv.getD 3 []) (atol (parv.getD 1 [])) mode (args.headD []) := by
  have made : s.get_channel_create sptr (parv.getD 2 []) = (s, chptr) := by
    unfold get_channel_create
    rw [cutName_of_not_isClient (not_isClient_of_sjoinRead reads), found]
  have there : s.channelExists (parv.getD 2 []) = true := by
    unfold channelExists
    rw [found]
    rfl
  unfold Ircd.m_sjoin
  rw [reads]
  simp only [made, there]
  rfl

theorem m_sjoin_made {sptr : ClientId} {parv : List Text} {mode : Mode} {args : List Text}
    (reads : sjoinRead (s.client sptr) parv = some (mode, args))
    (notFound : s.hash_find_channel (parv.getD 2 []) = none) (cptr : ClientId) :
    s.m_sjoin cptr sptr parv = (s.createChannel (parv.getD 2 [])).1.sjoinOn cptr sptr s.nextChan true
      (parv.getD 0 []) (parv.getD 2 []) (parv.getD 3 []) (atol (parv.getD 1 [])) mode
      (args.headD []) := by
  have made : s.get_channel_create sptr (parv.getD 2 []) = s.createChannel (parv.getD 2 []) := by
    unfold get_channel_create
    rw [cutName_of_not_isClient (not_isClient_of_sjoinRead reads), notFound]
  have notThere : s.channelExists (parv.getD 2 []) = false := by
    unfold channelExists
    rw [notFound]
    rfl
  unfold Ircd.m_sjoin
  rw [reads]
  simp only [made, notThere]
  rfl

/-- Acting on one channel leaves no ghost when that one is inhabited afterwards. -/
theorem NoGhostBut.sjoinOn {chptr : ChannelId} (others : s.NoGhostBut chptr) (sound : s.Sound False)
    (cptr sptr : ClientId) (isnew : Bool) (source name modes : Text)
    (newts : Int) (mode : Mode) (nicks : Text)
    (inhabited : (s.chan chptr).members ≠ [] ∨ s.arrivals cptr true nicks ≠ [] ∨
      keeps s.conf (sjoinMerge ((s.chan chptr).verdict isnew newts nicks) mode
        (s.chan chptr).mode).mode = true) :
    (s.sjoinOn cptr sptr chptr isnew source name modes newts mode nicks).NoGhost := by
  obtain ⟨within, _, rest⟩ :=
    sjoinOn_spec s cptr sptr chptr isnew source name modes newts mode nicks
  obtain ⟨_, users, iusers, eq⟩ := rest sound.enrolled.incident
  intro c member
  rw [within.channel] at member
  by_cases self : c = chptr
  · rw [self]
    unfold Inhabited
    rw [eq, within.conf]
    rcases inhabited with some_ | some_ | kept
    · exact .inl (sjoined_members_ne_nil mode (.inl some_))
    · exact .inl (sjoined_members_ne_nil mode (.inr (arrivals_ne_nil _ some_)))
    · exact .inr (sjoined_kept _ users iusers kept)
  · exact (others c member self).congr (by rw [within.chan c self]) (by rw [within.chan c self])
      within.conf

theorem createChannel_arrivals (name : Text) (cptr : ClientId) (keepNew : Bool) (nicks : Text) :
    (s.createChannel name).1.arrivals cptr keepNew nicks = s.arrivals cptr keepNew nicks := rfl

/-- **NJOIN and SJOIN leave no ghost** when they inhabit what they open or override. -/
theorem NoGhost.m_sjoin (sound : s.Sound False) (noGhost : s.NoGhost) {cptr sptr : ClientId}
    {parv : List Text} (inhabits : s.SjoinInhabits cptr sptr parv) :
    (s.m_sjoin cptr sptr parv).NoGhost := by
  cases reads : sjoinRead (s.client sptr) parv with
  | none =>
    unfold Ircd.m_sjoin
    rw [reads]
    exact noGhost
  | some read =>
    obtain ⟨mode, args⟩ := read
    have inhabits := inhabits mode args reads
    cases found : s.hash_find_channel (parv.getD 2 []) with
    | none =>
      rw [m_sjoin_made reads found]
      have made : (s.createChannel (parv.getD 2 [])).1.Sound False := sound.createChannel _
      have others : (s.createChannel (parv.getD 2 [])).1.NoGhostBut s.nextChan := by
        intro c member ne
        rcases List.mem_cons.mp member with same | old
        · exact absurd same ne
        · have same := createChannel_chan s (parv.getD 2 []) c
          rw [if_neg ne] at same
          exact (noGhost c old).congr (by rw [same]) (by rw [same]) rfl
      refine others.sjoinOn made _ _ _ _ _ _ _ _ _ (.inr ?_)
      rw [createChannel_arrivals]
      rcases inhabits with some_ | ⟨kept, _⟩ | ⟨chptr, there, _⟩
      · exact .inl some_
      · exact .inr (keeps_sjoinMerge (.inl ⟨kept, rfl⟩))
      · exact absurd (found.symm.trans there) (by simp)
    | some chptr =>
      have inList : chptr ∈ s.channel :=
        ((sound.listed.table.mem _ _).mp (Lib.ChainTable.find_some found).1).1
      rw [m_sjoin_found reads found]
      refine NoGhostBut.sjoinOn (fun c member _ => noGhost c member) sound _ _ _ _ _ _ _ _ _ ?_
      by_cases some_ : (s.chan chptr).members ≠ []
      · exact .inl some_
      · refine .inr ?_
        have empty : (s.chan chptr).members = [] := not_not.mp some_
        have opless : (s.chan chptr).haveops = false := by
          unfold Channel.haveops
          rw [empty]
          rfl
        have kept : keeps s.conf (s.chan chptr).mode.mode = true :=
          (noGhost chptr inList).resolve_left some_
        unfold Channel.verdict
        rw [opless]
        rcases inhabits with arrive | ⟨_, notThere⟩ | ⟨other, there, some' | new | ours⟩
        · exact .inl arrive
        · exact absurd (found.symm.trans notThere) (by simp)
        · rw [← Option.some.inj (found.symm.trans there)] at some'
          exact absurd some' some_
        · refine .inr (keeps_sjoinMerge (.inl ⟨new, ?_⟩))
          unfold sjoinVerdict
          rw [if_neg Bool.false_ne_true]
          repeat' split
          all_goals rfl
        · rw [← Option.some.inj (found.symm.trans there)] at ours
          exact .inr (keeps_sjoinMerge (.inr ⟨kept, .inl ((keepOur_iff ..).mpr ours)⟩))

end Message

end Ircd

end PtlinkIrcd
