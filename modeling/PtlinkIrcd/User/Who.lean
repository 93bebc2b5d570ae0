/-
**WHO.**

`m_who` of `m_who.c`: the members of a channel, the client of a nick, or all clients that a mask matches.

* `WhoView` — what WHO and WHOIS read besides the state.
* `do_who` — the line about a client; `whoChannel`, `whoNick`, `whoScan` — the three searches.
* `m_who` — the command.
* `Ircd.without` — the state without a user.
* `whoChannel_without`, `whoScan_without` — the members of a channel and the clients that a mask matches are
  the same without a stealth user.
* `m_who_without_iff` — **WHO says the same without a stealth user unless it is asked of the nick.**
-/

import PtlinkIrcd.Channel.NamesList
import PtlinkIrcd.Client.HuntServer

namespace PtlinkIrcd

def RPL_ENDOFWHO : Nat := 315
def RPL_WHOREPLY : Nat := 352

/-! ### What is read -/

/-- `name` and `passwd` of a virtual link. -/
structure VLink where
  name : Text
  passwd : Text

/-- What is read of a client besides its block in the state. -/
structure WhoClient where
  away : Option Text
  info : Text
  hopcount : Int
  vlink : Option VLink
  last : Int
  firsttime : Int

/-- What the commands read besides the state. -/
structure WhoView where
  of : ClientId → WhoClient
  is_silenced : ClientId → ClientId → Bool
  HideServerOnWhois : Bool
  HideServicesServer : Bool
  WhoisExtension : Bool
  /-- `last_used` of `m_whois`. -/
  last_used : Int

def Client.isHideOper (x : Client) : Bool := x.umodes.has UMODE_HIDEOPER

/-- `user->server`; that of `UnknownUser` without a user. -/
def Client.userServer (x : Client) : Text := (x.user.map User.server).getD "<Unknown>".toList

namespace Ircd

section

variable (s : Ircd) (view : WhoView) (sptr : ClientId)

/-! ### One client -/

/-- The status of a client: away, an operator, and the mark on the channel. -/
def whoStatus (acptr : ClientId) (lp : Option Member) : Text :=
  (if (view.of acptr).away.isSome then 'G' else 'H') ::
    (if (s.client acptr).isAnOper && (!(s.client acptr).isHideOper || (s.client sptr).isOper) then ['*'] else []) ++
      -- `do_who` asks for a name HALFOP, which no build defines.
      (lp.map fun lp => statusMark false false lp.flags).getD []

def do_who (acptr : ClientId) (repchan : Option ChannelId) (lp : Option Member) : Sent :=
  let lp := lp.or (repchan.bind fun repchan => find_user_link (s.chan repchan).members acptr)
  let x := s.client acptr
  .reply sptr RPL_WHOREPLY
    [(repchan.map fun repchan => (s.chan repchan).chname).getD ['*'], x.username, x.host, x.userServer, x.name,
      s.whoStatus view sptr acptr lp, (toString (view.of acptr).hopcount).toList, (view.of acptr).info]

/-! ### The three searches -/

/-- The members of a channel; `oper` is the flag that selects operators. -/
def whoChannel (oper : Bool) (channame : Text) : List Sent :=
  match s.hash_find_channel channame with
  | none => []
  | some chptr =>
    let member := (s.client sptr).isAnOper || s.isMember sptr chptr
    if member || !(s.chan chptr).mode.mode.has MODE_SECRET then
      ((s.chan chptr).members.filter fun lp =>
        !(oper && !(s.client lp.cptr).isAnOper) && !((s.client lp.cptr).isInvisible && !member) &&
          !((s.client lp.cptr).isStealth && lp.cptr ≠ sptr)).map fun lp =>
        s.do_who view sptr lp.cptr (some chptr) (some lp)
    else []

/-- Whether a channel of a client may be told of: the first one that may is. -/
def whoVisible (member : ChannelId → Bool) (acptr : ClientId) (chptr : ChannelId) : Bool :=
  let isinvis := (s.client acptr).isInvisible
  !(isinvis && !member chptr || (s.client acptr).isStealth && acptr ≠ sptr) &&
    (member chptr || !isinvis && (s.chan chptr).isPub)

def whoNick (acptr : ClientId) : Sent :=
  let member := fun chptr => (s.client sptr).isAnOper || s.isMember sptr chptr
  s.do_who view sptr acptr ((s.client acptr).channels.find? (s.whoVisible sptr member acptr)) none

/-- Whether a client is shown to whoever asks with a mask, and on which channel. -/
def showPerson (acptr : ClientId) : Option (Option ChannelId) :=
  let x := s.client acptr
  let stealth := x.isStealth && acptr ≠ sptr
  if (s.client sptr).isAnOper && !stealth then some none
  else
    match x.channels.find? (s.whoVisible sptr (s.isMember sptr) acptr) with
    | some chptr => some (some chptr)
    | none =>
      let hidden := x.channels.any fun chptr =>
        !(x.isInvisible && !s.isMember sptr chptr || stealth) && (s.chan chptr).mode.mode.has MODE_PRIVATE &&
          !(s.chan chptr).mode.mode.has MODE_SECRET && !x.isInvisible
      if hidden || x.channels.isEmpty && !x.isInvisible && !stealth then some none else none

def whoMatches (mask : Text) (acptr : ClientId) : Bool :=
  let x := s.client acptr
  ircMatch mask x.name || ircMatch mask x.username || ircMatch mask x.host ||
    (s.client sptr).isAnOper && ircMatch mask x.realhost || ircMatch mask x.userServer ||
      ircMatch mask (view.of acptr).info

/-- The line about a client in the search with a mask. -/
def whoPerson (oper : Bool) (mask : Text) (acptr : ClientId) : Option Sent :=
  if !(s.client acptr).isPerson || oper && !(s.client acptr).isAnOper then none
  else
    ((s.showPerson sptr acptr).filter fun _ => s.whoMatches view sptr mask acptr).map fun ch2ptr =>
      s.do_who view sptr acptr ch2ptr none

/-- The search of the list, until so many lines are sent. -/
def whoScan (oper : Bool) (mask : Text) : Nat → List ClientId → List Sent
  | 0, _ => []
  | _, [] => []
  | maxmatches + 1, acptr :: rest =>
    match s.whoPerson view sptr oper mask acptr with
    | none => whoScan oper mask (maxmatches + 1) rest
    | some sent => sent :: whoScan oper mask maxmatches rest

/-! ### The command -/

/-- The mask, and whether only operators are selected. -/
def whoMask (parv : List Text) : Text := collapse (parv.getD 1 [])
def whoOper (parv : List Text) : Bool := (parv.getD 2 []).head? = some 'o'

/-- `m_who`; the first parameter is the sender. -/
def m_who (parv : List Text) : List Sent :=
  let mask := whoMask parv
  let oper := whoOper parv
  let ending := [Sent.reply sptr RPL_ENDOFWHO [if mask = [] then ['*'] else mask]]
  let mychannel := (s.client sptr).channels.head?.map fun chptr => (s.chan chptr).chname
  if mask = [] then ending
  else
    match if mask = ['*'] then mychannel else some mask with
    | none => ending
    | some channame =>
      if isChannelName channame then s.whoChannel view sptr oper channame ++ ending
      else
        match (s.find_client mask).filter fun acptr =>
            (s.client acptr).isPerson && (!oper || (s.client acptr).isAnOper) with
        | some acptr => s.whoNick view sptr acptr :: ending
        | none => s.whoScan view sptr oper mask 500 s.GlobalClientList ++ ending

/-- **A user leaves the list of clients, the table and the members of all channels**; nothing leads to the
block any more. -/
def without (u : ClientId) : Ircd :=
  { s with
    clientTable := fun bucket => (s.clientTable bucket).filter (· ≠ u)
    GlobalClientList := s.GlobalClientList.filter (· ≠ u)
    chan := fun chptr =>
      { s.chan chptr with members := (s.chan chptr).members.filter fun lp => lp.cptr ≠ u } }

/-- A client that the list or the table leads to. -/
def Held (x : ClientId) : Prop := x ∈ s.GlobalClientList ∨ ∃ bucket, x ∈ s.clientTable bucket

/-- **A stealth user and a client of this server that asks, another one and no operator**: nobody else is
named what the user is named, names with wild cards are those of other servers, and nobody is behind the
client. -/
structure Unseen (u : ClientId) : Prop where
  person : (s.client u).isPerson = true
  stealth : (s.client u).isStealth = true
  other : sptr ≠ u
  mine : (s.client sptr).myClient = true
  noOper : (s.client sptr).isAnOper = false
  alone : ∀ x name, s.Held x → irccmp name (s.client x).name = 0 → irccmp name (s.client u).name = 0 → x = u
  strings : ∀ x, NUL ∉ (s.client x).name
  servers : ∀ name x, wilds name = true → NUL ∉ name → s.find_client name = some x →
    s.registered x = true ∧ x ≠ sptr
  nick : wilds (s.client u).name = false
  behind : ∀ x, (s.client x).link = (s.client sptr).link → x = sptr
  once : s.GlobalClientList.Nodup

def WhoNames (u : ClientId) (parv : List Text) : Prop :=
  whoMask parv ≠ [] ∧ isChannelName (whoMask parv) = false ∧ s.find_client (whoMask parv) = some u ∧
    (whoOper parv = true → (s.client u).isAnOper = true)

end

/-! ### Lookups without the user -/

section

variable {s : Ircd} {view : WhoView} {sptr u x : ClientId} {name : Text}

@[simp] theorem without_client : (s.without u).client = s.client := rfl

@[simp] theorem without_isMember : (s.without u).isMember = s.isMember := rfl

@[simp] theorem without_hash_find_channel : (s.without u).hash_find_channel = s.hash_find_channel := rfl

/-- A search that does not end at the user is the same without the user. -/
theorem find?_without {p : ClientId → Bool} {list : List ClientId} (apart : list.find? p ≠ some u) :
    (list.filter (· ≠ u)).find? p = list.find? p := by
  induction list with
  | nil => rfl
  | cons x rest ih =>
    rw [List.find?_cons] at apart
    cases hit : p x with
    | true =>
      simp only [hit] at apart
      have differs : x ≠ u := fun same => apart (congrArg some same)
      rw [List.filter_cons_of_pos (by simpa using differs), List.find?_cons, List.find?_cons, hit]
    | false =>
      simp only [hit] at apart
      by_cases same : x = u
      · rw [List.filter_cons_of_neg (by simpa using same), List.find?_cons, hit, ih apart]
      · rw [List.filter_cons_of_pos (by simpa using same), List.find?_cons, List.find?_cons, hit, ih apart]

theorem find_client_without (apart : s.find_client name ≠ some u) :
    (s.without u).find_client name = s.find_client name := find?_without apart

/-- **Without the user nobody has the name.** -/
theorem find_client_without_self
    (alone : ∀ x name, s.Held x → irccmp name (s.client x).name = 0 → irccmp name (s.client u).name = 0 → x = u)
    (found : s.find_client name = some u) : (s.without u).find_client name = none := by
  refine List.find?_eq_none.mpr fun x member hit => ?_
  obtain ⟨inside, differs⟩ := List.mem_filter.mp member
  exact of_decide_eq_true differs
    (alone x name (.inr ⟨_, inside⟩) (of_decide_eq_true hit) (find_client_name found))

theorem find_user_link_without (chptr : ChannelId) (apart : x ≠ u) :
    find_user_link ((s.without u).chan chptr).members x = find_user_link (s.chan chptr).members x := by
  show List.find? _ ((s.chan chptr).members.filter _) = _
  unfold find_user_link
  rw [List.find?_filter]
  congr 1
  funext lp
  by_cases same : lp.cptr = x
  · simp [same, apart]
  · simp [same]

theorem do_who_without (repchan : Option ChannelId) (lp : Option Member) (apart : x ≠ u) :
    (s.without u).do_who view sptr x repchan lp = s.do_who view sptr x repchan lp := by
  unfold do_who
  cases repchan with
  | none => rfl
  | some repchan =>
    simp only [Option.bind_some, find_user_link_without repchan apart]
    rfl

/-! ### The searches without the user -/

theorem filter_of_imp {α : Type} {p q : α → Bool} {l : List α} (weaker : ∀ x ∈ l, p x = true → q x = true) :
    (l.filter q).filter p = l.filter p := by
  rw [List.filter_filter]
  refine List.filter_congr fun x member => ?_
  cases told : p x with
  | false => rfl
  | true => rw [weaker x member told]; rfl

/-- **The members of a channel are told without the user.** -/
theorem whoChannel_without (unseen : s.Unseen sptr u) (oper : Bool) (channame : Text) :
    (s.without u).whoChannel view sptr oper channame = s.whoChannel view sptr oper channame := by
  unfold whoChannel
  rw [without_hash_find_channel]
  cases s.hash_find_channel channame with
  | none => rfl
  | some chptr =>
    dsimp only
    rw [show ((s.without u).chan chptr).mode = (s.chan chptr).mode from rfl,
      show ((s.without u).chan chptr).members = (s.chan chptr).members.filter fun lp => lp.cptr ≠ u from rfl]
    simp only [without_client, without_isMember]
    -- whoever is told of is not the user
    have shown : ∀ lp : Member, (!(oper && !(s.client lp.cptr).isAnOper) &&
        !((s.client lp.cptr).isInvisible && !((s.client sptr).isAnOper || s.isMember sptr chptr)) &&
          !((s.client lp.cptr).isStealth && decide (lp.cptr ≠ sptr))) = true → lp.cptr ≠ u := by
      rintro lp told rfl
      simp [unseen.stealth, unseen.other.symm] at told
    rw [filter_of_imp fun lp _ told => decide_eq_true (shown lp told)]
    rfl

theorem whoNick_without (apart : x ≠ u) : (s.without u).whoNick view sptr x = s.whoNick view sptr x :=
  do_who_without _ _ apart

theorem whoPerson_self (unseen : s.Unseen sptr u) (oper : Bool) (mask : Text) :
    s.whoPerson view sptr oper mask u = none := by
  have hidden : s.showPerson sptr u = none := by
    have stealth : ((s.client u).isStealth && decide (u ≠ sptr)) = true := by
      simp [unseen.stealth, unseen.other.symm]
    have nowhere : (s.client u).channels.find? (s.whoVisible sptr (s.isMember sptr) u) = none :=
      List.find?_eq_none.mpr fun chptr _ => by simp [whoVisible, unseen.stealth, unseen.other.symm]
    unfold showPerson
    simp only [nowhere, stealth]
    simp
  unfold whoPerson
  rw [hidden]
  split <;> rfl

theorem whoPerson_without (oper : Bool) (mask : Text) (apart : x ≠ u) :
    (s.without u).whoPerson view sptr oper mask x = s.whoPerson view sptr oper mask x := by
  have line : (fun ch2ptr => (s.without u).do_who view sptr x ch2ptr none) =
      fun ch2ptr => s.do_who view sptr x ch2ptr none := funext fun _ => do_who_without _ _ apart
  unfold whoPerson
  simp only [line]
  rfl

/-- **The clients that a mask matches are told without the user.** -/
theorem whoScan_without (unseen : s.Unseen sptr u) (oper : Bool) (mask : Text) (maxmatches : Nat)
    (list : List ClientId) :
    (s.without u).whoScan view sptr oper mask maxmatches (list.filter (· ≠ u)) =
      s.whoScan view sptr oper mask maxmatches list := by
  induction list generalizing maxmatches with
  | nil => cases maxmatches <;> rfl
  | cons x rest ih =>
    cases maxmatches with
    | zero => cases (List.filter _ (x :: rest)) <;> rfl
    | succ maxmatches =>
      by_cases same : x = u
      · rw [List.filter_cons_of_neg (by simp [same]), ih, whoScan, same, whoPerson_self unseen]
      · rw [List.filter_cons_of_pos (by simp [same]), whoScan, whoScan, whoPerson_without oper mask same,
          ih, ih]

/-- What a mask shows is about a client of the list that is not the user. -/
theorem mem_whoScan (unseen : s.Unseen sptr u) {oper : Bool} {mask : Text} {maxmatches : Nat}
    {list : List ClientId} {sent : Sent} (member : sent ∈ s.whoScan view sptr oper mask maxmatches list) :
    ∃ x ∈ list, x ≠ u ∧ ∃ ch2ptr, sent = s.do_who view sptr x ch2ptr none := by
  induction list generalizing maxmatches with
  | nil => cases maxmatches <;> exact absurd member List.not_mem_nil
  | cons x rest ih =>
    have later : ∀ n, sent ∈ s.whoScan view sptr oper mask n rest →
        ∃ y ∈ x :: rest, y ≠ u ∧ ∃ ch2ptr, sent = s.do_who view sptr y ch2ptr none := fun n found => by
      obtain ⟨y, inside, told⟩ := ih found
      exact ⟨y, List.mem_cons_of_mem _ inside, told⟩
    cases maxmatches with
    | zero => exact absurd member List.not_mem_nil
    | succ maxmatches =>
      rw [whoScan] at member
      split at member
      · exact later _ member
      · rename_i told shown
        rcases List.mem_cons.mp member with rfl | member
        · refine ⟨x, List.mem_cons_self, fun same => ?_, ?_⟩
          · rw [same, whoPerson_self unseen] at shown
            exact nomatch shown
          · unfold whoPerson at shown
            split at shown
            · exact nomatch shown
            · obtain ⟨ch2ptr, -, line⟩ := Option.map_eq_some_iff.mp shown
              exact ⟨ch2ptr, line.symm⟩
        · exact later _ member

/-! ### The command without the user -/

/-- A name for somebody without wild cards in the name has none itself. -/
theorem wilds_of_irccmp {other : Text} (string : NUL ∉ name) (stringOther : NUL ∉ other)
    (plain : wilds other = false) (same : irccmp name other = 0) : wilds name = false := by
  have folded := (irccmp_eq_zero_iff string stringOther).mp same
  have code : ∀ c d : Char, toUpper c = toUpper d → (c = '*' ∨ c = '?') → d = c := by
    rintro c d upper (rfl | rfl)
    · exact HashTable.toUpper_eq_star upper
    · have code := congrArg Char.toNat upper
      rw [show toUpper '?' = '?' from rfl, toUpper_toNat, show '?'.toNat = 63 from rfl] at code
      apply Char.toNat_inj.mp
      rw [show '?'.toNat = 63 from rfl]
      split_ifs at code <;> omega
  have moved : ∀ c, c = '*' ∨ c = '?' → c ∈ name → c ∈ other := by
    intro c wild inside
    have upper := List.mem_map_of_mem (f := toUpper) inside
    rw [folded] at upper
    obtain ⟨d, member, eq⟩ := List.mem_map.mp upper
    exact code c d eq.symm wild ▸ member
  by_contra wild
  rw [Bool.not_eq_false] at wild
  unfold wilds at plain wild
  simp only [Bool.or_eq_true, decide_eq_true_eq, Bool.or_eq_false_iff, decide_eq_false_iff_not] at plain wild
  rcases wild with inside | inside
  · exact plain.1 (moved _ (.inr rfl) inside)
  · exact plain.2 (moved _ (.inl rfl) inside)

theorem Unseen.wilds (unseen : s.Unseen sptr u) (string : NUL ∉ name) (found : s.find_client name = some u) :
    PtlinkIrcd.wilds name = false :=
  wilds_of_irccmp string (unseen.strings u) unseen.nick (find_client_name found)

theorem whoNick_notMem_whoScan (unseen : s.Unseen sptr u) {oper : Bool} {mask : Text} {maxmatches : Nat} :
    s.whoNick view sptr u ∉ s.whoScan view sptr oper mask maxmatches s.GlobalClientList := by
  intro member
  obtain ⟨x, inside, differs, ch2ptr, same⟩ := mem_whoScan unseen member
  have names : (s.client u).name = (s.client x).name := by
    unfold whoNick do_who at same
    simp only [Sent.reply.injEq, List.cons.injEq, true_and] at same
    exact same.2.2.2.2.1
  exact differs (unseen.alone x (s.client u).name (.inl inside) (names ▸ irccmp_self _) (irccmp_self _))

/-- **WHO says the same without a stealth user unless it is asked of the nick.** -/
theorem m_who_without_iff (unseen : s.Unseen sptr u) (parv : List Text) (strings : NUL ∉ parv.getD 1 []) :
    s.m_who view sptr parv = (s.without u).m_who view sptr parv ↔ ¬ s.WhoNames u parv := by
  unfold m_who WhoNames
  have string : NUL ∉ whoMask parv := fun inside => strings ((collapse_sublist _).subset inside)
  generalize whoMask parv = mask at string ⊢
  generalize whoOper parv = oper
  dsimp only
  by_cases empty : mask = []
  · simp [empty]
  simp only [if_neg empty, without_client]
  have channames : ((s.client sptr).channels.head?.map fun chptr => ((s.without u).chan chptr).chname) =
      (s.client sptr).channels.head?.map fun chptr => (s.chan chptr).chname := rfl
  have scan : (s.without u).whoScan view sptr oper mask 500 (s.without u).GlobalClientList =
      s.whoScan view sptr oper mask 500 s.GlobalClientList := whoScan_without unseen ..
  simp only [channames, scan]
  by_cases named : s.find_client mask = some u
  · have plain := unseen.wilds string named
    have noStar : mask ≠ ['*'] := by
      rintro rfl
      exact absurd plain (by decide)
    simp only [if_neg noStar, find_client_without_self unseen.alone named, named]
    by_cases channel : isChannelName mask = true
    · rw [if_pos channel, if_pos channel, whoChannel_without unseen]
      exact iff_of_true rfl fun told => absurd channel (by simp [told.2.1])
    · rw [if_neg channel, if_neg channel]
      by_cases shown : oper = true → (s.client u).isAnOper = true
      · have found : ((some u).filter fun acptr =>
            (s.client acptr).isPerson && (!oper || (s.client acptr).isAnOper)) = some u := by
          refine Option.filter_eq_some_iff.mpr ⟨rfl, ?_⟩
          cases oper with
          | false => simp [unseen.person]
          | true => simp [unseen.person, shown rfl]
        rw [found]
        refine iff_of_false (fun same => ?_) (not_not.mpr ⟨empty, by simpa using channel, trivial, shown⟩)
        -- the first line without the user is one of a mask, or the end
        have lines : s.whoNick view sptr u :: [.reply sptr RPL_ENDOFWHO [mask]] =
            s.whoScan view sptr oper mask 500 s.GlobalClientList ++ [.reply sptr RPL_ENDOFWHO [mask]] := same
        have member := lines ▸ List.mem_cons_self
        rcases List.mem_append.mp member with line | ending
        · exact whoNick_notMem_whoScan unseen line
        · have number := List.mem_singleton.mp ending
          unfold whoNick do_who at number
          exact absurd (Sent.reply.inj number).2.1 (by decide)
      · have found : ((some u).filter fun acptr =>
            (s.client acptr).isPerson && (!oper || (s.client acptr).isAnOper)) = none := by
          rw [Classical.not_imp] at shown
          simp [Option.filter, shown.1, shown.2]
        rw [found]
        exact iff_of_true rfl fun told => shown told.2.2.2
  · rw [find_client_without named]
    refine iff_of_true ?_ fun told => named told.2.2.1
    split
    · rfl
    · split
      · rw [whoChannel_without unseen]
      · split
        · rename_i acptr found
          have apart : acptr ≠ u := fun same =>
            named (same ▸ (Option.filter_eq_some_iff.mp found).1)
          rw [whoNick_without apart]
        · rfl

end

end Ircd

end PtlinkIrcd
