/-
**WHOIS, and what WHO and WHOIS tell of a stealth user.**

`m_whois` of `m_whois.c`: what is told about the client of a nick, to operators also about the clients that
a mask matches; a first parameter says which server is asked.

* `whoisClient` — the lines about a client; `whoisMasks` — the search of an operator.
* `m_whois` — the command.
* `WhoQuery`, `Told` — the two commands, and what the client that asks is told.
* `hunted`, `hunt_server_eq` — the client that the first parameter stands for.
* `WhoQuery.Betrays` — the queries that tell of a stealth user.
* `stealth_unseen_iff` — **the answers are the same without the user exactly if the query is none of these.**
-/

import PtlinkIrcd.User.UserMode
import PtlinkIrcd.User.Who

namespace PtlinkIrcd

def RPL_WHOISIDENTIFIED : Nat := 307
def RPL_WHOISHELPOP : Nat := 310
def RPL_WHOISUSER : Nat := 311
def RPL_WHOISSERVER : Nat := 312
def RPL_WHOISOPERATOR : Nat := 313
def RPL_WHOISIDLE : Nat := 317
def RPL_ENDOFWHOIS : Nat := 318
def RPL_WHOISCHANNELS : Nat := 319
def RPL_WHOISREALHOST : Nat := 378
def RPL_WHOISMODE : Nat := 379
def RPL_WHOISSECURE : Nat := 671
def ERR_NONICKNAMEGIVEN : Nat := 431
def WHOIS_WAIT : Int := 1

/-! ### The lines about a client -/

def get_mode_string (umodes : Flags) : Text :=
  '+' :: (user_modes.filter fun f => umodes.has f.1).map Prod.snd

/-- The rank that an operator is shown with. -/
def whoisRank (x : Client) : Option Text :=
  if x.isNetAdmin then some "an IRC Operator - Network Administrator".toList
  else if x.isTechAdmin then some "an IRC Operator - Technical Administrator".toList
  else if x.isSAdmin then some "an IRC Operator - Services Administrator".toList
  else if x.isAdmin then some "an IRC Operator - Server Administrator".toList
  else none

/-- The buffer of channels, and the lines that were sent. -/
structure WhoisLoop where
  buf : Text
  lines : List Text

/-- `nick`, with what it is a mask for; a user mask ends the nick. -/
inductive WhoisMask
  | realName (mask : Text)
  | server (mask : Text)
  | userHost (user host : Text)
  | nick (mask : Text)

def whoisMask (nick : Text) : WhoisMask :=
  if nick.head? = some ':' then .realName nick.tail
  else if nick.head? = some '$' then .server nick.tail
  else if '@' ∈ nick then .userHost (nick.takeWhile (· ≠ '@')) (nick.dropWhile (· ≠ '@')).tail
  else .nick nick

def WhoisMask.left (nick : Text) : WhoisMask → Text
  | .userHost user _ => user
  | _ => nick

/-- `wilds` of `m_whois`. -/
def whoisWilds (nick : Text) : Bool := nick.head? = some '$' || wilds nick

namespace Ircd

section

variable (s : Ircd) (view : WhoView) (sptr : ClientId) (sender : Text)

/-- `mename`: the name of this server or of the virtual link of the client. -/
def mename : Text := ((view.of sptr).vlink.map VLink.name).getD s.meName

def whoisName (acptr : ClientId) : Text :=
  if (s.client acptr).name = [] then ['?'] else (s.client acptr).name

/-- `mlen`. -/
def whoisLength (acptr : ClientId) : Nat :=
  (s.mename view sptr).length + sender.length + 6 + (s.whoisName acptr).length

/-- A channel of the client in the loop. -/
def whoisChannel (acptr : ClientId) (l : WhoisLoop) (chptr : ChannelId) : WhoisLoop :=
  if s.showChannel sptr chptr then
    let chname := (s.chan chptr).chname
    let l : WhoisLoop :=
      if l.buf.length + chname.length + s.whoisLength view sptr sender acptr > BUFSIZE - 4 then
        ⟨[], l.lines ++ [l.buf]⟩
      else l
    let mark := statusMark s.conf.HALFOPS false ((s.chan chptr).user_channel_mode acptr)
    ⟨l.buf ++ mark ++ chname ++ [' '], l.lines⟩
  else l

/-- The lines with the channels of the client. -/
def whoisChannels (acptr : ClientId) : List Sent :=
  let l := (s.client acptr).channels.foldl (s.whoisChannel view sptr sender acptr) ⟨[], []⟩
  (l.lines ++ if l.buf ≠ [] then [l.buf] else []).map fun buf =>
    .reply sptr RPL_WHOISCHANNELS [s.whoisName acptr, buf]

def whoisServer (acptr : ClientId) : Sent :=
  let server := (s.client acptr).userServer
  .reply sptr RPL_WHOISSERVER
    [s.whoisName acptr, server,
      ((s.find_server server).map fun a2cptr => (view.of a2cptr).info).getD "*Not On This Net*".toList]

/-- A line with the name of the client and nothing else, on a condition. -/
def whoisLine (acptr : ClientId) (p : Bool) (numeric : Nat) (args : List Text) : List Sent :=
  if p then [.reply sptr numeric (s.whoisName acptr :: args)] else []

/-- The notice to an operator who wants to know. -/
def whoisNotice (acptr : ClientId) : Sent :=
  .one acptr <| line [":", s.meName, " NOTICE ", (s.client acptr).name, " :*** Notice -- ", sender, " (",
    (s.client sptr).username, "@", (s.client sptr).realhost, ") is doing a /whois on you."]

/-- The lines about a client that is away, and about its idle time. -/
def whoisAway (acptr : ClientId) : List Sent :=
  s.whoisLine sptr acptr (view.of acptr).away.isSome RPL_AWAY [(view.of acptr).away.getD []]

def whoisIdle (acptr : ClientId) : List Sent :=
  s.whoisLine sptr acptr ((s.client acptr).user.isSome && (s.client acptr).myConnect) RPL_WHOISIDLE
    [(toString (s.now - (view.of acptr).last)).toList, (toString (view.of acptr).firsttime).toList]

def whoisOperator (acptr : ClientId) : List Sent :=
  let x := s.client acptr
  let rank := (whoisRank x).or <|
    if x.isOper then some "an IRC Operator".toList
    else if x.umodes.has UMODE_LOCOP then some "an IRC Operator - Local IRC Operator".toList
    else none
  s.whoisLine sptr acptr ((!x.isHideOper || (s.client sptr).isOper) && rank.isSome) RPL_WHOISOPERATOR
    [rank.getD []]

/-- The lines about the client of the nick; `nick` is the parameter. -/
def whoisClient (nick : Text) (acptr : ClientId) : List Sent :=
  let x := s.client acptr
  let y := s.client sptr
  let told := s.whoisLine sptr acptr
  told true RPL_WHOISUSER [x.username, x.host, (view.of acptr).info] ++
    told ((y.isOper || acptr = sptr) && view.WhoisExtension) RPL_WHOISREALHOST [x.realhost] ++
    (if x.isSsl then [.reply sptr RPL_WHOISSECURE [nick]] else []) ++
    (if (!x.umodes.has UMODE_PRIVATE || y.isOper || acptr = sptr) && !x.isStealth then
      s.whoisChannels view sptr sender acptr else []) ++
    (if y.isAnOper || !view.HideServerOnWhois then
      match (view.of acptr).vlink with
      | some vlink => told true RPL_WHOISSERVER [vlink.name, vlink.passwd]
      | none =>
        if !x.isService || y.isAnOper || !view.HideServicesServer then [s.whoisServer view sptr acptr] else []
      else []) ++
    told x.isIdentified RPL_WHOISIDENTIFIED [] ++
    told (x.umodes.has UMODE_HELPER) RPL_WHOISHELPOP [] ++
    told (y.isOper && view.WhoisExtension) RPL_WHOISMODE [get_mode_string x.umodes] ++
    s.whoisAway view sptr acptr ++
    s.whoisOperator sptr acptr ++
    (if x.isOper && x.umodes.has UMODE_SPY && y.myConnect && y.isPerson && acptr ≠ sptr &&
        !view.is_silenced sptr acptr then
      [s.whoisNotice sptr sender acptr] else []) ++
    s.whoisIdle view sptr acptr

/-! ### The search of an operator -/

def whoisHit (mask : WhoisMask) (acptr : ClientId) : Bool :=
  let x := s.client acptr
  match mask with
  | .realName mask => ircMatch mask (view.of acptr).info
  | .server mask => ircMatch mask x.userServer
  | .userHost user host => (ircMatch host x.realhost || ircMatch host x.host) && ircMatch user x.username
  | .nick mask => ircMatch mask (s.whoisName acptr)

/-- The lines about a client that the mask matches. -/
def whoisFound (acptr : ClientId) : List Sent :=
  let x := s.client acptr
  let y := s.client sptr
  let rank := (whoisRank x).or (if x.isAnOper then some "an IRC Operator".toList else none)
  s.whoisLine sptr acptr true RPL_WHOISUSER
      [x.username, if y.isOper then x.realhost else x.host, (view.of acptr).info] ++
    s.whoisChannels view sptr sender acptr ++
    [s.whoisServer view sptr acptr] ++
    s.whoisAway view sptr acptr ++
    s.whoisLine sptr acptr rank.isSome RPL_WHOISOPERATOR [rank.getD []] ++
    (if x.myConnect && x.isOper && x.umodes.has UMODE_SPY && y.myConnect && y.isPerson && acptr ≠ sptr then
      [.one acptr <| line [":", s.mename view sptr, " NOTICE ", x.name, " :*** Notice -- ", sender, " (",
        y.username, "@", y.realhost, ") is doing a /whois on you."]] else []) ++
    s.whoisIdle view sptr acptr

def whoisTell (text : Text) : Sent :=
  .one sptr <| line [":", s.mename view sptr, " NOTICE ", (s.client sptr).name, " :", text]

/-- The search of the list: what is sent, and the number of clients. -/
def whoisScan (mask : WhoisMask) : Nat → List ClientId → List Sent × Nat
  | hits, [] => ([], hits)
  | hits, acptr :: rest =>
    let x := s.client acptr
    if x.isServer then whoisScan mask hits rest
    else if x.isMe then ([], hits)
    else if !s.registered acptr || !s.whoisHit view mask acptr then whoisScan mask hits rest
    else
      let told := s.whoisFound view sptr sender acptr
      if hits + 1 > 50 then
        (told ++ [s.whoisTell view sptr "Aborting /whois output as flood prevention".toList], hits + 1)
      else
        let later := whoisScan mask (hits + 1) rest
        (told ++ later.1, later.2)

/-- What an operator is told about a mask. -/
def whoisMasks (nick : Text) : List Sent :=
  let mask := whoisMask nick
  let nick := mask.left nick
  let found := s.whoisScan view sptr sender mask 0 s.GlobalClientList
  found.1 ++
    [if found.2 = 0 then .reply sptr ERR_NOSUCHNICK [nick]
      else s.whoisTell view sptr
        (line ["This /whois matched ", [Char.ofNat 2], (toString found.2).toList, [Char.ofNat 2], " user(s)"]),
      .reply sptr RPL_ENDOFWHOIS [nick]]

/-! ### The command -/

def whoisNick (parv : Text) : Text := collapse (parv.takeWhile (· ≠ ','))

/-- `m_whois` for this server. -/
def whoisHere (parv : Text) : List Sent :=
  let y := s.client sptr
  let nick := whoisNick parv
  if !y.isAnOper && !y.myConnect && view.last_used + WHOIS_WAIT > s.now then []
  else if whoisWilds nick then
    if !y.isAnOper then [.reply sptr ERR_NOSUCHNICK [nick]] else s.whoisMasks view sptr sender nick
  else
    match s.find_client nick with
    | none => [.reply sptr ERR_NOSUCHNICK [nick], .reply sptr RPL_ENDOFWHOIS [nick]]
    | some acptr =>
      if (s.client acptr).isStealth then [.reply sptr ERR_NOSUCHNICK [nick]]
      else if !(s.client acptr).isPerson then [.reply sptr RPL_ENDOFWHOIS [nick]]
      else s.whoisClient view sptr sender nick acptr ++ [.reply sptr RPL_ENDOFWHOIS [nick]]

/-- What `hunt_server` sends for `:%s WHOIS %s :%s`. -/
def whoisSent : HuntSent → Sent
  | .numeric acptr numeric arg => .reply acptr numeric [arg]
  | .command acptr parv =>
    .one acptr (line [":", parv.getD 0 [], " WHOIS ", parv.getD 1 [], " :", parv.getD 2 []])

/-- `m_whois`; the first parameter is the sender. The search for the server may not end. -/
def m_whois (fuel : Nat) (cptr : ClientId) (parv : List Text) : Option (List Sent) :=
  let sender := parv.getD 0 []
  if parv.length < 2 then some [.reply sptr ERR_NONICKNAMEGIVEN []]
  else if 2 < parv.length then
    (s.hunt_server fuel cptr sptr 1 parv).map fun hunt =>
      match hunt.verdict with
      | .ISME => s.whoisHere view sptr sender (hunt.parv.getD 2 [])
      | _ => hunt.sent.map whoisSent
  else some (s.whoisHere view sptr sender (parv.getD 1 []))

end

/-! ### The lines without the user -/

section

variable {s : Ircd} {view : WhoView} {sptr u x : ClientId} {name sender nick : Text}

theorem find_client_star (unseen : s.Unseen sptr u) (t : Text) : s.find_client ('*' :: t) ≠ some u := by
  intro found
  have same := find_client_name found
  have plain := unseen.nick
  cases hname : (s.client u).name with
  | nil => simp [hname, irccmp, toUpper] at same
  | cons d rest =>
    rw [hname] at same plain
    unfold irccmp at same
    by_cases upper : toUpper '*' = toUpper d
    · obtain rfl := HashTable.toUpper_eq_star upper
      simp [PtlinkIrcd.wilds] at plain
    · dsimp only at same
      have apart : (toUpper '*').toNat ≠ (toUpper d).toNat := fun eq => upper (Char.toNat_inj.mp eq)
      rw [if_neg (by omega)] at same
      omega

/-- **Servers are found without the user.** -/
theorem find_server_without (unseen : s.Unseen sptr u) (name : Text) :
    (s.without u).find_server name = s.find_server name := by
  have masked : (s.without u).hash_find_masked_server name = s.hash_find_masked_server name := by
    unfold hash_find_masked_server
    simp only [find_client_without (find_client_star unseen _)]
  have noServer : ((s.client u).isServer || (s.client u).isMe) = false := by
    have client := unseen.person
    unfold Client.isPerson Client.isClient at client
    rw [Bool.and_eq_true, decide_eq_true_eq] at client
    simp [Client.isServer, Client.isMe, client.1]
  unfold find_server Lib.ChainTable.find
  rw [masked]
  congr 1
  show List.find? _ ((s.clientTable _).filter _) = _
  rw [without_client, List.find?_filter]
  congr 1
  funext y
  by_cases same : y = u
  · subst same
    simp [noServer]
  · simp [same]

theorem whoisChannel_without (apart : x ≠ u) :
    (s.without u).whoisChannel view sptr sender x = s.whoisChannel view sptr sender x := by
  funext l chptr
  have flags : ((s.without u).chan chptr).user_channel_mode x = (s.chan chptr).user_channel_mode x := by
    unfold Channel.user_channel_mode
    rw [find_user_link_without chptr apart]
  unfold whoisChannel
  rw [flags]
  rfl

/-- **The lines about another client are the same.** -/
theorem whoisClient_without (unseen : s.Unseen sptr u) (apart : x ≠ u) :
    (s.without u).whoisClient view sptr sender nick x = s.whoisClient view sptr sender nick x := by
  have channels : (s.without u).whoisChannels view sptr sender x = s.whoisChannels view sptr sender x := by
    unfold whoisChannels
    rw [whoisChannel_without apart]
    rfl
  have server : (s.without u).whoisServer view sptr x = s.whoisServer view sptr x := by
    unfold whoisServer
    simp only [find_server_without unseen]
    rfl
  unfold whoisClient
  rw [channels, server]
  rfl

/-! ### WHOIS at this server -/

def toOne (target : ClientId) : Sent → Bool
  | .one t _ => t = target
  | .reply t _ _ => t = target
  | _ => false

def repliesTo (target : ClientId) (sent : List Sent) : List Sent := sent.filter (toOne target)

/-- WHOIS is asked of the nick of a user. -/
def WhoisNames (s : Ircd) (u : ClientId) (parv : Text) : Prop :=
  whoisWilds (whoisNick parv) = false ∧ s.find_client (whoisNick parv) = some u

@[simp] theorem repliesTo_cons_reply (numeric : Nat) (args : List Text) (rest : List Sent) :
    repliesTo sptr (.reply sptr numeric args :: rest) = .reply sptr numeric args :: repliesTo sptr rest :=
  List.filter_cons_of_pos (decide_eq_true rfl)

@[simp] theorem repliesTo_nil : repliesTo sptr [] = [] := rfl

theorem whoisHere_eq (mine : (s.client sptr).myClient = true) (noOper : (s.client sptr).isAnOper = false)
    (parv : Text) :
    s.whoisHere view sptr sender parv =
      if whoisWilds (whoisNick parv) then [.reply sptr ERR_NOSUCHNICK [whoisNick parv]]
      else
        match s.find_client (whoisNick parv) with
        | none =>
          [.reply sptr ERR_NOSUCHNICK [whoisNick parv], .reply sptr RPL_ENDOFWHOIS [whoisNick parv]]
        | some acptr =>
          if (s.client acptr).isStealth then [.reply sptr ERR_NOSUCHNICK [whoisNick parv]]
          else if !(s.client acptr).isPerson then [.reply sptr RPL_ENDOFWHOIS [whoisNick parv]]
          else s.whoisClient view sptr sender (whoisNick parv) acptr ++
            [.reply sptr RPL_ENDOFWHOIS [whoisNick parv]] := by
  unfold Client.myClient at mine
  rw [Bool.and_eq_true] at mine
  simp only [whoisHere, noOper, mine.1, Bool.not_false, Bool.not_true, Bool.and_false, Bool.false_and,
    Bool.false_eq_true, if_false, if_true]

/-- Such a client always gets an answer, and the first line is not that there is no such server. -/
theorem whoisHere_head (view : WhoView) (mine : (s.client sptr).myClient = true)
    (noOper : (s.client sptr).isAnOper = false) (sender parv : Text) : ∃ numeric args rest, numeric ≠ ERR_NOSUCHSERVER ∧
      repliesTo sptr (s.whoisHere view sptr sender parv) = .reply sptr numeric args :: rest := by
  rw [whoisHere_eq mine noOper]
  split
  · exact ⟨_, _, _, by decide, repliesTo_cons_reply ..⟩
  · split
    · exact ⟨_, _, _, by decide, repliesTo_cons_reply ..⟩
    · split_ifs
      · exact ⟨_, _, _, by decide, repliesTo_cons_reply ..⟩
      · exact ⟨_, _, _, by decide, repliesTo_cons_reply ..⟩
      · exact ⟨RPL_WHOISUSER, _, _, by decide, repliesTo_cons_reply ..⟩

/-- **WHOIS at this server says the same without a stealth user unless it is asked of the nick**: then the
end of the list is missing. -/
theorem whoisHere_without_iff (view : WhoView) (unseen : s.Unseen sptr u) (sender parv : Text) :
    repliesTo sptr (s.whoisHere view sptr sender parv) =
      repliesTo sptr ((s.without u).whoisHere view sptr sender parv) ↔ ¬ s.WhoisNames u parv := by
  rw [whoisHere_eq unseen.mine unseen.noOper, whoisHere_eq (s := s.without u) unseen.mine unseen.noOper]
  unfold WhoisNames
  generalize whoisNick parv = nick
  by_cases wild : whoisWilds nick = true
  · rw [if_pos wild, if_pos wild]
    exact iff_of_true rfl fun told => by simp [wild] at told
  · rw [if_neg wild, if_neg wild]
    by_cases named : s.find_client nick = some u
    · rw [find_client_without_self unseen.alone named, named]
      simp [unseen.stealth, Bool.eq_false_iff.mpr wild]
    · rw [find_client_without named]
      refine iff_of_true ?_ fun told => named told.2
      cases found : s.find_client nick with
      | none => rfl
      | some acptr =>
        have apart : acptr ≠ u := fun same => named (same ▸ found)
        simp only [whoisClient_without unseen apart, without_client]

/-! ### The server that is asked -/

/-- Whether the search of the list takes a client. -/
def taken (s : Ircd) (sptr acptr : ClientId) : Bool := s.registered acptr && acptr ≠ sptr

/-- The client that the search of the list ends at. -/
def huntedMask (s : Ircd) (sptr : ClientId) (ch : Text) : Option ClientId :=
  let matching := fun acptr => ircMatch ch (s.client acptr).name
  match s.find_client ch with
  | none => s.GlobalClientList.find? fun acptr => matching acptr && s.taken sptr acptr
  | some acptr =>
    if s.GlobalClientList.head? = some acptr then
      (s.GlobalClientList.find? matching).map fun next => if s.taken sptr next then next else acptr
    else some acptr

/-- The client that the first of three parameters stands for. -/
def hunted (s : Ircd) (sptr : ClientId) (p : Text) : Option ClientId :=
  (s.find_client p).or <| (s.find_server p).or <|
    if wilds (collapse p) then s.huntedMask sptr (collapse p) else none

/-- The parameter stands for this server at once. -/
def HuntsHere (s : Ircd) (p : Text) : Prop :=
  p = [] ∨ ircMatch (s.client me).name p = true ∨ ircMatch p (s.client me).name = true

instance (s : Ircd) (p : Text) : Decidable (s.HuntsHere p) := inferInstanceAs (Decidable (_ ∨ _ ∨ _))

theorem Unseen.wrongWay (unseen : s.Unseen sptr u) (x : ClientId) : s.wrongWay sptr x = false := by
  unfold Ircd.wrongWay
  by_cases same : (s.client x).link = (s.client sptr).link
  · rw [unseen.behind x same]
    have mine := unseen.mine
    unfold Client.myClient at mine
    rw [Bool.and_eq_true] at mine
    simp [mine.1]
  · simp [same]

theorem huntMasks_mono {cptr : ClientId} {ch : Text} {fuel : Nat} {tmp : Option ClientId}
    {r : Option ClientId} (found : s.huntMasks cptr sptr ch fuel tmp = some r) (more : Nat) :
    s.huntMasks cptr sptr ch (fuel + more) tmp = some r := by
  induction fuel generalizing tmp with
  | zero => exact nomatch found
  | succ fuel ih =>
    rw [Nat.succ_add]
    unfold huntMasks at found ⊢
    split at found
    · exact found
    · split_ifs at found ⊢
      · exact ih found
      · exact found
      · exact ih found

theorem dropWhile_ne {front rest : List ClientId} (apart : x ∉ front) :
    (front ++ x :: rest).dropWhile (fun y => decide (y ≠ x)) = x :: rest := by
  have passes : ∀ y ∈ front, decide (y ≠ x) = true := fun y member =>
    decide_eq_true fun same => apart (same ▸ member)
  rw [List.dropWhile_append_of_pos passes]
  exact List.dropWhile_cons_of_neg (by simp)

theorem takeWhile_ne {front rest : List ClientId} (apart : x ∉ front) :
    (front ++ x :: rest).takeWhile (fun y => decide (y ≠ x)) = front := by
  have passes : ∀ y ∈ front, decide (y ≠ x) = true := fun y member =>
    decide_eq_true fun same => apart (same ▸ member)
  rw [List.takeWhile_append_of_pos passes, List.takeWhile_cons_of_neg (by simp), List.append_nil]

theorem notMem_front (unseen : s.Unseen sptr u) {front rest : List ClientId}
    (whole : s.GlobalClientList = front ++ x :: rest) : x ∉ front := fun inside =>
  (List.nodup_append.mp (whole ▸ unseen.once)).2.2 x inside x List.mem_cons_self rfl

theorem nextOf_eq (unseen : s.Unseen sptr u) {front rest : List ClientId}
    (whole : s.GlobalClientList = front ++ x :: rest) : s.nextOf x = rest.head? := by
  unfold nextOf
  rw [whole, dropWhile_ne (notMem_front unseen whole)]
  rfl

theorem prevOf_eq (unseen : s.Unseen sptr u) {front rest : List ClientId}
    (whole : s.GlobalClientList = front ++ x :: rest) : s.prevOf x = front.getLast? := by
  unfold prevOf
  rw [whole, takeWhile_ne (notMem_front unseen whole)]

theorem huntMasks_succ (unseen : s.Unseen sptr u) (ch : Text) (fuel : Nat) (tmp : Option ClientId) :
    s.huntMasks sptr sptr ch (fuel + 1) tmp =
      match s.next_client tmp ch with
      | none => some none
      | some acptr =>
        if s.taken sptr acptr then some (some acptr) else s.huntMasks sptr sptr ch fuel (s.nextOf acptr) := by
  rw [huntMasks]
  cases s.next_client tmp ch with
  | none => rfl
  | some acptr =>
    dsimp only
    rw [if_neg (by simp [unseen.wrongWay])]
    rfl

/-- The next client of a part of the list, for a mask that does not name the one before it. -/
theorem next_client_self (unseen : s.Unseen sptr u) {ch : Text} {front rest : List ClientId}
    (whole : s.GlobalClientList = front ++ x :: rest) (found : (s.find_client ch).or (some x) = some x) :
    s.next_client (some x) ch = (x :: rest).find? fun acptr => ircMatch ch (s.client acptr).name := by
  have before : s.prevOf x ≠ some x := fun last => by
    rw [prevOf_eq unseen whole] at last
    exact notMem_front unseen whole (List.mem_of_getLast? last)
  unfold next_client
  rw [found]
  dsimp only
  rw [if_neg (by simp [before]), if_neg (not_not.mpr rfl), Option.bind_some, whole,
    dropWhile_ne (notMem_front unseen whole)]

theorem huntMasks_none (unseen : s.Unseen sptr u) {ch : Text} (nobody : s.find_client ch = none)
    {front rest : List ClientId} (whole : s.GlobalClientList = front ++ rest) {fuel : Nat}
    (enough : rest.length < fuel) :
    s.huntMasks sptr sptr ch fuel rest.head? =
      some (rest.find? fun acptr => ircMatch ch (s.client acptr).name && s.taken sptr acptr) := by
  induction fuel generalizing front rest with
  | zero => exact absurd enough (Nat.not_lt_zero _)
  | succ fuel ih =>
    have next : s.next_client rest.head? ch = rest.find? fun acptr => ircMatch ch (s.client acptr).name := by
      cases rest with
      | nil => simp [next_client, nobody]
      | cons h t => exact next_client_self unseen whole (by simp [nobody])
    rw [huntMasks_succ unseen, next]
    cases hit : rest.find? fun acptr => ircMatch ch (s.client acptr).name with
    | none =>
      have none_ := List.find?_eq_none.mp hit
      refine congrArg some (List.find?_eq_none.mpr fun acptr member both => ?_).symm
      rw [Bool.and_eq_true] at both
      exact none_ acptr member both.1
    | some acptr =>
      obtain ⟨matched, before, after, parts, earlier⟩ := List.find?_eq_some_iff_append.mp hit
      have skipped : (before.find? fun acptr => ircMatch ch (s.client acptr).name && s.taken sptr acptr) = none := by
        refine List.find?_eq_none.mpr fun y member both => ?_
        rw [Bool.and_eq_true] at both
        have misses := earlier y member
        rw [both.1] at misses
        exact absurd misses (by decide)
      dsimp only
      rw [parts, List.find?_append, skipped, Option.none_or, List.find?_cons, matched, Bool.true_and]
      cases takes : s.taken sptr acptr with
      | true => rfl
      | false =>
        rw [parts, ← List.append_assoc] at whole
        rw [if_neg Bool.false_ne_true, nextOf_eq unseen whole]
        have next : s.GlobalClientList = (front ++ before ++ [acptr]) ++ after := by rw [whole]; simp
        refine ih next ?_
        rw [parts] at enough
        simp only [List.length_append, List.length_cons] at enough
        omega

theorem huntMasks_some (unseen : s.Unseen sptr u) {ch : Text} (found : s.find_client ch = some x)
    (takes : s.taken sptr x = true) (fuel : Nat) :
    s.huntMasks sptr sptr ch (fuel + 2) s.GlobalClientList.head? = some (s.huntedMask sptr ch) := by
  -- the name leads there from everywhere but the client itself and the one behind it
  have leads : ∀ tmp : Option ClientId, tmp.bind s.prevOf ≠ some x → tmp ≠ some x →
      s.next_client tmp ch = some x := by
    intro tmp before other
    unfold next_client
    rw [found]
    simp [before, Ne.symm other]
  have whole_of : ∀ {h : ClientId} {t : List ClientId}, s.GlobalClientList = h :: t →
      s.GlobalClientList = [] ++ h :: t := fun list => list
  unfold huntedMask
  rw [found, huntMasks_succ unseen]
  dsimp only
  cases list : s.GlobalClientList with
  | nil =>
    rw [List.head?_nil, leads none nofun nofun]
    simp [takes]
  | cons h t =>
    rw [List.head?_cons]
    by_cases first : h = x
    · subst first
      rw [if_pos rfl, next_client_self unseen (whole_of list) (by simp [found])]
      cases hit : (h :: t).find? fun acptr => ircMatch ch (s.client acptr).name with
      | none => rfl
      | some y =>
        rw [Option.map_some]
        dsimp only
        by_cases takesNext : s.taken sptr y = true
        · rw [if_pos takesNext, if_pos takesNext]
        · rw [if_neg takesNext, if_neg takesNext]
          have apart : y ≠ h := fun same => takesNext (same ▸ takes)
          obtain ⟨before, after, parts⟩ := List.append_of_mem (List.mem_of_find?_eq_some hit)
          have whole := list.trans parts
          rw [nextOf_eq unseen whole, huntMasks_succ unseen, leads]
          · simp [takes]
          · cases after with
            | nil => exact nofun
            | cons z after =>
              have next : s.GlobalClientList = (before ++ [y]) ++ z :: after := by rw [whole]; simp
              rw [List.head?_cons, Option.bind_some, prevOf_eq unseen next, List.getLast?_concat]
              exact fun same => apart (Option.some.inj same)
          · intro same
            obtain ⟨rest, behind⟩ := List.head?_eq_some_iff.mp same
            have inside : h ∈ before ++ [y] := by
              cases before with
              | nil => exact absurd (List.cons.inj parts).1.symm apart
              | cons b before => exact (List.cons.inj parts).1 ▸ List.mem_append_left _ List.mem_cons_self
            have next : s.GlobalClientList = (before ++ [y]) ++ h :: rest := by rw [whole, behind]; simp
            exact notMem_front unseen next inside
    · rw [if_neg (fun same => first (Option.some.inj same)), leads (some h) ?_ fun same =>
        first (Option.some.inj same)]
      · simp [takes]
      · rw [Option.bind_some, prevOf_eq unseen (whole_of list)]
        exact nofun

/-- **`hunt_server` goes to the client that the parameter stands for.** -/
theorem hunt_server_eq (unseen : s.Unseen sptr u) {parv : List Text} {p : Text} (param : parv.getD 1 [] = p)
    (string : NUL ∉ p) (away : ¬ s.HuntsHere p) {fuel : Nat} (enough : s.GlobalClientList.length + 2 ≤ fuel) :
    s.hunt_server fuel sptr sptr 1 parv =
      some (s.huntFound sptr 1 (parv.set 1 (collapse p)) (collapse p) (s.hunted sptr p)) := by
  have body : s.hunt_server fuel sptr sptr 1 parv =
      ((s.huntDirect sptr p).elim
        (if !wilds (collapse p) then some (s.find_server (collapse p))
          else s.huntMasks sptr sptr (collapse p) fuel s.GlobalClientList.head?)
        fun acptr => some (some acptr)).map
        (s.huntFound sptr 1 (parv.set 1 (collapse p)) (collapse p)) := by
    simp only [hunt_server, param]
    refine (if_neg away).trans ?_
    cases s.huntDirect sptr p <;> rfl
  have direct : s.huntDirect sptr p = (s.find_client p).or (s.find_server p) := by
    have kept : ∀ found : Option ClientId, found.filter (fun _ => true) = found := by
      rintro (_ | x) <;> rfl
    unfold huntDirect
    simp only [unseen.wrongWay, Bool.not_false, kept]
  rw [body, direct]
  unfold hunted
  cases client : s.find_client p with
  | some x => rfl
  | none =>
    cases server : s.find_server p with
    | some x => rfl
    | none =>
      simp only [Option.none_or, Option.elim_none]
      by_cases wild : wilds (collapse p) = true
      · have stringC : NUL ∉ collapse p := fun inside => string ((collapse_sublist p).subset inside)
        rw [if_neg (by simp [wild]), if_pos wild]
        cases named : s.find_client (collapse p) with
        | none =>
          rw [huntMasks_none unseen named (List.nil_append _).symm (by omega), Option.map_some]
          unfold huntedMask
          rw [named]
        | some x =>
          have takes : s.taken sptr x = true := by
            simp [taken, unseen.servers _ x wild stringC named]
          obtain ⟨more, rfl⟩ := Nat.exists_eq_add_of_le' (Nat.le_of_add_left_le enough)
          rw [huntMasks_some unseen named takes, Option.map_some]
      · rw [Bool.not_eq_true] at wild
        rw [wild, collapse_of_plain wild, server]
        rfl

theorem hunt_server_mono {cptr : ClientId} {server fuel : Nat} {parv : List Text} {hunt : Hunt}
    (ended : s.hunt_server fuel cptr sptr server parv = some hunt) (more : Nat) :
    s.hunt_server (fuel + more) cptr sptr server parv = some hunt := by
  unfold hunt_server at ended ⊢
  dsimp only at ended ⊢
  split
  · rw [if_pos ‹_›] at ended
    exact ended
  · rw [if_neg ‹_›] at ended
    obtain ⟨found, search, rfl⟩ := Option.map_eq_some_iff.mp ended
    refine Option.map_eq_some_iff.mpr ⟨found, ?_, rfl⟩
    cases direct : s.huntDirect sptr (parv.getD server []) with
    | some x =>
      rw [direct] at search
      exact search
    | none =>
      rw [direct] at search
      dsimp only at search ⊢
      split_ifs at search ⊢
      · exact search
      · exact huntMasks_mono search more

end

/-! ### What a client is told -/

/-- A query. -/
inductive WhoQuery
  | WHO (parv : List Text)
  | WHOIS (parv : List Text)

/-- The parameters; the first is the sender. -/
def WhoQuery.parv : WhoQuery → List Text
  | .WHO parv => parv
  | .WHOIS parv => parv

section

variable (s : Ircd) (view : WhoView) (sptr u : ClientId)

def answer (fuel : Nat) : WhoQuery → Option (List Sent)
  | .WHO parv => some (s.m_who view sptr parv)
  | .WHOIS parv => s.m_whois view sptr fuel sptr parv

/-- **What the client is told.** -/
def Told (query : WhoQuery) (replies : List Sent) : Prop :=
  ∃ fuel sent, s.answer view sptr fuel query = some sent ∧ replies = repliesTo sptr sent

/-- Without the user the first of three parameters stands for nobody, or for a client of this server and not of
the others, or the other way round. -/
def HuntNames (p : Text) : Prop :=
  ¬ s.HuntsHere p ∧ (s.hunted sptr p).map s.ours ≠ ((s.without u).hunted sptr p).map s.ours

def HuntsOurs (p : Text) : Prop := s.HuntsHere p ∨ ∃ x ∈ s.hunted sptr p, s.ours x = true

/-- **The query tells of the user**: it is asked of the nick, or its first parameter is that of the user. -/
def Betrays : WhoQuery → Prop
  | .WHO parv => s.WhoNames u parv
  | .WHOIS parv =>
    if 2 < parv.length then
      s.HuntNames sptr u (parv.getD 1 []) ∨
        s.HuntsOurs sptr (parv.getD 1 []) ∧ s.WhoisNames u (parv.getD 2 [])
    else parv.length = 2 ∧ s.WhoisNames u (parv.getD 1 [])

end

section

variable {s : Ircd} {view : WhoView} {sptr u x : ClientId}

theorem told_iff (fuel : Nat) {query : WhoQuery} {sent replies : List Sent}
    (ended : ∀ more, s.answer view sptr (fuel + more) query = some sent)
    (mono : ∀ few other, s.answer view sptr few query = some other →
      ∀ more, s.answer view sptr (few + more) query = some other) :
    s.Told view sptr query replies ↔ replies = repliesTo sptr sent := by
  constructor
  · rintro ⟨few, other, ended', rfl⟩
    have later := mono few other ended' fuel
    rw [Nat.add_comm, ended few] at later
    rw [Option.some.inj later]
  · exact fun same => ⟨fuel, sent, ended 0, same⟩

/-- What WHOIS tells with three parameters. -/
def huntTold (s : Ircd) (view : WhoView) (sptr : ClientId) (parv : List Text) : List Sent :=
  if s.HuntsHere (parv.getD 1 []) then
    repliesTo sptr (s.whoisHere view sptr (parv.getD 0 []) (parv.getD 2 []))
  else
    match s.hunted sptr (parv.getD 1 []) with
    | none => [.reply sptr ERR_NOSUCHSERVER [collapse (parv.getD 1 [])]]
    | some x =>
      if s.ours x then repliesTo sptr (s.whoisHere view sptr (parv.getD 0 []) (parv.getD 2 [])) else []

theorem m_whois_hunted {fuel : Nat} {cptr : ClientId} {parv : List Text} (three : 2 < parv.length) :
    s.m_whois view sptr fuel cptr parv = (s.hunt_server fuel cptr sptr 1 parv).map fun hunt =>
      match hunt.verdict with
      | .ISME => s.whoisHere view sptr (parv.getD 0 []) (hunt.parv.getD 2 [])
      | _ => hunt.sent.map whoisSent := by
  unfold m_whois
  dsimp only
  rw [if_neg (by omega), if_pos three]

theorem repliesTo_hunted (mine : (s.client sptr).myClient = true) (parv : List Text) (p : Text)
    (found : Option ClientId) :
    repliesTo sptr (match (s.huntFound sptr 1 (parv.set 1 p) p found).verdict with
      | .ISME => s.whoisHere view sptr (parv.getD 0 [])
          ((s.huntFound sptr 1 (parv.set 1 p) p found).parv.getD 2 [])
      | _ => (s.huntFound sptr 1 (parv.set 1 p) p found).sent.map whoisSent) =
    match found with
    | none => [.reply sptr ERR_NOSUCHSERVER [p]]
    | some x =>
      if s.ours x then repliesTo sptr (s.whoisHere view sptr (parv.getD 0 []) (parv.getD 2 [])) else [] := by
  cases found with
  | none => exact repliesTo_cons_reply ..
  | some x =>
    by_cases ours : s.ours x = true
    · have second : (parv.set 1 p).getD 2 [] = parv.getD 2 [] := by
        rw [List.getD_eq_getElem?_getD, List.getElem?_set_ne (by decide), ← List.getD_eq_getElem?_getD]
      simp only [huntFound, if_pos ours, second]
    · have other : x ≠ sptr := by
        rintro rfl
        exact ours (by simp [Ircd.ours, mine])
      simp only [huntFound, if_neg ours, List.map_cons, List.map_nil, whoisSent]
      exact List.filter_cons_of_neg (by simp [toOne, other])

theorem string_getD {parv : List Text} (strings : ∀ p ∈ parv, NUL ∉ p) (i : Nat) : NUL ∉ parv.getD i [] := by
  rw [List.getD_eq_getElem?_getD]
  cases param : parv[i]? with
  | none => exact List.not_mem_nil
  | some p => exact strings p (List.mem_of_getElem? param)

/-- **What WHOIS tells with three parameters.** -/
theorem told_whois_iff (unseen : s.Unseen sptr u) {parv : List Text} (three : 2 < parv.length)
    (strings : ∀ p ∈ parv, NUL ∉ p) {replies : List Sent} :
    s.Told view sptr (.WHOIS parv) replies ↔ replies = s.huntTold view sptr parv := by
  have string := string_getD strings 1
  have mono : ∀ few other, s.answer view sptr few (.WHOIS parv) = some other →
      ∀ more, s.answer view sptr (few + more) (.WHOIS parv) = some other := by
    intro few other ended more
    unfold answer at ended ⊢
    dsimp only at ended ⊢
    rw [m_whois_hunted three] at ended ⊢
    obtain ⟨hunt, search, rfl⟩ := Option.map_eq_some_iff.mp ended
    rw [hunt_server_mono search, Option.map_some]
  unfold huntTold
  by_cases here : s.HuntsHere (parv.getD 1 [])
  · rw [if_pos here]
    refine told_iff 0 (fun more => ?_) mono
    unfold answer
    dsimp only
    rw [m_whois_hunted three, show s.hunt_server (0 + more) sptr sptr 1 parv = some ⟨.ISME, parv, []⟩ from
      if_pos here, Option.map_some]
  · rw [if_neg here, ← repliesTo_hunted unseen.mine]
    refine told_iff (s.GlobalClientList.length + 2) (fun more => ?_) mono
    unfold answer
    dsimp only
    rw [m_whois_hunted three, hunt_server_eq unseen rfl string here (Nat.le_add_right _ _), Option.map_some]

/-! ### The user is not seen -/

/-- The sides of the clients that a parameter stands for, and what is told on each of them. -/
theorem sides_iff {here here' : List Sent} {names : Prop} {numeric numeric' : Nat} {args args' : List Text}
    {rest rest' : List Sent} (same : here = here' ↔ ¬ names) (first : here = .reply sptr numeric args :: rest)
    (first' : here' = .reply sptr numeric' args' :: rest') (other : numeric ≠ ERR_NOSUCHSERVER)
    (other' : numeric' ≠ ERR_NOSUCHSERVER) (ours : ClientId → Bool) (p : Text) (found found' : Option ClientId) :
    (match found with
        | none => [Sent.reply sptr ERR_NOSUCHSERVER [p]]
        | some x => if ours x then here else []) =
      (match found' with
        | none => [Sent.reply sptr ERR_NOSUCHSERVER [p]]
        | some x => if ours x then here' else []) ↔
      ¬ (found.map ours ≠ found'.map ours ∨ (∃ x ∈ found, ours x = true) ∧ names) := by
  cases found with
  | none =>
    cases found' with
    | none => simp
    | some y => cases mine : ours y <;> simp [mine, first', Ne.symm other']
  | some x =>
    cases found' with
    | none => cases mine : ours x <;> simp [mine, first, other]
    | some y =>
      cases mine : ours x <;> cases mine' : ours y
      · simp [mine, mine']
      · simp [mine, mine', first']
      · simp [mine, mine', first]
      · simp [mine, mine', same]

/-- What WHOIS tells with three parameters is the same without the user unless the query tells of the user. -/
theorem huntTold_without_iff (unseen : s.Unseen sptr u) (parv : List Text) :
    s.huntTold view sptr parv = (s.without u).huntTold view sptr parv ↔
      ¬ (s.HuntNames sptr u (parv.getD 1 []) ∨
        s.HuntsOurs sptr (parv.getD 1 []) ∧ s.WhoisNames u (parv.getD 2 [])) := by
  have same := whoisHere_without_iff view unseen (parv.getD 0 []) (parv.getD 2 [])
  obtain ⟨_, _, _, other, first⟩ :=
    whoisHere_head view unseen.mine unseen.noOper (parv.getD 0 []) (parv.getD 2 [])
  obtain ⟨_, _, _, other', first'⟩ :=
    whoisHere_head (s := s.without u) view unseen.mine unseen.noOper (parv.getD 0 []) (parv.getD 2 [])
  unfold huntTold HuntNames HuntsOurs
  generalize parv.getD 0 [] = sender at same first first' ⊢
  generalize parv.getD 1 [] = p
  generalize parv.getD 2 [] = nick at same first first' ⊢
  by_cases here : s.HuntsHere p
  · rw [if_pos here, if_pos (show (s.without u).HuntsHere p from here), same]
    simp [here]
  · rw [if_neg here, if_neg (show ¬ (s.without u).HuntsHere p from here)]
    refine (sides_iff same first first' other other' s.ours _ _ _).trans (not_congr ?_)
    simp [here]

theorem Unseen.without (unseen : s.Unseen sptr u) : (s.without u).Unseen sptr u where
  person := unseen.person
  stealth := unseen.stealth
  other := unseen.other
  mine := unseen.mine
  noOper := unseen.noOper
  alone x name held := by
    refine unseen.alone x name ?_
    rcases held with inside | ⟨bucket, inside⟩
    · exact .inl (List.mem_of_mem_filter inside)
    · exact .inr ⟨bucket, List.mem_of_mem_filter inside⟩
  strings := unseen.strings
  servers name x wild string found := by
    have apart : s.find_client name ≠ some u := fun named => by
      rw [unseen.wilds string named] at wild
      exact Bool.false_ne_true wild
    rw [find_client_without apart] at found
    exact unseen.servers name x wild string found
  nick := unseen.nick
  behind := unseen.behind
  once := unseen.once.filter _

theorem repliesTo_m_who (parv : List Text) :
    repliesTo sptr (s.m_who view sptr parv) = s.m_who view sptr parv := by
  refine List.filter_eq_self.mpr fun sent member => ?_
  have line : ∀ x repchan lp, toOne sptr (s.do_who view sptr x repchan lp) = true := fun _ _ _ =>
    decide_eq_true rfl
  have ending : ∀ args, sent ∈ [Sent.reply sptr RPL_ENDOFWHO args] → toOne sptr sent = true := by
    intro args last
    rw [List.mem_singleton.mp last]
    exact decide_eq_true rfl
  have members : ∀ oper channame, sent ∈ s.whoChannel view sptr oper channame → toOne sptr sent = true := by
    intro oper channame shown
    unfold whoChannel at shown
    split at shown
    · exact absurd shown List.not_mem_nil
    · dsimp only at shown
      split_ifs at shown
      · obtain ⟨lp, -, rfl⟩ := List.mem_map.mp shown
        exact line ..
      · exact absurd shown List.not_mem_nil
  have scan : ∀ oper mask maxmatches list, sent ∈ s.whoScan view sptr oper mask maxmatches list →
      toOne sptr sent = true := by
    intro oper mask maxmatches list shown
    fun_induction whoScan s view sptr oper mask maxmatches list with
    | case1 => exact absurd shown List.not_mem_nil
    | case2 => exact absurd shown List.not_mem_nil
    | case3 maxmatches acptr rest nothing ih => exact ih shown
    | case4 maxmatches acptr rest told person ih =>
      rcases List.mem_cons.mp shown with rfl | shown
      · unfold whoPerson at person
        split at person
        · exact nomatch person
        · obtain ⟨ch2ptr, -, rfl⟩ := Option.map_eq_some_iff.mp person
          exact line ..
      · exact ih shown
  unfold m_who at member
  dsimp only at member
  by_cases empty : whoMask parv = []
  · rw [if_pos empty] at member
    exact ending _ member
  · rw [if_neg empty] at member
    split at member
    · exact ending _ member
    · split_ifs at member
      · exact (List.mem_append.mp member).elim (members _ _) (ending _)
      · split at member
        · exact (List.mem_cons.mp member).elim (fun same => same ▸ line ..) (ending _)
        · exact (List.mem_append.mp member).elim (scan _ _ _ _) (ending _)

/-- **The answers are the same without a stealth user exactly if the query does not tell of the user.** -/
theorem stealth_unseen_iff (unseen : s.Unseen sptr u) (query : WhoQuery) (strings : ∀ p ∈ query.parv, NUL ∉ p) :
    (∀ replies, s.Told view sptr query replies ↔ (s.without u).Told view sptr query replies) ↔
      ¬ s.Betrays sptr u query := by
  have settled : ∀ told told' : List Sent,
      (∀ replies, s.Told view sptr query replies ↔ replies = told) →
      (∀ replies, (s.without u).Told view sptr query replies ↔ replies = told') →
        ((∀ replies, s.Told view sptr query replies ↔ (s.without u).Told view sptr query replies) ↔
          told = told') := by
    intro told told' here there
    simp only [here, there]
    exact ⟨fun all => (all told).mp rfl, fun same _ => same ▸ Iff.rfl⟩
  cases query with
  | WHO parv =>
    have told : ∀ s : Ircd, ∀ replies, s.Told view sptr (.WHO parv) replies ↔
        replies = s.m_who view sptr parv := by
      intro s replies
      rw [← repliesTo_m_who]
      exact told_iff 0 (fun _ => rfl) fun _ _ ended _ => ended
    exact (settled _ _ (told s) (told _)).trans (m_who_without_iff unseen parv (string_getD strings 1))
  | WHOIS parv =>
    by_cases three : 2 < parv.length
    · refine (settled _ _ (fun _ => told_whois_iff unseen three strings) fun _ =>
        told_whois_iff unseen.without three strings).trans ((huntTold_without_iff unseen parv).trans ?_)
      simp only [Betrays, if_pos three]
    · have told : ∀ (s : Ircd) (sent : List Sent),
          (∀ fuel, s.m_whois view sptr fuel sptr parv = some sent) → ∀ replies,
            s.Told view sptr (.WHOIS parv) replies ↔ replies = repliesTo sptr sent := by
        intro s sent runs replies
        refine told_iff 0 (fun _ => runs _) fun _ _ ended _ => ?_
        exact (runs _).trans ((runs _).symm.trans ended)
      simp only [Betrays, if_neg three]
      by_cases two : parv.length = 2
      · have runs : ∀ (s : Ircd) (fuel : Nat), s.m_whois view sptr fuel sptr parv =
            some (s.whoisHere view sptr (parv.getD 0 []) (parv.getD 1 [])) := by
          intro s fuel
          unfold m_whois
          dsimp only
          rw [if_neg (by omega), if_neg three]
        refine (settled _ _ (told s _ (runs s)) (told _ _ (runs _))).trans ?_
        rw [whoisHere_without_iff view unseen, and_iff_right two]
      · have runs : ∀ (s : Ircd) (fuel : Nat), s.m_whois view sptr fuel sptr parv =
            some [.reply sptr ERR_NONICKNAMEGIVEN []] := by
          intro s fuel
          unfold m_whois
          dsimp only
          rw [if_pos (by omega)]
        exact (settled _ _ (told s _ (runs s)) (told _ _ (runs _))).trans
          (iff_of_true rfl fun named => two named.1)

end

/-- A server with a stealth user ann, and bob here. -/
def sampleStealth : Ircd :=
  { Ircd.blank Ircd.sampleConf 1000 "home".toList with
    client := fun c =>
      match c with
      | 0 => bootClient "home".toList
      | 1 => Ircd.sampleServer
      | 2 => { Ircd.sampleUser with umodes := UMODE_STEALTH }
      | 3 => Ircd.sampleLocal
      | _ => .zero
    clientTable := (((Lib.ChainTable.empty.add (hashNickName "home".toList) 0).add
      (hashNickName "hub".toList) 1).add (hashNickName "ann".toList) 2).add (hashNickName "bob".toList) 3
    GlobalClientList := [3, 2, 1, 0] }

def sampleWhoView : WhoView where
  of _ := ⟨none, "info".toList, 0, none, 0, 0⟩
  is_silenced _ _ := false
  HideServerOnWhois := false
  HideServicesServer := false
  WhoisExtension := false
  last_used := 0

theorem sampleStealth_held {x : ClientId} (held : sampleStealth.Held x) : x < 4 := by
  have pushed : ∀ (t : Lib.ChainTable ClientId) (other : Nat) (e : ClientId),
      (∀ bucket, x ∈ t bucket → x < 4) → e < 4 → ∀ bucket, x ∈ (t.add other e) bucket → x < 4 := by
    intro t other e before small bucket inside
    unfold Lib.ChainTable.add at inside
    by_cases here : bucket = other
    · rw [here, Function.update_self] at inside
      rcases List.mem_cons.mp inside with rfl | inside
      · exact small
      · exact before _ inside
    · rw [Function.update_of_ne here] at inside
      exact before _ inside
  rcases held with inside | ⟨bucket, inside⟩
  · have all : ∀ x ∈ sampleStealth.GlobalClientList, x < 4 := by decide
    exact all x inside
  · have first := pushed _ (hashNickName "home".toList) 0 (fun _ none_ => absurd none_ List.not_mem_nil) (by decide)
    have second := pushed _ (hashNickName "hub".toList) 1 first (by decide)
    have third := pushed _ (hashNickName "ann".toList) 2 second (by decide)
    exact pushed _ (hashNickName "bob".toList) 3 third (by decide) bucket inside

/-- The clients of the sample, and the addresses where nobody is. -/
theorem sample_or (x : ClientId) :
    x = 0 ∨ x = 1 ∨ x = 2 ∨ x = 3 ∨ 4 ≤ x ∧ sampleStealth.client x = .zero := by
  rcases x with _ | _ | _ | _ | x
  · exact .inl rfl
  · exact .inr (.inl rfl)
  · exact .inr (.inr (.inl rfl))
  · exact .inr (.inr (.inr (.inl rfl)))
  · exact .inr (.inr (.inr (.inr ⟨Nat.le_add_left 4 x, rfl⟩)))

theorem sampleStealth_strings (x : ClientId) : NUL ∉ (sampleStealth.client x).name := by
  rcases sample_or x with rfl | rfl | rfl | rfl | rest
  · decide
  · decide
  · decide
  · decide
  · rw [rest.2]
    exact List.not_mem_nil

theorem sampleStealth_unseen : sampleStealth.Unseen 3 2 where
  person := rfl
  stealth := rfl
  other := by decide
  mine := rfl
  noOper := rfl
  alone x name held same sameUser := by
    -- the first letters of the names are apart
    have head : ∀ (d : Char) (rest : Text), (toUpper d).toNat ≠ 0 → irccmp name (d :: rest) = 0 →
        name.head?.map toUpper = some (toUpper d) := by
      intro d rest some_ zero
      cases name with
      | nil =>
        rw [irccmp] at zero
        omega
      | cons c t =>
        rw [irccmp] at zero
        by_cases code : (toUpper c).toNat = (toUpper d).toNat
        · exact congrArg some (Char.toNat_inj.mp code)
        · rw [if_neg (by omega)] at zero
          omega
    have user := head 'a' _ (by decide) sameUser
    rcases sample_or x with rfl | rfl | rfl | rfl | rest
    · exact absurd (user.symm.trans (head 'h' _ (by decide) same)) (by decide)
    · exact absurd (user.symm.trans (head 'h' _ (by decide) same)) (by decide)
    · rfl
    · exact absurd (user.symm.trans (head 'b' _ (by decide) same)) (by decide)
    · exact absurd (sampleStealth_held held) (Nat.not_lt.mpr rest.1)
  strings := sampleStealth_strings
  servers name x wild string found := by
    have plain : PtlinkIrcd.wilds (sampleStealth.client x).name = false := by
      rcases sample_or x with rfl | rfl | rfl | rfl | rest
      · decide
      · decide
      · decide
      · decide
      · rw [rest.2]
        rfl
    have stringX := sampleStealth_strings x
    exact absurd (wilds_of_irccmp string stringX plain (find_client_name found)) (by simp [wild])
  nick := by decide
  behind x same := by
    rcases sample_or x with rfl | rfl | rfl | rfl | rest
    · exact absurd same (by decide)
    · exact absurd same (by decide)
    · exact absurd same (by decide)
    · rfl
    · rw [rest.2] at same
      exact absurd same (by decide)
  once := by decide

/-- Bob asks for a channel. -/
theorem stealth_unseen_iff_channel :
    (∀ replies, sampleStealth.Told sampleWhoView 3 (.WHO ["bob".toList, "#c".toList]) replies ↔
        (sampleStealth.without 2).Told sampleWhoView 3 (.WHO ["bob".toList, "#c".toList]) replies) ↔
      ¬ sampleStealth.Betrays 3 2 (.WHO ["bob".toList, "#c".toList]) :=
  stealth_unseen_iff sampleStealth_unseen _ (by decide)

/-- **WHO with the nick** tells of the user. -/
theorem not_stealth_unseen : ¬ ∀ (s : Ircd) (view : WhoView) (sptr u : ClientId) (query : WhoQuery),
    s.Unseen sptr u → (∀ p ∈ query.parv, NUL ∉ p) →
      ∀ replies, s.Told view sptr query replies ↔ (s.without u).Told view sptr query replies := by
  intro all
  obtain ⟨fuel, sent, ended, same⟩ := (all sampleStealth sampleWhoView 3 2 (.WHO ["bob".toList, "ann".toList])
    sampleStealth_unseen (by decide) _).mp ⟨0, _, rfl, rfl⟩
  rw [← Option.some.inj ended] at same
  exact absurd (congrArg List.length same) (by decide +kernel)

end Ircd

end PtlinkIrcd
