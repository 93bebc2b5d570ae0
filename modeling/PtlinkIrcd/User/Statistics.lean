/-
**The user statistics over whole runs.**

* `UserEvent` — users come, change their modes and leave.
* `CountsOnce` — the events in which every user is counted once.
* `Sane.after` — such an event keeps the statistics and the tree.
* `run_tallied` — **the statistics are exact in every run of such events.**
-/

import PtlinkIrcd.Client.Tally
import PtlinkIrcd.User.OperStatus
import PtlinkIrcd.User.Register

set_option linter.unusedSectionVars false

namespace PtlinkIrcd

namespace Ircd

/-! ### Clients that come -/

section Come

variable {s t : Ircd} {u : ClientId} {x : Client}

theorem Rooted.unhung_of_free (rooted : s.Rooted) (free : s.client u = .zero) : s.Unhung u := by
  intro a serv has
  refine ⟨fun member => ?_, fun member => ?_⟩
  · have servptr := ((rooted.servers a serv has).2 u member).2.1
    rw [free] at servptr
    exact absurd servptr (by simp [Client.zero])
  · have servptr := ((rooted.users a serv has).2 u member).2
    rw [free] at servptr
    exact absurd servptr (by simp [Client.zero])

/-- **A new client, before its server lists it.** -/
theorem Rooted.addClient (rooted : s.Rooted) (free : s.Free u)
    (empty : ∀ serv, x.serv = some serv → serv.servers = [] ∧ serv.users = [])
    (own : x.myClient = true → x.servptr = some me ∧ ∀ v, x.link = some v → v = u) :
    (s.addClient u x).Rooted ∧ (s.addClient u x).Unhung u := by
  have unhung := rooted.unhung_of_free free.1
  have self : (s.addClient u x).client u = x := Function.update_self ..
  have others : ∀ v, v ≠ u → (s.addClient u x).client v = s.client v := fun v ne =>
    Function.update_of_ne ne ..
  have lists : ∀ a serv, ((s.addClient u x).client a).serv = some serv →
      (s.client a).serv = some serv ∨ serv.servers = [] ∧ serv.users = [] := by
    intro a serv has
    by_cases same : a = u
    · rw [same, self] at has
      exact .inr (empty serv has)
    · rw [others a same] at has
      exact .inl has
  refine ⟨⟨List.nodup_cons.mpr ⟨free.2, rooted.nodup⟩, fun v is_ => ?_, fun a serv has => ?_,
    fun a serv has => ?_, fun v mine => ?_⟩, fun a serv has => ?_⟩
  · by_cases same : v = u
    · exact same ▸ List.mem_cons_self
    · rw [others v same] at is_
      exact List.mem_cons_of_mem _ (rooted.listed v is_)
  · rcases lists a serv has with before | ⟨none_, _⟩
    · refine ⟨(rooted.servers a serv before).1, fun v member => ?_⟩
      rw [others v fun same => (unhung a serv before).1 (same ▸ member)]
      exact (rooted.servers a serv before).2 v member
    · rw [none_]
      exact ⟨List.nodup_nil, fun v member => absurd member List.not_mem_nil⟩
  · rcases lists a serv has with before | ⟨_, none_⟩
    · refine ⟨(rooted.users a serv before).1, fun v member => ?_⟩
      rw [others v fun same => (unhung a serv before).2 (same ▸ member)]
      exact (rooted.users a serv before).2 v member
    · rw [none_]
      exact ⟨List.nodup_nil, fun v member => absurd member List.not_mem_nil⟩
  · by_cases same : v = u
    · rw [same, self] at mine ⊢
      exact own mine
    · rw [others v same] at mine ⊢
      exact rooted.own v mine
  · rcases lists a serv has with before | ⟨noServers, noUsers⟩
    · exact unhung a serv before
    · rw [noServers, noUsers]
      exact ⟨List.not_mem_nil, List.not_mem_nil⟩

theorem linkServ_client (s : Ircd) (u v : ClientId) :
    (s.client v).CountsAs ((s.linkServ u).client v) ∧
      ((s.linkServ u).client v).servptr = (s.client v).servptr ∧
      ((s.linkServ u).client v).link = (s.client v).link := by
  unfold linkServ
  split
  · exact ⟨.refl _, rfl, rfl⟩
  · split
    · exact ⟨.refl _, rfl, rfl⟩
    · exact setServ_client ..

theorem linkServ_list (s : Ircd) (u : ClientId) :
    (s.linkServ u).GlobalClientList = s.GlobalClientList ∧ (s.linkServ u).count = s.count := by
  unfold linkServ
  split
  · exact ⟨rfl, rfl⟩
  · split <;> exact ⟨rfl, rfl⟩

theorem linkServ_serv {a : ClientId} {serv : Server}
    (has : ((s.linkServ u).client a).serv = some serv) : ∃ before,
      (s.client a).serv = some before ∧
      (serv = before ∨
        serv = (if (s.client u).isServer then { before with servers := u :: before.servers }
          else { before with users := u :: before.users }) ∧ (s.client u).servptr = some a) := by
  unfold linkServ at has
  split at has
  · exact ⟨serv, has, .inl rfl⟩
  · rename_i servptr some_
    split at has
    · exact ⟨serv, has, .inl rfl⟩
    · rename_i before hasServ
      by_cases self : a = servptr
      · rw [self, setClient_client_self] at has
        exact ⟨before, self ▸ hasServ, .inr ⟨(Option.some.inj has).symm, self ▸ some_⟩⟩
      · rw [setClient_client_of_ne s _ self] at has
        exact ⟨serv, has, .inl rfl⟩

/-- **A client gets onto the list of its server.** -/
theorem Rooted.linkServ (rooted : s.Rooted) (unhung : s.Unhung u)
    (notMe : (s.client u).isServer = true → u ≠ me) : (s.linkServ u).Rooted := by
  have client := linkServ_client s u
  have isServer : ∀ v, ((s.linkServ u).client v).isServer = (s.client v).isServer := fun v => by
    unfold Client.isServer
    rw [(client v).1.status]
  refine ⟨?_, fun v is_ => ?_, fun a serv has => ?_, fun a serv has => ?_, fun v mine => ?_⟩
  · rw [(linkServ_list s u).1]
    exact rooted.nodup
  · rw [(linkServ_list s u).1]
    exact rooted.listed v ((client v).1.isClient ▸ is_)
  · obtain ⟨before, had, change⟩ := linkServ_serv has
    obtain ⟨nodup, servers⟩ := rooted.servers a before had
    have old : ∀ v ∈ before.servers, ((s.linkServ u).client v).isServer = true ∧
        ((s.linkServ u).client v).servptr = some a ∧ v ≠ me := fun v member => by
      obtain ⟨server, servptr, ne⟩ := servers v member
      exact ⟨(isServer v).trans server, (client v).2.1.trans servptr, ne⟩
    rcases change with rfl | ⟨rfl, here⟩
    · exact ⟨nodup, old⟩
    · split
      · rename_i server
        refine ⟨List.nodup_cons.mpr ⟨(unhung a before had).1, nodup⟩, fun v member => ?_⟩
        rcases List.mem_cons.mp member with rfl | member
        · exact ⟨(isServer v).trans server, (client v).2.1.trans here, notMe server⟩
        · exact old v member
      · exact ⟨nodup, old⟩
  · obtain ⟨before, had, change⟩ := linkServ_serv has
    obtain ⟨nodup, users⟩ := rooted.users a before had
    have old : ∀ v ∈ before.users, ((s.linkServ u).client v).isServer = false ∧
        ((s.linkServ u).client v).servptr = some a := fun v member => by
      obtain ⟨user, servptr⟩ := users v member
      exact ⟨(isServer v).trans user, (client v).2.1.trans servptr⟩
    rcases change with rfl | ⟨rfl, here⟩
    · exact ⟨nodup, old⟩
    · split
      · exact ⟨nodup, old⟩
      · rename_i user
        refine ⟨List.nodup_cons.mpr ⟨(unhung a before had).2, nodup⟩, fun v member => ?_⟩
        rcases List.mem_cons.mp member with rfl | member
        · exact ⟨(isServer v).trans (Bool.eq_false_iff.mpr user), (client v).2.1.trans here⟩
        · exact old v member
  · obtain ⟨servptr, link⟩ := rooted.own v ((client v).1.myClient ▸ mine)
    exact ⟨(client v).2.1.trans servptr, fun w is_ => link w ((client v).2.2 ▸ is_)⟩

/-- **A client that is counted when it comes.** -/
theorem Sane.come (sane : Sane 0 s) (free : s.Free u) (rooted : t.Rooted)
    (list : t.GlobalClientList = u :: s.GlobalClientList)
    (others : ∀ v, v ≠ u → (s.client v).CountsAs (t.client v))
    (total : t.count.total = s.count.total + weight (fun _ => true) (t.client u))
    (local_ : t.count.local_ = s.count.local_ + weight Client.myConnect (t.client u))
    (oper : t.count.oper = s.count.oper + weight Client.isAnOper (t.client u))
    (invisi : t.count.invisi = s.count.invisi + weight Client.isInvisible (t.client u)) :
    Sane 0 t := by
  have more : ∀ p, CountTest p → (t.usersThat p : Int) = s.usersThat p + weight p (t.client u) :=
    fun p test => usersThat_cons test free.2 list others
  obtain ⟨wasTotal, wasLocal, wasOper, wasInvisi⟩ := sane.tallied
  refine ⟨⟨?_, ?_, ?_, ?_⟩, rooted⟩
  · rw [more _ Client.countTest_all, total, wasTotal]
  · rw [more _ Client.countTest_myConnect, local_, ← wasLocal]
    omega
  · rw [more _ Client.countTest_isAnOper, oper, wasOper]
  · rw [more _ Client.countTest_isInvisible, invisi, wasInvisi]

theorem setServptr_addClient (s : Ircd) (u servptr : ClientId) (x : Client) :
    (s.addClient u x).setServptr u servptr =
      (s.addClient u { x with servptr := some servptr }).linkServ u := by
  unfold setServptr Ircd.addClient setClient
  simp only [Function.update_self, Function.update_idem]

theorem linked_counts (s : Ircd) (u : ClientId) (x : Client) :
    (∀ v, v ≠ u → (s.client v).CountsAs (((s.addClient u x).linkServ u).client v)) ∧
      x.CountsAs (((s.addClient u x).linkServ u).client u) := by
  refine ⟨fun v ne => ?_, ?_⟩
  · have linked := (linkServ_client (s.addClient u x) u v).1
    unfold Ircd.addClient at linked
    simp only [Function.update_of_ne ne] at linked
    exact linked
  · have linked := (linkServ_client (s.addClient u x) u u).1
    unfold Ircd.addClient at linked
    simp only [Function.update_self] at linked
    exact linked

theorem weight_of_countsAs {x y : Client} {p : Client → Bool} (test : CountTest p)
    (same : x.CountsAs y) : weight p y = weight p x := by
  unfold weight
  rw [same.isClient, test _ _ same]

theorem weight_of_isClient {y : Client} (isClient : y.isClient = true) (p : Client → Bool) :
    weight p y = (p y).toInt := by
  unfold weight
  rw [isClient, Bool.true_and]

/-- **A new user on its server**; the statistics are written before and after. -/
theorem Sane.comeUser (sane : Sane 0 s) (free : s.Free u) (servptr : ClientId) (before after : Count)
    (isClient : x.isClient = true) (noServ : x.serv = none)
    (own : x.myConnect = true → servptr = me ∧ x.link = some u)
    (total : after.total = s.count.total + 1)
    (local_ : after.local_ = s.count.local_ + x.myConnect.toInt)
    (oper : after.oper = s.count.oper + x.isAnOper.toInt)
    (invisi : after.invisi = s.count.invisi + x.isInvisible.toInt) :
    Sane 0 ((((s.setCount before).addClient u x).setServptr u servptr).setCount after) := by
  rw [setServptr_addClient]
  have hung : x.CountsAs { x with servptr := some servptr } := ⟨rfl, rfl, rfl⟩
  generalize block : ({ x with servptr := some servptr } : Client) = y at hung
  have yServ : y.serv = none := by rw [← block]; exact noServ
  have yServptr : y.servptr = some servptr := by rw [← block]
  have yLink : y.link = x.link := by rw [← block]
  have rooted : (s.setCount before).Rooted := sane.rooted.congr rfl fun _ => .refl _
  obtain ⟨rooted, unhung⟩ := rooted.addClient (x := y) free
    (fun serv has => absurd (yServ.symm.trans has) (by simp)) fun mine => by
      rw [hung.myClient] at mine
      unfold Client.myClient at mine
      obtain ⟨here, link⟩ := own (Bool.and_eq_true _ _ ▸ mine).1
      rw [yServptr, yLink, here]
      exact ⟨rfl, fun v is_ => Option.some.inj (is_.symm.trans link)⟩
  obtain ⟨others, self⟩ := linked_counts (s.setCount before) u y
  have linked := rooted.linkServ unhung fun server => by
    have added : ((s.setCount before).addClient u y).client u = y := Function.update_self ..
    rw [added] at server
    unfold Client.isServer at server
    unfold Client.isClient at isClient
    rw [hung.status, of_decide_eq_true isClient] at server
    exact absurd server (by decide)
  have list := (linkServ_list ((s.setCount before).addClient u y) u).1
  generalize ((s.setCount before).addClient u y).linkServ u = t at others self linked list
  have counts : x.CountsAs (t.client u) :=
    ⟨self.status.trans hung.status, self.umodes.trans hung.umodes,
      self.local_flag.trans hung.local_flag⟩
  have same : ∀ p, CountTest p → weight p (t.client u) = (p x).toInt := fun p test => by
    rw [weight_of_countsAs test counts, weight_of_isClient isClient]
  refine sane.come free (linked.congr rfl fun _ => .refl _) list others ?_ ?_ ?_ ?_
  · exact total.trans (congrArg _ (same _ Client.countTest_all).symm)
  · exact local_.trans (congrArg _ (same _ Client.countTest_myConnect).symm)
  · exact oper.trans (congrArg _ (same _ Client.countTest_isAnOper).symm)
  · exact invisi.trans (congrArg _ (same _ Client.countTest_isInvisible).symm)

/-- **A local user whose registration is complete.** -/
theorem Sane.register_user (sane : Sane 0 s) (u : ClientId) (name username host : Text)
    (ssl : Bool) : Sane 0 (s.register_user u name username host ssl) := by
  unfold Ircd.register_user
  split
  · rename_i free
    have marks : (localUser u name username host s.meName ssl).isAnOper = false ∧
        (localUser u name username host s.meName ssl).isInvisible = true := by
      have umodes : (localUser u name username host s.meName ssl).umodes =
        (if ssl then UMODE_SSL else 0) ||| UMODE_INVISIBLE := rfl
      unfold Client.isAnOper Client.isInvisible
      rw [umodes]
      cases ssl <;> decide
    refine sane.comeUser free me s.count _ rfl rfl (fun _ => ⟨rfl, rfl⟩) rfl rfl ?_ ?_
    · rw [marks.1]
      exact (Int.add_zero _).symm
    · simp only [marks.2, if_true]
      rfl
  · exact sane

/-! ### Users of other servers -/

/-- The letters of an introduction count its user once: no `i` or `o` is repeated, and who is a
local operator is an operator. -/
def LettersCountOnce (modes : Text) : Prop :=
  (modes.drop 1).count 'i' ≤ 1 ∧ (modes.drop 1).count 'o' ≤ 1 ∧
    ('O' ∈ modes.drop 1 → 'o' ∈ modes.drop 1)

instance (modes : Text) : Decidable (LettersCountOnce modes) := by
  unfold LettersCountOnce
  infer_instance

theorem bitmask_has {flag : Flags} {letter : Char}
    (table : ∀ p ∈ userModeBits, p.2.has flag = decide (p.1 = letter))
    (known : userModeBits.lookup letter ≠ none) (c : Char) :
    (user_modes_from_c_to_bitmask c).has flag = decide (c = letter) := by
  unfold user_modes_from_c_to_bitmask
  cases found : userModeBits.lookup c with
  | some word => exact table (c, word) (mem_of_lookup found)
  | none =>
    have other : c ≠ letter := fun same => known (same ▸ found)
    rw [decide_eq_false other]
    exact Flags.zero_has flag

theorem nickLetters_has {flag : Flags} {letter : Char}
    (table : ∀ p ∈ userModeBits, p.2.has flag = decide (p.1 = letter))
    (known : userModeBits.lookup letter ≠ none) (told : ALL_UMODES &&& flag = flag) (t : Text)
    (m : NickModes) : (t.foldl nickLetter m).umodes.has flag =
      (m.umodes.has flag || decide (letter ∈ t)) := by
  induction t generalizing m with
  | nil => simp
  | cons c t ih =>
    rw [List.foldl_cons, ih]
    have step : (nickLetter m c).umodes.has flag = (m.umodes.has flag || decide (c = letter)) := by
      unfold nickLetter
      simp only []
      rw [Flags.or_has, Flags.and_has told, bitmask_has table known]
    rw [step, Bool.or_assoc]
    congr 1
    by_cases same : c = letter
    · simp [same]
    · simp [same, Ne.symm same]

theorem nickLetters_counts (t : Text) (m : NickModes) :
    (t.foldl nickLetter m).invisi = m.invisi + t.count 'i' ∧
      (t.foldl nickLetter m).oper = m.oper + t.count 'o' := by
  have invisi : ∀ c, (user_modes_from_c_to_bitmask c).has UMODE_INVISIBLE = decide (c = 'i') :=
    bitmask_has (by decide) (by decide)
  have oper : ∀ c, (user_modes_from_c_to_bitmask c).has UMODE_OPER = decide (c = 'o') :=
    bitmask_has (by decide) (by decide)
  induction t generalizing m with
  | nil => simp
  | cons c t ih =>
    rw [List.foldl_cons, (ih _).1, (ih _).2, List.count_cons, List.count_cons]
    unfold nickLetter
    simp only [invisi, oper, decide_eq_true_eq]
    by_cases i : c = 'i'
    · simp [i]
      omega
    · by_cases o : c = 'o'
      · simp [o]
        omega
      · simp [i, o]

theorem nickModes_countOnce {modes : Text} (once : LettersCountOnce modes) :
    (nickModes modes).invisi = ((nickModes modes).umodes.has UMODE_INVISIBLE).toInt ∧
      (nickModes modes).oper = ((nickModes modes).umodes.has (UMODE_OPER ||| UMODE_LOCOP)).toInt := by
  obtain ⟨invisible, oper, locop⟩ := once
  unfold nickModes
  generalize modes.drop 1 = t at invisible oper locop ⊢
  have tableI : ∀ p ∈ userModeBits, p.2.has UMODE_INVISIBLE = decide (p.1 = 'i') := by decide
  have tableO : ∀ p ∈ userModeBits, p.2.has UMODE_OPER = decide (p.1 = 'o') := by decide
  have tableL : ∀ p ∈ userModeBits, p.2.has UMODE_LOCOP = decide (p.1 = 'O') := by decide
  rw [(nickLetters_counts t _).1, (nickLetters_counts t _).2, Flags.has_or,
    nickLetters_has tableI (by decide) (by decide), nickLetters_has tableO (by decide) (by decide),
    nickLetters_has tableL (by decide) (by decide)]
  show 0 + _ = (Flags.has 0#32 _ || _).toInt ∧
    0 + _ = ((Flags.has 0#32 _ || _) || (Flags.has 0#32 _ || _)).toInt
  rw [Flags.zero_has, Flags.zero_has, Flags.zero_has, Bool.false_or, Bool.false_or, Bool.false_or]
  have countOnce : ∀ c : Char, t.count c ≤ 1 → (t.count c : Int) = (decide (c ∈ t)).toInt := by
    intro c once
    by_cases member : c ∈ t
    · have some_ := List.count_pos_iff.mpr member
      simp [member]
      omega
    · simp [member, List.count_eq_zero_of_not_mem]
  have both : (decide ('o' ∈ t) || decide ('O' ∈ t)) = decide ('o' ∈ t) := by
    by_cases member : 'O' ∈ t
    · simp [member, locop member]
    · simp [member]
  rw [both, ← countOnce 'i' invisible, ← countOnce 'o' oper, Int.zero_add, Int.zero_add]
  exact ⟨rfl, rfl⟩

theorem find_client_added (free : s.Free u) {name : Text} (some_ : irccmp name [] ≠ 0)
    (found : (s.find_client name).isSome = true) :
    ((s.addClient u x).find_client name).isSome = true := by
  refine Lib.ChainTable.isSome_find_add found (fun v same => ?_) u
  have ne : v ≠ u := by
    rintro rfl
    rw [free.1] at same
    exact some_ (of_decide_eq_true same)
  show decide (irccmp name (Function.update s.client u x v).name = 0) = true
  rw [Function.update_of_ne ne]
  exact same

theorem find_server_added (free : s.Free u) {name : Text}
    (known : (s.find_server name).isSome = true) :
    ((s.addClient u x).find_server name).isSome = true := by
  unfold find_server at known ⊢
  rw [Option.isSome_or, Bool.or_eq_true] at known ⊢
  refine known.imp (fun found => ?_) fun masked => ?_
  · refine Lib.ChainTable.isSome_find_add found (fun v same => ?_) u
    have ne : v ≠ u := by
      rintro rfl
      rw [free.1] at same
      exact absurd same (by simp [Client.zero, Client.isServer, Client.isMe])
    show (((Function.update s.client u x v).isServer || (Function.update s.client u x v).isMe) &&
      decide (irccmp name (Function.update s.client u x v).name = 0)) = true
    rw [Function.update_of_ne ne]
    exact same
  · unfold hash_find_masked_server at masked ⊢
    by_cases plain : name.head? = some '*' ∨ name.head? = some '.'
    · rw [if_pos plain] at masked
      exact absurd masked (by simp)
    · rw [if_neg plain, List.findSome?_isSome_iff] at masked ⊢
      obtain ⟨t, member, found⟩ := masked
      have some_ : irccmp ('*' :: t) [] ≠ 0 := by
        show ((toUpper '*').toNat : Int) ≠ 0
        decide
      exact ⟨t, member, find_client_added free some_ found⟩

theorem Sane.killUser (sane : Sane 0 s) (user : (s.client u).isServer = false) (event : Sent)
    (cptr : Option ClientId) (source : ClientId) (comment : Text) :
    Sane 0 (((s.send event).setKilled u).exit_client cptr u source comment) := by
  have mild : Mild s ((s.send event).setKilled u) := (Mild.send ..).trans (.setKilled ..)
  refine (sane.mild mild).exit_client (fun server => ?_) ..
  exact absurd (((mild.client u).isServer.trans user).symm.trans server) Bool.false_ne_true

/-- **A user that a server introduces**, with letters that count once and a server that is known. -/
theorem Sane.nickkilldone (sane : Sane 0 s) (cptr u : ClientId)
    (nick modes username realhost host server : Text) (newts : Int)
    (once : LettersCountOnce modes) (known : (s.find_server server).isSome = true) :
    Sane 0 (s.nickkilldone cptr u nick modes username realhost host server newts) := by
  unfold Ircd.nickkilldone
  split
  · rename_i free
    obtain ⟨invisi, oper⟩ := nickModes_countOnce once
    simp only []
    generalize nickModes modes = m at invisi oper ⊢
    generalize block : remoteUser cptr nick username realhost host server newts m.umodes = x
    have marks : x.isClient = true ∧ x.serv = none ∧ x.myConnect = false ∧ x.umodes = m.umodes := by
      rw [← block]
      exact ⟨rfl, rfl, rfl, rfl⟩
    obtain ⟨isClient, noServ, notMine, umodes⟩ := marks
    have found := find_server_added (x := x) (s := s.setCount (countLetters s.count m)) free known
    unfold registerRemote
    obtain ⟨servptr, found⟩ := Option.isSome_iff_exists.mp found
    rw [found]
    simp only []
    have come := sane.comeUser (x := x) free servptr (countLetters s.count m)
      { countLetters s.count m with total := s.count.total + 1 } isClient noServ
      (fun mine => absurd (notMine.symm.trans mine) Bool.false_ne_true) rfl
      (by rw [notMine]; exact (Int.add_zero _).symm)
      (by unfold Client.isAnOper; rw [umodes, ← oper]; rfl)
      (by unfold Client.isInvisible; rw [umodes, ← invisi]; rfl)
    split
    · refine come.killUser (Client.not_isServer_of_isClient ?_) ..
      have counts := (linked_counts (s.setCount (countLetters s.count m)) u
        { x with servptr := some servptr }).2
      rw [← setServptr_addClient] at counts
      exact counts.isClient.trans isClient
    · exact come
  · exact sane

/-! ### Servers -/

theorem Sane.addServer (sane : Sane 0 s) (notMe : u ≠ me) (cptr servptr : ClientId) (name : Text)
    (service : Bool) : Sane 0 (s.addServer u cptr servptr name service) := by
  unfold Ircd.addServer
  split
  · rename_i free
    generalize block : serverBlock u cptr servptr name (s.client servptr).name service = x
    have notClient : x.isClient = false := by
      rw [← block]
      rfl
    have empty : ∀ serv, x.serv = some serv → serv.servers = [] ∧ serv.users = [] := by
      rw [← block]
      intro serv has
      cases has
      exact ⟨rfl, rfl⟩
    obtain ⟨rooted, unhung⟩ := sane.rooted.addClient free empty fun mine => by
      unfold Client.myClient at mine
      rw [notClient, Bool.and_false] at mine
      exact absurd mine Bool.false_ne_true
    obtain ⟨others, self⟩ := linked_counts s u x
    obtain ⟨list, count⟩ := linkServ_list (s.addClient u x) u
    have none_ : ∀ p, weight p (((s.addClient u x).linkServ u).client u) = 0 := fun p => by
      unfold weight
      rw [self.isClient, notClient, Bool.false_and]
      rfl
    refine sane.come free (rooted.linkServ unhung fun _ => notMe) list others ?_ ?_ ?_ ?_ <;>
      rw [none_, Int.add_zero, count] <;> rfl
  · exact sane

end Come

/-! ### Users that change -/

section Change

variable {s t : Ircd} {u : ClientId}

/-- **A listed user whose modes change.** -/
theorem Sane.recount (sane : Sane 0 s) (isClient : (s.client u).isClient = true)
    (list : t.GlobalClientList = s.GlobalClientList)
    (others : ∀ v, v ≠ u → t.client v = s.client v)
    (self : (s.client u).HangsAs (t.client u)) (total : t.count.total = s.count.total)
    (local_ : t.count.local_ = s.count.local_)
    (oper : t.count.oper = s.count.oper - (s.client u).isAnOper.toInt + (t.client u).isAnOper.toInt)
    (invisi : t.count.invisi = s.count.invisi - (s.client u).isInvisible.toInt +
      (t.client u).isInvisible.toInt) : Sane 0 t := by
  have listed := sane.rooted.listed u isClient
  have change : ∀ p, CountTest p → (t.usersThat p : Int) =
      s.usersThat p - (p (s.client u)).toInt + (p (t.client u)).toInt := fun p test => by
    have moved := usersThat_update test sane.rooted.nodup listed list fun v ne => by
      rw [others v ne]
      exact .refl _
    rwa [weight_of_isClient isClient, weight_of_isClient (self.isClient.trans isClient)] at moved
  obtain ⟨wasTotal, wasLocal, wasOper, wasInvisi⟩ := sane.tallied
  have sameLocal : (t.client u).myConnect = (s.client u).myConnect := self.local_flag
  refine ⟨⟨?_, ?_, ?_, ?_⟩, sane.rooted.congr list fun v => ?_⟩
  · rw [change _ Client.countTest_all, total, wasTotal]
    omega
  · rw [change _ Client.countTest_myConnect, local_, sameLocal, ← wasLocal]
    omega
  · rw [change _ Client.countTest_isAnOper, oper, wasOper]
  · rw [change _ Client.countTest_isInvisible, invisi, wasInvisi]
  · by_cases same : v = u
    · exact same ▸ self
    · rw [others v same]
      exact .refl _

theorem mild_log (s : Ircd) (sent : List Sent) : Mild s { s with sent := sent } := .same rfl rfl rfl

theorem isClient_of_find_person {name : Text} (found : s.find_person name = some u) :
    (s.client u).isClient = true := by
  have person := (Option.filter_eq_some_iff.mp found).2
  unfold Client.isPerson at person
  exact (Bool.and_eq_true _ _ ▸ person).1

theorem keptModes_isAnOper (umodes : Flags) :
    (keptModes umodes).has (UMODE_OPER ||| UMODE_LOCOP) =
      umodes.has (UMODE_OPER ||| UMODE_LOCOP) := by
  obtain ⟨oper, locop⟩ := keptModes_status umodes
  rw [Flags.has_or, Flags.has_or, oper, locop]

/-- A MODE whose letters count an operator once. -/
def UmodeCountsOnce (s : Ircd) (cptr sptr : ClientId) (parv : List Text) : Prop :=
  s.RewritesModes sptr parv → (s.client cptr).isServer = true →
    countsTwice false (s.client sptr).isOper ((s.client sptr).umodes.has UMODE_LOCOP) true
      (parv.drop 2).flatten = false

/-- **A MODE of a user about itself.** -/
theorem Sane.user_mode (sane : Sane 0 s) {cptr sptr : ClientId} {parv : List Text}
    (once : s.UmodeCountsOnce cptr sptr parv) : Sane 0 (s.user_mode cptr sptr parv) := by
  by_cases written : s.RewritesModes sptr parv
  · have isClient := isClient_of_find_person written.2
    obtain ⟨sent, same⟩ := user_mode_eq cptr written (Client.not_isServer_of_isClient isClient)
    have count := letters_count (userModeLetter_add (s.client cptr).isServer
      ((s.client cptr).myClient && !(s.client cptr).isIdentified) (s.client sptr).myConnect)
      (userModeLetter_status _ _ _) (parv.drop 2).flatten
      ⟨true, (s.client sptr).umodes, false, s.count.oper, (s.client sptr).flags2⟩ (once written)
    have letters : s.userModeLetters cptr sptr parv = (parv.drop 2).flatten.foldl
        (userModeLetter (s.client cptr).isServer
          ((s.client cptr).myClient && !(s.client cptr).isIdentified) (s.client sptr).myConnect)
        ⟨true, (s.client sptr).umodes, false, s.count.oper, (s.client sptr).flags2⟩ := rfl
    rw [← letters] at count
    rw [same]
    generalize s.userModeLetters cptr sptr parv = m at count ⊢
    have block : ((s.setUserMode sptr m).client sptr).umodes = keptModes m.umodes ∧
        (s.client sptr).HangsAs ((s.setUserMode sptr m).client sptr) := by
      unfold setUserMode
      show (Function.update s.client sptr _ sptr).umodes = _ ∧
        (s.client sptr).HangsAs (Function.update s.client sptr _ sptr)
      rw [Function.update_self]
      exact ⟨rfl, ⟨rfl, rfl, rfl, rfl, fun _ => id⟩⟩
    refine sane.recount (u := sptr) isClient rfl (fun v ne => ?_) block.2 rfl rfl ?_ ?_
    · show Function.update s.client sptr _ v = _
      exact Function.update_of_ne ne ..
    · show m.oper = s.count.oper - _ + ((s.setUserMode sptr m).client sptr).isAnOper.toInt
      unfold Client.isAnOper
      rw [block.1, keptModes_isAnOper]
      unfold UserModeState.operators at count
      simp only [] at count
      omega
    · show s.count.invisi + _ - _ =
        s.count.invisi - _ + ((s.setUserMode sptr m).client sptr).isInvisible.toInt
      unfold Client.isInvisible
      rw [block.1]
      cases (s.client sptr).umodes.has UMODE_INVISIBLE <;>
        cases (keptModes m.umodes).has UMODE_INVISIBLE <;> simp
  · obtain ⟨sent, same⟩ := user_mode_unwritten cptr written
    rw [same]
    exact sane.mild (mild_log s sent)

/-- Whether an SVSMODE writes the modes of a user. -/
def WritesSvs (s : Ircd) (cptr sptr : ClientId) (parv : List Text) (acptr : ClientId) : Prop :=
  let params := svsParams parv
  ((s.client cptr).isServer = true ∧ (s.client sptr).isService = true) ∧ 4 ≤ params.length ∧
    s.find_person (params.getD 1 []) = some acptr ∧ (s.client acptr).myClient = true ∧
    (atol (params.getD 2 []) = 0 ∨ atol (params.getD 2 []) = (s.client acptr).tsinfo)

/-- An SVSMODE whose letters count an operator once and leave the invisible mode. -/
def SvsmodeCountsOnce (s : Ircd) (cptr sptr : ClientId) (parv : List Text) : Prop :=
  ∀ acptr, s.WritesSvs cptr sptr parv acptr →
    let x := s.client acptr
    let letters := (svsParams parv).getD 3 []
    countsTwice true x.isOper (x.umodes.has UMODE_LOCOP) true letters = false ∧
      (lastSign 'i' true letters).getD x.isInvisible = x.isInvisible

theorem Sane.svsLetters (sane : Sane 0 s) {acptr : ClientId}
    (isClient : (s.client acptr).isClient = true) (letters : Text)
    (once : countsTwice true (s.client acptr).isOper ((s.client acptr).umodes.has UMODE_LOCOP) true
      letters = false)
    (invisible : (lastSign 'i' true letters).getD (s.client acptr).isInvisible =
      (s.client acptr).isInvisible) :
    let x := s.client acptr
    let m := letters.foldl svsModeLetter ⟨true, x.umodes, false, s.count.oper, x.flags2⟩
    Sane 0 ((s.setClient acptr { x with umodes := m.umodes, flags2 := m.flags2 }).setCountOper
      m.oper) := by
  intro x m
  have count := letters_count svsModeLetter_add svsModeLetter_status
    letters ⟨true, x.umodes, false, s.count.oper, x.flags2⟩ fun _ => once
  have stays := svsLetters_invisible letters ⟨true, x.umodes, false, s.count.oper, x.flags2⟩
  change m.oper - s.count.oper = m.operators - _ at count
  change m.umodes.has UMODE_INVISIBLE = (lastSign 'i' true letters).getD x.isInvisible at stays
  generalize m = m at count stays ⊢
  refine sane.recount (u := acptr) isClient rfl
    (fun v ne => setClient_client_of_ne s _ ne) ?_ rfl rfl ?_ ?_
  · show x.HangsAs ((s.setClient acptr _).client acptr)
    rw [setClient_client_self]
    exact ⟨rfl, rfl, rfl, rfl, fun _ => id⟩
  · show m.oper = s.count.oper - _ + ((s.setClient acptr _).client acptr).isAnOper.toInt
    rw [setClient_client_self]
    unfold UserModeState.operators at count
    unfold Client.isAnOper
    have same : x.umodes = (s.client acptr).umodes := rfl
    simp only [same] at count ⊢
    omega
  · show s.count.invisi = s.count.invisi - x.isInvisible.toInt +
      ((s.setClient acptr _).client acptr).isInvisible.toInt
    rw [setClient_client_self]
    unfold Client.isInvisible at stays invisible ⊢
    simp only []
    rw [stays]
    have same : x.umodes = (s.client acptr).umodes := rfl
    rw [same, invisible]
    omega

/-- **An SVSMODE.** -/
theorem Sane.m_svsmode (sane : Sane 0 s) {cptr sptr : ClientId} {parv : List Text}
    (once : s.SvsmodeCountsOnce cptr sptr parv) : Sane 0 (s.m_svsmode cptr sptr parv) := by
  have log : ∀ p event, Sane 0 (s.sendIf p event) := fun p event => sane.mild (.sendIf ..)
  unfold Ircd.m_svsmode
  split
  · exact log ..
  · rename_i allowed
    simp only []
    split
    · exact sane
    · rename_i long
      split
      · exact sane
      · rename_i acptr found
        split
        · rename_i mine
          split
          · exact sane.mild (.send ..)
          · rename_i stamp
            have writes : s.WritesSvs cptr sptr parv acptr := by
              refine ⟨?_, by omega, found, mine, ?_⟩
              · simpa using allowed
              · by_contra other
                rw [not_or] at other
                refine stamp ?_
                rw [Bool.and_eq_true, decide_eq_true_eq, decide_eq_true_eq]
                exact other
            obtain ⟨letters, invisible⟩ := once acptr writes
            have rewritten := sane.svsLetters (isClient_of_find_person found) _ letters invisible
            obtain ⟨sent, same⟩ := send_umode_out_eq (((s.setClient acptr
              { s.client acptr with
                umodes := (((svsParams parv).getD 3 []).foldl svsModeLetter ⟨true,
                  (s.client acptr).umodes, false, s.count.oper, (s.client acptr).flags2⟩).umodes
                flags2 := (((svsParams parv).getD 3 []).foldl svsModeLetter ⟨true,
                  (s.client acptr).umodes, false, s.count.oper, (s.client acptr).flags2⟩).flags2
                  }).setCountOper (((svsParams parv).getD 3 []).foldl svsModeLetter ⟨true,
                  (s.client acptr).umodes, false, s.count.oper, (s.client acptr).flags2⟩).oper))
              acptr acptr (s.client acptr).umodes
            rw [same]
            exact rewritten.mild (mild_log _ sent)
        · exact log ..

/-- An OPER that counts once: its source is a user, the status is given here, and the modes of the
operator line do not make a visible user invisible. -/
def OperCountsOnce (s : Ircd) (cptr sptr : ClientId) (aconf : Option OperConf) : Prop :=
  (s.client sptr).isClient = true ∧
    ((s.client sptr).isOper = true ∨
      (s.client cptr).isServer = false ∧ (s.client cptr).isMe = false) ∧
    ∀ line, aconf = some line → line.umodes.has UMODE_INVISIBLE = true →
      (s.client sptr).isInvisible = true

/-- **An OPER.** -/
theorem Sane.m_oper (sane : Sane 0 s) {cptr sptr : ClientId} {aconf : Option OperConf}
    (once : s.OperCountsOnce cptr sptr aconf) : Sane 0 (s.m_oper cptr sptr aconf) := by
  obtain ⟨isClient, here, invisible⟩ := once
  unfold Ircd.m_oper
  simp only []
  split
  · rename_i remote
    rw [Bool.and_eq_true, Bool.or_eq_true, Bool.not_eq_true'] at remote
    rcases here with oper | ⟨server, isMe⟩
    · exact absurd (remote.2.symm.trans oper) Bool.false_ne_true
    · rcases remote.1 with other | other
      · exact absurd (server.symm.trans other) Bool.false_ne_true
      · exact absurd (isMe.symm.trans other) Bool.false_ne_true
  · split
    · exact sane
    · rename_i notOper
      cases aconf with
      | none => exact sane
      | some aconf =>
        simp only []
        obtain ⟨sent, same⟩ := send_umode_out_eq ((s.setClient sptr { s.client sptr with
          umodes := (s.client sptr).umodes ||| aconf.umodes
          flags2 := (s.client sptr).flags2 ||| aconf.privs }).setCount
            { s.count with oper := s.count.oper + 1 }) cptr sptr ((s.client sptr).umodes &&& ALL_UMODES)
        rw [same]
        refine Sane.mild ?_ (mild_log _ sent)
        refine sane.recount (u := sptr) isClient rfl
          (fun v ne => setClient_client_of_ne s _ ne) ?_ rfl rfl ?_ ?_
        · show (s.client sptr).HangsAs ((s.setClient sptr _).client sptr)
          rw [setClient_client_self]
          exact ⟨rfl, rfl, rfl, rfl, fun _ => id⟩
        · show s.count.oper + 1 = s.count.oper - (s.client sptr).isAnOper.toInt +
            ((s.setClient sptr _).client sptr).isAnOper.toInt
          rw [setClient_client_self, Bool.eq_false_iff.mpr notOper]
          have given : (Flags.has ((s.client sptr).umodes ||| aconf.umodes)
              (UMODE_OPER ||| UMODE_LOCOP)) = true := by
            rw [Flags.or_has, aconf.umodes_isAnOper, Bool.or_true]
          unfold Client.isAnOper
          simp only [given]
          show _ = s.count.oper - 0 + 1
          omega
        · show s.count.invisi = s.count.invisi - (s.client sptr).isInvisible.toInt +
            ((s.setClient sptr _).client sptr).isInvisible.toInt
          rw [setClient_client_self]
          have stays : Flags.has ((s.client sptr).umodes ||| aconf.umodes) UMODE_INVISIBLE =
              (s.client sptr).umodes.has UMODE_INVISIBLE := by
            rw [Flags.or_has]
            have implied := invisible aconf rfl
            unfold Client.isInvisible at implied
            cases set : aconf.umodes.has UMODE_INVISIBLE with
            | false => rw [Bool.or_false]
            | true => rw [implied set, Bool.true_or]
          unfold Client.isInvisible
          simp only [stays]
          omega

/-- An SVSADMIN that takes a status from nobody: who is on the list of operators is a user, and no
operator any more. -/
def NoopersCountOnce (s : Ircd) (cptr sptr : ClientId) (operators : List ClientId) : Prop :=
  (s.client cptr).isServer = true → (s.client sptr).isService = true → ∀ u ∈ operators,
    (s.client u).isClient = true ∧ (s.client u).isAnOper = false

theorem noOper_eq (s : Ircd) (u : ClientId) : ∃ sent, s.noOper u =
    { s.setClient u { s.client u with umodes := (s.client u).umodes &&& USER_UMODES } with
      sent := sent } :=
  send_umode_out_eq ..

/-- **A user that is no operator, and keeps the modes of a user.** -/
theorem Sane.noOper (sane : Sane 0 s) (isClient : (s.client u).isClient = true)
    (notOper : (s.client u).isAnOper = false) : Sane 0 (s.noOper u) ∧ ∀ v,
      (s.client v).isClient = true → (s.client v).isAnOper = false →
        ((s.noOper u).client v).isClient = true ∧ ((s.noOper u).client v).isAnOper = false := by
  obtain ⟨sent, same⟩ := s.noOper_eq u
  rw [same]
  generalize block : ({ s.client u with umodes := (s.client u).umodes &&& USER_UMODES } : Client) = x
  have hangs : (s.client u).HangsAs x := by
    rw [← block]
    exact ⟨rfl, rfl, rfl, rfl, fun _ => id⟩
  have cut : x.umodes = (s.client u).umodes &&& USER_UMODES := by rw [← block]
  have still : x.isAnOper = false := by
    unfold Client.isAnOper
    rw [cut]
    exact Flags.and_has_of_disjoint (by decide) _
  have visible : x.isInvisible = (s.client u).isInvisible := by
    unfold Client.isInvisible
    rw [cut]
    exact Flags.and_has (by decide) _
  refine ⟨Sane.mild ?_ (mild_log _ sent), fun v was none_ => ?_⟩
  · refine sane.recount isClient rfl (fun v ne => setClient_client_of_ne s _ ne) ?_ rfl rfl ?_ ?_
    · rw [setClient_client_self]
      exact hangs
    · rw [setClient_client_self, notOper, still]
      exact (Int.add_zero _).symm.trans (congrArg (· + 0) (Int.sub_zero _).symm)
    · rw [setClient_client_self, visible]
      exact (Int.sub_add_cancel _ _).symm
  · show (((s.setClient u x).client v).isClient = true) ∧ ((s.setClient u x).client v).isAnOper = false
    by_cases self : v = u
    · rw [self, setClient_client_self]
      exact ⟨hangs.isClient.trans isClient, still⟩
    · rw [setClient_client_of_ne s _ self]
      exact ⟨was, none_⟩

/-- **An SVSADMIN with `noopers`.** -/
theorem Sane.noopers (sane : Sane 0 s) {cptr sptr : ClientId} {operators : List ClientId}
    (once : s.NoopersCountOnce cptr sptr operators) : Sane 0 (s.noopers cptr sptr operators) := by
  unfold Ircd.noopers
  split
  · exact sane.mild (.sendIf ..)
  · rename_i allowed
    rw [Bool.or_eq_true, not_or, Bool.not_eq_true', Bool.not_eq_true'] at allowed
    have users := once (Bool.not_eq_false _ ▸ allowed.1) (Bool.not_eq_false _ ▸ allowed.2)
    have start := sane.mild (.send s (.servButone none (line [":", s.meName,
      " GLOBOPS :Disabling O:Lines on this server"])))
    clear once
    generalize send_ : s.send _ = t at start ⊢
    replace users : ∀ u ∈ operators, (t.client u).isClient = true ∧ (t.client u).isAnOper = false := by
      rw [← send_]
      exact users
    clear send_ sane allowed
    induction operators generalizing t with
    | nil => exact start
    | cons u rest ih =>
      obtain ⟨isClient, notOper⟩ := users u List.mem_cons_self
      obtain ⟨next, stays⟩ := start.noOper isClient notOper
      exact ih _ next fun v member =>
        stays v (users v (List.mem_cons_of_mem _ member)).1 (users v (List.mem_cons_of_mem _ member)).2

end Change

/-! ### The recount -/

theorem lusersRounds (s : Ircd) (clients : List ClientId) (count : Count) :
    let users := fun p : Client → Bool =>
      (clients.countP fun u => (s.client u).isClient && p (s.client u) : Int)
    clients.foldl s.lusersRound count =
      ⟨count.total + users fun _ => true, count.local_ + users Client.myConnect,
        count.oper + users Client.isAnOper, count.invisi + users Client.isInvisible⟩ := by
  induction clients generalizing count with
  | nil => simp
  | cons u clients ih =>
    have round : s.lusersRound count u =
        ⟨count.total + weight (fun _ => true) (s.client u),
          count.local_ + weight Client.myConnect (s.client u),
          count.oper + weight Client.isAnOper (s.client u),
          count.invisi + weight Client.isInvisible (s.client u)⟩ := by
      have one : ∀ (b : Bool) (n : Int), (if b then n + 1 else n) = n + b.toInt := fun b n => by
        cases b <;> simp
      unfold lusersRound weight
      by_cases isClient : (s.client u).isClient = true <;> simp [isClient, one]
    have more : ∀ (n : Int) (p : Client → Bool), n + weight p (s.client u) +
        clients.countP (fun u => (s.client u).isClient && p (s.client u)) =
          n + (u :: clients).countP fun u => (s.client u).isClient && p (s.client u) := fun n p => by
      rw [countP_apart (.refl _), Int.add_assoc, Int.add_comm (weight ..)]
    rw [List.foldl_cons, ih, round]
    simp only [more]

/-- **The recount is exact.** -/
theorem Sane.show_lusers {s : Ircd} (sane : Sane 0 s) : Sane 0 s.show_lusers := by
  have counted := lusersRounds s s.GlobalClientList ⟨0, 0, 0, 0⟩
  simp only [Int.zero_add] at counted
  refine ⟨talliedBut_zero.mpr ?_, sane.rooted.congr rfl fun _ => .refl _⟩
  unfold Ircd.show_lusers
  rw [counted]
  exact ⟨rfl, rfl, rfl, rfl⟩

/-! ### Whole runs -/

/-- What happens to the users of the network. -/
inductive UserEvent
  | register (u : ClientId) (name username host : Text) (ssl : Bool)
  | introduce (cptr u : ClientId) (nick modes username realhost host server : Text) (newts : Int)
  | server (u cptr servptr : ClientId) (name : Text) (service : Bool)
  | umode (cptr sptr : ClientId) (parv : List Text)
  | svsmode (cptr sptr : ClientId) (parv : List Text)
  | oper (cptr sptr : ClientId) (aconf : Option OperConf)
  | noopers (cptr sptr : ClientId) (operators : List ClientId)
  | lusers
  | exit (cptr : Option ClientId) (sptr source : ClientId) (comment : Text)

def afterUser (s : Ircd) : UserEvent → Ircd
  | .register u name username host ssl => s.register_user u name username host ssl
  | .introduce cptr u nick modes username realhost host server newts =>
    s.nickkilldone cptr u nick modes username realhost host server newts
  | .server u cptr servptr name service => s.addServer u cptr servptr name service
  | .umode cptr sptr parv => s.user_mode cptr sptr parv
  | .svsmode cptr sptr parv => s.m_svsmode cptr sptr parv
  | .oper cptr sptr aconf => s.m_oper cptr sptr aconf
  | .noopers cptr sptr operators => s.noopers cptr sptr operators
  | .lusers => s.show_lusers
  | .exit cptr sptr source comment => s.exit_client cptr sptr source comment

/-- **The events in which every user counts once.** -/
def CountsOnce (s : Ircd) : UserEvent → Prop
  | .register .. => True
  | .introduce _ _ _ modes _ _ _ server _ =>
    LettersCountOnce modes ∧ (s.find_server server).isSome = true
  | .server u .. => u ≠ me
  | .umode cptr sptr parv => s.UmodeCountsOnce cptr sptr parv
  | .svsmode cptr sptr parv => s.SvsmodeCountsOnce cptr sptr parv
  | .oper cptr sptr aconf => s.OperCountsOnce cptr sptr aconf
  | .noopers cptr sptr operators => s.NoopersCountOnce cptr sptr operators
  | .lusers => True
  | .exit _ sptr _ _ => (s.client sptr).isServer = true → sptr ≠ me

/-- **The states reached by events that are allowed where they happen.** -/
inductive UserRun (allowed : Ircd → UserEvent → Prop) : Ircd → Prop
  | boot (conf : Conf) (now : Int) (name : Text) : UserRun allowed (boot conf now name)
  | step {s : Ircd} (run : UserRun allowed s) {event : UserEvent} (ok : allowed s event) :
      UserRun allowed (s.afterUser event)

theorem Sane.boot (conf : Conf) (now : Int) (name : Text) : Sane 0 (boot conf now name) := by
  have self : (blank conf now name).client me = bootClient name := by
    show Function.update (fun _ => Client.zero) me (bootClient name) me = _
    rw [Function.update_self]
  have others : ∀ u, u ≠ me → (blank conf now name).client u = .zero := fun u ne => by
    show Function.update (fun _ => Client.zero) me (bootClient name) u = _
    rw [Function.update_of_ne ne]
  have nobody : ∀ u, ((blank conf now name).client u).isClient = false := fun u => by
    by_cases same : u = me
    · rw [same, self]
      rfl
    · rw [others u same]
      rfl
  have lists : ∀ u serv, ((blank conf now name).client u).serv = some serv →
      serv.servers = [] ∧ serv.users = [] := fun u serv has => by
    by_cases same : u = me
    · rw [same, self] at has
      cases has
      exact ⟨rfl, rfl⟩
    · rw [others u same] at has
      exact absurd has (by simp [Client.zero])
  have empty : ∀ p, (blank conf now name).usersThat p = 0 := fun p => by
    unfold usersThat
    simp [nobody]
  have rooted : (blank conf now name).Rooted := by
    refine ⟨List.nodup_singleton me, fun u is_ => ?_, fun a serv has => ?_, fun a serv has => ?_,
      fun u mine => ?_⟩
    · exact absurd ((nobody u).symm.trans is_) Bool.false_ne_true
    · rw [(lists a serv has).1]
      exact ⟨List.nodup_nil, fun v member => absurd member List.not_mem_nil⟩
    · rw [(lists a serv has).2]
      exact ⟨List.nodup_nil, fun v member => absurd member List.not_mem_nil⟩
    · have is_ := (Bool.and_eq_true _ _ ▸ mine).2
      exact absurd ((nobody u).symm.trans is_) Bool.false_ne_true
  have blank_ : Sane 0 (blank conf now name) := by
    refine ⟨⟨?_, ?_, ?_, ?_⟩, rooted⟩ <;> rw [empty] <;> rfl
  exact blank_.mild (.same rfl rfl rfl)

/-- **One event that counts everybody once.** -/
theorem Sane.after {s : Ircd} (sane : Sane 0 s) {event : UserEvent} (once : s.CountsOnce event) :
    Sane 0 (s.afterUser event) := by
  cases event with
  | register u name username host ssl => exact sane.register_user u name username host ssl
  | introduce cptr u nick modes username realhost host server newts =>
    exact sane.nickkilldone cptr u nick modes username realhost host server newts once.1 once.2
  | server u cptr servptr name service => exact sane.addServer once cptr servptr name service
  | umode cptr sptr parv => exact sane.user_mode once
  | svsmode cptr sptr parv => exact sane.m_svsmode once
  | oper cptr sptr aconf => exact sane.m_oper once
  | noopers cptr sptr operators => exact sane.noopers once
  | lusers => exact sane.show_lusers
  | exit cptr sptr source comment => exact sane.exit_client once cptr source comment

/-- **The statistics are exact in every run of events that count everybody once.** -/
theorem run_tallied {s : Ircd} (run : UserRun CountsOnce s) : s.Tallied := by
  refine talliedBut_zero.mp (Sane.tallied ?_)
  induction run with
  | boot conf now name => exact Sane.boot conf now name
  | step _ once sane => exact sane.after once

/-- A server with a linked server and an operator behind it, who leaves. -/
def sampleLinked : Ircd :=
  ((boot sampleConf 1000 "hub").afterUser (.server 1 1 me "leaf" false)).afterUser
    (.introduce 1 2 "ann" "+io" "ann" "a.b" "a.b" "leaf" 900)

theorem run_tallied_operator : (sampleLinked.afterUser (.exit (some 1) 2 2 "bye")).Tallied := by
  refine run_tallied (.step (.step (.step (.boot sampleConf 1000 "hub") ?_) ?_) ?_)
  · show (1 : Nat) ≠ 0
    decide
  · exact ⟨⟨by decide, by decide, by decide⟩, by decide⟩
  · intro server
    exact absurd server (by decide)

/-- **A letter that an introduction repeats is counted twice**: `+ii` is one invisible user. -/
theorem not_run_tallied : ¬ ∀ s, UserRun (fun _ _ => True) s → s.Tallied := by
  intro all
  have linked : UserRun (fun _ _ => True)
      ((boot sampleConf 1000 "hub").afterUser (.server 1 1 me "leaf" false)) :=
    .step (.boot sampleConf 1000 "hub") trivial
  have introduced : UserRun (fun _ _ => True)
      (((boot sampleConf 1000 "hub").afterUser (.server 1 1 me "leaf" false)).afterUser
        (.introduce 1 2 "ann" "+ii" "ann" "a.b" "a.b" "leaf" 900)) := .step linked trivial
  have tallied := all _ introduced
  exact absurd tallied.invisi (by decide)

end Ircd

end PtlinkIrcd
