/-
**The user statistics, and who leaves.**

`Count` is kept by hand: users are counted when they come, when a mode of them changes and when they
leave.

* `Tallied` — the counters are what a count of the clients gives.
* `Rooted` — the tree of servers and users: who hangs on a server is not connected here, unless the
  server is this one.
* `Mild` — a step that neither counts a user nor moves one.
* `Sane.exit_client` — **an exit keeps both**, also one of a server with all that depends on it.
-/

import PtlinkIrcd.Client.Release

set_option linter.unusedSectionVars false

namespace PtlinkIrcd

/-! ### What counts -/

/-- Two blocks of a client that count alike. -/
structure Client.CountsAs (x y : Client) : Prop where
  status : y.status = x.status
  umodes : y.umodes = x.umodes
  local_flag : y.local_flag = x.local_flag

/-- A test that depends on what counts alone. -/
def CountTest (p : Client → Bool) : Prop := ∀ x y : Client, x.CountsAs y → p y = p x

namespace Client

variable {x y : Client}

theorem CountsAs.refl (x : Client) : x.CountsAs x := ⟨rfl, rfl, rfl⟩

theorem CountsAs.isClient (same : x.CountsAs y) : y.isClient = x.isClient := by
  unfold Client.isClient
  rw [same.status]

theorem CountsAs.myClient (same : x.CountsAs y) : y.myClient = x.myClient := by
  unfold Client.myClient Client.myConnect
  rw [same.isClient, same.local_flag]

/-- Two blocks that hang alike in the tree; a connection may have been closed. -/
structure HangsAs (x y : Client) : Prop where
  status : y.status = x.status
  local_flag : y.local_flag = x.local_flag
  servptr : y.servptr = x.servptr
  serv : y.serv = x.serv
  link : ∀ v, y.link = some v → x.link = some v

/-- Two blocks that count alike and hang alike. -/
structure Alike (x y : Client) : Prop extends x.HangsAs y where
  umodes : y.umodes = x.umodes

theorem HangsAs.refl (x : Client) : x.HangsAs x := ⟨rfl, rfl, rfl, rfl, fun _ => id⟩

theorem HangsAs.isServer (same : x.HangsAs y) : y.isServer = x.isServer := by
  unfold Client.isServer
  rw [same.status]

theorem HangsAs.isClient (same : x.HangsAs y) : y.isClient = x.isClient := by
  unfold Client.isClient
  rw [same.status]

theorem HangsAs.myClient (same : x.HangsAs y) : y.myClient = x.myClient := by
  unfold Client.myClient Client.myConnect
  rw [same.isClient, same.local_flag]

theorem Alike.refl (x : Client) : x.Alike x := ⟨.refl x, rfl⟩

theorem Alike.countsAs (alike : x.Alike y) : x.CountsAs y :=
  ⟨alike.status, alike.umodes, alike.local_flag⟩

theorem Alike.trans {z : Client} (first : x.Alike y) (second : y.Alike z) :
    x.Alike z where
  status := second.status.trans first.status
  umodes := second.umodes.trans first.umodes
  local_flag := second.local_flag.trans first.local_flag
  servptr := second.servptr.trans first.servptr
  serv := second.serv.trans first.serv
  link v is_ := first.link v (second.link v is_)

theorem countTest_all : CountTest fun _ => true := fun _ _ _ => rfl

theorem countTest_myConnect : CountTest myConnect := fun _ _ same => same.local_flag

theorem countTest_isAnOper : CountTest isAnOper := fun _ _ same => by
  unfold isAnOper
  rw [same.umodes]

theorem countTest_isInvisible : CountTest isInvisible := fun _ _ same => by
  unfold isInvisible
  rw [same.umodes]

end Client

namespace Ircd

def usersThat (s : Ircd) (p : Client → Bool) : Nat :=
  s.GlobalClientList.countP fun u => (s.client u).isClient && p (s.client u)

/-- **The statistics are exact.** -/
structure Tallied (s : Ircd) : Prop where
  total : s.count.total = s.usersThat fun _ => true
  local_ : s.count.local_ = s.usersThat Client.myConnect
  oper : s.count.oper = s.usersThat Client.isAnOper
  invisi : s.count.invisi = s.usersThat Client.isInvisible

/-- The statistics are exact but for `gone` local users, who were counted off already. -/
structure TalliedBut (gone : Int) (s : Ircd) : Prop where
  total : s.count.total = s.usersThat fun _ => true
  local_ : s.count.local_ + gone = s.usersThat Client.myConnect
  oper : s.count.oper = s.usersThat Client.isAnOper
  invisi : s.count.invisi = s.usersThat Client.isInvisible

theorem talliedBut_zero {s : Ircd} : TalliedBut 0 s ↔ s.Tallied := by
  refine ⟨fun but => ⟨but.total, ?_, but.oper, but.invisi⟩,
    fun tallied => ⟨tallied.total, ?_, tallied.oper, tallied.invisi⟩⟩
  · have exact_ := but.local_
    omega
  · have exact_ := tallied.local_
    omega

def weight (p : Client → Bool) (x : Client) : Int := (x.isClient && p x).toInt

section Counting

variable {s t : Ircd} {u : ClientId} {p : Client → Bool}

theorem countP_congr_counts (test : CountTest p) (clients : List ClientId)
    (same : ∀ v ∈ clients, (s.client v).CountsAs (t.client v)) :
    clients.countP (fun v => (t.client v).isClient && p (t.client v)) =
      clients.countP fun v => (s.client v).isClient && p (s.client v) := by
  refine List.countP_congr fun v member => ?_
  rw [(same v member).isClient, test _ _ (same v member)]

theorem countP_apart {clients rest : List ClientId} (perm : clients.Perm (u :: rest))
    (p : Client → Bool) :
    (clients.countP (fun v => (s.client v).isClient && p (s.client v)) : Int) =
      rest.countP (fun v => (s.client v).isClient && p (s.client v)) + weight p (s.client u) := by
  rw [perm.countP_eq, List.countP_cons]
  unfold weight
  cases (s.client u).isClient && p (s.client u) <;> simp

/-- **Replacing a listed client.** -/
theorem usersThat_update (test : CountTest p) (nodup : s.GlobalClientList.Nodup)
    (listed : u ∈ s.GlobalClientList) (list : t.GlobalClientList = s.GlobalClientList)
    (others : ∀ v, v ≠ u → (s.client v).CountsAs (t.client v)) :
    (t.usersThat p : Int) = s.usersThat p - weight p (s.client u) + weight p (t.client u) := by
  have perm := List.perm_cons_erase listed
  have rest := countP_congr_counts test (s := s) (t := t) (s.GlobalClientList.erase u)
    fun v member => others v fun same => nodup.not_mem_erase (same ▸ member)
  unfold usersThat
  rw [list, countP_apart perm, countP_apart perm, rest]
  omega

/-- **Adding a client.** -/
theorem usersThat_cons (test : CountTest p) (fresh : u ∉ s.GlobalClientList)
    (list : t.GlobalClientList = u :: s.GlobalClientList)
    (others : ∀ v, v ≠ u → (s.client v).CountsAs (t.client v)) :
    (t.usersThat p : Int) = s.usersThat p + weight p (t.client u) := by
  have rest := countP_congr_counts test (s := s) (t := t) s.GlobalClientList
    fun v member => others v fun same => fresh (same ▸ member)
  unfold usersThat
  rw [list, countP_apart (List.Perm.refl _), rest]

/-- **Taking a client off the list.** -/
theorem usersThat_erase (test : CountTest p) (nodup : s.GlobalClientList.Nodup)
    (listed : u ∈ s.GlobalClientList) (list : t.GlobalClientList = s.GlobalClientList.erase u)
    (others : ∀ v, v ≠ u → (s.client v).CountsAs (t.client v)) :
    (t.usersThat p : Int) = s.usersThat p - weight p (s.client u) := by
  have rest := countP_congr_counts test (s := s) (t := t) (s.GlobalClientList.erase u)
    fun v member => others v fun same => nodup.not_mem_erase (same ▸ member)
  unfold usersThat
  rw [list, rest, countP_apart (List.perm_cons_erase listed)]
  omega

theorem TalliedBut.congr {gone : Int} (tallied : TalliedBut gone s) (count : t.count = s.count)
    (list : t.GlobalClientList = s.GlobalClientList)
    (same : ∀ v, (s.client v).CountsAs (t.client v)) : TalliedBut gone t := by
  have users : ∀ p, CountTest p → t.usersThat p = s.usersThat p := fun p test => by
    unfold usersThat
    rw [list]
    exact countP_congr_counts test _ fun v _ => same v
  refine ⟨?_, ?_, ?_, ?_⟩
  · rw [count, users _ Client.countTest_all, tallied.total]
  · rw [count, users _ Client.countTest_myConnect, tallied.local_]
  · rw [count, users _ Client.countTest_isAnOper, tallied.oper]
  · rw [count, users _ Client.countTest_isInvisible, tallied.invisi]

end Counting

/-! ### The tree -/

/-- **The tree of servers and users.** -/
structure Rooted (s : Ircd) : Prop where
  nodup : s.GlobalClientList.Nodup
  listed : ∀ u, (s.client u).isClient = true → u ∈ s.GlobalClientList
  /-- A server hangs on the server that lists it. -/
  servers : ∀ a serv, (s.client a).serv = some serv → serv.servers.Nodup ∧
    ∀ v ∈ serv.servers, (s.client v).isServer = true ∧ (s.client v).servptr = some a ∧ v ≠ me
  /-- So does a user. -/
  users : ∀ a serv, (s.client a).serv = some serv → serv.users.Nodup ∧
    ∀ v ∈ serv.users, (s.client v).isServer = false ∧ (s.client v).servptr = some a
  /-- A local user hangs on this server, behind its own connection. -/
  own : ∀ u, (s.client u).myClient = true → (s.client u).servptr = some me ∧
    ∀ v, (s.client u).link = some v → v = u

def Unhung (s : Ircd) (u : ClientId) : Prop :=
  ∀ a serv, (s.client a).serv = some serv → u ∉ serv.servers ∧ u ∉ serv.users

/-- The statistics and the tree. -/
structure Sane (gone : Int) (s : Ircd) : Prop where
  tallied : TalliedBut gone s
  rooted : s.Rooted

/-! ### Steps that count nobody -/

/-- **A step that neither counts a user nor moves one.** -/
structure Mild (s t : Ircd) : Prop where
  list : t.GlobalClientList = s.GlobalClientList
  count : t.count = s.count
  client : ∀ v, (s.client v).Alike (t.client v)

namespace Mild

variable {s t r : Ircd}

theorem refl (s : Ircd) : Mild s s := ⟨rfl, rfl, fun _ => .refl _⟩

theorem trans (first : Mild s t) (second : Mild t r) : Mild s r where
  list := second.list.trans first.list
  count := second.count.trans first.count
  client v := (first.client v).trans (second.client v)

theorem same (list : t.GlobalClientList = s.GlobalClientList) (count : t.count = s.count)
    (client : t.client = s.client) : Mild s t :=
  ⟨list, count, fun _ => client ▸ .refl _⟩

theorem send (s : Ircd) (event : Sent) : Mild s (s.send event) := same rfl rfl rfl

theorem sendIf (s : Ircd) (p : Bool) (event : Sent) : Mild s (s.sendIf p event) := by
  unfold Ircd.sendIf
  split
  · exact .send s event
  · exact .refl s

theorem setChan (s : Ircd) (chptr : ChannelId) (c : Channel) : Mild s (s.setChan chptr c) :=
  same rfl rfl rfl

theorem setClient {u : ClientId} {x : Client} (alike : (s.client u).Alike x) :
    Mild s (s.setClient u x) := by
  refine ⟨rfl, rfl, fun v => ?_⟩
  by_cases self : v = u
  · rw [self, setClient_client_self]
    exact alike
  · rw [setClient_client_of_ne s x self]
    exact .refl _

theorem setUser (s : Ircd) (u : ClientId) (user : User) : Mild s (s.setUser u user) :=
  setClient ⟨⟨rfl, rfl, rfl, rfl, fun _ => id⟩, rfl⟩

theorem setKilled (s : Ircd) (u : ClientId) : Mild s (s.setKilled u) :=
  setClient ⟨⟨rfl, rfl, rfl, rfl, fun _ => id⟩, rfl⟩

theorem foldl {ι : Type} (step : Ircd → ι → Ircd) (mild : ∀ s i, Mild s (step s i))
    (items : List ι) (s : Ircd) : Mild s (items.foldl step s) := by
  induction items generalizing s with
  | nil => exact refl s
  | cons item items ih => exact (mild s item).trans (ih _)

theorem del_invite (s : Ircd) (u : ClientId) (c : ChannelId) : Mild s (s.del_invite u c) := by
  unfold Ircd.del_invite setInvited
  simp only []
  split
  · exact .setChan ..
  · exact (Mild.setChan ..).trans (.setUser ..)

theorem destroyChannel (s : Ircd) (c : ChannelId) : Mild s (s.destroyChannel c) := by
  unfold Ircd.destroyChannel
  exact (Mild.foldl _ (fun s u => .del_invite s u c) _ s).trans (.same rfl rfl rfl)

theorem sub1_from_channel (s : Ircd) (c : ChannelId) : Mild s (s.sub1_from_channel c) := by
  unfold Ircd.sub1_from_channel
  simp only []
  split
  · split
    · exact .setChan ..
    · exact (Mild.setChan ..).trans (.destroyChannel ..)
  · exact .setChan ..

theorem remove_user_from_channel (s : Ircd) (u : ClientId) (c : ChannelId) :
    Mild s (s.remove_user_from_channel u c) := by
  unfold Ircd.remove_user_from_channel
  split
  · exact .refl s
  · unfold unlinkUser
    exact ((Mild.setChan ..).trans (.setUser ..)).trans (.sub1_from_channel ..)

theorem removeFromAll (u : ClientId) :
    ∀ (fuel : Nat) (s : Ircd), Mild s (Ircd.removeFromAll (fun s _ => s) u fuel s)
  | 0, s => .refl s
  | fuel + 1, s => by
    unfold Ircd.removeFromAll
    split
    · exact .refl s
    · exact (Mild.remove_user_from_channel ..).trans (removeFromAll u fuel _)

theorem quitPerson (s : Ircd) (cptr : Option ClientId) (u : ClientId) (comment : Text) :
    Mild s (s.quitPerson cptr u comment) := by
  have told : ∀ (a : Bool) (b : Sent) (c d : Bool) (e f : Sent), Mild s
      (if c then (s.sendIf a b).send e else (s.sendIf a b).sendIf d f) := by
    intro a b c d e f
    split
    · exact (Mild.sendIf ..).trans (.send ..)
    · exact (Mild.sendIf ..).trans (.sendIf ..)
  unfold Ircd.quitPerson
  simp only []
  exact ((told ..).trans (.removeFromAll ..)).trans (.foldl _ (fun s c => .del_invite s u c) _ _)

end Mild

section Steps

variable {s t : Ircd} {u : ClientId} {gone : Int}

theorem Rooted.congr (rooted : s.Rooted) (list : t.GlobalClientList = s.GlobalClientList)
    (same : ∀ v, (s.client v).HangsAs (t.client v)) : t.Rooted where
  nodup := list ▸ rooted.nodup
  listed v client := by
    rw [list]
    exact rooted.listed v ((same v).isClient ▸ client)
  servers a serv has := by
    rw [(same a).serv] at has
    refine ⟨(rooted.servers a serv has).1, fun v member => ?_⟩
    obtain ⟨server, servptr, ne⟩ := (rooted.servers a serv has).2 v member
    exact ⟨(same v).isServer.trans server, (same v).servptr.trans servptr, ne⟩
  users a serv has := by
    rw [(same a).serv] at has
    refine ⟨(rooted.users a serv has).1, fun v member => ?_⟩
    obtain ⟨user, servptr⟩ := (rooted.users a serv has).2 v member
    exact ⟨(same v).isServer.trans user, (same v).servptr.trans servptr⟩
  own v mine := by
    obtain ⟨servptr, link⟩ := rooted.own v ((same v).myClient ▸ mine)
    exact ⟨(same v).servptr.trans servptr, fun w is_ => link w ((same v).link w is_)⟩

theorem Rooted.mild (rooted : s.Rooted) (mild : Mild s t) : t.Rooted :=
  rooted.congr mild.list fun v => (mild.client v).toHangsAs

theorem Sane.mild (sane : Sane gone s) (mild : Mild s t) : Sane gone t :=
  ⟨sane.tallied.congr mild.count mild.list fun v => (mild.client v).countsAs,
    sane.rooted.mild mild⟩

theorem Unhung.mild (unhung : s.Unhung u) (mild : Mild s t) : t.Unhung u := fun a serv has =>
  unhung a serv ((mild.client a).serv ▸ has)

/-! ### Off the list of its server -/

theorem setServ_client (s : Ircd) (servptr v : ClientId) (serv : Option Server) :
    let after := s.setClient servptr { s.client servptr with serv }
    (s.client v).CountsAs (after.client v) ∧ (after.client v).servptr = (s.client v).servptr ∧
      (after.client v).link = (s.client v).link := by
  simp only []
  by_cases self : v = servptr
  · rw [self, setClient_client_self]
    exact ⟨⟨rfl, rfl, rfl⟩, rfl, rfl⟩
  · rw [setClient_client_of_ne s _ self]
    exact ⟨.refl _, rfl, rfl⟩

theorem unlinkServ_client (s : Ircd) (u v : ClientId) :
    (s.client v).CountsAs ((s.unlinkServ u).client v) ∧
      ((s.unlinkServ u).client v).servptr = (s.client v).servptr ∧
      ((s.unlinkServ u).client v).link = (s.client v).link := by
  unfold unlinkServ
  split
  · exact ⟨.refl _, rfl, rfl⟩
  · split
    · exact ⟨.refl _, rfl, rfl⟩
    · exact setServ_client ..

theorem unlinkServ_list : (s.unlinkServ u).GlobalClientList = s.GlobalClientList := by
  unfold unlinkServ
  split
  · rfl
  · split <;> rfl

theorem unlinkServ_count : (s.unlinkServ u).count = s.count := by
  unfold unlinkServ
  split
  · rfl
  · split <;> rfl

theorem unlinkServ_serv {a : ClientId} {serv : Server}
    (has : ((s.unlinkServ u).client a).serv = some serv) : ∃ before,
      (s.client a).serv = some before ∧
      (serv = before ∧ (s.client u).servptr ≠ some a ∨
        serv = (if (s.client u).isServer then { before with servers := before.servers.erase u }
          else { before with users := before.users.erase u }) ∧ (s.client u).servptr = some a) := by
  unfold unlinkServ at has
  split at has
  · rename_i none_
    exact ⟨serv, has, .inl ⟨rfl, by rw [none_]; simp⟩⟩
  · rename_i servptr some_
    split at has
    · rename_i noServ
      refine ⟨serv, has, .inl ⟨rfl, fun same => ?_⟩⟩
      rw [some_] at same
      rw [Option.some.inj same] at noServ
      exact absurd (noServ.symm.trans has) (by simp)
    · rename_i before hasServ
      by_cases self : a = servptr
      · rw [self, setClient_client_self] at has
        refine ⟨before, self ▸ hasServ, .inr ⟨(Option.some.inj has).symm, self ▸ some_⟩⟩
      · rw [setClient_client_of_ne s _ self] at has
        refine ⟨serv, has, .inl ⟨rfl, fun same => self ?_⟩⟩
        rw [some_] at same
        exact (Option.some.inj same).symm

/-- **A client comes off the one list it is on.** -/
theorem Rooted.unlinkServ (rooted : s.Rooted) (u : ClientId) :
    (s.unlinkServ u).Rooted ∧ (s.unlinkServ u).Unhung u := by
  have client := unlinkServ_client s u
  have isServer : ∀ v, ((s.unlinkServ u).client v).isServer = (s.client v).isServer := fun v => by
    unfold Client.isServer
    rw [(client v).1.status]
  refine ⟨⟨?_, fun v is_ => ?_, fun a serv has => ?_, fun a serv has => ?_, fun v mine => ?_⟩,
    fun a serv has => ?_⟩
  · rw [unlinkServ_list]
    exact rooted.nodup
  · rw [unlinkServ_list]
    exact rooted.listed v ((client v).1.isClient ▸ is_)
  · obtain ⟨before, had, change⟩ := unlinkServ_serv has
    obtain ⟨nodup, servers⟩ := rooted.servers a before had
    have sub : serv.servers.Sublist before.servers := by
      rcases change with ⟨rfl, _⟩ | ⟨rfl, _⟩
      · exact .refl _
      · split
        · exact List.erase_sublist
        · exact .refl _
    refine ⟨sub.nodup nodup, fun v member => ?_⟩
    obtain ⟨server, servptr, ne⟩ := servers v (sub.subset member)
    exact ⟨(isServer v).trans server, (client v).2.1.trans servptr, ne⟩
  · obtain ⟨before, had, change⟩ := unlinkServ_serv has
    obtain ⟨nodup, users⟩ := rooted.users a before had
    have sub : serv.users.Sublist before.users := by
      rcases change with ⟨rfl, _⟩ | ⟨rfl, _⟩
      · exact .refl _
      · split
        · exact .refl _
        · exact List.erase_sublist
    refine ⟨sub.nodup nodup, fun v member => ?_⟩
    obtain ⟨user, servptr⟩ := users v (sub.subset member)
    exact ⟨(isServer v).trans user, (client v).2.1.trans servptr⟩
  · obtain ⟨servptr, link⟩ := rooted.own v ((client v).1.myClient ▸ mine)
    exact ⟨(client v).2.1.trans servptr, fun w is_ => link w ((client v).2.2 ▸ is_)⟩
  · obtain ⟨before, had, change⟩ := unlinkServ_serv has
    obtain ⟨servers, onServers⟩ := rooted.servers a before had
    obtain ⟨users, onUsers⟩ := rooted.users a before had
    rcases change with ⟨rfl, other⟩ | ⟨rfl, _⟩
    · exact ⟨fun member => other (onServers u member).2.1, fun member => other (onUsers u member).2⟩
    · cases kind : (s.client u).isServer with
      | true =>
        exact ⟨servers.not_mem_erase, fun member =>
          absurd ((onUsers u member).1.symm.trans kind) Bool.false_ne_true⟩
      | false =>
        exact ⟨fun member => absurd (kind.symm.trans (onServers u member).1) Bool.false_ne_true,
          users.not_mem_erase⟩

theorem Sane.unlinkServ (sane : Sane gone s) (u : ClientId) :
    Sane gone (s.unlinkServ u) ∧ (s.unlinkServ u).Unhung u := by
  obtain ⟨rooted, unhung⟩ := sane.rooted.unlinkServ u
  exact ⟨⟨sane.tallied.congr unlinkServ_count unlinkServ_list fun v =>
    (unlinkServ_client s u v).1, rooted⟩, unhung⟩

/-! ### Off the list of all clients -/

theorem removed_state (listed : u ∈ s.GlobalClientList) :
    (s.remove_client_from_list u).GlobalClientList = s.GlobalClientList.erase u ∧
      (s.remove_client_from_list u).client = Function.update s.client u .zero ∧
      (s.remove_client_from_list u).count =
        if (s.client u).isClient then uncounted s.count (s.client u) else s.count := by
  unfold Ircd.remove_client_from_list update_client_exit_stats release_client_state
  rw [if_neg (not_not_intro listed)]
  simp only []
  cases (s.client u).isClient <;> simp only [if_true, Bool.false_eq_true, if_false] <;> split <;>
    exact ⟨rfl, rfl, rfl⟩

/-- **A client that nobody lists leaves.** -/
theorem Rooted.removed (rooted : s.Rooted) (unhung : s.Unhung u)
    (list : t.GlobalClientList = s.GlobalClientList.erase u)
    (client : t.client = Function.update s.client u .zero) : t.Rooted := by
  have self : t.client u = .zero := by rw [client, Function.update_self]
  have others : ∀ v, v ≠ u → t.client v = s.client v := fun v ne => by
    rw [client, Function.update_of_ne ne]
  have notServ : ∀ {a serv}, (t.client a).serv = some serv → a ≠ u := by
    rintro a serv has rfl
    rw [self] at has
    exact absurd has (by simp [Client.zero])
  refine ⟨list ▸ rooted.nodup.erase u, fun v is_ => ?_, fun a serv has => ?_,
    fun a serv has => ?_, fun v mine => ?_⟩
  · have ne : v ≠ u := by
      rintro rfl
      rw [self] at is_
      exact absurd is_ (by decide)
    rw [others v ne] at is_
    rw [list]
    exact (List.mem_erase_of_ne ne).mpr (rooted.listed v is_)
  · rw [others a (notServ has)] at has
    obtain ⟨nodup, servers⟩ := rooted.servers a serv has
    refine ⟨nodup, fun v member => ?_⟩
    rw [others v fun same => (unhung a serv has).1 (same ▸ member)]
    exact servers v member
  · rw [others a (notServ has)] at has
    obtain ⟨nodup, users⟩ := rooted.users a serv has
    refine ⟨nodup, fun v member => ?_⟩
    rw [others v fun same => (unhung a serv has).2 (same ▸ member)]
    exact users v member
  · have ne : v ≠ u := by
      rintro rfl
      rw [self] at mine
      exact absurd mine (by decide)
    rw [others v ne] at mine ⊢
    exact rooted.own v mine

theorem Sane.remove_client_from_list (sane : Sane gone s) (unhung : s.Unhung u) :
    Sane (gone - (s.client u).myClient.toInt) (s.remove_client_from_list u) := by
  by_cases listed : u ∈ s.GlobalClientList
  · obtain ⟨list, client, count⟩ := removed_state listed
    refine ⟨?_, sane.rooted.removed unhung list client⟩
    generalize s.remove_client_from_list u = t at list client count ⊢
    have fewer : ∀ p, CountTest p → (t.usersThat p : Int) = s.usersThat p - weight p (s.client u) :=
      fun p test => usersThat_erase test sane.rooted.nodup listed list fun v ne => by
        rw [client, Function.update_of_ne ne]
        exact .refl _
    obtain ⟨total, local_, oper, invisi⟩ := sane.tallied
    refine ⟨?_, ?_, ?_, ?_⟩
    · rw [fewer _ Client.countTest_all, count]
      unfold weight uncounted
      cases (s.client u).isClient <;> simp [total]
    · rw [fewer _ Client.countTest_myConnect, count]
      unfold weight uncounted Client.myClient
      cases (s.client u).isClient <;> cases (s.client u).myConnect <;> simp <;> omega
    · rw [fewer _ Client.countTest_isAnOper, count]
      unfold weight uncounted
      cases (s.client u).isClient <;> cases (s.client u).isAnOper <;> simp [oper]
    · rw [fewer _ Client.countTest_isInvisible, count]
      unfold weight uncounted
      cases (s.client u).isClient <;> cases (s.client u).isInvisible <;> simp [invisi]
  · have other : (s.client u).myClient = false := by
      by_contra mine
      rw [Bool.not_eq_false] at mine
      refine listed (sane.rooted.listed u ?_)
      unfold Client.myClient at mine
      exact (Bool.and_eq_true _ _ ▸ mine).2
    unfold Ircd.remove_client_from_list
    rw [if_pos listed, other, Bool.toInt_false, Int.sub_zero]
    exact sane

theorem Sane.removeClient (sane : Sane gone s) (unhung : s.Unhung u) :
    Sane (gone - (s.client u).myClient.toInt) (s.removeClient u) := by
  have unhashed : Mild s (s.del_from_client_hash_table (s.client u).name u) := .same rfl rfl rfl
  exact (sane.mild unhashed).remove_client_from_list (unhung.mild unhashed)

/-! ### One client -/

/-- **One client leaves.** -/
theorem Sane.exit_one_client (sane : Sane gone s) (cptr : Option ClientId) (u source : ClientId)
    (comment : Text) :
    Sane (gone - (s.client u).myClient.toInt) (s.exit_one_client cptr u source comment) := by
  obtain ⟨unlinked, unhung⟩ := sane.unlinkServ u
  have mine := (unlinkServ_client s u u).1.myClient
  have leave : ∀ t, Mild (s.unlinkServ u) t → Sane (gone - (s.client u).myClient.toInt)
      (t.removeClient u) := fun t mild => by
    rw [← mine, ← (mild.client u).myClient]
    exact (unlinked.mild mild).removeClient (unhung.mild mild)
  unfold Ircd.exit_one_client
  simp only []
  split
  · rename_i isMe
    have other : (s.client u).myClient = false := by
      unfold Client.isMe at isMe
      unfold Client.myClient Client.isClient
      rw [of_decide_eq_true isMe, Bool.and_eq_false_iff]
      exact .inr rfl
    rw [other, Bool.toInt_false, Int.sub_zero]
    exact unlinked.mild (.send ..)
  · split
    · split
      · exact leave _ (.refl _)
      · exact leave _ (.sendIf ..)
    · split
      · exact leave _ (.refl _)
      · split
        · exact leave _ (.quitPerson ..)
        · exact leave _ (.refl _)

/-! ### A server and its dependents -/

/-- Nobody becomes a user. -/
structure Fades (s t : Ircd) : Prop where
  client : ∀ w, (s.client w).CountsAs (t.client w) ∨ (t.client w).isClient = false

namespace Fades

variable {r : Ircd} {w : ClientId}

theorem refl (s : Ircd) : Fades s s := ⟨fun _ => .inl (.refl _)⟩

theorem trans (first : Fades s t) (second : Fades t r) : Fades s r := by
  refine ⟨fun w => ?_⟩
  rcases second.client w with same | gone
  · rcases first.client w with before | gone
    · exact .inl ⟨same.status.trans before.status, same.umodes.trans before.umodes,
        same.local_flag.trans before.local_flag⟩
    · exact .inr (same.isClient.trans gone)
  · exact .inr gone

theorem mild (mild : Mild s t) : Fades s t := ⟨fun w => .inl (mild.client w).countsAs⟩

theorem isClient (fades : Fades s t) (other : (s.client w).isClient = false) :
    (t.client w).isClient = false := by
  rcases fades.client w with same | gone
  · exact same.isClient.trans other
  · exact gone

theorem myClient (fades : Fades s t) (other : (s.client w).myClient = false) :
    (t.client w).myClient = false := by
  rcases fades.client w with same | gone
  · exact same.myClient.trans other
  · unfold Client.myClient
    rw [gone, Bool.and_false]

theorem remove_client_from_list (s : Ircd) (u : ClientId) :
    Fades s (s.remove_client_from_list u) := by
  by_cases listed : u ∈ s.GlobalClientList
  · refine ⟨fun w => ?_⟩
    rw [(removed_state listed).2.1]
    by_cases self : w = u
    · rw [self, Function.update_self]
      exact .inr rfl
    · rw [Function.update_of_ne self]
      exact .inl (.refl _)
  · unfold Ircd.remove_client_from_list
    rw [if_pos listed]
    exact refl s

theorem removeClient (s : Ircd) (u : ClientId) : Fades s (s.removeClient u) := by
  have unhashed : Mild s (s.del_from_client_hash_table (s.client u).name u) := .same rfl rfl rfl
  exact (mild unhashed).trans (remove_client_from_list _ u)

theorem exit_one_client (s : Ircd) (cptr : Option ClientId) (u source : ClientId)
    (comment : Text) : Fades s (s.exit_one_client cptr u source comment) := by
  have unlinked : Fades s (s.unlinkServ u) := ⟨fun w => .inl (unlinkServ_client s u w).1⟩
  unfold Ircd.exit_one_client
  simp only []
  refine unlinked.trans ?_
  split
  · exact mild (.send ..)
  · split
    · split
      · exact removeClient ..
      · exact (mild (.sendIf ..)).trans (removeClient ..)
    · split
      · exact removeClient ..
      · split
        · exact (mild (.quitPerson ..)).trans (removeClient ..)
        · exact removeClient ..

end Fades

/-- Steps that keep the statistics and in which nobody becomes a user. -/
def Shrinks (s t : Ircd) : Prop := (∀ gone, Sane gone s → Sane gone t) ∧ Fades s t

theorem Shrinks.trans {r : Ircd} (first : Shrinks s t) (second : Shrinks t r) : Shrinks s r :=
  ⟨fun gone sane => second.1 gone (first.1 gone sane), first.2.trans second.2⟩

theorem Shrinks.mild (mild : Mild s t) : Shrinks s t := ⟨fun _ sane => sane.mild mild, .mild mild⟩

/-- **A client that is no local user leaves.** -/
theorem Shrinks.exit_one_client (other : (s.client u).myClient = false) (cptr : Option ClientId)
    (source : ClientId) (comment : Text) :
    Shrinks s (s.exit_one_client cptr u source comment) := by
  refine ⟨fun gone sane => ?_, .exit_one_client ..⟩
  have left := sane.exit_one_client cptr u source comment
  rwa [other, Bool.toInt_false, Int.sub_zero] at left

theorem Shrinks.killed (other : (s.client u).myClient = false) (source : ClientId)
    (comment : Text) : Shrinks s ((s.setKilled u).exit_one_client none u source comment) :=
  (Shrinks.mild (.setKilled s u)).trans
    (.exit_one_client (((Mild.setKilled s u).client u).myClient.trans other) ..)

theorem Rooted.not_mine (rooted : s.Rooted) {a : ClientId} (notMe : a ≠ me)
    (servptr : (s.client u).servptr = some a) : (s.client u).myClient = false := by
  by_contra mine
  have root := (rooted.own u (Bool.not_eq_false _ ▸ mine)).1
  rw [servptr] at root
  exact notMe (Option.some.inj root)

/-- **Everything below a server leaves.** -/
theorem Sane.recurse_remove_clients (comment : Text) :
    ∀ (fuel : Nat) {s : Ircd} {u : ClientId}, Sane gone s → u ≠ me →
      Sane gone (s.recurse_remove_clients comment fuel u) ∧
        Fades s (s.recurse_remove_clients comment fuel u)
  | 0, s, _, sane, _ => ⟨sane, .refl s⟩
  | fuel + 1, s, u, sane, notMe => by
    unfold Ircd.recurse_remove_clients
    split
    · exact ⟨sane, .refl s⟩
    · split
      · exact ⟨sane, .refl s⟩
      · rename_i serv has
        split
        · rename_i acptr _ shape
          obtain ⟨server, servptr, childNotMe⟩ := (sane.rooted.servers u serv has).2 acptr
            (by rw [shape]; exact List.mem_cons_self)
          obtain ⟨below, fades⟩ := recurse_remove_clients comment fuel sane childNotMe
          have left := Shrinks.killed (fades.myClient (sane.rooted.not_mine notMe servptr)) me
            (Ircd.recurse_remove_clients comment fuel s acptr).meName
          obtain ⟨last, lastFades⟩ := recurse_remove_clients comment fuel (left.1 gone below) notMe
          exact ⟨last, fades.trans (left.2.trans lastFades)⟩
        · rename_i acptr rest _ shape
          obtain ⟨user, servptr⟩ := (sane.rooted.users u serv has).2 acptr
            (by rw [shape]; exact List.mem_cons_self)
          have left := Shrinks.killed (sane.rooted.not_mine notMe servptr) me comment
          obtain ⟨last, lastFades⟩ := recurse_remove_clients comment fuel (left.1 gone sane) notMe
          exact ⟨last, left.2.trans lastFades⟩
        · exact ⟨sane, .refl s⟩

theorem Sane.sweep (sane : Sane gone s) (notClient : (s.client u).isClient = false)
    (servers : Bool) (comment : Text) :
    Sane gone (s.sweep u servers comment) ∧ Fades s (s.sweep u servers comment) := by
  unfold Ircd.sweep
  generalize s.GlobalClientList = clients
  induction clients generalizing s with
  | nil => exact ⟨sane, .refl s⟩
  | cons v clients ih =>
    rw [List.foldl_cons]
    split
    · rename_i depends
      have other : (s.client v).myClient = false := by
        by_contra mine
        rw [Bool.not_eq_false] at mine
        have self := (sane.rooted.own v mine).2 u depends.2
        rw [self] at notClient
        unfold Client.myClient at mine
        rw [Bool.and_eq_true, notClient] at mine
        exact absurd mine.2 Bool.false_ne_true
      have told : Mild s (s.send (.ops (line ["Dependent client ", (s.client v).name,
          " not on llist!?"]))) := .send ..
      have left := (Shrinks.mild told).trans
        (.exit_one_client ((told.client v).myClient.trans other) none me comment)
      obtain ⟨last, fades⟩ := ih (left.1 gone sane) (left.2.isClient notClient)
      exact ⟨last, left.2.trans fades⟩
    · exact ih sane notClient

/-- **A server and all that depends on it.** -/
theorem Sane.exitServer (sane : Sane gone s) (notMe : u ≠ me)
    (notClient : (s.client u).isClient = false) :
    Sane gone (s.exitServer u) ∧ Fades s (s.exitServer u) := by
  unfold Ircd.exitServer
  simp only []
  generalize s.conf.OverrideNetsplitMessage.getD _ = comment1
  obtain ⟨below, fades⟩ := sane.recurse_remove_clients comment1 (s.GlobalClientList.length + 1) notMe
  generalize Ircd.recurse_remove_clients comment1 (s.GlobalClientList.length + 1) s u = t
    at below fades ⊢
  split
  · have told := Shrinks.mild (.send t (.ops (line [(s.client u).name, " was connected"])))
    obtain ⟨users, usersFade⟩ := (told.1 gone below).sweep
      ((fades.trans told.2).isClient notClient) false comment1
    obtain ⟨last, lastFade⟩ := users.sweep
      (((fades.trans told.2).trans usersFade).isClient notClient) true _
    exact ⟨last, ((fades.trans told.2).trans usersFade).trans lastFade⟩
  · exact ⟨below, fades⟩

theorem Sane.uncountLocal (sane : Sane 0 s) (x : Client) :
    Sane x.isClient.toInt (s.uncountLocal x) := by
  unfold Ircd.uncountLocal
  cases x.isClient with
  | false => exact sane
  | true =>
    obtain ⟨total, local_, oper, invisi⟩ := sane.tallied
    refine ⟨⟨total, ?_, oper, invisi⟩, ?_⟩
    · show s.count.local_ - 1 + 1 = _
      rw [Int.sub_add_cancel, ← Int.add_zero s.count.local_]
      exact local_
    · obtain ⟨nodup, listed, servers, users, own⟩ := sane.rooted
      exact ⟨nodup, listed, servers, users, own⟩

/-- **A connection is closed**: a local user is counted off before it leaves the lists. -/
theorem Sane.exitLocal (sane : Sane 0 s) (mine : (s.client u).myConnect = true) (comment : Text) :
    Sane (s.client u).myClient.toInt (s.exitLocal u comment) ∧
      (s.client u).CountsAs ((s.exitLocal u comment).client u) := by
  have weight : (s.client u).myClient = (s.client u).isClient := by
    unfold Client.myClient
    rw [mine, Bool.true_and]
  have counted : ∀ t : Ircd, (t.uncountLocal (s.client u)).client = t.client := by
    intro t
    unfold Ircd.uncountLocal
    split <;> rfl
  have closed : ∀ t : Ircd, Mild s t → t.client = s.client → ∀ event,
      Sane (s.client u).myClient.toInt
        (((t.uncountLocal (s.client u)).send event).setClient u { s.client u with link := none }) ∧
      (s.client u).CountsAs ((((t.uncountLocal (s.client u)).send event).setClient u
        { s.client u with link := none }).client u) := by
    intro t mild client event
    rw [weight]
    refine ⟨(((sane.mild mild).uncountLocal _).mild (.send _ event)).mild (.setClient ?_), ?_⟩
    · rw [send_client, counted, client]
      exact ⟨⟨rfl, rfl, rfl, rfl, fun _ none_ => absurd none_ (by simp)⟩, rfl⟩
    · rw [setClient_client_self]
      exact ⟨rfl, rfl, rfl⟩
  unfold Ircd.exitLocal
  simp only []
  split
  · exact closed _ ((Mild.send ..).trans (.send ..)) rfl _
  · exact closed _ (.sendIf ..) (sendIf_client ..) _

/-- **QUIT, KILL, SQUIT and lost connections keep the statistics**, unless the server exits itself. -/
theorem Sane.exit_client (sane : Sane 0 s) (notMe : (s.client u).isServer = true → u ≠ me)
    (cptr : Option ClientId) (source : ClientId) (comment : Text) :
    Sane 0 (s.exit_client cptr u source comment) := by
  have closed : ∃ t, (if (s.client u).myConnect then s.exitLocal u comment else s) = t ∧
      Sane (s.client u).myClient.toInt t ∧ (s.client u).CountsAs (t.client u) := by
    refine ⟨_, rfl, ?_⟩
    cases mine : (s.client u).myConnect with
    | true => exact sane.exitLocal mine comment
    | false =>
      have other : (s.client u).myClient = false := by
        unfold Client.myClient
        rw [mine, Bool.false_and]
      rw [other]
      exact ⟨sane, .refl _⟩
  obtain ⟨t, same, closedSane, counts⟩ := closed
  unfold Ircd.exit_client
  simp only []
  rw [same]
  have down : Mild t
      (if (s.client u).isServer && (s.client u).isService then t.servicesDown else t) := by
    split
    · exact .same rfl rfl rfl
    · exact .refl t
  generalize (if (s.client u).isServer && (s.client u).isService then t.servicesDown else t) = d
    at down ⊢
  have dSane := closedSane.mild down
  have dMine : (d.client u).myClient = (s.client u).myClient :=
    (down.client u).myClient.trans counts.myClient
  split
  · rename_i server
    have notClient : (s.client u).isClient = false := by
      unfold Client.isServer at server
      unfold Client.isClient
      rw [of_decide_eq_true server]
      rfl
    have other : (s.client u).myClient = false := by
      unfold Client.myClient
      rw [notClient, Bool.and_false]
    rw [other, Bool.toInt_false] at dSane
    obtain ⟨left, fades⟩ := dSane.exitServer (notMe server)
      (((down.client u).isClient.trans counts.isClient).trans notClient)
    exact (Shrinks.exit_one_client (fades.myClient (dMine.trans other)) ..).1 0 left
  · have left := dSane.exit_one_client cptr u source comment
    rwa [dMine, Int.sub_self] at left

end Steps

end Ircd

end PtlinkIrcd
