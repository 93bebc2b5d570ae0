/-
**Clients that leave keep the membership invariants.**

* `Keeps` — a step from sound states to sound ones that leaves no ghost behind.
* `Keeps.setFresh` — a client block whose user is on no channel may be filled with anything that is
  on no channel: a free block with a new client, or the block of a client that has left with nothing.
* `Keeps.exit_client` — QUIT, KILL, SQUIT and lost connections.
-/

import PtlinkIrcd.Channel.Safe
import PtlinkIrcd.Client.Exit

set_option linter.unusedSectionVars false

namespace PtlinkIrcd

/-- A client that is on no channel; one with a user is a registered person with a nick. -/
def Client.isFresh (x : Client) : Bool :=
  match x.user with
  | none => true
  | some user => user.channel = [] && user.joined = 0 && x.isClient && x.name ≠ []

theorem Client.isFresh_zero : Client.zero.isFresh = true := rfl

theorem Client.named_of_isFresh {x : Client} (fresh : x.isFresh = true) (has : x.user.isSome) :
    x.isClient ∧ x.name ≠ [] := by
  unfold isFresh at fresh
  obtain ⟨user, has⟩ := Option.isSome_iff_exists.mp has
  rw [has] at fresh
  simp only [Bool.and_eq_true, decide_eq_true_eq] at fresh
  exact ⟨fresh.1.2, of_decide_eq_true (by simpa using fresh.2)⟩

namespace Ircd

/-- **A step that keeps the invariants.** -/
structure Keeps (s other : Ircd) : Prop where
  sound : ∀ {counted : Prop}, s.Sound counted → other.Sound counted
  noGhost : s.Sound False → s.NoGhost → other.NoGhost

namespace Keeps

variable {s other third : Ircd}

theorem refl (s : Ircd) : Keeps s s := ⟨fun sound => sound, fun _ => id⟩

theorem trans (first : Keeps s other) (second : Keeps other third) : Keeps s third where
  sound sound := second.sound (first.sound sound)
  noGhost sound noGhost := second.noGhost (first.sound sound) (first.noGhost sound noGhost)

theorem safe (safe : Safe s other) : Keeps s other := ⟨safe.sound, safe.noGhost⟩

theorem still (still : Still s other) : Keeps s other := safe (.still still)

theorem foldl {ι : Type} (step : Ircd → ι → Ircd) (keeps : ∀ s i, Keeps s (step s i))
    (items : List ι) (s : Ircd) : Keeps s (items.foldl step s) := by
  induction items generalizing s with
  | nil => exact refl s
  | cons item items ih => exact (keeps s item).trans (ih _)

end Keeps

/-! ### Filling and freeing a client block -/

section Fresh

variable {s : Ircd} {u : ClientId} {x : Client} {counted : Prop}

theorem channels_of_isFresh (fresh : x.isFresh = true) : x.channels = [] ∧ x.joined = 0 := by
  unfold Client.isFresh at fresh
  unfold Client.channels Client.joined
  cases has : x.user with
  | none => exact ⟨rfl, rfl⟩
  | some user =>
    rw [has] at fresh
    simp only [Bool.and_eq_true, decide_eq_true_eq] at fresh
    exact ⟨fresh.1.1.1, fresh.1.1.2⟩

theorem setClient_client_self (s : Ircd) (u : ClientId) (x : Client) :
    (s.setClient u x).client u = x := Function.update_self ..

theorem setClient_client_of_ne (s : Ircd) {u v : ClientId} (x : Client) (ne : v ≠ u) :
    (s.setClient u x).client v = s.client v := Function.update_of_ne ne ..

theorem not_mem_memberIds (sound : s.Sound counted) (off : (s.client u).channels = []) (c : ChannelId) :
    u ∉ (s.chan c).memberIds := by
  intro member
  have on : c ∈ (s.client u).channels := (sound.enrolled.incident.mem_iff u c).mpr member
  rw [off] at on
  exact absurd on List.not_mem_nil

/-- **Replacing a client that is on no channel by another one.** -/
theorem Sound.setFresh (sound : s.Sound counted) (off : (s.client u).channels = [])
    (fresh : x.isFresh = true) : (s.setClient u x).Sound counted := by
  obtain ⟨channels, joined⟩ := channels_of_isFresh fresh
  have same : ∀ v, ((s.setClient u x).client v).channels = (s.client v).channels := by
    intro v
    by_cases self : v = u
    · rw [self, setClient_client_self, channels, off]
    · rw [setClient_client_of_ne s x self]
  refine ⟨⟨⟨?_, fun v => ?_, fun counts c => ?_⟩, sound.enrolled.users⟩, ?_, fun v has => ?_⟩
  · rw [funext same]
    exact sound.enrolled.incident
  · by_cases self : v = u
    · rw [self, setClient_client_self, joined, channels]
      rfl
    · rw [setClient_client_of_ne s x self]
      exact sound.enrolled.joined v
  · have stealth : (s.setClient u x).stealthMembers (s.chan c) = s.stealthMembers (s.chan c) := by
      refine List.countP_congr fun v member => ?_
      have ne : v ≠ u := fun self => not_mem_memberIds sound off c (self ▸ member)
      rw [setClient_client_of_ne s x ne]
    show (s.chan c).iusers = _
    rw [setClient_chan, stealth]
    exact sound.enrolled.iusers counts c
  · exact ⟨sound.listed.nodup, sound.listed.table, sound.listed.count, sound.listed.below,
      sound.listed.outside⟩
  · by_cases self : v = u
    · rw [self, setClient_client_self] at has ⊢
      exact Client.named_of_isFresh fresh has
    · rw [setClient_client_of_ne s x self] at has ⊢
      exact sound.named v has

theorem Keeps.setFresh (off : s.Sound False → (s.client u).channels = [])
    (fresh : x.isFresh = true) : Keeps s (s.setClient u x) :=
  ⟨fun sound => sound.setFresh (off sound.relax) fresh, fun _ noGhost => noGhost⟩

theorem channels_of_not_person (sound : s.Sound counted) (noPerson : (s.client u).isPerson = false) :
    (s.client u).channels = [] := by
  cases has : (s.client u).user with
  | none =>
    unfold Client.channels
    rw [has]
    rfl
  | some user =>
    have registered := (sound.named u (by rw [has]; rfl)).1
    unfold Client.isPerson at noPerson
    rw [registered, has] at noPerson
    exact absurd noPerson (by simp)

end Fresh

/-! ### One client -/

section One

variable {s : Ircd} {u : ClientId}

theorem Still.unlinkServ (s : Ircd) (sptr : ClientId) : Still s (s.unlinkServ sptr) := by
  unfold Ircd.unlinkServ
  split
  · exact .refl s
  · split
    · exact .refl s
    · exact .setClient rfl rfl rfl rfl

theorem Still.setKilled (s : Ircd) (u : ClientId) : Still s (s.setKilled u) :=
  .setClient rfl rfl rfl rfl

theorem still_remove_client_from_list {s : Ircd} {u : ClientId} (listed : u ∈ s.GlobalClientList) :
    Still (s.setClient u .zero) (s.remove_client_from_list u) := by
  unfold remove_client_from_list update_client_exit_stats release_client_state
  rw [if_neg (not_not_intro listed)]
  simp only []
  cases (s.client u).isClient <;> simp only [if_true, Bool.false_eq_true, if_false] <;> split <;>
    exact .same rfl rfl rfl rfl rfl rfl rfl

theorem Keeps.remove_client_from_list (off : s.Sound False → (s.client u).channels = []) :
    Keeps s (s.remove_client_from_list u) := by
  by_cases listed : u ∈ s.GlobalClientList
  · exact (Keeps.setFresh off Client.isFresh_zero).trans
      (.still (still_remove_client_from_list listed))
  · unfold Ircd.remove_client_from_list
    rw [if_pos listed]
    exact .refl s

theorem Still.del_from_client_hash_table (s : Ircd) (name : Text) (u : ClientId) :
    Still s (s.del_from_client_hash_table name u) :=
  .same rfl rfl rfl rfl rfl rfl rfl

theorem Keeps.removeClient (off : s.Sound False → (s.client u).channels = []) :
    Keeps s (s.removeClient u) := by
  have unhashed := Still.del_from_client_hash_table s (s.client u).name u
  have back : Still (s.del_from_client_hash_table (s.client u).name u) s :=
    .same rfl rfl rfl rfl rfl rfl rfl
  exact (Keeps.still unhashed).trans
    (.remove_client_from_list fun sound => off (sound.quiet back.toQuiet))

/-- **The memberships and invitations of a person end.** -/
theorem keeps_quitPerson (s : Ircd) (cptr : Option ClientId) (u : ClientId) (comment : Text) :
    Keeps s (s.quitPerson cptr u comment) ∧
      (s.Sound False → ((s.quitPerson cptr u comment).client u).channels = []) := by
  have told : ∀ (a : Bool) (b : Sent) (c d : Bool) (e f : Sent), Still s
      (if c then (s.sendIf a b).send e else (s.sendIf a b).sendIf d f) := by
    intro a b c d e f
    split
    · exact (Still.sendIf ..).trans (.send ..)
    · exact (Still.sendIf ..).trans (.sendIf ..)
  have left : ∀ t : Ircd, Keeps t (removeFromAll (fun s _ => s) u (t.client u).channels.length t) ∧
      (t.Sound False → ((removeFromAll (fun s _ => s) u (t.client u).channels.length t).client u).channels
        = []) := fun t =>
    ⟨⟨fun sound => (Sound.removeFromAll (fun s _ => .refl s) _ t sound (Nat.le_refl _)).1,
      fun sound => NoGhost.removeFromAll (fun s _ => .refl s) (fun _ _ _ => rfl) _ t sound⟩,
      fun sound => (Sound.removeFromAll (fun s _ => .refl s) _ t sound (Nat.le_refl _)).2⟩
  have uninvited : ∀ (invited : List ChannelId) (t : Ircd),
      Still t (invited.foldl (fun s chptr => s.del_invite u chptr) t) := by
    intro invited
    induction invited with
    | nil => exact fun t => .refl t
    | cons c invited ih => exact fun t => (Still.del_invite t u c).trans (ih _)
  unfold quitPerson
  simp only []
  have told := told (!(s.client u).killed)
    (.servButone cptr (line [":", (s.client u).name, " QUIT :", comment])) (!(s.client u).isStealth)
    (s.client u).myClient
    (.commonChannels u (line [":", (s.client u).name, " QUIT :", comment]))
    (.one u (line [":", (s.client u).name, " QUIT :Stealth mode"]))
  generalize (if !(s.client u).isStealth then _ else _ : Ircd) = t at told ⊢
  refine ⟨(Keeps.still told).trans ((left t).1.trans (.still (uninvited ..))), fun sound => ?_⟩
  rw [(uninvited ..).channels]
  exact (left t).2 (sound.quiet told.toQuiet)

/-- **One client leaves.** -/
theorem Keeps.exit_one_client (s : Ircd) (cptr : Option ClientId) (u source : ClientId)
    (comment : Text) : Keeps s (s.exit_one_client cptr u source comment) := by
  have unlinked := Still.unlinkServ s u
  have person : ((s.unlinkServ u).client u).isPerson = (s.client u).isPerson := by
    unfold Client.isPerson Client.isClient
    rw [unlinked.status, unlinked.hasUser]
  -- a client that is no person, after anything that does not touch memberships
  have other : (s.client u).isPerson = false → ∀ t, Still (s.unlinkServ u) t →
      Keeps s (t.removeClient u) := by
    intro noPerson t still
    refine (Keeps.still (unlinked.trans still)).trans (.removeClient fun sound => ?_)
    refine channels_of_not_person sound ?_
    unfold Client.isPerson Client.isClient
    rw [still.status, still.hasUser]
    exact person.trans noPerson
  unfold Ircd.exit_one_client
  simp only []
  split
  · exact .still (unlinked.trans (.send ..))
  · split
    · rename_i server
      have noPerson := Client.not_isPerson_of_isServer server
      split
      · exact other noPerson _ (.refl _)
      · exact other noPerson _ (.sendIf ..)
    · split
      · rename_i noPerson
        exact other (by simpa using noPerson) _ (.refl _)
      · split
        · obtain ⟨quit, off⟩ := keeps_quitPerson (s.unlinkServ u) cptr u comment
          refine (Keeps.still unlinked).trans ⟨fun sound => ?_, fun sound noGhost => ?_⟩
          · exact (Keeps.removeClient fun _ => off sound.relax).sound (quit.sound sound)
          · exact (Keeps.removeClient fun _ => off sound).noGhost (quit.sound sound)
              (quit.noGhost sound noGhost)
        · rename_i isPerson noName
          refine (Keeps.still unlinked).trans (.removeClient fun sound => ?_)
          have named := sound.named u
          rw [unlinked.hasUser, unlinked.name] at named
          unfold Client.isPerson at isPerson
          simp only [Bool.not_eq_true', Bool.not_eq_false, Bool.and_eq_true] at isPerson
          exact absurd (named isPerson.2).2 (by simpa using noName)

end One

/-! ### A server and its dependents -/

theorem Keeps.killed (s : Ircd) (u source : ClientId) (comment : Text) :
    Keeps s ((s.setKilled u).exit_one_client none u source comment) :=
  (Keeps.still (.setKilled s u)).trans (.exit_one_client ..)

theorem Keeps.recurse_remove_clients (comment : Text) :
    ∀ (fuel : Nat) (s : Ircd) (u : ClientId), Keeps s (s.recurse_remove_clients comment fuel u)
  | 0, s, _ => .refl s
  | fuel + 1, s, u => by
    unfold Ircd.recurse_remove_clients
    split
    · exact .refl s
    · split
      · exact .refl s
      · split
        · exact (recurse_remove_clients comment fuel _ _).trans
            ((killed ..).trans (recurse_remove_clients comment fuel _ _))
        · exact (killed ..).trans (recurse_remove_clients comment fuel _ _)
        · exact .refl s

theorem Keeps.sweep (s : Ircd) (u : ClientId) (servers : Bool) (comment : Text) :
    Keeps s (s.sweep u servers comment) := by
  refine Keeps.foldl _ (fun t v => ?_) _ s
  split
  · exact (Keeps.still (.send ..)).trans (.exit_one_client ..)
  · exact .refl t

theorem Keeps.exitServer (s : Ircd) (u : ClientId) : Keeps s (s.exitServer u) := by
  unfold Ircd.exitServer
  simp only []
  generalize s.conf.OverrideNetsplitMessage.getD _ = comment1
  have below := recurse_remove_clients comment1 (s.GlobalClientList.length + 1) s u
  split
  · exact below.trans ((Keeps.still (.send ..)).trans ((Keeps.sweep ..).trans (.sweep ..)))
  · exact below

theorem Still.exitLocal (s : Ircd) (u : ClientId) (comment : Text) :
    Still s (s.exitLocal u comment) := by
  unfold Ircd.exitLocal
  simp only []
  have uncounted : ∀ t : Ircd, Still t (t.uncountLocal (s.client u)) ∧
      (t.uncountLocal (s.client u)).client = t.client := by
    intro t
    unfold uncountLocal
    split
    · exact ⟨.same rfl rfl rfl rfl rfl rfl rfl, rfl⟩
    · exact ⟨.refl t, rfl⟩
  have closed : ∀ t : Ircd, t.client = s.client → Still t
      (((t.uncountLocal (s.client u)).send (.one u (line ["ERROR :Closing Link: ",
        (s.client u).name, " (", comment, ")"]))).setClient u { s.client u with link := none }) := by
    intro t same
    refine (uncounted t).1.trans ((Still.send ..).trans (.setClient ?_ ?_ ?_ ?_))
    all_goals rw [send_client, (uncounted t).2, same]
    rfl
  split
  · exact ((Still.send ..).trans (.send ..)).trans (closed _ rfl)
  · refine (Still.sendIf ..).trans (closed _ ?_)
    unfold Ircd.sendIf
    split <;> rfl

/-- **QUIT, KILL, SQUIT and lost connections.** -/
theorem Keeps.exit_client (s : Ircd) (cptr : Option ClientId) (u source : ClientId)
    (comment : Text) : Keeps s (s.exit_client cptr u source comment) := by
  unfold Ircd.exit_client
  simp only []
  refine Keeps.trans ?_ (.exit_one_client ..)
  have closed : Keeps s (if (s.client u).myConnect then s.exitLocal u comment else s) := by
    split
    · exact .still (.exitLocal ..)
    · exact .refl s
  generalize (if (s.client u).myConnect then s.exitLocal u comment else s) = t at closed ⊢
  have down : Keeps s
      (if (s.client u).isServer && (s.client u).isService then t.servicesDown else t) := by
    split
    · exact closed.trans (.still (.same rfl rfl rfl rfl rfl rfl rfl))
    · exact closed
  generalize (if (s.client u).isServer && (s.client u).isService then t.servicesDown else t) = d
    at down ⊢
  split
  · exact down.trans (.exitServer ..)
  · exact down

end Ircd

end PtlinkIrcd
