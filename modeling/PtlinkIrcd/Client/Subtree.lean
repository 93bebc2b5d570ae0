/-
**A server leaves with its subtree.**

* `Departures` — exits one after the other, each of a listed client on which nobody hangs any more.
* `Departures.dropped` — they drop whom they list, each once.
* `Coherent.recurse_remove_clients` — what hangs below a server leaves, and nobody else.
* `Coherent.hang` — the tree grows by a client.
* `exit_server_drops` — **`exit_client` of a server drops exactly its subtree.**
-/

import PtlinkIrcd.Client.Departure
import PtlinkIrcd.User.Register

set_option linter.unusedSectionVars false

namespace PtlinkIrcd

namespace Ircd

/-! ### Exits one after the other -/

/-- A step that writes only marks of one client: its connection or `FLAGS_KILLED`. -/
structure Idle (u : ClientId) (s t : Ircd) : Prop where
  list : t.GlobalClientList = s.GlobalClientList
  table : t.clientTable = s.clientTable
  chan : t.chan = s.chan
  self : ∃ link killed, t.client u = { s.client u with link := link, killed := killed }
  others : ∀ v, v ≠ u → t.client v = s.client v

/-- **Exits one after the other**: each is of a listed client on which nobody hangs any more, and in
between only clients that leave are marked. -/
inductive Departures : List ClientId → Ircd → Ircd → Prop
  | done (s : Ircd) : Departures [] s s
  | idle {gone : List ClientId} {s t r : Ircd} {u : ClientId} (listed : u ∈ s.GlobalClientList)
      (leaving : u ∈ gone) (idle : Idle u s t) (rest : Departures gone t r) : Departures gone s r
  | exit {gone : List ClientId} {s r : Ircd} {u : ClientId} (listed : u ∈ s.GlobalClientList)
      (leaf : ∀ v, s.parent v ≠ some u) (notMe : u ≠ me) (cptr : Option ClientId)
      (source : ClientId) (comment : Text)
      (rest : Departures gone (s.exit_one_client cptr u source comment) r) :
      Departures (u :: gone) s r

theorem Departures.append {first second : List ClientId} {s t r : Ircd}
    (before : Departures first s t) (after : Departures second t r) :
    Departures (first ++ second) s r := by
  induction before with
  | done s => exact after
  | idle listed leaving idle _ ih =>
    exact .idle listed (List.mem_append_left _ leaving) idle (ih after)
  | exit listed leaf notMe cptr source comment _ ih =>
    exact .exit listed leaf notMe cptr source comment (ih after)

section Idle

variable {s t : Ircd} {u v : ClientId}

theorem Idle.block (idle : Idle u s t) (v : ClientId) :
    ∃ link killed, t.client v = { s.client v with link := link, killed := killed } := by
  by_cases here : v = u
  · exact here ▸ idle.self
  · exact ⟨(s.client v).link, (s.client v).killed, idle.others v here⟩

theorem Idle.send (u : ClientId) (s : Ircd) (event : Sent) : Idle u s (s.send event) :=
  ⟨rfl, rfl, rfl, ⟨_, _, rfl⟩, fun _ _ => rfl⟩

theorem Idle.trans {r : Ircd} (first : Idle u s t) (second : Idle u t r) : Idle u s r where
  list := second.list.trans first.list
  table := second.table.trans first.table
  chan := second.chan.trans first.chan
  self := by
    obtain ⟨link, killed, block⟩ := first.self
    obtain ⟨after, marked, last⟩ := second.self
    exact ⟨after, marked, by rw [last, block]⟩
  others v ne := (second.others v ne).trans (first.others v ne)

theorem Idle.setKilled (s : Ircd) (u : ClientId) : Idle u s (s.setKilled u) :=
  ⟨rfl, rfl, rfl, ⟨(s.client u).link, true, setClient_client_self ..⟩,
    fun _ ne => setClient_client_of_ne s _ ne⟩

theorem Idle.parent (idle : Idle u s t) (v : ClientId) : t.parent v = s.parent v := by
  obtain ⟨link, killed, block⟩ := idle.block v
  unfold Ircd.parent
  rw [block]

theorem Idle.below (idle : Idle u s t) : t.Below = s.Below := by
  unfold Below
  rw [funext idle.parent]

theorem Coherent.idle (coherent : s.Coherent) (idle : Idle u s t) (listed : u ∈ s.GlobalClientList) :
    t.Coherent := by
  have fields : ∀ v, (t.client v).isServer = (s.client v).isServer ∧
      (t.client v).isClient = (s.client v).isClient ∧ (t.client v).serv = (s.client v).serv ∧
      (t.client v).name = (s.client v).name ∧ (t.client v).user = (s.client v).user ∧
      (t.client v).isMe = (s.client v).isMe := by
    intro v
    obtain ⟨link, killed, block⟩ := idle.block v
    rw [block]
    exact ⟨rfl, rfl, rfl, rfl, rfl, rfl⟩
  obtain ⟨nodup, free, root, plain, serv, up, placed, servers, users⟩ := coherent.hanging
  refine ⟨⟨idle.list ▸ nodup, fun v out => ?_, ?_, fun v => (fields v).2.2.2.2.2.trans (plain v),
    fun a server => ?_, fun v a above => ?_,
    fun v ne is_ => ?_, fun a serv has => ?_, fun a serv has => ?_⟩, ⟨fun bucket => ?_,
      fun bucket v member => ?_⟩, ⟨?_, fun c => ?_⟩, fun v has => ?_⟩
  · rw [idle.list] at out
    rw [idle.others v fun here => out (here ▸ listed)]
    exact free v out
  · rw [(fields me).1]
    exact root
  · rw [(fields a).2.2.1]
    exact serv a ((fields a).1 ▸ server)
  · rw [idle.parent] at above
    rw [(fields a).1, idle.below]
    exact up v a above
  · rw [(fields v).1, (fields v).2.1] at is_
    rw [idle.parent]
    exact placed v ne is_
  · rw [(fields a).2.2.1] at has
    refine ⟨(servers a serv has).1, fun v => ?_⟩
    rw [idle.parent, (fields v).1]
    exact (servers a serv has).2 v
  · rw [(fields a).2.2.1] at has
    refine ⟨(users a serv has).1, fun v => ?_⟩
    rw [idle.parent, (fields v).1]
    exact (users a serv has).2 v
  · rw [idle.table]
    exact coherent.keyed.nodup bucket
  · rw [idle.table] at member
    rw [idle.list, (fields v).2.2.2.1]
    exact coherent.keyed.mem bucket v member
  · have left : (fun v => (t.client v).channels) = fun v => (s.client v).channels := by
      funext v
      unfold Client.channels
      rw [(fields v).2.2.2.2.1]
    unfold Linked
    rw [left, idle.chan]
    exact coherent.counted.linked
  · rw [idle.chan]
    exact coherent.counted.users c
  · rw [(fields v).2.2.2.2.1] at has
    rw [(fields v).2.1, (fields v).2.2.2.1]
    exact coherent.named v has

end Idle

/-! ### What the exits drop -/

section Exits

variable {gone more : List ClientId} {s t r : Ircd} {u v a : ClientId}

theorem Dropped.nil (s : Ircd) : Dropped [] s s := by
  refine ⟨by simp, fun bucket => by simp, fun u gone => absurd gone List.not_mem_nil,
    fun c => by simp, fun u _ => ⟨s.invited u, ?_, .refl _, fun _ _ => rfl⟩, fun _ => id⟩
  have serv : (s.client u).serv.map (·.without []) = (s.client u).serv := by
    cases (s.client u).serv <;> simp [Server.without]
  show s.client u = { (s.client u).invitedTo (s.invited u) with
    serv := (s.client u).serv.map (·.without []) }
  rw [invitedTo_invited, serv]

theorem mem_filter_gone {α : Type} [DecidableEq α] (gone more : List α) :
    (fun v => decide (v ∉ more) && decide (v ∉ gone)) = fun v => decide (v ∉ gone ++ more) := by
  funext v
  by_cases out : v ∈ gone <;> by_cases after : v ∈ more <;> simp [out, after]

theorem after_after (gone more : List ClientId) (mid invited : List ChannelId) (x : Client) :
    (x.after gone mid).after more invited = x.after (gone ++ more) invited := by
  have lists : ∀ serv : Server, (serv.without gone).without more = serv.without (gone ++ more) := by
    intro serv
    unfold Server.without
    simp only [List.filter_filter, mem_filter_gone]
  unfold Client.after
  cases x.serv <;> cases x.user <;> simp [lists]

/-- **What two rounds of exits drop.** -/
theorem Dropped.trans (first : Dropped gone s t) (second : Dropped more t r) :
    Dropped (gone ++ more) s r where
  list := by rw [second.list, first.list, List.filter_filter, mem_filter_gone]
  table bucket := by rw [second.table, first.table, List.filter_filter, mem_filter_gone]
  freed u out := by
    by_cases after : u ∈ more
    · exact second.freed u after
    · have before : u ∈ gone := (List.mem_append.mp out).resolve_right after
      obtain ⟨invited, block, _⟩ := second.stays u after
      rw [block, first.freed u before]
      rfl
  members c := by
    rw [second.members, first.members, List.filter_filter]
    exact List.filter_congr fun l _ => congrFun (mem_filter_gone gone more) l.cptr
  stays u stays := by
    rw [List.mem_append, not_or] at stays
    obtain ⟨mid, block, sub, count⟩ := first.stays u stays.1
    obtain ⟨invited, last, subMid, countMid⟩ := second.stays u stays.2
    have now := invited_of_after block sub
    rw [now] at subMid countMid
    refine ⟨invited, ?_, subMid.trans sub, fun c stands => ?_⟩
    · rw [last, block, after_after]
    · rw [countMid c stands, count c fun vacant => stands (second.vacant c vacant)]
  vacant c vacant := second.vacant c (first.vacant c vacant)

theorem Dropped.idle (idle : Idle u s t) (leaving : u ∈ gone) (dropped : Dropped gone t r) :
    Dropped gone s r where
  list := idle.list ▸ dropped.list
  table := idle.table ▸ dropped.table
  freed := dropped.freed
  members c := by rw [dropped.members, idle.chan]
  stays v stays := by
    have same := idle.others v fun here => stays (here ▸ leaving)
    obtain ⟨invited, block, rest⟩ := dropped.stays v stays
    unfold Ircd.invited at rest ⊢
    rw [same] at block rest
    exact ⟨invited, block, rest⟩
  vacant c vacant := dropped.vacant c (by rw [idle.chan]; exact vacant)

/-- **Exits drop whom they list, each once.** -/
theorem Departures.dropped (departures : Departures gone s r) (coherent : s.Coherent) :
    Dropped gone s r ∧ r.Coherent ∧ gone.Nodup ∧ ∀ v ∈ gone, v ∈ s.GlobalClientList ∧ v ≠ me := by
  induction departures with
  | done s => exact ⟨.nil s, coherent, List.nodup_nil, fun v out => absurd out List.not_mem_nil⟩
  | @idle gone s t r u listed leaving idle _ ih =>
    obtain ⟨dropped, after, nodup, all⟩ := ih (coherent.idle idle listed)
    exact ⟨.idle idle leaving dropped, after, nodup, fun v out => idle.list ▸ all v out⟩
  | @exit gone s r u listed leaf notMe cptr source comment _ ih =>
    obtain ⟨one, counted, named⟩ :=
      coherent.exit_one_client listed notMe cptr source comment
    have closed : ∀ v p, s.parent v = some p → p ∈ [u] → v ∈ [u] := fun v p up here =>
      absurd (List.mem_singleton.mp here ▸ up) (leaf v)
    obtain ⟨dropped, after, nodup, all⟩ := ih (coherent.dropped one closed
      (by simpa using notMe.symm) counted named)
    refine ⟨one.trans dropped, after, List.nodup_cons.mpr ⟨fun again => ?_, nodup⟩, fun v out => ?_⟩
    · have still := (all u again).1
      rw [one.list, List.mem_filter] at still
      simp at still
    · rcases List.mem_cons.mp out with rfl | later
      · exact ⟨listed, notMe⟩
      · have there := (all v later).1
        rw [one.list, List.mem_filter] at there
        exact ⟨there.1, (all v later).2⟩

end Exits

/-! ### What hangs below a server -/

section Server

variable {gone : List ClientId} {s t mid : Ircd} {u v a c : ClientId}

theorem Coherent.branch (coherent : s.Coherent) (listed : c ∈ s.GlobalClientList) (ne : c ≠ me)
    (before : Departures gone s t) (below : ∀ v, v ∈ gone ↔ s.Below c v ∧ v ≠ c)
    (idle : Idle c t mid) (cptr : Option ClientId) (source : ClientId) (comment : Text) :
    Departures (gone ++ [c]) s (mid.exit_one_client cptr c source comment) ∧
      ∀ v, v ∈ gone ++ [c] ↔ s.Below c v := by
  obtain ⟨dropped, after, -, -⟩ := before.dropped coherent
  have stays : c ∉ gone := fun out => ((below c).mp out).2 rfl
  have there : c ∈ t.GlobalClientList := by
    rw [dropped.list, List.mem_filter]
    exact ⟨listed, by simpa using stays⟩
  have leaf : ∀ v, mid.parent v ≠ some c := by
    intro v up
    rw [idle.parent] at up
    have here : v ∉ gone := fun out =>
      absurd ((parent_of_zero (dropped.freed v out)).symm.trans up) (by simp)
    rw [dropped.parent here] at up
    refine here ((below v).mpr ⟨.child up, ?_⟩)
    rintro rfl
    exact coherent.hanging.not_below_child up .refl
  refine ⟨before.append (.idle there (List.mem_singleton_self c) idle ?_), fun v => ?_⟩
  · exact .exit (idle.list ▸ there) leaf ne cptr source comment (.done _)
  · rw [List.mem_append, below, List.mem_singleton]
    constructor
    · rintro (⟨under, _⟩ | rfl)
      · exact under
      · exact .refl
    · intro under
      by_cases here : v = c
      · exact .inr here
      · exact .inl ⟨under, here⟩

open Classical in
/-- The clients that hang below a server. -/
noncomputable def dependents (s : Ircd) (a : ClientId) : Finset ClientId :=
  s.GlobalClientList.toFinset.filter fun v => s.Below a v ∧ v ≠ a

open Classical in
theorem mem_dependents (coherent : s.Coherent) (listed : a ∈ s.GlobalClientList) :
    v ∈ s.dependents a ↔ s.Below a v ∧ v ≠ a := by
  unfold dependents
  rw [Finset.mem_filter, List.mem_toFinset, and_iff_right_iff_imp]
  exact fun under => coherent.hanging.listed_of_below listed under.1

open Classical in
theorem dependents_card_le (s : Ircd) (a : ClientId) :
    (s.dependents a).card ≤ s.GlobalClientList.length :=
  (Finset.card_filter_le ..).trans (List.toFinset_card_le _)

theorem Coherent.dependents_child (coherent : s.Coherent) (child : s.parent c = some a) :
    (s.dependents c).card < (s.dependents a).card := by
  have listed := coherent.hanging.listed_of_parent child
  have above := coherent.hanging.listed_of_isServer (coherent.hanging.up c a child).1
  have apart := coherent.hanging.not_below_child child
  refine Finset.card_lt_card ⟨fun v member => ?_, fun all => ?_⟩
  · rw [mem_dependents coherent listed] at member
    rw [mem_dependents coherent above]
    exact ⟨(Lib.Under.child child).trans member.1, fun here => apart (here ▸ member.1)⟩
  · have itself : c ∈ s.dependents c := all ((mem_dependents coherent above).mpr
      ⟨.child child, fun here => apart (here ▸ .refl)⟩)
    exact ((mem_dependents coherent listed).mp itself).2 rfl

/-- A branch below a server has left; what remains below it is the rest. -/
theorem Coherent.pruned (coherent : s.Coherent) (child : s.parent c = some a)
    (before : Departures gone s t) (branch : ∀ v, v ∈ gone ↔ s.Below c v) :
    (∀ v, t.Below a v ↔ s.Below a v ∧ ¬ s.Below c v) ∧
      (t.client a).isServer = (s.client a).isServer ∧
        (t.dependents a).card < (s.dependents a).card := by
  obtain ⟨dropped, after, -, -⟩ := before.dropped coherent
  have closed : ∀ v p, s.parent v = some p → p ∈ gone → v ∈ gone := fun v p up out =>
    (branch v).mpr (.step up ((branch p).mp out))
  have stays : a ∉ gone := fun out =>
    coherent.hanging.not_below_child child ((branch a).mp out)
  have above := coherent.hanging.listed_of_isServer (coherent.hanging.up c a child).1
  have still : a ∈ t.GlobalClientList := by
    rw [dropped.list, List.mem_filter]
    exact ⟨above, by simpa using stays⟩
  have below : ∀ v, t.Below a v ↔ s.Below a v ∧ ¬ s.Below c v := fun v => by
    rw [dropped.below_iff closed stays, branch]
  refine ⟨below, dropped.isServer stays, Finset.card_lt_card ⟨fun v member => ?_, fun all => ?_⟩⟩
  · rw [mem_dependents after still, below] at member
    rw [mem_dependents coherent above]
    exact ⟨member.1.1, member.2⟩
  · have itself : c ∈ t.dependents a := all ((mem_dependents coherent above).mpr
      ⟨.child child, fun here => coherent.hanging.not_below_child child (here ▸ .refl)⟩)
    rw [mem_dependents after still, below] at itself
    exact itself.1.2 .refl

/-- **All that hangs below a server leaves, and nobody else.** -/
theorem Coherent.recurse_remove_clients (comment : Text) :
    ∀ (fuel : Nat) (s : Ircd) (a : ClientId), s.Coherent → (s.client a).isServer = true →
      (s.dependents a).card < fuel → ∃ gone,
        Departures gone s (s.recurse_remove_clients comment fuel a) ∧
          ∀ v, v ∈ gone ↔ s.Below a v ∧ v ≠ a
  | 0, _, _, _, _, enough => absurd enough (Nat.not_lt_zero _)
  | fuel + 1, s, a, coherent, server, enough => by
    obtain ⟨serv, has⟩ := Option.isSome_iff_exists.mp (coherent.hanging.serv a server)
    -- a child leaves after what hangs below it, and the loop goes on
    have round : ∀ (c : ClientId) (gone : List ClientId) (t mid : Ircd) (source : ClientId)
        (text : Text), s.parent c = some a → Departures gone s t →
        (∀ v, v ∈ gone ↔ s.Below c v ∧ v ≠ c) → Idle c t mid → ∃ all,
          Departures all s ((mid.exit_one_client none c source text).recurse_remove_clients comment
            fuel a) ∧ ∀ v, v ∈ all ↔ s.Below a v ∧ v ≠ a := by
      intro c gone t mid source text child before below idle
      obtain ⟨departures, branch⟩ := coherent.branch (coherent.hanging.listed_of_parent child)
        (ne_me_of_parent child) before below idle none source text
      obtain ⟨rest, same, fewer⟩ := coherent.pruned child departures branch
      obtain ⟨-, after, -, -⟩ := departures.dropped coherent
      obtain ⟨others, later, iff⟩ := Coherent.recurse_remove_clients comment fuel _ a after
        (same.trans server) (by omega)
      refine ⟨gone ++ [c] ++ others, departures.append later, fun v => ?_⟩
      rw [List.mem_append, branch, iff, rest]
      constructor
      · rintro (under | ⟨⟨under, _⟩, ne⟩)
        · refine ⟨(Lib.Under.child child).trans under, fun here => ?_⟩
          exact coherent.hanging.not_below_child child (here ▸ under)
        · exact ⟨under, ne⟩
      · rintro ⟨under, ne⟩
        by_cases here : s.Below c v
        · exact .inl here
        · exact .inr ⟨⟨under, here⟩, ne⟩
    unfold Ircd.recurse_remove_clients
    rw [if_neg (by rw [coherent.hanging.plain]; simp), has]
    simp only []
    have children : ∀ c, s.parent c = some a ↔ c ∈ serv.servers ∨ c ∈ serv.users := fun c =>
      coherent.hanging.parent_of_mem has
    split
    · rename_i c rest some_
      have child : s.parent c = some a := (children c).mpr (.inl (some_ ▸ List.mem_cons_self))
      have isServer := ((coherent.hanging.servers a serv has).2 c).mp (some_ ▸ List.mem_cons_self)
      obtain ⟨gone, before, below⟩ := Coherent.recurse_remove_clients comment fuel s c coherent
        isServer.2 (by have := coherent.dependents_child child; omega)
      exact round c gone _ _ me _ child before below (.setKilled _ c)
    · rename_i c rest none_ some_
      have child : s.parent c = some a := (children c).mpr (.inr (some_ ▸ List.mem_cons_self))
      have user := ((coherent.hanging.users a serv has).2 c).mp (some_ ▸ List.mem_cons_self)
      refine round c [] s _ me comment child (.done s) (fun v => ?_) (.setKilled s c)
      refine iff_of_false List.not_mem_nil fun under => ?_
      obtain ⟨d, below, _⟩ := under.1.exists_child under.2
      exact absurd ((coherent.hanging.up d c below).1.symm.trans user.2) (by simp)
    · rename_i noServers noUsers
      refine ⟨[], .done s, fun v => iff_of_false List.not_mem_nil fun under => ?_⟩
      obtain ⟨c, child, _⟩ := under.1.exists_child under.2
      rw [children, noServers, noUsers] at child
      exact child.elim List.not_mem_nil List.not_mem_nil

end Server

/-! ### The tree grows -/

section Grow

variable {s : Ircd} {u v a p : ClientId} {x : Client} {before : Server}

/-- A block as it comes to hang on a server. -/
structure Fits (p : ClientId) (x : Client) : Prop where
  servptr : x.servptr = some p
  plain : x.isMe = false
  serv : x.isServer = true → x.serv.isSome = true
  empty : ∀ serv, x.serv = some serv → serv.servers = [] ∧ serv.users = []
  alone : x.channels = []
  named : x.user.isSome = true → x.isClient = true ∧ x.name ≠ []

/-- What a server's lists are with a new client. -/
def pushed (u : ClientId) (x : Client) (serv : Server) : Server :=
  if x.isServer then { serv with servers := u :: serv.servers }
  else { serv with users := u :: serv.users }

theorem hang_eq (ne : u ≠ p) (servptr : x.servptr = some p) (has : (s.client p).serv = some before) :
    (s.addClient u x).linkServ u =
      (s.addClient u x).setClient p { s.client p with serv := some (pushed u x before) } := by
  have self : (s.addClient u x).client u = x := Function.update_self ..
  have above : (s.addClient u x).client p = s.client p := Function.update_of_ne ne.symm ..
  unfold linkServ
  rw [self, servptr]
  simp only []
  rw [above, has]
  rfl

theorem Hanging.not_parent_of_free (hanging : s.Hanging) (free : s.Free u) (v : ClientId) :
    s.parent v ≠ some u := by
  intro up
  have server := (hanging.up v u up).1
  rw [free.1] at server
  exact absurd server (by decide)

/-- The list holds, each once, the clients of a kind that hang on a server. -/
structure Dependents (parent : ClientId → Option ClientId) (kind : ClientId → Prop) (a : ClientId)
    (l : List ClientId) : Prop where
  nodup : l.Nodup
  mem : ∀ v, v ∈ l ↔ parent v = some a ∧ kind v

namespace Dependents

variable {parent other : ClientId → Option ClientId} {kind kind' : ClientId → Prop}
  {l : List ClientId}

theorem leaf (fresh : ∀ v, other v ≠ some u) : Dependents other kind' u [] :=
  ⟨List.nodup_nil, fun v => iff_of_false List.not_mem_nil fun both => fresh v both.1⟩

theorem kept (dependents : Dependents parent kind a l) (grafts : Lib.Grafts u p parent other)
    (same : ∀ v, v ≠ u → (kind' v ↔ kind v)) (out : u ∉ l) (apart : ¬ (p = a ∧ kind' u)) :
    Dependents other kind' a l := by
  refine ⟨dependents.nodup, fun v => ?_⟩
  by_cases mine : v = u
  · rw [mine, grafts.hung]
    exact iff_of_false out fun both => apart ⟨Option.some.inj both.1, both.2⟩
  · rw [dependents.mem, grafts.same v mine, same v mine]

theorem cons (dependents : Dependents parent kind p l) (grafts : Lib.Grafts u p parent other)
    (same : ∀ v, v ≠ u → (kind' v ↔ kind v)) (out : u ∉ l) (own : kind' u) :
    Dependents other kind' p (u :: l) := by
  refine ⟨List.nodup_cons.mpr ⟨out, dependents.nodup⟩, fun v => ?_⟩
  by_cases mine : v = u
  · rw [mine, grafts.hung]
    exact iff_of_true List.mem_cons_self ⟨rfl, own⟩
  · rw [List.mem_cons, or_iff_right mine, dependents.mem, grafts.same v mine, same v mine]

end Dependents

/-- **A new client hangs on a server.** -/
theorem Hanging.hang (hanging : s.Hanging) (free : s.Free u) (fits : Fits p x)
    (server : (s.client p).isServer = true) : ((s.addClient u x).linkServ u).Hanging := by
  obtain ⟨before, has⟩ := Option.isSome_iff_exists.mp (hanging.serv p server)
  have ne : u ≠ p := by
    rintro rfl
    rw [free.1] at server
    exact absurd server (by decide)
  have notMe : u ≠ me := by
    rintro rfl
    exact free.2 (hanging.listed_of_isServer hanging.root)
  rw [hang_eq ne fits.servptr has]
  generalize hung : (s.addClient u x).setClient p
    { s.client p with serv := some (pushed u x before) } = t
  have list : t.GlobalClientList = u :: s.GlobalClientList := by rw [← hung]; rfl
  have self : t.client u = x := by
    rw [← hung, setClient_client_of_ne _ _ ne]
    exact Function.update_self ..
  have above : t.client p = { s.client p with serv := some (pushed u x before) } := by
    rw [← hung, setClient_client_self]
  have others : ∀ v, v ≠ u → v ≠ p → t.client v = s.client v := fun v apart other => by
    rw [← hung, setClient_client_of_ne _ _ other]
    exact Function.update_of_ne apart ..
  have fields : ∀ v, v ≠ u → (t.client v).isServer = (s.client v).isServer ∧
      (t.client v).isClient = (s.client v).isClient ∧ (t.client v).isMe = (s.client v).isMe ∧
      t.parent v = s.parent v := by
    intro v apart
    unfold Ircd.parent
    by_cases here : v = p
    · rw [here, above]
      exact ⟨rfl, rfl, rfl, rfl⟩
    · rw [others v apart here]
      exact ⟨rfl, rfl, rfl, rfl⟩
  have grafts : Lib.Grafts u p s.parent t.parent :=
    ⟨hanging.not_parent_of_free free, by rw [parent_of_ne notMe, self, fits.servptr],
      fun v apart => (fields v apart).2.2.2⟩
  have belowP : t.Below me p :=
    (grafts.under_iff ne.symm).mpr (hanging.below_of_isServer server)
  have lists : ∀ a serv, (t.client a).serv = some serv → a = u ∧ serv.servers = [] ∧ serv.users = [] ∨
      a = p ∧ serv = pushed u x before ∨ a ≠ u ∧ a ≠ p ∧ (s.client a).serv = some serv := by
    intro a serv is_
    by_cases mine : a = u
    · rw [mine, self] at is_
      exact .inl ⟨mine, fits.empty serv is_⟩
    · by_cases here : a = p
      · rw [here, above] at is_
        exact .inr (.inl ⟨here, (Option.some.inj is_).symm⟩)
      · rw [others a mine here] at is_
        exact .inr (.inr ⟨mine, here, is_⟩)
  have leaf : ∀ v, t.parent v ≠ some u := by
    intro v up
    by_cases here : v = u
    · rw [here, grafts.hung] at up
      exact ne (Option.some.inj up).symm
    · exact grafts.fresh v ((grafts.same v here).symm.trans up)
  have unhung : ∀ {b : ClientId} {serv : Server}, (s.client b).serv = some serv →
      u ∉ serv.servers ∧ u ∉ serv.users := fun had => by
    have out := mt (hanging.parent_of_mem (v := u) had).mpr
      (by rw [parent_of_zero free.1]; simp)
    exact not_or.mp out
  refine ⟨?_, fun v out => ?_, ?_, fun v => ?_, fun a is_ => ?_, fun v a up => ?_, fun v other is_ => ?_,
    fun a serv is_ => ?_, fun a serv is_ => ?_⟩
  · rw [list]
    exact List.nodup_cons.mpr ⟨free.2, hanging.nodup⟩
  · rw [list, List.mem_cons, not_or] at out
    have apart : v ≠ p := fun here => out.2 (here ▸ hanging.listed_of_isServer server)
    rw [others v out.1 apart]
    exact hanging.free v out.2
  · rw [(fields me notMe.symm).1]
    exact hanging.root
  · by_cases mine : v = u
    · rw [mine, self]
      exact fits.plain
    · rw [(fields v mine).2.2.1]
      exact hanging.plain v
  · by_cases mine : a = u
    · rw [mine, self] at is_ ⊢
      exact fits.serv is_
    · by_cases here : a = p
      · rw [here, above]
        rfl
      · rw [others a mine here] at is_ ⊢
        exact hanging.serv a is_
  · have other : a ≠ u := fun here => leaf v (here ▸ up)
    rw [(fields a other).1]
    by_cases mine : v = u
    · rw [mine, grafts.hung] at up
      obtain rfl := Option.some.inj up
      exact ⟨server, mine ▸ .step grafts.hung belowP⟩
    · rw [grafts.same v mine] at up
      exact ⟨(hanging.up v a up).1, (grafts.under_iff mine).mpr (hanging.up v a up).2⟩
  · by_cases mine : v = u
    · rw [mine, grafts.hung]
      rfl
    · rw [grafts.same v mine]
      rw [(fields v mine).1, (fields v mine).2.1] at is_
      exact hanging.placed v other is_
  · have same : ∀ v, v ≠ u → ((t.client v).isServer = true ↔ (s.client v).isServer = true) :=
      fun v apart => by rw [(fields v apart).1]
    have result : Dependents t.parent (fun v => (t.client v).isServer = true) a serv.servers := by
      rcases lists a serv is_ with ⟨rfl, none_, _⟩ | ⟨rfl, rfl⟩ | ⟨mine, here, had⟩
      · exact none_ ▸ .leaf leaf
      · obtain ⟨nodup, mem⟩ := hanging.servers a before has
        unfold pushed
        split
        · rename_i isServer
          exact .cons ⟨nodup, mem⟩ grafts same (unhung has).1 (by rw [self, isServer])
        · rename_i user
          exact .kept ⟨nodup, mem⟩ grafts same (unhung has).1 fun both => user (self ▸ both.2)
      · obtain ⟨nodup, mem⟩ := hanging.servers a serv had
        exact .kept ⟨nodup, mem⟩ grafts same (unhung had).1 fun both => here both.1.symm
    exact ⟨result.nodup, result.mem⟩
  · have same : ∀ v, v ≠ u → ((t.client v).isServer = false ↔ (s.client v).isServer = false) :=
      fun v apart => by rw [(fields v apart).1]
    have result : Dependents t.parent (fun v => (t.client v).isServer = false) a serv.users := by
      rcases lists a serv is_ with ⟨rfl, _, none_⟩ | ⟨rfl, rfl⟩ | ⟨mine, here, had⟩
      · exact none_ ▸ .leaf leaf
      · obtain ⟨nodup, mem⟩ := hanging.users a before has
        unfold pushed
        split
        · rename_i isServer
          exact .kept ⟨nodup, mem⟩ grafts same (unhung has).2 fun both =>
            absurd (isServer.symm.trans (self ▸ both.2)) (by decide)
        · rename_i user
          exact .cons ⟨nodup, mem⟩ grafts same (unhung has).2 (by rw [self]; simpa using user)
      · obtain ⟨nodup, mem⟩ := hanging.users a serv had
        exact .kept ⟨nodup, mem⟩ grafts same (unhung had).2 fun both => here both.1.symm
    exact ⟨result.nodup, result.mem⟩

/-- **The tree, the hash table and the channels stay coherent when a client comes.** -/
theorem Coherent.hang (coherent : s.Coherent) (free : s.Free u) (fits : Fits p x)
    (server : (s.client p).isServer = true) : ((s.addClient u x).linkServ u).Coherent := by
  obtain ⟨before, has⟩ := Option.isSome_iff_exists.mp (coherent.hanging.serv p server)
  have hanging := coherent.hanging.hang free fits server
  have ne : u ≠ p := by
    rintro rfl
    rw [free.1] at server
    exact absurd server (by decide)
  have block : ∀ v, ((s.addClient u x).linkServ u).client v =
      if v = u then x
      else { s.client v with serv := (((s.addClient u x).linkServ u).client v).serv } := by
    intro v
    rw [hang_eq ne fits.servptr has]
    by_cases mine : v = u
    · rw [if_pos mine, mine, setClient_client_of_ne _ _ ne]
      exact Function.update_self ..
    · rw [if_neg mine]
      by_cases here : v = p
      · rw [here, setClient_client_self]
      · rw [setClient_client_of_ne _ _ here]
        have same : (s.addClient u x).client v = s.client v := Function.update_of_ne mine ..
        rw [same]
  have frame : ((s.addClient u x).linkServ u).GlobalClientList = u :: s.GlobalClientList ∧
      ((s.addClient u x).linkServ u).clientTable = s.clientTable.add (hashNickName x.name) u ∧
      ((s.addClient u x).linkServ u).chan = s.chan := by
    rw [hang_eq ne fits.servptr has]
    exact ⟨rfl, rfl, rfl⟩
  generalize (s.addClient u x).linkServ u = t at hanging block frame ⊢
  obtain ⟨list, table, chan⟩ := frame
  have unkeyed : ∀ bucket, u ∉ s.clientTable bucket := fun bucket member =>
    free.2 (coherent.keyed.mem bucket u member).1
  refine ⟨hanging, ⟨fun bucket => ?_, fun bucket v member => ?_⟩, ⟨?_, fun c => ?_⟩, fun v has => ?_⟩
  · rw [table]
    unfold Lib.ChainTable.add
    by_cases here : bucket = hashNickName x.name
    · rw [here, Function.update_self]
      exact List.nodup_cons.mpr ⟨unkeyed _, coherent.keyed.nodup _⟩
    · rw [Function.update_of_ne here]
      exact coherent.keyed.nodup bucket
  · rw [table] at member
    unfold Lib.ChainTable.add at member
    have old : v ∈ s.clientTable bucket → v ∈ t.GlobalClientList ∧
        hashNickName (t.client v).name = bucket := by
      intro member
      obtain ⟨listed, hash⟩ := coherent.keyed.mem bucket v member
      have mine : v ≠ u := fun here => free.2 (here ▸ listed)
      rw [list, block, if_neg mine]
      exact ⟨List.mem_cons_of_mem _ listed, hash⟩
    by_cases here : bucket = hashNickName x.name
    · rw [here, Function.update_self] at member
      rcases List.mem_cons.mp member with rfl | member
      · rw [list, block, if_pos rfl]
        exact ⟨List.mem_cons_self, here.symm⟩
      · exact old (here ▸ member)
    · rw [Function.update_of_ne here] at member
      exact old member
  · have left : (fun v => (t.client v).channels) = fun v => (s.client v).channels := by
      funext v
      rw [block]
      by_cases mine : v = u
      · rw [if_pos mine, mine, fits.alone, free.1]
        rfl
      · rw [if_neg mine]
        rfl
    unfold Linked
    rw [left, chan]
    exact coherent.counted.linked
  · rw [chan]
    exact coherent.counted.users c
  · by_cases mine : v = u
    · rw [block, if_pos mine] at has ⊢
      exact fits.named has
    · rw [block, if_neg mine] at has ⊢
      exact coherent.named v has

theorem Coherent.blank (conf : Conf) (now : Int) (name : Text) : (blank conf now name).Coherent := by
  have self : (Ircd.blank conf now name).client me = bootClient name := by
    show Function.update (fun _ => Client.zero) me (bootClient name) me = _
    rw [Function.update_self]
  have others : ∀ u, u ≠ me → (Ircd.blank conf now name).client u = .zero := fun u ne => by
    show Function.update (fun _ => Client.zero) me (bootClient name) u = _
    rw [Function.update_of_ne ne]
  have list : (Ircd.blank conf now name).GlobalClientList = [me] := rfl
  have noParent : ∀ v, (Ircd.blank conf now name).parent v = none := by
    intro v
    by_cases root : v = me
    · rw [root, parent_me]
    · exact parent_of_zero (others v root)
  have lists : ∀ a serv, ((Ircd.blank conf now name).client a).serv = some serv →
      serv.servers = [] ∧ serv.users = [] := by
    intro a serv has
    by_cases root : a = me
    · rw [root, self] at has
      cases has
      exact ⟨rfl, rfl⟩
    · rw [others a root] at has
      exact absurd has (by simp [Client.zero])
  have members : ∀ c, ((Ircd.blank conf now name).chan c).members = [] ∧
      ((Ircd.blank conf now name).chan c).users = 0 := fun c => ⟨rfl, rfl⟩
  refine ⟨⟨List.nodup_singleton me, fun u out => others u fun root => out (root ▸ List.mem_singleton_self me),
    by rw [self]; rfl, fun u => ?_, fun a server => ?_, fun v a up => ?_, fun v ne is_ => ?_,
    fun a serv has => ?_, fun a serv has => ?_⟩, ⟨fun bucket => ?_, fun bucket u member => ?_⟩,
    ⟨⟨fun u => ?_, fun c => ?_, fun u c => ?_⟩, fun c => ?_⟩, fun u has => ?_⟩
  · by_cases root : u = me
    · rw [root, self]
      rfl
    · rw [others u root]
      rfl
  · by_cases root : a = me
    · rw [root, self]
      rfl
    · rw [others a root] at server
      exact absurd server (by decide)
  · exact absurd ((noParent v).symm.trans up) (by simp)
  · rw [others v ne] at is_
    rcases is_ with is_ | is_ <;> exact absurd is_ (by decide)
  · rw [(lists a serv has).1]
    exact ⟨List.nodup_nil, fun v => by simp [noParent]⟩
  · rw [(lists a serv has).2]
    exact ⟨List.nodup_nil, fun v => by simp [noParent]⟩
  · show (Function.update (fun _ => []) (hashNickName name) [me] bucket : List ClientId).Nodup
    by_cases here : bucket = hashNickName name
    · rw [here, Function.update_self]
      exact List.nodup_singleton me
    · rw [Function.update_of_ne here]
      exact List.nodup_nil
  · have inTable : u ∈ Function.update (fun _ => []) (hashNickName name) [me] bucket := member
    by_cases here : bucket = hashNickName name
    · rw [here, Function.update_self, List.mem_singleton] at inTable
      rw [inTable, list, self, here]
      exact ⟨List.mem_singleton_self me, rfl⟩
    · rw [Function.update_of_ne here] at inTable
      exact absurd inTable List.not_mem_nil
  · by_cases root : u = me
    · rw [root, self]
      exact List.nodup_nil
    · rw [others u root]
      exact List.nodup_nil
  · unfold Channel.memberIds
    rw [(members c).1]
    exact List.nodup_nil
  · have empty : ((Ircd.blank conf now name).client u).channels = [] := by
      by_cases root : u = me
      · rw [root, self]
        rfl
      · rw [others u root]
        rfl
    unfold Channel.memberIds
    rw [empty, (members c).1]
    simp
  · rw [(members c).1, (members c).2]
    rfl
  · by_cases root : u = me
    · rw [root, self] at has
      exact absurd has (by simp [bootClient, Client.zero])
    · rw [others u root] at has
      exact absurd has (by simp [Client.zero])

end Grow

/-! ### `exit_client` of a server -/

/-- **Everybody is reached through the connection that leads to it.** -/
structure Routed (s : Ircd) : Prop where
  own : (s.client me).link = some me
  /-- Who hangs nowhere yet is a connection. -/
  hung : ∀ v ∈ s.GlobalClientList, v ≠ me → (s.client v).local_flag = true ∨
    (s.parent v).isSome = true
  direct : ∀ v ∈ s.GlobalClientList, v ≠ me → (s.client v).local_flag = true →
    (s.client v).link = some v
  behind : ∀ v a, s.parent v = some a → (s.client v).local_flag = false →
    (s.client v).link = (s.client a).link

section Exit

variable {s t : Ircd} {u v : ClientId}

theorem Routed.below_of_link (routed : s.Routed) (hanging : s.Hanging) (ne : u ≠ me)
    (listed : v ∈ s.GlobalClientList) (link : (s.client v).link = some u) : s.Below u v := by
  have itself : ∀ {v}, v ∈ s.GlobalClientList → v ≠ me → (s.client v).local_flag = true →
      (s.client v).link = some u → s.Below u v := by
    intro v listed notMe mine link
    obtain rfl := Option.some.inj ((routed.direct v listed notMe mine).symm.trans link)
    exact .refl
  by_cases root : v = me
  · rw [root, routed.own] at link
    exact absurd (Option.some.inj link).symm ne
  rcases routed.hung v listed root with mine | placed
  · exact itself listed root mine link
  obtain ⟨p, up⟩ := Option.isSome_iff_exists.mp placed
  have under : Lib.Under s.parent me v := (hanging.up v p up).2
  clear placed up p listed root
  induction under with
  | refl =>
    rw [routed.own] at link
    exact absurd (Option.some.inj link).symm ne
  | @step v p up _ ih =>
    cases mine : (s.client v).local_flag with
    | true => exact itself (hanging.listed_of_parent up) (ne_me_of_parent up) mine link
    | false => exact .step up (ih ((routed.behind v p up mine).symm.trans link))

theorem idle_exitLocal (s : Ircd) (u : ClientId) (comment : Text) :
    Idle u s (s.exitLocal u comment) ∧ ((s.exitLocal u comment).client u).link = none := by
  have uncounted : ∀ (t : Ircd) (x : Client), Idle u t (t.uncountLocal x) ∧
      (t.uncountLocal x).client = t.client := by
    intro t x
    unfold uncountLocal
    split
    · exact ⟨⟨rfl, rfl, rfl, ⟨_, _, rfl⟩, fun _ _ => rfl⟩, rfl⟩
    · exact ⟨⟨rfl, rfl, rfl, ⟨_, _, rfl⟩, fun _ _ => rfl⟩, rfl⟩
  have closed : ∀ t : Ircd, Idle u s t → Idle u s
      (((t.uncountLocal (s.client u)).send (.one u (line ["ERROR :Closing Link: ",
        (s.client u).name, " (", comment, ")"]))).setClient u { s.client u with link := none }) := by
    intro t idle
    have counted := idle.trans (uncounted t (s.client u)).1
    refine ⟨counted.list, counted.table, counted.chan, ?_, fun v ne => ?_⟩
    · rw [setClient_client_self]
      exact ⟨none, (s.client u).killed, rfl⟩
    · rw [setClient_client_of_ne _ _ ne, send_client]
      exact counted.others v ne
  unfold Ircd.exitLocal
  simp only []
  refine ⟨?_, by rw [setClient_client_self]⟩
  split
  · exact closed _ ((Idle.send ..).trans (.send ..))
  · refine closed _ ?_
    unfold sendIf
    split
    · exact .send ..
    · exact ⟨rfl, rfl, rfl, ⟨_, _, rfl⟩, fun _ _ => rfl⟩

theorem sweep_nobody (nobody : ∀ v ∈ s.GlobalClientList, (s.client v).link ≠ some u)
    (servers : Bool) (comment : Text) : s.sweep u servers comment = s := by
  have all : ∀ list : List ClientId, (∀ v ∈ list, (s.client v).link ≠ some u) →
      list.foldl (fun s acptr =>
        if (s.client acptr).isServer = servers ∧ (s.client acptr).link = some u then
          (s.send (.ops (line ["Dependent client ", (s.client acptr).name,
            " not on llist!?"]))).exit_one_client none acptr me comment
        else s) s = s := by
    intro list
    induction list with
    | nil => exact fun _ => rfl
    | cons v list ih =>
      intro none_
      rw [List.foldl_cons, if_neg fun both => none_ v List.mem_cons_self both.2]
      exact ih fun w member => none_ w (List.mem_cons_of_mem _ member)
  exact all _ nobody

theorem idle_start (s : Ircd) (u : ClientId) (comment : Text) (service : Bool) : ∃ t,
    (if service then (if (s.client u).myConnect then s.exitLocal u comment else s).servicesDown
      else if (s.client u).myConnect then s.exitLocal u comment else s) = t ∧ Idle u s t ∧
      ((s.client u).local_flag = true → (t.client u).link = none) ∧
      ((s.client u).local_flag = false → (t.client u).link = (s.client u).link) := by
  obtain ⟨idle, closed⟩ := idle_exitLocal s u comment
  have first : ∃ t, (if (s.client u).myConnect then s.exitLocal u comment else s) = t ∧ Idle u s t ∧
      ((s.client u).local_flag = true → (t.client u).link = none) ∧
      ((s.client u).local_flag = false → (t.client u).link = (s.client u).link) := by
    refine ⟨_, rfl, ?_⟩
    unfold Client.myConnect
    cases (s.client u).local_flag with
    | true => exact ⟨idle, fun _ => closed, fun no => absurd no (by simp)⟩
    | false =>
      exact ⟨⟨rfl, rfl, rfl, ⟨_, _, rfl⟩, fun _ _ => rfl⟩, fun no => absurd no (by simp), fun _ => rfl⟩
  obtain ⟨t, same, idle, link⟩ := first
  rw [same]
  refine ⟨_, rfl, ?_⟩
  cases service with
  | true => exact ⟨idle.trans ⟨rfl, rfl, rfl, ⟨_, _, rfl⟩, fun _ _ => rfl⟩, link⟩
  | false => exact ⟨idle, link⟩

/-- **A server that exits takes its subtree along, and nothing else.** -/
theorem exit_server_drops (coherent : s.Coherent) (routed : s.Routed)
    (server : (s.client u).isServer = true) (ne : u ≠ me) (cptr : Option ClientId)
    (source : ClientId) (comment : Text) : ∃ gone,
      gone.Nodup ∧ (∀ v, v ∈ gone ↔ s.Below u v) ∧
        Departures gone s (s.exit_client cptr u source comment) ∧
          Dropped gone s (s.exit_client cptr u source comment) := by
  have listed := coherent.hanging.listed_of_isServer server
  obtain ⟨t, start, idle, closed, open_⟩ :=
    idle_start s u comment ((s.client u).isServer && (s.client u).isService)
  have coherentT := coherent.idle idle listed
  have serverT : (t.client u).isServer = true := by
    obtain ⟨link, killed, block⟩ := idle.self
    rw [block]
    exact server
  -- the part of `exit_client` for servers
  obtain ⟨gone, r, mid, departures, below, marked, same⟩ : ∃ gone r mid, Departures gone t r ∧
      (∀ v, v ∈ gone ↔ t.Below u v ∧ v ≠ u) ∧ Idle u r mid ∧ t.exitServer u = mid := by
    unfold Ircd.exitServer
    simp only []
    generalize t.conf.OverrideNetsplitMessage.getD _ = comment1
    obtain ⟨gone, departures, below⟩ := Coherent.recurse_remove_clients comment1
      (t.GlobalClientList.length + 1) t u coherentT serverT
      (Nat.lt_succ_of_le (dependents_card_le t u))
    refine ⟨gone, _, _, departures, below, ?_, rfl⟩
    obtain ⟨dropped, -, -, -⟩ := departures.dropped coherentT
    generalize t.recurse_remove_clients comment1 (t.GlobalClientList.length + 1) u = r at dropped ⊢
    split
    · rename_i here
      have nobody : ∀ v ∈ r.GlobalClientList, (r.client v).link ≠ some u := by
        intro v member link
        rw [dropped.list, List.mem_filter] at member
        have stays : v ∉ gone := by simpa using member.2
        obtain ⟨invited, block, _⟩ := dropped.stays v stays
        rw [block] at link
        have before : (t.client v).link = some u := link
        by_cases itself : v = u
        · rw [itself] at before
          cases mine : (s.client u).local_flag with
          | true => exact absurd ((closed mine).symm.trans before) (by simp)
          | false =>
            obtain ⟨_, _, self⟩ := idle.self
            rw [self] at here
            have up : s.parent u = some me := (parent_of_ne ne).trans here
            rw [open_ mine, routed.behind u me up mine, routed.own] at before
            exact ne (Option.some.inj before).symm
        · rw [idle.others v itself] at before
          have under := routed.below_of_link coherent.hanging ne (idle.list ▸ member.1) before
          exact stays ((below v).mpr ⟨idle.below ▸ under, itself⟩)
      rw [sweep_nobody (s := r.send _) nobody, sweep_nobody (s := r.send _) nobody]
      exact .send ..
    · exact ⟨rfl, rfl, rfl, ⟨_, _, rfl⟩, fun _ _ => rfl⟩
  obtain ⟨all, branch⟩ := coherentT.branch (idle.list ▸ listed) ne departures below marked cptr source
    comment
  have exits : s.exit_client cptr u source comment = mid.exit_one_client cptr u source comment := by
    unfold Ircd.exit_client
    simp only []
    rw [if_pos server, start, same]
  rw [idle.below] at branch
  have whole : Departures (gone ++ [u]) s (mid.exit_one_client cptr u source comment) :=
    .idle listed (List.mem_append_right _ (List.mem_singleton_self u)) idle all
  obtain ⟨dropped, -, nodup, -⟩ := whole.dropped coherent
  rw [exits]
  exact ⟨gone ++ [u], nodup, branch, whole, dropped⟩

/-- A server with a server and a user behind it. -/
def sampleSubtree : Ircd :=
  let s := (blank sampleConf 1000 "hub").addClient 1 (serverBlock 1 1 me "leaf.net" "hub" false)
  let s := (s.linkServ 1).addClient 2 (serverBlock 2 1 1 "far.net" "leaf.net" false)
  let s := (s.linkServ 2).addClient 3
    { remoteUser 1 "ann" "ann" "a.b" "a.b" "far.net" 900 0 with servptr := some 2 }
  s.linkServ 3

theorem sampleSubtree_coherent : sampleSubtree.Coherent := by
  have server : ∀ (u cptr p : ClientId) (name up : Text),
      Fits p (serverBlock u cptr p name up false) := fun u cptr p name up =>
    ⟨rfl, rfl, fun _ => rfl, fun serv has => by cases has; exact ⟨rfl, rfl⟩, rfl,
      fun has => absurd has (by simp [serverBlock, Client.zero])⟩
  have user : Fits 2 { remoteUser 1 "ann" "ann" "a.b" "a.b" "far.net" 900 0 with
      servptr := some 2 } :=
    ⟨rfl, rfl, fun no => absurd no (by decide), fun serv has => absurd has (by simp [remoteUser,
      Client.zero]), rfl, fun _ => ⟨rfl, by decide⟩⟩
  have near := (Coherent.blank sampleConf 1000 "hub").hang (u := 1) (by decide)
    (server 1 1 me "leaf.net" "hub") (by decide)
  have far := near.hang (u := 2) (by decide) (server 2 1 1 "far.net" "leaf.net") (by decide)
  exact far.hang (u := 3) (by decide) user (by decide)

theorem exit_server_drops_sample : ∃ gone,
    gone.Nodup ∧ (∀ v, v ∈ gone ↔ sampleSubtree.Below 1 v) ∧
      Departures gone sampleSubtree (sampleSubtree.exit_client (some 1) 1 1 "gone") ∧
        Dropped gone sampleSubtree (sampleSubtree.exit_client (some 1) 1 1 "gone") := by
  have list : sampleSubtree.GlobalClientList = [3, 2, 1, me] := rfl
  refine exit_server_drops sampleSubtree_coherent ⟨rfl, fun v listed => ?_, fun v listed => ?_,
    fun v a up => ?_⟩ (by decide) (by decide) (some 1) 1 "gone"
  · rw [list] at listed
    revert v
    decide
  · rw [list] at listed
    revert v
    decide
  · have listed := sampleSubtree_coherent.hanging.listed_of_parent up
    rw [list] at listed
    have all : ∀ v ∈ [3, 2, 1, me], ∀ a ∈ sampleSubtree.parent v,
        (sampleSubtree.client v).local_flag = false →
          (sampleSubtree.client v).link = (sampleSubtree.client a).link := by decide
    exact all v listed a up

end Exit

end Ircd

end PtlinkIrcd
