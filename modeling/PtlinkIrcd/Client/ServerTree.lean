/-
**The tree of servers and users.**

Every server and every user hangs on a server, and every server keeps two lists of what hangs on it.

* `Below` — a client is a server, or hangs below it.
* `Hanging` — the list of all clients, `servptr` and the two lists of every server agree, and the
  pointers lead to this server.
* `Keyed` — the hash table holds listed clients, in the bucket of their names.
* `Dropped` — some clients are gone from everywhere, and nobody else is touched.
* `Hanging.dropped` — what is left after whole branches are gone is a tree.
-/

import PtlinkIrcd.Client.Release
import PtlinkIrcd.Lib.ParentTree
import Mathlib.Data.Finset.Card

set_option linter.unusedSectionVars false

namespace PtlinkIrcd

/-- The lists of a server without some clients. -/
def Server.without (gone : List ClientId) (serv : Server) : Server :=
  { serv with
    servers := serv.servers.filter (· ∉ gone)
    users := serv.users.filter (· ∉ gone) }

/-- A client after others are gone: no list of its names them, and invitations may have ended. -/
def Client.after (gone : List ClientId) (invited : List ChannelId) (x : Client) : Client :=
  { x with
    serv := x.serv.map (·.without gone)
    user := x.user.map fun user => { user with invited := invited } }

def Channel.vacant (c : Channel) : Prop := c = .zero [] 0

namespace Ircd

/-! ### The tree -/

/-- The server that a client hangs on; this server hangs on nobody. -/
def parent (s : Ircd) (v : ClientId) : Option ClientId :=
  if v = me then none else (s.client v).servptr

/-- A client is a server, or hangs below it. -/
def Below (s : Ircd) (a v : ClientId) : Prop := Lib.Under s.parent a v

/-- **Servers and users hang in a tree below this server.** -/
structure Hanging (s : Ircd) : Prop where
  nodup : s.GlobalClientList.Nodup
  /-- A block that is not listed is free. -/
  free : ∀ u, u ∉ s.GlobalClientList → s.client u = .zero
  root : (s.client me).isServer = true
  /-- This server too has the status of a server. -/
  plain : ∀ u, (s.client u).isMe = false
  serv : ∀ a, (s.client a).isServer = true → (s.client a).serv.isSome = true
  up : ∀ v a, s.parent v = some a → (s.client a).isServer = true ∧ s.Below me v
  /-- Servers and users hang somewhere. -/
  placed : ∀ v, v ≠ me → (s.client v).isServer = true ∨ (s.client v).isClient = true →
    (s.parent v).isSome = true
  servers : ∀ a serv, (s.client a).serv = some serv → serv.servers.Nodup ∧
    ∀ v, v ∈ serv.servers ↔ s.parent v = some a ∧ (s.client v).isServer = true
  users : ∀ a serv, (s.client a).serv = some serv → serv.users.Nodup ∧
    ∀ v, v ∈ serv.users ↔ s.parent v = some a ∧ (s.client v).isServer = false

/-- **The hash table holds listed clients, each once and in the bucket of its name.** -/
structure Keyed (s : Ircd) : Prop where
  nodup : ∀ bucket, (s.clientTable bucket).Nodup
  mem : ∀ bucket u, u ∈ s.clientTable bucket →
    u ∈ s.GlobalClientList ∧ hashNickName (s.client u).name = bucket

section Tree

variable {s t : Ircd} {u v a : ClientId}

theorem parent_me : s.parent me = none := if_pos rfl

theorem parent_of_ne (ne : v ≠ me) : s.parent v = (s.client v).servptr := if_neg ne

theorem ne_me_of_parent (up : s.parent v = some a) : v ≠ me := by
  rintro rfl
  exact absurd (parent_me.symm.trans up) (by simp)

theorem parent_of_zero (free : s.client v = .zero) : s.parent v = none := by
  unfold parent
  rw [free]
  split <;> rfl

theorem Hanging.listed_of_isServer (hanging : s.Hanging) (server : (s.client v).isServer = true) :
    v ∈ s.GlobalClientList := by
  by_contra out
  rw [hanging.free v out] at server
  exact absurd server (by decide)

theorem Hanging.listed_of_parent (hanging : s.Hanging) (up : s.parent v = some a) :
    v ∈ s.GlobalClientList := by
  by_contra out
  exact absurd ((parent_of_zero (hanging.free v out)).symm.trans up) (by simp)

theorem Hanging.listed_of_below (hanging : s.Hanging) (listed : a ∈ s.GlobalClientList)
    (below : s.Below a v) : v ∈ s.GlobalClientList := by
  cases below with
  | refl => exact listed
  | step up _ => exact hanging.listed_of_parent up

theorem Hanging.below_of_isServer (hanging : s.Hanging) (server : (s.client v).isServer = true) :
    s.Below me v := by
  by_cases root : v = me
  · rw [root]
    exact .refl
  · obtain ⟨p, up⟩ := Option.isSome_iff_exists.mp (hanging.placed v root (.inl server))
    exact (hanging.up v p up).2

theorem Hanging.not_below_child (hanging : s.Hanging) (child : s.parent v = some a) :
    ¬ s.Below v a :=
  Lib.Under.not_child parent_me (hanging.below_of_isServer (hanging.up v a child).1) child

theorem Hanging.parent_of_mem (hanging : s.Hanging) {serv : Server}
    (has : (s.client a).serv = some serv) :
    s.parent v = some a ↔ v ∈ serv.servers ∨ v ∈ serv.users := by
  rw [(hanging.servers a serv has).2, (hanging.users a serv has).2]
  cases (s.client v).isServer <;> simp

end Tree

/-! ### Clients that are gone -/

/-- **Some clients are gone from everywhere, and nobody else is touched.** -/
structure Dropped (gone : List ClientId) (s t : Ircd) : Prop where
  list : t.GlobalClientList = s.GlobalClientList.filter (· ∉ gone)
  table : ∀ bucket, t.clientTable bucket = (s.clientTable bucket).filter (· ∉ gone)
  freed : ∀ u ∈ gone, t.client u = .zero
  members : ∀ c, (t.chan c).members = (s.chan c).members.filter fun l => l.cptr ∉ gone
  /-- A client that stays may lose invitations, but only to channels that are gone. -/
  stays : ∀ u, u ∉ gone → ∃ invited, t.client u = (s.client u).after gone invited ∧
    invited.Sublist (s.invited u) ∧
    ∀ c, ¬ (t.chan c).vacant → invited.count c = (s.invited u).count c
  vacant : ∀ c, (s.chan c).vacant → (t.chan c).vacant

namespace Dropped

variable {gone more : List ClientId} {s t r : Ircd} {u v a : ClientId}

theorem isServer (dropped : Dropped gone s t) (stays : u ∉ gone) :
    (t.client u).isServer = (s.client u).isServer := by
  obtain ⟨invited, block, _⟩ := dropped.stays u stays
  rw [block]
  rfl

theorem parent (dropped : Dropped gone s t) (stays : u ∉ gone) : t.parent u = s.parent u := by
  obtain ⟨invited, block, _⟩ := dropped.stays u stays
  unfold Ircd.parent
  rw [block]
  rfl

theorem serv (dropped : Dropped gone s t) (stays : u ∉ gone) :
    (t.client u).serv = (s.client u).serv.map (·.without gone) := by
  obtain ⟨invited, block, _⟩ := dropped.stays u stays
  rw [block]
  rfl

theorem name (dropped : Dropped gone s t) (stays : u ∉ gone) :
    (t.client u).name = (s.client u).name := by
  obtain ⟨invited, block, _⟩ := dropped.stays u stays
  rw [block]
  rfl

theorem isMe (dropped : Dropped gone s t) (stays : u ∉ gone) :
    (t.client u).isMe = (s.client u).isMe := by
  obtain ⟨invited, block, _⟩ := dropped.stays u stays
  rw [block]
  rfl

theorem isClient (dropped : Dropped gone s t) (stays : u ∉ gone) :
    (t.client u).isClient = (s.client u).isClient := by
  obtain ⟨invited, block, _⟩ := dropped.stays u stays
  rw [block]
  rfl

theorem prunes (dropped : Dropped gone s t)
    (closed : ∀ v p, s.parent v = some p → p ∈ gone → v ∈ gone) :
    Lib.Prunes (· ∈ gone) s.parent t.parent :=
  ⟨closed, fun v out => parent_of_zero (dropped.freed v out), fun _ stays => dropped.parent stays⟩

end Dropped

section Prune

variable {gone : List ClientId} {s t : Ircd} {v a : ClientId}

theorem Dropped.below_iff (dropped : Dropped gone s t)
    (closed : ∀ v p, s.parent v = some p → p ∈ gone → v ∈ gone) (stays : a ∉ gone) :
    t.Below a v ↔ s.Below a v ∧ v ∉ gone := (dropped.prunes closed).under_iff stays

/-- **What is left after whole branches are gone is a tree.** -/
theorem Hanging.dropped (hanging : s.Hanging) (dropped : Dropped gone s t)
    (closed : ∀ v p, s.parent v = some p → p ∈ gone → v ∈ gone) (notMe : me ∉ gone) :
    t.Hanging := by
  have zero : ∀ {v}, v ∈ gone → (t.client v).isServer = false := fun out => by
    rw [dropped.freed _ out]
    rfl
  have old : ∀ {v a}, t.parent v = some a → v ∉ gone ∧ s.parent v = some a := by
    intro v a up
    have stays : v ∉ gone := fun out =>
      absurd ((parent_of_zero (dropped.freed v out)).symm.trans up) (by simp)
    exact ⟨stays, (dropped.parent stays).symm.trans up⟩
  have lists : ∀ {a serv}, (t.client a).serv = some serv → a ∉ gone ∧
      ∃ before, (s.client a).serv = some before ∧ serv = before.without gone := by
    intro a serv has
    have stays : a ∉ gone := fun out => by
      rw [dropped.freed a out] at has
      exact absurd has (by simp [Client.zero])
    rw [dropped.serv stays, Option.map_eq_some_iff] at has
    obtain ⟨before, had, rfl⟩ := has
    exact ⟨stays, before, had, rfl⟩
  refine ⟨?_, fun u out => ?_, ?_, fun u => ?_, fun a server => ?_, fun v a up => ?_,
    fun v ne is_ => ?_, fun a serv has => ?_, fun a serv has => ?_⟩
  · rw [dropped.list]
    exact hanging.nodup.filter _
  · by_cases here : u ∈ gone
    · exact dropped.freed u here
    · have unlisted : u ∉ s.GlobalClientList := fun member => out (by
        rw [dropped.list, List.mem_filter]
        exact ⟨member, by simpa using here⟩)
      obtain ⟨invited, block, _⟩ := dropped.stays u here
      rw [block, hanging.free u unlisted]
      rfl
  · rw [dropped.isServer notMe]
    exact hanging.root
  · by_cases out : u ∈ gone
    · rw [dropped.freed u out]
      rfl
    · rw [dropped.isMe out]
      exact hanging.plain u
  · have stays : a ∉ gone := fun out => absurd ((zero out).symm.trans server) (by simp)
    rw [dropped.serv stays, Option.isSome_map]
    exact hanging.serv a ((dropped.isServer stays).symm.trans server)
  · obtain ⟨stays, before⟩ := old up
    have above : a ∉ gone := fun out => stays (closed v a before out)
    rw [dropped.isServer above, dropped.below_iff closed notMe]
    exact ⟨(hanging.up v a before).1, (hanging.up v a before).2, stays⟩
  · have stays : v ∉ gone := fun out => by
      rw [dropped.freed v out] at is_
      rcases is_ with is_ | is_ <;> exact absurd is_ (by decide)
    rw [dropped.parent stays]
    rw [dropped.isServer stays, dropped.isClient stays] at is_
    exact hanging.placed v ne is_
  · obtain ⟨stays, before, had, rfl⟩ := lists has
    obtain ⟨nodup, iff⟩ := hanging.servers a before had
    refine ⟨nodup.filter _, fun v => ?_⟩
    by_cases here : v ∈ gone
    · have none_ := parent_of_zero (dropped.freed v here)
      simp [Server.without, here, none_]
    · simp [Server.without, here, iff, dropped.parent here, dropped.isServer here]
  · obtain ⟨stays, before, had, rfl⟩ := lists has
    obtain ⟨nodup, iff⟩ := hanging.users a before had
    refine ⟨nodup.filter _, fun v => ?_⟩
    by_cases here : v ∈ gone
    · have none_ := parent_of_zero (dropped.freed v here)
      simp [Server.without, here, none_]
    · simp [Server.without, here, iff, dropped.parent here, dropped.isServer here]

theorem Keyed.dropped (keyed : s.Keyed) (dropped : Dropped gone s t) : t.Keyed where
  nodup bucket := by
    rw [dropped.table]
    exact (keyed.nodup bucket).filter _
  mem bucket u member := by
    rw [dropped.table, List.mem_filter] at member
    have stays : u ∉ gone := by simpa using member.2
    obtain ⟨listed, hash⟩ := keyed.mem bucket u member.1
    rw [dropped.name stays, dropped.list, List.mem_filter]
    exact ⟨⟨listed, member.2⟩, hash⟩

end Prune

end Ircd

end PtlinkIrcd
