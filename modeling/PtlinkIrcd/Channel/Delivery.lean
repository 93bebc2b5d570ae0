/-
**A message on its way to all members of a channel.**

A network of servers in the form of a tree. Every server keeps its own clients and its own list of
the members; a message to the channel is handled by `m_message` at the server of the sender and then
by every server that a line about it comes to.

* `Network` — the servers, the links, and what they agree on.
* `Network.react` — what a server does with a line, from its own user or from a link.
* `Network.sends_nodup`, `Network.mem_sends`, `Network.outputs_eq` — what the loop over the members
  amounts to at one server: one line for every link that is wanted, one for every local member.
* `Network.Accepted.floods` — the servers flood the tree with the message.
* `Network.message_run` — **in whatever order the lines arrive, every member but the sender gets the
  message once, and nobody else; no link carries it twice, or away from all members.**
-/

import PtlinkIrcd.Channel.Message
import PtlinkIrcd.Channel.Runs
import PtlinkIrcd.Lib.TreeFlood

set_option linter.unusedSectionVars false

namespace PtlinkIrcd

open Lib

/-! ### The network -/

/-- A tree of servers `V` with users `U` that agree on the members of a channel. -/
structure Network (V U : Type) where
  graph : SimpleGraph V
  ircd : V → Ircd
  filters : V → Filters
  /-- The descriptors of the connections of a server. -/
  fd : V → ClientId → Nat
  /-- The connection that leads to a neighbour. -/
  conn : V → V → ClientId
  /-- The neighbour that a connection leads to; none for the connection of a user. -/
  peer : V → ClientId → Option V
  /-- The block of a user at a server. -/
  id : V → U → ClientId
  home : U → V
  nick : U → Text
  chname : Text
  chptr : V → ChannelId
  members : List U
  tree : graph.IsTree
  peer_conn : ∀ {v w}, graph.Adj v w → peer v (conn v w) = some w
  peer_home : ∀ u, peer (home u) (id (home u) u) = none
  fd_conn : ∀ {v w w'}, graph.Adj v w → graph.Adj v w' →
    fd v (conn v w) = fd v (conn v w') → w = w'
  fd_home : ∀ {u w}, graph.Adj (home u) w →
    fd (home u) (id (home u) u) ≠ fd (home u) (conn (home u) w)
  person : ∀ v u, ((ircd v).client (id v u)).isPerson = true
  name : ∀ v u, ((ircd v).client (id v u)).name = nick u
  here : ∀ v u, ((ircd v).client (id v u)).myConnect = true ↔ v = home u
  link_home : ∀ u, ((ircd (home u)).client (id (home u) u)).link = some (id (home u) u)
  link_away : ∀ {v u}, v ≠ home u → ∃ w, graph.Adj v w ∧
    graph.dist w (home u) < graph.dist v (home u) ∧
    ((ircd v).client (id v u)).link = some (conn v w)
  nodup : members.Nodup
  id_inj : ∀ v, Function.Injective (id v)
  links : ∀ v, (((ircd v).chan (chptr v)).members.map Member.cptr).Perm (members.map (id v))
  knows : ∀ v u, (ircd v).prefixed (nick u) = some (id v u)
  channel : ∀ v, (ircd v).hash_find_channel chname = some (chptr v)
  isChannel : isChanPrefix chname = true
  single : ',' ∉ chname

namespace Network

variable {V U : Type} [DecidableEq V] (net : Network V U)

/-- The link that a line is written to, if it is not written to a local user. -/
def carry (v : V) : Written → Option (V × Utterance)
  | .line acptr l => ((((net.ircd v).client acptr).link).bind (net.peer v)).map fun w => (w, l)
  | _ => none

/-- A line arrives at a server, from the user who sends it or from a link. -/
def react (sender : U) (v : V) (marks : Serials) (arrival : Option V) (l : Utterance) :
    Reaction V Serials Utterance Written :=
  let s := net.ircd v
  let (marks, written) :=
    match arrival with
    | none => s.m_message (net.filters v) (net.fd v) (net.id v sender) (net.id v sender)
        [(s.client (net.id v sender)).name, l.target, l.text] (l.cmd = "NOTICE") marks
    | some w => s.receive (net.filters v) (net.fd v) (net.conn v w) l marks
  ⟨marks, written.filterMap (net.carry v), written.filter fun event => (net.carry v event).isNone⟩

/-! ### Where a user is -/

variable {net}

theorem isClient_id (v : V) (u : U) : ((net.ircd v).client (net.id v u)).isClient = true :=
  (Bool.and_eq_true _ _ ▸ net.person v u).1

theorem isLocal_iff (v : V) (u : U) : (net.ircd v).isLocal (net.id v u) = true ↔ v = net.home u := by
  unfold Ircd.isLocal Client.myClient
  rw [isClient_id, Bool.and_true]
  exact net.here v u

theorem isLocal_away {v : V} {u : U} (away : v ≠ net.home u) :
    (net.ircd v).isLocal (net.id v u) = false :=
  Bool.eq_false_iff.mpr fun here => away ((isLocal_iff v u).mp here)

theorem conn_inj {v w w' : V} (adj : net.graph.Adj v w) (adj' : net.graph.Adj v w')
    (same : net.conn v w = net.conn v w') : w = w' := by
  have found := net.peer_conn adj
  rw [same, net.peer_conn adj'] at found
  exact (Option.some.inj found).symm

theorem link_of_closer {v w : V} {u : U} (adj : net.graph.Adj v w)
    (closer : net.graph.dist w (net.home u) < net.graph.dist v (net.home u)) :
    ((net.ircd v).client (net.id v u)).link = some (net.conn v w) := by
  have away : v ≠ net.home u := by
    rintro rfl
    rw [net.graph.dist_self] at closer
    exact Nat.not_lt_zero _ closer
  obtain ⟨w', adj', closer', link⟩ := net.link_away away
  rw [link, closer_unique net.tree adj adj' closer closer']

theorem carry_home (u : U) (l : Utterance) :
    net.carry (net.home u) (.line (net.id (net.home u) u) l) = none := by
  show (Option.bind _ (net.peer (net.home u))).map _ = none
  rw [net.link_home, Option.bind_some, net.peer_home]
  rfl

theorem carry_away {v w : V} {u : U} (adj : net.graph.Adj v w)
    (link : ((net.ircd v).client (net.id v u)).link = some (net.conn v w)) (l : Utterance) :
    net.carry v (.line (net.id v u) l) = some (w, l) := by
  show (Option.bind _ (net.peer v)).map _ = _
  rw [link, Option.bind_some, net.peer_conn adj]
  rfl

theorem exists_user {v : V} {lp : Member}
    (there : lp ∈ ((net.ircd v).chan (net.chptr v)).members) :
    ∃ u ∈ net.members, lp.cptr = net.id v u := by
  obtain ⟨u, member, same⟩ :=
    List.mem_map.mp ((net.links v).mem_iff.mp (List.mem_map_of_mem there))
  exact ⟨u, member, same.symm⟩

theorem exists_link {u : U} (member : u ∈ net.members) (v : V) :
    ∃ lp ∈ ((net.ircd v).chan (net.chptr v)).members, lp.cptr = net.id v u :=
  List.mem_map.mp ((net.links v).mem_iff.mpr (List.mem_map_of_mem member))

theorem exists_neighbour {v : V} {lp : Member}
    (there : lp ∈ ((net.ircd v).chan (net.chptr v)).members)
    (away : (net.ircd v).isLocal lp.cptr = false) :
    ∃ u ∈ net.members, ∃ w, lp.cptr = net.id v u ∧ net.graph.Adj v w ∧
      net.graph.dist w (net.home u) < net.graph.dist v (net.home u) ∧
      ((net.ircd v).client lp.cptr).link = some (net.conn v w) := by
  obtain ⟨u, member, same⟩ := exists_user there
  rw [same] at away ⊢
  have elsewhere : v ≠ net.home u := fun here => by
    rw [(isLocal_iff v u).mpr here] at away
    cases away
  obtain ⟨w, adj, closer, link⟩ := net.link_away elsewhere
  exact ⟨u, member, w, rfl, adj, closer, link⟩

theorem index_eq {v : V} {acptr c : ClientId} (link : ((net.ircd v).client acptr).link = some c) :
    (net.ircd v).index (net.fd v) acptr = net.fd v c := by
  unfold Ircd.index
  rw [link]

/-! ### The loop at one server -/

section Loop

variable (net) (v : V) (one : Option ClientId) (keep : Member → Bool) (markLocal : Bool)
  (line : Bool → Utterance)

/-- The lines that the loop over the members writes, one sort for the local ones and one for the
links. -/
def spoken : List Written :=
  ((net.ircd v).reach (net.fd v) one keep markLocal []
    ((net.ircd v).chan (net.chptr v)).members).map fun lp =>
      .line lp.cptr (line ((net.ircd v).isLocal lp.cptr))

variable {net}

theorem sends_nodup :
    (((net.spoken v one keep markLocal line).filterMap (net.carry v)).map Prod.fst).Nodup := by
  unfold spoken
  rw [List.filterMap_map, List.map_filterMap]
  have apart := (net.ircd v).reach_nodup (net.fd v) one keep markLocal []
    ((net.ircd v).chan (net.chptr v)).members
  rw [List.Nodup, List.pairwise_map, List.pairwise_filter] at apart
  refine List.pairwise_filterMap.mpr (apart.imp_of_mem ?_)
  intro lp lp' reached reached' differ w hop w' hop' same
  have neighbour : ∀ {lp : Member} {w : V}, lp ∈ (net.ircd v).reach (net.fd v) one keep markLocal []
      ((net.ircd v).chan (net.chptr v)).members →
      ((net.carry v (.line lp.cptr (line ((net.ircd v).isLocal lp.cptr)))).map Prod.fst) = some w →
      (net.ircd v).isLocal lp.cptr = false ∧
        (net.ircd v).index (net.fd v) lp.cptr = net.fd v (net.conn v w) := by
    intro lp w reached hop
    have there := ((net.ircd v).mem_reach (net.fd v) one keep markLocal reached).1
    by_cases here : (net.ircd v).isLocal lp.cptr = true
    · obtain ⟨u, -, same⟩ := exists_user there
      rw [same] at here hop
      obtain rfl := (isLocal_iff v u).mp here
      rw [carry_home] at hop
      cases hop
    · have away := Bool.eq_false_iff.mpr here
      obtain ⟨u, -, w', same, adj, -, link⟩ := exists_neighbour there away
      refine ⟨away, ?_⟩
      rw [index_eq link]
      rw [same] at link hop
      rw [carry_away adj link] at hop
      rw [← Option.some.inj hop]
  obtain ⟨away, index⟩ := neighbour reached hop
  obtain ⟨away', index'⟩ := neighbour reached' hop'
  refine differ (by rw [away]; rfl) (by rw [away']; rfl) ?_
  rw [index, index', same]

theorem mem_sends {v : V} {c : V × Utterance}
    (sent : c ∈ (net.spoken v one keep markLocal line).filterMap (net.carry v)) :
    net.graph.Adj v c.1 ∧ one ≠ some (net.conn v c.1) ∧ c.2 = line false ∧
      ∃ u ∈ net.members, net.graph.dist c.1 (net.home u) < net.graph.dist v (net.home u) := by
  obtain ⟨w, l⟩ := c
  obtain ⟨event, written, carried⟩ := List.mem_filterMap.mp sent
  obtain ⟨lp, reached, rfl⟩ := List.mem_map.mp written
  obtain ⟨there, -, apart, -⟩ := (net.ircd v).mem_reach (net.fd v) one keep markLocal reached
  by_cases here : (net.ircd v).isLocal lp.cptr = true
  · obtain ⟨u, -, same⟩ := exists_user there
    rw [same] at here carried
    obtain rfl := (isLocal_iff v u).mp here
    rw [carry_home] at carried
    cases carried
  · have away := Bool.eq_false_iff.mpr here
    obtain ⟨u, member, w', same, adj, closer, link⟩ := exists_neighbour there away
    rw [link] at apart
    rw [away, same, carry_away adj (same ▸ link)] at carried
    cases carried
    exact ⟨adj, apart.symm, rfl, u, member, closer⟩

/-- A member that is asked for and that is behind a link makes the loop use this link. -/
theorem exists_sends {v w : V} {u : U} {lp : Member}
    (there : lp ∈ ((net.ircd v).chan (net.chptr v)).members) (same : lp.cptr = net.id v u)
    (kept : keep lp = true) (adj : net.graph.Adj v w)
    (closer : net.graph.dist w (net.home u) < net.graph.dist v (net.home u))
    (apart : one ≠ some (net.conn v w)) :
    w ∈ ((net.spoken v one keep markLocal line).filterMap (net.carry v)).map Prod.fst := by
  have link := link_of_closer adj closer
  have away : v ≠ net.home u := by
    rintro rfl
    rw [net.graph.dist_self] at closer
    exact Nat.not_lt_zero _ closer
  have alone : ∀ other ∈ ((net.ircd v).chan (net.chptr v)).members,
      (net.ircd v).isLocal other.cptr = true →
      (net.ircd v).index (net.fd v) other.cptr ≠ (net.ircd v).index (net.fd v) lp.cptr := by
    intro other member here
    obtain ⟨u', -, same'⟩ := exists_user member
    rw [same'] at here ⊢
    obtain rfl := (isLocal_iff v u').mp here
    rw [same, index_eq (net.link_home u'), index_eq link]
    exact net.fd_home adj
  obtain ⟨other, reached, far, index⟩ := (net.ircd v).exists_reach (net.fd v) one keep markLocal
    there kept (by rw [same, link]; exact apart.symm) (by rw [same]; exact isLocal_away away)
    List.not_mem_nil alone
  obtain ⟨u', -, w', same', adj', -, link'⟩ :=
    exists_neighbour ((net.ircd v).mem_reach (net.fd v) one keep markLocal reached).1 far
  rw [index_eq link', same, index_eq link] at index
  obtain rfl := net.fd_conn adj' adj index
  refine List.mem_map.mpr ⟨(w', line false), List.mem_filterMap.mpr
    ⟨_, List.mem_map.mpr ⟨other, reached, rfl⟩, ?_⟩, rfl⟩
  rw [far, same', carry_away adj' (same' ▸ link')]

/-- What is not sent on a link is a line for each local member that is asked for. -/
theorem outputs_eq :
    ((net.spoken v one keep markLocal line).filter fun event => (net.carry v event).isNone) =
      (((net.ircd v).chan (net.chptr v)).members.filter fun lp => (net.ircd v).isLocal lp.cptr &&
        (keep lp && decide (((net.ircd v).client lp.cptr).link ≠ one))).map fun lp =>
          .line lp.cptr (line true) := by
  rw [← (net.ircd v).filter_reach_local (net.fd v) one keep markLocal []]
  unfold spoken
  rw [List.filter_map]
  have local_ : ∀ lp ∈ (net.ircd v).reach (net.fd v) one keep markLocal []
      ((net.ircd v).chan (net.chptr v)).members,
      (net.carry v (.line lp.cptr (line ((net.ircd v).isLocal lp.cptr)))).isNone =
        (net.ircd v).isLocal lp.cptr := by
    intro lp reached
    have there := ((net.ircd v).mem_reach (net.fd v) one keep markLocal reached).1
    cases here : (net.ircd v).isLocal lp.cptr with
    | true =>
      obtain ⟨u, -, same⟩ := exists_user there
      rw [same] at here ⊢
      obtain rfl := (isLocal_iff v u).mp here
      rw [carry_home]
      rfl
    | false =>
      obtain ⟨u, -, w, same, adj, -, link⟩ := exists_neighbour there here
      rw [same, carry_away adj (same ▸ link)]
      rfl
  refine (congrArg _ (List.filter_congr local_)).trans ?_
  refine List.map_congr_left fun lp member => ?_
  rw [(List.mem_filter.mp member).2]

end Loop

/-! ### The lines about a message -/

section Message

variable (net) (sender : U)

/-- The link of the sender, as a server sees it: the direction that a message comes from. -/
def oncoming (v : V) : Option ClientId := ((net.ircd v).client (net.id v sender)).link

/-- A line as a local user of a server reads it: behind the mask of the sender, and cut to size. -/
def heard (v : V) (l : Utterance) : Utterance :=
  ({ l with par := ((net.ircd v).client (net.id v sender)).prefixMask } : Utterance).cut

variable {net} {sender}

/-- What a server reads of a line is not more than what was written on its link. -/
theorem heard_cut {l : Utterance} (named : l.par = net.nick sender) (left : l.textAt ≤ LINELEN)
    (v : V) : net.heard sender v l.cut = net.heard sender v l := by
  refine Utterance.cut_par left ?_
  rw [named, ← net.name v sender]
  unfold Client.prefixMask
  simp only [List.length_append]
  omega

theorem vsendto_eq {v : V} {u : U} {l : Utterance} (named : l.par = net.nick sender)
    (apart : ((net.ircd v).client (net.id v u)).link ≠ net.oncoming sender v) :
    (net.ircd v).vsendto_prefix_one (net.id v u) (net.id v sender) l =
      .line (net.id v u)
        (if (net.ircd v).isLocal (net.id v u) then net.heard sender v l else l.cut) := by
  unfold Ircd.vsendto_prefix_one
  have straight : decide (((net.ircd v).client (net.id v u)).link =
      ((net.ircd v).client (net.id v sender)).link) = false := decide_eq_false apart
  have same : decide (irccmp l.par ((net.ircd v).client (net.id v sender)).name = 0) = true := by
    rw [named, net.name, irccmp_self]
    rfl
  simp only [straight, same, Bool.and_false, Bool.false_eq_true, if_false, net.person, Bool.and_true]
  unfold Ircd.isLocal heard
  split <;> rfl

theorem sendLoop_eq_spoken (v : V) (keep : Member → Bool) (markLocal : Bool)
    (line : Bool → Utterance) (named : ∀ here, (line here).par = net.nick sender) (marks : Serials) :
    ((net.ircd v).sendLoop (net.fd v) (net.oncoming sender v) keep markLocal
      (fun here acptr => (net.ircd v).vsendto_prefix_one acptr (net.id v sender) (line here))
      ((net.ircd v).chan (net.chptr v)).members marks.next).2 =
    net.spoken v (net.oncoming sender v) keep markLocal fun here =>
      if here then net.heard sender v (line true) else (line false).cut := by
  rw [Ircd.sendLoop_snd]
  refine List.map_congr_left fun lp reached => ?_
  obtain ⟨there, -, apart, -⟩ :=
    (net.ircd v).mem_reach (net.fd v) (net.oncoming sender v) keep markLocal reached
  obtain ⟨u, -, same⟩ := exists_user there
  rw [same] at apart ⊢
  rw [vsendto_eq (named _) apart]
  cases (net.ircd v).isLocal (net.id v u) <;> rfl

/-- The direction that a message comes from when it arrives as it should. -/
theorem oncoming_home : net.oncoming sender (net.home sender) =
    some (net.id (net.home sender) sender) := net.link_home sender

theorem oncoming_away {a v : V} (adj : net.graph.Adj a v)
    (away : net.graph.dist a (net.home sender) < net.graph.dist v (net.home sender)) :
    net.oncoming sender v = some (net.conn v a) := link_of_closer adj.symm away

/-- A user at another place than the sender is not where a message comes from. -/
theorem link_ne_oncoming {u : U} (other : u ≠ sender) :
    ((net.ircd (net.home u)).client (net.id (net.home u) u)).link ≠
      net.oncoming sender (net.home u) := by
  rw [net.link_home]
  by_cases together : net.home u = net.home sender
  · rw [together, oncoming_home]
    exact fun same => other (net.id_inj _ (Option.some.inj same))
  · obtain ⟨w, adj, -, link⟩ := net.link_away together
    intro same
    have found := net.peer_conn adj
    rw [← Option.some.inj (same.trans link), net.peer_home] at found
    cases found

/-- The link that a message came from is the only one that it is not sent on. -/
theorem oncoming_eq_iff {first l : Utterance} {fit : V → V → Utterance → Prop} {v c : V}
    {arrival : Option V} (arrives : Arrives net.graph (net.home sender) first fit v arrival l)
    (adj : net.graph.Adj v c) : net.oncoming sender v = some (net.conn v c) ↔ arrival = some c := by
  cases arrives with
  | first =>
    rw [oncoming_home]
    refine ⟨fun same => ?_, fun same => by cases same⟩
    have found := net.peer_conn adj
    rw [← Option.some.inj same, net.peer_home] at found
    cases found
  | @next a _ _ adj' away _ =>
    rw [oncoming_away adj' away]
    refine ⟨fun same => ?_, fun same => ?_⟩
    · rw [conn_inj adj'.symm adj (Option.some.inj same)]
    · rw [Option.some.inj same]

variable (net)

def isFor (u : U) (d : V × Written) : Bool :=
  d.1 = net.home u &&
    match d.2 with
    | .line acptr _ => acptr = net.id (net.home u) u
    | _ => false

variable {net}

/-- The lines that one server puts out are for members that are asked for. -/
theorem mem_outputs {v : V} {keep : Member → Bool} {markLocal : Bool} {line : Bool → Utterance}
    {event : Written}
    (written : event ∈ (net.spoken v (net.oncoming sender v) keep markLocal line).filter
      fun event => (net.carry v event).isNone) :
    ∃ u ∈ net.members, u ≠ sender ∧ v = net.home u ∧ event = .line (net.id v u) (line true) ∧
      ∃ lp ∈ ((net.ircd v).chan (net.chptr v)).members, lp.cptr = net.id v u ∧ keep lp = true := by
  rw [outputs_eq] at written
  obtain ⟨lp, kept, rfl⟩ := List.mem_map.mp written
  obtain ⟨there, holds⟩ := List.mem_filter.mp kept
  simp only [Bool.and_eq_true, decide_eq_true_eq] at holds
  obtain ⟨here, asked, apart⟩ := holds
  obtain ⟨u, member, same⟩ := exists_user there
  rw [same] at here apart ⊢
  refine ⟨u, member, ?_, (isLocal_iff v u).mp here, rfl, lp, there, same, asked⟩
  rintro rfl
  exact apart rfl

/-- Each member gets one line, if it is asked for and the server is its own. -/
theorem countP_isFor {u : U} (member : u ∈ net.members) (other : u ≠ sender) (v : V)
    {keep : Member → Bool} {markLocal asked : Bool} {line : Bool → Utterance}
    (same : ∀ lp ∈ ((net.ircd v).chan (net.chptr v)).members, lp.cptr = net.id v u →
      keep lp = asked) :
    (((net.spoken v (net.oncoming sender v) keep markLocal line).filter
      fun event => (net.carry v event).isNone).countP fun event => net.isFor u (v, event)) =
      if v = net.home u then asked.toNat else 0 := by
  split
  · rename_i here
    subst here
    rw [outputs_eq, List.countP_map, List.countP_filter]
    have once : ((((net.ircd (net.home u)).chan (net.chptr (net.home u))).members.map
        Member.cptr).count (net.id (net.home u) u)) = 1 := by
      rw [(net.links (net.home u)).count_eq]
      exact List.count_eq_one_of_mem (net.nodup.map (net.id_inj _)) (List.mem_map_of_mem member)
    cases asked with
    | false =>
      refine List.countP_eq_zero.mpr fun lp there holds => ?_
      simp only [isFor, Function.comp_apply, Bool.and_eq_true, decide_eq_true_eq] at holds
      have out := same lp there holds.1.2
      rw [holds.2.2.1] at out
      cases out
    | true =>
      rw [List.count, List.countP_map] at once
      refine Eq.trans (List.countP_congr fun lp there => ?_) once
      simp only [isFor, Function.comp_apply, Bool.and_eq_true, decide_eq_true_eq, beq_iff_eq,
        true_and]
      refine ⟨fun holds => holds.1, fun is => ⟨is, ?_, same lp there is, ?_⟩⟩
      · rw [is]
        exact (isLocal_iff _ u).mpr rfl
      · rw [is]
        exact link_ne_oncoming other
  · rename_i elsewhere
    refine List.countP_eq_zero.mpr fun event _ holds => elsewhere ?_
    simp only [isFor, Bool.and_eq_true, decide_eq_true_eq] at holds
    exact holds.1

end Message

/-! ### A message to all members -/

section Everybody

variable (net) (sender : U) (notice : Bool) (text : Text)

/-- The text that the server of the sender passes on. -/
def shown : Text :=
  if ((net.ircd (net.home sender)).chan (net.chptr (net.home sender))).mode.mode.has MODE_NOCOLORS
  then strip_control_codes text else text

def said : Utterance := ⟨net.nick sender, cmdOf notice, net.chname, text⟩

/-- The line that the servers pass on, cut to size. -/
def passed : Utterance :=
  Utterance.cut ⟨net.nick sender, cmdOf notice, net.chname, net.shown sender text⟩

def textAt (v : V) : Text :=
  if v = net.home sender then text else (net.passed sender notice text).text

/-- Nothing stops the message: every server asks `can_send`, which says yes; the target limit of the
sender is not reached, and something is left of the text when control codes are stripped and the line
is cut. -/
structure Accepted : Prop where
  left : (net.passed sender notice text).text ≠ []
  passes : ∀ v, (net.ircd v).held (net.filters v) (net.id v sender)
    (net.textAt sender notice text v) = none
  can_send : ∀ v, (net.filters v).can_send (net.id v sender) (net.chptr v)
    (net.textAt sender notice text v) = 0
  few : (net.filters (net.home sender)).check_target_limit (net.id (net.home sender) sender)
    (net.chptr (net.home sender)) text = false

/-- What goes over a link: the line, to some member behind it. -/
def Fits (a b : V) (l : Utterance) : Prop :=
  l = net.passed sender notice text ∧
    ∃ u ∈ net.members, net.graph.dist b (net.home u) < net.graph.dist a (net.home u)

/-- The lines that a server writes when the message comes to it. -/
def shared (v : V) : List Written :=
  net.spoken v (net.oncoming sender v) (fun _ => true) true fun here =>
    if here then net.heard sender v (net.passed sender notice text)
    else net.passed sender notice text

variable {net} {sender} {notice} {text}

theorem Accepted.text_ne (accepted : net.Accepted sender notice text) : text ≠ [] := by
  rintro rfl
  refine accepted.left ?_
  have none_ : net.shown sender [] = [] := by
    unfold shown
    split <;> rfl
  show List.take _ (net.shown sender []) = []
  rw [none_, List.take_nil]

theorem Accepted.passed_eq (accepted : net.Accepted sender notice text) :
    net.passed sender notice text =
      ⟨net.nick sender, cmdOf notice, net.chname, (net.passed sender notice text).text⟩ :=
  Utterance.cut_eq (Utterance.textAt_lt_of_cut accepted.left).le

theorem Accepted.m_message_eq (accepted : net.Accepted sender notice text) (v : V)
    {cptr : ClientId} (source : net.oncoming sender v = some cptr) (marks : Serials) :
    ((net.ircd v).m_message (net.filters v) (net.fd v) cptr (net.id v sender)
      [net.nick sender, net.chname, net.textAt sender notice text v] notice marks).2 =
      net.shared sender notice text v := by
  have some_ : net.textAt sender notice text v ≠ [] := by
    unfold textAt
    split
    · exact accepted.text_ne
    · exact accepted.left
  have mine : ((net.ircd v).client (net.id v sender)).myClient = decide (v = net.home sender) := by
    rw [Bool.eq_iff_iff, decide_eq_true_eq]
    exact isLocal_iff v sender
  have few : (((net.ircd v).client (net.id v sender)).myClient &&
      (net.filters v).check_target_limit (net.id v sender) (net.chptr v)
        (net.textAt sender notice text v)) = false := by
    by_cases here : v = net.home sender
    · subst here
      unfold textAt
      rw [if_pos rfl, accepted.few, Bool.and_false]
    · rw [mine, decide_eq_false here, Bool.false_and]
  -- at home the text is stripped, elsewhere it was cut; the lines that are written are the same
  have lines : ∃ l : Utterance, (⟨net.nick sender, cmdOf notice, net.chname,
      if ((net.ircd v).client (net.id v sender)).myClient &&
        ((net.ircd v).chan (net.chptr v)).mode.mode.has MODE_NOCOLORS then
          strip_control_codes (net.textAt sender notice text v)
        else net.textAt sender notice text v⟩ : Utterance) = l ∧ l.par = net.nick sender ∧
      net.heard sender v l = net.heard sender v (net.passed sender notice text) ∧
      l.cut = net.passed sender notice text := by
    have left := (Utterance.textAt_lt_of_cut accepted.left).le
    by_cases here : v = net.home sender
    · refine ⟨⟨net.nick sender, cmdOf notice, net.chname, net.shown sender text⟩, ?_, rfl,
        (heard_cut rfl left v).symm, rfl⟩
      subst here
      rw [mine, decide_eq_true rfl, Bool.true_and]
      unfold textAt shown
      rw [if_pos rfl]
    · refine ⟨net.passed sender notice text, ?_, ?_, rfl, Utterance.cut_cut left⟩
      · rw [mine, decide_eq_false here, Bool.false_and, if_neg Bool.false_ne_true]
        unfold textAt
        rw [if_neg here]
        exact accepted.passed_eq.symm
      · rw [accepted.passed_eq]
  obtain ⟨l, same, named, reads, written⟩ := lines
  rw [Ircd.m_message_channel net.isChannel net.single some_ (accepted.passes v) (net.person v sender)
    (net.channel v) (accepted.can_send v) few, same, ← source]
  refine (sendLoop_eq_spoken v _ _ (fun _ => l) (fun _ => named) marks).trans ?_
  unfold shared
  rw [reads, written]

/-- A message that arrives as it should is handled as above, whatever the marks are. -/
theorem Accepted.react_eq (accepted : net.Accepted sender notice text) {v : V} {marks : Serials}
    {arrival : Option V} {l : Utterance}
    (arrives : Arrives net.graph (net.home sender) (net.said sender notice text)
      (net.Fits sender notice text) v arrival l) :
    (net.react sender v marks arrival l).sends =
        (net.shared sender notice text v).filterMap (net.carry v) ∧
      (net.react sender v marks arrival l).outputs =
        (net.shared sender notice text v).filter fun event => (net.carry v event).isNone := by
  cases arrives with
  | first =>
    have written := accepted.m_message_eq (net.home sender) oncoming_home marks
    unfold textAt at written
    rw [if_pos rfl] at written
    rw [← written]
    unfold react said
    simp only [net.name, cmdOf_eq_notice]
    exact ⟨trivial, trivial⟩
  | @next a _ _ adj away fits =>
    obtain ⟨rfl, -⟩ := fits
    have elsewhere : v ≠ net.home sender := by
      rintro rfl
      rw [net.graph.dist_self] at away
      exact Nat.not_lt_zero _ away
    have source := oncoming_away adj away
    have written := accepted.m_message_eq v source marks
    unfold textAt at written
    rw [if_neg elsewhere] at written
    rw [← written, accepted.passed_eq]
    have found : net.oncoming sender v = some (net.conn v a) := source
    unfold oncoming at found
    unfold react Ircd.receive
    simp only [net.knows, found, ne_eq, not_true_eq_false, if_false, cmdOf_eq_notice]
    exact ⟨trivial, trivial⟩

/-- The servers flood the tree with the message, to wherever members are. -/
theorem Accepted.floods (accepted : net.Accepted sender notice text) :
    Floods net.graph (net.react sender) (net.home sender) (net.said sender notice text)
      (net.Fits sender notice text) fun t => ∃ u ∈ net.members, net.home u = t where
  tree := net.tree
  nodup arrives := by
    rw [(accepted.react_eq arrives).1]
    exact sends_nodup ..
  onward arrives sent := by
    rw [(accepted.react_eq arrives).1] at sent
    obtain ⟨adj, apart, line, behind⟩ := mem_sends _ _ _ _ sent
    exact ⟨adj, fun back => apart ((oncoming_eq_iff arrives adj).mpr back), line, behind⟩
  reaches arrives want ne adj closer back := by
    obtain ⟨u, member, rfl⟩ := want
    rw [(accepted.react_eq arrives).1]
    obtain ⟨lp, there, same⟩ := exists_link member _
    exact exists_sends _ _ _ _ there same rfl adj closer
      fun same => back ((oncoming_eq_iff arrives adj).mp same)

variable (net) (sender) (notice) (text)

/-- The user sends the message; the servers have any marks from earlier messages. -/
def begins (marks : V → Serials) : Flood V Serials Utterance Written :=
  Flood.start (net.react sender) marks (net.home sender) (net.said sender notice text)

variable {net} {sender} {notice} {text}

theorem Accepted.logs (accepted : net.Accepted sender notice text) (marks : V → Serials)
    (moves : List (Move V Serials)) :
    ((net.begins sender notice text marks).run (net.react sender) moves).Logs fun v _ _ =>
      (net.shared sender notice text v).filter fun event => (net.carry v event).isNone := by
  have first : (net.begins sender notice text marks).Logs fun v _ _ =>
      (net.shared sender notice text v).filter fun event => (net.carry v event).isNone :=
    logs_handle rfl (accepted.react_eq .first).2
  exact accepted.floods.logs_run (fun arrives => (accepted.react_eq arrives).2)
    (accepted.floods.spread_start marks) first moves

/-- **Every member but the sender gets the message once, whatever the order of arrivals.** At any time
no member got it twice and nobody else got it; each link carried it once at most, in one direction
and towards members; the lines on the way come to an end, and then every member got it. What it gets
is the command and the text that the server of the sender passes on, as far as the line has room for it
behind the mask of the sender. -/
theorem message_run [Fintype V] (accepted : net.Accepted sender notice text)
    (marks : V → Serials) (moves : List (Move V Serials)) :
    let st := (net.begins sender notice text marks).run (net.react sender) moves
    (∀ u ∈ net.members, u ≠ sender → st.outputs.countP (net.isFor u) ≤ 1 ∧
      (st.travelling = [] → st.outputs.countP (net.isFor u) = 1)) ∧
    (∀ d ∈ st.outputs, ∃ u ∈ net.members, u ≠ sender ∧ d = (net.home u,
      .line (net.id (net.home u) u)
        (net.heard sender (net.home u) (net.passed sender notice text)))) ∧
    st.carried.Nodup ∧
    (∀ a b, (a, b) ∈ st.carried → (b, a) ∉ st.carried ∧ net.graph.Adj a b ∧
      ∃ u ∈ net.members, net.graph.dist b (net.home u) < net.graph.dist a (net.home u)) ∧
    st.handled.length ≤ Fintype.card V ∧
    ∃ more, (st.run (net.react sender) more).travelling = [] := by
  intro st
  have floods := accepted.floods
  have spread := floods.spread_run (floods.spread_start marks) moves
  have logs := accepted.logs marks moves
  have count : ∀ u ∈ net.members, u ≠ sender → st.outputs.countP (net.isFor u) =
      st.handled.countP fun h => h.1 = net.home u := by
    intro u member other
    refine spread.countP_outputs logs fun {v} {_} {_} _ => ?_
    rw [shared, countP_isFor member other v (fun _ _ _ => rfl), Bool.toNat_true]
  refine ⟨fun u member other => ⟨?_, fun drained => ?_⟩, fun d put => ?_, spread.carried_nodup.1,
    fun a b edge => ⟨spread.carried_nodup.2 a b edge, ?_⟩, spread.handled_length_le,
    floods.drains spread⟩
  · rw [count u member other]
    exact spread.handled_le _
  · rw [count u member other]
    exact spread.handled_eq drained ⟨u, member, rfl⟩
  · have logged : st.outputs = _ := logs
    rw [logged] at put
    obtain ⟨h, -, written⟩ := List.mem_flatMap.mp put
    obtain ⟨event, local_, rfl⟩ := List.mem_map.mp written
    obtain ⟨u, member, other, here, rfl, -⟩ := mem_outputs local_
    exact ⟨u, member, other, by rw [here]; rfl⟩
  · obtain ⟨adj, -, l, -, behind⟩ := spread.mem_carried edge
    exact ⟨adj, behind⟩

end Everybody

end Network

/-! ### A small network -/

/-- One of two servers with three users; the link to the other one is on block 1. -/
def sampleSite (v : Bool) : Ircd :=
  { Ircd.blank Ircd.sampleConf 1000 (if v then "south" else "north") with
    client := fun c =>
      match c with
      | 1 => { Ircd.sampleServer with name := if v then "north" else "south" }
      | 2 =>
        { Ircd.sampleLocal with
          name := "ann", link := some (if v then 1 else 2), local_flag := !v }
      | 3 =>
        { Ircd.sampleLocal with
          name := "bob", link := some (if v then 1 else 3), local_flag := !v }
      | 4 =>
        { Ircd.sampleLocal with
          name := "cat", link := some (if v then 4 else 1), local_flag := v }
      | _ => .zero
    clientTable := ((ChainTable.empty.add (hashNickName "ann") 2).add (hashNickName "bob") 3).add
      (hashNickName "cat") 4
    chan := fun _ => .zero "#c" 0
    channelTable := ChainTable.empty.add (hashChannelName "#c") 0 }

def sampleFilters : Filters where
  can_send _ _ _ := 0
  check_target_limit _ _ _ := false
  is_msgvlined _ := none
  NoCTCP_Msg := []
  Moderated_Msg := []
  NoExternal_Msg := []
  Banned_Msg := []
  NoSpam_Msg := []
  NoFlood_Msg := []

/-- Two servers; ann and bob are on the first one, cat on the other, all three on the channel. -/
def sampleNetwork (bits : Flags) (status : Fin 3 → Flags) : Network Bool (Fin 3) where
  graph := ⊤
  ircd v :=
    { sampleSite v with
      chan := fun _ =>
        { Channel.zero "#c" 0 with
          mode := { Mode.zero with mode := bits }
          members := [⟨2, status 0⟩, ⟨3, status 1⟩, ⟨4, status 2⟩] } }
  filters _ := sampleFilters
  fd _ c := c
  conn _ _ := 1
  peer v c := if c = 1 then some (!v) else none
  id _ u := u + 2
  home u := u = 2
  nick u := match u with | 0 => "ann" | 1 => "bob" | 2 => "cat"
  chname := "#c"
  chptr _ := 0
  members := [0, 1, 2]
  tree := ⟨SimpleGraph.connected_top, SimpleGraph.IsAcyclic.of_card_le_two (by simp)⟩
  peer_conn {v w} adj := by cases v <;> cases w <;> first | rfl | exact absurd rfl adj.ne
  peer_home u := by fin_cases u <;> rfl
  fd_conn {v w w'} adj adj' _ := by
    cases v <;> cases w <;> cases w' <;> first | rfl | exact absurd rfl adj.ne | exact absurd rfl adj'.ne
  fd_home {u w} _ := fun same => absurd (Nat.succ.inj same) (Nat.succ_ne_zero _)
  person v u := by cases v <;> fin_cases u <;> rfl
  name v u := by cases v <;> fin_cases u <;> rfl
  here v u := by
    show ((sampleSite v).client (u.val + 2)).myConnect = true ↔ v = decide (u = 2)
    revert v u
    decide
  link_home u := by fin_cases u <;> rfl
  link_away {v u} away := by
    refine ⟨decide (u = 2), away, ?_, ?_⟩
    · rw [SimpleGraph.dist_self]
      exact (SimpleGraph.connected_top).pos_dist_of_ne away
    · cases v <;> fin_cases u <;> first | rfl | exact absurd rfl away
  nodup := by decide
  id_inj v u u' same := Fin.ext (Nat.add_right_cancel same)
  links v := .refl _
  knows v u := by
    show (sampleSite v).prefixed _ = _
    revert v u
    decide +kernel
  channel v := by
    show (sampleSite v).hash_find_channel _ = _
    revert v
    decide +kernel
  isChannel := by decide
  single := by decide

namespace Network

/-- The message of ann has been to both servers. -/
theorem message_run_sample :
    let net := sampleNetwork 0 fun _ => 0
    let st := (net.begins 0 false ['h', 'i'] fun _ => .zero).run (net.react 0) [.deliver 0]
    st.outputs.countP (net.isFor 1) = 1 ∧ st.outputs.countP (net.isFor 2) = 1 := by
  intro net st
  have accepted : net.Accepted 0 false ['h', 'i'] :=
    ⟨by decide, by decide +kernel, by decide +kernel, rfl⟩
  have all := (message_run accepted (fun _ => .zero) [.deliver 0]).1
  have drained : st.travelling = [] := List.isEmpty_iff.mp (by decide +kernel)
  exact ⟨(all 1 (by decide) (by decide)).2 drained, (all 2 (by decide) (by decide)).2 drained⟩

/-- What the members get is not always the text that was sent: bold is stripped on a channel without
colors. -/
theorem not_message_run : ¬ ∀ (net : Network Bool (Fin 3)) (sender : Fin 3) (notice : Bool)
    (text : Text) (marks : Bool → Serials) (moves : List (Move Bool Serials)),
    net.Accepted sender notice text →
    ∀ d ∈ ((net.begins sender notice text marks).run (net.react sender) moves).outputs,
    ∀ acptr l, d.2 = .line acptr l → l.text = text := by
  intro all
  have accepted :
      (sampleNetwork MODE_NOCOLORS fun _ => 0).Accepted 0 false [Char.ofNat 2, 'h', 'i'] :=
    ⟨by decide, by decide +kernel, by decide +kernel, rfl⟩
  have same := all _ 0 false _ (fun _ => .zero) [] accepted
    (false, .line 3 ⟨"ann!b@b.org", "PRIVMSG", "#c", "hi"⟩) (by decide +kernel) 3 _ rfl
  exact absurd same (by decide)

end Network

end PtlinkIrcd
