/-
**Flooding a tree.**

The vertices of a tree pass messages on to their neighbours; a vertex that gets a message may change
its own state, send messages and put something out. The messages on the way may arrive in any order,
and the states of the vertices may change in between.

* `Flood`, `Flood.step`, `Flood.run` — the vertices, the messages on the way and the logs.
* `closer_unique` — one neighbour at most is closer to a given vertex.
* `Floods` — what is asked of the vertices: none sends a message back or twice to one neighbour,
  and all send it on to wherever a wanted vertex is.
* `Spread` — the invariant of a run (`Floods.spread_start`, `Floods.spread_run`): no vertex gets two
  messages (`Spread.handled_le`), with nothing on the way every wanted vertex got one
  (`Spread.handled_eq`), and every edge carries one message at most (`Spread.carried_nodup`).
* `Floods.drains` — the messages on the way come to an end.
* `Floods.logs_run`, `Spread.countP_outputs` — what the vertices put out.
-/

import Mathlib.Combinatorics.SimpleGraph.Acyclic
import Mathlib.Data.Fintype.Card
import Mathlib.Data.List.Nodup
import Mathlib.Logic.Function.Basic

set_option linter.unusedSectionVars false

namespace PtlinkIrcd.Lib

/-! ### Distances in a tree -/

section Distances

variable {V : Type} {G : SimpleGraph V}

theorem exists_closer (connected : G.Connected) {v t : V} (ne : v ≠ t) :
    ∃ h, G.Adj v h ∧ G.dist h t < G.dist v t := by
  obtain ⟨walk, shortest⟩ := connected.exists_walk_length_eq_dist v t
  cases walk with
  | nil => exact absurd rfl ne
  | cons adj rest =>
    refine ⟨_, adj, ?_⟩
    have bound := G.dist_le rest
    rw [SimpleGraph.Walk.length_cons] at shortest
    omega

theorem dist_ne (tree : G.IsTree) {v h : V} (adj : G.Adj v h) (t : V) :
    G.dist v t ≠ G.dist h t := by
  rw [G.dist_comm, G.dist_comm (u := h)]
  exact tree.dist_ne_of_adj t adj

theorem closer_unique (tree : G.IsTree) {v h h' t : V} (adj : G.Adj v h) (adj' : G.Adj v h')
    (closer : G.dist h t < G.dist v t) (closer' : G.dist h' t < G.dist v t) : h = h' := by
  have path : ∀ {k : V} (_ : G.Adj v k), G.dist k t < G.dist v t →
      ∃ p : G.Walk v t, p.IsPath ∧ p.snd = k := by
    intro k adj closer
    obtain ⟨rest, shortest⟩ := tree.connected.exists_walk_length_eq_dist k t
    refine ⟨.cons adj rest, SimpleGraph.Walk.isPath_of_length_eq_dist _ ?_,
      SimpleGraph.Walk.snd_cons rest adj⟩
    have bound := G.dist_le (.cons adj rest)
    rw [SimpleGraph.Walk.length_cons] at bound ⊢
    omega
  obtain ⟨p, isPath, second⟩ := path adj closer
  obtain ⟨p', isPath', second'⟩ := path adj' closer'
  rw [← second, ← second', (tree.existsUnique_path v t).unique isPath isPath']

end Distances

/-! ### The vertices and the messages -/

/-- What a vertex does with a message: its next state, the messages to its neighbours, and what it
puts out. -/
structure Reaction (V σ P D : Type) where
  state : σ
  sends : List (V × P)
  outputs : List D

/-- A message on its way along an edge. -/
structure Packet (V P : Type) where
  source : V
  target : V
  payload : P

/-- All vertices, the messages on the way, the messages that arrived, with the neighbour that each
came from, and what was put out. -/
structure Flood (V σ P D : Type) where
  node : V → σ
  travelling : List (Packet V P)
  handled : List (V × Option V × P)
  outputs : List (V × D)

/-- A message arrives, or the state of a vertex changes for a reason of its own. -/
inductive Move (V σ : Type)
  | deliver (i : Nat)
  | touch (v : V) (state : σ)

namespace Flood

variable {V σ P D : Type} [DecidableEq V] (react : V → σ → Option V → P → Reaction V σ P D)

/-- A vertex gets a message. -/
def handle (v : V) (arrival : Option V) (p : P) (st : Flood V σ P D) : Flood V σ P D :=
  let r := react v (st.node v) arrival p
  { node := Function.update st.node v r.state
    travelling := st.travelling ++ r.sends.map fun c => ⟨v, c.1, c.2⟩
    handled := st.handled ++ [(v, arrival, p)]
    outputs := st.outputs ++ r.outputs.map fun d => (v, d) }

/-- The first vertex gets the first message. -/
def start (node : V → σ) (o : V) (p : P) : Flood V σ P D := handle react o none p ⟨node, [], [], []⟩

def step (st : Flood V σ P D) : Move V σ → Flood V σ P D
  | .deliver i =>
    match st.travelling[i]? with
    | none => st
    | some k =>
      handle react k.target (some k.source) k.payload
        { st with travelling := st.travelling.eraseIdx i }
  | .touch v x => { st with node := Function.update st.node v x }

def run (moves : List (Move V σ)) (st : Flood V σ P D) : Flood V σ P D := moves.foldl (step react) st

theorem step_deliver {st : Flood V σ P D} {i : Nat} (inBounds : i < st.travelling.length) :
    st.step react (.deliver i) =
      handle react st.travelling[i].target (some st.travelling[i].source) st.travelling[i].payload
        { st with travelling := st.travelling.eraseIdx i } := by
  simp only [step, List.getElem?_eq_getElem inBounds]

theorem step_deliver_none {st : Flood V σ P D} {i : Nat} (outside : st.travelling.length ≤ i) :
    st.step react (.deliver i) = st := by
  simp only [step, List.getElem?_eq_none outside]

/-- The edges along which a message was sent. -/
def carried (st : Flood V σ P D) : List (V × V) :=
  (st.handled.filterMap fun h => h.2.1.map fun a => (a, h.1)) ++
    st.travelling.map fun k => (k.source, k.target)

/-- The messages that reached a vertex or are on an edge that leads closer to it. -/
noncomputable def duty (G : SimpleGraph V) (st : Flood V σ P D) (t : V) : Nat :=
  (st.handled.countP fun h => h.1 = t) +
    st.travelling.countP fun k => G.dist k.target t < G.dist k.source t

end Flood

/-! ### What is asked of the vertices -/

/-- A message that a vertex may get: the first one at the first vertex, or one from a neighbour that
is closer to the first vertex. -/
inductive Arrives {V P : Type} (G : SimpleGraph V) (o : V) (first : P) (fit : V → V → P → Prop) :
    V → Option V → P → Prop
  | first : Arrives G o first fit o none first
  | next {a v : V} {p : P} (adj : G.Adj a v) (away : G.dist a o < G.dist v o) (fits : fit a v p) :
    Arrives G o first fit v (some a) p

/-- The vertices flood the tree with the message `first` from the vertex `o`. -/
structure Floods {V σ P D : Type} (G : SimpleGraph V)
    (react : V → σ → Option V → P → Reaction V σ P D) (o : V) (first : P)
    (fit : V → V → P → Prop) (wanted : V → Prop) : Prop where
  tree : G.IsTree
  nodup : ∀ {v x arrival p}, Arrives G o first fit v arrival p →
    ((react v x arrival p).sends.map Prod.fst).Nodup
  onward : ∀ {v x arrival p c}, Arrives G o first fit v arrival p →
    c ∈ (react v x arrival p).sends → G.Adj v c.1 ∧ arrival ≠ some c.1 ∧ fit v c.1 c.2
  reaches : ∀ {v x arrival p t c}, Arrives G o first fit v arrival p → wanted t → v ≠ t →
    G.Adj v c → G.dist c t < G.dist v t → arrival ≠ some c →
    c ∈ (react v x arrival p).sends.map Prod.fst

/-! ### One message -/

/-- In a list without repetitions, a test that one element at most passes counts one at most. -/
theorem countP_le_one {α : Type} {q : α → Bool} {l : List α} (nodup : l.Nodup)
    (unique : ∀ a ∈ l, ∀ b ∈ l, q a = true → q b = true → a = b) : l.countP q ≤ 1 := by
  induction l with
  | nil => exact Nat.zero_le 1
  | cons a l ih =>
    rw [List.nodup_cons] at nodup
    have rest := ih nodup.2 fun b hb c hc =>
      unique b (List.mem_cons_of_mem _ hb) c (List.mem_cons_of_mem _ hc)
    rw [List.countP_cons]
    split
    · rename_i passes
      have none_ : l.countP q = 0 := List.countP_eq_zero.mpr fun b hb passes' =>
        nodup.1 (unique a List.mem_cons_self b (List.mem_cons_of_mem _ hb) passes passes' ▸ hb)
      rw [none_]
    · exact rest

section Message

variable {V σ P D : Type} [DecidableEq V] {G : SimpleGraph V}
  {react : V → σ → Option V → P → Reaction V σ P D} {o : V} {first : P} {fit : V → V → P → Prop}
  {wanted : V → Prop}

/-- The messages that `v` sends on an edge closer to `t`. -/
noncomputable def ahead (G : SimpleGraph V) (v t : V) (sends : List (V × P)) : Nat :=
  sends.countP fun c => G.dist c.1 t < G.dist v t

/-- What a message that arrives counts for `t`. -/
noncomputable def due (G : SimpleGraph V) (v : V) (arrival : Option V) (t : V) : Nat :=
  match arrival with
  | none => 1
  | some a => if G.dist v t < G.dist a t then 1 else 0

theorem ahead_self (v : V) (sends : List (V × P)) : ahead G v v sends = 0 := by
  refine List.countP_eq_zero.mpr fun c _ closer => ?_
  rw [decide_eq_true_eq, G.dist_self] at closer
  exact absurd closer (Nat.not_lt_zero _)

theorem ahead_eq (v t : V) (sends : List (V × P)) :
    ahead G v t sends = (sends.map Prod.fst).countP fun c => G.dist c t < G.dist v t := by
  rw [List.countP_map]
  rfl

theorem Floods.ahead_back (floods : Floods G react o first fit wanted) {v a t : V} {x : σ} {p : P}
    (arrives : Arrives G o first fit v (some a) p) (adj : G.Adj v a)
    (closer : G.dist a t < G.dist v t) : ahead G v t (react v x (some a) p).sends = 0 := by
  refine List.countP_eq_zero.mpr fun c member closer' => ?_
  obtain ⟨adj', ne, -⟩ := floods.onward arrives member
  rw [decide_eq_true_eq] at closer'
  exact ne (congrArg some (closer_unique floods.tree adj adj' closer closer'))

theorem Floods.ahead_le (floods : Floods G react o first fit wanted) {v : V} {arrival : Option V}
    {x : σ} {p : P} (arrives : Arrives G o first fit v arrival p) (t : V) :
    ahead G v t (react v x arrival p).sends ≤ 1 := by
  rw [ahead_eq]
  refine countP_le_one (floods.nodup arrives) fun c member c' member' closer closer' => ?_
  obtain ⟨d, there, rfl⟩ := List.mem_map.mp member
  obtain ⟨d', there', rfl⟩ := List.mem_map.mp member'
  exact closer_unique floods.tree (floods.onward arrives there).1 (floods.onward arrives there').1
    (of_decide_eq_true closer) (of_decide_eq_true closer')

/-- A wanted vertex elsewhere gets a message on the edge that leads closer. -/
theorem Floods.ahead_eq_one (floods : Floods G react o first fit wanted) {v h t : V}
    {arrival : Option V} {x : σ} {p : P} (arrives : Arrives G o first fit v arrival p)
    (want : wanted t) (ne : v ≠ t) (adj : G.Adj v h) (closer : G.dist h t < G.dist v t)
    (back : arrival ≠ some h) : ahead G v t (react v x arrival p).sends = 1 := by
  refine Nat.le_antisymm (floods.ahead_le arrives t) ?_
  rw [ahead_eq]
  exact List.countP_pos_iff.mpr
    ⟨h, floods.reaches arrives want ne adj closer back, decide_eq_true closer⟩

/-- A message counts for every vertex at most as much after its arrival as before. -/
theorem Floods.balance_le (floods : Floods G react o first fit wanted) {v : V} {arrival : Option V}
    {x : σ} {p : P} (arrives : Arrives G o first fit v arrival p) (t : V) :
    (if v = t then 1 else 0) + ahead G v t (react v x arrival p).sends ≤ due G v arrival t := by
  have most := floods.ahead_le (x := x) arrives t
  cases arrives with
  | first =>
    show _ ≤ 1
    split
    · rename_i same
      rw [← same, ahead_self]
    · omega
  | @next a _ _ adj away fits =>
    show _ ≤ if _ then 1 else 0
    by_cases same : v = t
    · subst same
      have away_ := floods.tree.connected.pos_dist_of_ne (G.ne_of_adj adj)
      rw [ahead_self, if_pos rfl, G.dist_self, if_pos away_]
    · rw [if_neg same]
      split
      · omega
      · rename_i notCloser
        have ne := dist_ne floods.tree adj t
        rw [floods.ahead_back (.next adj away fits) adj.symm (by omega)]

theorem Floods.balance_eq (floods : Floods G react o first fit wanted) {v : V} {arrival : Option V}
    {x : σ} {p : P} (arrives : Arrives G o first fit v arrival p) {t : V} (want : wanted t) :
    (if v = t then 1 else 0) + ahead G v t (react v x arrival p).sends = due G v arrival t := by
  refine Nat.le_antisymm (floods.balance_le arrives t) ?_
  by_cases same : v = t
  · rw [if_pos same]
    unfold due
    split
    · omega
    · split <;> omega
  · rw [if_neg same]
    obtain ⟨h, adj, closer⟩ := exists_closer floods.tree.connected same
    cases arrives with
    | first =>
      rw [floods.ahead_eq_one .first want same adj closer (Option.some_ne_none h).symm]
      exact Nat.le_refl 1
    | @next a _ _ adj' away fits =>
      show (if _ then 1 else 0) ≤ _
      split
      · rename_i behind
        have back : some a ≠ some h := by
          rintro ⟨⟩
          omega
        rw [floods.ahead_eq_one (.next adj' away fits) want same adj closer back]
      · exact Nat.zero_le _

theorem Floods.arrives_next (floods : Floods G react o first fit wanted) {v : V}
    {arrival : Option V} {x : σ} {p : P} (arrives : Arrives G o first fit v arrival p) {c : V × P}
    (sent : c ∈ (react v x arrival p).sends) : Arrives G o first fit c.1 (some v) c.2 := by
  obtain ⟨adj, ne, fits⟩ := floods.onward arrives sent
  refine .next adj ?_ fits
  have differ := dist_ne floods.tree adj o
  cases arrives with
  | first =>
    rw [G.dist_self] at differ ⊢
    omega
  | @next a _ _ adj' away _ =>
    -- a neighbour closer to the first vertex would be the one that the message came from
    refine Nat.lt_of_le_of_ne (Nat.le_of_not_lt fun closer => ?_) differ
    exact ne (congrArg some (closer_unique floods.tree adj'.symm adj away closer))

end Message

/-! ### All messages -/

section Runs

variable {V σ P D : Type} [DecidableEq V] {G : SimpleGraph V}
  {react : V → σ → Option V → P → Reaction V σ P D} {o : V} {first : P} {fit : V → V → P → Prop}
  {wanted : V → Prop}

/-- All messages are proper ones, none counts for a vertex twice, and each wanted vertex has one that
counts for it. -/
structure Spread (G : SimpleGraph V) (o : V) (first : P) (fit : V → V → P → Prop)
    (wanted : V → Prop) (st : Flood V σ P D) : Prop where
  travelling : ∀ k ∈ st.travelling, Arrives G o first fit k.target (some k.source) k.payload
  handled : ∀ h ∈ st.handled, Arrives G o first fit h.1 h.2.1 h.2.2
  duty_le : ∀ t, st.duty G t ≤ 1
  duty_eq : ∀ t, wanted t → st.duty G t = 1

theorem duty_handle (v : V) (arrival : Option V) (p : P) (st : Flood V σ P D) (t : V) :
    (st.handle react v arrival p).duty G t = st.duty G t +
      ((if v = t then 1 else 0) + ahead G v t (react v (st.node v) arrival p).sends) := by
  unfold Flood.duty Flood.handle ahead
  simp only [List.countP_append, List.countP_map, List.countP_singleton, decide_eq_true_eq]
  have same : List.countP ((fun k : Packet V P => decide (G.dist k.target t < G.dist k.source t)) ∘
        fun c => ⟨v, c.1, c.2⟩) (react v (st.node v) arrival p).sends =
      List.countP (fun c => decide (G.dist c.1 t < G.dist v t))
        (react v (st.node v) arrival p).sends := rfl
  rw [same]
  omega

theorem Floods.handle (floods : Floods G react o first fit wanted) (st : Flood V σ P D)
    (travelling : ∀ k ∈ st.travelling, Arrives G o first fit k.target (some k.source) k.payload)
    (handled : ∀ h ∈ st.handled, Arrives G o first fit h.1 h.2.1 h.2.2) {v : V}
    {arrival : Option V} {p : P} (arrives : Arrives G o first fit v arrival p)
    (most : ∀ t, st.duty G t + due G v arrival t ≤ 1)
    (exact_ : ∀ t, wanted t → st.duty G t + due G v arrival t = 1) :
    Spread G o first fit wanted (st.handle react v arrival p) where
  travelling k member := by
    rcases List.mem_append.mp member with before | new
    · exact travelling k before
    · obtain ⟨c, sent, rfl⟩ := List.mem_map.mp new
      exact floods.arrives_next arrives sent
  handled h member := by
    rcases List.mem_append.mp member with before | new
    · exact handled h before
    · rw [List.mem_singleton.mp new]
      exact arrives
  duty_le t := by
    have balance := floods.balance_le (x := st.node v) arrives t
    have bound := most t
    rw [duty_handle]
    omega
  duty_eq t want := by
    have balance := floods.balance_eq (x := st.node v) arrives want
    have bound := exact_ t want
    rw [duty_handle]
    omega

theorem Floods.spread_start (floods : Floods G react o first fit wanted) (node : V → σ) :
    Spread G o first fit wanted (Flood.start react node o first) :=
  floods.handle ⟨node, [], [], []⟩ (fun _ member => absurd member List.not_mem_nil)
    (fun _ member => absurd member List.not_mem_nil) .first (fun _ => Nat.le_refl 1) fun _ _ => rfl

theorem duty_eraseIdx (st : Flood V σ P D) {i : Nat} (inBounds : i < st.travelling.length) (t : V) :
    st.duty G t = { st with travelling := st.travelling.eraseIdx i }.duty G t +
      due G st.travelling[i].target (some st.travelling[i].source) t := by
  unfold Flood.duty due
  rw [← (List.getElem_cons_eraseIdx_perm inBounds).countP_eq, List.countP_cons]
  simp only [decide_eq_true_eq]
  omega

theorem Floods.spread_step (floods : Floods G react o first fit wanted) {st : Flood V σ P D}
    (spread : Spread G o first fit wanted st) (move : Move V σ) :
    Spread G o first fit wanted (st.step react move) := by
  cases move with
  | touch v x => exact ⟨spread.travelling, spread.handled, spread.duty_le, spread.duty_eq⟩
  | deliver i =>
    by_cases inBounds : i < st.travelling.length
    · rw [Flood.step_deliver react inBounds]
      refine floods.handle { st with travelling := st.travelling.eraseIdx i } (fun k member => ?_)
        spread.handled (spread.travelling _ (List.getElem_mem inBounds)) (fun t => ?_)
        fun t want => ?_
      · exact spread.travelling k (List.mem_of_mem_eraseIdx member)
      · rw [← duty_eraseIdx st inBounds]
        exact spread.duty_le t
      · rw [← duty_eraseIdx st inBounds]
        exact spread.duty_eq t want
    · rw [Flood.step_deliver_none react (Nat.le_of_not_lt inBounds)]
      exact spread

theorem Floods.spread_run (floods : Floods G react o first fit wanted) {st : Flood V σ P D}
    (spread : Spread G o first fit wanted st) (moves : List (Move V σ)) :
    Spread G o first fit wanted (st.run react moves) := by
  induction moves generalizing st with
  | nil => exact spread
  | cons move moves ih => exact ih (floods.spread_step spread move)

/-! ### What follows from it -/

theorem Spread.handled_le {st : Flood V σ P D} (spread : Spread G o first fit wanted st) (t : V) :
    (st.handled.countP fun h => h.1 = t) ≤ 1 :=
  le_trans (Nat.le_add_right _ _) (spread.duty_le t)

theorem Spread.handled_eq {st : Flood V σ P D} (spread : Spread G o first fit wanted st)
    (drained : st.travelling = []) {t : V} (want : wanted t) :
    (st.handled.countP fun h => h.1 = t) = 1 := by
  have due := spread.duty_eq t want
  unfold Flood.duty at due
  rwa [drained, List.countP_nil, Nat.add_zero] at due

theorem Spread.mem_carried {st : Flood V σ P D} (spread : Spread G o first fit wanted st) {a b : V}
    (member : (a, b) ∈ st.carried) :
    G.Adj a b ∧ G.dist a o < G.dist b o ∧ ∃ p, fit a b p := by
  unfold Flood.carried at member
  rcases List.mem_append.mp member with before | way
  · obtain ⟨h, there, edge⟩ := List.mem_filterMap.mp before
    obtain ⟨v, arrival, p⟩ := h
    have arrives := spread.handled _ there
    cases arrives with
    | first => cases edge
    | next adj away fits =>
      cases edge
      exact ⟨adj, away, p, fits⟩
  · obtain ⟨k, there, edge⟩ := List.mem_map.mp way
    cases edge
    cases spread.travelling k there with
    | next adj away fits => exact ⟨adj, away, k.payload, fits⟩

theorem Spread.carried_targets_nodup {st : Flood V σ P D}
    (spread : Spread G o first fit wanted st) : (st.carried.map Prod.snd).Nodup := by
  refine List.nodup_iff_count_le_one.mpr fun t => ?_
  unfold Flood.carried
  rw [List.map_append, List.count_append, List.map_map, List.map_filterMap]
  have arrived : List.count t (st.handled.filterMap fun h =>
      (h.2.1.map fun a => (a, h.1)).map Prod.snd) ≤ st.handled.countP fun h => h.1 = t := by
    rw [List.count_filterMap]
    refine List.countP_mono_left fun h _ there => ?_
    obtain ⟨v, arrival, p⟩ := h
    cases arrival with
    | none => cases there
    | some a => simpa using there
  have way : List.count t (st.travelling.map (Prod.snd ∘ fun k => (k.source, k.target))) ≤
      st.travelling.countP fun k => G.dist k.target t < G.dist k.source t := by
    unfold List.count
    rw [List.countP_map]
    refine List.countP_mono_left fun k member there => ?_
    have same : k.target = t := by simpa using there
    cases spread.travelling k member with
    | next adj away fits =>
      refine decide_eq_true ?_
      rw [← same, G.dist_self]
      exact adj.reachable.pos_dist_of_ne (G.ne_of_adj adj)
  exact le_trans (Nat.add_le_add arrived way) (spread.duty_le t)

theorem Spread.carried_nodup {st : Flood V σ P D} (spread : Spread G o first fit wanted st) :
    st.carried.Nodup ∧ ∀ a b, (a, b) ∈ st.carried → (b, a) ∉ st.carried := by
  refine ⟨spread.carried_targets_nodup.of_map, fun a b there back => ?_⟩
  have away := (spread.mem_carried there).2.1
  have closer := (spread.mem_carried back).2.1
  omega

theorem Spread.handled_length_le [Fintype V] {st : Flood V σ P D}
    (spread : Spread G o first fit wanted st) : st.handled.length ≤ Fintype.card V := by
  have nodup : (st.handled.map Prod.fst).Nodup := by
    refine List.nodup_iff_count_le_one.mpr fun t => ?_
    unfold List.count
    rw [List.countP_map]
    exact le_trans (le_of_eq (List.countP_congr fun h _ => by simp)) (spread.handled_le t)
  rw [← List.length_map (f := Prod.fst)]
  exact nodup.length_le_card

theorem Floods.drains [Fintype V] (floods : Floods G react o first fit wanted) {st : Flood V σ P D}
    (spread : Spread G o first fit wanted st) :
    ∃ moves, (st.run react moves).travelling = [] := by
  induction left : Fintype.card V - st.handled.length generalizing st with
  | zero =>
    refine ⟨[], List.eq_nil_iff_length_eq_zero.mpr ?_⟩
    by_contra some_
    -- one more arrival would be one too many
    have inBounds : 0 < st.travelling.length := Nat.pos_of_ne_zero some_
    have bound := (floods.spread_step spread (.deliver 0)).handled_length_le
    rw [Flood.step_deliver react inBounds] at bound
    simp only [Flood.handle, List.length_append, List.length_singleton] at bound
    omega
  | succ n ih =>
    by_cases none_ : st.travelling = []
    · exact ⟨[], none_⟩
    · have inBounds : 0 < st.travelling.length := List.length_pos_iff.mpr none_
      have fewer : Fintype.card V - (st.step react (.deliver 0)).handled.length = n := by
        rw [Flood.step_deliver react inBounds]
        simp only [Flood.handle, List.length_append, List.length_singleton]
        omega
      obtain ⟨moves, drained⟩ := ih (floods.spread_step spread (.deliver 0)) fewer
      exact ⟨.deliver 0 :: moves, drained⟩

/-- What the vertices put out, message by message. -/
def Flood.Logs (out : V → Option V → P → List D) (st : Flood V σ P D) : Prop :=
  st.outputs = st.handled.flatMap fun h => (out h.1 h.2.1 h.2.2).map fun d => (h.1, d)

variable {out : V → Option V → P → List D}

theorem logs_handle {v : V} {arrival : Option V} {p : P} {st : Flood V σ P D} (logs : st.Logs out)
    (same : (react v (st.node v) arrival p).outputs = out v arrival p) :
    (st.handle react v arrival p).Logs out := by
  show st.outputs ++ _ = _
  rw [logs, same]
  simp only [Flood.handle, List.flatMap_append, List.flatMap_singleton]

/-- The output of a run, when the state of a vertex does not matter for it. -/
theorem Floods.logs_run (floods : Floods G react o first fit wanted)
    (same : ∀ {v x arrival p}, Arrives G o first fit v arrival p →
      (react v x arrival p).outputs = out v arrival p) {st : Flood V σ P D}
    (spread : Spread G o first fit wanted st) (logs : st.Logs out) (moves : List (Move V σ)) :
    (st.run react moves).Logs out := by
  induction moves generalizing st with
  | nil => exact logs
  | cons move moves ih =>
    refine ih (floods.spread_step spread move) ?_
    cases move with
    | touch v x => exact logs
    | deliver i =>
      by_cases inBounds : i < st.travelling.length
      · rw [Flood.step_deliver react inBounds]
        refine logs_handle ?_ (same (spread.travelling _ (List.getElem_mem inBounds)))
        exact logs
      · rw [Flood.step_deliver_none react (Nat.le_of_not_lt inBounds)]
        exact logs

/-- What one vertex puts out once for every message, and no other vertex does, is put out as often as
that vertex gets a message. -/
theorem Spread.countP_outputs {st : Flood V σ P D} (spread : Spread G o first fit wanted st)
    (logs : st.Logs out) {q : V × D → Bool} {t : V}
    (once : ∀ {v arrival p}, Arrives G o first fit v arrival p →
      ((out v arrival p).countP fun d => q (v, d)) = if v = t then 1 else 0) :
    st.outputs.countP q = st.handled.countP fun h => h.1 = t := by
  rw [logs]
  have arrived := spread.handled
  generalize st.handled = handled at arrived
  induction handled with
  | nil => rfl
  | cons h handled ih =>
    rw [List.flatMap_cons, List.countP_append, List.countP_cons, List.countP_map,
      ih fun k member => arrived k (List.mem_cons_of_mem _ member)]
    have here := once (arrived h List.mem_cons_self)
    have same : List.countP (q ∘ fun d => (h.1, d)) (out h.1 h.2.1 h.2.2) =
        if h.1 = t then 1 else 0 := here
    rw [same]
    simp only [decide_eq_true_eq]
    omega

end Runs

end PtlinkIrcd.Lib
