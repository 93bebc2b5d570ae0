/-
**Passing on along links.**

Every vertex of a network keeps a state. The root gets messages of its own; a vertex that handles a
message passes messages on to those that hang on it, and every link delivers in order. A vertex that
has nothing its new parent lacks may link in at any time: both send their whole state, and what the new
one sends is handled at once. Links may be lost.

* `Relaying` — what a vertex does with a message, and what it sends to a new one.
* `Relay`, `Relay.Step` — the states, the links and what waits on them; what may happen next.
* `Agrees` — what is asked of the vertices: alike states stay alike, what is passed on has the effect
  of the message itself, and a burst fills a vertex that joins, whose own one has no effect.
* `Relay.Pending` — the invariant: what waits on a link makes up the difference between its ends.
* `Agrees.settled_alike` — with nothing waiting between a vertex and the root, their states are alike.
-/

import Mathlib.Logic.Function.Basic
import Mathlib.Logic.Relation

namespace PtlinkIrcd.Lib

variable {V σ M : Type}

/-! ### The vertices -/

/-- What a vertex does with a message, its state and what it passes on; and what it sends to a vertex
that links to it. -/
structure Relaying (σ M : Type) where
  start : σ
  handle : σ → M → σ × List M
  burst : σ → List M
  /-- A vertex with the first state may link to one with the second. -/
  joins : σ → σ → Prop

/-- The state after some messages. -/
def Relaying.after (relaying : Relaying σ M) (x : σ) (messages : List M) : σ :=
  messages.foldl (fun x m => (relaying.handle x m).1) x

/-- **What makes the vertices agree.** -/
structure Agrees (relaying : Relaying σ M) (Alike : σ → σ → Prop) : Prop where
  equivalence : Equivalence Alike
  congr : ∀ {x y} m, Alike x y → Alike (relaying.handle x m).1 (relaying.handle y m).1
  passes : ∀ x m, Alike (relaying.after x (relaying.handle x m).2) (relaying.handle x m).1
  fills : ∀ {x y}, relaying.joins x y → Alike (relaying.after x (relaying.burst y)) y
  silent : ∀ {x y}, relaying.joins x y → ∀ m ∈ relaying.burst x, relaying.handle y m = (y, [])

theorem Agrees.after {relaying : Relaying σ M} {Alike : σ → σ → Prop} (agrees : Agrees relaying Alike)
    (messages : List M) {x y : σ} (alike : Alike x y) :
    Alike (relaying.after x messages) (relaying.after y messages) := by
  induction messages generalizing x y with
  | nil => exact alike
  | cons m messages ih => exact ih (agrees.congr m alike)

/-! ### The network -/

/-- The vertex above each one, the states, and what waits on the link from above. -/
structure Relay (V σ M : Type) where
  up : V → Option V
  state : V → σ
  waiting : V → List M

namespace Relay

variable [DecidableEq V] (relaying : Relaying σ M) (root : V)

/-- No vertex is linked. -/
def start : Relay V σ M := ⟨fun _ => none, fun _ => relaying.start, fun _ => []⟩

/-- A vertex handles a message and passes on to those that hang on it. -/
def handleAt (net : Relay V σ M) (v : V) (m : M) : Relay V σ M :=
  { net with
    state := Function.update net.state v (relaying.handle (net.state v) m).1
    waiting := fun w =>
      if net.up w = some v then net.waiting w ++ (relaying.handle (net.state v) m).2
      else net.waiting w }

/-- A vertex handles messages one after the other. -/
def handleAll (net : Relay V σ M) (v : V) (messages : List M) : Relay V σ M :=
  messages.foldl (fun net m => net.handleAt relaying v m) net

/-- **What may happen next.** -/
inductive Step : Relay V σ M → Relay V σ M → Prop
  /-- The root has a message of its own. -/
  | issue (net : Relay V σ M) (m : M) : Step net (net.handleAt relaying root m)
  /-- The first message on a link arrives. -/
  | deliver (net : Relay V σ M) (v : V) (m : M) (rest : List M) (waits : net.waiting v = m :: rest) :
    Step net ({ net with waiting := Function.update net.waiting v rest }.handleAt relaying v m)
  /-- A vertex links in. -/
  | link (net : Relay V σ M) (v p : V) (alone : net.up v = none) (below : v ≠ root) (apart : v ≠ p)
    (joins : relaying.joins (net.state v) (net.state p)) :
    Step net ({ net with
      up := Function.update net.up v (some p)
      waiting := Function.update net.waiting v (relaying.burst (net.state p))
    }.handleAll relaying p (relaying.burst (net.state v)))
  /-- A link is lost. -/
  | split (net : Relay V σ M) (v : V) :
    Step net { net with
      up := Function.update net.up v none
      waiting := Function.update net.waiting v [] }

/-- A network in the course of events. -/
def Reached (net : Relay V σ M) : Prop :=
  Relation.ReflTransGen (Step relaying root) (start relaying) net

/-- Nothing waits on the links between the root and a vertex. -/
inductive Settled (net : Relay V σ M) : V → Prop
  | root : Settled net root
  | step {v p : V} (up : net.up v = some p) (quiet : net.waiting v = []) (above : Settled net p) :
    Settled net v

/-- **What waits on a link makes up the difference between its ends.** -/
structure Pending (Alike : σ → σ → Prop) (net : Relay V σ M) : Prop where
  rooted : net.up root = none
  apart : ∀ v, net.up v ≠ some v
  /-- Nothing waits where there is no link. -/
  alone : ∀ v, net.up v = none → net.waiting v = []
  edge : ∀ v p, net.up v = some p → Alike (relaying.after (net.state v) (net.waiting v)) (net.state p)

variable {relaying root} {Alike : σ → σ → Prop} {net next : Relay V σ M}

theorem edge_below (net : Relay V σ M) (agrees : Agrees relaying Alike) {v w : V} {m : M} (apart : w ≠ v)
    (up : net.up w = some v) (alike : Alike (relaying.after (net.state w) (net.waiting w)) (net.state v)) :
    Alike (relaying.after ((net.handleAt relaying v m).state w) ((net.handleAt relaying v m).waiting w))
      ((net.handleAt relaying v m).state v) := by
  have waiting : (net.handleAt relaying v m).waiting w =
      net.waiting w ++ (relaying.handle (net.state v) m).2 := if_pos up
  have state : (net.handleAt relaying v m).state w = net.state w := Function.update_of_ne apart ..
  have above : (net.handleAt relaying v m).state v = (relaying.handle (net.state v) m).1 :=
    Function.update_self ..
  rw [waiting, state, above, Relaying.after, List.foldl_append]
  exact agrees.equivalence.trans (agrees.after _ alike) (agrees.passes _ m)

theorem edge_aside (net : Relay V σ M) {v w p : V} {m : M} (other : w ≠ v) (apart : p ≠ v) (up : net.up w = some p)
    (alike : Alike (relaying.after (net.state w) (net.waiting w)) (net.state p)) :
    Alike (relaying.after ((net.handleAt relaying v m).state w) ((net.handleAt relaying v m).waiting w))
      ((net.handleAt relaying v m).state p) := by
  have waiting : (net.handleAt relaying v m).waiting w = net.waiting w :=
    if_neg fun same => apart (Option.some.inj (up.symm.trans same))
  have state : (net.handleAt relaying v m).state w = net.state w := Function.update_of_ne other ..
  have above : (net.handleAt relaying v m).state p = net.state p := Function.update_of_ne apart ..
  rw [waiting, state, above]
  exact alike

theorem handleAll_silent (net : Relay V σ M) (v : V) {messages : List M}
    (silent : ∀ m ∈ messages, relaying.handle (net.state v) m = (net.state v, [])) :
    net.handleAll relaying v messages = net := by
  induction messages with
  | nil => rfl
  | cons m messages ih =>
    have idle : net.handleAt relaying v m = net := by
      unfold handleAt
      rw [silent m List.mem_cons_self]
      simp only [Function.update_eq_self, List.append_nil, ite_self]
    show (net.handleAt relaying v m).handleAll relaying v messages = net
    rw [idle]
    exact ih fun m' member => silent m' (List.mem_cons_of_mem _ member)

theorem Pending.issue (agrees : Agrees relaying Alike) (pending : Pending relaying root Alike net) (m : M) :
    Pending relaying root Alike (net.handleAt relaying root m) := by
  refine ⟨pending.rooted, pending.apart, fun v none_ => ?_, fun v p up => ?_⟩
  · have waiting : (net.handleAt relaying root m).waiting v = net.waiting v :=
      if_neg fun some_ => absurd (none_.symm.trans some_) (by simp)
    rw [waiting]
    exact pending.alone v none_
  · have other : v ≠ root := fun same => by
      rw [same] at up
      exact absurd (pending.rooted.symm.trans up) (by simp)
    by_cases here : p = root
    · subst here
      exact edge_below net agrees other up (pending.edge v p up)
    · exact edge_aside net other here up (pending.edge v p up)

theorem Pending.deliver (agrees : Agrees relaying Alike) (pending : Pending relaying root Alike net) {v : V}
    {m : M} {rest : List M} (waits : net.waiting v = m :: rest) :
    Pending relaying root Alike
      ({ net with waiting := Function.update net.waiting v rest }.handleAt relaying v m) := by
  have others : ∀ w, w ≠ v → Function.update net.waiting v rest w = net.waiting w := fun w ne =>
    Function.update_of_ne ne ..
  refine ⟨pending.rooted, pending.apart, fun w none_ => ?_, fun w p up => ?_⟩
  · have linked : w ≠ v := by
      rintro rfl
      rw [pending.alone w none_] at waits
      exact absurd waits (List.cons_ne_nil m rest).symm
    have waiting : ({ net with waiting := Function.update net.waiting v rest }.handleAt relaying v
        m).waiting w = Function.update net.waiting v rest w :=
      if_neg fun some_ => absurd (none_.symm.trans some_) (by simp)
    rw [waiting, others w linked]
    exact pending.alone w none_
  · by_cases mine : w = v
    · subst mine
      -- the vertex itself has one message less before it
      have apart : p ≠ w := fun same => pending.apart w (same ▸ up)
      have waiting : ({ net with waiting := Function.update net.waiting w rest }.handleAt relaying w
          m).waiting w = rest :=
        (if_neg (pending.apart w)).trans (Function.update_self ..)
      have state : ({ net with waiting := Function.update net.waiting w rest }.handleAt relaying w
          m).state w = (relaying.handle (net.state w) m).1 := Function.update_self ..
      have above : ({ net with waiting := Function.update net.waiting w rest }.handleAt relaying w
          m).state p = net.state p := Function.update_of_ne apart ..
      have edge := pending.edge w p up
      rw [waits] at edge
      rw [waiting, state, above]
      exact edge
    · have edge : Alike (relaying.after (net.state w) (Function.update net.waiting v rest w))
          (net.state p) := by
        rw [others w mine]
        exact pending.edge w p up
      by_cases here : p = v
      · subst here
        exact edge_below { net with waiting := Function.update net.waiting p rest } agrees mine up edge
      · exact edge_aside { net with waiting := Function.update net.waiting v rest } mine here up edge

theorem Pending.link (agrees : Agrees relaying Alike) (pending : Pending relaying root Alike net) {v p : V}
    (below : v ≠ root) (apart : v ≠ p) (joins : relaying.joins (net.state v) (net.state p)) :
    Pending relaying root Alike ({ net with
      up := Function.update net.up v (some p)
      waiting := Function.update net.waiting v (relaying.burst (net.state p))
    }.handleAll relaying p (relaying.burst (net.state v))) := by
  rw [handleAll_silent { net with
    up := Function.update net.up v (some p)
    waiting := Function.update net.waiting v (relaying.burst (net.state p)) } p (agrees.silent joins)]
  refine ⟨?_, fun w => ?_, fun w none_ => ?_, fun w q up => ?_⟩
  · show Function.update net.up v (some p) root = none
    rw [Function.update_of_ne below.symm]
    exact pending.rooted
  · show Function.update net.up v (some p) w ≠ some w
    by_cases mine : w = v
    · rw [mine, Function.update_self]
      exact fun same => apart (Option.some.inj same).symm
    · rw [Function.update_of_ne mine]
      exact pending.apart w
  · have mine : w ≠ v := by
      rintro rfl
      exact absurd ((Function.update_self ..).symm.trans none_) (by simp)
    have none_' : Function.update net.up v (some p) w = none := none_
    rw [Function.update_of_ne mine] at none_'
    show Function.update net.waiting v _ w = []
    rw [Function.update_of_ne mine]
    exact pending.alone w none_'
  · have up' : Function.update net.up v (some p) w = some q := up
    show Alike (relaying.after (net.state w) (Function.update net.waiting v _ w)) (net.state q)
    by_cases mine : w = v
    · rw [mine, Function.update_self] at up'
      rw [mine, Function.update_self, ← Option.some.inj up']
      exact agrees.fills joins
    · rw [Function.update_of_ne mine] at up'
      rw [Function.update_of_ne mine]
      exact pending.edge w q up'

theorem Pending.split (pending : Pending relaying root Alike net) (v : V) :
    Pending relaying root Alike { net with
      up := Function.update net.up v none
      waiting := Function.update net.waiting v [] } := by
  refine ⟨?_, fun w => ?_, fun w none_ => ?_, fun w q up => ?_⟩
  · show Function.update net.up v none root = none
    by_cases here : root = v
    · rw [here, Function.update_self]
    · rw [Function.update_of_ne here]
      exact pending.rooted
  · show Function.update net.up v none w ≠ some w
    by_cases mine : w = v
    · rw [mine, Function.update_self]
      exact (Option.some_ne_none v).symm
    · rw [Function.update_of_ne mine]
      exact pending.apart w
  · show Function.update net.waiting v [] w = []
    by_cases mine : w = v
    · rw [mine, Function.update_self]
    · have none_' : Function.update net.up v none w = none := none_
      rw [Function.update_of_ne mine] at none_' ⊢
      exact pending.alone w none_'
  · have up' : Function.update net.up v none w = some q := up
    have mine : w ≠ v := by
      rintro rfl
      exact absurd ((Function.update_self ..).symm.trans up') (by simp)
    rw [Function.update_of_ne mine] at up'
    show Alike (relaying.after (net.state w) (Function.update net.waiting v _ w)) (net.state q)
    rw [Function.update_of_ne mine]
    exact pending.edge w q up'

/-- **Every step keeps the invariant.** -/
theorem Pending.step (agrees : Agrees relaying Alike) (pending : Pending relaying root Alike net)
    (step : Step relaying root net next) : Pending relaying root Alike next := by
  cases step with
  | issue m => exact pending.issue agrees m
  | deliver v m rest waits => exact pending.deliver agrees waits
  | link v p alone below apart joins => exact pending.link agrees below apart joins
  | split v => exact pending.split v

theorem Reached.pending (agrees : Agrees relaying Alike) (reached : Reached relaying root net) :
    Pending relaying root Alike net := by
  induction reached with
  | refl =>
    refine ⟨rfl, fun _ => (Option.some_ne_none _).symm, fun _ _ => rfl, fun _ _ up => ?_⟩
    exact absurd up (by simp [start])
  | tail _ step ih => exact ih.step agrees step

end Relay

/-- **Vertices agree with the root when nothing waits between them.** -/
theorem Agrees.settled_alike [DecidableEq V] {relaying : Relaying σ M} {Alike : σ → σ → Prop} {root v : V}
    {net : Relay V σ M} (agrees : Agrees relaying Alike) (reached : net.Reached relaying root)
    (settled : net.Settled root v) : Alike (net.state v) (net.state root) := by
  have pending := reached.pending agrees
  induction settled with
  | root => exact agrees.equivalence.refl _
  | @step v p up quiet _ ih =>
    have edge := pending.edge v p up
    rw [quiet] at edge
    exact agrees.equivalence.trans edge ih

end PtlinkIrcd.Lib
