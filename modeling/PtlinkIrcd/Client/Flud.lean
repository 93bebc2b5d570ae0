/-
**Flood protection and its records.**

`flud.c`: a local client or a channel keeps a record for everyone who sends it CTCP messages, and each
of these keeps a list of those that have a record of it.

* `FludTarget.heard` — what a message does to the records of its target, and whether it is blocked.
* `check_for_flud`, `free_fluders`, `free_fludees` — the functions on both sides of the links. They have
  no result where the code would use what is freed.
* `Linked` — the invariant: the two sides agree.
* `flud_links` — **it holds after any events**, and none of them uses what is freed.
-/

import PtlinkIrcd.Lib.Incidence
import PtlinkIrcd.Model.State

namespace PtlinkIrcd

namespace Flud

/-! ### The state -/

/-- The settings. `m_set` takes no others. -/
structure FludOptions where
  FLUDNUM : Int
  FLUDTIME : Int
  FLUDBLOCK : Int
  num_pos : 0 < FLUDNUM
  time_pos : 0 < FLUDTIME
  block_nonneg : 0 ≤ FLUDBLOCK

/-- `struct fludbot`. -/
structure Fludbot where
  fluder : ClientId
  count : Nat
  first_msg : Int
  last_msg : Int

/-- What is flooded. -/
inductive Target
  | client (cptr : ClientId)
  | channel (chptr : ChannelId)
deriving DecidableEq

/-- The fields of a local client or a channel. -/
structure FludTarget where
  fludblock : Int
  fluders : List Fludbot

/-- The clients and channels. A client has no list `fludees` before it is made and after the list is
freed, and a target has no fields in the same way; only local clients have them. -/
structure FludState where
  MyConnect : ClientId → Bool
  fludees : ClientId → Option (List Target)
  target : Target → Option FludTarget
  users : ChannelId → Int
  mode : ChannelId → Flags

/-! ### The functions -/

namespace FludTarget

variable (opts : FludOptions) (now : Int) (target : FludTarget)

def blocking : Bool := now - opts.FLUDBLOCK < target.fludblock

/-- Whether a record is too old to stay. -/
def stale (current : Fludbot) : Bool := current.last_msg < now - opts.FLUDTIME

/-- The records after the garbage is collected. -/
def collected : List Fludbot :=
  if target.blocking opts now then target.fluders else target.fluders.filter (!stale opts now ·)

/-- The record of the sender is updated. -/
def noted (fluder : ClientId) (current : Fludbot) : Fludbot :=
  if current.fluder = fluder then { current with last_msg := now, count := current.count + 1 }
  else current

def share (current : Fludbot) : Nat :=
  if current.first_msg < now - opts.FLUDTIME then 1 else current.count

/-- A message to the target: its fields afterwards, and whether the message is blocked. -/
def heard (fluder : ClientId) : FludTarget × Bool :=
  let found := (target.collected opts now).any (·.fluder = fluder)
  let fluders := (target.collected opts now).map (noted now fluder)
  let count := (fluders.map (share opts now)).sum + if found then 0 else 1
  let fluders := if found then fluders else ⟨fluder, 1, now, now⟩ :: fluders
  let blocking := target.blocking opts now || opts.FLUDNUM < count
  (⟨if blocking then now else target.fludblock, fluders⟩, blocking)

end FludTarget

def FludState.remote (s : FludState) : Target → Bool
  | .client cptr => !s.MyConnect cptr
  | .channel _ => false

/-- `remove_fludee_reference`, of a client's list. -/
def remove_fludee_reference (fludee : Target) (s : FludState) (fluder : ClientId) : Option FludState :=
  (s.fludees fluder).map fun fludees =>
    { s with fludees := Function.update s.fludees fluder (some (fludees.filter (· ≠ fludee))) }

/-- `remove_fluder_reference`, of a target's list. -/
def remove_fluder_reference (fluder : ClientId) (s : FludState) (t : Target) : Option FludState :=
  (s.target t).map fun target =>
    let fluders := target.fluders.filter (·.fluder ≠ fluder)
    { s with target := Function.update s.target t (some { target with fluders := fluders }) }

/-- The senders lose the target whose records of them are garbage. -/
def collect (opts : FludOptions) (t : Target) (now : Int) (target : FludTarget) (s : FludState) :
    Option FludState :=
  if target.blocking opts now then some s
  else ((target.fluders.filter (FludTarget.stale opts now)).map Fludbot.fluder).foldlM
    (remove_fludee_reference t) s

def check_for_flud (opts : FludOptions) (fluder : ClientId) (t : Target) (now : Int) (s : FludState) :
    Option (FludState × Bool) := do
  if opts.FLUDBLOCK = 0 then some (s, false)
  else if s.remote t then some (s, false)
  else
    let target ← s.target t
    let s ← collect opts t now target s
    let found := (target.collected opts now).any (·.fluder = fluder)
    let s ←
      if found then some s
      else (s.fludees fluder).map fun fludees =>
        { s with fludees := Function.update s.fludees fluder (some (t :: fludees)) }
    let heard := target.heard opts now fluder
    some ({ s with target := Function.update s.target t (some heard.1) }, heard.2)

def free_fluders (t : Target) (s : FludState) : Option FludState :=
  if s.remote t then some s
  else do
    let target ← s.target t
    let s ← (target.fluders.map Fludbot.fluder).foldlM (remove_fludee_reference t) s
    some { s with target := Function.update s.target t none }

def free_fludees (badguy : ClientId) (s : FludState) : Option FludState := do
  let fludees ← s.fludees badguy
  let s ← fludees.foldlM (fun s t => if s.remote t then some s else remove_fluder_reference badguy s t) s
  some { s with fludees := Function.update s.fludees badguy none }

def release_client_state (cptr : ClientId) (s : FludState) : Option FludState := do
  let s ← if s.MyConnect cptr then free_fluders (.client cptr) s else some s
  free_fludees cptr s

def sub1_from_channel (RestrictedChans : Bool) (chptr : ChannelId) (s : FludState) : Option FludState :=
  let users := s.users chptr - 1
  if users ≤ 0 then
    let s := { s with users := Function.update s.users chptr 0 }
    if (RestrictedChans && (s.mode chptr).has MODE_REGISTERED) ||
        (s.mode chptr).has (MODE_ADMINONLY ||| MODE_OPERONLY ||| MODE_LOG) then some s
    else free_fluders (.channel chptr) s
  else some { s with users := Function.update s.users chptr users }

def make_client (cptr : ClientId) (MyConnect : Bool) (s : FludState) : FludState :=
  { s with
    MyConnect := Function.update s.MyConnect cptr MyConnect
    fludees := Function.update s.fludees cptr (some [])
    target := Function.update s.target (.client cptr) (if MyConnect then some ⟨0, []⟩ else none) }

def make_channel (chptr : ChannelId) (s : FludState) : FludState :=
  { s with target := Function.update s.target (.channel chptr) (some ⟨0, []⟩) }

/-! ### The runs -/

inductive Event
  | make_client (cptr : ClientId) (MyConnect : Bool)
  | make_channel (chptr : ChannelId)
  | channel_changes (chptr : ChannelId) (users : Int) (mode : Flags)
  | check_for_flud (opts : FludOptions) (fluder : ClientId) (t : Target) (now : Int)
  | free_fluders (t : Target)
  | free_fludees (cptr : ClientId)
  | client_exits (cptr : ClientId)
  | sub1_from_channel (RestrictedChans : Bool) (chptr : ChannelId)

/-- What is made was not there, what is used or freed is. -/
def Event.Possible (s : FludState) : Event → Prop
  | .make_client cptr _ => s.fludees cptr = none ∧ s.target (.client cptr) = none
  | .make_channel chptr => s.target (.channel chptr) = none
  | .channel_changes .. => True
  | .check_for_flud _ fluder t _ => s.fludees fluder ≠ none ∧ (s.remote t = false → s.target t ≠ none)
  | .free_fluders t => s.remote t = false → s.target t ≠ none
  | .free_fludees cptr => s.fludees cptr ≠ none
  | .client_exits cptr =>
    s.fludees cptr ≠ none ∧ (s.MyConnect cptr = true → s.target (.client cptr) ≠ none)
  | .sub1_from_channel _ chptr => s.target (.channel chptr) ≠ none

def step (s : FludState) : Event → Option FludState
  | .make_client cptr MyConnect => some (make_client cptr MyConnect s)
  | .make_channel chptr => some (make_channel chptr s)
  | .channel_changes chptr users mode => some { s with
      users := Function.update s.users chptr users
      mode := Function.update s.mode chptr mode }
  | .check_for_flud opts fluder t now => (check_for_flud opts fluder t now s).map Prod.fst
  | .free_fluders t => free_fluders t s
  | .free_fludees cptr => free_fludees cptr s
  | .client_exits cptr => release_client_state cptr s
  | .sub1_from_channel RestrictedChans chptr => sub1_from_channel RestrictedChans chptr s

def initial : FludState := ⟨fun _ => false, fun _ => none, fun _ => none, fun _ => 0, fun _ => 0⟩

inductive Reachable : FludState → Prop
  | initial : Reachable initial
  | step {s s' : FludState} {e : Event} :
      Reachable s → e.Possible s → Flud.step s e = some s' → Reachable s'

/-! ### The two sides of the links -/

namespace FludState

variable (s : FludState)

def fludeesOf (x : ClientId) : List Target := (s.fludees x).getD []

def fludersOf (t : Target) : List ClientId :=
  ((s.target t).map fun target => target.fluders.map Fludbot.fluder).getD []

end FludState

/-- The two sides agree, without repetition, and clients of other servers have no records. -/
structure Linked (s : FludState) : Prop where
  both : Lib.Incident s.fludeesOf s.fludersOf
  remote : ∀ t, s.remote t = true → s.target t = none

theorem initial_linked : Linked initial := ⟨Lib.Incident.empty, fun _ _ => rfl⟩

/-- The senders lose the target, those who are not there are left alone. -/
theorem remove_fludee_references (t : Target) (fluders : List ClientId) :
    ∀ s : FludState, (∀ x ∈ fluders, s.fludees x ≠ none) →
      fluders.foldlM (remove_fludee_reference t) s = some { s with
        fludees := fun x =>
          if x ∈ fluders then (s.fludees x).map fun fludees => fludees.filter (· ≠ t)
          else s.fludees x } := by
  induction fluders with
  | nil => intro s _; simp
  | cons fluder fluders ih =>
    intro s there
    obtain ⟨fludees, found⟩ := Option.ne_none_iff_exists'.mp (there fluder List.mem_cons_self)
    rw [List.foldlM_cons, remove_fludee_reference, found]
    simp only [Option.map_some, Option.bind_eq_bind, Option.bind_some]
    rw [ih]
    · congr 2
      funext x
      by_cases same : x = fluder
      · subst same
        by_cases again : x ∈ fluders <;> simp [again, found]
      · simp [same]
    · intro x member
      by_cases same : x = fluder
      · simp [same]
      · simpa [same] using there x (List.mem_cons_of_mem fluder member)

theorem remove_fluder_references (fluder : ClientId) (targets : List Target) :
    ∀ s : FludState, (∀ t ∈ targets, s.remote t = false ∧ s.target t ≠ none) →
      targets.foldlM (fun s t => if s.remote t then some s else remove_fluder_reference fluder s t) s =
        some { s with
          target := fun t =>
            if t ∈ targets then (s.target t).map fun target =>
              { target with fluders := target.fluders.filter (·.fluder ≠ fluder) }
            else s.target t } := by
  induction targets with
  | nil => intro s _; simp
  | cons t targets ih =>
    intro s there
    obtain ⟨here, known⟩ := there t List.mem_cons_self
    obtain ⟨target, found⟩ := Option.ne_none_iff_exists'.mp known
    rw [List.foldlM_cons, here, if_neg Bool.false_ne_true, remove_fluder_reference, found]
    simp only [Option.map_some, Option.bind_eq_bind, Option.bind_some]
    rw [ih]
    · congr 2
      funext other
      by_cases same : other = t
      · subst same
        by_cases again : other ∈ targets <;> simp [again, found]
      · simp [same]
    · intro other member
      obtain ⟨here, known⟩ := there other (List.mem_cons_of_mem t member)
      refine ⟨here, ?_⟩
      by_cases same : other = t
      · simp [same]
      · simpa [same] using known

namespace Linked

variable {s : FludState} {t : Target} {target : FludTarget} {x : ClientId}

theorem fludees_ne_none (linked : Linked s) (member : x ∈ s.fludersOf t) : s.fludees x ≠ none := by
  intro gone
  have mine := (linked.both.mem_iff x t).mpr member
  simp [FludState.fludeesOf, gone] at mine

theorem target_ne_none (linked : Linked s) (member : t ∈ s.fludeesOf x) :
    s.remote t = false ∧ s.target t ≠ none := by
  have known : s.target t ≠ none := by
    intro gone
    have mine := (linked.both.mem_iff x t).mp member
    simp [FludState.fludersOf, gone] at mine
  refine ⟨?_, known⟩
  cases remote : s.remote t with
  | false => rfl
  | true => exact absurd (linked.remote t remote) known

theorem fludersOf_eq (found : s.target t = some target) :
    s.fludersOf t = target.fluders.map Fludbot.fluder := by
  simp [FludState.fludersOf, found]

theorem fludeesOf_dropped (s : FludState) (t : Target) (gone : List ClientId)
    {target' : Target → Option FludTarget} (y : ClientId) :
    FludState.fludeesOf { s with
      fludees := fun x =>
        if x ∈ gone then (s.fludees x).map fun fludees => fludees.filter (· ≠ t) else s.fludees x
      target := target' } y =
    if y ∈ gone then (s.fludeesOf y).filter (· ≠ t) else s.fludeesOf y := by
  by_cases member : y ∈ gone
  · cases there : s.fludees y <;> simp [FludState.fludeesOf, member, there]
  · simp [FludState.fludeesOf, member]

/-- The senders that the targets have records of after one target has changed. -/
theorem fludersOf_update (s : FludState) (t : Target) (new : Option FludTarget)
    {fludees' : ClientId → Option (List Target)} :
    FludState.fludersOf { s with
      fludees := fludees'
      target := Function.update s.target t new } =
    Function.update s.fludersOf t ((new.map fun target => target.fluders.map Fludbot.fluder).getD []) := by
  funext other
  unfold FludState.fludersOf
  by_cases same : other = t
  · subst same
    simp
  · simp [same]

/-- **The records of a target are freed.** -/
theorem free_fluders (linked : Linked s) (known : s.remote t = false → s.target t ≠ none) :
    ∃ s', free_fluders t s = some s' ∧ Linked s' ∧ s'.target = Function.update s.target t none ∧
      ∀ y, s.fludees y ≠ none → s'.fludees y ≠ none := by
  unfold Flud.free_fluders
  cases remote : s.remote t with
  | true =>
    refine ⟨s, rfl, linked, ?_, fun _ there => there⟩
    rw [← linked.remote t remote, Function.update_eq_self]
  | false =>
    obtain ⟨target, found⟩ := Option.ne_none_iff_exists'.mp (known remote)
    have dropped := remove_fludee_references t (target.fluders.map Fludbot.fluder) s fun y member =>
      linked.fludees_ne_none (t := t) (by rwa [fludersOf_eq found])
    simp only [Bool.false_eq_true, if_false, found, dropped, Option.bind_eq_bind, Option.bind_some]
    refine ⟨_, rfl, ⟨?_, fun other away => ?_⟩, rfl, fun y there => ?_⟩
    · rw [fludersOf_update]
      refine linked.both.drop (List.nil_sublist _) fun y => ?_
      rw [fludeesOf_dropped, fludersOf_eq found]
      simp
    · show Function.update s.target t none other = none
      by_cases same : other = t
      · simp [same]
      · rw [Function.update_of_ne same]
        exact linked.remote other away
    · simp only
      split
      · simpa using there
      · exact there

/-- **The list of a client is freed**, and the targets lose their records of it. -/
theorem free_fludees (linked : Linked s) (known : s.fludees x ≠ none) :
    ∃ s', free_fludees x s = some s' ∧ Linked s' ∧ ∀ t, s'.target t = (s.target t).map fun target =>
      { target with fluders := target.fluders.filter (·.fluder ≠ x) } := by
  obtain ⟨fludees, found⟩ := Option.ne_none_iff_exists'.mp known
  have list : s.fludeesOf x = fludees := by simp [FludState.fludeesOf, found]
  have dropped := remove_fluder_references x fludees s fun t member =>
    linked.target_ne_none (x := x) (by rwa [list])
  unfold Flud.free_fludees
  simp only [found, dropped, Option.bind_eq_bind, Option.bind_some]
  refine ⟨_, rfl, ⟨?_, fun t away => ?_⟩, fun t => ?_⟩
  · have left : ∀ y, FludState.fludeesOf { s with
        fludees := Function.update s.fludees x none
        target := fun t => if t ∈ fludees then (s.target t).map fun target =>
          { target with fluders := target.fluders.filter (·.fluder ≠ x) } else s.target t } y =
        Function.update s.fludeesOf x [] y := by
      intro y
      unfold FludState.fludeesOf
      by_cases same : y = x
      · subst same
        simp
      · simp [same]
    rw [funext left]
    refine (linked.both.symm.drop (List.nil_sublist _) fun t => ?_).symm
    rw [list]
    unfold FludState.fludersOf
    by_cases member : t ∈ fludees
    · cases known : s.target t <;> simp [member, known, List.filter_map, Function.comp_def]
    · simp [member]
  · have gone := linked.remote t away
    simp [gone]
  · dsimp only
    split
    · rfl
    · rename_i stranger
      cases found : s.target t with
      | none => rfl
      | some target =>
        have none_ : x ∉ s.fludersOf t := by
          rw [← linked.both.mem_iff, list]
          exact stranger
        rw [fludersOf_eq found, List.mem_map] at none_
        have all : target.fluders.filter (·.fluder ≠ x) = target.fluders :=
          List.filter_eq_self.mpr fun r member =>
            decide_eq_true fun same => none_ ⟨r, member, same⟩
        rw [Option.map_some, all]

theorem collected_sublist (opts : FludOptions) (now : Int) (target : FludTarget) :
    (target.collected opts now).Sublist target.fluders := by
  unfold FludTarget.collected
  split
  · exact List.Sublist.refl _
  · exact List.filter_sublist

/-- Of records of different senders, those not kept are of the senders that are not kept. -/
theorem mem_stale {fluders : List Fludbot} (once : (fluders.map Fludbot.fluder).Nodup)
    (stale : Fludbot → Bool) (y : ClientId) :
    y ∈ (fluders.filter stale).map Fludbot.fluder ↔
      y ∈ fluders.map Fludbot.fluder ∧ y ∉ (fluders.filter (!stale ·)).map Fludbot.fluder := by
  have alone : ∀ r ∈ fluders, ∀ r' ∈ fluders, r.fluder = r'.fluder → r = r' := fun r here r' there same =>
    List.inj_on_of_nodup_map once here there same
  simp only [List.mem_map, List.mem_filter, Bool.not_eq_true']
  constructor
  · rintro ⟨r, ⟨here, old⟩, rfl⟩
    refine ⟨⟨r, here, rfl⟩, ?_⟩
    rintro ⟨r', ⟨there, fresh⟩, same⟩
    rw [alone r' there r here same, old] at fresh
    exact Bool.noConfusion fresh
  · rintro ⟨⟨r, here, rfl⟩, none_⟩
    refine ⟨r, ⟨here, ?_⟩, rfl⟩
    cases old : stale r with
    | true => rfl
    | false => exact absurd ⟨r, ⟨here, old⟩, rfl⟩ none_

/-- **The garbage is collected on both sides.** -/
theorem collect (linked : Linked s) (opts : FludOptions) (now : Int) (found : s.target t = some target) :
    ∃ fludees', collect opts t now target s = some { s with fludees := fludees' } ∧
      (∀ y, s.fludees y ≠ none → fludees' y ≠ none) ∧
      Lib.Incident (FludState.fludeesOf { s with fludees := fludees' })
        (Function.update s.fludersOf t ((target.collected opts now).map Fludbot.fluder)) := by
  have names := fludersOf_eq found
  have sub : ((target.collected opts now).map Fludbot.fluder).Sublist (s.fludersOf t) := by
    rw [names]
    exact (collected_sublist opts now target).map _
  unfold Flud.collect
  by_cases blocking : target.blocking opts now = true
  · rw [if_pos blocking]
    refine ⟨s.fludees, rfl, fun _ there => there, linked.both.drop sub fun y => ?_⟩
    simp [names, FludTarget.collected, blocking]
  · rw [if_neg blocking]
    have once := linked.both.right_nodup t
    rw [names] at once
    have gone := mem_stale once (FludTarget.stale opts now)
    have dropped := remove_fludee_references t
      ((target.fluders.filter (FludTarget.stale opts now)).map Fludbot.fluder) s fun y member =>
      linked.fludees_ne_none (t := t) (by rw [names]; exact ((gone y).mp member).1)
    refine ⟨_, dropped, fun y there => ?_, linked.both.drop sub fun y => ?_⟩
    · by_cases member : y ∈ (target.fluders.filter (FludTarget.stale opts now)).map Fludbot.fluder
      · simpa only [if_pos member, ne_eq, Option.map_eq_none_iff] using there
      · simpa only [if_neg member] using there
    · rw [fludeesOf_dropped, names]
      simp only [gone, FludTarget.collected, if_neg blocking]

theorem any_fluder (fluders : List Fludbot) (x : ClientId) :
    fluders.any (·.fluder = x) = decide (x ∈ fluders.map Fludbot.fluder) := by
  rw [Bool.eq_iff_iff]
  simp

theorem heard_names (opts : FludOptions) (now : Int) (target : FludTarget) (fluder : ClientId) :
    (target.heard opts now fluder).1.fluders.map Fludbot.fluder =
      if fluder ∈ (target.collected opts now).map Fludbot.fluder then
        (target.collected opts now).map Fludbot.fluder
      else fluder :: (target.collected opts now).map Fludbot.fluder := by
  have same : Fludbot.fluder ∘ FludTarget.noted now fluder = Fludbot.fluder := by
    funext r
    simp only [Function.comp_apply, FludTarget.noted]
    split <;> rfl
  unfold FludTarget.heard
  rw [any_fluder]
  by_cases found : fluder ∈ (target.collected opts now).map Fludbot.fluder
  · simp only [found, decide_true, if_true, List.map_map, same]
  · simp only [found, decide_false, Bool.false_eq_true, if_false, List.map_cons, List.map_map, same]

/-- **A message is checked**: what becomes of the target is `heard`, and the two sides stay together. -/
theorem check_for_flud_eq (linked : Linked s) (opts : FludOptions) (on : opts.FLUDBLOCK ≠ 0) (now : Int)
    (sender : s.fludees x ≠ none) (found : s.target t = some target) :
    ∃ fludees', Flud.check_for_flud opts x t now s = some ({ s with
        fludees := fludees'
        target := Function.update s.target t (some (target.heard opts now x).1) },
          (target.heard opts now x).2) ∧
      (∀ y, s.fludees y ≠ none → fludees' y ≠ none) ∧
      Linked { s with
        fludees := fludees'
        target := Function.update s.target t (some (target.heard opts now x).1) } := by
  have near : s.remote t = false := by
    cases far : s.remote t with
    | false => rfl
    | true =>
      rw [linked.remote t far] at found
      cases found
  obtain ⟨fludees', collected, there, both⟩ := linked.collect opts now found
  have names := heard_names opts now target x
  have away : ∀ other, s.remote other = true →
      Function.update s.target t (some (target.heard opts now x).1) other = none := by
    intro other far
    by_cases same : other = t
    · rw [same, near] at far
      exact Bool.noConfusion far
    · rw [Function.update_of_ne same]
      exact linked.remote other far
  unfold Flud.check_for_flud
  simp only [if_neg on, near, Bool.false_eq_true, if_false, found, collected, any_fluder,
    Option.bind_eq_bind, Option.bind_some]
  by_cases member : x ∈ (target.collected opts now).map Fludbot.fluder
  · rw [if_pos member] at names
    simp only [member, decide_true, if_true]
    refine ⟨fludees', rfl, there, ?_, away⟩
    rw [fludersOf_update, Option.map_some, Option.getD_some, names]
    exact both
  · rw [if_neg member] at names
    obtain ⟨mine, list⟩ := Option.ne_none_iff_exists'.mp (there x sender)
    simp only [member, decide_false, Bool.false_eq_true, if_false, list, Option.map_some,
      Option.bind_some]
    have fresh : t ∉ FludState.fludeesOf { s with fludees := fludees' } x := by
      rw [both.mem_iff, Function.update_self]
      exact member
    have linked' := both.link fresh
    have left : Function.update (FludState.fludeesOf { s with fludees := fludees' }) x
        (t :: FludState.fludeesOf { s with fludees := fludees' } x) =
        FludState.fludeesOf { s with
          fludees := Function.update fludees' x (some (t :: mine))
          target := Function.update s.target t (some (target.heard opts now x).1) } := by
      funext y
      by_cases same : y = x
      · subst same
        simp [FludState.fludeesOf, list]
      · simp [FludState.fludeesOf, same]
    rw [Function.update_idem, Function.update_self, left] at linked'
    refine ⟨Function.update fludees' x (some (t :: mine)), rfl, fun y known => ?_, ?_, away⟩
    · by_cases same : y = x
      · simp [same]
      · rw [Function.update_of_ne same]
        exact there y known
    · rw [fludersOf_update, Option.map_some, Option.getD_some, names]
      exact linked'

theorem check_for_flud (linked : Linked s) (opts : FludOptions) (now : Int)
    (sender : s.fludees x ≠ none) (known : s.remote t = false → s.target t ≠ none) :
    ∃ s' blocked, check_for_flud opts x t now s = some (s', blocked) ∧ Linked s' := by
  by_cases off : opts.FLUDBLOCK = 0
  · exact ⟨s, false, if_pos off, linked⟩
  cases remote : s.remote t with
  | true => exact ⟨s, false, (if_neg off).trans (if_pos remote), linked⟩
  | false =>
    obtain ⟨target, found⟩ := Option.ne_none_iff_exists'.mp (known remote)
    obtain ⟨fludees', checked, _, linked'⟩ := linked.check_for_flud_eq opts off now sender found
    exact ⟨_, _, checked, linked'⟩

end Linked

/-! ### All runs -/

theorem make_client_linked {s : FludState} (linked : Linked s) {cptr : ClientId}
    (new : s.fludees cptr = none ∧ s.target (.client cptr) = none) (MyConnect : Bool) :
    Linked (make_client cptr MyConnect s) := by
  have left : (make_client cptr MyConnect s).fludeesOf = s.fludeesOf := by
    funext y
    by_cases same : y = cptr
    · subst same
      simp [FludState.fludeesOf, make_client, new.1]
    · simp [FludState.fludeesOf, make_client, same]
  have right : (make_client cptr MyConnect s).fludersOf = s.fludersOf := by
    funext t
    by_cases same : t = .client cptr
    · subst same
      cases MyConnect <;> simp [FludState.fludersOf, make_client, new.2]
    · simp [FludState.fludersOf, make_client, same]
  refine ⟨by rw [left, right]; exact linked.both, fun t far => ?_⟩
  by_cases same : t = .client cptr
  · subst same
    cases MyConnect with
    | true => simp [FludState.remote, make_client] at far
    | false => simp [make_client]
  · have before : s.remote t = true := by
      cases t with
      | channel chptr => exact far
      | client other =>
        have apart : other ≠ cptr := fun eq => same (congrArg Target.client eq)
        simpa [FludState.remote, make_client, apart] using far
    simpa [make_client, same] using linked.remote t before

theorem make_channel_linked {s : FludState} (linked : Linked s) {chptr : ChannelId}
    (new : s.target (.channel chptr) = none) : Linked (make_channel chptr s) := by
  have right : (make_channel chptr s).fludersOf = s.fludersOf := by
    funext t
    by_cases same : t = .channel chptr
    · subst same
      simp [FludState.fludersOf, make_channel, new]
    · simp [FludState.fludersOf, make_channel, same]
  refine ⟨by rw [right]; exact linked.both, fun t far => ?_⟩
  have apart : t ≠ .channel chptr := by
    rintro rfl
    exact Bool.noConfusion far
  simpa [make_channel, apart] using linked.remote t far

/-- **A client that exits is on no list.** -/
theorem release_client_state_linked {s : FludState} (linked : Linked s) {cptr : ClientId}
    (there : s.fludees cptr ≠ none)
    (known : s.MyConnect cptr = true → s.target (.client cptr) ≠ none) :
    ∃ s', release_client_state cptr s = some s' ∧ Linked s' := by
  unfold release_client_state
  cases here : s.MyConnect cptr with
  | false =>
    simp only [Bool.false_eq_true, if_false, Option.bind_eq_bind, Option.bind_some]
    obtain ⟨s', freed, linked', -⟩ := linked.free_fludees there
    exact ⟨s', freed, linked'⟩
  | true =>
    obtain ⟨s', freed, linked', _, still⟩ := linked.free_fluders (t := .client cptr) fun _ => known here
    simp only [if_true, freed, Option.bind_eq_bind, Option.bind_some]
    obtain ⟨s'', freed', linked'', -⟩ := linked'.free_fludees (still cptr there)
    exact ⟨s'', freed', linked''⟩

/-- **A channel that is freed is on no list.** -/
theorem sub1_from_channel_linked {s : FludState} (linked : Linked s) (RestrictedChans : Bool)
    {chptr : ChannelId} (known : s.target (.channel chptr) ≠ none) :
    ∃ s', sub1_from_channel RestrictedChans chptr s = some s' ∧ Linked s' := by
  unfold sub1_from_channel
  simp only
  split
  · split
    · exact ⟨_, rfl, linked.both, linked.remote⟩
    · have linked' : Linked { s with users := Function.update s.users chptr 0 } :=
        ⟨linked.both, linked.remote⟩
      obtain ⟨s', freed, after, _⟩ := linked'.free_fluders (t := .channel chptr) fun _ => known
      exact ⟨s', freed, after⟩
  · exact ⟨_, rfl, linked.both, linked.remote⟩

/-- **No possible event uses what is freed**, and each keeps the two sides together. -/
theorem Linked.step {s : FludState} (linked : Linked s) {e : Event} (possible : e.Possible s) :
    ∃ s', step s e = some s' ∧ Linked s' := by
  cases e with
  | make_client cptr MyConnect => exact ⟨_, rfl, make_client_linked linked possible MyConnect⟩
  | make_channel chptr => exact ⟨_, rfl, make_channel_linked linked possible⟩
  | channel_changes chptr users mode => exact ⟨_, rfl, linked.both, linked.remote⟩
  | check_for_flud opts fluder t now =>
    obtain ⟨s', blocked, checked, linked'⟩ := linked.check_for_flud opts now possible.1 possible.2
    exact ⟨s', by simp [Flud.step, checked], linked'⟩
  | free_fluders t =>
    obtain ⟨s', freed, linked', _⟩ := linked.free_fluders possible
    exact ⟨s', freed, linked'⟩
  | free_fludees cptr =>
    obtain ⟨s', freed, linked', -⟩ := linked.free_fludees possible
    exact ⟨s', freed, linked'⟩
  | client_exits cptr => exact release_client_state_linked linked possible.1 possible.2
  | sub1_from_channel RestrictedChans chptr =>
    exact sub1_from_channel_linked linked RestrictedChans possible

theorem Reachable.linked {s : FludState} (reach : Reachable s) : Linked s := by
  induction reach with
  | initial => exact initial_linked
  | @step s s' e _ possible done ih =>
    obtain ⟨s'', done', linked⟩ := ih.step possible
    rw [done'] at done
    cases done
    exact linked

/-- **The links of the flood records.** In every state that events can lead to: a client that is there
has a target on its list exactly when the target is there and has a record of the client, neither list
repeats one, and every further event has its result. -/
theorem flud_links {s : FludState} (reach : Reachable s) :
    (∀ x t, (∃ fludees, s.fludees x = some fludees ∧ t ∈ fludees) ↔
      ∃ target, s.target t = some target ∧ ∃ current ∈ target.fluders, current.fluder = x) ∧
    (∀ x fludees, s.fludees x = some fludees → fludees.Nodup) ∧
    (∀ t target, s.target t = some target → (target.fluders.map Fludbot.fluder).Nodup) ∧
    ∀ e : Event, e.Possible s → ∃ s', step s e = some s' := by
  have linked := reach.linked
  refine ⟨fun x t => ?_, fun x fludees found => ?_, fun t target found => ?_, fun e possible => ?_⟩
  · have sides := linked.both.mem_iff x t
    unfold FludState.fludeesOf FludState.fludersOf at sides
    cases hleft : s.fludees x <;> cases hright : s.target t <;>
      simp_all
  · have once := linked.both.left_nodup x
    simpa [FludState.fludeesOf, found] using once
  · have once := linked.both.right_nodup t
    simpa [FludState.fludersOf, found] using once
  · obtain ⟨s', done, _⟩ := linked.step possible
    exact ⟨s', done⟩

/-- Two local clients; the second has sent a message to the first. -/
def sampleFlud : FludState :=
  let opts : FludOptions := ⟨10, 10, 20, by decide, by decide, by decide⟩
  let clients := make_client 2 true (make_client 1 true initial)
  ((check_for_flud opts 2 (.client 1) 1000 clients).getD (clients, false)).1

theorem flud_links_sample :
    (∃ fludees, sampleFlud.fludees 2 = some fludees ∧ Target.client 1 ∈ fludees) ↔
      ∃ target, sampleFlud.target (.client 1) = some target ∧
        ∃ current ∈ target.fluders, current.fluder = 2 := by
  have first : Reachable (make_client 1 true initial) :=
    .step (e := .make_client 1 true) .initial ⟨rfl, rfl⟩ rfl
  have second : Reachable (make_client 2 true (make_client 1 true initial)) :=
    .step (e := .make_client 2 true) first ⟨rfl, rfl⟩ rfl
  have sent : Reachable sampleFlud :=
    .step (e := .check_for_flud ⟨10, 10, 20, by decide, by decide, by decide⟩ 2 (.client 1) 1000) second
      ⟨by decide, fun _ => Option.some_ne_none _⟩ rfl
  exact (flud_links sent).1 2 (.client 1)

end Flud

end PtlinkIrcd
