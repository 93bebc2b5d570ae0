/-
**How many messages flood protection counts.**

`check_for_flud` is to block a target when more than `FLUDNUM` messages reach it within `FLUDTIME`
seconds. It keeps, for each sender, one count and the time of the first message since the sender was
forgotten last, and a sender whose first message is older than the window counts once; a sender that
exits is forgotten.

* `Watched` — what happens while a target is there: messages to it, and any other events.
* `Recorded` — the invariant: what the records say about the messages of those that are still there.
* `Linked.step_target` — what the other events do to the records.
* `Spared` — at most `FLUDNUM` messages in the window, or more than that even when those of who has left
  do not count, and those of each sender with an older record count once.
* `check_for_flud_blocks_iff` — **when an excess message is blocked**; a blocked target is free again
  `FLUDBLOCK` seconds after the last one. `not_check_for_flud_blocks` — it is not always blocked.
-/

import Mathlib.Algebra.BigOperators.Group.List.Basic
import Mathlib.Data.List.Dedup
import Mathlib.Data.List.Induction
import PtlinkIrcd.Client.Flud

namespace PtlinkIrcd

namespace Flud

/-! ### What happens -/

/-- A message with a CTCP request. -/
structure Message where
  fluder : ClientId
  time : Int

/-- A message to the target, or anything else. -/
inductive Occurrence
  | ctcp (m : Message)
  | other (e : Event)

def Event.departing : Event → Option ClientId
  | .free_fludees x => some x
  | .client_exits x => some x
  | _ => none

def ctcps (os : List Occurrence) : List Message :=
  os.filterMap fun o =>
    match o with
    | .ctcp m => some m
    | .other _ => none

/-- The messages of those that are still there. -/
def remember (msgs : List Message) : Occurrence → List Message
  | .ctcp m => msgs ++ [m]
  | .other e =>
    match e.departing with
    | some x => msgs.filter (·.fluder ≠ x)
    | none => msgs

def remembered (os : List Occurrence) : List Message := os.foldl remember []

/-- What happens while the target is there: messages to it, none earlier than one before, from senders
that are there, and any other events. `last` is the time of the last message that was blocked. -/
inductive Watched (opts : FludOptions) (t : Target) (s : FludState) :
    List Occurrence → FludState → Option Int → Prop
  | start : Watched opts t s [] s none
  | ctcp {os : List Occurrence} {r r' : FludState} {last : Option Int} {m : Message} {blocked : Bool} :
      Watched opts t s os r last → r.fludees m.fluder ≠ none → (∀ n ∈ ctcps os, n.time ≤ m.time) →
      check_for_flud opts m.fluder t m.time r = some (r', blocked) →
      Watched opts t s (os ++ [.ctcp m]) r' (if blocked then some m.time else last)
  | other {os : List Occurrence} {r r' : FludState} {last : Option Int} {e : Event} :
      Watched opts t s os r last → e.Possible r →
      (∀ opts' x now, e ≠ .check_for_flud opts' x t now) → step r e = some r' →
      r'.target t ≠ none → Watched opts t s (os ++ [.other e]) r' last

/-- The messages of the last `FLUDTIME` seconds. -/
def inWindow (opts : FludOptions) (now : Int) (msgs : List Message) : List Message :=
  msgs.filter fun m => now - opts.FLUDTIME ≤ m.time

/-- Whether the target has a record of a sender that begins before the window and reaches into it. -/
def FludTarget.older (opts : FludOptions) (now : Int) (target : FludTarget) (x : ClientId) : Bool :=
  target.fluders.any fun current => current.fluder = x ∧ current.first_msg < now - opts.FLUDTIME ∧
    now - opts.FLUDTIME ≤ current.last_msg

/-- How many messages of a sender count: one if its record is older, else all. -/
def FludTarget.weight (opts : FludOptions) (now : Int) (target : FludTarget) (window : List Message)
    (x : ClientId) : Nat :=
  if target.older opts now x then 1 else (window.filter (·.fluder = x)).length

def FludTarget.counted (opts : FludOptions) (now : Int) (target : FludTarget) (window : List Message) :
    Nat :=
  ((window.map Message.fluder).dedup.map (target.weight opts now window)).sum

/-- The target is blocked, or the messages in the window are not too many, or enough of those count that
are of somebody who is still there. -/
def Spared (opts : FludOptions) (now : Int) (target : FludTarget) (msgs present : List Message) : Prop :=
  target.blocking opts now = true ∨ (inWindow opts now msgs).length ≤ opts.FLUDNUM ∨
    opts.FLUDNUM < target.counted opts now (inWindow opts now present)

/-! ### What the records say -/

/-- How many messages of a sender there are from a time on. -/
def sent (msgs : List Message) (x : ClientId) (since : Int) : Nat :=
  msgs.countP fun m => m.fluder = x ∧ since ≤ m.time

/-- The records are of different senders; a record has the time of its sender's last message, and the
number of those since its own first one; a sender without one has sent nothing lately. -/
structure Recorded (opts : FludOptions) (msgs : List Message) (now : Int) (fluders : List Fludbot) :
    Prop where
  names : (fluders.map Fludbot.fluder).Nodup
  ordered : ∀ r ∈ fluders, r.first_msg ≤ r.last_msg
  reached : ∀ r ∈ fluders, ∃ m ∈ msgs, m.fluder = r.fluder ∧ m.time = r.last_msg
  last : ∀ r ∈ fluders, ∀ m ∈ msgs, m.fluder = r.fluder → m.time ≤ r.last_msg
  count : ∀ r ∈ fluders, ∀ since, now - opts.FLUDTIME ≤ since → since ≤ r.first_msg →
    sent msgs r.fluder since = r.count
  absent : ∀ x ∉ fluders.map Fludbot.fluder, ∀ since, now - opts.FLUDTIME ≤ since →
    sent msgs x since = 0

namespace Recorded

variable {opts : FludOptions} {msgs : List Message} {now later : Int} {fluders : List Fludbot}
  {target : FludTarget}

theorem nil (opts : FludOptions) (now : Int) : Recorded opts [] now [] where
  names := List.nodup_nil
  ordered r member := by cases member
  reached r member := by cases member
  last r member := by cases member
  count r member := by cases member
  absent x _ since _ := rfl

theorem mono (rec : Recorded opts msgs now fluders) (after : now ≤ later) :
    Recorded opts msgs later fluders where
  names := rec.names
  ordered := rec.ordered
  reached := rec.reached
  last := rec.last
  count r member since inside := rec.count r member since (by omega)
  absent x none_ since inside := rec.absent x none_ since (by omega)

/-- **The garbage is collected.** -/
theorem collected (rec : Recorded opts msgs now target.fluders) :
    Recorded opts msgs now (target.collected opts now) := by
  unfold FludTarget.collected
  split
  · exact rec
  · have within : ∀ r ∈ target.fluders.filter (!FludTarget.stale opts now ·), r ∈ target.fluders :=
      fun r member => (List.mem_filter.mp member).1
    refine ⟨rec.names.sublist (List.filter_sublist.map _), fun r member => rec.ordered r (within r member),
      fun r member => rec.reached r (within r member), fun r member => rec.last r (within r member),
      fun r member => rec.count r (within r member), fun x none_ since inside => ?_⟩
    by_cases known : x ∈ target.fluders.map Fludbot.fluder
    · obtain ⟨r, member, rfl⟩ := List.mem_map.mp known
      have old : FludTarget.stale opts now r = true := by
        cases stale : FludTarget.stale opts now r with
        | true => rfl
        | false =>
          exact absurd (List.mem_map_of_mem (List.mem_filter.mpr ⟨member, by simp [stale]⟩)) none_
      rw [FludTarget.stale, decide_eq_true_eq] at old
      refine List.countP_eq_zero.mpr fun m inMsgs both => ?_
      obtain ⟨same, recent⟩ := of_decide_eq_true both
      have early := rec.last r member m inMsgs same
      omega
    · exact rec.absent x known since inside

/-- **A sender is forgotten.** -/
theorem forgotten (rec : Recorded opts msgs now fluders) (x : ClientId) :
    Recorded opts (msgs.filter (·.fluder ≠ x)) now (fluders.filter (·.fluder ≠ x)) := by
  have within : ∀ r ∈ fluders.filter (·.fluder ≠ x), r ∈ fluders ∧ r.fluder ≠ x := fun r member =>
    (List.mem_filter.mp member).imp_right of_decide_eq_true
  have same : ∀ y ≠ x, ∀ since, sent (msgs.filter (·.fluder ≠ x)) y since = sent msgs y since := by
    intro y apart since
    unfold sent
    rw [List.countP_filter]
    refine List.countP_congr fun m _ => ?_
    simp only [Bool.and_eq_true, decide_eq_true_eq]
    exact ⟨And.left, fun mine => ⟨mine, mine.1 ▸ apart⟩⟩
  refine ⟨rec.names.sublist (List.filter_sublist.map _), fun r member => rec.ordered r (within r member).1,
    fun r member => ?_, fun r member m inMsgs => rec.last r (within r member).1 m (List.mem_of_mem_filter inMsgs),
    fun r member since inside first => ?_, fun y none_ since inside => ?_⟩
  · obtain ⟨there, apart⟩ := within r member
    obtain ⟨m, inMsgs, mine, at_⟩ := rec.reached r there
    exact ⟨m, List.mem_filter.mpr ⟨inMsgs, decide_eq_true (mine ▸ apart)⟩, mine, at_⟩
  · obtain ⟨there, apart⟩ := within r member
    rw [same _ apart]
    exact rec.count r there since inside first
  · by_cases gone : y = x
    · subst gone
      refine List.countP_eq_zero.mpr fun m inMsgs both => ?_
      exact absurd (of_decide_eq_true both).1 (of_decide_eq_true (List.mem_filter.mp inMsgs).2)
    · rw [same y gone]
      refine rec.absent y (fun known => none_ ?_) since inside
      obtain ⟨r, there, rfl⟩ := List.mem_map.mp known
      exact List.mem_map_of_mem (List.mem_filter.mpr ⟨there, decide_eq_true gone⟩)

theorem sent_append (msgs : List Message) (m : Message) (x : ClientId) (since : Int) :
    sent (msgs ++ [m]) x since =
      sent msgs x since + if m.fluder = x ∧ since ≤ m.time then 1 else 0 := by
  unfold sent
  rw [List.countP_append, List.countP_singleton]
  simp

theorem noted_names (fluders : List Fludbot) (x : ClientId) :
    (fluders.map (FludTarget.noted now x)).map Fludbot.fluder = fluders.map Fludbot.fluder := by
  rw [List.map_map]
  refine List.map_congr_left fun r _ => ?_
  simp only [Function.comp_apply, FludTarget.noted]
  split <;> rfl

/-- The records after a message, as `heard` has them. -/
def next (now : Int) (x : ClientId) (fluders : List Fludbot) : List Fludbot :=
  if fluders.any (·.fluder = x) then fluders.map (FludTarget.noted now x)
  else ⟨x, 1, now, now⟩ :: fluders.map (FludTarget.noted now x)

/-- A record after a message: the sender's, updated or new, or another as it was. -/
theorem mem_next {x : ClientId} {r : Fludbot} (member : r ∈ next now x fluders) :
    (∃ old ∈ fluders, old.fluder = x ∧ r = { old with last_msg := now, count := old.count + 1 }) ∨
      (x ∉ fluders.map Fludbot.fluder ∧ r = ⟨x, 1, now, now⟩) ∨ (r ∈ fluders ∧ r.fluder ≠ x) := by
  have mapped : r ∈ fluders.map (FludTarget.noted now x) →
      (∃ old ∈ fluders, old.fluder = x ∧ r = { old with last_msg := now, count := old.count + 1 }) ∨
        (r ∈ fluders ∧ r.fluder ≠ x) := by
    intro member
    obtain ⟨old, there, rfl⟩ := List.mem_map.mp member
    unfold FludTarget.noted
    split
    · next same => exact .inl ⟨old, there, same, rfl⟩
    · next apart => exact .inr ⟨there, apart⟩
  unfold next at member
  rw [Linked.any_fluder] at member
  by_cases known : x ∈ fluders.map Fludbot.fluder
  · simp only [known, decide_true, if_true] at member
    rcases mapped member with mine | other
    · exact .inl mine
    · exact .inr (.inr other)
  · simp only [known, decide_false, Bool.false_eq_true, if_false] at member
    rcases List.mem_cons.mp member with rfl | member
    · exact .inr (.inl ⟨known, rfl⟩)
    · rcases mapped member with mine | other
      · exact .inl mine
      · exact .inr (.inr other)

theorem next_names (now : Int) (x : ClientId) (fluders : List Fludbot) :
    (next now x fluders).map Fludbot.fluder =
      if x ∈ fluders.map Fludbot.fluder then fluders.map Fludbot.fluder
      else x :: fluders.map Fludbot.fluder := by
  unfold next
  rw [Linked.any_fluder]
  by_cases known : x ∈ fluders.map Fludbot.fluder
  · simp only [known, decide_true, if_true, noted_names]
  · simp only [known, decide_false, Bool.false_eq_true, if_false, List.map_cons, noted_names]

/-- **A message is recorded.** -/
theorem recorded_next (rec : Recorded opts msgs now fluders) (past : ∀ n ∈ msgs, n.time ≤ now)
    (x : ClientId) : Recorded opts (msgs ++ [⟨x, now⟩]) now (next now x fluders) := by
  have time := opts.time_pos
  have own : (⟨x, now⟩ : Message) ∈ msgs ++ [⟨x, now⟩] := by simp
  have early : ∀ m ∈ msgs ++ [⟨x, now⟩], m.time ≤ now := by
    intro m member
    rcases List.mem_append.mp member with old | new
    · exact past m old
    · rw [List.mem_singleton.mp new]
  refine ⟨?_, fun r member => ?_, fun r member => ?_, fun r member m inMsgs same => ?_,
    fun r member since inside first => ?_, fun y none_ since inside => ?_⟩
  · rw [next_names]
    split
    · exact rec.names
    · next new => exact List.nodup_cons.mpr ⟨new, rec.names⟩
  · rcases mem_next member with ⟨old, there, rfl, rfl⟩ | ⟨_, rfl⟩ | ⟨there, _⟩
    · obtain ⟨m, inMsgs, same, at_⟩ := rec.reached old there
      have before := past m inMsgs
      have span := rec.ordered old there
      show old.first_msg ≤ now
      omega
    · exact Int.le_refl now
    · exact rec.ordered r there
  · rcases mem_next member with ⟨old, there, rfl, rfl⟩ | ⟨_, rfl⟩ | ⟨there, _⟩
    · exact ⟨_, own, rfl, rfl⟩
    · exact ⟨_, own, rfl, rfl⟩
    · obtain ⟨m, inMsgs, same, at_⟩ := rec.reached r there
      exact ⟨m, List.mem_append_left _ inMsgs, same, at_⟩
  · rcases mem_next member with ⟨old, there, rfl, rfl⟩ | ⟨_, rfl⟩ | ⟨there, apart⟩
    · exact early m inMsgs
    · exact early m inMsgs
    · rcases List.mem_append.mp inMsgs with old | new
      · exact rec.last r there m old same
      · rw [List.mem_singleton.mp new] at same
        exact absurd same.symm apart
  · rw [sent_append]
    rcases mem_next member with ⟨old, there, rfl, rfl⟩ | ⟨new, rfl⟩ | ⟨there, apart⟩
    · obtain ⟨m, inMsgs, _, at_⟩ := rec.reached old there
      have before := past m inMsgs
      have span := rec.ordered old there
      have recent : since ≤ now := by
        have upto : since ≤ old.first_msg := first
        omega
      have counted := rec.count old there since inside first
      rw [if_pos ⟨rfl, recent⟩]
      exact congrArg (· + 1) counted
    · rw [rec.absent x new since inside, if_pos ⟨rfl, first⟩]
    · rw [rec.count r there since inside first, if_neg fun both => apart both.1.symm, Nat.add_zero]
  · rw [next_names] at none_
    have apart : y ≠ x ∧ y ∉ fluders.map Fludbot.fluder := by
      by_cases known : x ∈ fluders.map Fludbot.fluder
      · rw [if_pos known] at none_
        exact ⟨fun same => none_ (same ▸ known), none_⟩
      · rw [if_neg known, List.mem_cons, not_or] at none_
        exact none_
    rw [sent_append, rec.absent y apart.2 since inside, if_neg fun both => apart.1 both.1.symm]

/-- What is compared with `FLUDNUM`: the shares of the records afterwards. -/
theorem heard_blocked (opts : FludOptions) (now : Int) (target : FludTarget) (x : ClientId) :
    (target.heard opts now x).2 = (target.blocking opts now || decide (opts.FLUDNUM <
      (((next now x (target.collected opts now)).map (FludTarget.share opts now)).sum : Nat))) := by
  have time := opts.time_pos
  unfold FludTarget.heard next
  cases found : (target.collected opts now).any (·.fluder = x) with
  | true => simp
  | false =>
    have fresh : ¬ now < now - opts.FLUDTIME := by omega
    simp only [Bool.false_eq_true, if_false, List.map_cons, List.sum_cons, FludTarget.share,
      if_neg fresh, Nat.add_comm 1]

/-- **A message in the window is of a sender that has a record**, and the other way about. -/
theorem next_perm (rec : Recorded opts msgs now target.fluders) (past : ∀ n ∈ msgs, n.time ≤ now)
    (x : ClientId) (idle : target.blocking opts now = false) :
    ((next now x (target.collected opts now)).map Fludbot.fluder).Perm
      ((inWindow opts now (msgs ++ [⟨x, now⟩])).map Message.fluder).dedup := by
  have time := opts.time_pos
  have rec' := rec.collected.recorded_next past x
  refine (List.perm_ext_iff_of_nodup rec'.names (List.nodup_dedup _)).mpr fun y => ?_
  rw [List.mem_dedup]
  constructor
  · intro known
    obtain ⟨r, member, rfl⟩ := List.mem_map.mp known
    have recent : now - opts.FLUDTIME ≤ r.last_msg := by
      rcases mem_next member with ⟨old, _, _, rfl⟩ | ⟨_, rfl⟩ | ⟨there, _⟩
      · show now - opts.FLUDTIME ≤ now
        omega
      · show now - opts.FLUDTIME ≤ now
        omega
      · rw [FludTarget.collected, if_neg (by simp [idle]), List.mem_filter] at there
        simpa [FludTarget.stale] using there.2
    obtain ⟨m, inMsgs, same, at_⟩ := rec'.reached r member
    exact List.mem_map.mpr ⟨m, List.mem_filter.mpr ⟨inMsgs, by simpa [at_] using recent⟩, same⟩
  · intro member
    obtain ⟨m, inside, rfl⟩ := List.mem_map.mp member
    obtain ⟨inMsgs, recent⟩ := List.mem_filter.mp inside
    by_contra none_
    have nothing := List.countP_eq_zero.mp (rec'.absent m.fluder none_ _ (Int.le_refl _)) m inMsgs
    exact nothing (by simpa using recent)

/-- **The share of a record is the weight of its sender.** -/
theorem share_eq_weight (rec : Recorded opts msgs now target.fluders) (past : ∀ n ∈ msgs, n.time ≤ now)
    (x : ClientId) (idle : target.blocking opts now = false) {r : Fludbot}
    (member : r ∈ next now x (target.collected opts now)) :
    FludTarget.share opts now r =
      target.weight opts now (inWindow opts now (msgs ++ [⟨x, now⟩])) r.fluder := by
  have time := opts.time_pos
  have rec' := rec.collected.recorded_next past x
  have kept : ∀ old, old ∈ target.collected opts now ↔
      old ∈ target.fluders ∧ now - opts.FLUDTIME ≤ old.last_msg := by
    intro old
    rw [FludTarget.collected, if_neg (by simp [idle]), List.mem_filter]
    simp [FludTarget.stale]
  have alone : ∀ a ∈ target.collected opts now, ∀ b ∈ target.collected opts now,
      a.fluder = b.fluder → a = b := fun a first b second same =>
    List.inj_on_of_nodup_map rec.collected.names first second same
  have older : target.older opts now r.fluder = decide (r.first_msg < now - opts.FLUDTIME) := by
    rw [Bool.eq_iff_iff, decide_eq_true_eq, FludTarget.older, List.any_eq_true]
    simp only [decide_eq_true_eq]
    constructor
    · rintro ⟨old, there, same, early, recent⟩
      have old_kept := (kept old).mpr ⟨there, recent⟩
      rcases mem_next member with ⟨own, own_kept, rfl, rfl⟩ | ⟨new, rfl⟩ | ⟨r_kept, _⟩
      · rw [← alone old old_kept own own_kept same]
        exact early
      · exact absurd (List.mem_map.mpr ⟨old, old_kept, same⟩) new
      · rw [← alone old old_kept r r_kept same]
        exact early
    · intro early
      rcases mem_next member with ⟨own, own_kept, rfl, rfl⟩ | ⟨new, rfl⟩ | ⟨r_kept, _⟩
      · exact ⟨own, ((kept own).mp own_kept).1, rfl, early, ((kept own).mp own_kept).2⟩
      · have now_early : now < now - opts.FLUDTIME := early
        omega
      · exact ⟨r, ((kept r).mp r_kept).1, rfl, early, ((kept r).mp r_kept).2⟩
  unfold FludTarget.share FludTarget.weight
  rw [older]
  by_cases early : r.first_msg < now - opts.FLUDTIME
  · simp [early]
  · have counted := rec'.count r member (now - opts.FLUDTIME) (Int.le_refl _) (by omega)
    simp only [early, decide_false, Bool.false_eq_true, if_false]
    rw [← counted, sent, List.countP_eq_length_filter, inWindow, List.filter_filter]
    simp

/-- **What `check_for_flud` counts.** -/
theorem share_sum (rec : Recorded opts msgs now target.fluders) (past : ∀ n ∈ msgs, n.time ≤ now)
    (x : ClientId) (idle : target.blocking opts now = false) :
    ((next now x (target.collected opts now)).map (FludTarget.share opts now)).sum =
      target.counted opts now (inWindow opts now (msgs ++ [⟨x, now⟩])) := by
  have weights : (next now x (target.collected opts now)).map (FludTarget.share opts now) =
      ((next now x (target.collected opts now)).map Fludbot.fluder).map
        (target.weight opts now (inWindow opts now (msgs ++ [⟨x, now⟩]))) := by
    rw [List.map_map]
    exact List.map_congr_left fun r member => rec.share_eq_weight past x idle member
  rw [weights]
  exact ((rec.next_perm past x idle).map _).sum_eq

end Recorded

/-! ### What else happens -/

/-- The records of a target after an event. -/
def Event.forget (e : Event) (target : FludTarget) : FludTarget :=
  match e.departing with
  | some x => { target with fluders := target.fluders.filter (·.fluder ≠ x) }
  | none => target

/-- **An event that is no message to a target** lets it lose the records of who departs, if it is not freed
itself. -/
theorem Linked.step_target {s s' : FludState} (linked : Linked s) {e : Event} (possible : e.Possible s)
    {t : Target} (other : ∀ opts x now, e ≠ .check_for_flud opts x t now) (done : Flud.step s e = some s')
    {target : FludTarget} (found : s.target t = some target) :
    s'.target t = none ∨ s'.target t = some (e.forget target) := by
  have freed : ∀ {t'}, Function.update s.target t' none t = none ∨
      Function.update s.target t' none t = some target := by
    intro t'
    by_cases same : t = t'
    · exact .inl (by rw [same, Function.update_self])
    · exact .inr (by rw [Function.update_of_ne same, found])
  cases e with
  | make_client cptr MyConnect =>
    obtain rfl := Option.some.inj done
    have apart : t ≠ .client cptr := by
      rintro rfl
      rw [possible.2] at found
      cases found
    exact .inr ((Function.update_of_ne apart _ _).trans found)
  | make_channel chptr =>
    obtain rfl := Option.some.inj done
    have apart : t ≠ .channel chptr := by
      rintro rfl
      rw [show s.target (.channel chptr) = none from possible] at found
      cases found
    exact .inr ((Function.update_of_ne apart _ _).trans found)
  | channel_changes chptr users mode =>
    obtain rfl := Option.some.inj done
    exact .inr found
  | check_for_flud opts x t' now =>
    have apart : t ≠ t' := fun same => other opts x now (same ▸ rfl)
    obtain ⟨⟨s'', blocked⟩, checked, rfl⟩ := Option.map_eq_some_iff.mp done
    refine .inr ?_
    by_cases off : opts.FLUDBLOCK = 0
    · unfold Flud.check_for_flud at checked
      rw [if_pos off] at checked
      obtain ⟨rfl, -⟩ := Prod.mk.inj (Option.some.inj checked)
      exact found
    · cases remote : s.remote t' with
      | true =>
        unfold Flud.check_for_flud at checked
        rw [if_neg off, if_pos remote] at checked
        obtain ⟨rfl, -⟩ := Prod.mk.inj (Option.some.inj checked)
        exact found
      | false =>
        obtain ⟨target', found'⟩ := Option.ne_none_iff_exists'.mp (possible.2 remote)
        obtain ⟨fludees', checked', -, -⟩ := linked.check_for_flud_eq opts off now possible.1 found'
        rw [checked'] at checked
        obtain ⟨rfl, -⟩ := Prod.mk.inj (Option.some.inj checked)
        exact (Function.update_of_ne apart _ _).trans found
  | free_fluders t' =>
    obtain ⟨s'', done', -, after, -⟩ := linked.free_fluders possible
    obtain rfl := Option.some.inj (done'.symm.trans done)
    rw [after]
    exact freed
  | free_fludees x =>
    obtain ⟨s'', done', -, after⟩ := linked.free_fludees possible
    obtain rfl := Option.some.inj (done'.symm.trans done)
    rw [after, found]
    exact .inr rfl
  | client_exits x =>
    have done : release_client_state x s = some s' := done
    unfold release_client_state at done
    cases here : s.MyConnect x with
    | false =>
      obtain ⟨s'', done', -, after⟩ := linked.free_fludees possible.1
      rw [here, if_neg Bool.false_ne_true] at done
      obtain rfl := Option.some.inj (done'.symm.trans done)
      rw [after, found]
      exact .inr rfl
    | true =>
      obtain ⟨s₁, done₁, linked₁, after₁, still⟩ :=
        linked.free_fluders (t := .client x) fun _ => possible.2 here
      obtain ⟨s'', done', -, after⟩ := linked₁.free_fludees (still x possible.1)
      rw [here, if_pos rfl, done₁] at done
      obtain rfl := Option.some.inj (done'.symm.trans done)
      rw [after, after₁]
      rcases @freed (.client x) with gone | kept
      · exact .inl (by rw [gone]; rfl)
      · exact .inr (by rw [kept]; rfl)
  | sub1_from_channel RestrictedChans chptr =>
    have done : sub1_from_channel RestrictedChans chptr s = some s' := done
    unfold sub1_from_channel at done
    dsimp only at done
    split at done
    · split at done
      · obtain rfl := Option.some.inj done
        exact .inr found
      · have linked' : Linked { s with users := Function.update s.users chptr 0 } :=
          ⟨linked.both, linked.remote⟩
        obtain ⟨s'', done', -, after, -⟩ := linked'.free_fluders (t := .channel chptr) fun _ => possible
        obtain rfl := Option.some.inj (done'.symm.trans done)
        rw [after]
        exact freed
    · obtain rfl := Option.some.inj done
      exact .inr found

/-! ### All sequences -/

theorem ctcps_append (os : List Occurrence) (m : Message) :
    ctcps (os ++ [.ctcp m]) = ctcps os ++ [m] := List.filterMap_append ..

theorem ctcps_other (os : List Occurrence) (e : Event) : ctcps (os ++ [.other e]) = ctcps os :=
  (List.filterMap_append ..).trans (List.append_nil _)

theorem remembered_append (os : List Occurrence) (o : Occurrence) :
    remembered (os ++ [o]) = remember (remembered os) o := List.foldl_append ..

theorem mem_ctcps_of_remembered {os : List Occurrence} {m : Message} (member : m ∈ remembered os) :
    m ∈ ctcps os := by
  induction os using List.reverseRecOn with
  | nil => exact member
  | append_singleton os o ih =>
    rw [remembered_append] at member
    cases o with
    | ctcp n =>
      rw [ctcps_append]
      exact (List.mem_append.mp member).elim (fun old => List.mem_append_left _ (ih old))
        fun new => List.mem_append_right _ new
    | other e =>
      rw [ctcps_other]
      unfold remember at member
      dsimp only at member
      split at member
      · exact ih (List.mem_of_mem_filter member)
      · exact ih member

/-- The state after what has happened: the target's records say what they should, and it is blocked since
the last message that was. -/
structure Told (opts : FludOptions) (t : Target) (os : List Occurrence) (now : Int) (r : FludState)
    (last : Option Int) (target : FludTarget) : Prop where
  linked : Linked r
  found : r.target t = some target
  recorded : Recorded opts (remembered os) now target.fluders
  offence : ∀ time, last = some time → target.fludblock = time

theorem Told.next {opts : FludOptions} (on : opts.FLUDBLOCK ≠ 0) {t : Target} {os : List Occurrence}
    {m : Message} {r : FludState} {last : Option Int} {target : FludTarget}
    (told : Told opts t os m.time r last target) (sender : r.fludees m.fluder ≠ none)
    (past : ∀ n ∈ ctcps os, n.time ≤ m.time) :
    ∃ r', check_for_flud opts m.fluder t m.time r = some (r', (target.heard opts m.time m.fluder).2) ∧
      Told opts t (os ++ [.ctcp m]) m.time r'
        (if (target.heard opts m.time m.fluder).2 then some m.time else last)
        (target.heard opts m.time m.fluder).1 := by
  obtain ⟨fludees', checked, -, linked⟩ := told.linked.check_for_flud_eq opts on m.time sender told.found
  refine ⟨_, checked, linked, Function.update_self .., ?_, fun time seen => ?_⟩
  · rw [remembered_append]
    exact told.recorded.collected.recorded_next
      (fun n member => past n (mem_ctcps_of_remembered member)) m.fluder
  · show (if (target.heard opts m.time m.fluder).2 then m.time else target.fludblock) = time
    cases blocked : (target.heard opts m.time m.fluder).2 with
    | true =>
      rw [blocked] at seen
      exact Option.some.inj seen
    | false =>
      rw [blocked] at seen
      exact told.offence time seen

/-- **What happens otherwise** is no harm to what is remembered. -/
theorem Told.other {opts : FludOptions} {t : Target} {os : List Occurrence} {now : Int}
    {r r' : FludState} {last : Option Int} {target : FludTarget} (told : Told opts t os now r last target)
    {e : Event} (possible : e.Possible r) (other : ∀ opts' x now, e ≠ .check_for_flud opts' x t now)
    (done : step r e = some r') (alive : r'.target t ≠ none) :
    Told opts t (os ++ [.other e]) now r' last (e.forget target) := by
  obtain ⟨r'', done', linked⟩ := told.linked.step possible
  obtain rfl := Option.some.inj (done'.symm.trans done)
  refine ⟨linked, (told.linked.step_target possible other done told.found).resolve_left alive, ?_, ?_⟩
  · rw [remembered_append]
    unfold remember Event.forget
    dsimp only
    split
    · exact told.recorded.forgotten _
    · exact told.recorded
  · unfold Event.forget
    split
    · exact told.offence
    · exact told.offence

/-- **The messages are all recorded**, whatever else happens. -/
theorem Watched.told {opts : FludOptions} (on : opts.FLUDBLOCK ≠ 0) {t : Target} {s : FludState}
    (linked : Linked s) (fresh : s.target t = some ⟨0, []⟩) {os : List Occurrence} {r : FludState}
    {last : Option Int} (watched : Watched opts t s os r last) {now : Int}
    (past : ∀ n ∈ ctcps os, n.time ≤ now) : ∃ target, Told opts t os now r last target := by
  induction watched generalizing now with
  | start => exact ⟨_, linked, fresh, Recorded.nil opts now, fun time seen => by cases seen⟩
  | @ctcp os r r' last m blocked watched sender before checked ih =>
    obtain ⟨target, told⟩ := ih before
    obtain ⟨r'', checked', told'⟩ := told.next on sender before
    obtain ⟨rfl, rfl⟩ := Prod.mk.inj (Option.some.inj (checked'.symm.trans checked))
    refine ⟨_, told'.linked, told'.found, told'.recorded.mono (past m ?_), told'.offence⟩
    rw [ctcps_append]
    exact List.mem_append_right _ (List.mem_singleton_self m)
  | @other os r r' last e watched possible other done alive ih =>
    obtain ⟨target, told⟩ := ih (by rwa [ctcps_other] at past)
    exact ⟨_, told.other possible other done alive⟩

/-- What `check_for_flud` owes to the target of a message: it blocks one too many, and a blocked target
is free again in time. -/
structure Guards (opts : FludOptions) (msgs : List Message) (m : Message) (last : Option Int)
    (blocked : Bool) (target : FludTarget) : Prop where
  blocks : opts.FLUDNUM < (inWindow opts m.time (msgs ++ [m])).length → blocked = true
  frees : ∀ offence, (if blocked then some m.time else last) = some offence →
    ∀ later, offence + opts.FLUDBLOCK ≤ later → target.blocking opts later = false

/-- **When the target of a CTCP flood is guarded.** After anything that may happen while a target with flood
protection is there, the next message is handled as it should be if and only if the target is `Spared`. -/
theorem check_for_flud_blocks_iff {opts : FludOptions} (on : opts.FLUDBLOCK ≠ 0) {t : Target}
    {s : FludState} (linked : Linked s) (fresh : s.target t = some ⟨0, []⟩) {os : List Occurrence}
    {r : FludState} {last : Option Int} (watched : Watched opts t s os r last) (m : Message)
    (sender : r.fludees m.fluder ≠ none) (past : ∀ n ∈ ctcps os, n.time ≤ m.time) :
    ∃ target r' blocked target', r.target t = some target ∧
      check_for_flud opts m.fluder t m.time r = some (r', blocked) ∧ r'.target t = some target' ∧
      (Guards opts (ctcps os) m last blocked target' ↔
        Spared opts m.time target (ctcps os ++ [m]) (remembered os ++ [m])) := by
  obtain ⟨target, told⟩ := watched.told on linked fresh past
  obtain ⟨r', checked, told'⟩ := told.next on sender past
  refine ⟨target, r', _, _, told.found, checked, told'.found, ?_⟩
  have blocked := Recorded.heard_blocked opts m.time target m.fluder
  have frees : ∀ offence, (if (target.heard opts m.time m.fluder).2 then some m.time else last) =
      some offence → ∀ later, offence + opts.FLUDBLOCK ≤ later →
      (target.heard opts m.time m.fluder).1.blocking opts later = false := by
    intro offence seen later after
    have since := told'.offence offence seen
    rw [FludTarget.blocking, since, decide_eq_false_iff_not]
    omega
  have guards : Guards opts (ctcps os) m last (target.heard opts m.time m.fluder).2
      (target.heard opts m.time m.fluder).1 ↔
      (opts.FLUDNUM < (inWindow opts m.time (ctcps os ++ [m])).length →
        (target.heard opts m.time m.fluder).2 = true) := ⟨Guards.blocks, fun holds => ⟨holds, frees⟩⟩
  rw [guards, blocked]
  unfold Spared
  cases idle : target.blocking opts m.time with
  | true => simp
  | false =>
    have sum : _ = target.counted opts m.time (inWindow opts m.time (remembered os ++ [m])) :=
      told.recorded.share_sum (fun n member => past n (mem_ctcps_of_remembered member)) m.fluder idle
    rw [sum]
    simp only [Bool.false_or, decide_eq_true_eq, Bool.false_eq_true, false_or]
    omega

def sampleClients : FludState := make_client 3 true (make_client 2 true (make_client 1 true initial))

theorem sampleOptions_time : (0 : Int) < 10 := by decide

theorem sampleOptions_block : (0 : Int) ≤ 20 := by decide

/-- Two messages in ten seconds; a block of twenty. -/
def sampleOptions : FludOptions := ⟨2, 10, 20, by decide, sampleOptions_time, sampleOptions_block⟩

theorem sampleClients_linked : Linked sampleClients :=
  make_client_linked (make_client_linked (make_client_linked initial_linked ⟨rfl, rfl⟩ true)
    ⟨rfl, rfl⟩ true) ⟨rfl, rfl⟩ true

/-- The second client has sent messages at these times. -/
def sampleAfter (times : List Int) : FludState :=
  times.foldl (fun r now =>
    ((check_for_flud sampleOptions 2 (.client 1) now r).getD (r, false)).1) sampleClients

/-- Two messages, after which their sender exits. -/
def sampleExit : FludState :=
  (release_client_state 2 (sampleAfter [1000, 1000])).getD sampleClients

theorem sampleAfter_watched {os : List Occurrence} {times : List Int} (now : Int)
    (watched : Watched sampleOptions (.client 1) sampleClients os (sampleAfter times) none)
    (sender : (sampleAfter times).fludees 2 ≠ none) (past : ∀ n ∈ ctcps os, n.time ≤ now)
    (checked : check_for_flud sampleOptions 2 (.client 1) now (sampleAfter times) =
      some (sampleAfter (times ++ [now]), false)) :
    Watched sampleOptions (.client 1) sampleClients (os ++ [.ctcp ⟨2, now⟩])
      (sampleAfter (times ++ [now])) none :=
  .ctcp (m := ⟨2, now⟩) watched sender past checked

theorem sampleFirst_watched :
    Watched sampleOptions (.client 1) sampleClients [.ctcp ⟨2, 1000⟩] (sampleAfter [1000]) none :=
  @sampleAfter_watched [] [] 1000 .start (by decide) (by decide) rfl

theorem sampleExit_watched : Watched sampleOptions (.client 1) sampleClients
    [.ctcp ⟨2, 1000⟩, .ctcp ⟨2, 1000⟩, .other (.client_exits 2)] sampleExit none := by
  have second : Watched sampleOptions (.client 1) sampleClients [.ctcp ⟨2, 1000⟩, .ctcp ⟨2, 1000⟩]
      (sampleAfter [1000, 1000]) none :=
    sampleAfter_watched 1000 sampleFirst_watched (by decide) (by decide) rfl
  exact .other second ⟨by decide, fun _ => Option.some_ne_none _⟩ (fun _ _ _ => nofun) rfl
    (Option.some_ne_none _)

/-- The third message at once is one of somebody else, after the sender of the others has left. -/
theorem check_for_flud_blocks_sample :
    ∃ target r' blocked target', sampleExit.target (.client 1) = some target ∧
      check_for_flud sampleOptions 3 (.client 1) 1000 sampleExit = some (r', blocked) ∧
      r'.target (.client 1) = some target' ∧
      (Guards sampleOptions [⟨2, 1000⟩, ⟨2, 1000⟩] ⟨3, 1000⟩ none blocked target' ↔
        Spared sampleOptions 1000 target ([⟨2, 1000⟩, ⟨2, 1000⟩] ++ [⟨3, 1000⟩]) ([] ++ [⟨3, 1000⟩])) :=
  check_for_flud_blocks_iff (by decide) sampleClients_linked rfl sampleExit_watched ⟨3, 1000⟩
    (by decide) (by decide)

/-- **Not every flood is blocked**: a sender that goes on, and then sends two more at once. -/
theorem not_check_for_flud_blocks :
    ¬ ∀ (opts : FludOptions) (t : Target) (s : FludState) (os : List Occurrence) (r : FludState)
      (last : Option Int) (m : Message), opts.FLUDBLOCK ≠ 0 → Linked s → s.target t = some ⟨0, []⟩ →
      Watched opts t s os r last → r.fludees m.fluder ≠ none → (∀ n ∈ ctcps os, n.time ≤ m.time) →
      opts.FLUDNUM < (inWindow opts m.time (ctcps os ++ [m])).length →
      ∃ r', check_for_flud opts m.fluder t m.time r = some (r', true) := by
  intro claim
  have second : Watched sampleOptions (.client 1) sampleClients [.ctcp ⟨2, 1000⟩, .ctcp ⟨2, 1006⟩]
      (sampleAfter [1000, 1006]) none :=
    sampleAfter_watched 1006 sampleFirst_watched (by decide) (by decide) rfl
  have third : Watched sampleOptions (.client 1) sampleClients
      [.ctcp ⟨2, 1000⟩, .ctcp ⟨2, 1006⟩, .ctcp ⟨2, 1012⟩] (sampleAfter [1000, 1006, 1012]) none :=
    sampleAfter_watched 1012 second (by decide) (by decide) rfl
  obtain ⟨r', checked⟩ := claim sampleOptions (.client 1) sampleClients _ _ _ ⟨2, 1012⟩ (by decide)
    sampleClients_linked rfl third (by decide) (by decide) (by decide)
  have answer : (check_for_flud sampleOptions 2 (.client 1) 1012
      (sampleAfter [1000, 1006, 1012])).map Prod.snd = some false := by decide
  rw [checked] at answer
  exact absurd answer (by simp)

end Flud

end PtlinkIrcd
