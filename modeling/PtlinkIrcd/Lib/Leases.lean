/-
**Lists that hold at most one entry of a key, each until it ends.**

An entry is let in while no entry of its key lasts, a search frees the ended entries that it passes, and
the entry of a key can be taken out.

* `Apart` — no two entries of one key.
* `Turn` — what a step did to a list: what it took out, what it let in, and that nothing else went
  before its end. A search, an arrival and a removal are turns (`Turn.look`, `Turn.cons`,
  `Turn.revoke`), and turns compose (`Turn.then`).
* `Story` — a list after events, which stays apart (`Story.apart`).
* `Story.mem_iff` — **an entry that lasts is in the list exactly when an event let it in and none since
  took it out**.
-/

import PtlinkIrcd.Lib.Refusals

set_option linter.unusedSectionVars false

namespace PtlinkIrcd.Lib.Leases

open Refusals (look)

variable {κ ρ ε : Type} [DecidableEq κ] (key : ρ → κ) (ends : ρ → Int)

/-- No two entries have one key. -/
def Apart (list : List ρ) : Prop := (list.map key).Nodup

/-- An entry of a key lasts. -/
def Live (now : Int) (k : κ) (list : List ρ) : Prop := ∃ r ∈ list, now < ends r ∧ key r = k

/-- The search for a key. -/
def find (now : Int) (k : κ) (list : List ρ) : List ρ × Option ρ := look ends now (fun r => key r = k) list

/-- The list without the entry of a key. -/
def revoke (k : κ) (list : List ρ) : List ρ := list.eraseP fun r => key r = k

/-- What a step at a time did to a list: `drops` are the keys that it took out, `gets` what it let in. -/
structure Turn (now : Int) (drops : κ → Prop) (gets : ρ → Prop) (list after : List ρ) : Prop where
  apart : Apart key after
  sound : ∀ r ∈ after, (r ∈ list ∧ ¬ drops (key r)) ∨ gets r
  kept : ∀ r ∈ list, now < ends r → ¬ drops (key r) → r ∈ after
  got : ∀ r, gets r → r ∈ after

/-! ### Searches, arrivals and removals -/

section Turns

variable {key ends} {now : Int} {k : κ} {list after later : List ρ} {r : ρ} {drops : κ → Prop}
  {gets : ρ → Prop}

theorem Apart.sublist (apart : Apart key list) (part : after.Sublist list) : Apart key after :=
  List.Nodup.sublist (part.map key) apart

theorem Apart.eq_of_mem (apart : Apart key list) {s : ρ} (first : r ∈ list) (second : s ∈ list)
    (same : key r = key s) : r = s := List.inj_on_of_nodup_map apart first second same

theorem Apart.notMem_revoke (apart : Apart key list) (member : r ∈ revoke key k list) : key r ≠ k := by
  induction list with
  | nil => exact absurd member List.not_mem_nil
  | cons head rest ih =>
    obtain ⟨other, apart⟩ := List.nodup_cons.mp apart
    unfold revoke at member
    by_cases here : key head = k
    · rw [List.eraseP_cons_of_pos (by simpa using here)] at member
      rw [← here]
      exact fun same => other (same ▸ List.mem_map_of_mem member)
    · rw [List.eraseP_cons_of_neg (by simpa using here)] at member
      rcases List.mem_cons.mp member with rfl | member
      · exact here
      · exact ih apart member

theorem find_isSome : (find key ends now k list).2.isSome = true ↔ Live key ends now k list := by
  rw [find, Refusals.look_isSome]
  simp only [decide_eq_true_eq, Live]

theorem find_eq_none : (find key ends now k list).2 = none ↔ ¬ Live key ends now k list := by
  rw [← find_isSome, Bool.not_eq_true, Option.isSome_eq_false_iff, Option.isNone_iff_eq_none]

theorem find_eq_some (found : (find key ends now k list).2 = some r) :
    r ∈ list ∧ now < ends r ∧ key r = k := by
  obtain ⟨member, early, same⟩ := Refusals.look_eq_some found
  exact ⟨member, early, of_decide_eq_true same⟩

/-- **A search.** -/
theorem Turn.look (apart : Apart key list) (wanted : ρ → Bool) :
    Turn key ends now (fun _ => False) (fun _ => False) list (look ends now wanted list).1 where
  apart := apart.sublist (Memory.scanned_sublist ..)
  sound _ member := .inl ⟨Refusals.mem_of_mem_look member, id⟩
  kept _ member early _ := Refusals.mem_look member early
  got _ none_ := none_.elim

theorem key_ne_of_find (none_ : (find key ends now k list).2 = none)
    (member : r ∈ (find key ends now k list).1) : key r ≠ k := fun same =>
  find_eq_none.mp none_ ⟨r, Refusals.mem_of_mem_look member, Refusals.early_of_mem_look none_ member, same⟩

/-- **An entry is let in.** -/
theorem Turn.cons (apart : Apart key list) (vacant : ∀ s ∈ list, key s ≠ key r) :
    Turn key ends now (fun _ => False) (· = r) list (r :: list) where
  apart := List.nodup_cons.mpr ⟨fun taken =>
    let ⟨s, member, same⟩ := List.mem_map.mp taken
    vacant s member same, apart⟩
  sound _ member := (List.mem_cons.mp member).elim .inr fun was => .inl ⟨was, id⟩
  kept _ member _ _ := List.mem_cons_of_mem _ member
  got _ new := new ▸ List.mem_cons_self

/-- **A removal.** -/
theorem Turn.revoke (apart : Apart key list) (k : κ) :
    Turn key ends now (· = k) (fun _ => False) list (revoke key k list) where
  apart := apart.sublist List.eraseP_sublist
  sound r member := by
    refine .inl ⟨List.mem_of_mem_eraseP member, ?_⟩
    rintro rfl
    exact apart.notMem_revoke member rfl
  kept r member _ other := (List.mem_eraseP_of_neg (by simpa using other)).mpr member
  got _ none_ := none_.elim

theorem Turn.refl (apart : Apart key list) :
    Turn key ends now (fun _ => False) (fun _ => False) list list :=
  ⟨apart, fun _ member => .inl ⟨member, id⟩, fun _ member _ _ => member, fun _ none_ => none_.elim⟩

theorem Turn.congr {drops' : κ → Prop} {gets' : ρ → Prop} (turn : Turn key ends now drops gets list after)
    (sameDrops : ∀ k, drops k ↔ drops' k) (sameGets : ∀ r, gets r ↔ gets' r) :
    Turn key ends now drops' gets' list after where
  apart := turn.apart
  sound r member := (turn.sound r member).imp (And.imp_right (mt (sameDrops (key r)).mpr)) (sameGets r).mp
  kept r member early stays := turn.kept r member early (mt (sameDrops (key r)).mp stays)
  got r new := turn.got r ((sameGets r).mpr new)

theorem Turn.then (first : Turn key ends now (fun _ => False) (fun _ => False) list after)
    (second : Turn key ends now drops gets after later) : Turn key ends now drops gets list later where
  apart := second.apart
  sound r member := by
    rcases second.sound r member with ⟨was, stays⟩ | new
    · rcases first.sound r was with ⟨was, -⟩ | none_
      · exact .inl ⟨was, stays⟩
      · exact none_.elim
    · exact .inr new
  kept r member early stays := second.kept r (first.kept r member early id) early stays
  got := second.got

end Turns

/-! ### Stories -/

section Story

variable (time : ε → Int) (drops : ε → κ → Prop) (gets : List ε → ε → ρ → Prop)

/-- A list after events: each was a turn, and what it let in may depend on the events before. -/
inductive Story : List ε → List ρ → Prop
  | start : Story [] []
  | turn {events : List ε} {e : ε} {list after : List ρ} (before : Story events list)
      (turn : Apart key list → Turn key ends (time e) (drops e) (gets events e) list after) :
      Story (events ++ [e]) after

variable {key ends time drops gets} {events : List ε} {list : List ρ}

theorem Story.apart (story : Story key ends time drops gets events list) : Apart key list := by
  induction story with
  | start => exact List.nodup_nil
  | turn _ turn ih => exact (turn ih).apart

/-- **What lasts is in the list exactly when an event let it in, and none since took it out.** -/
theorem Story.mem_iff (story : Story key ends time drops gets events list) {t : Int}
    (timely : ∀ e ∈ events, time e ≤ t) {r : ρ} (lasts : t < ends r) :
    r ∈ list ↔ ∃ before e after, events = before ++ e :: after ∧ gets before e r ∧
      ∀ later ∈ after, ¬ drops later (key r) := by
  induction story with
  | start => simp
  | @turn events e list after story turn ih =>
    have early : time e < ends r :=
      Int.lt_of_le_of_lt (timely e (List.mem_append_right _ List.mem_cons_self)) lasts
    have turn := turn story.apart
    have ih := ih fun other member => timely other (List.mem_append_left _ member)
    constructor
    · intro member
      rcases turn.sound r member with ⟨was, stays⟩ | new
      · obtain ⟨before, first, since, rfl, got, none_⟩ := ih.mp was
        refine ⟨before, first, since ++ [e], by simp, got, ?_⟩
        intro later member
        rcases List.mem_append.mp member with member | member
        · exact none_ later member
        · rw [List.mem_singleton.mp member]
          exact stays
      · exact ⟨events, e, [], rfl, new, nofun⟩
    · rintro ⟨before, first, since, split, got, none_⟩
      rcases List.eq_nil_or_concat' since with rfl | ⟨since, last, rfl⟩
      · obtain ⟨rfl, same⟩ := List.append_inj' split rfl
        obtain rfl := List.singleton_inj.mp same
        exact turn.got r got
      · rw [← List.cons_append, ← List.append_assoc] at split
        obtain ⟨rfl, same⟩ := List.append_inj' split rfl
        obtain rfl := List.singleton_inj.mp same
        have was := ih.mpr ⟨before, first, since, rfl, got,
          fun later member => none_ later (List.mem_append_left _ member)⟩
        exact turn.kept r was early (none_ e (List.mem_append_right _ List.mem_cons_self))

end Story

end PtlinkIrcd.Lib.Leases
