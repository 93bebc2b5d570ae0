/-
**A cell that is moved to the end of its list.**

The list has a head, and the walk holds the place of a pointer: the head, or the successor of a cell.

* `load`, `store` — what is read from a place and written to it.
* `takeOut` — the walk to the last place, which takes a cell out where it comes to it and goes on through
  the cell that it has just taken out.
* `rotate` — the cell that was taken out becomes the last one (`rotate_spec`).
-/

import PtlinkIrcd.Lib.Chains

namespace PtlinkIrcd.Lib

/-- A list that starts at a head. -/
structure Headed (ε : Type) where
  memory : Memory ε
  head : Option Nat

namespace Headed

open Memory

variable {ε : Type}

/-! ### Operations -/

/-- What is at a place; a freed cell has no places. -/
def load (l : Headed ε) : Option Nat → Option (Option Nat)
  | none => some l.head
  | some p => (l.memory p).map Cell.next

/-- A write to a place. -/
def store (l : Headed ε) (q : Option Nat) : Option Nat → Headed ε
  | none => { l with head := q }
  | some p => { l with memory := l.memory.setNext (some p) q }

/-- The walk from a place on, which takes out the cell `c`. -/
def takeOut (c : Nat) : Nat → Option Nat → Headed ε → Option (Option Nat × Headed ε)
  | 0, _, _ => none
  | fuel + 1, place, l => do
    match ← l.load place with
    | none => some (place, l)
    | some a =>
      let next ← l.load (some a)
      takeOut c fuel (some a) (if a = c then l.store next place else l)

/-- The cell `c` becomes the last one. -/
def rotate (c fuel : Nat) (l : Headed ε) : Option (Headed ε) := do
  let walked ← takeOut c fuel none l
  some ((walked.2.store (some c) walked.1).store none (some c))

/-! ### Places -/

theorem segment_nodup {m : Memory ε} {p : Option Nat} {items : List (Nat × ε)}
    (segment : Segment m p items none) : (items.map Prod.fst).Nodup := by
  induction items generalizing p with
  | nil => exact List.nodup_nil
  | cons i rest ih =>
    obtain ⟨start, next, cell, ahead⟩ := id segment
    refine List.nodup_cons.mpr ⟨fun again => ?_, ih ahead⟩
    obtain ⟨j, inside, same⟩ := List.mem_map.mp again
    obtain ⟨init, after, rfl⟩ := List.append_of_mem inside
    obtain ⟨mid, -, rfl, tail⟩ := Segment.append.mp ahead
    have back : Segment m p (j :: after) none := ⟨start.trans (congrArg some same.symm), tail⟩
    have length := congrArg List.length (segment.unique back)
    simp at length
    omega

/-- From the head one comes through these cells to `q`. -/
def Leads (l : Headed ε) (items : List (Nat × ε)) (q : Option Nat) : Prop :=
  Segment l.memory l.head items q

variable {l : Headed ε} {before rest after : List (Nat × ε)} {p q : Option Nat} {c : Nat} {e : ε}

/-- The place behind some cells. -/
def placeAfter (before : List (Nat × ε)) : Option Nat := before.getLast?.map Prod.fst

theorem placeAfter_concat (i : Nat × ε) : placeAfter (before ++ [i]) = some i.1 := by
  simp [placeAfter]

theorem load_placeAfter (leads : l.Leads before q) : l.load (placeAfter before) = some q := by
  rcases List.eq_nil_or_concat' before with rfl | ⟨init, ⟨b, e⟩, rfl⟩
  · exact congrArg some leads
  · obtain ⟨mid, -, -, next, cell, rfl⟩ := Segment.append.mp leads
    rw [placeAfter_concat]
    show (l.memory b).map Cell.next = _
    rw [cell]
    rfl

theorem store_placeAfter (leads : l.Leads before q) (nodup : (before.map Prod.fst).Nodup) (r : Option Nat) :
    (l.store r (placeAfter before)).Leads before r := by
  rcases List.eq_nil_or_concat' before with rfl | ⟨init, ⟨b, e⟩, rfl⟩
  · rfl
  · rw [placeAfter_concat]
    exact Segment.redirect leads nodup r

theorem store_memory {b : Nat} (r : Option Nat) (other : b ∉ before.map Prod.fst) :
    (l.store r (placeAfter before)).memory b = l.memory b := by
  rcases List.eq_nil_or_concat' before with rfl | ⟨init, ⟨b', e⟩, rfl⟩
  · rfl
  · rw [placeAfter_concat]
    exact Function.update_of_ne (fun same : b = b' => other (by simp [same])) ..

/-! ### The walk -/

theorem takeOut_rest {place : Option Nat} {fuel : Nat} (here : l.load place = some p)
    (ahead : Segment l.memory p rest none) (out : c ∉ rest.map Prod.fst) (enough : rest.length < fuel) :
    takeOut c fuel place l = some ((placeAfter rest).or place, l) := by
  induction rest generalizing place p fuel with
  | nil =>
    obtain ⟨fuel, rfl⟩ := Nat.exists_eq_succ_of_ne_zero (Nat.ne_of_gt enough)
    obtain rfl : p = none := ahead
    simp [takeOut, here, placeAfter]
  | cons i rest ih =>
    obtain ⟨fuel, rfl⟩ := Nat.exists_eq_succ_of_ne_zero (Nat.ne_of_gt (Nat.zero_lt_of_lt enough))
    obtain ⟨rfl, next, cell, ahead⟩ := ahead
    rw [List.map_cons, List.mem_cons, not_or] at out
    have there : l.load (some i.1) = some next := by
      show (l.memory i.1).map Cell.next = _
      rw [cell]
      rfl
    have last : (placeAfter (i :: rest)).or place = (placeAfter rest).or (some i.1) := by
      rcases List.eq_nil_or_concat' rest with rfl | ⟨init, j, rfl⟩
      · rfl
      · rw [← List.cons_append, placeAfter_concat, placeAfter_concat]
        rfl
    rw [last, ← ih there ahead out.2 (Nat.lt_of_succ_lt_succ enough)]
    simp [takeOut, here, there, Ne.symm out.1]

theorem takeOut_spec {done : List (Nat × ε)} {fuel : Nat}
    (list : l.Leads (done ++ (before ++ (c, e) :: after)) none)
    (nodup : ((done ++ (before ++ (c, e) :: after)).map Prod.fst).Nodup)
    (enough : (before ++ (c, e) :: after).length < fuel) :
    ∃ l', takeOut c fuel (placeAfter done) l = some ((placeAfter after).or (some c), l') ∧
      l'.Leads (done ++ (before ++ after)) none ∧ l'.memory c ≠ none ∧
      ∀ cell ∈ l'.memory c, cell.item = e := by
  induction before generalizing done fuel with
  | nil =>
    obtain ⟨fuel, rfl⟩ := Nat.exists_eq_succ_of_ne_zero (Nat.ne_of_gt (Nat.zero_lt_of_lt enough))
    obtain ⟨mid, passed, rfl, next, cell, ahead⟩ := Segment.append.mp list
    rw [List.nil_append, List.map_append, List.map_cons, List.nodup_append, List.nodup_cons] at nodup
    obtain ⟨once, ⟨outAfter, onceAfter⟩, apart⟩ := nodup
    have outDone : c ∉ done.map Prod.fst := fun member => apart c member c List.mem_cons_self rfl
    have there : l.load (some c) = some next := by
      show (l.memory c).map Cell.next = _
      rw [cell]
      rfl
    have kept : (l.store next (placeAfter done)).memory c = l.memory c := store_memory next outDone
    have thereStill : (l.store next (placeAfter done)).load (some c) = some next := by
      show ((l.store next (placeAfter done)).memory c).map Cell.next = _
      rw [kept, cell]
      rfl
    have aheadStill : Segment (l.store next (placeAfter done)).memory next after none :=
      ahead.congr fun i member => store_memory next fun inside =>
        apart i.1 inside i.1 (List.mem_cons_of_mem _ (List.mem_map_of_mem member)) rfl
    refine ⟨l.store next (placeAfter done), ?_, ?_, ?_, ?_⟩
    · rw [← takeOut_rest thereStill aheadStill outAfter (Nat.lt_of_succ_lt_succ enough)]
      simp [takeOut, load_placeAfter passed, there]
    · exact Segment.append.mpr ⟨next, store_placeAfter passed once next, aheadStill⟩
    · rw [kept, cell]
      exact Option.some_ne_none _
    · rintro cell' here
      rw [kept, cell] at here
      exact congrArg Cell.item (Option.some.inj here).symm
  | cons i before ih =>
    obtain ⟨fuel, rfl⟩ := Nat.exists_eq_succ_of_ne_zero (Nat.ne_of_gt (Nat.zero_lt_of_lt enough))
    obtain ⟨mid, passed, rfl, next, cell, ahead⟩ := Segment.append.mp list
    have there : l.load (some i.1) = some next := by
      show (l.memory i.1).map Cell.next = _
      rw [cell]
      rfl
    have other : i.1 ≠ c := by
      rintro same
      rw [List.map_append, List.nodup_append] at nodup
      have inner := nodup.2.1
      rw [List.cons_append, List.map_cons, List.nodup_cons] at inner
      exact inner.1 (by simp [same])
    have shift : done ++ (i :: before ++ (c, e) :: after) = done ++ [i] ++ (before ++ (c, e) :: after) := by
      simp
    rw [shift] at list nodup
    obtain ⟨l', run, leads, item⟩ := ih list nodup (Nat.lt_of_succ_lt_succ enough)
    refine ⟨l', ?_, ?_, item⟩
    · rw [← run, placeAfter_concat]
      simp [takeOut, load_placeAfter passed, there, other]
    · simpa using leads

/-! ### The rotation -/

/-- **The cell is moved to the end, and the others keep their order.** -/
theorem rotate_spec {fuel : Nat} (list : l.Leads (before ++ (c, e) :: after) none) (more : after ≠ [])
    (enough : (before ++ (c, e) :: after).length < fuel) :
    ∃ l', rotate c fuel l = some l' ∧ l'.Leads (before ++ after ++ [(c, e)]) none := by
  have nodup := segment_nodup list
  obtain ⟨l', run, leads, alloc, item⟩ := @takeOut_spec _ l before after c e [] fuel list nodup enough
  have last : (placeAfter after).or (some c) = placeAfter (before ++ after) := by
    obtain ⟨init, j, rfl⟩ := (List.eq_nil_or_concat' after).resolve_left more
    rw [placeAfter_concat, ← List.append_assoc, placeAfter_concat]
    rfl
  rw [List.map_append, List.map_cons, List.nodup_middle, List.nodup_cons, ← List.map_append] at nodup
  obtain ⟨out, once⟩ := nodup
  obtain ⟨cell, here⟩ := Option.ne_none_iff_exists'.mp alloc
  refine ⟨(l'.store (some c) (placeAfter (before ++ after))).store none (some c), ?_, ?_⟩
  · rw [← last]
    have start : takeOut c fuel none l = some ((placeAfter after).or (some c), l') := run
    simp [rotate, start]
  · have led := store_placeAfter leads once (some c)
    refine Segment.append.mpr ⟨some c, Segment.congr led fun i member => ?_, rfl, none, ?_, rfl⟩
    · have inside : i.1 ∈ (before ++ after).map Prod.fst := List.mem_map_of_mem member
      exact Function.update_of_ne (fun same : i.1 = c => out (same ▸ inside)) ..
    · show Function.update _ c _ c = _
      rw [Function.update_self, store_memory (some c) out, here, ← item cell here]
      rfl

end Headed

end PtlinkIrcd.Lib
