/-
**Several singly linked lists in one memory.**

* `Chained m head lists` — each head leads through its list, and no cell is in two places.
* `Chained.push`, `Chained.pop`, `Chained.cut`, `Chained.setItem` — a cell comes to a head, goes from a
  head or from behind another cell, or gets a new item.
* `exists_places_move` — a cell that moves is still in a list.
-/

import PtlinkIrcd.Lib.Chains

set_option linter.unusedSectionVars false

namespace PtlinkIrcd.Lib.Memory

variable {ε κ : Type} [DecidableEq κ]

/-- The places of the cells of a list. -/
abbrev places (list : List (Nat × ε)) : List Nat := list.map Prod.fst

/-- Each head leads through its list, and no cell is in two places. -/
structure Chained (m : Memory ε) (head : κ → Option Nat) (lists : κ → List (Nat × ε)) : Prop where
  segment : ∀ k, Segment m (head k) (lists k) none
  nodup : ∀ k, (places (lists k)).Nodup
  apart : ∀ k k' a, a ∈ places (lists k) → a ∈ places (lists k') → k = k'

namespace Chained

variable {m : Memory ε} {head : κ → Option Nat} {lists : κ → List (Nat × ε)} {k : κ} {a : Nat} {e : ε}
  {before rest : List (Nat × ε)} {next : Option Nat}

/-- One list changes, and with it only its own cells and one that was in no list. -/
theorem replace (chained : Chained m head lists) {other : Memory ε} {list : List (Nat × ε)}
    {start : Option Nat} (segment : Segment other start list none) (nodup : (places list).Nodup)
    (from_ : ∀ b ∈ places list, b ∈ places (lists k) ∨ ∀ k', b ∉ places (lists k'))
    (frame : ∀ k' ≠ k, ∀ b ∈ places (lists k'), other b = m b) :
    Chained other (Function.update head k start) (Function.update lists k list) where
  segment k' := by
    by_cases here : k' = k
    · subst here
      rw [Function.update_self, Function.update_self]
      exact segment
    · rw [Function.update_of_ne here, Function.update_of_ne here]
      exact (chained.segment k').congr fun i member => frame k' here i.1 (List.mem_map_of_mem member)
  nodup k' := by
    by_cases here : k' = k
    · subst here
      rwa [Function.update_self]
    · rw [Function.update_of_ne here]
      exact chained.nodup k'
  apart := by
    have cross : ∀ k' ≠ k, ∀ b ∈ places list, b ∉ places (lists k') := by
      intro k' other b member inside
      rcases from_ b member with own | none_
      · exact other (chained.apart k' k b inside own)
      · exact none_ k' inside
    intro k₁ k₂ b first second
    by_cases here₁ : k₁ = k <;> by_cases here₂ : k₂ = k
    · rw [here₁, here₂]
    · subst here₁
      rw [Function.update_self] at first
      rw [Function.update_of_ne here₂] at second
      exact absurd second (cross k₂ here₂ b first)
    · subst here₂
      rw [Function.update_of_ne here₁] at first
      rw [Function.update_self] at second
      exact absurd first (cross k₁ here₁ b second)
    · rw [Function.update_of_ne here₁] at first
      rw [Function.update_of_ne here₂] at second
      exact chained.apart k₁ k₂ b first second

/-- **A cell comes to a head.** -/
theorem push (chained : Chained m head lists) (out : ∀ k', a ∉ places (lists k')) (k : κ) (e : ε) :
    Chained (Function.update m a (some ⟨e, head k⟩)) (Function.update head k (some a))
      (Function.update lists k ((a, e) :: lists k)) := by
  have old : ∀ k', ∀ b ∈ places (lists k'), Function.update m a (some ⟨e, head k⟩) b = m b :=
    fun k' b member => Function.update_of_ne (fun same : b = a => out k' (same ▸ member)) ..
  refine chained.replace ⟨rfl, head k, Function.update_self .., ?_⟩
    (List.nodup_cons.mpr ⟨out k, chained.nodup k⟩) ?_ fun k' _ => old k'
  · exact (chained.segment k).congr fun i member => old k i.1 (List.mem_map_of_mem member)
  · intro b member
    rcases List.mem_cons.mp member with rfl | member
    · exact .inr out
    · exact .inl member

theorem out_of_cut (chained : Chained m head lists) (at_ : lists k = before ++ (a, e) :: rest) (k' : κ) :
    a ∉ places (Function.update lists k (before ++ rest) k') := by
  by_cases here : k' = k
  · subst here
    have once := chained.nodup k'
    rw [at_, places, List.map_append, List.map_cons, List.nodup_middle, List.nodup_cons] at once
    rw [Function.update_self, places, List.map_append]
    exact once.1
  · rw [Function.update_of_ne here]
    intro inside
    have own : a ∈ places (lists k) := by
      rw [at_]
      exact List.mem_map_of_mem (List.mem_append_right _ List.mem_cons_self)
    exact here (chained.apart k' k a inside own)

/-- **A cell goes from a head.** -/
theorem pop (chained : Chained m head lists) (at_ : lists k = (a, e) :: rest) (cell : m a = some ⟨e, next⟩) :
    Chained m (Function.update head k next) (Function.update lists k rest) := by
  have segment := chained.segment k
  have once := chained.nodup k
  rw [at_] at segment once
  obtain ⟨-, next', cell', ahead⟩ := segment
  obtain ⟨-, rfl⟩ := Cell.mk.inj (Option.some.inj (cell.symm.trans cell'))
  refine chained.replace ahead (List.nodup_cons.mp once).2 (fun b member => .inl ?_) fun _ _ _ _ => rfl
  rw [at_]
  exact List.mem_cons_of_mem _ member

/-- **A cell goes from behind another.** -/
theorem cut {b : Nat} {e' : ε} (chained : Chained m head lists)
    (at_ : lists k = (before ++ [(b, e')]) ++ (a, e) :: rest) (cell : m a = some ⟨e, next⟩) :
    Chained (m.setNext (some b) next) head (Function.update lists k ((before ++ [(b, e')]) ++ rest)) := by
  have segment := chained.segment k
  have once := chained.nodup k
  rw [at_] at segment once
  obtain ⟨q, first, -, next', cell', ahead⟩ := Segment.append.mp segment
  obtain ⟨-, rfl⟩ := Cell.mk.inj (Option.some.inj (cell.symm.trans cell'))
  have part : ((before ++ [(b, e')]) ++ rest).Sublist ((before ++ [(b, e')]) ++ (a, e) :: rest) :=
    (List.Sublist.refl _).append (List.sublist_cons_self ..)
  have once' : (places ((before ++ [(b, e')]) ++ rest)).Nodup := once.sublist (part.map Prod.fst)
  have onceFirst : (places (before ++ [(b, e')])).Nodup :=
    once.sublist ((List.sublist_append_left _ _).map Prod.fst)
  have notB : b ∉ places rest := by
    rw [places, List.map_append, List.nodup_append] at once'
    exact fun member => once'.2.2 b (by simp) b member rfl
  have whole : Segment (m.setNext (some b) next) (head k) ((before ++ [(b, e')]) ++ rest) none := by
    refine Segment.append.mpr ⟨next, first.redirect onceFirst next, ahead.congr fun i member => ?_⟩
    exact Function.update_of_ne (fun same : i.1 = b => notB (same ▸ List.mem_map_of_mem member)) ..
  have changed := chained.replace (k := k) whole once'
    (fun b member => .inl (at_ ▸ (part.map Prod.fst).subset member)) fun k' other b' member => ?_
  · rwa [Function.update_eq_self] at changed
  · refine Function.update_of_ne (fun same : b' = b => ?_) ..
    have own : b ∈ places (lists k) := by
      rw [at_]
      simp
    exact other (chained.apart k' k b (same ▸ member) own)

/-- **A cell gets a new item.** -/
theorem setItem (chained : Chained m head lists) (at_ : lists k = before ++ (a, e) :: rest) (f : ε → ε) :
    Chained (m.setItem a f) head (Function.update lists k (before ++ (a, f e) :: rest)) := by
  have segment := chained.segment k
  have once := chained.nodup k
  rw [at_] at segment once
  have same : places (before ++ (a, f e) :: rest) = places (before ++ (a, e) :: rest) := by
    simp [places]
  have changed := chained.replace (k := k) (segment.setItem once f) (same ▸ once)
    (fun b member => .inl (at_ ▸ same ▸ member)) fun k' other b member => ?_
  · rwa [Function.update_eq_self] at changed
  · refine Function.update_of_ne (fun same : b = a => ?_) ..
    have own : a ∈ places (lists k) := by
      rw [at_]
      exact List.mem_map_of_mem (List.mem_append_right _ List.mem_cons_self)
    exact other (chained.apart k' k a (same ▸ member) own)

theorem head_eq (chained : Chained m head lists) (at_ : lists k = (a, e) :: rest) : head k = some a := by
  have segment := chained.segment k
  rw [at_] at segment
  exact segment.1

theorem head_ne (chained : Chained m head lists) (at_ : lists k = before ++ (a, e) :: rest)
    (some_ : before ≠ []) : head k ≠ some a := by
  obtain ⟨⟨b, e'⟩, before, rfl⟩ := List.exists_cons_of_ne_nil some_
  have once := chained.nodup k
  rw [chained.head_eq at_]
  rw [at_] at once
  rintro same
  obtain rfl := Option.some.inj same
  exact (List.nodup_cons.mp once).1 (by simp)

end Chained

theorem setNext_eq_update {m : Memory ε} {a : Nat} {e : ε} {next : Option Nat} (cell : m a = some ⟨e, next⟩)
    (p : Option Nat) : m.setNext (some a) p = Function.update m a (some ⟨e, p⟩) := by
  show Function.update m a ((m a).map fun cell => { cell with next := p }) = _
  rw [cell]
  rfl

/-- **A cell that moves from a list to another** leaves the places of all lists as they are. -/
theorem exists_places_move {lists : κ → List (Nat × ε)} {k₁ k₂ : κ} {a b : Nat} {e e' : ε}
    {before rest : List (Nat × ε)} (other : k₂ ≠ k₁) (at_ : lists k₁ = before ++ (a, e) :: rest) :
    (∃ k, b ∈ places
        (Function.update (Function.update lists k₁ (before ++ rest)) k₂ ((a, e') :: lists k₂) k)) ↔
      ∃ k, b ∈ places (lists k) := by
  have first : Function.update (Function.update lists k₁ (before ++ rest)) k₂ ((a, e') :: lists k₂) k₁ =
      before ++ rest := by
    rw [Function.update_of_ne other.symm, Function.update_self]
  constructor
  · rintro ⟨k, member⟩
    by_cases here₂ : k = k₂
    · rw [here₂, Function.update_self] at member
      rcases List.mem_cons.mp member with rfl | member
      · exact ⟨k₁, by simp [places, at_]⟩
      · exact ⟨k₂, member⟩
    · rw [Function.update_of_ne here₂] at member
      by_cases here₁ : k = k₁
      · rw [here₁, Function.update_self] at member
        refine ⟨k₁, ?_⟩
        rw [at_, mem_places]
        exact .inr member
      · rw [Function.update_of_ne here₁] at member
        exact ⟨k, member⟩
  · rintro ⟨k, member⟩
    by_cases here₁ : k = k₁
    · rw [here₁, at_, mem_places] at member
      rcases member with rfl | member
      · exact ⟨k₂, by simp [places]⟩
      · exact ⟨k₁, by rwa [first]⟩
    · by_cases here₂ : k = k₂
      · refine ⟨k₂, ?_⟩
        rw [Function.update_self]
        exact List.mem_cons_of_mem _ (here₂ ▸ member)
      · refine ⟨k, ?_⟩
        rwa [Function.update_of_ne here₂, Function.update_of_ne here₁]

end PtlinkIrcd.Lib.Memory
