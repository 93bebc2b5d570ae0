/-
**Singly linked lists in a memory whose cells are freed.**

A cell holds an item and a pointer to the next cell; a place without a cell is not allocated.

* `Segment m p items q` — from the pointer `p` one comes through exactly `items` to the pointer `q`;
  `Segment.redirect` and `Segment.setItem` are what writes to its cells do.
* `scan` — the walk that frees expired cells on its way and stops at the first other cell that is
  looked for; `scanned` is what it does to the list (`Stands.scan`).
* `unlink` — the walk that frees the first cell that is looked for (`Stands.unlink`).
* `freeAll` — the walk that frees every cell (`Segment.freeAll`).
* `Holds` — the memory holds the cells of two lists and no others.
-/

import Mathlib.Data.List.Nodup
import Mathlib.Logic.Function.Basic

set_option linter.unusedSectionVars false

namespace PtlinkIrcd.Lib

/-- A cell of a list. -/
structure Cell (ε : Type) where
  item : ε
  next : Option Nat

/-- The allocated cells. -/
abbrev Memory (ε : Type) := Nat → Option (Cell ε)

namespace Memory

variable {ε : Type}

/-! ### Operations -/

/-- Free a cell. -/
def free (a : Nat) (m : Memory ε) : Memory ε := Function.update m a none

/-- Write `next` of a cell. -/
def setNext (p next : Option Nat) (m : Memory ε) : Memory ε :=
  match p with
  | none => m
  | some a => Function.update m a ((m a).map fun cell => { cell with next := next })

/-- Write to the item of a cell. -/
def setItem (a : Nat) (f : ε → ε) (m : Memory ε) : Memory ε :=
  Function.update m a ((m a).map fun cell => { cell with item := f cell.item })

/-- The walk from `kill` on, behind `last`; `first` is the head of the list. Expired cells are freed,
and the first other one that is looked for ends the walk. A freed cell is not read. -/
def scan (expired found : ε → Bool) :
    Nat → Option Nat → Option Nat → Option Nat → Memory ε → Memory ε × Option Nat × Option Nat
  | 0, first, _, _, m => (m, first, none)
  | fuel + 1, first, last, kill, m =>
    match kill with
    | none => (m, first, none)
    | some a =>
      match m a with
      | none => (m, first, none)
      | some cell =>
        if expired cell.item then
          if first = some a then scan expired found fuel cell.next cell.next cell.next (m.free a)
          else scan expired found fuel first last cell.next ((m.setNext last cell.next).free a)
        else if found cell.item then (m, first, some a)
        else scan expired found fuel first (some a) cell.next m

/-- The walk that frees the first cell that is looked for; the last component tells whether there
was one. -/
def unlink (hit : ε → Bool) :
    Nat → Option Nat → Option Nat → Option Nat → Memory ε → Memory ε × Option Nat × Bool
  | 0, first, _, _, m => (m, first, false)
  | fuel + 1, first, last, kill, m =>
    match kill with
    | none => (m, first, false)
    | some a =>
      match m a with
      | none => (m, first, false)
      | some cell =>
        if hit cell.item then
          match last with
          | some _ => ((m.setNext last cell.next).free a, first, true)
          | none => (m.free a, cell.next, true)
        else unlink hit fuel first (some a) cell.next m

/-- The walk that frees every cell. -/
def freeAll : Nat → Option Nat → Memory ε → Memory ε
  | 0, _, m => m
  | fuel + 1, kill, m =>
    match kill with
    | none => m
    | some a =>
      match m a with
      | none => m
      | some cell => freeAll fuel cell.next (m.free a)

/-! ### Writes to cells that exist -/

theorem setNext_eq_none (m : Memory ε) (a : Nat) (next : Option Nat) (b : Nat) :
    m.setNext (some a) next b = none ↔ m b = none := by
  show Function.update m a ((m a).map fun cell => { cell with next := next }) b = none ↔ _
  by_cases same : b = a
  · rw [same, Function.update_self, Option.map_eq_none_iff]
  · rw [Function.update_of_ne same]

theorem setItem_eq_none (m : Memory ε) (a : Nat) (f : ε → ε) (b : Nat) :
    m.setItem a f b = none ↔ m b = none := by
  unfold setItem
  by_cases same : b = a
  · rw [same, Function.update_self, Option.map_eq_none_iff]
  · rw [Function.update_of_ne same]

/-! ### What a scan does to a list -/

/-- The list after a scan, and the entry it stopped at. -/
def scanned {ι : Type} (expired found : ι → Bool) : List ι → List ι × Option ι
  | [] => ([], none)
  | e :: rest =>
    if expired e then scanned expired found rest
    else if found e then (e :: rest, some e)
    else
      let after := scanned expired found rest
      (e :: after.1, after.2)

section Scanned

variable {ι : Type} (expired found : ι → Bool)

theorem scanned_fresh (l : List ι) :
    ((scanned expired found l).1.filter fun e => !expired e) = l.filter fun e => !expired e := by
  induction l with
  | nil => rfl
  | cons e rest ih =>
    unfold scanned
    by_cases old : expired e = true
    · rw [if_pos old, ih, List.filter_cons_of_neg (by simp [old])]
    · rw [if_neg old]
      split
      · rfl
      · rw [List.filter_cons_of_pos (by simp [old]), List.filter_cons_of_pos (by simp [old]), ih]

theorem scanned_sublist (l : List ι) : (scanned expired found l).1.Sublist l := by
  induction l with
  | nil => exact .refl _
  | cons e rest ih =>
    unfold scanned
    split
    · exact ih.cons e
    · split
      · exact .refl _
      · exact ih.cons_cons e

theorem scanned_of_none {l : List ι} (none_ : (scanned expired found l).2 = none) :
    ∀ e ∈ (scanned expired found l).1, expired e = false := by
  induction l with
  | nil => exact fun e member => absurd member List.not_mem_nil
  | cons head rest ih =>
    unfold scanned at none_ ⊢
    by_cases old : expired head = true
    · rw [if_pos old] at none_ ⊢
      exact ih none_
    · rw [if_neg old] at none_ ⊢
      by_cases here : found head = true
      · rw [if_pos here] at none_
        exact absurd none_ (Option.some_ne_none head)
      · rw [if_neg here] at none_ ⊢
        exact List.forall_mem_cons.mpr ⟨Bool.eq_false_iff.mpr old, ih none_⟩

/-- **A scan finds the first entry that is looked for and has not expired.** -/
theorem scanned_found (l : List ι) :
    (scanned expired found l).2 = l.find? fun e => !expired e && found e := by
  induction l with
  | nil => rfl
  | cons e rest ih =>
    unfold scanned
    by_cases old : expired e = true
    · rw [if_pos old, ih, List.find?_cons_of_neg (by simp [old])]
    · rw [if_neg old]
      split
      · rename_i here
        rw [List.find?_cons_of_pos (by simp [old, here])]
      · rename_i other
        rw [List.find?_cons_of_neg (by simp [other])]
        exact ih

end Scanned

/-! ### Segments -/

/-- From `p` one comes through exactly these cells to `q`. -/
def Segment (m : Memory ε) : Option Nat → List (Nat × ε) → Option Nat → Prop
  | p, [], q => p = q
  | p, (a, e) :: items, q => p = some a ∧ ∃ next, m a = some ⟨e, next⟩ ∧ Segment m next items q

namespace Segment

variable {m other : Memory ε} {p q r : Option Nat} {items more : List (Nat × ε)} {a b : Nat} {e : ε}

theorem append :
    Segment m p (items ++ more) r ↔ ∃ q, Segment m p items q ∧ Segment m q more r := by
  induction items generalizing p with
  | nil => simp [Segment]
  | cons head items ih =>
    constructor
    · rintro ⟨start, next, cell, rest⟩
      obtain ⟨q, first, second⟩ := ih.mp rest
      exact ⟨q, ⟨start, next, cell, first⟩, second⟩
    · rintro ⟨q, ⟨start, next, cell, first⟩, second⟩
      exact ⟨start, next, cell, ih.mpr ⟨q, first, second⟩⟩

theorem congr (segment : Segment m p items q) (same : ∀ i ∈ items, other i.1 = m i.1) :
    Segment other p items q := by
  induction items generalizing p with
  | nil => exact segment
  | cons head items ih =>
    obtain ⟨start, next, cell, rest⟩ := segment
    exact ⟨start, next, (same head List.mem_cons_self).trans cell,
      ih rest fun i member => same i (List.mem_cons_of_mem _ member)⟩

theorem start (segment : Segment m p items none) : p = items.head?.map Prod.fst := by
  cases items with
  | nil => exact segment
  | cons head items => exact segment.1

theorem unique {others : List (Nat × ε)} (segment : Segment m p items none)
    (other : Segment m p others none) : items = others := by
  induction items generalizing p others with
  | nil =>
    cases others with
    | nil => rfl
    | cons head others =>
      obtain rfl : p = none := segment
      exact absurd other.1 (by simp)
  | cons head items ih =>
    obtain ⟨rfl, next, cell, rest⟩ := segment
    cases others with
    | nil => exact absurd (show some head.1 = none from other) (by simp)
    | cons head' others =>
      obtain ⟨same, next', cell', rest'⟩ := other
      obtain ⟨a, e⟩ := head
      obtain ⟨a', e'⟩ := head'
      obtain rfl := Option.some.inj same
      obtain ⟨rfl, rfl⟩ := Cell.mk.inj (Option.some.inj (cell.symm.trans cell'))
      rw [ih rest rest']

theorem alloc (segment : Segment m p items q) {i : Nat × ε} (member : i ∈ items) :
    ∃ next, m i.1 = some ⟨i.2, next⟩ := by
  induction items generalizing p with
  | nil => exact absurd member List.not_mem_nil
  | cons head items ih =>
    obtain ⟨start, next, cell, rest⟩ := segment
    rcases List.mem_cons.mp member with rfl | there
    · exact ⟨next, cell⟩
    · exact ih rest there

theorem free_of_notMem (segment : Segment m p items q) (out : a ∉ items.map Prod.fst) :
    Segment (m.free a) p items q :=
  segment.congr fun i member => Function.update_of_ne
    (fun same : i.1 = a => out (same ▸ List.mem_map_of_mem member)) ..

theorem redirect (segment : Segment m p (items ++ [(b, e)]) q)
    (nodup : ((items ++ [(b, e)]).map Prod.fst).Nodup) (r : Option Nat) :
    Segment (m.setNext (some b) r) p (items ++ [(b, e)]) r := by
  obtain ⟨mid, first, start, next, cell, _⟩ := append.mp segment
  have out : b ∉ items.map Prod.fst := by
    rw [List.map_append, List.nodup_append] at nodup
    exact fun member => nodup.2.2 b member b List.mem_cons_self rfl
  refine append.mpr ⟨mid, first.congr fun i member => Function.update_of_ne
    (fun same : i.1 = b => out (same ▸ List.mem_map_of_mem member)) .., start, r, ?_, rfl⟩
  show Function.update m b _ b = _
  rw [Function.update_self, cell]
  rfl

theorem setItem (segment : Segment m p (items ++ (b, e) :: more) q)
    (nodup : ((items ++ (b, e) :: more).map Prod.fst).Nodup) (f : ε → ε) :
    Segment (m.setItem b f) p (items ++ (b, f e) :: more) q := by
  obtain ⟨mid, first, start, next, cell, rest⟩ := append.mp segment
  rw [List.map_append, List.map_cons, List.nodup_middle, List.nodup_cons, List.mem_append,
    not_or] at nodup
  have keeps : ∀ {part : List (Nat × ε)}, b ∉ part.map Prod.fst →
      ∀ i ∈ part, m.setItem b f i.1 = m i.1 := fun out i member =>
    Function.update_of_ne (fun same : i.1 = b => out (same ▸ List.mem_map_of_mem member)) ..
  refine append.mpr ⟨mid, first.congr (keeps nodup.1.1), start, next, ?_,
    rest.congr (keeps nodup.1.2)⟩
  show Function.update m b _ b = _
  rw [Function.update_self, cell]
  rfl

end Segment

/-! ### The walks -/

section Walks

variable {m : Memory ε} {first last kill : Option Nat} {before rest : List (Nat × ε)}

/-- Where a walk stands: behind `last`, the last cell of `before`. -/
structure Stands (m : Memory ε) (first last kill : Option Nat) (before rest : List (Nat × ε)) :
    Prop where
  passed : Segment m first before kill
  ahead : Segment m kill rest none
  nodup : ((before ++ rest).map Prod.fst).Nodup
  last : last = before.getLast?.map Prod.fst ∨ before = []

theorem Stands.whole (stands : Stands m first last kill before rest) :
    Segment m first (before ++ rest) none := Segment.append.mpr ⟨kill, stands.passed, stands.ahead⟩

theorem Stands.pass {a : Nat} {e : ε} {next : Option Nat}
    (stands : Stands m first last (some a) before ((a, e) :: rest)) (cell : m a = some ⟨e, next⟩) :
    Stands m first (some a) next (before ++ [(a, e)]) rest := by
  obtain ⟨_, next', cell', ahead⟩ := stands.ahead
  obtain rfl : next' = next := by
    rw [cell] at cell'
    cases cell'
    rfl
  refine ⟨Segment.append.mpr ⟨some a, stands.passed, rfl, next', cell, rfl⟩, ahead, ?_, .inl ?_⟩
  · rw [List.append_assoc]
    exact stands.nodup
  · rw [List.getLast?_append]
    rfl

/-- The walk takes a cell out: the cell before it, or the head, leads over it. -/
theorem Stands.cut {a : Nat} {e : ε} {next : Option Nat}
    (stands : Stands m first last (some a) before ((a, e) :: rest)) (cell : m a = some ⟨e, next⟩) :
    (before = [] → first = some a ∧ Stands (m.free a) next next next [] rest) ∧
      (before ≠ [] → first ≠ some a ∧ last ≠ none ∧
        Stands ((m.setNext last next).free a) first last next before rest) := by
  obtain ⟨_, next', cell', ahead⟩ := stands.ahead
  obtain rfl : next' = next := by
    rw [cell] at cell'
    cases cell'
    rfl
  have apart := stands.nodup
  rw [List.map_append, List.nodup_append, List.map_cons, List.nodup_cons] at apart
  obtain ⟨passedOnce, ⟨notAhead, aheadOnce⟩, other⟩ := apart
  have notPassed : a ∉ before.map Prod.fst := fun member => other a member a List.mem_cons_self rfl
  constructor
  · rintro rfl
    exact ⟨stands.passed, rfl, ahead.free_of_notMem notAhead, by simpa using aheadOnce, .inr rfl⟩
  · intro some_
    obtain ⟨init, ⟨b, e'⟩, rfl⟩ := (List.eq_nil_or_concat' before).resolve_left some_
    have isLast : last = some b := by
      rcases stands.last with is_ | none_
      · rw [is_, List.getLast?_append]
        rfl
      · exact absurd none_ some_
    have notB : b ∉ rest.map Prod.fst := fun member =>
      other b (by simp) b (List.mem_cons_of_mem _ member) rfl
    refine ⟨fun here => ?_, by rw [isLast]; simp, ?_, ?_, ?_, .inl ?_⟩
    · have start : first = ((init ++ [(b, e')]).head?.map Prod.fst).or (some a) := by
        have passed := stands.passed
        cases init with
        | nil => exact passed.1
        | cons head init => exact passed.1
      have into : some a = ((init ++ [(b, e')]).head?.map Prod.fst).or (some a) := here ▸ start
      cases init with
      | nil =>
        exact notPassed (by simp [Option.some.inj into])
      | cons head init =>
        exact notPassed (by simp [Option.some.inj into])
    · rw [isLast]
      exact ((stands.passed.redirect (by simpa using passedOnce) next').free_of_notMem notPassed)
    · rw [isLast]
      refine Segment.free_of_notMem (ahead.congr fun i member => ?_) notAhead
      exact Function.update_of_ne
        (fun same : i.1 = b => notB (same ▸ List.mem_map_of_mem member)) ..
    · rw [List.map_append, List.nodup_append]
      exact ⟨passedOnce, aheadOnce, fun x left y right => other x left y (List.mem_cons_of_mem _ right)⟩
    · rw [isLast, List.getLast?_append]
      rfl

/-- A memory after a walk over `items` that leaves `after` of them. -/
structure Walked (items after : List (Nat × ε)) (m other : Memory ε) (first : Option Nat) : Prop where
  segment : Segment other first after none
  frame : ∀ b, b ∉ items.map Prod.fst → other b = m b
  freed : ∀ b ∈ items.map Prod.fst, b ∉ after.map Prod.fst → other b = none

theorem mem_places {a b : Nat} {e : ε} :
    b ∈ (before ++ (a, e) :: rest).map Prod.fst ↔ b = a ∨ b ∈ (before ++ rest).map Prod.fst := by
  simp only [List.map_append, List.map_cons, List.mem_append, List.mem_cons]
  tauto

theorem Walked.after_cut {a : Nat} {e : ε} {other : Memory ε} {after : List (Nat × ε)}
    {cut : Memory ε} {head : Option Nat} (walked : Walked (before ++ rest) after cut other head)
    (gone : cut a = none) (out : a ∉ (before ++ rest).map Prod.fst)
    (frame : ∀ b, b ∉ (before ++ (a, e) :: rest).map Prod.fst → cut b = m b) :
    Walked (before ++ (a, e) :: rest) after m other head where
  segment := walked.segment
  frame b outside := by
    rw [mem_places, not_or] at outside
    rw [walked.frame b outside.2]
    exact frame b (by rw [mem_places, not_or]; exact outside)
  freed b inside left := by
    rcases mem_places.mp inside with rfl | inside
    · rw [walked.frame b out, gone]
    · exact walked.freed b inside left

theorem Walked.after_head {a : Nat} {e : ε} {other : Memory ε} {after : List (Nat × ε)}
    {cut : Memory ε} {head : Option Nat} (walked : Walked rest after cut other head)
    (gone : cut a = none) (out : a ∉ rest.map Prod.fst) (frame : ∀ b, b ≠ a → cut b = m b) :
    Walked ((a, e) :: rest) after m other head := by
  have start : Walked ([] ++ rest) after cut other head := walked
  exact start.after_cut gone out fun b outside =>
    frame b fun same => outside (mem_places.mpr (.inl same))

theorem Stands.notMem {a : Nat} {e : ε}
    (stands : Stands m first last (some a) before ((a, e) :: rest)) :
    a ∉ (before ++ rest).map Prod.fst := by
  have apart := stands.nodup
  rw [List.map_append, List.nodup_append, List.map_cons, List.nodup_cons] at apart
  rw [List.map_append, List.mem_append, not_or]
  exact ⟨fun member => apart.2.2 a member a List.mem_cons_self rfl, apart.2.1.1⟩

theorem Stands.cut_frame {a : Nat} {e : ε} {next : Option Nat}
    (stands : Stands m first last (some a) before ((a, e) :: rest)) (some_ : before ≠ []) (b : Nat)
    (out : b ∉ (before ++ (a, e) :: rest).map Prod.fst) : ((m.setNext last next).free a) b = m b := by
  obtain ⟨init, ⟨c, e'⟩, rfl⟩ := (List.eq_nil_or_concat' before).resolve_left some_
  have isLast : last = some c := by
    rcases stands.last with is_ | none_
    · rw [is_, List.getLast?_append]
      rfl
    · exact absurd none_ some_
  have notA : b ≠ a := fun here => out (mem_places.mpr (.inl here))
  have notC : b ≠ c := fun here => out (mem_places.mpr (.inr (by simp [here])))
  rw [isLast]
  exact (Function.update_of_ne notA ..).trans (Function.update_of_ne notC ..)

theorem Walked.refl {l : List (Nat × ε)} (segment : Segment m first l none) :
    Walked l l m m first :=
  ⟨segment, fun _ _ => rfl, fun _ inside left => absurd inside left⟩

/-- **The walk that frees expired cells does to the list what `scanned` does.** -/
theorem Stands.scan (expired found : ε → Bool) (fuel : Nat) (enough : rest.length ≤ fuel)
    (stands : Stands m first last kill before rest) :
    Walked (before ++ rest)
        (before ++ (scanned (fun i => expired i.2) (fun i => found i.2) rest).1) m
        (m.scan expired found fuel first last kill).1 (m.scan expired found fuel first last kill).2.1 ∧
      (m.scan expired found fuel first last kill).2.2 =
        (scanned (fun i => expired i.2) (fun i => found i.2) rest).2.map Prod.fst := by
  induction rest generalizing m first last kill before fuel with
  | nil =>
    obtain rfl : kill = none := stands.ahead
    have none_ : m.scan expired found fuel first last none = (m, first, none) := by
      cases fuel <;> rfl
    rw [none_]
    exact ⟨.refl stands.whole, rfl⟩
  | cons head rest ih =>
    obtain ⟨a, e⟩ := head
    obtain ⟨fuel, rfl⟩ : ∃ f, fuel = f + 1 := ⟨fuel - 1, by simp at enough; omega⟩
    obtain ⟨rfl, next, cell, _⟩ := stands.ahead
    have enough : rest.length ≤ fuel := by simpa using enough
    have out := stands.notMem
    unfold Memory.scan scanned
    simp only [cell]
    by_cases old : expired e = true
    · rw [if_pos old, if_pos old]
      by_cases start : before = []
      · obtain ⟨here, standing⟩ := (stands.cut cell).1 start
        subst start
        rw [if_pos here]
        obtain ⟨walked, answer⟩ := ih fuel enough standing
        exact ⟨walked.after_head (Function.update_self ..) out fun b apart =>
          Function.update_of_ne apart .., answer⟩
      · obtain ⟨here, _, standing⟩ := (stands.cut cell).2 start
        rw [if_neg here]
        obtain ⟨walked, answer⟩ := ih fuel enough standing
        exact ⟨walked.after_cut (Function.update_self ..) out (stands.cut_frame start), answer⟩
    · rw [if_neg old, if_neg old]
      by_cases wanted : found e = true
      · rw [if_pos wanted, if_pos wanted]
        exact ⟨.refl stands.whole, rfl⟩
      · rw [if_neg wanted, if_neg wanted]
        have walked := ih fuel enough (stands.pass cell)
        simpa only [List.append_assoc, List.singleton_append] using walked

/-- **The walk that frees the first cell that is looked for.** -/
theorem Stands.unlink (hit : ε → Bool) (fuel : Nat) (enough : rest.length ≤ fuel)
    (stands : Stands m first last kill before rest) (behind : before = [] → last = none) :
    Walked (before ++ rest) (before ++ rest.eraseP fun i => hit i.2) m
        (m.unlink hit fuel first last kill).1 (m.unlink hit fuel first last kill).2.1 ∧
      (m.unlink hit fuel first last kill).2.2 = rest.any fun i => hit i.2 := by
  induction rest generalizing m first last kill before fuel with
  | nil =>
    obtain rfl : kill = none := stands.ahead
    have none_ : m.unlink hit fuel first last none = (m, first, false) := by
      cases fuel <;> rfl
    rw [none_]
    exact ⟨.refl stands.whole, rfl⟩
  | cons head rest ih =>
    obtain ⟨a, e⟩ := head
    obtain ⟨fuel, rfl⟩ : ∃ f, fuel = f + 1 := ⟨fuel - 1, by simp at enough; omega⟩
    obtain ⟨rfl, next, cell, _⟩ := stands.ahead
    have enough : rest.length ≤ fuel := by simpa using enough
    have out := stands.notMem
    unfold Memory.unlink
    simp only [cell]
    by_cases wanted : hit e = true
    · rw [if_pos wanted, List.eraseP_cons_of_pos (p := fun i : Nat × ε => hit i.2) wanted]
      by_cases start : before = []
      · obtain ⟨here, standing⟩ := (stands.cut cell).1 start
        rw [behind start]
        subst start
        have walked := Walked.refl standing.whole
        exact ⟨walked.after_head (Function.update_self ..) out fun b apart =>
          Function.update_of_ne apart .., by simp [wanted]⟩
      · obtain ⟨here, behind, standing⟩ := (stands.cut cell).2 start
        obtain ⟨b, rfl⟩ := Option.ne_none_iff_exists'.mp behind
        exact ⟨(Walked.refl standing.whole).after_cut (Function.update_self ..) out
          (stands.cut_frame start), by simp [wanted]⟩
    · rw [if_neg wanted, List.eraseP_cons_of_neg (by simpa using wanted)]
      obtain ⟨walked, answer⟩ := ih fuel enough (stands.pass cell) (by simp)
      refine ⟨by simpa only [List.append_assoc, List.singleton_append] using walked, ?_⟩
      rw [answer]
      simp [wanted]

/-- **The walk that frees every cell.** -/
theorem Segment.freeAll (fuel : Nat) (enough : rest.length ≤ fuel) (segment : Segment m kill rest none)
    (nodup : (rest.map Prod.fst).Nodup) : Walked rest [] m (m.freeAll fuel kill) none := by
  suffices effect : (∀ b, b ∉ rest.map Prod.fst → m.freeAll fuel kill b = m b) ∧
      ∀ b ∈ rest.map Prod.fst, m.freeAll fuel kill b = none from
    ⟨rfl, effect.1, fun b inside _ => effect.2 b inside⟩
  induction rest generalizing m kill fuel with
  | nil =>
    obtain rfl : kill = none := segment
    cases fuel <;> simp [Memory.freeAll]
  | cons head rest ih =>
    obtain ⟨a, e⟩ := head
    obtain ⟨fuel, rfl⟩ : ∃ f, fuel = f + 1 := ⟨fuel - 1, by simp at enough; omega⟩
    obtain ⟨rfl, next, cell, ahead⟩ := segment
    obtain ⟨out, nodup⟩ := List.nodup_cons.mp nodup
    obtain ⟨frame, freed⟩ := ih fuel (by simpa using enough) (ahead.free_of_notMem out) nodup
    have step : m.freeAll (fuel + 1) (some a) = (m.free a).freeAll fuel next := by
      rw [Memory.freeAll]
      simp only [cell]
    rw [step]
    constructor
    · intro b outside
      rw [List.map_cons, List.mem_cons, not_or] at outside
      rw [frame b outside.2]
      exact Function.update_of_ne outside.1 ..
    · intro b inside
      rcases List.mem_cons.mp inside with rfl | inside
      · rw [frame _ out]
        exact Function.update_self ..
      · exact freed b inside

theorem Segment.stands (segment : Segment m kill rest none) (nodup : (rest.map Prod.fst).Nodup) :
    Stands m kill kill kill [] rest :=
  ⟨rfl, segment, nodup, .inr rfl⟩

theorem scanned_head (expired found : ε → Bool) (l : List (Nat × ε))
    (fresh : ∀ i, l.head? = some i → expired i.2 = false) :
    (scanned (fun i => expired i.2) (fun i => found i.2) l).1.head? = l.head? := by
  cases l with
  | nil => rfl
  | cons i rest =>
    unfold scanned
    rw [if_neg (by rw [fresh i rfl]; simp)]
    split <;> rfl

end Walks

/-! ### Two lists -/

/-- The memory holds exactly the cells of two lists, each once. -/
structure Holds (m : Memory ε) (p q : Option Nat) (left right : List (Nat × ε)) : Prop where
  first : Segment m p left none
  second : Segment m q right none
  once : ((left ++ right).map Prod.fst).Nodup
  owned : ∀ a, m a ≠ none → a ∈ (left ++ right).map Prod.fst

namespace Holds

variable {m other : Memory ε} {p q first : Option Nat} {left right after : List (Nat × ε)}

theorem symm (holds : Holds m p q left right) : Holds m q p right left where
  first := holds.second
  second := holds.first
  once := by
    have once := holds.once
    rw [List.map_append] at once ⊢
    exact List.nodup_append_comm.mp once
  owned a there := by
    have member := holds.owned a there
    rw [List.map_append, List.mem_append] at member ⊢
    exact member.symm

theorem left_nodup (holds : Holds m p q left right) : (left.map Prod.fst).Nodup := by
  have once := holds.once
  rw [List.map_append] at once
  exact once.of_append_left

theorem walk (holds : Holds m p q left right) (walked : Walked left after m other first)
    (fewer : after.Sublist left) : Holds other first q after right where
  first := walked.segment
  second := holds.second.congr fun i member => walked.frame i.1 fun inside => by
    have once := holds.once
    rw [List.map_append, List.nodup_append] at once
    exact once.2.2 i.1 inside i.1 (List.mem_map_of_mem member) rfl
  once := holds.once.sublist ((fewer.append_right right).map Prod.fst)
  owned a there := by
    rw [List.map_append, List.mem_append]
    by_cases inside : a ∈ left.map Prod.fst
    · by_contra gone
      exact there (walked.freed a inside fun stays => gone (.inl stays))
    · rw [walked.frame a inside] at there
      have member := holds.owned a there
      rw [List.map_append, List.mem_append] at member
      exact .inr (member.resolve_left inside)

theorem push (holds : Holds m p q left right) {a : Nat} (room : m a = none) (e : ε) :
    Holds (Function.update m a (some ⟨e, p⟩)) (some a) q ((a, e) :: left) right := by
  have apart : ∀ {items : List (Nat × ε)} {b : Option Nat}, Segment m b items none →
      ∀ i ∈ items, i.1 ≠ a := by
    intro items b segment i member same
    obtain ⟨next, cell⟩ := segment.alloc member
    rw [same, room] at cell
    exact absurd cell (by simp)
  refine ⟨⟨rfl, p, Function.update_self .., ?_⟩, ?_, ?_, ?_⟩
  · exact holds.first.congr fun i member => Function.update_of_ne (apart holds.first i member) ..
  · exact holds.second.congr fun i member => Function.update_of_ne (apart holds.second i member) ..
  · rw [List.cons_append, List.map_cons, List.nodup_cons]
    refine ⟨fun inside => ?_, holds.once⟩
    obtain ⟨i, member, same⟩ := List.mem_map.mp inside
    rcases List.mem_append.mp member with member | member
    · exact apart holds.first i member same
    · exact apart holds.second i member same
  · intro b there
    rw [List.cons_append, List.map_cons, List.mem_cons]
    by_cases here : b = a
    · exact .inl here
    · rw [Function.update_of_ne here] at there
      exact .inr (holds.owned b there)

theorem empty : Holds (fun _ => none : Memory ε) none none [] [] :=
  ⟨rfl, rfl, List.nodup_nil, fun _ there => absurd rfl there⟩

end Holds

end Memory

end PtlinkIrcd.Lib
