/-
**The search of a mask list, link by link.**

`find_str_match_link` of `m_list.c` on the links of the list. It is given the place of the head of the
list, and both of its pointers stay there.

* `find_str_match_link_at` — the function, with its loop `findLinkLoop`, on a memory of links.
* `find_str_match_link_at_spec` — it does to the list what `find_str_match_link` does to its masks.
* `mask_search_iff` — **no link is lost exactly if there is one link at most, or the first one matches**.
-/

import PtlinkIrcd.Channel.ListFilters
import PtlinkIrcd.Lib.Chains

namespace PtlinkIrcd

open Lib Lib.Memory

/-! ### The function -/

/-- What a search leaves: the links, the pointer at the head of the list, and the value that is
returned. -/
structure LinkSearch where
  memory : Memory Text
  head : Option Nat
  found : Bool

/-- The loop of `find_str_match_link`, where `top` is what `lp` points to. `head` is equal to `lp`, so
that `*lp` and `*head` are one pointer, and each step of the loop writes to it. -/
def findLinkLoop (str : Text) : Nat → Memory Text → Option Nat → Option LinkSearch
  | 0, _, _ => none
  | fuel + 1, m, top => do
    let link ← m (← top)
    match link.next with
    | none => some ⟨m, top, false⟩
    | some temp =>
      let next ← m temp
      if ircMatch next.item str then
        let top := next.next
        some ⟨m.setNext (some temp) top, some temp, true⟩
      else findLinkLoop str fuel m (some temp)

/-- `find_str_match_link` on links. -/
def find_str_match_link_at (str : Text) (fuel : Nat) (m : Memory Text) (top : Option Nat) :
    Option LinkSearch :=
  match top with
  | none => some ⟨m, none, false⟩
  | some first => do
    let link ← m first
    if ircMatch link.item str then some ⟨m, some first, true⟩ else findLinkLoop str fuel m (some first)

/-! ### What it leaves of the list -/

variable {m : Memory Text} {top : Option Nat} {links : List (Nat × Text)} {fuel : Nat}

theorem setNext_same {a : Nat} {cell : Cell Text} (here : m a = some cell) :
    m.setNext (some a) cell.next = m := by
  show Function.update m a ((m a).map fun cell' => { cell' with next := cell.next }) = m
  rw [here]
  exact (congrArg (Function.update m a) here.symm).trans (Function.update_eq_self a m)

/-- What is left is a part of the list, and its masks are those that the search of lists leaves. -/
structure Searched (str : Text) (links : List (Nat × Text)) (m : Memory Text) (after : LinkSearch)
    (left : List (Nat × Text)) : Prop where
  same : after.memory = m
  segment : Segment m after.head left none
  part : left <:+ links
  masks : left.map Prod.snd = (find_str_match_link (links.map Prod.snd) str).2
  found : after.found = (find_str_match_link (links.map Prod.snd) str).1

theorem findLinkLoop_spec (str : Text) {link : Nat × Text} (list : Segment m top (link :: links) none)
    (other : ircMatch link.2 str = false) (enough : links.length < fuel) :
    ∃ after left, findLinkLoop str fuel m top = some after ∧ Searched str (link :: links) m after left := by
  induction links generalizing fuel top link with
  | nil =>
    obtain ⟨fuel, rfl⟩ : ∃ k, fuel = k + 1 := ⟨fuel - 1, by simp at enough; omega⟩
    obtain ⟨rfl, next, cell, rest⟩ := list
    obtain rfl : next = none := rest
    refine ⟨⟨m, some link.1, false⟩, [link], by simp [findLinkLoop, cell], ⟨rfl, ?_, List.suffix_refl _, rfl, ?_⟩⟩
    · exact ⟨rfl, none, cell, rfl⟩
    · exact other.symm
  | cons next rest ih =>
    obtain ⟨fuel, rfl⟩ : ∃ k, fuel = k + 1 := ⟨fuel - 1, by simp at enough; omega⟩
    obtain ⟨rfl, temp, cell, list⟩ := list
    obtain ⟨rfl, after, cellNext, tail⟩ := id list
    by_cases here : ircMatch next.2 str = true
    · have unchanged : m.setNext (some next.1) after = m := setNext_same cellNext
      refine ⟨⟨m, some next.1, true⟩, next :: rest, ?_, ⟨rfl, list, List.suffix_cons _ _, ?_, ?_⟩⟩
      · simp [findLinkLoop, cell, cellNext, here, unchanged]
      · cases rest <;> simp [find_str_match_link, other, here]
      · cases rest <;> simp [find_str_match_link, other, here]
    · have later : ircMatch next.2 str = false := Bool.eq_false_iff.mpr here
      obtain ⟨out, left, run, searched⟩ := ih list later (by simpa using enough)
      refine ⟨out, left, ?_, ⟨searched.same, searched.segment, searched.part.trans (List.suffix_cons _ _), ?_, ?_⟩⟩
      · simpa [findLinkLoop, cell, cellNext, later] using run
      · simpa [find_str_match_link, other] using searched.masks
      · simpa [find_str_match_link, other] using searched.found

/-- **The links that are left have the masks that `find_str_match_link` leaves.** -/
theorem find_str_match_link_at_spec (str : Text) (list : Segment m top links none)
    (enough : links.length ≤ fuel) :
    ∃ after left, find_str_match_link_at str fuel m top = some after ∧ Searched str links m after left := by
  cases links with
  | nil =>
    obtain rfl : top = none := list
    exact ⟨⟨m, none, false⟩, [], rfl, ⟨rfl, rfl, List.suffix_refl _, rfl, rfl⟩⟩
  | cons link rest =>
    have start : top = some link.1 := list.1
    obtain ⟨next, cell⟩ := list.alloc List.mem_cons_self
    by_cases here : ircMatch link.2 str = true
    · refine ⟨⟨m, top, true⟩, link :: rest, ?_, ⟨rfl, list, List.suffix_refl _, ?_, ?_⟩⟩
      · simp [find_str_match_link_at, start, cell, here]
      · cases rest <;> simp [find_str_match_link, here]
      · cases rest <;> simp [find_str_match_link, here]
    · have other : ircMatch link.2 str = false := Bool.eq_false_iff.mpr here
      obtain ⟨out, left, run, searched⟩ := findLinkLoop_spec str list other (Nat.lt_of_succ_le enough)
      refine ⟨out, left, ?_, searched⟩
      subst start
      simpa [find_str_match_link_at, cell, other] using run

/-! ### Whether a link is lost -/

/-- **The search tells whether a mask matches, and keeps the links**, one that matches in front. -/
structure LinksKept (str : Text) (links : List (Nat × Text)) (after : LinkSearch) : Prop where
  found : after.found = true ↔ ∃ link ∈ links, ircMatch link.2 str = true
  kept : ∃ left, Segment after.memory after.head left none ∧ left.Perm links ∧
    (after.found = true → ∃ link ∈ left.head?, ircMatch link.2 str = true)

theorem find_str_match_link_length {str : Text} {first : Text} {masks : List Text}
    (several : masks ≠ []) (other : ircMatch first str = false) :
    (find_str_match_link (first :: masks) str).2.length ≤ masks.length := by
  obtain ⟨next, rest, rfl⟩ := List.exists_cons_of_ne_nil several
  have passed : find_str_match_link (first :: next :: rest) str = find_str_match_link (next :: rest) str := by
    simp [find_str_match_link, other]
  rw [passed]
  exact (find_str_match_link_suffix _ _).length_le

theorem find_str_match_link_head (masks : List Text) (str : Text)
    (found : (find_str_match_link masks str).1 = true) :
    ∃ mask ∈ (find_str_match_link masks str).2.head?, ircMatch mask str = true := by
  fun_induction find_str_match_link masks str with
  | case1 => exact absurd found Bool.false_ne_true
  | case2 mask => exact ⟨mask, rfl, found⟩
  | case3 mask next rest _ here => exact ⟨mask, rfl, here⟩
  | case4 mask next rest _ other ih => exact ih found

/-- **No link is lost exactly if there is one link at most, or the first one matches.** -/
theorem mask_search_iff (str : Text) (list : Segment m top links none) (enough : links.length ≤ fuel) :
    (∃ after, find_str_match_link_at str fuel m top = some after ∧ LinksKept str links after) ↔
      links.length ≤ 1 ∨ ∃ link ∈ links.head?, ircMatch link.2 str = true := by
  obtain ⟨after, left, run, searched⟩ := find_str_match_link_at_spec str list enough
  constructor
  · rintro ⟨after', run', kept⟩
    obtain rfl := Option.some.inj (run.symm.trans run')
    by_contra lost
    rw [not_or, not_le] at lost
    obtain ⟨several, first⟩ := lost
    obtain ⟨link, rest, rfl⟩ := List.exists_cons_of_length_pos (by omega : 0 < links.length)
    obtain ⟨left', segment, perm, -⟩ := kept.kept
    rw [searched.same] at segment
    obtain rfl := searched.segment.unique segment
    have other : ircMatch link.2 str = false := Bool.eq_false_iff.mpr fun here => first ⟨link, rfl, here⟩
    have more : rest.map Prod.snd ≠ [] := by
      rintro none_
      simp [List.map_eq_nil_iff.mp none_] at several
    have fewer := find_str_match_link_length more other
    rw [← List.map_cons, ← searched.masks, List.length_map, List.length_map, perm.length_eq] at fewer
    simp at fewer
  · intro safe
    have all : left = links := by
      refine searched.part.eq_of_length ?_
      have length := congrArg List.length searched.masks
      rw [List.length_map] at length
      rw [length]
      rcases safe with few | ⟨link, front, here⟩
      · match links, few with
        | [], _ => rfl
        | [link], _ => rfl
      · obtain ⟨rest, rfl⟩ := List.head?_eq_some_iff.mp front
        cases rest <;> simp [find_str_match_link, here]
    refine ⟨after, run, ⟨?_, left, searched.same ▸ searched.segment, .of_eq all, ?_⟩⟩
    · rw [searched.found, find_str_match_link_iff]
      constructor
      · rintro ⟨mask, member, here⟩
        obtain ⟨link, inside, rfl⟩ := List.exists_of_mem_map member
        exact ⟨link, inside, here⟩
      · rintro ⟨link, inside, here⟩
        exact ⟨link.2, List.mem_map_of_mem inside, here⟩
    · intro found
      rw [searched.found] at found
      obtain ⟨mask, front, here⟩ := find_str_match_link_head _ _ found
      rw [← searched.masks, List.head?_map] at front
      obtain ⟨link, first, rfl⟩ := Option.map_eq_some_iff.mp front
      exact ⟨link, first, here⟩

def sampleLinks (first second : String) : Memory Text
  | 0 => some ⟨first.toList, some 1⟩
  | 1 => some ⟨second.toList, none⟩
  | _ => none

theorem sampleLinks_segment (first second : String) :
    Segment (sampleLinks first second) (some 0) [(0, first.toList), (1, second.toList)] none :=
  ⟨rfl, some 1, rfl, rfl, none, rfl, rfl⟩

/-- The first of two masks matches. -/
theorem mask_search_iff_sample :
    (∃ after, find_str_match_link_at "#a".toList 2 (sampleLinks "#a" "#b") (some 0) = some after ∧
        LinksKept "#a".toList [(0, "#a".toList), (1, "#b".toList)] after) ↔
      2 ≤ 1 ∨ ∃ link ∈ some (0, "#a".toList), ircMatch link.2 "#a".toList = true :=
  mask_search_iff "#a".toList (sampleLinks_segment "#a" "#b") (by decide)

/-- **The second of two masks matches**: the first one is lost. -/
theorem not_mask_search : ¬ ∀ (str : Text) (m : Memory Text) (top : Option Nat)
    (links : List (Nat × Text)) (fuel : Nat), Segment m top links none → links.length ≤ fuel →
      ∃ after, find_str_match_link_at str fuel m top = some after ∧ LinksKept str links after := by
  intro all
  obtain ⟨after, run, kept⟩ := all "#b".toList _ _ _ 2 (sampleLinks_segment "#a" "#b") (by decide)
  obtain ⟨after', left, run', searched⟩ :=
    find_str_match_link_at_spec "#b".toList (sampleLinks_segment "#a" "#b") (le_refl 2)
  obtain rfl := Option.some.inj (run.symm.trans run')
  obtain ⟨left', segment, perm, -⟩ := kept.kept
  rw [searched.same] at segment
  obtain rfl := searched.segment.unique segment
  have fewer : left.length = 1 := by
    rw [← List.length_map Prod.snd, searched.masks]
    decide
  exact absurd (fewer.symm.trans perm.length_eq) (by decide)

end PtlinkIrcd
