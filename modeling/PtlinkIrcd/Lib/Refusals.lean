/-
**Lists that refuse what they cover.**

Entries end at a time. A new entry is refused when the list holds one that covers it, and every
search frees the ended entries that it passes.

* `look` — a search; `look_isSome` says when it finds an entry.
* `submit` — the arrival of a new entry.
* `Served` — what was sent is in the list, has ended, or was refused for something sent earlier;
  searches and arrivals keep it (`Served.look`, `Served.submit`).
* `Served.found_iff` — **a search finds an entry exactly when one was sent that is wanted and has not
  ended**, if one of these is refused only by such entries.
-/

import PtlinkIrcd.Lib.Chains

set_option linter.unusedSectionVars false

namespace PtlinkIrcd.Lib.Refusals

variable {ρ : Type} (hold : ρ → Int) (refuses : ρ → ρ → Bool)

/-! ### Operations -/

/-- Ended at this time. -/
def ended (now : Int) (r : ρ) : Bool := hold r ≤ now

/-- A search at a time: the list without the ended entries that it passed, and what it found. -/
def look (now : Int) (wanted : ρ → Bool) (list : List ρ) : List ρ × Option ρ :=
  Memory.scanned (ended hold now) wanted list

/-- The arrival of an entry. -/
def submit (now : Int) (list : List ρ) (r : ρ) : List ρ :=
  let looked := look hold now (fun e => refuses e r) list
  if looked.2.isSome then looked.1 else r :: looked.1

/-! ### Searches -/

section Look

variable {hold} {now t : Int} {wanted : ρ → Bool} {list : List ρ} {r e : ρ}

theorem ended_eq_false : ended hold now r = false ↔ now < hold r := by
  simp [ended]

theorem mem_of_mem_look (member : r ∈ (look hold now wanted list).1) : r ∈ list :=
  (Memory.scanned_sublist ..).mem member

theorem mem_look (member : r ∈ list) (early : now < hold r) :
    r ∈ (look hold now wanted list).1 := by
  have fresh := Memory.scanned_fresh (ended hold now) wanted list
  have stays : r ∈ list.filter fun r => !ended hold now r :=
    List.mem_filter.mpr ⟨member, by rw [ended_eq_false.mpr early]; rfl⟩
  rw [← fresh] at stays
  exact (List.mem_filter.mp stays).1

theorem early_of_mem_look (none_ : (look hold now wanted list).2 = none)
    (member : r ∈ (look hold now wanted list).1) : now < hold r :=
  ended_eq_false.mp (Memory.scanned_of_none _ _ none_ r member)

theorem mem_look_or (wanted : ρ → Bool) (member : r ∈ list) (later : now ≤ t) :
    r ∈ (look hold now wanted list).1 ∨ hold r ≤ t := by
  by_cases early : now < hold r
  · exact .inl (mem_look member early)
  · exact .inr (by omega)

theorem look_eq_some (found : (look hold now wanted list).2 = some e) :
    e ∈ list ∧ now < hold e ∧ wanted e = true := by
  rw [look, Memory.scanned_found] at found
  have hit := List.find?_some found
  rw [Bool.and_eq_true, Bool.not_eq_true', ended_eq_false] at hit
  exact ⟨List.mem_of_find?_eq_some found, hit⟩

/-- **A search finds an entry exactly when the list holds one.** -/
theorem look_isSome : (look hold now wanted list).2.isSome = true ↔
    ∃ e ∈ list, now < hold e ∧ wanted e = true := by
  rw [look, Memory.scanned_found, List.find?_isSome]
  constructor
  · rintro ⟨e, member, hit⟩
    rw [Bool.and_eq_true, Bool.not_eq_true', ended_eq_false] at hit
    exact ⟨e, member, hit⟩
  · rintro ⟨e, member, early, hit⟩
    exact ⟨e, member, by rw [ended_eq_false.mpr early, hit]; rfl⟩

theorem submit_of_some {refuses : ρ → ρ → Bool}
    (found : (look hold now (fun e => refuses e r) list).2 = some e) :
    submit hold refuses now list r = (look hold now (fun e => refuses e r) list).1 := by
  simp [submit, found]

theorem submit_of_none {refuses : ρ → ρ → Bool}
    (found : (look hold now (fun e => refuses e r) list).2 = none) :
    submit hold refuses now list r = r :: (look hold now (fun e => refuses e r) list).1 := by
  simp [submit, found]

theorem mem_of_mem_submit {refuses : ρ → ρ → Bool} (member : e ∈ submit hold refuses now list r) :
    e = r ∨ e ∈ list := by
  unfold submit at member
  dsimp only at member
  split_ifs at member
  · exact .inr (mem_of_mem_look member)
  · exact (List.mem_cons.mp member).imp id mem_of_mem_look

end Look

/-! ### What was sent -/

/-- An entry is wanted at a time, and has not ended. -/
def Wants (t : Int) (wanted : ρ → Bool) (r : ρ) : Prop := t < hold r ∧ wanted r = true

/-- `list` serves what was sent, the last one first, as far as a time `t` is concerned. -/
structure Served (t : Int) (sent list : List ρ) : Prop where
  sound : ∀ e ∈ list, e ∈ sent
  complete : ∀ r ∈ sent, r ∈ list ∨ hold r ≤ t ∨
    ∃ e, [r, e].Sublist sent ∧ refuses e r = true ∧ (e ∈ list ∨ hold e ≤ t)

namespace Served

variable {hold refuses} {now t : Int} {wanted : ρ → Bool} {sent list : List ρ}

theorem nil : Served hold refuses t [] [] := ⟨nofun, nofun⟩

theorem look (served : Served hold refuses t sent list) (later : now ≤ t) (wanted : ρ → Bool) :
    Served hold refuses t sent (look hold now wanted list).1 where
  sound e member := served.sound e (mem_of_mem_look member)
  complete r member := by
    rcases served.complete r member with there | ended_ | ⟨e, order, refused, there | ended_⟩
    · rcases mem_look_or wanted there later with stays | ended_
      · exact .inl stays
      · exact .inr (.inl ended_)
    · exact .inr (.inl ended_)
    · exact .inr (.inr ⟨e, order, refused, mem_look_or wanted there later⟩)
    · exact .inr (.inr ⟨e, order, refused, .inr ended_⟩)

/-- **The arrival of an entry.** -/
theorem submit (served : Served hold refuses t sent list) (later : now ≤ t) (r : ρ) :
    Served hold refuses t (r :: sent) (submit hold refuses now list r) := by
  have looked := served.look later fun e => refuses e r
  cases found : (Refusals.look hold now (fun e => refuses e r) list).2 with
  | some e =>
    obtain ⟨member, _, refused⟩ := look_eq_some found
    rw [submit_of_some found]
    have there : e ∈ (Refusals.look hold now (fun e => refuses e r) list).1 ∨ hold e ≤ t :=
      mem_look_or _ member later
    refine ⟨fun e member => List.mem_cons_of_mem _ (looked.sound e member), fun r' member' => ?_⟩
    rcases List.mem_cons.mp member' with rfl | member'
    · have order : [r', e].Sublist (r' :: sent) :=
        (List.singleton_sublist.mpr (served.sound e member)).cons_cons r'
      exact .inr (.inr ⟨e, order, refused, there⟩)
    · rcases looked.complete r' member' with there | ended_ | ⟨e', order, rest⟩
      · exact .inl there
      · exact .inr (.inl ended_)
      · exact .inr (.inr ⟨e', order.cons r, rest⟩)
  | none =>
    rw [submit_of_none found]
    refine ⟨fun e member => ?_, fun r' member' => ?_⟩
    · rcases List.mem_cons.mp member with rfl | member
      · exact List.mem_cons_self
      · exact List.mem_cons_of_mem _ (looked.sound e member)
    · rcases List.mem_cons.mp member' with rfl | member'
      · exact .inl List.mem_cons_self
      · rcases looked.complete r' member' with there | ended_ | ⟨e', order, refused, there⟩
        · exact .inl (List.mem_cons_of_mem _ there)
        · exact .inr (.inl ended_)
        · exact .inr (.inr ⟨e', order.cons r, refused, there.imp_left (List.mem_cons_of_mem _)⟩)

/-- **A search finds an entry exactly when one was sent that is wanted**, if one of these is refused
only for others of them. -/
theorem found_iff (served : Served hold refuses t sent list) (wanted : ρ → Bool)
    (clear : (∃ r ∈ sent, Wants hold t wanted r) → ∃ r ∈ sent, Wants hold t wanted r ∧
      ∀ e, [r, e].Sublist sent → refuses e r = true → Wants hold t wanted e) :
    (Refusals.look hold t wanted list).2.isSome = true ↔ ∃ r ∈ sent, Wants hold t wanted r := by
  rw [look_isSome]
  constructor
  · rintro ⟨e, member, wants⟩
    exact ⟨e, served.sound e member, wants⟩
  · intro some_
    obtain ⟨r, member, wants, only⟩ := clear some_
    rcases served.complete r member with there | ended_ | ⟨e, order, refused, there⟩
    · exact ⟨r, there, wants⟩
    · exact absurd wants.1 (by omega)
    · have wants' := only e order refused
      rcases there with there | ended_
      · exact ⟨e, there, wants'⟩
      · exact absurd wants'.1 (by omega)

end Served

end PtlinkIrcd.Lib.Refusals
