/-
**Chained hash tables.**

A table is a family of chains, one a bucket; an entry is pushed at the head of its bucket's chain,
taken out of the first place it stands in, and looked up by scanning one chain.

* `Holds key entries t` — the table holds exactly `entries`, each once, in the bucket of its key.
  Closed under `add` of a new entry (`Holds.add`), `del` of a held one (`Holds.del`) and a change of
  keys off the entries (`Holds.congr`).
* `find_some` — what a lookup returns is in the scanned chain and passes the test.
-/

import Mathlib.Data.List.Nodup
import Mathlib.Logic.Function.Basic

set_option linter.unusedSectionVars false

namespace PtlinkIrcd.Lib

/-- A chained table: the chain of every bucket, newest entry first. -/
abbrev ChainTable (α : Type) := Nat → List α

namespace ChainTable

variable {α : Type} [DecidableEq α]

/-! ### Operations -/

/-- The table with empty chains. -/
def empty : ChainTable α := fun _ => []

/-- Push an entry at the head of its bucket's chain. -/
def add (bucket : Nat) (entry : α) (t : ChainTable α) : ChainTable α :=
  Function.update t bucket (entry :: t bucket)

/-- Take an entry out of its bucket's chain. -/
def del (bucket : Nat) (entry : α) (t : ChainTable α) : ChainTable α :=
  Function.update t bucket ((t bucket).erase entry)

/-- The first entry of a bucket's chain that passes a test. -/
def find (bucket : Nat) (test : α → Bool) (t : ChainTable α) : Option α :=
  (t bucket).find? test

theorem find_some {bucket : Nat} {test : α → Bool} {t : ChainTable α} {entry : α}
    (found : find bucket test t = some entry) : entry ∈ t bucket ∧ test entry = true :=
  ⟨List.mem_of_find?_eq_some found, List.find?_some found⟩

/-- What is found is found after a push, by any test that still holds of it. -/
theorem isSome_find_add {bucket other : Nat} {test after : α → Bool} {t : ChainTable α}
    (found : (find bucket test t).isSome = true) (keeps : ∀ v, test v = true → after v = true)
    (entry : α) : (find bucket after (t.add other entry)).isSome = true := by
  unfold find at found ⊢
  rw [List.find?_isSome] at found ⊢
  obtain ⟨v, member, same⟩ := found
  refine ⟨v, ?_, keeps v same⟩
  unfold add
  by_cases here : bucket = other
  · rw [here, Function.update_self]
    exact List.mem_cons_of_mem _ (here ▸ member)
  · rw [Function.update_of_ne here]
    exact member

/-! ### What a table holds -/

/-- The table holds exactly `entries`, each once, in the bucket of its key. -/
structure Holds (key : α → Nat) (entries : List α) (t : ChainTable α) : Prop where
  nodup : ∀ bucket, (t bucket).Nodup
  mem : ∀ bucket entry, entry ∈ t bucket ↔ entry ∈ entries ∧ key entry = bucket

namespace Holds

variable {key : α → Nat} {entries : List α} {t : ChainTable α}

theorem empty : Holds key [] (empty : ChainTable α) where
  nodup _ := List.nodup_nil
  mem _ _ := by simp [ChainTable.empty]

/-- **Adding a new entry.** -/
theorem add (holds : Holds key entries t) {entry : α} (fresh : entry ∉ entries) :
    Holds key (entry :: entries) (t.add (key entry) entry) where
  nodup bucket := by
    by_cases same : bucket = key entry
    · subst same
      have absent : entry ∉ t (key entry) := fun member => fresh ((holds.mem _ _).mp member).1
      rw [ChainTable.add, Function.update_self]
      exact List.nodup_cons.mpr ⟨absent, holds.nodup _⟩
    · rw [ChainTable.add, Function.update_of_ne same]
      exact holds.nodup bucket
  mem bucket other := by
    by_cases same : bucket = key entry
    · subst same
      rw [ChainTable.add, Function.update_self, List.mem_cons, List.mem_cons, holds.mem]
      constructor
      · rintro (rfl | ⟨member, hkey⟩)
        · exact ⟨.inl rfl, rfl⟩
        · exact ⟨.inr member, hkey⟩
      · rintro ⟨rfl | member, hkey⟩
        · exact .inl rfl
        · exact .inr ⟨member, hkey⟩
    · rw [ChainTable.add, Function.update_of_ne same, holds.mem, List.mem_cons]
      constructor
      · rintro ⟨member, hkey⟩
        exact ⟨.inr member, hkey⟩
      · rintro ⟨rfl | member, hkey⟩
        · exact absurd hkey.symm same
        · exact ⟨member, hkey⟩

/-- **Deleting an entry from the bucket of its key.** -/
theorem del (holds : Holds key entries t) (once : entries.Nodup) (entry : α) :
    Holds key (entries.erase entry) (t.del (key entry) entry) where
  nodup bucket := by
    by_cases same : bucket = key entry
    · subst same
      rw [ChainTable.del, Function.update_self]
      exact (holds.nodup _).erase _
    · rw [ChainTable.del, Function.update_of_ne same]
      exact holds.nodup bucket
  mem bucket other := by
    by_cases same : bucket = key entry
    · subst same
      rw [ChainTable.del, Function.update_self, (holds.nodup _).mem_erase_iff,
        once.mem_erase_iff, holds.mem, and_assoc]
    · rw [ChainTable.del, Function.update_of_ne same, holds.mem, once.mem_erase_iff]
      constructor
      · rintro ⟨member, hkey⟩
        refine ⟨⟨?_, member⟩, hkey⟩
        rintro rfl
        exact same hkey.symm
      · rintro ⟨⟨-, member⟩, hkey⟩
        exact ⟨member, hkey⟩

theorem congr (holds : Holds key entries t) {other : α → Nat}
    (agree : ∀ entry ∈ entries, other entry = key entry) : Holds other entries t where
  nodup := holds.nodup
  mem bucket entry := by
    rw [holds.mem]
    constructor
    · rintro ⟨member, hkey⟩
      exact ⟨member, (agree _ member).trans hkey⟩
    · rintro ⟨member, hkey⟩
      exact ⟨member, (agree _ member).symm.trans hkey⟩

theorem perm (holds : Holds key entries t) {other : List α} (perm : entries.Perm other) : Holds key other t where
  nodup := holds.nodup
  mem bucket entry := by rw [holds.mem, perm.mem_iff]

end Holds

end ChainTable

end PtlinkIrcd.Lib
