/-
**Writes to a store.**

A store is a function from keys to values, and a list of writes changes it one after the other.

* `lastWrite` — the value that the last write to a key has.
* `writeAll_apply` — after the writes a key has that value, or its old one.
* `writeAll_eq_iff` — **two lists of writes do the same to every store exactly when their last writes to
  every key are the same**.
-/

import Mathlib.Logic.Function.Basic
import Mathlib.Logic.Nontrivial.Basic

namespace PtlinkIrcd.Lib

variable {K V : Type} [DecidableEq K]

/-- The writes, one after the other. -/
def writeAll (writes : List (K × V)) (f : K → V) : K → V :=
  writes.foldl (fun f w => Function.update f w.1 w.2) f

/-- The value of the last write to a key. -/
def lastWrite : List (K × V) → K → Option V
  | [], _ => none
  | w :: writes, k => (lastWrite writes k).or (if w.1 = k then some w.2 else none)

variable {writes other : List (K × V)} {k : K}

theorem writeAll_apply (writes : List (K × V)) (f : K → V) (k : K) :
    writeAll writes f k = (lastWrite writes k).getD (f k) := by
  induction writes generalizing f with
  | nil => rfl
  | cons w writes ih =>
    rw [writeAll, List.foldl_cons, ← writeAll, ih, lastWrite]
    cases lastWrite writes k with
    | some v => rfl
    | none =>
      by_cases here : w.1 = k
      · rw [if_pos here, ← here, Function.update_self]
        rfl
      · rw [if_neg here, Function.update_of_ne (Ne.symm here)]
        rfl

/-- **Writes do the same to every store when their last writes are the same.** -/
theorem writeAll_eq_iff [Nontrivial V] :
    (∀ f, writeAll writes f = writeAll other f) ↔ ∀ k, lastWrite writes k = lastWrite other k := by
  constructor
  · intro same k
    have read : ∀ v, (lastWrite writes k).getD v = (lastWrite other k).getD v := by
      intro v
      have at_k := congrFun (same fun _ => v) k
      rwa [writeAll_apply, writeAll_apply] at at_k
    cases one : lastWrite writes k with
    | some v =>
      cases two : lastWrite other k with
      | some v' => exact congrArg some (by simpa [one, two] using read v)
      | none =>
        obtain ⟨u, apart⟩ := exists_ne v
        exact absurd (by simpa [one, two] using (read u).symm) apart
    | none =>
      cases two : lastWrite other k with
      | some v' =>
        obtain ⟨u, apart⟩ := exists_ne v'
        exact absurd (by simpa [one, two] using read u) apart
      | none => rfl
  · intro same f
    funext k
    rw [writeAll_apply, writeAll_apply, same]

theorem lastWrite_eq_none : lastWrite writes k = none ↔ ∀ w ∈ writes, w.1 ≠ k := by
  induction writes with
  | nil => exact iff_of_true rfl nofun
  | cons w writes ih =>
    rw [lastWrite, Option.or_eq_none_iff, ih, List.forall_mem_cons, and_comm]
    refine and_congr_left' ?_
    by_cases here : w.1 = k <;> simp [here]

theorem lastWrite_of_all (all : ∀ w ∈ writes, w.1 = k) :
    lastWrite writes k = writes.getLast?.map Prod.snd := by
  induction writes with
  | nil => rfl
  | cons w writes ih =>
    rw [List.forall_mem_cons] at all
    rw [lastWrite, ih all.2, if_pos all.1]
    cases writes with
    | nil => rfl
    | cons v writes =>
      rw [List.getLast?_cons_cons, List.getLast?_eq_some_getLast (List.cons_ne_nil v writes)]
      rfl

end PtlinkIrcd.Lib
