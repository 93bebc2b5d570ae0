/-
**Probing with growing steps.**

A table of `2 ^ k` places is searched for a free one; every step is one longer than the step before.

* `probe` — the places that are tried.
* `probe_reaches` — **the first `2 ^ (k + 1)` of them are all places of the table**.
* `findFree`, `findFree_isSome` — the search, which ends if there is a free place.
-/

import Mathlib.Algebra.Group.Nat.Defs
import Mathlib.Tactic.Ring

namespace PtlinkIrcd.Lib

/-- The place that is tried after `m` others. -/
def probe (start step : Nat) : Nat → Nat
  | 0 => start
  | m + 1 => probe start step m + (step + m)

theorem probe_succ (start step m : Nat) : probe start step (m + 1) = probe start step m + (step + m) := rfl

theorem two_mul_probe (start step m : Nat) : 2 * probe start step m + m = 2 * start + m * (2 * step) + m * m := by
  induction m with
  | zero => simp [probe]
  | succ m ih =>
    rw [probe_succ]
    calc 2 * (probe start step m + (step + m)) + (m + 1)
        = 2 * probe start step m + m + (2 * step + 2 * m + 1) := by ring
      _ = 2 * start + m * (2 * step) + m * m + (2 * step + 2 * m + 1) := by rw [ih]
      _ = 2 * start + (m + 1) * (2 * step) + (m + 1) * (m + 1) := by ring

/-- `2 ^ (k + 1)` steps later, the place is half a table of twice the size away. -/
theorem probe_add (start step k m : Nat) : probe start step (m + 2 ^ (k + 1)) + 2 ^ k =
    probe start step m + 2 ^ k * (2 * (m + step + 2 ^ k)) := by
  have far := two_mul_probe start step (m + 2 ^ (k + 1))
  have near := two_mul_probe start step m
  have split : (m + 2 ^ (k + 1)) * (m + 2 ^ (k + 1)) = m * m + 4 * (2 ^ k * (m + 2 ^ k)) := by ring
  have step_ : (m + 2 ^ (k + 1)) * (2 * step) = m * (2 * step) + 4 * (2 ^ k * step) := by ring
  have goal : 2 ^ k * (2 * (m + step + 2 ^ k)) = 2 * (2 ^ k * (m + 2 ^ k)) + 2 * (2 ^ k * step) := by ring
  have double : 2 ^ (k + 1) = 2 * 2 ^ k := by ring
  omega

theorem mod_double (a P : Nat) : a % (P * 2) = a % P ∨ a % (P * 2) = a % P + P := by
  rw [Nat.mod_mul]
  obtain even | odd := Nat.mod_two_eq_zero_or_one (a / P)
  · exact .inl (by rw [even, Nat.mul_zero, Nat.add_zero])
  · exact .inr (by rw [odd, Nat.mul_one])

/-- **Every place of the table is tried.** -/
theorem probe_reaches (start step k place : Nat) :
    ∃ m < 2 ^ (k + 1), probe start step m % 2 ^ k = place % 2 ^ k := by
  induction k with
  | zero => exact ⟨0, by decide, by rw [Nat.pow_zero, Nat.mod_one, Nat.mod_one]⟩
  | succ k ih =>
    obtain ⟨m, early, here⟩ := ih
    have size : 2 ^ (k + 1) = 2 ^ k * 2 := Nat.pow_succ ..
    have more : 2 ^ (k + 1 + 1) = 2 ^ (k + 1) * 2 := Nat.pow_succ ..
    have positive : 0 < 2 ^ k := Nat.two_pow_pos k
    by_cases right : probe start step m % (2 ^ k * 2) = place % (2 ^ k * 2)
    · exact ⟨m, by omega, by rw [size]; exact right⟩
    · -- half a table further it is the other one of the two places
      refine ⟨m + 2 ^ (k + 1), by omega, ?_⟩
      have moved := congrArg (· % (2 ^ k * 2)) (probe_add start step k m)
      rw [← Nat.mul_assoc, Nat.add_mul_mod_self_left] at moved
      have later := Nat.mod_lt (probe start step (m + 2 ^ (k + 1))) (Nat.mul_pos positive Nat.two_pos)
      rw [Nat.add_mod, Nat.mod_eq_of_lt (a := 2 ^ k) (by omega)] at moved
      rw [size] at later moved ⊢
      generalize probe start step (m + 2 ^ k * 2) % (2 ^ k * 2) = r at later moved ⊢
      have wraps : (r + 2 ^ k) % (2 ^ k * 2) = r + 2 ^ k ∨ (r + 2 ^ k) % (2 ^ k * 2) + 2 ^ k * 2 = r + 2 ^ k := by
        by_cases small : r + 2 ^ k < 2 ^ k * 2
        · exact .inl (Nat.mod_eq_of_lt small)
        · rw [Nat.mod_eq_sub_mod (Nat.not_lt.mp small), Nat.mod_eq_of_lt (by omega)]
          exact .inr (Nat.sub_add_cancel (Nat.not_lt.mp small))
      have first := mod_double (probe start step m) (2 ^ k)
      have second := mod_double place (2 ^ k)
      have low := Nat.mod_lt place positive
      omega

/-! ### The search -/

/-- The search from the place before the first one: the step gets longer by one every time. -/
def findFree (used : Nat → Bool) (size step : Nat) : Nat → Nat → Nat → Option Nat
  | 0, _, _ => none
  | fuel + 1, k, place =>
    let place := (place + k + step) % size
    if used place then findFree used size step fuel (k + 1) place else some place

theorem findFree_free {used : Nat → Bool} {size step fuel k place found : Nat}
    (search : findFree used size step fuel k place = some found) : used found = false ∧ found % size = found := by
  induction fuel generalizing k place with
  | zero => cases search
  | succ fuel ih =>
    unfold findFree at search
    dsimp only at search
    split at search
    · exact ih search
    · rename_i free
      obtain rfl := Option.some.inj search
      exact ⟨Bool.eq_false_iff.mpr free, Nat.mod_mod _ _⟩

theorem used_of_findFree {used : Nat → Bool} {size start step fuel k place m : Nat}
    (search : findFree used size step fuel k place = none) (here : place % size = probe start step k % size)
    (tried : m < fuel) : used (probe start step (k + m + 1) % size) = true := by
  induction fuel generalizing k place m with
  | zero => exact absurd tried (Nat.not_lt_zero m)
  | succ fuel ih =>
    have next : (place + k + step) % size = probe start step (k + 1) % size := by
      rw [probe_succ, Nat.add_assoc, Nat.add_mod, here, ← Nat.add_mod, Nat.add_comm k step]
    unfold findFree at search
    dsimp only at search
    split at search
    · rename_i taken
      cases m with
      | zero => rwa [next] at taken
      | succ m =>
        have rest := ih search (by rw [Nat.mod_mod, next]) (Nat.lt_of_succ_lt_succ tried)
        rwa [show k + (m + 1) + 1 = k + 1 + m + 1 by omega]
    · cases search

/-- **The search ends if there is a free place.** -/
theorem findFree_isSome {used : Nat → Bool} {bits place free : Nat} (step : Nat) (inside : free < 2 ^ bits)
    (unused : used free = false) : (findFree used (2 ^ bits) step (2 ^ (bits + 1)) 0 place).isSome = true := by
  rw [Option.isSome_iff_ne_none]
  intro search
  obtain ⟨m, early, here⟩ := probe_reaches (place + step) (step + 1) bits free
  have shifted : ∀ m, probe place step (m + 1) = probe (place + step) (step + 1) m := by
    intro m
    induction m with
    | zero => rfl
    | succ m ih => rw [probe_succ, ih, probe_succ]; omega
  have here_ : place % 2 ^ bits = probe place step 0 % 2 ^ bits := rfl
  have taken := used_of_findFree search here_ early
  rw [Nat.zero_add, shifted, here, Nat.mod_eq_of_lt inside, unused] at taken
  cases taken

end PtlinkIrcd.Lib
