/-
**Buckets of tokens, kept as a time stamp.**

A limiter that lets something pass when its stamp has come, and then moves the stamp on by `delay`, but
never leaves it further back than `depth` delays.

* `Bucket` — how the stamp changes: it may be raised at any time.
* `Bucket.countP_le_of_stamp` — what can pass until `bound`, from a stamp on.
* `Bucket.countP_window_le` — **at most `depth + 2 + span / delay` pass in any window of `span`**.
-/

import Mathlib.Data.List.Basic
import Mathlib.Tactic.Linarith

namespace PtlinkIrcd.Lib

/-- The stamp before, the times at which something passed, and the stamp behind them. -/
inductive Bucket (delay : Int) (depth : Nat) : Int → List Int → Int → Prop
  | nil (stamp : Int) : Bucket delay depth stamp [] stamp
  | raise {stamp stamp' last : Int} {times : List Int} (later : stamp ≤ stamp')
      (rest : Bucket delay depth stamp' times last) : Bucket delay depth stamp times last
  | pass {stamp now last : Int} {times : List Int} (come : stamp ≤ now)
      (rest : Bucket delay depth (max (stamp + delay) (now - delay * depth)) times last) :
      Bucket delay depth stamp (now :: times) last

namespace Bucket

variable {delay : Int} {depth : Nat} {stamp last : Int} {times : List Int}

theorem countP_le_of_stamp (bucket : Bucket delay depth stamp times last) (positive : 0 < delay)
    (bound : Int) :
    times.countP (· ≤ bound) = 0 ∨ stamp + delay * times.countP (· ≤ bound) ≤ bound + delay := by
  induction bucket with
  | nil => exact .inl rfl
  | raise later _ ih => exact ih.imp id fun few => by omega
  | @pass stamp now last times come rest ih =>
    by_cases inside : now ≤ bound
    · refine .inr ?_
      rw [List.countP_cons_of_pos (by simpa using inside), Nat.cast_succ, mul_add, mul_one]
      rcases ih with none_ | few
      · rw [none_]
        simp only [Nat.cast_zero, mul_zero, zero_add]
        omega
      · have moved : stamp + delay ≤ max (stamp + delay) (now - delay * depth) := le_max_left _ _
        linarith
    · rw [List.countP_cons_of_neg (by simpa using inside)]
      refine ih.imp id fun few => ?_
      have moved : stamp + delay ≤ max (stamp + delay) (now - delay * depth) := le_max_left _ _
      linarith

/-- **What passes in a window**: the first one, `depth + 1` with the stamp left back at that time, and one
for each delay. -/
theorem countP_window_le (bucket : Bucket delay depth stamp times last) (positive : 0 < delay)
    (start : Int) (span : Nat) :
    (times.countP fun t => start ≤ t ∧ t ≤ start + span : Int) ≤ depth + 2 + span / delay := by
  have room : 0 ≤ (span : Int) / delay := Int.ediv_nonneg (Int.natCast_nonneg span) positive.le
  induction bucket with
  | nil =>
    rw [List.countP_nil]
    omega
  | raise _ _ ih => exact ih
  | @pass stamp now last times come rest ih =>
    by_cases inside : start ≤ now ∧ now ≤ start + span
    · rw [List.countP_cons_of_pos (by simpa using inside), Nat.cast_succ]
      have fewer : times.countP (fun t => decide (start ≤ t ∧ t ≤ start + span)) ≤
          times.countP (· ≤ start + (span : Int)) :=
        List.countP_mono_left fun t _ window => by
          rw [decide_eq_true_eq] at window ⊢
          exact window.2
      rcases rest.countP_le_of_stamp positive (start + span) with none_ | few
      · omega
      · -- the stamp was not left further back than `depth` delays before the first one
        have back : now - delay * depth ≤ max (stamp + delay) (now - delay * depth) := le_max_right _ _
        have cost : delay * ((times.countP (· ≤ start + (span : Int)) : Int) - depth - 1) ≤ span := by
          have first := inside.1
          rw [mul_sub, mul_sub, mul_one]
          linarith
        have share := (Int.le_ediv_iff_mul_le positive).mpr ((mul_comm _ _).trans_le cost)
        omega
    · rw [List.countP_cons_of_neg (by simpa using inside)]
      exact ih

end Bucket

end PtlinkIrcd.Lib
