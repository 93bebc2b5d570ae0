/-
**Limiters that count streaks.**

A streak is a run of events each of which comes less than `per` after the one before it. Histories
have the latest event first.

* `streak` — the length of the streak that a history ends with (`le_streak_iff`).
* `RateLimits` — what a limit of `msgs` events in any `per` seconds says about the refusals.
* `rateLimits_iff` — **a limiter that refuses the events at which a streak has `k` events is a rate
  limiter exactly when no streak of `k` events takes `per` or longer**. That no window has more than
  `k` accepted events holds in any case (`accepted_lt`).
-/

import Mathlib.Data.List.Chain
import Mathlib.Data.List.Infix

namespace PtlinkIrcd.Lib.Streaks

variable (per : Int)

/-- One event comes less than `per` after another one. -/
def Soon (later earlier : Int) : Prop := later < earlier + per

instance (later earlier : Int) : Decidable (Soon per later earlier) :=
  inferInstanceAs (Decidable (_ < _))

/-- The length of the streak at the end of a history. -/
def streak : List Int → Nat
  | [] => 0
  | [_] => 1
  | t :: u :: earlier => if Soon per t u then streak (u :: earlier) + 1 else 1

/-- The events that are not refused. -/
def accepted (refuses : List Int → Bool) : List Int → List Int
  | [] => []
  | t :: earlier =>
    if refuses (t :: earlier) then accepted refuses earlier else t :: accepted refuses earlier

/-- **At most `msgs` events in any `per` seconds**, and a refusal only when there were as many. -/
structure RateLimits (msgs : Int) (refuses : List Int → Bool) (history : List Int) : Prop where
  deserved : ∀ now earlier, now :: earlier <:+ history → refuses (now :: earlier) = true →
    msgs ≤ ((now :: earlier).countP fun t => now < t + per)
  bounded : ∀ start, ((accepted refuses history).countP fun t => start ≤ t ∧ t < start + per) ≤ msgs

/-- Streaks of `k` events take less than `per` from the first event to the last. -/
def Dense (k : Nat) (history : List Int) : Prop :=
  ∀ block, block <:+: history → block.length = k → block.IsChain (Soon per) →
    ∀ last ∈ block.head?, ∀ first ∈ block.getLast?, last < first + per

variable {per} {history earlier : List Int} {t start : Int} {k : Nat} {refuses : List Int → Bool}

/-! ### Streaks -/

/-- **A streak is a block at the end.** -/
theorem le_streak_iff (history : List Int) (k : Nat) :
    k ≤ streak per history ↔ k ≤ history.length ∧ (history.take k).IsChain (Soon per) := by
  induction history generalizing k with
  | nil => simp [streak]
  | cons t history ih =>
    cases k with
    | zero => simp
    | succ k =>
      cases history with
      | nil =>
        have none_ : k ≤ 0 ↔ k + 1 ≤ ([t] : List Int).length := by simp
        rw [List.take_of_length_le (by simp), ← none_]
        simp [streak]
      | cons u history =>
        rw [List.take_succ_cons, streak, List.length_cons]
        cases k with
        | zero =>
          have one : 0 + 1 ≤ (if Soon per t u then streak per (u :: history) + 1 else 1) := by
            split <;> omega
          simp [one]
        | succ k =>
          have before := ih (k + 1)
          rw [List.take_succ_cons] at before ⊢
          rw [List.isChain_cons_cons]
          split
          · rename_i soon
            rw [Nat.add_le_add_iff_right, before]
            exact ⟨fun b => ⟨Nat.succ_le_succ b.1, soon, b.2⟩,
              fun b => ⟨Nat.le_of_succ_le_succ b.1, b.2.2⟩⟩
          · rename_i late
            exact ⟨fun bad => absurd bad (by omega), fun b => absurd b.2.1 late⟩

theorem countP_window_le_streak (sorted : (t :: earlier).Pairwise (· ≥ ·)) (from_ : start ≤ t)
    (until_ : t < start + per) :
    ((t :: earlier).countP fun u => start ≤ u ∧ u < start + per) ≤ streak per (t :: earlier) := by
  induction earlier generalizing t with
  | nil => exact List.countP_le_length
  | cons u earlier ih =>
    obtain ⟨below, rest⟩ := List.pairwise_cons.mp sorted
    have least : u ≤ t := below u List.mem_cons_self
    rw [List.countP_cons_of_pos (by simpa using ⟨from_, until_⟩), streak]
    by_cases inside : start ≤ u
    · have soon : Soon per t u := show t < u + per by omega
      rw [if_pos soon]
      exact Nat.succ_le_succ (ih rest inside (by omega))
    · have none_ : (u :: earlier).countP (fun u => start ≤ u ∧ u < start + per) = 0 := by
        rw [List.countP_eq_zero]
        intro v member
        have early : v ≤ u := by
          rcases List.mem_cons.mp member with rfl | later
          · exact Int.le_refl _
          · exact (List.pairwise_cons.mp rest).1 v later
        simp only [decide_eq_true_eq, not_and]
        omega
      rw [none_]
      split <;> omega

theorem accepted_sublist (refuses : List Int → Bool) (history : List Int) :
    (accepted refuses history).Sublist history := by
  induction history with
  | nil => exact List.Sublist.slnil
  | cons t earlier ih =>
    rw [accepted]
    split
    · exact ih.cons t
    · exact ih.cons_cons t

/-- **No window has `k` accepted events.** -/
theorem accepted_lt (pos : 0 < k) (sorted : history.Pairwise (· ≥ ·))
    (counts : ∀ h, h <:+ history → (refuses h = true ↔ k ≤ streak per h)) (start : Int) :
    ((accepted refuses history).countP fun t => start ≤ t ∧ t < start + per) < k := by
  induction history with
  | nil => exact pos
  | cons t earlier ih =>
    have before := ih (List.pairwise_cons.mp sorted).2 fun h inside =>
      counts h (inside.trans (List.suffix_cons t earlier))
    rw [accepted]
    split
    · exact before
    · rename_i passed
      have short : streak per (t :: earlier) < k :=
        not_le.mp fun long => passed ((counts _ (List.suffix_refl _)).mpr long)
      by_cases inside : start ≤ t ∧ t < start + per
      · have part : (t :: accepted refuses earlier).Sublist (t :: earlier) :=
          (accepted_sublist refuses earlier).cons_cons t
        exact lt_of_le_of_lt part.countP_le
          (lt_of_le_of_lt (countP_window_le_streak sorted inside.1 inside.2) short)
      · rw [List.countP_cons_of_neg (by simpa using inside)]
        exact before

/-! ### Refusals -/

/-- The last `k` events are in the window exactly when the first of them is. -/
theorem le_countP_iff {block later : List Int} {now first : Int}
    (sorted : (block ++ later).Pairwise (· ≥ ·)) (last : first ∈ block.getLast?) :
    block.length ≤ (block ++ later).countP (fun t => now < t + per) ↔ now < first + per := by
  obtain ⟨front, rfl⟩ : ∃ front, block = front ++ [first] :=
    ⟨_, (List.dropLast_append_getLast? first last).symm⟩
  obtain ⟨inBlock, -, across⟩ := List.pairwise_append.mp sorted
  have above : ∀ t ∈ front, first ≤ t := fun t member =>
    (List.pairwise_append.mp inBlock).2.2 t member first List.mem_cons_self
  have under : ∀ t ∈ later, t ≤ first := fun t member =>
    across first (List.mem_append_right _ List.mem_cons_self) t member
  constructor
  · intro many
    by_contra late
    have none_ : ([first] ++ later).countP (fun t => now < t + per) = 0 := by
      rw [List.countP_eq_zero]
      intro t member
      have early : t ≤ first := by
        rcases List.mem_cons.mp member with rfl | inside
        · exact Int.le_refl _
        · exact under t inside
      simp only [decide_eq_true_eq]
      omega
    rw [List.append_assoc, List.countP_append, none_, List.length_append,
      List.length_singleton] at many
    have few := List.countP_le_length (p := fun t => decide (now < t + per)) (l := front)
    omega
  · intro soon
    have all : (front ++ [first]).countP (fun t => now < t + per) = (front ++ [first]).length := by
      rw [List.countP_eq_length]
      intro t member
      have late : first ≤ t := by
        rcases List.mem_append.mp member with inside | same
        · exact above t inside
        · exact Int.le_of_eq (List.mem_singleton.mp same).symm
      simp only [decide_eq_true_eq]
      omega
    rw [List.countP_append, all]
    exact Nat.le_add_right ..

/-- **A limiter that counts streaks is a rate limiter exactly when streaks are dense.** -/
theorem rateLimits_iff (pos : 0 < k) (sorted : history.Pairwise (· ≥ ·))
    (counts : ∀ h, h <:+ history → (refuses h = true ↔ k ≤ streak per h)) :
    RateLimits per k refuses history ↔ Dense per k history := by
  constructor
  · rintro ⟨deserved, -⟩ block ⟨after, before, rfl⟩ rfl chain last atHead first atEnd
    obtain ⟨rest, rfl⟩ : ∃ rest, block = last :: rest := by
      cases block with
      | nil => cases atHead
      | cons t rest => exact ⟨rest, by rw [Option.some.inj atHead]⟩
    have suffix : last :: (rest ++ before) <:+ after ++ last :: rest ++ before := by
      rw [List.append_assoc]
      exact List.suffix_append after (last :: rest ++ before)
    have long : (last :: rest).length ≤ streak per (last :: (rest ++ before)) :=
      (le_streak_iff _ _).mpr ⟨by simp, by
        rw [← List.cons_append, List.take_left]
        exact chain⟩
    have many := deserved last (rest ++ before) suffix ((counts _ suffix).mpr long)
    exact (le_countP_iff (sorted.sublist suffix.sublist) atEnd).mp (Int.ofNat_le.mp many)
  · intro dense
    refine ⟨fun now earlier suffix refused => ?_, fun start =>
      Int.ofNat_le.mpr (Nat.le_of_lt (accepted_lt pos sorted counts start))⟩
    obtain ⟨enough, chain⟩ := (le_streak_iff _ _).mp ((counts _ suffix).mp refused)
    have size : ((now :: earlier).take k).length = k := List.length_take_of_le enough
    obtain ⟨first, atEnd⟩ : ∃ first, first ∈ ((now :: earlier).take k).getLast? := by
      cases last : ((now :: earlier).take k).getLast? with
      | some first => exact ⟨first, rfl⟩
      | none =>
        rw [List.getLast?_eq_none_iff.mp last] at size
        exact absurd size (by simp; omega)
    have atHead : now ∈ ((now :: earlier).take k).head? := by
      obtain ⟨j, rfl⟩ := Nat.exists_eq_succ_of_ne_zero (Nat.pos_iff_ne_zero.mp pos)
      rfl
    have soon := dense _ ((List.take_prefix k _).isInfix.trans suffix.isInfix) size chain now atHead
      first atEnd
    have split_ := List.take_append_drop k (now :: earlier)
    have ordered : ((now :: earlier).take k ++ (now :: earlier).drop k).Pairwise (· ≥ ·) := by
      rw [split_]
      exact sorted.sublist suffix.sublist
    have many := (le_countP_iff ordered atEnd).mpr soon
    rw [split_, size] at many
    exact Int.ofNat_le.mpr many

end PtlinkIrcd.Lib.Streaks
