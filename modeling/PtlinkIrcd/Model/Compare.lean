/-
**Comparison of prefixes.**

`ircncmp` of `match.c` in memory: two lists of characters stand for what its pointers lead to, and a read
beyond them has no result.

* `ircncmp` — the value that is returned, and how many characters of each string are read.
* `PrefixSame` — the first characters are equal up to case.
* `ircncmp_strings` — what it returns and reads, by the lengths of the strings.
* `ircncmp_iff` — **it compares the prefixes and reads nothing else exactly if at least one character is
  asked for, and only one if both strings are empty**.
-/

import PtlinkIrcd.Model.Text

namespace PtlinkIrcd

/-- `ircncmp`. Both strings are read at the same places: where the terminators are tested, the
second string is read only behind the end of the first one, but then the loop goes on to read it. -/
def ircncmp : Text → Text → Int → Option (Int × Nat)
  | c :: str1, d :: str2, n =>
    let res : Int := (toUpper c).toNat - (toUpper d).toNat
    if res ≠ 0 then some (res, 1)
    else if n - 1 = 0 then some (0, 1)
    else
      match str1, str2 with
      | c' :: _, d' :: _ =>
        if c' = NUL ∧ d' = NUL then some (0, 2)
        else (ircncmp str1 str2 (n - 1)).map fun out => (out.1, out.2 + 1)
      | _, _ => none
  | _, _, _ => none

def terminated (s rest : Text) : Text := s ++ NUL :: rest

/-- **The first `n` characters, or those before the terminators, are equal up to case.** -/
def PrefixSame (s t : Text) (n : Nat) : Prop := (s.take n).map toUpper = (t.take n).map toUpper

instance (s t : Text) (n : Nat) : Decidable (PrefixSame s t n) := inferInstanceAs (Decidable (_ = _))

theorem prefixSame_iff_irccmp {s t : Text} (proper : NUL ∉ s) (properOther : NUL ∉ t) (n : Nat) :
    PrefixSame s t n ↔ irccmp (s.take n) (t.take n) = 0 :=
  (irccmp_eq_zero_iff (fun member => proper (List.mem_of_mem_take member))
    fun member => properOther (List.mem_of_mem_take member)).symm

/-! ### One character -/

section

variable {c d : Char} {s t rest rest' : Text} {n : Int}

theorem fold_sub_eq_zero : ((toUpper c).toNat : Int) - (toUpper d).toNat = 0 ↔ toUpper c = toUpper d := by
  rw [sub_eq_zero, Int.ofNat_inj, Char.toNat_inj]

theorem prefixSame_cons (k : Nat) :
    PrefixSame (c :: s) (d :: t) (k + 1) ↔ toUpper c = toUpper d ∧ PrefixSame s t k := by
  simp [PrefixSame]

theorem ircncmp_of_ne (other : toUpper c ≠ toUpper d) :
    ircncmp (c :: s) (d :: t) n = some (((toUpper c).toNat : Int) - (toUpper d).toNat, 1) := by
  have difference := mt fold_sub_eq_zero.mp other
  unfold ircncmp
  exact if_pos difference

theorem ircncmp_one (same : toUpper c = toUpper d) : ircncmp (c :: s) (d :: t) 1 = some (0, 1) := by
  have difference := fold_sub_eq_zero.mpr same
  unfold ircncmp
  simp [difference]

theorem ircncmp_end (same : toUpper c = toUpper d) (more : n ≠ 1) :
    ircncmp (c :: NUL :: s) (d :: NUL :: t) n = some (0, 2) := by
  have difference := fold_sub_eq_zero.mpr same
  have left : n - 1 ≠ 0 := sub_ne_zero.mpr more
  unfold ircncmp
  simp [difference, left]

theorem ircncmp_step (same : toUpper c = toUpper d) (more : n ≠ 1)
    (go : s.head? ≠ some NUL ∨ t.head? ≠ some NUL) (some_ : s ≠ []) (someOther : t ≠ []) :
    ircncmp (c :: s) (d :: t) n = (ircncmp s t (n - 1)).map fun out => (out.1, out.2 + 1) := by
  have difference := fold_sub_eq_zero.mpr same
  have left : n - 1 ≠ 0 := sub_ne_zero.mpr more
  obtain ⟨c', s, rfl⟩ := List.exists_cons_of_ne_nil some_
  obtain ⟨d', t, rfl⟩ := List.exists_cons_of_ne_nil someOther
  have apart : ¬ (c' = NUL ∧ d' = NUL) := fun ends =>
    go.elim (fun first => first (congrArg some ends.1)) fun second => second (congrArg some ends.2)
  rw [ircncmp]
  simp [difference, left, apart]

end

/-! ### Two strings -/

/-- **What a comparison is meant to do**: it returns zero for equal prefixes, and reads neither more than
`n` characters nor anything beyond a terminator. -/
structure Compares (s t : Text) (n : Int) (out : Int × Nat) : Prop where
  zero : out.1 = 0 ↔ PrefixSame s t n.toNat
  bounded : (out.2 : Int) ≤ n
  first : out.2 ≤ s.length + 1
  second : out.2 ≤ t.length + 1

theorem toUpper_ne_NUL {c : Char} (proper : c ≠ NUL) : toUpper c ≠ toUpper NUL := by
  intro same
  have positive := toUpper_ne_terminator proper
  rw [same] at positive
  exact positive rfl

/-- **From a string that is not empty, the comparison is as it is meant to be.** -/
theorem ircncmp_strings {s t : Text} (rest rest' : Text) (proper : NUL ∉ s) (properOther : NUL ∉ t)
    (some_ : s ≠ [] ∨ t ≠ []) (k : Nat) :
    ∃ out, ircncmp (terminated s rest) (terminated t rest') (k + 1) = some out ∧
      Compares s t (k + 1) out := by
  induction s generalizing t k with
  | nil =>
    obtain ⟨d, t, rfl⟩ := List.exists_cons_of_ne_nil (some_.resolve_left fun other => other rfl)
    have other : toUpper NUL ≠ toUpper d :=
      (toUpper_ne_NUL (List.ne_of_not_mem_cons properOther).symm).symm
    refine ⟨_, ircncmp_of_ne other, ?_, by omega, by simp, by simp⟩
    exact iff_of_false (mt fold_sub_eq_zero.mp other) (by simp [PrefixSame])
  | cons c s ih =>
    cases t with
    | nil =>
      have other : toUpper c ≠ toUpper NUL := toUpper_ne_NUL (List.ne_of_not_mem_cons proper).symm
      refine ⟨_, ircncmp_of_ne other, ?_, by omega, by simp, by simp⟩
      exact iff_of_false (mt fold_sub_eq_zero.mp other) (by simp [PrefixSame])
    | cons d t =>
      have prefix_ : PrefixSame (c :: s) (d :: t) ((k : Int) + 1).toNat ↔
          toUpper c = toUpper d ∧ PrefixSame s t k := prefixSame_cons k
      by_cases same : toUpper c = toUpper d
      · rcases k with _ | k
        · refine ⟨(0, 1), ircncmp_one same, ?_, by simp, by simp, by simp⟩
          exact iff_of_true rfl (prefix_.mpr ⟨same, by simp [PrefixSame]⟩)
        · have more : ((k + 1 : Nat) : Int) + 1 ≠ 1 := by omega
          by_cases ends : s = [] ∧ t = []
          · obtain ⟨rfl, rfl⟩ := ends
            refine ⟨(0, 2), ircncmp_end same more, ?_, by push_cast; omega, by simp, by simp⟩
            exact iff_of_true rfl (prefix_.mpr ⟨same, rfl⟩)
          · have goes : (terminated s rest).head? ≠ some NUL ∨ (terminated t rest').head? ≠ some NUL := by
              rcases not_and_or.mp ends with more | more
              · obtain ⟨c', s', rfl⟩ := List.exists_cons_of_ne_nil more
                exact .inl fun same => proper (by simp [Option.some.inj same])
              · obtain ⟨d', t', rfl⟩ := List.exists_cons_of_ne_nil more
                exact .inr fun same => properOther (by simp [Option.some.inj same])
            obtain ⟨out, run, compares⟩ := ih (List.not_mem_of_not_mem_cons proper)
              (List.not_mem_of_not_mem_cons properOther) (not_and_or.mp ends) k
            refine ⟨(out.1, out.2 + 1), ?_, ?_, ?_, ?_, ?_⟩
            · have step := ircncmp_step (s := terminated s rest) (t := terminated t rest') same more goes
                (by simp [terminated]) (by simp [terminated])
              refine step.trans ?_
              rw [show ((k + 1 : Nat) : Int) + 1 - 1 = k + 1 by omega, run]
              rfl
            · rw [compares.zero, prefix_]
              exact (and_iff_right same).symm
            · have := compares.bounded
              push_cast
              omega
            · simpa using compares.first
            · simpa using compares.second
      · refine ⟨_, ircncmp_of_ne same, ?_, by omega, by simp, by simp⟩
        exact iff_of_false (mt fold_sub_eq_zero.mp same) fun both => same (prefix_.mp both).1

theorem ircncmp_reads {m m' : Text} {n : Int} {out : Int × Nat} (run : ircncmp m m' n = some out) :
    1 ≤ out.2 := by
  cases m with
  | nil => exact absurd run (by simp [ircncmp])
  | cons c m =>
    cases m' with
    | nil => exact absurd run (by simp [ircncmp])
    | cons d m' =>
      unfold ircncmp at run
      dsimp only at run
      split_ifs at run
      · exact (Option.some.inj run) ▸ le_refl 1
      · exact (Option.some.inj run) ▸ le_refl 1
      · split at run
        · split_ifs at run
          · exact (Option.some.inj run) ▸ one_le_two
          · obtain ⟨out', -, rfl⟩ := Option.map_eq_some_iff.mp run
            exact Nat.le_add_left 1 out'.2
        · exact absurd run (by simp)

theorem ircncmp_empty {rest rest' : Text} {n : Int} {out : Int × Nat} (more : n ≠ 1)
    (run : ircncmp (NUL :: rest) (NUL :: rest') n = some out) : 2 ≤ out.2 := by
  unfold ircncmp at run
  have left : n - 1 ≠ 0 := sub_ne_zero.mpr more
  simp only [sub_self, ne_eq, not_true_eq_false, if_false, left] at run
  split at run
  · split at run
    · exact (Option.some.inj run) ▸ le_refl 2
    · obtain ⟨out', run', rfl⟩ := Option.map_eq_some_iff.mp run
      have := ircncmp_reads run'
      show 2 ≤ out'.2 + 1
      omega
  · exact absurd run (by simp)

/-- **The comparison is as it is meant to be exactly if at least one character is asked for, and only one
of two empty strings.** -/
theorem ircncmp_iff {s t : Text} (rest rest' : Text) (proper : NUL ∉ s) (properOther : NUL ∉ t) (n : Int) :
    (∃ out, ircncmp (terminated s rest) (terminated t rest') n = some out ∧ Compares s t n out) ↔
      1 ≤ n ∧ (s = [] → t = [] → n = 1) := by
  constructor
  · rintro ⟨out, run, compares⟩
    have reads := ircncmp_reads run
    have bounded := compares.bounded
    refine ⟨by omega, ?_⟩
    rintro rfl rfl
    by_contra more
    have passed := ircncmp_empty more run
    have := compares.first
    simp at this
    omega
  · rintro ⟨positive, one⟩
    obtain ⟨k, rfl⟩ : ∃ k : Nat, n = k + 1 := ⟨(n - 1).toNat, by omega⟩
    by_cases empty : s = [] ∧ t = []
    · obtain ⟨rfl, rfl⟩ := empty
      obtain rfl : k = 0 := by
        have := one rfl rfl
        omega
      exact ⟨(0, 1), ircncmp_one rfl, iff_of_true rfl rfl, by simp, by simp, by simp⟩
    · exact ircncmp_strings rest rest' proper properOther (not_and_or.mp empty) k

/-- The test for an action. -/
theorem ircncmp_iff_action :
    (∃ out, ircncmp (terminated "action waves".toList []) (terminated "ACTION".toList []) 6 = some out ∧
        Compares "action waves".toList "ACTION".toList 6 out) ↔
      1 ≤ (6 : Int) ∧ ("action waves".toList = [] → "ACTION".toList = [] → (6 : Int) = 1) :=
  ircncmp_iff [] [] (by decide) (by decide) 6

/-- **Two empty strings**: a place behind each terminator is read. -/
theorem not_ircncmp : ¬ ∀ (s t rest rest' : Text) (n : Int), NUL ∉ s → NUL ∉ t →
    ∃ out, ircncmp (terminated s rest) (terminated t rest') n = some out ∧ Compares s t n out := by
  intro all
  obtain ⟨out, run, compares⟩ := all [] [] ['a'] ['b'] 2 (by decide) (by decide)
  have passed : 2 ≤ out.2 := ircncmp_empty (by decide) run
  exact absurd (passed.trans compares.first) (by decide)

end PtlinkIrcd
