/-
**Glob patterns.**

A pattern is a list of items: a star stands for any run of letters, every other item for one letter
that fits it.

* `Glob` — the reference semantics.
* `glob_plain_append` — items that are no stars take as many letters as they are.
* `glob_star_star`, `glob_star_congr` — stars in a row are one star.
* `glob_commit`, `glob_retry` — the two steps of a search that knows the last star only: **what was
  found for the items before a star need not be looked for again**, and a place at which the items
  behind the last star do not fit is left for the next one.
-/

import Mathlib.Data.List.Forall2
import Mathlib.Data.List.Infix

namespace PtlinkIrcd.Lib

variable {π α : Type}

section

variable (star : π → Prop) (fits : π → α → Prop)

/-- The letters that a pattern stands for. -/
def Glob : List π → List α → Prop
  | [], cs => cs = []
  | p :: ps, cs =>
    (star p ∧ ∃ run rest, cs = run ++ rest ∧ Glob ps rest) ∨
      (¬ star p ∧ ∃ c rest, cs = c :: rest ∧ fits p c ∧ Glob ps rest)

/-- Items that are no stars, each with a letter that fits it. -/
abbrev Taken (seg : List π) (run : List α) : Prop :=
  List.Forall₂ (fun p c => ¬ star p ∧ fits p c) seg run

end

variable {star : π → Prop} {fits : π → α → Prop} {p q : π} {c : α} {ps qs seg : List π}
  {cs run rest : List α}

/-! ### One item -/

theorem glob_star (any : star p) :
    Glob star fits (p :: ps) cs ↔ ∃ rest, rest <:+ cs ∧ Glob star fits ps rest := by
  constructor
  · rintro (⟨-, run, rest, rfl, found⟩ | ⟨plain, -⟩)
    · exact ⟨rest, List.suffix_append .., found⟩
    · exact absurd any plain
  · rintro ⟨rest, ⟨run, rfl⟩, found⟩
    exact .inl ⟨any, run, rest, rfl, found⟩

theorem glob_cons (plain : ¬ star p) :
    Glob star fits (p :: ps) (c :: cs) ↔ fits p c ∧ Glob star fits ps cs := by
  constructor
  · rintro (⟨any, -⟩ | ⟨-, d, rest, same, fit, found⟩)
    · exact absurd any plain
    · obtain ⟨rfl, rfl⟩ := List.cons.inj same
      exact ⟨fit, found⟩
  · rintro ⟨fit, found⟩
    exact .inr ⟨plain, c, cs, rfl, fit, found⟩

theorem not_glob_nil (plain : ¬ star p) : ¬ Glob star fits (p :: ps) [] := by
  rintro (⟨any, -⟩ | ⟨-, c, rest, same, -⟩)
  · exact plain any
  · cases same

theorem Glob.before_star (any : star p) (found : Glob star fits ps cs) : Glob star fits (p :: ps) cs :=
  (glob_star any).mpr ⟨cs, List.suffix_rfl, found⟩

theorem Glob.of_suffix (any : star p) (suffix : rest <:+ cs)
    (found : Glob star fits (p :: ps) rest) : Glob star fits (p :: ps) cs := by
  obtain ⟨end_, inRest, found⟩ := (glob_star any).mp found
  exact (glob_star any).mpr ⟨end_, inRest.trans suffix, found⟩

/-! ### Adjacent stars -/

theorem glob_star_star (any : star p) (again : star q) :
    Glob star fits (p :: q :: ps) cs ↔ Glob star fits (q :: ps) cs := by
  constructor
  · intro found
    obtain ⟨rest, suffix, found⟩ := (glob_star any).mp found
    exact Glob.of_suffix again suffix found
  · exact Glob.before_star any

theorem glob_cons_congr (same : ∀ cs, Glob star fits ps cs ↔ Glob star fits qs cs) (p : π)
    (cs : List α) : Glob star fits (p :: ps) cs ↔ Glob star fits (p :: qs) cs := by
  simp only [Glob, same]

theorem glob_star_dropWhile [DecidablePred star] (any : star p) :
    Glob star fits (p :: ps) cs ↔ Glob star fits (p :: ps.dropWhile star) cs := by
  induction ps generalizing p with
  | nil => rfl
  | cons q ps ih =>
    by_cases again : star q
    · rw [glob_star_star any again, List.dropWhile_cons_of_pos (by simpa using again), ih again,
        glob_star again, glob_star any]
    · rw [List.dropWhile_cons_of_neg (by simpa using again)]

/-- **A pattern in two parts** takes a list in two parts. -/
theorem glob_append :
    Glob star fits (ps ++ qs) cs ↔
      ∃ run rest, cs = run ++ rest ∧ Glob star fits ps run ∧ Glob star fits qs rest := by
  induction ps generalizing cs with
  | nil =>
    constructor
    · exact fun found => ⟨[], cs, rfl, rfl, found⟩
    · rintro ⟨run, rest, rfl, rfl, found⟩
      exact found
  | cons p ps ih =>
    constructor
    · rintro (⟨any, skipped, rest, rfl, found⟩ | ⟨plain, c, rest, rfl, fit, found⟩)
      · obtain ⟨run, rest, rfl, first, second⟩ := ih.mp found
        exact ⟨skipped ++ run, rest, (List.append_assoc ..).symm, .inl ⟨any, skipped, run, rfl, first⟩,
          second⟩
      · obtain ⟨run, rest, rfl, first, second⟩ := ih.mp found
        exact ⟨c :: run, rest, rfl, .inr ⟨plain, c, run, rfl, fit, first⟩, second⟩
    · rintro ⟨_, rest, rfl, ⟨any, skipped, run, rfl, first⟩ | ⟨plain, c, run, rfl, fit, first⟩, second⟩
      · exact .inl ⟨any, skipped, run ++ rest, List.append_assoc .., ih.mpr ⟨run, rest, rfl, first, second⟩⟩
      · exact .inr ⟨plain, c, run ++ rest, rfl, fit, ih.mpr ⟨run, rest, rfl, first, second⟩⟩

/-! ### Items that are no stars -/

theorem glob_plain_append (plain : ∀ p ∈ seg, ¬ star p) :
    Glob star fits (seg ++ ps) cs ↔
      ∃ run rest, cs = run ++ rest ∧ Taken star fits seg run ∧ Glob star fits ps rest := by
  induction seg generalizing cs with
  | nil =>
    constructor
    · exact fun found => ⟨[], cs, rfl, .nil, found⟩
    · rintro ⟨_, rest, rfl, ⟨⟩, found⟩
      exact found
  | cons p seg ih =>
    have first := plain p List.mem_cons_self
    have later := fun q member => plain q (List.mem_cons_of_mem p member)
    rw [List.cons_append]
    constructor
    · intro found
      cases cs with
      | nil => exact absurd found (not_glob_nil first)
      | cons c cs =>
        obtain ⟨fit, found⟩ := (glob_cons first).mp found
        obtain ⟨run, rest, rfl, taken, found⟩ := (ih later).mp found
        exact ⟨c :: run, rest, rfl, .cons ⟨first, fit⟩ taken, found⟩
    · rintro ⟨_, rest, rfl, taken, found⟩
      cases taken with
      | cons both taken =>
        exact (glob_cons first).mpr ⟨both.2, (ih later).mpr ⟨_, rest, rfl, taken, found⟩⟩

theorem Taken.plain (taken : Taken star fits seg run) : ∀ p ∈ seg, ¬ star p := by
  induction taken with
  | nil => exact fun p member => absurd member List.not_mem_nil
  | cons both _ ih =>
    intro p member
    rcases List.mem_cons.mp member with rfl | member
    · exact both.1
    · exact ih p member

theorem glob_taken (taken : Taken star fits seg run) :
    Glob star fits (seg ++ ps) (run ++ cs) ↔ Glob star fits ps cs := by
  induction taken with
  | nil => rfl
  | cons both _ ih => rw [List.cons_append, List.cons_append, glob_cons both.1, ih, and_iff_right both.2]

theorem Taken.glob (taken : Taken star fits seg run) : Glob star fits seg run := by
  have whole := @glob_taken _ _ _ _ [] _ [] _ taken
  rw [List.append_nil, List.append_nil] at whole
  exact whole.mpr rfl

theorem not_glob_of_length_lt (plain : ∀ p ∈ seg, ¬ star p) (short : cs.length < seg.length) :
    ¬ Glob star fits (seg ++ ps) cs := by
  intro found
  obtain ⟨run, rest, rfl, taken, -⟩ := (glob_plain_append plain).mp found
  have same := taken.length_eq
  rw [List.length_append] at short
  omega

/-- A star before items that are no stars, with the letters of a run too many before them. -/
theorem not_glob_star_of_length_lt (any : star p) (plain : ∀ p ∈ seg, ¬ star p)
    (short : cs.length < seg.length) : ¬ Glob star fits (p :: (seg ++ ps)) cs := by
  intro found
  obtain ⟨rest, suffix, found⟩ := (glob_star any).mp found
  exact not_glob_of_length_lt plain (suffix.length_le.trans_lt short) found

/-! ### Searching with the last star -/

/-- **The first place at which the items before a star fit will do.** -/
theorem glob_commit (any : star p) (again : star q) (taken : Taken star fits seg run) :
    Glob star fits (p :: (seg ++ q :: ps)) (run ++ cs) ↔ Glob star fits (q :: ps) cs := by
  constructor
  · intro found
    obtain ⟨rest, suffix, found⟩ := (glob_star any).mp found
    obtain ⟨run', rest', rfl, taken', found⟩ := (glob_plain_append taken.plain).mp found
    have sameLength : run'.length = run.length := taken'.length_eq.symm.trans taken.length_eq
    have short : rest'.length ≤ cs.length := by
      have long := suffix.length_le
      rw [List.length_append, List.length_append] at long
      omega
    have behind : rest' <:+ cs :=
      List.suffix_of_suffix_length_le ((List.suffix_append ..).trans suffix)
        (List.suffix_append run cs) short
    exact found.of_suffix again behind
  · intro found
    exact Glob.before_star any ((glob_taken taken).mpr found)

/-- **A place at which the items behind the last star do not fit is left for the next one.** -/
theorem glob_retry (any : star p) (failed : ¬ Glob star fits ps (c :: cs)) :
    Glob star fits (p :: ps) (c :: cs) ↔ Glob star fits (p :: ps) cs := by
  constructor
  · intro found
    obtain ⟨rest, suffix, found⟩ := (glob_star any).mp found
    rcases List.suffix_cons_iff.mp suffix with rfl | suffix
    · exact absurd found failed
    · exact (glob_star any).mpr ⟨rest, suffix, found⟩
  · exact Glob.of_suffix any (List.suffix_cons c cs)

end PtlinkIrcd.Lib
