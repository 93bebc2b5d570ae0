/-
**The search of `match`.**

* `MatchState.Searches` — the invariant of the rounds: the mask matches the name if and only if the
  part from the last star on matches what is left of the name, and the characters between the marks
  and the pointers fit.
* `Searches.round` — a round keeps it and comes closer to the end, or its verdict is right.
* `matchVerdict` — the rounds without their bound; `matchVerdict_iff`, `matchVerdict_isSome` — **its
  verdict is right, and is reached**.
-/

import PtlinkIrcd.Model.Masks
import PtlinkIrcd.Model.State

namespace PtlinkIrcd

open Lib

namespace MatchState

variable {mask name : Text} {s next : MatchState} {verdict : Bool}

/-- The marks of a search: what is between a mark and its pointer is matched already, and the rest
decides. -/
structure Searches (mask name : Text) (s : MatchState) : Prop where
  taken : ∃ seg run, s.ma = seg ++ s.m ∧ s.na = run ++ s.n ∧ Taken (· = '*') Fits seg run
  start : s.wild = false → s.ma = mask ∧ s.na = name
  star : s.wild = true → s.ma.head? ≠ some '*' ∧ ∃ before, mask = before ++ '*' :: s.ma
  rest : s.wild = true → (MaskMatches mask name ↔ MaskMatches ('*' :: s.ma) s.na)

theorem searches_start (mask name : Text) : Searches mask name ⟨mask, name, mask, name, false⟩ :=
  ⟨⟨[], [], rfl, rfl, .nil⟩, fun _ => ⟨rfl, rfl⟩, nofun, nofun⟩

theorem last_of_stars (m : Text) : ∃ stars, '*' :: m = stars ++ '*' :: m.dropWhile (· = '*') := by
  induction m with
  | nil => exact ⟨[], rfl⟩
  | cons c m ih =>
    by_cases star : c = '*'
    · obtain ⟨stars, split⟩ := ih
      refine ⟨'*' :: stars, ?_⟩
      rw [star, List.dropWhile_cons_of_pos (by decide), List.cons_append, ← split]
    · exact ⟨[], by rw [List.dropWhile_cons_of_neg (by simpa using star)]; rfl⟩

theorem matches_of_any {qs n : Text} (any : ∀ q ∈ qs, q = '?') (same : n.length = qs.length) :
    MaskMatches qs n := by
  induction qs generalizing n with
  | nil => exact List.length_eq_zero_iff.mp same
  | cons q qs ih =>
    obtain ⟨c, n, rfl⟩ := List.exists_cons_of_length_eq_add_one same
    rw [any q List.mem_cons_self, maskMatches_cons (by decide)]
    exact ⟨.inl rfl, ih (fun p member => any p (List.mem_cons_of_mem _ member)) (Nat.succ.inj same)⟩

theorem exists_of_endsInStar (found : endsInStar mask = true) :
    ∃ before qs, mask = before ++ '*' :: qs ∧ ∀ q ∈ qs, q = '?' := by
  obtain ⟨front, found⟩ := List.head?_eq_some_iff.mp (of_decide_eq_true found)
  have whole := List.takeWhile_append_dropWhile (p := (· = '?')) (l := mask.tail.reverse)
  have back := congrArg List.reverse whole
  rw [found, List.reverse_reverse, List.reverse_append, List.reverse_cons, List.append_assoc] at back
  refine ⟨mask.take 1 ++ front.reverse, (mask.tail.reverse.takeWhile (· = '?')).reverse, ?_, ?_⟩
  · rw [List.append_assoc]
    refine Eq.trans ?_ (congrArg (mask.take 1 ++ ·) back.symm)
    cases mask <;> rfl
  · intro q member
    simpa using List.mem_takeWhile_imp (List.mem_reverse.mp member)

theorem eq_behind_last {front before qs seg : Text} (none_ : '*' ∉ qs) (again : '*' ∉ seg)
    (same : before ++ '*' :: qs = front ++ '*' :: seg) : qs = seg := by
  have behind : ∀ {front seg : Text}, '*' ∉ seg →
      (front ++ '*' :: seg).reverse.takeWhile (· ≠ '*') = seg.reverse := by
    intro front seg plain
    have all : ∀ c ∈ seg.reverse, decide (c ≠ '*') = true := fun c member =>
      decide_eq_true fun star => plain (star ▸ List.mem_reverse.mp member)
    rw [List.reverse_append, List.reverse_cons, List.append_assoc, List.takeWhile_append_of_pos all]
    simp
  exact List.reverse_injective ((behind none_).symm.trans (same ▸ behind again))

def passed (s : MatchState) : MatchState :=
  { s with m := s.m.dropWhile (· = '*'), wild := true, ma := s.m.dropWhile (· = '*'), na := s.n }

/-- The pointers at the next place for what is behind the last star. -/
def restart (s : MatchState) : MatchState := { s with m := s.ma, n := s.na.tail, na := s.na.tail }

theorem compare_fits {c d : Char} {m n : Text} (mask : s.m = c :: m) (name : s.n = d :: n)
    (fits : Fits c d) : s.compare = .inl { s with m := m, n := n } := by
  unfold compare
  rw [if_neg, mask, name]
  · rfl
  · rintro ⟨differ, plain⟩
    rw [mask] at differ plain
    rw [name] at differ
    rcases fits with any | same
    · exact plain (by rw [any]; rfl)
    · exact differ (congrArg some same)

theorem compare_misfit (differ : s.m.head?.map toLower ≠ s.n.head?.map toLower)
    (plain : s.m.head? ≠ some '?') :
    s.compare = if s.wild then .inl s.restart else .inr false :=
  if_pos ⟨differ, plain⟩

/-- How far the search is from its end at most. -/
def left (mask : Text) (s : MatchState) : Nat := s.na.length * (mask.length + 1) + s.m.length

/-- What a round may do: go on with a search that is closer to its end, or give a right verdict. -/
def Steps (mask name : Text) (s : MatchState) : MatchState ⊕ Bool → Prop
  | .inl next => Searches mask name next ∧ left mask next < left mask s
  | .inr verdict => (verdict = true ↔ MaskMatches mask name)

theorem Steps.of_le {t : MatchState} {out : MatchState ⊕ Bool} (steps : Steps mask name t out)
    (closer : left mask t ≤ left mask s) : Steps mask name s out := by
  cases out with
  | inl next => exact ⟨steps.1, steps.2.trans_le closer⟩
  | inr verdict => exact steps

namespace Searches

theorem length_ma (inv : Searches mask name s) : s.ma.length ≤ mask.length := by
  cases wild : s.wild with
  | false => rw [(inv.start wild).1]
  | true =>
    obtain ⟨before, rfl⟩ := (inv.star wild).2
    rw [List.length_append, List.length_cons]
    omega

theorem retry {d : Char} {n : Text} (inv : Searches mask name s) (wild : s.wild = true)
    (some_ : s.na = d :: n) (failed : ¬ MaskMatches s.ma s.na) :
    Searches mask name s.restart where
  taken := ⟨[], [], rfl, rfl, .nil⟩
  start none_ := absurd (wild.symm.trans none_) nofun
  star := inv.star
  rest _ := by
    have moved : MaskMatches ('*' :: s.ma) s.na ↔ MaskMatches ('*' :: s.ma) n := by
      rw [some_] at failed ⊢
      exact glob_retry (show (· = '*') '*' from rfl) failed
    rw [inv.rest wild, moved]
    unfold restart
    rw [some_, List.tail_cons]

theorem left_retry {d : Char} {n : Text} (inv : Searches mask name s) (some_ : s.na = d :: n) :
    left mask s.restart < left mask s := by
  have short := inv.length_ma
  unfold left restart
  simp only [some_, List.tail_cons, List.length_cons, Nat.add_mul, Nat.one_mul]
  omega

theorem matches_plain (inv : Searches mask name s) (plain : s.wild = false) :
    MaskMatches mask name ↔ MaskMatches s.m s.n := by
  obtain ⟨seg, run, ma, na, taken⟩ := inv.taken
  rw [← (inv.start plain).1, ← (inv.start plain).2, ma, na]
  exact glob_taken taken

theorem length_eq (inv : Searches mask name s) :
    s.ma.length + s.n.length = s.na.length + s.m.length := by
  obtain ⟨seg, run, ma, na, taken⟩ := inv.taken
  have same := taken.length_eq
  rw [ma, na, List.length_append, List.length_append]
  omega

/-- **A star is passed**, and both marks are set behind it. -/
theorem pass (inv : Searches mask name s) (star : s.m.head? = some '*') :
    Searches mask name s.passed := by
  obtain ⟨seg, run, ma, na, taken⟩ := inv.taken
  obtain ⟨m, whole⟩ : ∃ m, s.m = '*' :: m := List.head?_eq_some_iff.mp star
  have gone : s.m.dropWhile (· = '*') = m.dropWhile (· = '*') := by
    rw [whole, List.dropWhile_cons_of_pos (by decide)]
  have behind : ∀ name, MaskMatches s.m name ↔ MaskMatches ('*' :: s.m.dropWhile (· = '*')) name := by
    intro name
    rw [gone, whole]
    exact glob_star_dropWhile rfl
  refine ⟨⟨[], [], rfl, rfl, .nil⟩, nofun, fun _ => ⟨?_, ?_⟩, fun _ => ?_⟩
  · intro again
    have stop := List.head?_dropWhile_not (· = '*') s.m
    have head : (s.m.dropWhile (· = '*')).head? = some '*' := again
    rw [head] at stop
    exact absurd stop (by decide)
  · obtain ⟨before, same⟩ : ∃ before, mask = before ++ s.m := by
      cases wild : s.wild with
      | false => exact ⟨seg, ((inv.start wild).1).symm.trans ma⟩
      | true =>
        obtain ⟨before, same⟩ := (inv.star wild).2
        exact ⟨before ++ '*' :: seg, by rw [same, ma]; simp⟩
    obtain ⟨stars, split⟩ := last_of_stars m
    refine ⟨before ++ stars, ?_⟩
    show mask = before ++ stars ++ '*' :: s.m.dropWhile (· = '*')
    rw [gone, List.append_assoc, ← split, ← whole, same]
  · refine Iff.trans ?_ (behind s.n)
    cases wild : s.wild with
    | false => exact inv.matches_plain wild
    | true =>
      refine (inv.rest wild).trans ?_
      rw [ma, na, whole]
      exact glob_commit rfl rfl taken

theorem left_pass (inv : Searches mask name s) :
    left mask s.passed ≤ left mask s := by
  obtain ⟨seg, run, ma, na, taken⟩ := inv.taken
  have shorter : (s.m.dropWhile (· = '*')).length ≤ s.m.length := (List.dropWhile_sublist _).length_le
  unfold left passed
  rw [na, List.length_append, Nat.add_mul]
  dsimp only
  omega

/-- What is left to match from the mark on has more characters than the mask has. -/
theorem failed_end (inv : Searches mask name s) (ended : s.m = []) (some_ : s.n ≠ []) :
    ¬ MaskMatches s.ma s.na := by
  obtain ⟨seg, run, ma, na, taken⟩ := inv.taken
  rw [ma, na, ended]
  exact fun found => some_ ((glob_taken taken).mp found)

theorem failed_misfit {c d : Char} {m n : Text} (inv : Searches mask name s) (hm : s.m = c :: m)
    (hn : s.n = d :: n) (plain : c ≠ '*') (misfit : ¬ Fits c d) : ¬ MaskMatches s.ma s.na := by
  obtain ⟨seg, run, ma, na, taken⟩ := inv.taken
  rw [ma, na, hm, hn]
  exact fun found => misfit ((maskMatches_cons plain).mp ((glob_taken taken).mp found)).1

theorem exists_na (inv : Searches mask name s) (some_ : s.n ≠ []) : ∃ d n, s.na = d :: n := by
  obtain ⟨seg, run, ma, na, taken⟩ := inv.taken
  exact List.exists_cons_of_ne_nil fun none_ =>
    some_ (List.append_eq_nil_iff.mp (na.symm.trans none_)).2

theorem steps_misfit (inv : Searches mask name s) (some_ : s.n ≠ [])
    (failed : ¬ MaskMatches s.ma s.na) :
    Steps mask name s (if s.wild then .inl s.restart else .inr false) := by
  obtain ⟨d, n, na⟩ := inv.exists_na some_
  cases wild : s.wild with
  | true => exact ⟨inv.retry wild na failed, inv.left_retry na⟩
  | false =>
    obtain ⟨ma, na⟩ := inv.start wild
    rw [ma, na] at failed
    exact iff_of_false Bool.false_ne_true failed

/-- **The comparison**, with a character on both sides. -/
theorem steps_compare {c d : Char} {m n : Text} (inv : Searches mask name s) (hm : s.m = c :: m)
    (hn : s.n = d :: n) (plain : c ≠ '*') : Steps mask name s s.compare := by
  by_cases fits : Fits c d
  · rw [compare_fits hm hn fits]
    obtain ⟨seg, run, ma, na, taken⟩ := inv.taken
    have more : Taken (· = '*') Fits (seg ++ [c]) (run ++ [d]) :=
      List.rel_append taken (.cons ⟨plain, fits⟩ .nil)
    refine ⟨⟨⟨seg ++ [c], run ++ [d], ?_, ?_, more⟩, inv.start, inv.star, inv.rest⟩, ?_⟩
    · rw [ma, hm, List.append_assoc]
      rfl
    · rw [na, hn, List.append_assoc]
      rfl
    · unfold left
      rw [hm, List.length_cons]
      exact Nat.lt_succ_self _
  · have differ : s.m.head?.map toLower ≠ s.n.head?.map toLower := by
      rw [hm, hn]
      exact fun same => fits (.inr (Option.some.inj same))
    have known : s.m.head? ≠ some '?' := by
      rw [hm]
      exact fun same => fits (.inl (Option.some.inj same))
    rw [compare_misfit differ known]
    exact inv.steps_misfit (by simp [hn]) (inv.failed_misfit hm hn plain fits)

/-- The scan back from the end of the mask finds the last star, and as many question marks behind it
as characters were compared. -/
theorem matches_of_endsInStar (inv : Searches mask name s) (ended : s.m = [])
    (found : endsInStar mask = true) : MaskMatches mask name := by
  obtain ⟨seg, run, ma, na, taken⟩ := inv.taken
  rw [ended, List.append_nil] at ma
  obtain ⟨before, qs, whole, any⟩ := exists_of_endsInStar found
  cases wild : s.wild with
  | false =>
    have inside : '*' ∈ seg := by
      rw [← ma, (inv.start wild).1, whole]
      simp
    exact absurd rfl (taken.plain '*' inside)
  | true =>
    obtain ⟨front, same⟩ := (inv.star wild).2
    obtain rfl : qs = seg := by
      refine eq_behind_last (fun star => ?_) (fun star => taken.plain '*' star rfl)
        (whole.symm.trans (ma ▸ same))
      exact absurd (any '*' star) (by decide)
    rw [inv.rest wild, maskMatches_star, ma]
    have room : qs.length ≤ s.na.length := by
      rw [na, List.length_append, taken.length_eq]
      omega
    refine ⟨s.na.drop (s.na.length - qs.length), List.drop_suffix .., matches_of_any any ?_⟩
    rw [List.length_drop]
    omega

theorem skip (inv : Searches mask name s) :
    Searches mask name (if s.m.head? = some '*' then s.passed else s) ∧
      (if s.m.head? = some '*' then s.passed else s).m.head? ≠ some '*' ∧
      left mask (if s.m.head? = some '*' then s.passed else s) ≤ left mask s := by
  by_cases star : s.m.head? = some '*'
  · rw [if_pos star]
    exact ⟨inv.pass star, ((inv.pass star).star rfl).1, inv.left_pass⟩
  · rw [if_neg star]
    exact ⟨inv, star, le_rfl⟩

theorem matches_done (inv : Searches mask name s) (ended : s.m = []) (done : s.n = []) :
    MaskMatches mask name := by
  cases wild : s.wild with
  | false =>
    rw [inv.matches_plain wild, ended, done]
    rfl
  | true =>
    obtain ⟨seg, run, ma, na, taken⟩ := inv.taken
    rw [inv.rest wild, ma, na, ended, done, List.append_nil, List.append_nil]
    exact maskMatches_star.mpr ⟨run, List.suffix_rfl, taken.glob⟩

theorem not_matches_short {c : Char} {m : Text} (inv : Searches mask name s) (hm : s.m = c :: m)
    (plain : c ≠ '*') (done : s.n = []) : ¬ MaskMatches mask name := by
  cases wild : s.wild with
  | false =>
    rw [inv.matches_plain wild, hm, done]
    exact not_glob_nil plain
  | true =>
    obtain ⟨seg, run, ma, na, taken⟩ := inv.taken
    have items : ∀ p ∈ seg ++ [c], ¬ p = '*' := by
      intro p member
      rcases List.mem_append.mp member with member | member
      · exact taken.plain p member
      · rwa [List.mem_singleton.mp member]
    have short : run.length < (seg ++ [c]).length := by
      rw [List.length_append, taken.length_eq]
      exact Nat.lt_succ_self _
    rw [inv.rest wild, ma, na, hm, done, List.append_nil, List.append_cons]
    exact not_glob_star_of_length_lt rfl items short

theorem at_restart (inv : Searches mask name s) (ended : s.m = []) (some_ : s.n ≠ [])
    (wild : s.wild = true) :
    Searches mask name s.restart ∧ left mask s.restart < left mask s := by
  obtain ⟨d, n, na⟩ := inv.exists_na some_
  exact ⟨inv.retry wild na (inv.failed_end ended some_), inv.left_retry na⟩

/-- It has a character to compare when there is one behind the last star. -/
theorem restart_open (inv : Searches mask name s) (ended : s.m = []) (some_ : s.n ≠ [])
    (more : s.ma ≠ []) : s.na.tail ≠ [] := by
  intro none_
  have count := inv.length_eq
  have short := congrArg List.length none_
  have items := List.length_pos_of_ne_nil more
  have letters := List.length_pos_of_ne_nil some_
  rw [List.length_tail, List.length_nil] at short
  rw [ended, List.length_nil] at count
  omega

/-- The end of the mask, with something left of the name behind it: the comparison is made at the
next place at once. -/
theorem steps_restart (inv : Searches mask name s) (ended : s.m = []) (some_ : s.n ≠ [])
    (wild : s.wild = true) : Steps mask name s s.restart.compare := by
  obtain ⟨again, closer⟩ := inv.at_restart ended some_ wild
  cases hm : s.ma with
  | nil =>
    cases hn : s.na.tail with
    | nil =>
      have stays : s.restart.compare = .inl s.restart := by
        unfold compare restart
        rw [hm, hn]
        rfl
      rw [stays]
      exact ⟨again, closer⟩
    | cons e n =>
      have left_ : s.restart.n ≠ [] := by
        show s.na.tail ≠ []
        rw [hn]
        exact List.cons_ne_nil e n
      have differ : s.restart.compare = if s.restart.wild then .inl s.restart.restart else .inr false := by
        apply compare_misfit
        · show s.ma.head?.map toLower ≠ s.na.tail.head?.map toLower
          rw [hm, hn]
          exact nofun
        · show s.ma.head? ≠ some '?'
          rw [hm]
          exact nofun
      rw [differ]
      exact (again.steps_misfit left_ (again.failed_end hm left_)).of_le closer.le
  | cons c m =>
    obtain ⟨e, n, hn⟩ := List.exists_cons_of_ne_nil
      (inv.restart_open ended some_ (by rw [hm]; exact List.cons_ne_nil c m))
    have plain : c ≠ '*' := fun same => (inv.star wild).1 (by rw [hm, same]; rfl)
    exact (again.steps_compare hm hn plain).of_le closer.le

/-- **A round keeps the search and brings it closer to its end, or its verdict is right.** -/
theorem round (inv : Searches mask name s) : Steps mask name s (s.round mask) := by
  obtain ⟨inv, star, closer⟩ := inv.skip
  refine Steps.of_le ?_ closer
  unfold MatchState.round
  unfold passed at inv star ⊢
  dsimp only at inv star ⊢
  generalize (if s.m.head? = some '*' then _ else s) = t at inv star ⊢
  by_cases ended : t.m = []
  · rw [if_pos ended]
    by_cases done : t.n = []
    · rw [if_pos done]
      exact iff_of_true rfl (inv.matches_done ended done)
    · rw [if_neg done]
      by_cases back : endsInStar mask = true
      · rw [if_pos back]
        exact iff_of_true rfl (inv.matches_of_endsInStar ended back)
      · rw [if_neg back]
        cases wild : t.wild with
        | false =>
          refine iff_of_false Bool.false_ne_true ?_
          rw [inv.matches_plain wild, ended]
          exact done
        | true =>
          have step := inv.steps_restart ended done wild
          unfold restart at step
          rwa [wild] at step
  · rw [if_neg ended]
    obtain ⟨c, m, hm⟩ := List.exists_cons_of_ne_nil ended
    have plain : c ≠ '*' := fun same => star (by rw [hm, same]; rfl)
    by_cases done : t.n = []
    · have short := inv.not_matches_short hm plain done
      rw [if_pos done, hm, List.dropWhile_cons_of_neg (by simpa using plain)]
      exact iff_of_false nofun short
    · rw [if_neg done]
      obtain ⟨d, n, hn⟩ := List.exists_cons_of_ne_nil done
      exact inv.steps_compare hm hn plain

end Searches

end MatchState

/-! ### The verdict -/

/-- The pointers of `match` at its first round. -/
abbrev matchStart (mask name : Text) : MatchState := ⟨mask, name, mask, name, false⟩

/-- The verdict of the rounds, if so many suffice for one. -/
def matchVerdict (mask : Text) : Nat → MatchState → Option Bool
  | 0, _ => none
  | calls + 1, s =>
    match s.round mask with
    | .inl next => matchVerdict mask calls next
    | .inr verdict => some verdict

section

variable {mask name : Text} {s : MatchState} {verdict : Bool} {calls : Nat}

theorem matchLoop_eq (mask : Text) (calls : Nat) (s : MatchState) :
    matchLoop mask calls s = (matchVerdict mask calls s).getD false := by
  induction calls generalizing s with
  | zero => rfl
  | succ calls ih =>
    unfold matchLoop matchVerdict
    cases s.round mask with
    | inl next => exact ih next
    | inr verdict => rfl

/-- **The verdict is right.** -/
theorem matchVerdict_iff (inv : s.Searches mask name)
    (found : matchVerdict mask calls s = some verdict) : verdict = true ↔ MaskMatches mask name := by
  induction calls generalizing s with
  | zero => cases found
  | succ calls ih =>
    have steps := inv.round
    unfold matchVerdict at found
    cases made : s.round mask with
    | inl next =>
      rw [made] at steps found
      exact ih steps.1 found
    | inr given =>
      rw [made] at steps found
      exact Option.some.inj found ▸ steps

/-- **It is reached** when there are more rounds than the search is from its end. -/
theorem matchVerdict_isSome (inv : s.Searches mask name) (enough : s.left mask < calls) :
    (matchVerdict mask calls s).isSome = true := by
  induction calls generalizing s with
  | zero => exact absurd enough (Nat.not_lt_zero _)
  | succ calls ih =>
    have steps := inv.round
    unfold matchVerdict
    cases made : s.round mask with
    | inl next =>
      rw [made] at steps
      exact ih steps.1 (by have closer := steps.2; omega)
    | inr given => rfl

end

/-- Rounds that suffice for every mask and name of these lengths. -/
def roundsEnough (mask name : Text) : Nat := (name.length + 1) * (mask.length + 1)

theorem left_matchStart (mask name : Text) :
    (matchStart mask name).left mask < roundsEnough mask name := by
  unfold MatchState.left roundsEnough
  rw [Nat.add_mul, Nat.one_mul]
  exact Nat.lt_succ_self _

theorem matchVerdict_eq_iff (mask name : Text) :
    matchVerdict mask (roundsEnough mask name) (matchStart mask name) = some true ↔
      MaskMatches mask name := by
  have inv := MatchState.searches_start mask name
  obtain ⟨verdict, found⟩ := Option.isSome_iff_exists.mp
    (matchVerdict_isSome inv (left_matchStart mask name))
  rw [found, Option.some.injEq, matchVerdict_iff inv found]

instance (mask name : Text) : Decidable (MaskMatches mask name) :=
  decidable_of_iff _ (matchVerdict_eq_iff mask name)

/-- **`match` matches no more than the mask does.** -/
theorem matches_of_ircMatch {mask name : Text} (found : ircMatch mask name = true) :
    MaskMatches mask name := by
  rw [ircMatch, matchLoop_eq] at found
  cases made : matchVerdict mask MATCH_MAX_CALLS (matchStart mask name) with
  | none =>
    rw [made] at found
    cases found
  | some verdict =>
    rw [made] at found
    exact (matchVerdict_iff (MatchState.searches_start mask name) made).mp found

/-- The rounds of `match` are spent before there is a verdict. -/
def Spent (mask name : Text) : Prop :=
  matchVerdict mask MATCH_MAX_CALLS (matchStart mask name) = none

instance (mask name : Text) : Decidable (Spent mask name) := inferInstanceAs (Decidable (_ = none))

theorem not_spent {mask name : Text} (short : roundsEnough mask name ≤ MATCH_MAX_CALLS) :
    ¬ Spent mask name := by
  have found := matchVerdict_isSome (MatchState.searches_start mask name)
    ((left_matchStart mask name).trans_le short)
  intro spent
  rw [spent] at found
  cases found

/-- **`match` is complete up to its bound**: where the mask matches the name, it says so unless its
rounds are spent, which they are not on short strings. -/
theorem ircMatch_of_matches {mask name : Text} (found : MaskMatches mask name) :
    (ircMatch mask name = true ↔ ¬ Spent mask name) ∧
      (roundsEnough mask name ≤ MATCH_MAX_CALLS → ircMatch mask name = true) := by
  have verdict : ircMatch mask name = true ↔ ¬ Spent mask name := by
    unfold ircMatch Spent
    rw [matchLoop_eq]
    cases made : matchVerdict mask MATCH_MAX_CALLS (matchStart mask name) with
    | none => exact iff_of_false Bool.false_ne_true fun open_ => open_ rfl
    | some verdict =>
      have right := (matchVerdict_iff (MatchState.searches_start mask name) made).mpr found
      exact iff_of_true right nofun
  exact ⟨verdict, fun short => verdict.mpr (not_spent short)⟩

theorem ircMatch_of_matches_org : ircMatch "*!*@*.org".toList "a!b@irc.org".toList = true :=
  (ircMatch_of_matches (by decide)).2 (by decide)

/-! ### Short names -/

namespace MatchState

variable {mask name : Text} {s next : MatchState}

/-- How far the search is from its end at most, whatever the mask is. -/
def walk (s : MatchState) : Nat := s.na.length * (s.na.length + 1) + 2 * s.n.length

theorem Searches.length_n (inv : Searches mask name s) : s.n.length ≤ s.na.length := by
  obtain ⟨seg, run, -, na, -⟩ := inv.taken
  rw [na, List.length_append]
  exact Nat.le_add_left ..

theorem walk_restart (more : s.na ≠ []) : s.restart.walk + 2 ≤ s.walk := by
  obtain ⟨d, n, na⟩ := List.exists_cons_of_ne_nil more
  have shorter : (n.length + 1) * (n.length + 1 + 1) =
      n.length * (n.length + 1) + 2 * (n.length + 1) := by
    rw [Nat.mul_comm, ← Nat.add_mul]
  unfold walk restart
  simp only [na, List.tail_cons, List.length_cons, shorter]
  omega

/-- A comparison does not lead away, and comes closer where there is something to compare. -/
theorem walk_compare (made : s.compare = .inl next) :
    next.walk ≤ s.walk ∧ (s.n ≠ [] → s.n.length ≤ s.na.length → next.walk + 2 ≤ s.walk) := by
  unfold compare at made
  split at made
  · split at made
    · obtain rfl : s.restart = next := Sum.inl.inj made
      by_cases none_ : s.na = []
      · refine ⟨by simp [walk, restart, none_], fun more shape => ?_⟩
        rw [none_, List.length_nil] at shape
        exact absurd (List.length_eq_zero_iff.mp (Nat.le_zero.mp shape)) more
      · have closer := walk_restart none_
        exact ⟨by omega, fun _ _ => closer⟩
    · cases made
  · obtain rfl := Sum.inl.inj made
    unfold walk
    simp only [List.length_tail]
    refine ⟨by omega, fun more _ => ?_⟩
    have some_ := List.length_pos_of_ne_nil more
    omega

/-- **A round comes closer**, by two. -/
theorem Searches.walk_round (inv : Searches mask name s) (made : s.round mask = .inl next) :
    next.walk + 2 ≤ s.walk := by
  have passed : (if s.m.head? = some '*' then s.passed else s).walk ≤ s.walk := by
    split
    · have shape := inv.length_n
      have less := Nat.mul_le_mul shape (Nat.add_le_add_right shape 1)
      unfold MatchState.passed walk
      simp only []
      omega
    · exact Nat.le_refl _
  have inv := inv.skip.1
  unfold MatchState.round at made
  unfold MatchState.passed at inv passed
  dsimp only at inv passed made
  generalize (if s.m.head? = some '*' then _ else s) = t at inv passed made
  split at made
  · split at made
    · cases made
    · rename_i more
      split at made
      · cases made
      · split at made
        · cases made
        · have some_ : t.na ≠ [] := by
            intro none_
            have shape := inv.length_n
            rw [none_, List.length_nil] at shape
            exact more (List.length_eq_zero_iff.mp (Nat.le_zero.mp shape))
          have closer := (walk_compare made).1
          have restart := walk_restart some_
          unfold MatchState.restart at restart
          omega
  · split at made
    · cases made
    · rename_i more
      have closer := (walk_compare made).2 more inv.length_n
      omega

end MatchState

theorem matchVerdict_isSome_of_walk {mask name : Text} {s : MatchState} {calls : Nat}
    (inv : s.Searches mask name) (enough : s.walk < 2 * calls) :
    (matchVerdict mask calls s).isSome = true := by
  induction calls generalizing s with
  | zero => exact absurd enough (Nat.not_lt_zero _)
  | succ calls ih =>
    have steps := inv.round
    unfold matchVerdict
    cases made : s.round mask with
    | inl next =>
      rw [made] at steps
      have closer := inv.walk_round made
      exact ih steps.1 (by omega)
    | inr given => rfl

/-- **`match` is right about short names**, whatever the mask is. -/
theorem ircMatch_iff_of_short {mask name : Text} (short : name.length ≤ 30) :
    ircMatch mask name = true ↔ MaskMatches mask name := by
  have inv := MatchState.searches_start mask name
  have square := Nat.mul_le_mul short (Nat.add_le_add_right short 1)
  have enough : (matchStart mask name).walk < 2 * MATCH_MAX_CALLS := by
    unfold MatchState.walk MATCH_MAX_CALLS
    simp only []
    omega
  obtain ⟨verdict, found⟩ := Option.isSome_iff_exists.mp (matchVerdict_isSome_of_walk inv enough)
  rw [ircMatch, matchLoop_eq, found, Option.getD_some, matchVerdict_iff inv found]

/-- A mask for which a search from every character of a host compares almost the whole of it. -/
def costlyMask : CString := ⟨"*!*@*".toList ++ List.replicate 20 'a' ++ ['b'], by decide⟩

/-- A name with a host of `HOSTLEN` characters that the mask matches. -/
def costlyName : CString := ⟨"nick!user@".toList ++ List.replicate 62 'a' ++ ['b'], by decide⟩

/-- **The bound is too low** for some masks and names that the server matches. -/
theorem not_ircMatch_of_matches :
    ¬ ∀ mask name : CString, name.1.length ≤ NICKLEN + USERLEN + HOSTLEN + 5 →
      MaskMatches mask.1 name.1 → ircMatch mask.1 name.1 = true := by
  intro complete
  have found : MaskMatches costlyMask.1 costlyName.1 := by decide +kernel
  have given_up : ¬ ircMatch costlyMask.1 costlyName.1 = true := by decide +kernel
  exact given_up (complete costlyMask costlyName (by decide) found)

end PtlinkIrcd
