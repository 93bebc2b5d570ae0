/-
**The reads of `match`.**

`match` with its pointers as positions in both strings; a read outside of a string has no result but
says on which side of it the read was.

* `matchReads` — the function; `MatchPointers.rest` forgets the positions.
* `round_rest` — a round reads inside of the strings and does what `MatchState.round` does, but for
  the scan back from the end of an empty mask.
* `matchReads_eq`, `matchReads_empty` — **the whole run**: `match` gives the verdict of `ircMatch`,
  or reads what is before an empty mask.
-/

import PtlinkIrcd.Model.Match

namespace PtlinkIrcd

/-- Where a read outside of a string is. -/
inductive Stray where
  | before
  | beyond
  deriving DecidableEq, Repr

/-- What is read at a position of a string. -/
def peek (t : Text) (i : Int) : Except Stray Char :=
  if i < 0 then .error .before
  else if i < t.length then .ok (t.getD i.toNat NUL)
  else if i = t.length then .ok NUL
  else .error .beyond

theorem ok_bind {α β : Type} (a : α) (f : α → Except Stray β) : (Except.ok a >>= f) = f a := rfl

theorem lt_length_of_peek {t : Text} {m : Nat} {c : Char} (seen : peek t m = .ok c) (some_ : c ≠ NUL) :
    m < t.length := by
  unfold peek at seen
  split_ifs at seen with negative inside ended
  · omega
  · exact absurd (Except.ok.inj seen).symm some_

/-- `while (*m == '*') m++;` -/
def spin (mask : Text) (m : Nat) : Except Stray Nat :=
  match seen : peek mask m with
  | .error stray => .error stray
  | .ok c => if star : c = '*' then spin mask (m + 1) else .ok m
termination_by mask.length - m
decreasing_by
  have inside := lt_length_of_peek seen (star ▸ by decide)
  omega

/-- `for (m--; (m > mask) && (*m == '?'); m--);` behind the first `m--`. -/
def backOver (mask : Text) (m : Int) : Except Stray Int :=
  if 0 < m then
    match peek mask m with
    | .error stray => .error stray
    | .ok c => if c = '?' then backOver mask (m - 1) else .ok m
  else .ok m
termination_by m.toNat

/-- The pointers of `match`, as positions. -/
structure MatchPointers where
  m : Nat
  n : Nat
  ma : Nat
  na : Nat
  wild : Bool

namespace MatchPointers

def compare (mask name : Text) (s : MatchPointers) : Except Stray (MatchPointers ⊕ Bool) := do
  let c ← peek mask s.m
  let d ← peek name s.n
  if toLower c ≠ toLower d ∧ c ≠ '?' then
    if s.wild then return .inl { s with m := s.ma, n := s.na + 1, na := s.na + 1 }
    else return .inr false
  else
    return .inl { s with
      m := if c ≠ NUL then s.m + 1 else s.m
      n := if d ≠ NUL then s.n + 1 else s.n }

def skip (mask : Text) (s : MatchPointers) : Except Stray MatchPointers := do
  let c ← peek mask s.m
  if c = '*' then
    let m ← spin mask s.m
    return { s with m := m, wild := true, ma := m, na := s.n }
  else return s

def atEnd (mask name : Text) (s : MatchPointers) : Except Stray (MatchPointers ⊕ Bool) := do
  let d ← peek name s.n
  if d = NUL then return .inr true
  let m ← backOver mask (s.m - 1)
  let c ← peek mask m
  if c = '*' ∧ 0 < m then return .inr true
  if !s.wild then return .inr false
  compare mask name { s with m := s.ma, n := s.na + 1, na := s.na + 1 }

def round (mask name : Text) (s : MatchPointers) : Except Stray (MatchPointers ⊕ Bool) := do
  let s ← s.skip mask
  let c ← peek mask s.m
  if c = NUL then atEnd mask name s
  else
    let d ← peek name s.n
    if d = NUL then
      let m ← spin mask s.m
      let c ← peek mask m
      return .inr (c = NUL)
    else compare mask name s

end MatchPointers

def matchReadsFrom (mask name : Text) : Nat → MatchPointers → Except Stray Bool
  | 0, _ => .ok false
  | calls + 1, s => do
    match ← s.round mask name with
    | .inl next => matchReadsFrom mask name calls next
    | .inr verdict => return verdict

def matchReads (mask name : Text) : Except Stray Bool :=
  matchReadsFrom mask name MATCH_MAX_CALLS ⟨0, 0, 0, 0, false⟩

/-! ### Reads inside -/

section

variable {mask name t : Text} {s : MatchPointers}

/-- The first character of a rest, or the terminator. -/
def first (t : Text) : Char := t.head?.getD NUL

theorem peek_inside {i : Nat} (inside : i ≤ t.length) : peek t i = .ok (first (t.drop i)) := by
  unfold peek first
  rw [if_neg (by omega), List.head?_drop, Int.toNat_natCast]
  by_cases here : i < t.length
  · rw [if_pos (by omega), List.getD_eq_getElem?_getD]
  · rw [if_neg (by omega), if_pos (by omega), List.getElem?_eq_none (by omega)]
    rfl

theorem first_eq_nul (word : NUL ∉ t) : first t = NUL ↔ t = [] := by
  cases t with
  | nil => exact iff_of_true rfl rfl
  | cons c t => exact iff_of_false (List.ne_of_not_mem_cons word).symm nofun

theorem first_eq_iff {c : Char} (some_ : c ≠ NUL) : first t = c ↔ t.head? = some c := by
  cases t with
  | nil => exact iff_of_false some_.symm nofun
  | cons d t => exact ⟨congrArg some, Option.some.inj⟩

theorem toLower_nul {c : Char} (same : toLower c = toLower NUL) : c = NUL := by
  have folded := congrArg Char.toNat same
  rw [toLower_toNat, toLower_toNat] at folded
  have zero : NUL.toNat = 0 := rfl
  apply Char.toNat_inj.mp
  split_ifs at folded <;> omega

theorem toLower_first (word : NUL ∉ mask) (word_ : NUL ∉ name) :
    toLower (first mask) = toLower (first name) ↔ mask.head?.map toLower = name.head?.map toLower := by
  cases mask with
  | nil => cases name with
    | nil => exact iff_of_true rfl rfl
    | cons d n =>
      exact iff_of_false (fun same => List.ne_of_not_mem_cons word_ (toLower_nul same.symm).symm) nofun
  | cons c m => cases name with
    | nil => exact iff_of_false (fun same => List.ne_of_not_mem_cons word (toLower_nul same).symm) nofun
    | cons d n => exact ⟨congrArg some, Option.some.inj⟩

theorem not_mem_drop (word : NUL ∉ t) (i : Nat) : NUL ∉ t.drop i :=
  fun member => word (List.mem_of_mem_drop member)

/-- **The stars end before the terminator does.** -/
theorem spin_inside {m : Nat} (inside : m ≤ mask.length) :
    ∃ m', m' ≤ mask.length ∧ spin mask m = .ok m' ∧
      mask.drop m' = (mask.drop m).dropWhile (· = '*') := by
  fun_induction spin mask m with
  | case1 m stray seen => rw [peek_inside inside] at seen; cases seen
  | case2 m seen ih =>
    have here := lt_length_of_peek seen (by decide)
    obtain ⟨m', still, spun, rest⟩ := ih here
    rw [peek_inside inside, Except.ok.injEq, first_eq_iff (by decide)] at seen
    refine ⟨m', still, spun, ?_⟩
    obtain ⟨tail, whole⟩ := List.head?_eq_some_iff.mp seen
    rw [rest, whole, List.dropWhile_cons_of_pos (by decide), ← List.tail_drop, whole, List.tail_cons]
  | case3 m c seen plain =>
    refine ⟨m, inside, rfl, ?_⟩
    rw [peek_inside inside, Except.ok.injEq] at seen
    cases whole : mask.drop m with
    | nil => rfl
    | cons d rest =>
      rw [whole] at seen
      rw [List.dropWhile_cons_of_neg]
      exact fun star => plain (seen.symm.trans (of_decide_eq_true star))

/-- **The scan back stops at the start of the mask at the latest**, and finds what `endsInStar` says. -/
theorem backOver_inside {c : Char} {front qs : Text} (some_ : mask = c :: (front ++ qs)) :
    ∃ p : Nat, p ≤ front.length ∧ backOver mask front.length = .ok p ∧
      (first (mask.drop p) = '*' ∧ 0 < p ↔
        (front.reverse.dropWhile (· = '?')).head? = some '*') := by
  induction front using List.reverseRecOn generalizing qs with
  | nil =>
    refine ⟨0, le_rfl, ?_, iff_of_false (fun found => Nat.lt_irrefl 0 found.2) nofun⟩
    rw [backOver]
    exact if_neg (Int.lt_irrefl 0)
  | append_singleton front d ih =>
    have here : mask.drop (front ++ [d]).length = d :: qs := by
      rw [some_, List.length_append, List.length_singleton, List.drop_succ_cons, List.append_assoc,
        List.drop_left]
      rfl
    have inside : (front ++ [d]).length ≤ mask.length := by
      rw [some_, List.length_cons, @List.length_append _ _ qs]
      omega
    have positive : (0 : Int) < (front ++ [d]).length := by
      rw [List.length_append, List.length_singleton]
      omega
    rw [backOver, if_pos positive, peek_inside inside, here, List.reverse_append]
    by_cases any : d = '?'
    · obtain ⟨p, before, scanned, found⟩ := ih (some_.trans (by rw [List.append_assoc]))
      refine ⟨p, ?_, ?_, ?_⟩
      · rw [List.length_append]
        omega
      · have back : ((front ++ [d]).length : Int) - 1 = front.length := by
          rw [List.length_append, List.length_singleton]
          omega
        rw [back]
        exact (if_pos any).trans scanned
      · rw [found]
        show _ ↔ ((d :: front.reverse).dropWhile (· = '?')).head? = some '*'
        rw [List.dropWhile_cons_of_pos (by simpa using any)]
    · refine ⟨(front ++ [d]).length, le_rfl, if_neg any, ?_⟩
      rw [here]
      show d = '*' ∧ _ ↔ ((d :: front.reverse).dropWhile (· = '?')).head? = some '*'
      rw [List.dropWhile_cons_of_neg (by simpa using any), List.head?_cons, Option.some.injEq]
      exact and_iff_left (Int.natCast_pos.mp positive)

end

namespace MatchPointers

variable {mask name : Text} {s : MatchPointers}

/-- The pointers without their positions. -/
def rest (mask name : Text) (s : MatchPointers) : MatchState :=
  ⟨mask.drop s.m, name.drop s.n, mask.drop s.ma, name.drop s.na, s.wild⟩

/-- The pointers do not go beyond the terminators. -/
structure Inside (mask name : Text) (s : MatchPointers) : Prop where
  m : s.m ≤ mask.length
  n : s.n ≤ name.length
  ma : s.ma ≤ mask.length
  na : s.na ≤ name.length

/-- What is done with positions is what is done without, and stays inside. -/
def Agrees (mask name : Text) (out : Except Stray (MatchPointers ⊕ Bool)) : MatchState ⊕ Bool → Prop
  | .inl next => ∃ t, out = .ok (.inl t) ∧ t.Inside mask name ∧ t.rest mask name = next
  | .inr verdict => out = .ok (.inr verdict)

theorem drop_step {t : Text} {i : Nat} (word : NUL ∉ t) (inside : i ≤ t.length) :
    (if first (t.drop i) ≠ NUL then i + 1 else i) ≤ t.length ∧
      t.drop (if first (t.drop i) ≠ NUL then i + 1 else i) = (t.drop i).tail := by
  have ended := first_eq_nul (not_mem_drop word i)
  by_cases none_ : t.drop i = []
  · rw [if_neg (not_not_intro (ended.mpr none_)), none_]
    exact ⟨inside, rfl⟩
  · rw [if_pos (mt ended.mp none_), List.tail_drop]
    have here : i < t.length := by
      by_contra beyond
      exact none_ (List.drop_of_length_le (by omega))
    exact ⟨here, rfl⟩

theorem inside_restart (inside : s.Inside mask name) (inv : (s.rest mask name).Searches mask name)
    (some_ : name.drop s.n ≠ []) :
    Inside mask name { s with m := s.ma, n := s.na + 1, na := s.na + 1 } ∧
      rest mask name { s with m := s.ma, n := s.na + 1, na := s.na + 1 } =
        (s.rest mask name).restart := by
  obtain ⟨d, n, na⟩ := inv.exists_na some_
  have here : s.na < name.length := by
    by_contra beyond
    have none_ : name.drop s.na = [] := List.drop_of_length_le (by omega)
    exact List.cons_ne_nil d n (na.symm.trans none_)
  refine ⟨⟨inside.ma, here, inside.ma, here⟩, ?_⟩
  unfold rest MatchState.restart
  simp only [List.tail_drop]

/-- **The comparison reads inside.** -/
theorem compare_rest (inside : s.Inside mask name) (word : NUL ∉ mask) (word_ : NUL ∉ name)
    (inv : (s.rest mask name).Searches mask name)
    (open_ : mask.drop s.m ≠ [] → name.drop s.n ≠ []) :
    Agrees mask name (compare mask name s) (s.rest mask name).compare := by
  have folded := toLower_first (not_mem_drop word s.m) (not_mem_drop word_ s.n)
  have known : first (mask.drop s.m) = '?' ↔ (mask.drop s.m).head? = some '?' :=
    first_eq_iff (by decide)
  unfold compare MatchState.compare
  rw [peek_inside inside.m, ok_bind, peek_inside inside.n, ok_bind]
  change Agrees mask name _
    (if (mask.drop s.m).head?.map toLower ≠ (name.drop s.n).head?.map toLower ∧
        (mask.drop s.m).head? ≠ some '?' then _ else _)
  by_cases misfit : (mask.drop s.m).head?.map toLower ≠ (name.drop s.n).head?.map toLower ∧
      (mask.drop s.m).head? ≠ some '?'
  · rw [if_pos misfit, if_pos ⟨mt folded.mp misfit.1, mt known.mp misfit.2⟩]
    have some_ : name.drop s.n ≠ [] := fun none_ => by
      have ended : mask.drop s.m = [] := by_contra fun more => open_ more none_
      exact misfit.1 (by rw [none_, ended])
    show Agrees mask name (if s.wild = true then _ else _) (if s.wild = true then _ else _)
    cases wild : s.wild with
    | false => exact rfl
    | true =>
      obtain ⟨there, same⟩ := inside_restart inside inv some_
      rw [wild] at there same
      exact ⟨_, rfl, there, same⟩
  · rw [if_neg misfit, if_neg fun both => misfit ⟨mt folded.mpr both.1, mt known.mpr both.2⟩]
    obtain ⟨m, hm⟩ := drop_step word inside.m
    obtain ⟨n, hn⟩ := drop_step word_ inside.n
    refine ⟨_, rfl, ⟨m, n, inside.ma, inside.na⟩, ?_⟩
    unfold rest
    dsimp only
    rw [hm, hn]

theorem skip_rest (inside : s.Inside mask name) :
    ∃ t, s.skip mask = .ok t ∧ t.Inside mask name ∧ t.rest mask name =
      if (s.rest mask name).m.head? = some '*' then (s.rest mask name).passed else s.rest mask name := by
  have star : first (mask.drop s.m) = '*' ↔ (mask.drop s.m).head? = some '*' :=
    first_eq_iff (by decide)
  unfold skip
  rw [peek_inside inside.m, ok_bind]
  change ∃ t, _ ∧ _ ∧ _ = if (mask.drop s.m).head? = some '*' then _ else _
  by_cases some_ : (mask.drop s.m).head? = some '*'
  · obtain ⟨m, still, spun, behind⟩ := spin_inside inside.m
    rw [if_pos (star.mpr some_), if_pos some_, spun]
    refine ⟨_, rfl, ⟨still, inside.n, still, inside.n⟩, ?_⟩
    unfold rest MatchState.passed
    dsimp only
    rw [behind]
  · rw [if_neg (mt star.mp some_), if_neg some_]
    exact ⟨s, rfl, inside, rfl⟩

theorem atEnd_rest (inside : s.Inside mask name) (word : NUL ∉ mask) (word_ : NUL ∉ name)
    (inv : (s.rest mask name).Searches mask name) (some_ : mask ≠ []) (ended : mask.drop s.m = []) :
    Agrees mask name (atEnd mask name s)
      (if name.drop s.n = [] then .inr true
      else if endsInStar mask then .inr true
      else if !s.wild then .inr false
      else (s.rest mask name).restart.compare) := by
  have done := first_eq_nul (not_mem_drop word_ s.n)
  unfold atEnd
  rw [peek_inside inside.n, ok_bind]
  by_cases none_ : name.drop s.n = []
  · rw [if_pos none_, if_pos (done.mpr none_)]
    exact rfl
  · rw [if_neg none_, if_neg (mt done.mp none_)]
    obtain ⟨c, front, rfl⟩ := List.exists_cons_of_ne_nil some_
    have last : (s.m : Int) - 1 = front.length := by
      have long := List.drop_eq_nil_iff.mp ended
      have short := inside.m
      rw [List.length_cons] at long short
      omega
    obtain ⟨p, before, scanned, found⟩ :=
      backOver_inside (show c :: front = c :: (front ++ []) by rw [List.append_nil])
    have back : endsInStar (c :: front) = true ↔ first ((c :: front).drop p) = '*' ∧ (0 : Int) < p :=
      decide_eq_true_iff.trans (found.symm.trans (and_congr_right' (Int.natCast_pos).symm))
    rw [last, scanned, ok_bind, peek_inside (by rw [List.length_cons]; omega), ok_bind]
    by_cases star : endsInStar (c :: front) = true
    · rw [if_pos star, if_pos (back.mp star)]
      exact rfl
    · rw [if_neg star, if_neg (mt back.mpr star)]
      cases wild : s.wild with
      | false => exact rfl
      | true =>
        obtain ⟨there, same⟩ := inside_restart inside inv none_
        have again := (inv.at_restart ended none_ wild).1
        have open_ : (c :: front).drop s.ma ≠ [] → (name.drop s.na).tail ≠ [] :=
          inv.restart_open ended none_
        rw [List.tail_drop] at open_
        rw [wild] at there same
        rw [← same] at again
        have agrees := compare_rest there word word_ again open_
        rwa [same] at agrees

/-- **A round reads inside of the strings**, and does what a round without positions does. -/
theorem round_rest (inside : s.Inside mask name) (word : NUL ∉ mask) (word_ : NUL ∉ name)
    (inv : (s.rest mask name).Searches mask name) (some_ : mask ≠ []) :
    Agrees mask name (s.round mask name) ((s.rest mask name).round mask) := by
  obtain ⟨t, skipped, still, same⟩ := skip_rest inside
  have again := inv.skip
  rw [← same] at again
  obtain ⟨inv, star, -⟩ := again
  unfold MatchState.passed at same
  unfold MatchState.round round
  dsimp only at same ⊢
  rw [← same, skipped, ok_bind, peek_inside still.m, ok_bind]
  have ended := first_eq_nul (not_mem_drop word t.m)
  have done := first_eq_nul (not_mem_drop word_ t.n)
  change Agrees mask name _ (if mask.drop t.m = [] then _ else if name.drop t.n = [] then
    .inr (decide ((mask.drop t.m).dropWhile (· = '*') = [])) else _)
  by_cases none_ : mask.drop t.m = []
  · rw [if_pos none_, if_pos (ended.mpr none_)]
    exact atEnd_rest still word word_ inv some_ none_
  · rw [if_neg none_, if_neg (mt ended.mp none_), peek_inside still.n, ok_bind]
    by_cases short : name.drop t.n = []
    · obtain ⟨m, inside, spun, behind⟩ := spin_inside still.m
      rw [if_pos short, if_pos (done.mpr short), spun, ok_bind, peek_inside inside, ok_bind, ← behind]
      exact congrArg _ (congrArg _ (decide_eq_decide.mpr (first_eq_nul (not_mem_drop word m))))
    · rw [if_neg short, if_neg (mt done.mp short)]
      exact compare_rest still word word_ inv fun _ => short

end MatchPointers

/-! ### The whole run -/

section

variable {mask name : Text}

theorem matchReadsFrom_eq (word : NUL ∉ mask) (word_ : NUL ∉ name) (some_ : mask ≠ []) (calls : Nat)
    {s : MatchPointers} (inside : s.Inside mask name)
    (inv : (s.rest mask name).Searches mask name) :
    matchReadsFrom mask name calls s = .ok (matchLoop mask calls (s.rest mask name)) := by
  induction calls generalizing s with
  | zero => rfl
  | succ calls ih =>
    have steps := inv.round
    have agrees := MatchPointers.round_rest inside word word_ inv some_
    unfold matchReadsFrom matchLoop
    cases made : (s.rest mask name).round mask with
    | inl next =>
      rw [made] at steps agrees
      obtain ⟨t, round, still, rfl⟩ := agrees
      rw [round, ok_bind]
      exact ih still steps.1
    | inr verdict =>
      rw [made] at agrees
      have round : s.round mask name = .ok (.inr verdict) := agrees
      rw [round, ok_bind]
      rfl

/-- **With a mask that is not empty, `match` reads inside of both strings** and gives the verdict of
`ircMatch`. -/
theorem matchReads_eq (word : NUL ∉ mask) (word_ : NUL ∉ name) (some_ : mask ≠ []) :
    matchReads mask name = .ok (ircMatch mask name) :=
  matchReadsFrom_eq word word_ some_ MATCH_MAX_CALLS ⟨Nat.zero_le _, Nat.zero_le _, Nat.zero_le _, Nat.zero_le _⟩
    (MatchState.searches_start mask name)

end

theorem matchReads_nil : matchReads [] [] = .ok (ircMatch [] []) := rfl

/-- **With an empty mask and a name, the scan back reads what is before the mask.** -/
theorem matchReads_empty {name : Text} (word : NUL ∉ name) (some_ : name ≠ []) :
    matchReads [] name = .error .before := by
  have more : first (name.drop 0) ≠ NUL := mt (first_eq_nul word).mp some_
  have scanned : backOver [] (0 - 1) = .ok (-1) := by
    rw [backOver]
    rfl
  have ended : MatchPointers.atEnd [] name ⟨0, 0, 0, 0, false⟩ = .error .before := by
    unfold MatchPointers.atEnd
    rw [peek_inside (Nat.zero_le _), ok_bind, if_neg more]
    show (backOver [] (0 - 1) >>= _) = _
    rw [scanned, ok_bind]
    rfl
  have round : MatchPointers.round [] name ⟨0, 0, 0, 0, false⟩ = .error .before := ended
  show matchReadsFrom [] name (511 + 1) _ = _
  rw [matchReadsFrom, round]
  rfl

/-- **When `match` is sound and stays inside of its strings**: always, but for an empty mask and a
name that is not empty. It never reads beyond a terminator. -/
theorem matchReads_sound_iff (mask name : CString) :
    ((∃ verdict, matchReads mask.1 name.1 = .ok verdict ∧
        (verdict = true → MaskMatches mask.1 name.1)) ↔ mask.1 ≠ [] ∨ name.1 = []) ∧
      matchReads mask.1 name.1 ≠ .error .beyond := by
  by_cases some_ : mask.1 = []
  · rw [some_]
    by_cases none_ : name.1 = []
    · rw [none_, matchReads_nil]
      exact ⟨iff_of_true ⟨_, rfl, matches_of_ircMatch⟩ (.inr rfl), nofun⟩
    · rw [matchReads_empty name.2 none_]
      refine ⟨iff_of_false ?_ (not_or.mpr ⟨not_not_intro rfl, none_⟩), nofun⟩
      rintro ⟨verdict, read, -⟩
      cases read
  · rw [matchReads_eq mask.2 name.2 some_]
    exact ⟨iff_of_true ⟨_, rfl, matches_of_ircMatch⟩ (.inl some_), nofun⟩

theorem not_matchReads_sound :
    ¬ ∀ mask name : CString, ∃ verdict, matchReads mask.1 name.1 = .ok verdict ∧
      (verdict = true → MaskMatches mask.1 name.1) := by
  intro sound
  obtain ⟨verdict, read, -⟩ := sound ⟨[], by decide⟩ ⟨['x'], by decide⟩
  rw [matchReads_empty (by decide) (by decide)] at read
  cases read

end PtlinkIrcd
