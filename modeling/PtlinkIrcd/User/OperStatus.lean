/-
**The operator status and its count, letter by letter.**

Both decoders of mode letters keep `Count.oper` while they read.

* `operLetter` — what one letter makes of the status and the count, of both decoders.
* `countsTwice` — the texts that count an operator a second time.
* `letters_count` — **every other text counts an operator as often as it makes one.**
* `lastSign` — the last sign of a letter that sets a mode without more ado.
-/

import PtlinkIrcd.User.ModeString

namespace PtlinkIrcd

/-! ### The status -/

/-- Whether a text gives a status to who is a local operator only, and counts it a second time.
`svs` is whether both letters give `UMODE_OPER`. -/
def countsTwice (svs : Bool) : Bool → Bool → Bool → Text → Bool
  | _, _, _, [] => false
  | oper, locop, add, c :: t =>
    if c = '+' then countsTwice svs oper locop true t
    else if c = '-' then countsTwice svs oper locop false t
    else if c = 'O' ∨ c = 'o' then
      if !add then countsTwice svs false false add t
      else if oper then countsTwice svs oper locop add t
      else if locop then true
      else if svs || c = 'o' then countsTwice svs true locop add t
      else countsTwice svs oper true add t
    else countsTwice svs oper locop add t

/-- Whether `UMODE_OPER` and `UMODE_LOCOP` are set, and `Count.oper`. -/
def UserModeState.status (m : UserModeState) : Bool × Bool × Int :=
  (m.umodes.has UMODE_OPER, m.umodes.has UMODE_LOCOP, m.oper)

/-- What one letter makes of these; `takes` is whether a status may be given. -/
def operLetter (svs takes add : Bool) (status : Bool × Bool × Int) (c : Char) :
    Bool × Bool × Int :=
  if c = 'O' ∨ c = 'o' then
    if add then
      if takes && !status.1 then
        if svs || c = 'o' then (true, status.2.1, status.2.2 + 1) else (false, true, status.2.2 + 1)
      else status
    else if status.1 || status.2.1 then (false, false, status.2.2 - 1) else status
  else status

theorem bitmask_apart {c : Char} (apart : ¬ (c = 'O' ∨ c = 'o')) :
    user_modes_from_c_to_bitmask c &&& UMODE_OPER = 0#32 ∧
      user_modes_from_c_to_bitmask c &&& UMODE_LOCOP = 0#32 :=
  ⟨bitmask_off (P := fun c => ¬ (c = 'O' ∨ c = 'o')) (by decide) apart,
    bitmask_off (P := fun c => ¬ (c = 'O' ∨ c = 'o')) (by decide) apart⟩

theorem status_change {m : UserModeState} {flag : Flags} (oper : flag &&& UMODE_OPER = 0#32)
    (locop : flag &&& UMODE_LOCOP = 0#32) (add : Bool) :
    UserModeState.status { m with umodes := m.umodes.change add flag } = m.status := by
  unfold UserModeState.status
  rw [Flags.change_has_of_disjoint oper, Flags.change_has_of_disjoint locop]

theorem userModeDefault_status {m : UserModeState} {c : Char} (apart : ¬ (c = 'O' ∨ c = 'o')) :
    (userModeDefault m c).status = m.status := by
  unfold userModeDefault
  split
  · exact status_change (bitmask_apart apart).1 (bitmask_apart apart).2 m.add
  · rfl

/-- The end of a status, when there is one. -/
theorem status_ended (m : UserModeState) (mine : Bool) {umodes : Flags}
    (oper : umodes.has UMODE_OPER = false) (locop : umodes.has UMODE_LOCOP = false) :
    UserModeState.status (if !m.umodes.has (UMODE_OPER ||| UMODE_LOCOP) then m else m.deoper mine umodes) =
      if m.status.1 || m.status.2.1 then (false, false, m.status.2.2 - 1) else m.status := by
  rw [Flags.has_or]
  show _ = if m.umodes.has UMODE_OPER || m.umodes.has UMODE_LOCOP then _ else _
  cases m.umodes.has UMODE_OPER || m.umodes.has UMODE_LOCOP with
  | true =>
    unfold UserModeState.status UserModeState.deoper
    simp [oper, locop]
  | false => rfl

theorem userModeLetter_status (server refuseR mine : Bool) (m : UserModeState) (c : Char) :
    (userModeLetter server refuseR mine m c).status = operLetter false server m.add m.status c := by
  have default := @userModeDefault_status m c
  have lost : Flags.has (m.umodes &&& USER_UMODES) UMODE_OPER = false ∧
      Flags.has (m.umodes &&& USER_UMODES) UMODE_LOCOP = false :=
    ⟨Flags.and_has_of_disjoint (by decide) _, Flags.and_has_of_disjoint (by decide) _⟩
  have self : Flags.has UMODE_OPER UMODE_OPER = true ∧ Flags.has UMODE_LOCOP UMODE_LOCOP = true ∧
      Flags.has UMODE_OPER UMODE_LOCOP = false ∧ Flags.has UMODE_LOCOP UMODE_OPER = false := by
    decide
  unfold userModeLetter operLetter
  by_cases plus : c = '+'
  · rw [if_pos plus, if_neg (by rw [plus]; decide)]
    rfl
  by_cases minus : c = '-'
  · rw [if_neg plus, if_pos minus, if_neg (by rw [minus]; decide)]
    rfl
  rw [if_neg plus, if_neg minus]
  by_cases letter : c = 'O' ∨ c = 'o'
  · rw [if_pos letter, if_pos letter]
    cases add : m.add with
    | true =>
      unfold UserModeState.status
      cases oper : m.umodes.has UMODE_OPER <;> cases server <;> rcases letter with rfl | rfl <;>
        simp [Flags.or_has, oper, self]
    | false =>
      rw [if_neg Bool.false_ne_true, if_neg Bool.false_ne_true]
      exact status_ended m _ lost.1 lost.2
  · rw [if_neg letter, if_neg letter]
    have same := default letter
    repeat' split
    all_goals first | rfl | exact same | exact status_change (by decide) (by decide) m.add

theorem svsModeLetter_status (m : UserModeState) (c : Char) :
    (svsModeLetter m c).status = operLetter true true m.add m.status c := by
  have lost : Flags.has (m.umodes &&& ~~~(UMODE_OPER ||| UMODE_LOCOP)) UMODE_OPER = false ∧
      Flags.has (m.umodes &&& ~~~(UMODE_OPER ||| UMODE_LOCOP)) UMODE_LOCOP = false :=
    ⟨Flags.and_has_of_disjoint (by decide) _, Flags.and_has_of_disjoint (by decide) _⟩
  have self : Flags.has UMODE_OPER UMODE_OPER = true ∧ Flags.has UMODE_OPER UMODE_LOCOP = false := by
    decide
  unfold svsModeLetter operLetter
  by_cases plus : c = '+'
  · rw [if_pos plus, if_neg (by rw [plus]; decide)]
    rfl
  by_cases minus : c = '-'
  · rw [if_neg plus, if_pos minus, if_neg (by rw [minus]; decide)]
    rfl
  rw [if_neg plus, if_neg minus]
  by_cases silent : c = 'n' ∨ c = 'l'
  · rw [if_pos silent, if_neg (by rcases silent with rfl | rfl <;> decide)]
  rw [if_neg silent]
  by_cases letter : c = 'O' ∨ c = 'o'
  · rw [if_pos letter, if_pos letter]
    cases m.add with
    | true =>
      unfold UserModeState.status
      cases oper : m.umodes.has UMODE_OPER <;> simp [Flags.or_has, oper, self]
    | false =>
      rw [if_neg Bool.false_ne_true, if_neg Bool.false_ne_true]
      exact status_ended m _ lost.1 lost.2
  · rw [if_neg letter, if_neg letter]
    split
    · rfl
    · exact status_change (bitmask_apart letter).1 (bitmask_apart letter).2 m.add

/-! ### A whole text -/

/-- Whether the modes are those of an operator, as a number. -/
def UserModeState.operators (m : UserModeState) : Int :=
  (m.umodes.has (UMODE_OPER ||| UMODE_LOCOP)).toInt

theorem operators_eq (m : UserModeState) : m.operators = (m.status.1 || m.status.2.1).toInt := by
  unfold UserModeState.operators UserModeState.status
  rw [Flags.has_or]

/-- **Every text that does not count twice counts an operator as often as it makes one.** -/
theorem letters_count {letter : UserModeState → Char → UserModeState} {svs takes : Bool}
    (sign : ∀ m c, (letter m c).add = if c = '+' then true else if c = '-' then false else m.add)
    (status : ∀ m c, (letter m c).status = operLetter svs takes m.add m.status c) (t : Text)
    (m : UserModeState)
    (once : takes = true → countsTwice svs m.status.1 m.status.2.1 m.add t = false) :
    (t.foldl letter m).oper - m.oper = (t.foldl letter m).operators - m.operators := by
  induction t generalizing m with
  | nil =>
    rw [List.foldl_nil]
    omega
  | cons c t ih =>
    have step : (letter m c).oper - m.oper = (letter m c).operators - m.operators ∧
        (takes = true →
          countsTwice svs (letter m c).status.1 (letter m c).status.2.1 (letter m c).add t = false) := by
      have oper : ∀ m : UserModeState, m.oper = m.status.2.2 := fun _ => rfl
      rw [operators_eq, operators_eq, oper, oper, sign, status]
      generalize m.status = before at once ⊢
      generalize m.add = add at once ⊢
      obtain ⟨isOper, isLocop, count⟩ := before
      unfold countsTwice at once
      unfold operLetter
      by_cases plus : c = '+'
      · rw [if_pos plus] at once
        rw [if_neg (by rw [plus]; decide), if_pos plus]
        exact ⟨by omega, once⟩
      by_cases minus : c = '-'
      · rw [if_neg plus, if_pos minus] at once
        rw [if_neg (by rw [minus]; decide), if_neg plus, if_pos minus]
        exact ⟨by omega, once⟩
      rw [if_neg plus, if_neg minus] at once ⊢
      by_cases named : c = 'O' ∨ c = 'o'
      · rw [if_pos named] at once ⊢
        generalize (svs || decide (c = 'o') : Bool) = both at once ⊢
        cases add <;> cases takes <;> cases isOper <;> cases isLocop <;> cases both <;>
          simp at once ⊢ <;> omega
      · rw [if_neg named] at once ⊢
        exact ⟨by omega, once⟩
    have rest := ih (letter m c) step.2
    rw [List.foldl_cons]
    omega

/-! ### The last sign of a letter -/

/-- The last sign under which a text names a letter. -/
def lastSign (letter : Char) : Bool → Text → Option Bool
  | _, [] => none
  | add, c :: t =>
    if c = '+' then lastSign letter true t
    else if c = '-' then lastSign letter false t
    else if c = letter then (lastSign letter add t).or (some add)
    else lastSign letter add t

theorem svsModeLetter_invisible (m : UserModeState) (c : Char) :
    (svsModeLetter m c).umodes.has UMODE_INVISIBLE =
      if c = 'i' then m.add else m.umodes.has UMODE_INVISIBLE := by
  by_cases named : c = 'i'
  · subst named
    exact Flags.change_has_self (by decide) m.umodes m.add
  · have other : user_modes_from_c_to_bitmask c &&& UMODE_INVISIBLE = 0#32 :=
      bitmask_off (P := fun c => c ≠ 'i') (by decide) named
    have given : Flags.has (m.umodes ||| UMODE_OPER) UMODE_INVISIBLE =
        m.umodes.has UMODE_INVISIBLE := by
      rw [Flags.or_has, Flags.has_of_disjoint (by decide : UMODE_OPER &&& UMODE_INVISIBLE = 0#32),
        Bool.or_false]
    have ended : Flags.has (m.umodes &&& ~~~(UMODE_OPER ||| UMODE_LOCOP)) UMODE_INVISIBLE =
        m.umodes.has UMODE_INVISIBLE := Flags.and_has (by decide) m.umodes
    rw [if_neg named]
    unfold svsModeLetter
    repeat' split
    all_goals first | rfl | exact given | exact ended | exact Flags.change_has_of_disjoint other ..

/-- The services decide over the invisible mode with the last sign of its letter. -/
theorem svsLetters_invisible (t : Text) (m : UserModeState) :
    (t.foldl svsModeLetter m).umodes.has UMODE_INVISIBLE =
      (lastSign 'i' m.add t).getD (m.umodes.has UMODE_INVISIBLE) := by
  induction t generalizing m with
  | nil => rfl
  | cons c t ih =>
    rw [List.foldl_cons, ih, svsModeLetter_add, svsModeLetter_invisible, lastSign]
    by_cases plus : c = '+'
    · rw [if_pos plus, if_pos plus, if_neg (by rw [plus]; decide)]
    rw [if_neg plus, if_neg plus]
    by_cases minus : c = '-'
    · rw [if_pos minus, if_pos minus, if_neg (by rw [minus]; decide)]
    rw [if_neg minus, if_neg minus]
    by_cases named : c = 'i'
    · rw [if_pos named, if_pos named]
      cases lastSign 'i' m.add t <;> rfl
    · rw [if_neg named, if_neg named]

end PtlinkIrcd
