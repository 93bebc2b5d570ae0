/-
**The texts that are addresses.**

`is_address` checks a number only at the dot or the slash behind it, and counts the dots only at a star.

* `AddressMask` — the texts `d.d.d.d`, `d.d.d.d/m` and `d.d.d.*` with the address and the mask of each.
* `cutText` — a text as its runs between dots and slashes; `addressLoop_pieces` and `addressLoop_last`
  say what the walk does with them.
* `is_address_isSome_iff` — what the walk accepts: `Passes`.
* `is_address_iff` — **it reads the addresses and nothing else exactly on the texts of these forms and
  those that do not pass**.
-/

import PtlinkIrcd.Conf.Kline

namespace PtlinkIrcd

/-! ### The forms of an address -/

def Digits (ds : Text) : Prop := ∀ c ∈ ds, c.isDigit = true

instance (ds : Text) : Decidable (Digits ds) := inferInstanceAs (Decidable (∀ c ∈ ds, _))

def decimal (ds : Text) : Nat := Nat.ofDigitChars 10 ds 0

/-- A decimal number of at most `bound`. -/
structure Numeral (bound : Nat) (ds : Text) : Prop where
  some_ : ds ≠ []
  digits : Digits ds
  small : decimal ds ≤ bound

def quad (w a b c d : Nat) : BitVec w := BitVec.ofNat w (((a * 256 + b) * 256 + c) * 256 + d)

def prefixMask (w m : Nat) : BitVec w := BitVec.ofNat w (2 ^ 32 - 2 ^ (32 - m))

/-- **What an address mask stands for.** -/
inductive AddressMask (w : Nat) : Text → BitVec w → BitVec w → Prop
  | plain {a b c d : Text} : Numeral 255 a → Numeral 255 b → Numeral 255 c → Numeral 255 d →
      AddressMask w (a ++ '.' :: (b ++ '.' :: (c ++ '.' :: d)))
        (quad w (decimal a) (decimal b) (decimal c) (decimal d)) (prefixMask w 32)
  | block {a b c d m : Text} : Numeral 255 a → Numeral 255 b → Numeral 255 c → Numeral 255 d →
      Numeral 32 m →
      AddressMask w (a ++ '.' :: (b ++ '.' :: (c ++ '.' :: (d ++ '/' :: m))))
        (quad w (decimal a) (decimal b) (decimal c) (decimal d)) (prefixMask w (decimal m))
  | star {a b c : Text} : Numeral 255 a → Numeral 255 b → Numeral 255 c →
      AddressMask w (a ++ '.' :: (b ++ '.' :: (c ++ '.' :: ['*'])))
        (quad w (decimal a) (decimal b) (decimal c) 0) (prefixMask w 24)

/-! ### A text as its runs -/

def isBreak (c : Char) : Bool := c = '.' || c = '/'

/-- The runs of a text with the character that ends each, and what is behind the last of these. -/
def cutText : Text → List (Text × Char) × Text
  | [] => ([], [])
  | c :: t =>
    match cutText t with
    | (pieces, last) =>
      if isBreak c then (([], c) :: pieces, last)
      else
        match pieces with
        | [] => ([], c :: last)
        | (run, sep) :: pieces => ((c :: run, sep) :: pieces, last)

def pasted (pieces : List (Text × Char)) : Text := pieces.flatMap fun p => p.1 ++ [p.2]

/-- No run has a character that ends one. -/
structure IsCut (pieces : List (Text × Char)) (last : Text) : Prop where
  runs : ∀ p ∈ pieces, (∀ c ∈ p.1, isBreak c = false) ∧ isBreak p.2 = true
  last : ∀ c ∈ last, isBreak c = false

theorem cutText_spec (t : Text) :
    pasted (cutText t).1 ++ (cutText t).2 = t ∧ IsCut (cutText t).1 (cutText t).2 := by
  induction t with
  | nil => exact ⟨rfl, nofun, nofun⟩
  | cons c t ih =>
    obtain ⟨whole, cut⟩ := ih
    rw [cutText]
    generalize cutText t = both at whole cut ⊢
    obtain ⟨pieces, last⟩ := both
    dsimp only at whole cut ⊢
    cases break_ : isBreak c with
    | true =>
      rw [if_pos rfl]
      refine ⟨?_, List.forall_mem_cons.mpr ⟨⟨nofun, break_⟩, cut.runs⟩, cut.last⟩
      rw [← whole]
      rfl
    | false =>
      rw [if_neg Bool.false_ne_true]
      cases pieces with
      | nil =>
        refine ⟨?_, nofun, List.forall_mem_cons.mpr ⟨break_, cut.last⟩⟩
        rw [← whole]
        rfl
      | cons p pieces =>
        obtain ⟨first, others⟩ := List.forall_mem_cons.mp cut.runs
        refine ⟨?_, List.forall_mem_cons.mpr ⟨⟨?_, first.2⟩, others⟩, cut.last⟩
        · rw [← whole]
          rfl
        · exact List.forall_mem_cons.mpr ⟨break_, first.1⟩

/-! ### The walk over the runs -/

section

variable {w : Nat} {s : AddressState w} {ds last : Text} {pieces : List (Text × Char)}

def AddressState.read (s : AddressState w) (ds : Text) : AddressState w :=
  ds.foldl (fun s c =>
    { s with octet := s.octet * 10 + BitVec.ofNat 32 (c.toNat &&& 0xF), last := some c }) s

theorem addressLoop_digits (digits : Digits ds) (rest : Text) (s : AddressState w) :
    addressLoop (ds ++ rest) s = addressLoop rest (s.read ds) := by
  induction ds generalizing s with
  | nil => rfl
  | cons c ds ih =>
    obtain ⟨digit, digits⟩ := List.forall_mem_cons.mp digits
    rw [List.cons_append, addressLoop, if_pos digit, ih digits]
    rfl

theorem and_15_of_isDigit {c : Char} (digit : c.isDigit = true) : c.toNat &&& 0xF = c.toNat - 48 := by
  have range := isDigit_range digit
  have low : c.toNat = 48 + (c.toNat - 48) := by omega
  generalize c.toNat - 48 = n at low ⊢
  have small : n ≤ 9 := by omega
  rw [low]
  interval_cases n <;> rfl

/-- **The digits are read as a number**, as far as an `unsigned int` goes. -/
theorem AddressState.read_eq (digits : Digits ds) {n : Nat} (before : s.octet = BitVec.ofNat 32 n) :
    s.read ds = { s with
      octet := BitVec.ofNat 32 (Nat.ofDigitChars 10 ds n)
      last := ds.getLast?.or s.last } := by
  induction ds generalizing s n with
  | nil =>
    rw [Nat.ofDigitChars_nil, ← before]
    rfl
  | cons c ds ih =>
    obtain ⟨digit, digits⟩ := List.forall_mem_cons.mp digits
    have next : s.octet * 10 + BitVec.ofNat 32 (c.toNat &&& 0xF) =
        BitVec.ofNat 32 (10 * n + (c.toNat - '0'.toNat)) := by
      rw [before, and_15_of_isDigit digit, Nat.mul_comm, BitVec.ofNat_add, BitVec.ofNat_mul]
      rfl
    have step : s.read (c :: ds) = ({ s with
      octet := s.octet * 10 + BitVec.ofNat 32 (c.toNat &&& 0xF), last := some c }).read ds := rfl
    rw [step, ih digits next, List.getLast?_cons, Nat.ofDigitChars_cons]
    cases ds.getLast? <;> rfl

/-- Another character than a digit, a dot or a slash is only taken for the star at the end of a block. -/
theorem addressLoop_other {c : Char} (other : c.isDigit = false) (inside : isBreak c = false)
    (rest : Text) (s : AddressState w) :
    addressLoop (c :: rest) s =
      if c = '*' ∧ s.dot_count = 3 ∧ rest = [] ∧ s.last = some '.' then
        some (s.current_ip <<< 8, BitVec.ofNat w 0xFFFFFF00)
      else none := by
  have plain : c ≠ '.' ∧ c ≠ '/' := by simpa [isBreak] using inside
  rw [addressLoop, if_neg (by rw [other]; exact Bool.false_ne_true), if_neg plain.1, if_neg plain.2]
  by_cases star : c = '*'
  · simp [star]
  · simp [star]

theorem split_digits (run : Text) (other : ¬ Digits run) :
    ∃ ds c more, Digits ds ∧ c.isDigit = false ∧ run = ds ++ c :: more := by
  obtain ⟨c, member, no⟩ : ∃ c ∈ run, ¬ c.isDigit = true := by simpa [Digits] using other
  have left : run.dropWhile Char.isDigit ≠ [] := fun none_ =>
    no (List.dropWhile_eq_nil_iff.mp none_ c member)
  refine ⟨run.takeWhile Char.isDigit, (run.dropWhile Char.isDigit).head left,
    (run.dropWhile Char.isDigit).tail, fun d inside => List.mem_takeWhile_imp inside, ?_, ?_⟩
  · simpa using List.head_dropWhile_not Char.isDigit left
  · rw [List.cons_head_tail, List.takeWhile_append_dropWhile]

/-- The walk behind a run and the character that ends it. -/
def AddressState.next (s : AddressState w) (p : Text × Char) : AddressState w :=
  let whole := (s.current_ip <<< 8) + (BitVec.ofNat 32 (decimal p.1)).setWidth w
  if p.2 = '.' then
    { s with current_ip := whole, octet := 0, dot_count := s.dot_count + 1, last := some '.' }
  else { s with current_ip := 0, octet := 0, ip_ptr := some whole, last := some '/' }

def OctetTaken (p : Text × Char) : Prop := Digits p.1 ∧ decimal p.1 % 2 ^ 32 ≤ 255

instance (p : Text × Char) : Decidable (OctetTaken p) := inferInstanceAs (Decidable (_ ∧ _))

/-- **A run is taken when it is a number of at most 255.** -/
theorem addressLoop_run {p : Text × Char} (start : s.octet = 0) (inside : ∀ c ∈ p.1, isBreak c = false)
    (ends : isBreak p.2 = true) (rest : Text) :
    addressLoop (p.1 ++ p.2 :: rest) s = if OctetTaken p then addressLoop rest (s.next p) else none := by
  obtain ⟨run, sep⟩ := p
  dsimp only at inside ends ⊢
  by_cases digits : Digits run
  · have small : (BitVec.ofNat 32 (decimal run)).toNat = decimal run % 2 ^ 32 := BitVec.toNat_ofNat ..
    have value : Nat.ofDigitChars 10 run 0 = decimal run := rfl
    have other : sep.isDigit = false := by
      rcases (by simpa [isBreak] using ends : sep = '.' ∨ sep = '/') with rfl | rfl <;> decide
    rw [addressLoop_digits digits, AddressState.read_eq digits (n := 0) start, addressLoop,
      if_neg (by rw [other]; exact Bool.false_ne_true), value]
    dsimp only
    rw [small]
    have taken : OctetTaken (run, sep) ↔ ¬ 255 < decimal run % 2 ^ 32 :=
      (and_iff_right digits).trans Nat.not_lt.symm
    by_cases big : 255 < decimal run % 2 ^ 32
    · rw [if_neg (fun fits => taken.mp fits big)]
      rcases (by simpa [isBreak] using ends : sep = '.' ∨ sep = '/') with rfl | rfl
      · exact if_pos big
      · exact if_pos big
    · rw [if_pos (taken.mpr big)]
      rcases (by simpa [isBreak] using ends : sep = '.' ∨ sep = '/') with rfl | rfl
      · exact if_neg big
      · exact if_neg big
  · obtain ⟨ds, c, more, digits', other, rfl⟩ := split_digits run digits
    have plain := inside c (List.mem_append_right _ List.mem_cons_self)
    rw [List.append_assoc, addressLoop_digits digits', List.cons_append, addressLoop_other other plain,
      if_neg (by simp), if_neg (fun taken => digits taken.1)]

theorem AddressState.next_octet (s : AddressState w) (p : Text × Char) : (s.next p).octet = 0 := by
  unfold AddressState.next
  dsimp only
  split <;> rfl

/-- **The walk over the runs.** -/
theorem addressLoop_pieces (start : s.octet = 0) (cut : IsCut pieces last) (rest : Text) :
    addressLoop (pasted pieces ++ rest) s =
      if ∀ p ∈ pieces, OctetTaken p then addressLoop rest (pieces.foldl AddressState.next s) else none := by
  induction pieces generalizing s with
  | nil => exact (if_pos nofun).symm
  | cons p pieces ih =>
    obtain ⟨first, others⟩ := List.forall_mem_cons.mp cut.runs
    have paste : pasted (p :: pieces) ++ rest = p.1 ++ p.2 :: (pasted pieces ++ rest) := by
      simp [pasted]
    rw [paste, addressLoop_run start first.1 first.2, List.foldl_cons,
      ih (s.next_octet p) ⟨others, cut.last⟩]
    simp only [List.forall_mem_cons]
    by_cases taken : OctetTaken p
    · simp only [taken, true_and, if_true]
    · rw [if_neg taken, if_neg (fun all => taken all.1)]

def AddressState.final (s : AddressState w) (last : Text) : BitVec w :=
  (s.current_ip <<< 8) + (BitVec.ofNat 32 (decimal last)).setWidth w

/-- **What is behind the last run**: a number, which is the length of a mask behind a slash, or the
star of a block. -/
theorem addressLoop_last (start : s.octet = 0) (inside : ∀ c ∈ last, isBreak c = false) :
    addressLoop last s =
      if Digits last then
        match s.ip_ptr with
        | some ip =>
          if 32 < (s.final last).toNat then none
          else some (ip, cidr_to_bitmask w (s.final last).toNat)
        | none => some (s.final last, BitVec.ofNat w 0xFFFFFFFF)
      else if last = ['*'] ∧ s.dot_count = 3 ∧ s.last = some '.' then
        some (s.current_ip <<< 8, BitVec.ofNat w 0xFFFFFF00)
      else none := by
  by_cases digits : Digits last
  · have whole := addressLoop_digits digits [] s
    rw [List.append_nil, AddressState.read_eq digits (n := 0) start] at whole
    rw [whole, if_pos digits]
    rfl
  · rw [if_neg digits]
    obtain ⟨ds, c, more, digits', other, rfl⟩ := split_digits last digits
    have plain := inside c (List.mem_append_right _ List.mem_cons_self)
    rw [addressLoop_digits digits', addressLoop_other other plain,
      AddressState.read_eq digits' (n := 0) start]
    dsimp only
    rcases List.eq_nil_or_concat' ds with rfl | ⟨ds, d, rfl⟩
    · simp [and_left_comm, and_assoc]
    · have digit : d.isDigit = true := digits' d (List.mem_append_right _ (List.mem_singleton_self d))
      rw [if_neg, if_neg]
      · rintro ⟨single, -⟩
        have length := congrArg List.length single
        simp only [List.length_append, List.length_cons, List.length_nil] at length
        omega
      · rintro ⟨-, -, -, dot⟩
        rw [List.getLast?_concat, Option.some_or] at dot
        rw [Option.some.inj dot] at digit
        exact absurd digit (by decide)

/-! ### What is accepted -/

/-- The number that the walk has, without an end to its bits. -/
def numberBehind (v : Nat) (pieces : List (Text × Char)) : Nat :=
  pieces.foldl (fun v p => if p.2 = '.' then v * 256 + decimal p.1 % 2 ^ 32 else 0) v

theorem shift_add (v m : Nat) :
    (BitVec.ofNat w v <<< 8) + (BitVec.ofNat 32 m).setWidth w = BitVec.ofNat w (v * 256 + m % 2 ^ 32) := by
  apply BitVec.eq_of_toNat_eq
  simp [Nat.shiftLeft_eq, Nat.add_mod, Nat.mul_mod]

theorem foldl_next_current (s : AddressState w) {v : Nat} (before : s.current_ip = BitVec.ofNat w v)
    (pieces : List (Text × Char)) :
    (pieces.foldl AddressState.next s).current_ip = BitVec.ofNat w (numberBehind v pieces) := by
  induction pieces generalizing s v with
  | nil => exact before
  | cons p pieces ih =>
    refine ih _ ?_
    unfold AddressState.next
    dsimp only
    split
    · rw [before, shift_add]
    · rfl

theorem foldl_next_dots (s : AddressState w) (pieces : List (Text × Char)) :
    (pieces.foldl AddressState.next s).dot_count =
      s.dot_count + pieces.countP (·.2 = '.') := by
  induction pieces generalizing s with
  | nil => rfl
  | cons p pieces ih =>
    rw [List.foldl_cons, ih, List.countP_cons]
    unfold AddressState.next
    dsimp only
    split
    · rw [if_pos (by simpa), Nat.add_right_comm]
      exact Nat.add_assoc ..
    · simp [*]

theorem foldl_next_octet (start : s.octet = 0) (pieces : List (Text × Char)) :
    (pieces.foldl AddressState.next s).octet = 0 := by
  rcases List.eq_nil_or_concat' pieces with rfl | ⟨front, p, rfl⟩
  · exact start
  · rw [List.foldl_append]
    exact AddressState.next_octet _ p

theorem foldl_next_last (s : AddressState w) (cut : IsCut pieces last) :
    (pieces.foldl AddressState.next s).last = (pieces.getLast?.map Prod.snd).or s.last := by
  rcases List.eq_nil_or_concat' pieces with rfl | ⟨front, p, rfl⟩
  · rfl
  · have ends := (cut.runs p (List.mem_append_right _ (List.mem_singleton_self p))).2
    rw [List.foldl_append, List.getLast?_concat]
    obtain ⟨run, sep⟩ := p
    rcases (by simpa [isBreak] using ends : sep = '.' ∨ sep = '/') with rfl | rfl <;> rfl

theorem foldl_next_slash (s : AddressState w) (pieces : List (Text × Char)) :
    (pieces.foldl AddressState.next s).ip_ptr = none ↔
      s.ip_ptr = none ∧ ∀ p ∈ pieces, p.2 = '.' := by
  induction pieces generalizing s with
  | nil => simp
  | cons p pieces ih =>
    rw [List.foldl_cons, ih, List.forall_mem_cons]
    unfold AddressState.next
    dsimp only
    split <;> simp [*]

/-- **What the walk takes for an address**, by the runs of the text: every run before a dot or a slash
is a number of at most 255, as an `unsigned int`; behind the last one is a number, of at most 32
when there is a slash, or a star behind the third dot. -/
structure Passes (w : Nat) (t : Text) : Prop where
  runs : ∀ p ∈ (cutText t).1, OctetTaken p
  ends : (Digits (cutText t).2 ∧ ((∀ p ∈ (cutText t).1, p.2 = '.') ∨
      (numberBehind 0 (cutText t).1 * 256 + decimal (cutText t).2 % 2 ^ 32) % 2 ^ w ≤ 32)) ∨
    ((cutText t).2 = ['*'] ∧ (cutText t).1.countP (·.2 = '.') = 3 ∧
      (cutText t).1.getLast?.map Prod.snd = some '.')

theorem is_address_eq (cut : IsCut pieces last) :
    is_address w (pasted pieces ++ last) =
      if ∀ p ∈ pieces, OctetTaken p then
        addressLoop last (pieces.foldl AddressState.next ⟨0, 0, none, 0, none⟩)
      else none :=
  addressLoop_pieces rfl cut last

theorem final_eq (pieces : List (Text × Char)) (last : Text) :
    (pieces.foldl AddressState.next (⟨0, 0, none, 0, none⟩ : AddressState w)).final last =
      BitVec.ofNat w (numberBehind 0 pieces * 256 + decimal last % 2 ^ 32) := by
  unfold AddressState.final
  rw [foldl_next_current _ (v := 0) rfl, shift_add]

/-- **`is_address` takes the texts that pass.** -/
theorem is_address_isSome_iff (w : Nat) (t : Text) : (is_address w t).isSome ↔ Passes w t := by
  obtain ⟨whole, cut⟩ := cutText_spec t
  have walk := @is_address_eq w _ _ cut
  rw [whole] at walk
  rw [walk]
  by_cases taken : ∀ p ∈ (cutText t).1, OctetTaken p
  case neg =>
    rw [if_neg taken]
    exact iff_of_false Bool.false_ne_true fun passes => taken passes.runs
  rw [if_pos taken, addressLoop_last (foldl_next_octet rfl _) cut.last, final_eq]
  have slash := foldl_next_slash (⟨0, 0, none, 0, none⟩ : AddressState w) (cutText t).1
  rw [and_iff_right rfl] at slash
  by_cases digits : Digits (cutText t).2
  · have noStar : (cutText t).2 ≠ ['*'] := fun star => by
      rw [star] at digits
      exact absurd (digits '*' List.mem_cons_self) (by decide)
    rw [if_pos digits]
    cases found : ((cutText t).1.foldl AddressState.next (⟨0, 0, none, 0, none⟩ : AddressState w)).ip_ptr with
    | none => exact iff_of_true rfl ⟨taken, .inl ⟨digits, .inl (slash.mp found)⟩⟩
    | some ip =>
      rw [found] at slash
      have some_ : ¬ ∀ p ∈ (cutText t).1, p.2 = '.' := fun dots => nomatch slash.mpr dots
      dsimp only
      rw [BitVec.toNat_ofNat]
      constructor
      · intro accepted
        refine ⟨taken, .inl ⟨digits, .inr (Nat.not_lt.mp fun long => ?_)⟩⟩
        rw [if_pos long] at accepted
        cases accepted
      · rintro ⟨-, ⟨-, dots | short⟩ | ⟨star, -⟩⟩
        · exact absurd dots some_
        · rw [if_neg (Nat.not_lt.mpr short)]
          rfl
        · exact absurd star noStar
  · rw [if_neg digits, foldl_next_dots, foldl_next_last _ cut, Nat.zero_add, Option.or_none]
    constructor
    · intro accepted
      refine ⟨taken, .inr ?_⟩
      by_contra other
      rw [if_neg other] at accepted
      cases accepted
    · rintro ⟨-, ⟨digits', -⟩ | star⟩
      · exact absurd digits' digits
      · rw [if_pos star]
        rfl

/-! ### The forms are read -/

theorem isBreak_of_digits (digits : Digits ds) : ∀ c ∈ ds, isBreak c = false := by
  intro c member
  have range := isDigit_range (digits c member)
  unfold isBreak
  rw [Bool.or_eq_false_iff, decide_eq_false_iff_not, decide_eq_false_iff_not]
  constructor <;> rintro rfl <;> exact absurd range (by decide)

theorem Numeral.taken {n : Nat} (number : Numeral n ds) (bound : n ≤ 255) (sep : Char) :
    OctetTaken (ds, sep) :=
  ⟨number.digits, (Nat.mod_le _ _).trans (number.small.trans bound)⟩

theorem Numeral.mod {n : Nat} (number : Numeral n ds) (bound : n ≤ 255) :
    decimal ds % 2 ^ 32 = decimal ds :=
  Nat.mod_eq_of_lt ((number.small.trans bound).trans_lt (by decide))

def threeRuns (a b c : Text) : List (Text × Char) := [(a, '.'), (b, '.'), (c, '.')]

section Forms

variable {a b c d m : Text}

theorem taken_three (first : Numeral 255 a) (second : Numeral 255 b) (third : Numeral 255 c) :
    ∀ p ∈ threeRuns a b c, OctetTaken p := by
  rw [threeRuns, List.forall_mem_cons, List.forall_mem_cons, List.forall_mem_singleton]
  exact ⟨first.taken le_rfl _, second.taken le_rfl _, third.taken le_rfl _⟩

theorem isCut_of_taken {pieces : List (Text × Char)} (taken : ∀ p ∈ pieces, OctetTaken p)
    (breaks : ∀ p ∈ pieces, isBreak p.2 = true) (inside : ∀ c ∈ last, isBreak c = false) :
    IsCut pieces last :=
  ⟨fun p member => ⟨isBreak_of_digits (taken p member).1, breaks p member⟩, inside⟩

theorem final_three (first : Numeral 255 a) (second : Numeral 255 b) (third : Numeral 255 c)
    (last : Text) :
    ((threeRuns a b c).foldl AddressState.next (⟨0, 0, none, 0, none⟩ : AddressState w)).final last =
      BitVec.ofNat w (((decimal a * 256 + decimal b) * 256 + decimal c) * 256 + decimal last % 2 ^ 32) := by
  rw [final_eq]
  unfold numberBehind threeRuns
  simp only [List.foldl_cons, List.foldl_nil, if_true, first.mod le_rfl, second.mod le_rfl,
    third.mod le_rfl, Nat.zero_mul, Nat.zero_add]

/-- **The forms of an address are read for what they stand for.** -/
theorem is_address_of_mask {t : Text} {ip mask : BitVec w} (wide : 32 ≤ w)
    (form : AddressMask w t ip mask) : is_address w t = some (ip, mask) := by
  cases form with
  | @plain a b c d first second third fourth =>
    have taken := taken_three first second third
    have cut : IsCut (threeRuns a b c) d :=
      isCut_of_taken taken (by simp [threeRuns, isBreak]) (isBreak_of_digits fourth.digits)
    have text : a ++ '.' :: (b ++ '.' :: (c ++ '.' :: d)) = pasted (threeRuns a b c) ++ d := by
      simp [pasted, threeRuns]
    rw [text, is_address_eq cut, if_pos taken, addressLoop_last (foldl_next_octet rfl _) cut.last,
      if_pos fourth.digits, final_three first second third, fourth.mod le_rfl]
    rfl
  | @block a b c d m first second third fourth length =>
    have three := taken_three first second third
    have taken : ∀ p ∈ threeRuns a b c ++ [(d, '/')], OctetTaken p :=
      List.forall_mem_append.mpr ⟨three, List.forall_mem_singleton.mpr (fourth.taken le_rfl _)⟩
    have cut : IsCut (threeRuns a b c ++ [(d, '/')]) m :=
      isCut_of_taken taken (by simp [threeRuns, isBreak]) (isBreak_of_digits length.digits)
    have text : a ++ '.' :: (b ++ '.' :: (c ++ '.' :: (d ++ '/' :: m))) =
        pasted (threeRuns a b c ++ [(d, '/')]) ++ m := by
      simp [pasted, threeRuns]
    have number : numberBehind 0 (threeRuns a b c ++ [(d, '/')]) = 0 := by
      unfold numberBehind
      rw [List.foldl_append]
      rfl
    have short : decimal m % 2 ^ w = decimal m :=
      Nat.mod_eq_of_lt (length.small.trans_lt
        (lt_of_lt_of_le (by decide) (Nat.pow_le_pow_right (by decide) wide)))
    rw [text, is_address_eq cut, if_pos taken, addressLoop_last (foldl_next_octet rfl _) cut.last,
      if_pos length.digits, final_eq, number, length.mod (by decide), Nat.zero_mul, Nat.zero_add,
      List.foldl_append, BitVec.toNat_ofNat, short]
    have ip := @final_three w a b c first second third d
    rw [fourth.mod le_rfl] at ip
    exact (if_neg (Nat.not_lt.mpr length.small)).trans
      (congrArg (fun ip => some (ip, cidr_to_bitmask w (decimal m))) ip)
  | @star a b c first second third =>
    have taken := taken_three first second third
    have cut : IsCut (threeRuns a b c) ['*'] :=
      isCut_of_taken taken (by simp [threeRuns, isBreak]) (by simp [isBreak])
    have text : a ++ '.' :: (b ++ '.' :: (c ++ '.' :: ['*'])) = pasted (threeRuns a b c) ++ ['*'] := by
      simp [pasted, threeRuns]
    have ip := @final_three w a b c first second third []
    have star : ¬ Digits ['*'] := fun digits => absurd (digits '*' List.mem_cons_self) (by decide)
    rw [text, is_address_eq cut, if_pos taken, addressLoop_last (foldl_next_octet rfl _) cut.last,
      if_neg star, if_pos ⟨rfl, rfl, rfl⟩]
    rw [AddressState.final, show decimal [] = 0 from rfl, BitVec.setWidth_zero, BitVec.add_zero] at ip
    exact congrArg (fun ip => some (ip, BitVec.ofNat w 0xFFFFFF00)) ip

end Forms

/-- **`is_address` reads the address masks and nothing else exactly on the texts that are of one of the
forms or do not pass.** -/
theorem is_address_iff (w : Nat) (wide : 32 ≤ w) (t : Text) :
    (∀ ip mask, is_address w t = some (ip, mask) ↔ AddressMask w t ip mask) ↔
      (∃ ip mask, AddressMask w t ip mask) ∨ ¬ Passes w t := by
  constructor
  · intro exactly
    refine or_iff_not_imp_right.mpr fun passes => ?_
    obtain ⟨⟨ip, mask⟩, read⟩ :=
      Option.isSome_iff_exists.mp ((is_address_isSome_iff w t).mpr (not_not.mp passes))
    exact ⟨ip, mask, (exactly ip mask).mp read⟩
  · rintro (⟨ip, mask, form⟩ | refused) ip' mask'
    · refine ⟨fun read => ?_, is_address_of_mask wide⟩
      have same := (is_address_of_mask wide form).symm.trans read
      obtain ⟨rfl, rfl⟩ := Prod.mk.inj (Option.some.inj same)
      exact form
    · have rejected : is_address w t = none := by
        rw [← Option.not_isSome_iff_eq_none, is_address_isSome_iff]
        exact refused
      refine iff_of_false (fun read => ?_) (fun form => ?_)
      · exact Option.some_ne_none _ (read.symm.trans rejected)
      · exact Option.some_ne_none _ ((is_address_of_mask wide form).symm.trans rejected)

theorem AddressMask.dot {w : Nat} {t : Text} {ip mask : BitVec w} (form : AddressMask w t ip mask) :
    '.' ∈ t := by
  cases form <;> exact List.mem_append_right _ List.mem_cons_self

/-- The text `10.0.0.*`. -/
theorem is_address_iff_star : (∀ ip mask, is_address 64 "10.0.0.*".toList = some (ip, mask) ↔
    AddressMask 64 "10.0.0.*".toList ip mask) ↔
      (∃ ip mask, AddressMask 64 "10.0.0.*".toList ip mask) ∨ ¬ Passes 64 "10.0.0.*".toList :=
  is_address_iff 64 (by decide) _

/-- **A host name of digits is taken for an address.** -/
theorem not_is_address : ¬ ∀ (w : Nat), 32 ≤ w → ∀ (t : Text) ip mask,
    is_address w t = some (ip, mask) ↔ AddressMask w t ip mask := by
  intro exactly
  have read : is_address 64 "2026".toList = some (2026, BitVec.ofNat 64 0xFFFFFFFF) := by decide
  exact absurd ((exactly 64 (by decide) _ _ _).mp read).dot (by decide)

end

end PtlinkIrcd
