/-
**Strings.**

A C string is its list of characters without the terminator. The functions are those of
`match.c`, `irc_string.c`, `hash.c`, `sprintf_irc.c` and the C library that the modelled commands
use.

* `irccmp`, `hashNickName`, `hashChannelName` — comparison and hashing up to case.
* `ircMatch` — the wild-card test of `match`, with its bound on the number of rounds.
* `atol`, `atoi` — `strtol` in base ten with the clamp of a `long`, and its cut to an `int`.
* `printLu`, `printD` — what `ircsprintf` writes for `%lu` and for `%d` or `%i`; `atol_printLu` reads
  it back.
* `strtoken` — the tokens of a text between separators.
-/

import PtlinkIrcd.Lib.Decimal
import PtlinkIrcd.Lib.Words
import Mathlib.Tactic.IntervalCases
import Mathlib.Tactic.NormNum

namespace PtlinkIrcd

abbrev Text := List Char

/-- The content of a C string, which its terminator does not occur in. -/
abbrev CString := { t : Text // Char.ofNat 0 ∉ t }

def NUL : Char := Char.ofNat 0

/-! ### Characters -/

/-- `ToUpper`: ASCII letters, and `~` goes to `^`. -/
def toUpper (c : Char) : Char :=
  if 'a' ≤ c ∧ c ≤ 'z' then Char.ofNat (c.toNat - 32) else if c = '~' then '^' else c

/-- `ToLower`: ASCII letters, and `^` goes to `~`. -/
def toLower (c : Char) : Char :=
  if 'A' ≤ c ∧ c ≤ 'Z' then Char.ofNat (c.toNat + 32) else if c = '^' then '~' else c

/-- `IsSpace`: the blanks of the character table. -/
def isSpace (c : Char) : Bool := (9 ≤ c.toNat && c.toNat ≤ 13) || c.toNat == 32

/-- `IsChanChar`: no control character, blank, comma, backslash, hard blank or byte 255. -/
def isChanChar (c : Char) : Bool :=
  33 ≤ c.toNat && c ≠ ',' && c ≠ '\\' && c.toNat ≠ 0xa0 && c.toNat < 0xff

/-! ### Comparison and hashing -/

/-- `irccmp`: the difference at the first place where the upper-cased strings differ. -/
def irccmp : Text → Text → Int
  | [], [] => 0
  | [], d :: _ => 0 - (toUpper d).toNat
  | c :: _, [] => (toUpper c).toNat
  | c :: s, d :: t =>
    let res : Int := (toUpper c).toNat - (toUpper d).toNat
    if res = 0 then irccmp s t else res

/-- `strcmp`, by the sign of the first difference. -/
def strcmp : Text → Text → Int
  | [], [] => 0
  | [], _ :: _ => -1
  | _ :: _, [] => 1
  | c :: s, d :: t => if c = d then strcmp s t else if c < d then -1 else 1

/-- `tolower` of the C library: ASCII letters only. -/
def lowerLetter (c : Char) : Char :=
  if 'A' ≤ c ∧ c ≤ 'Z' then Char.ofNat (c.toNat + 32) else c

/-- `strcasecmp`, by the sign of the first difference of the lowered strings. -/
def strcasecmp (s t : Text) : Int := strcmp (s.map lowerLetter) (t.map lowerLetter)

def hashRound (h : BitVec 32) (c : Char) : BitVec 32 :=
  (h <<< 4) - (h + BitVec.ofNat 32 (toLower c).toNat)

def U_MAX : Nat := 65536
def CH_MAX : Nat := 16384

def hashNickName (name : Text) : Nat := (name.foldl hashRound 0 &&& BitVec.ofNat 32 (U_MAX - 1)).toNat

/-- `hash_channel_name`: the loop counts down from 30 before it reads, so 29 characters count. -/
def hashChannelName (name : Text) : Nat :=
  ((name.take 29).foldl hashRound 0 &&& BitVec.ofNat 32 (CH_MAX - 1)).toNat

theorem irccmp_self (name : Text) : irccmp name name = 0 := by
  induction name with
  | nil => rfl
  | cons c name ih => simp [irccmp, ih]

theorem irccmp_eq_zero_comm {name other : Text} (same : irccmp name other = 0) :
    irccmp other name = 0 := by
  induction name generalizing other with
  | nil => cases other with
    | nil => rfl
    | cons d t => simp only [irccmp] at same ⊢; omega
  | cons c s ih => cases other with
    | nil => simp only [irccmp] at same ⊢; omega
    | cons d t =>
      simp only [irccmp] at same ⊢
      split at same
      · rename_i zero
        rw [if_pos (by omega), ih same]
      · exact absurd same ‹_›

theorem toNat_ofNat_of_lt {n : Nat} (small : n < 0xd800) : (Char.ofNat n).toNat = n := by
  unfold Char.ofNat
  rw [dif_pos (Or.inl small)]
  rfl

theorem lowerLetter_toNat (c : Char) : (lowerLetter c).toNat =
    if 65 ≤ c.toNat ∧ c.toNat ≤ 90 then c.toNat + 32 else c.toNat := by
  have big : ('A' ≤ c ∧ c ≤ 'Z') ↔ (65 ≤ c.toNat ∧ c.toNat ≤ 90) := Iff.rfl
  unfold lowerLetter
  by_cases letter : 'A' ≤ c ∧ c ≤ 'Z'
  · have range := big.mp letter
    rw [if_pos letter, if_pos range, toNat_ofNat_of_lt (by omega)]
  · rw [if_neg letter, if_neg (mt big.mpr letter)]

theorem toUpper_toNat (c : Char) : (toUpper c).toNat =
    if 97 ≤ c.toNat ∧ c.toNat ≤ 122 then c.toNat - 32 else if c.toNat = 126 then 94 else c.toNat := by
  have small : ('a' ≤ c ∧ c ≤ 'z') ↔ (97 ≤ c.toNat ∧ c.toNat ≤ 122) := Iff.rfl
  have tilde : c = '~' ↔ c.toNat = 126 :=
    ⟨fun same => by rw [same]; rfl, fun same => Char.toNat_inj.mp (same.trans rfl)⟩
  unfold toUpper
  by_cases letter : 'a' ≤ c ∧ c ≤ 'z'
  · have range := small.mp letter
    rw [if_pos letter, if_pos range, toNat_ofNat_of_lt (by omega)]
  · rw [if_neg letter, if_neg (mt small.mpr letter)]
    by_cases other : c = '~'
    · rw [if_pos other, if_pos (tilde.mp other)]
      rfl
    · rw [if_neg other, if_neg (mt tilde.mpr other)]

theorem toLower_toNat (c : Char) : (toLower c).toNat =
    if 65 ≤ c.toNat ∧ c.toNat ≤ 90 then c.toNat + 32 else if c.toNat = 94 then 126 else c.toNat := by
  have big : ('A' ≤ c ∧ c ≤ 'Z') ↔ (65 ≤ c.toNat ∧ c.toNat ≤ 90) := Iff.rfl
  have caret : c = '^' ↔ c.toNat = 94 :=
    ⟨fun same => by rw [same]; rfl, fun same => Char.toNat_inj.mp (same.trans rfl)⟩
  unfold toLower
  by_cases letter : 'A' ≤ c ∧ c ≤ 'Z'
  · have range := big.mp letter
    rw [if_pos letter, if_pos range, toNat_ofNat_of_lt (by omega)]
  · rw [if_neg letter, if_neg (mt big.mpr letter)]
    by_cases other : c = '^'
    · rw [if_pos other, if_pos (caret.mp other)]
      rfl
    · rw [if_neg other, if_neg (mt caret.mpr other)]

/-- **The two tables fold alike**: what `ToUpper` identifies, `ToLower` identifies. -/
theorem toLower_eq_of_toUpper_eq {c d : Char} (same : toUpper c = toUpper d) :
    toLower c = toLower d := by
  have upper := congrArg Char.toNat same
  rw [toUpper_toNat, toUpper_toNat] at upper
  apply Char.toNat_inj.mp
  rw [toLower_toNat, toLower_toNat]
  split_ifs at upper ⊢ <;> omega

theorem toLower_eq_of_lowerLetter_eq {c d : Char} (same : lowerLetter c = lowerLetter d) :
    toLower c = toLower d := by
  have lower := congrArg Char.toNat same
  rw [lowerLetter_toNat, lowerLetter_toNat] at lower
  apply Char.toNat_inj.mp
  rw [toLower_toNat, toLower_toNat]
  split_ifs at lower ⊢ <;> omega

theorem toUpper_ne_terminator {c : Char} (proper : c ≠ Char.ofNat 0) : (toUpper c).toNat ≠ 0 := by
  have positive : c.toNat ≠ 0 := fun zero => proper (Char.toNat_inj.mp (zero.trans rfl))
  rw [toUpper_toNat]
  split_ifs <;> omega

/-- **`irccmp` is equality of the folded strings.** -/
theorem irccmp_eq_zero_iff {name other : Text} (proper : Char.ofNat 0 ∉ name)
    (properOther : Char.ofNat 0 ∉ other) :
    irccmp name other = 0 ↔ name.map toUpper = other.map toUpper := by
  induction name generalizing other with
  | nil => cases other with
    | nil => simp [irccmp]
    | cons d t =>
      have positive := toUpper_ne_terminator (List.ne_of_not_mem_cons properOther).symm
      simp only [irccmp, List.map_nil, List.map_cons, List.nil_eq, reduceCtorEq, iff_false]
      omega
  | cons c s ih => cases other with
    | nil =>
      have positive := toUpper_ne_terminator (List.ne_of_not_mem_cons proper).symm
      simp only [irccmp, List.map_nil, List.map_cons, reduceCtorEq, iff_false]
      omega
    | cons d t =>
      have rest := ih (List.not_mem_of_not_mem_cons proper) (List.not_mem_of_not_mem_cons properOther)
      rw [List.map_cons, List.map_cons, List.cons.injEq, ← rest, irccmp]
      by_cases same : toUpper c = toUpper d
      · rw [if_pos (by rw [same]; omega)]
        exact ⟨fun eq => ⟨same, eq⟩, And.right⟩
      · have apart : (toUpper c).toNat ≠ (toUpper d).toNat := fun eq => same (Char.toNat_inj.mp eq)
        rw [if_neg (by omega)]
        exact ⟨fun eq => absurd eq (by omega), fun both => absurd both.1 same⟩

theorem foldl_hashRound_map (name : Text) (h : BitVec 32) :
    name.foldl hashRound h =
      (name.map toLower).foldl
        (fun (h : BitVec 32) c => (h <<< 4) - (h + BitVec.ofNat 32 c.toNat)) h := by
  rw [List.foldl_map]
  rfl

/-- A folding that identifies less gives equal images of what it identifies. -/
theorem map_toLower_eq {fold : Char → Char} (finer : ∀ {c d}, fold c = fold d → toLower c = toLower d)
    {name other : Text} (same : name.map fold = other.map fold) :
    name.map toLower = other.map toLower := by
  induction name generalizing other with
  | nil => cases other with
    | nil => rfl
    | cons d t => simp at same
  | cons c s ih => cases other with
    | nil => simp at same
    | cons d t =>
      rw [List.map_cons, List.map_cons, List.cons.injEq] at same
      rw [List.map_cons, List.map_cons, finer same.1, ih same.2]

theorem strcmp_eq_zero_iff {name other : Text} : strcmp name other = 0 ↔ name = other := by
  induction name generalizing other with
  | nil => cases other <;> simp [strcmp]
  | cons c s ih => cases other with
    | nil => simp [strcmp]
    | cons d t =>
      unfold strcmp
      by_cases same : c = d
      · rw [if_pos same, ih, same, List.cons.injEq, and_iff_right rfl]
      · rw [if_neg same]
        split <;> simp [same]

theorem strcasecmp_eq_zero_iff {name other : Text} :
    strcasecmp name other = 0 ↔ name.map lowerLetter = other.map lowerLetter :=
  strcmp_eq_zero_iff

theorem hashNickName_eq_of_map {name other : Text} (same : name.map toLower = other.map toLower) :
    hashNickName name = hashNickName other := by
  unfold hashNickName
  rw [foldl_hashRound_map, foldl_hashRound_map, same]

/-- **Equal nicks fall in the same bucket.** -/
theorem hashNickName_eq {name other : CString} (same : irccmp name.1 other.1 = 0) :
    hashNickName name.1 = hashNickName other.1 :=
  hashNickName_eq_of_map (map_toLower_eq toLower_eq_of_toUpper_eq
    ((irccmp_eq_zero_iff name.2 other.2).mp same))

theorem hashNickName_eq_of_strcasecmp {name other : Text} (same : strcasecmp name other = 0) :
    hashNickName name = hashNickName other :=
  hashNickName_eq_of_map (map_toLower_eq toLower_eq_of_lowerLetter_eq
    (strcasecmp_eq_zero_iff.mp same))

/-- **Equal channel names fall in the same bucket.** -/
theorem hashChannelName_eq {name other : CString} (same : irccmp name.1 other.1 = 0) :
    hashChannelName name.1 = hashChannelName other.1 := by
  have folded := map_toLower_eq toLower_eq_of_toUpper_eq
    ((irccmp_eq_zero_iff name.2 other.2).mp same)
  unfold hashChannelName
  rw [foldl_hashRound_map, foldl_hashRound_map, List.map_take, List.map_take, folded]

/-! ### Wild cards -/

def MATCH_MAX_CALLS : Nat := 512

/-- The pointers of `match`: the rests of mask and name, and the marks left by the last star. -/
structure MatchState where
  m : Text
  n : Text
  ma : Text
  na : Text
  wild : Bool

/-- Whether the mask ends, up to question marks after its first character, in a star that is not
its first character: what the backward scan at the end of the mask finds. -/
def endsInStar (mask : Text) : Bool :=
  (mask.tail.reverse.dropWhile (· = '?')).head? = some '*'

/-- The comparison that ends a round: a mismatch goes back to the last star. -/
def MatchState.compare (s : MatchState) : MatchState ⊕ Bool :=
  if s.m.head?.map toLower ≠ s.n.head?.map toLower ∧ s.m.head? ≠ some '?' then
    if s.wild then .inl { s with m := s.ma, n := s.na.tail, na := s.na.tail } else .inr false
  else .inl { s with m := s.m.tail, n := s.n.tail }

/-- One round of `match`: either the next pointers or the verdict. -/
def MatchState.round (mask : Text) (s : MatchState) : MatchState ⊕ Bool :=
  let s :=
    if s.m.head? = some '*' then
      let m := s.m.dropWhile (· = '*')
      { s with m := m, wild := true, ma := m, na := s.n }
    else s
  if s.m = [] then
    if s.n = [] then .inr true
    else if endsInStar mask then .inr true
    else if !s.wild then .inr false
    else MatchState.compare { s with m := s.ma, n := s.na.tail, na := s.na.tail }
  else if s.n = [] then .inr (s.m.dropWhile (· = '*') = [])
  else s.compare

/-- The rounds of `match`; the name does not match when they run out. -/
def matchLoop (mask : Text) : Nat → MatchState → Bool
  | 0, _ => false
  | calls + 1, s =>
    match s.round mask with
    | .inl next => matchLoop mask calls next
    | .inr verdict => verdict

/-- `match(mask, name)`. -/
def ircMatch (mask name : Text) : Bool :=
  matchLoop mask MATCH_MAX_CALLS ⟨mask, name, mask, name, false⟩

theorem matchLoop_star (calls : Nat) {name : Text} (short : name.length + 2 ≤ 2 * calls) :
    matchLoop ['*'] calls ⟨[], name, [], name, true⟩ = true := by
  induction calls generalizing name with
  | zero => exact absurd short (by omega)
  | succ calls ih =>
    match name with
    | [] => rfl
    | [c] => cases calls with
      | zero =>
        rw [List.length_singleton] at short
        omega
      | succ calls => rfl
    | c :: d :: rest =>
      show matchLoop ['*'] calls ⟨[], rest, [], rest, true⟩ = true
      exact ih (by simp only [List.length_cons] at short; omega)

/-- **A star matches** every name that the rounds of `match` suffice for. -/
theorem ircMatch_star {name : Text} (short : name.length ≤ 2 * (MATCH_MAX_CALLS - 1)) :
    ircMatch ['*'] name = true := by
  have enough : name.length + 2 ≤ 2 * MATCH_MAX_CALLS := by
    unfold MATCH_MAX_CALLS at short ⊢
    omega
  refine Eq.trans ?_ (matchLoop_star MATCH_MAX_CALLS enough)
  rfl

/-- `collapse`: adjacent stars become one. -/
def collapse : Text → Text
  | [] => []
  | [c] => [c]
  | c :: d :: rest =>
    if c = '*' ∧ d = '*' then collapse (d :: rest) else c :: collapse (d :: rest)

theorem collapse_sublist (t : Text) : (collapse t).Sublist t := by
  fun_induction collapse t with
  | case1 => exact List.Sublist.refl _
  | case2 => exact List.Sublist.refl _
  | case3 c d rest _ ih => exact ih.cons c
  | case4 c d rest _ ih => exact ih.cons_cons c

theorem count_collapse {c : Char} (plain : c ≠ '*') (t : Text) : (collapse t).count c = t.count c := by
  fun_induction collapse t with
  | case1 => rfl
  | case2 => rfl
  | case3 d e rest stars ih =>
    rw [ih]
    exact (List.count_cons_of_ne (by rw [stars.1]; exact Ne.symm plain)).symm
  | case4 d e rest _ ih => rw [List.count_cons, List.count_cons, ih]

theorem mem_collapse {c : Char} (plain : c ≠ '*') {t : Text} : c ∈ collapse t ↔ c ∈ t := by
  rw [← List.count_pos_iff, ← List.count_pos_iff, count_collapse plain]

theorem head?_collapse (t : Text) : (collapse t).head? = t.head? := by
  fun_induction collapse t with
  | case1 => rfl
  | case2 => rfl
  | case3 c d rest stars ih => rw [ih, stars.1, stars.2]; rfl
  | case4 => rfl

theorem collapse_collapse (t : Text) : collapse (collapse t) = collapse t := by
  fun_induction collapse t with
  | case1 => rfl
  | case2 => rfl
  | case3 c d rest _ ih => exact ih
  | case4 c d rest apart ih =>
    obtain ⟨tail, whole⟩ : ∃ tail, collapse (d :: rest) = d :: tail := by
      have head := head?_collapse (d :: rest)
      cases kept : collapse (d :: rest) with
      | nil => rw [kept] at head; cases head
      | cons e tail =>
        rw [kept] at head
        exact ⟨tail, by rw [Option.some.inj head]⟩
    rw [whole] at ih ⊢
    rw [collapse, if_neg apart, ih]

/-! ### Numbers -/

/-- `strtol` in base ten, clamped to a `long`. -/
def strtol (t : Text) : Int :=
  let t := t.dropWhile isSpace
  let (sign, t) : Int × Text :=
    match t with
    | '-' :: rest => (-1, rest)
    | '+' :: rest => (1, rest)
    | _ => (1, t)
  let value := sign * (Nat.ofDigitChars 10 (t.takeWhile Char.isDigit) 0 : Nat)
  max (-2 ^ 63) (min value (2 ^ 63 - 1))

def atol (t : Text) : Int := strtol t

/-- `atoi`: the `long` cut to an `int`. -/
def atoi (t : Text) : Int32 := Int32.ofInt (strtol t)

/-- `%lu` of `ircsprintf`: one character for the thousands of millions when there are any, then
nine digits. -/
def printLu (v : Int) : Text :=
  let v1 := (v % 2 ^ 64).toNat
  (if v1 > 999999999 then [Char.ofNat (('0'.toNat + v1 / 1000000000) % 256)] else []) ++
    Lib.zeroPadded 9 (v1 % 1000000000)

def printD (v : Int32) : Text :=
  if v.toInt < 0 then '-' :: Nat.toDigits 10 v.toInt.natAbs else Nat.toDigits 10 v.toInt.natAbs

theorem mem_printD {v : Int32} {c : Char} (member : c ∈ printD v) : c.isDigit = true ∨ c = '-' := by
  unfold printD at member
  split at member
  · rcases List.mem_cons.mp member with rfl | later
    · exact .inr rfl
    · exact .inl (Nat.isDigit_of_mem_toDigits (by decide) le_rfl later)
  · exact .inl (Nat.isDigit_of_mem_toDigits (by decide) le_rfl member)

theorem length_printD_le_iff {v : Int32} {k : Nat} :
    (printD v).length ≤ k + 1 ↔ -(10 ^ k : Int) < v.toInt ∧ v.toInt < 10 ^ (k + 1) := by
  have grows : (10 : Int) ^ (k + 1) = 10 * 10 ^ k := by rw [pow_succ, mul_comm]
  have positive : (0 : Int) < 10 ^ k := pow_pos (by decide) k
  unfold printD
  by_cases negative : v.toInt < 0
  · rw [if_pos negative, List.length_cons, Nat.add_le_add_iff_right]
    cases k with
    | zero =>
      have some_ := Nat.length_toDigits_pos (b := 10) (n := v.toInt.natAbs)
      simp only [pow_zero]
      omega
    | succ k =>
      rw [Nat.length_toDigits_le_iff (by decide) (Nat.succ_pos k)]
      have cast : ((10 ^ (k + 1) : Nat) : Int) = (10 : Int) ^ (k + 1) := by push_cast; rfl
      omega
  · rw [if_neg negative, Nat.length_toDigits_le_iff (by decide) (Nat.succ_pos k)]
    have cast : ((10 ^ (k + 1) : Nat) : Int) = (10 : Int) ^ (k + 1) := by push_cast; rfl
    omega

theorem length_printD_pos (v : Int32) : 1 ≤ (printD v).length := by
  unfold printD
  split
  · rw [List.length_cons]
    omega
  · exact Nat.length_toDigits_pos

theorem length_printD_le (v : Int32) : (printD v).length ≤ 11 := by
  have low := v.le_toInt
  have high := v.toInt_lt
  refine length_printD_le_iff.mpr ⟨?_, ?_⟩ <;> norm_num <;> omega

theorem isDigit_range {c : Char} (digit : c.isDigit = true) : 48 ≤ c.toNat ∧ c.toNat ≤ 57 := by
  simpa [Char.isDigit, UInt32.le_iff_toNat_le] using digit

theorem strtol_digits {ds : Text} (digits : ∀ c ∈ ds, c.isDigit = true) (some_ : ds ≠ [])
    (small : Nat.ofDigitChars 10 ds 0 < 2 ^ 63) : strtol ds = Nat.ofDigitChars 10 ds 0 := by
  obtain ⟨c, rest, rfl⟩ := List.exists_cons_of_ne_nil some_
  have digit : c.isDigit = true := digits c List.mem_cons_self
  have range := isDigit_range digit
  have noSpace : isSpace c = false := by
    simp [isSpace]
    omega
  have whole : (c :: rest).takeWhile Char.isDigit = c :: rest := by
    have cut := Lib.takeWhile_isDigit_append (t := []) digits nofun
    rwa [List.append_nil] at cut
  unfold strtol
  rw [List.dropWhile_cons_of_neg (by simp [noSpace])]
  dsimp only
  split
  · rename_i eq
    obtain rfl := (List.cons.inj eq).1
    exact absurd digit (by decide)
  · rename_i eq
    obtain rfl := (List.cons.inj eq).1
    exact absurd digit (by decide)
  · rw [whole]
    omega

/-- The character for the thousands of millions is a digit when there are less than ten. -/
theorem ofNat_digit {d : Nat} (lead : d < 10) :
    Char.ofNat (('0'.toNat + d) % 256) = d.digitChar := by
  interval_cases d <;> rfl

theorem printLu_digits {n : Nat} (small : n < 10 ^ 10) :
    (∀ c ∈ printLu n, c.isDigit = true) ∧ printLu n ≠ [] ∧
      Nat.ofDigitChars 10 (printLu n) 0 = n := by
  have value : ((n : Int) % 2 ^ 64).toNat = n := by omega
  unfold printLu
  simp only [value]
  have lead : n / 1000000000 < 10 := by omega
  rw [ofNat_digit lead]
  have padded : Lib.zeroPadded 9 (n % 1000000000) ≠ [] := fun none_ => by
    have long := Lib.length_zeroPadded 9 (n % 1000000000)
    rw [none_] at long
    exact absurd long (by decide)
  refine ⟨fun c member => ?_, fun none_ => padded (List.append_eq_nil_iff.mp none_).2, ?_⟩
  · rcases List.mem_append.mp member with member | member
    · split at member
      · rw [List.mem_singleton.mp member, Nat.isDigit_digitChar]
        exact decide_eq_true lead
      · exact absurd member List.not_mem_nil
    · exact Lib.isDigit_of_mem_zeroPadded member
  · rw [Nat.ofDigitChars_append, Nat.ofDigitChars_eq_ofDigitChars_zero, Lib.length_zeroPadded,
      Lib.ofDigitChars_zeroPadded]
    split
    · rw [Nat.ofDigitChars_cons_digitChar_of_lt_ten lead, Nat.ofDigitChars_nil]
      omega
    · rw [Nat.ofDigitChars_nil]
      omega

/-- **A number of less than eleven digits is read back as it was printed.** -/
theorem atol_printLu {n : Nat} (small : n < 10 ^ 10) : atol (printLu n) = n := by
  obtain ⟨digits, some_, value⟩ := printLu_digits small
  rw [atol, strtol_digits digits some_ (by omega), value]

/-! ### Tokens -/

/-- The tokens that `strtoken` returns one after the other. -/
def strtoken (fs : Char) (t : Text) : List Text := Lib.words (· == fs) t

end PtlinkIrcd
