/-
**`ircsprintf`.**

`vsprintf_irc` of `sprintf_irc.c` knows `%s`, `%c`, `%d`, `%u`, `%t` and `%lu`, which it takes for
`%09lu`; on any other directive it hands all that is left of the format to `vsprintf`.

* `vsprintf` — the C library, as far as these directives go.
* `atoi_tab`, `scratchDigits` — the table of three digits for each number, and the loop that fills
  the scratch buffer from it; `scratchDigits_eq` — what is read back is the numeral.
* `vsprintf_irc` — the fast formatter, with the number of bytes that it counts.
* `Piece` — a literal character or a directive with its argument; a list of pieces is a format with
  arguments of matching types.
* `ircsprintf_iff` — **it prints what the C library prints, `%lu` in nine digits, exactly when no
  shorter number is behind the first `%ld`**.
-/

import PtlinkIrcd.Model.Text

namespace PtlinkIrcd

/-! ### The C library -/

/-- An argument of a format. -/
inductive Arg
  | str (s : Text)
  | int (v : Int32)
  | uint (v : UInt32)
  | ulong (v : UInt64)
  | long (v : Int64)

def charOf (v : Int32) : Char := Char.ofNat (v.toInt % 256).toNat

def printLd (v : Int64) : Text :=
  if v.toInt < 0 then '-' :: Nat.toDigits 10 v.toInt.natAbs else Nat.toDigits 10 v.toInt.natAbs

/-- `vsprintf`: directives with arguments of other types are undefined. -/
def vsprintf : Text → List Arg → Option Text
  | [], _ => some []
  | '%' :: 's' :: format, .str s :: args => (vsprintf format args).map (s ++ ·)
  | '%' :: 'c' :: format, .int v :: args => (vsprintf format args).map ([charOf v] ++ ·)
  | '%' :: 'd' :: format, .int v :: args => (vsprintf format args).map (printD v ++ ·)
  | '%' :: 'u' :: format, .uint v :: args =>
    (vsprintf format args).map (Nat.toDigits 10 v.toNat ++ ·)
  | '%' :: 'l' :: 'u' :: format, .ulong v :: args =>
    (vsprintf format args).map (Nat.toDigits 10 v.toNat ++ ·)
  | '%' :: 'l' :: 'd' :: format, .long v :: args => (vsprintf format args).map (printLd v ++ ·)
  | '%' :: '%' :: format, args => (vsprintf format args).map (['%'] ++ ·)
  | '%' :: _, _ => none
  | c :: format, args => (vsprintf format args).map ([c] ++ ·)

/-! ### Digits -/

/-- `atoi_tab`: three digits and a zero byte for each number. -/
def atoi_tab : Text := (List.range 1000).flatMap fun n => Lib.zeroPadded 3 n ++ [NUL]

/-- The three digits at an offset of the table. -/
def atoiDigits (i : Nat) : Text :=
  [atoi_tab.getD (4 * i) NUL, atoi_tab.getD (4 * i + 1) NUL, atoi_tab.getD (4 * i + 2) NUL]

/-- The loop that fills the scratch buffer from its end, three digits a round. -/
def scratchDigits (v1 : Nat) (s : Text) : Text :=
  let v2 := v1 / 1000
  if v2 > 0 then scratchDigits v2 (atoiDigits (v1 - 1000 * v2) ++ s)
  else atoiDigits (v1 - 1000 * v2) ++ s
termination_by v1

/-- What is copied of the scratch buffer: without the leading zeros. -/
def scratchText (v1 : Nat) : Text := (scratchDigits v1 []).dropWhile (· = '0')

/-- The digits of `%lu`, and the bytes counted: the thousands of millions are one character. -/
def luText (v : Nat) : Text × Nat :=
  let lead := v / 1000000000
  let v1 := if v > 999999999 then v - lead * 1000000000 else v
  let v2 := v1 / 1000000
  let v3 := v1 - v2 * 1000000
  let digits := atoiDigits v2 ++ atoiDigits (v3 / 1000) ++ atoiDigits (v3 - v3 / 1000 * 1000)
  if v > 999999999 then (Char.ofNat (('0'.toNat + lead) % 256) :: digits, 1 + 9) else (digits, 9)

/-- The digits of `%d`: the magnitude is that of the unsigned number. -/
def dText (v : Int32) : Text :=
  if v.toInt ≤ 0 then
    if v = 0 then ['0'] else '-' :: scratchText (-v).toUInt32.toNat
  else scratchText v.toUInt32.toNat

def uText (v : UInt32) : Text := if v = 0 then ['0'] else scratchText v.toNat

def tText (v : Int32) : Text :=
  [Char.ofNat ((v.toUInt32.toNat / 10 + '0'.toNat) % 256),
    Char.ofNat ((v.toUInt32.toNat % 10 + '0'.toNat) % 256)]

/-! ### The formatter -/

/-- Write a text, and count bytes, before the rest. -/
def wrote (text : Text) (bytes : Nat) (rest : Option (Text × Nat)) : Option (Text × Nat) :=
  rest.map fun r => (text ++ r.1, bytes + r.2)

/-- `vsprintf_irc`: what is written, and the number that is returned. -/
def vsprintf_irc : Text → List Arg → Option (Text × Nat)
  | [], _ => some ([], 0)
  | '%' :: 's' :: format, .str p1 :: args => wrote p1 p1.length (vsprintf_irc format args)
  | '%' :: 'c' :: format, .int v :: args => wrote [charOf v] 1 (vsprintf_irc format args)
  | '%' :: 'l' :: 'u' :: format, .ulong v :: args =>
    wrote (luText v.toNat).1 (luText v.toNat).2 (vsprintf_irc format args)
  | '%' :: 't' :: format, .int v :: args => wrote (tText v) 2 (vsprintf_irc format args)
  | '%' :: 'd' :: format, .int v :: args =>
    wrote (dText v) (dText v).length (vsprintf_irc format args)
  | '%' :: 'u' :: format, .uint v :: args =>
    wrote (uText v) (uText v).length (vsprintf_irc format args)
  | '%' :: '%' :: format, args => wrote ['%'] 1 (vsprintf_irc format args)
  -- a directive that is not known: the rest is left to the C library
  | '%' :: format, args => (vsprintf ('%' :: format) args).map fun text => (text, text.length)
  | c :: format, args => wrote [c] 1 (vsprintf_irc format args)

/-! ### The digits are the numeral -/

theorem getElem?_flatMap_parts {α β : Type} {f : α → List β} {size : Nat}
    (parts : ∀ a, (f a).length = size) (l : List α) {i k : Nat} (inside : k < size) :
    (l.flatMap f)[size * i + k]? = l[i]?.bind fun a => (f a)[k]? := by
  induction l generalizing i with
  | nil => rfl
  | cons a l ih =>
    rw [List.flatMap_cons]
    cases i with
    | zero =>
      rw [Nat.mul_zero, Nat.zero_add, List.getElem?_append_left (by rw [parts]; exact inside)]
      rfl
    | succ i =>
      have later : size * (i + 1) + k = (f a).length + (size * i + k) := by
        rw [parts, Nat.mul_succ]
        omega
      rw [later, List.getElem?_append_right (Nat.le_add_right ..), Nat.add_sub_cancel_left, ih]
      rfl

theorem atoi_tab_get {i k : Nat} (number : i < 1000) (inside : k < 4) :
    atoi_tab.getD (4 * i + k) NUL = (Lib.zeroPadded 3 i ++ [NUL]).getD k NUL := by
  have parts : ∀ n, (Lib.zeroPadded 3 n ++ [NUL]).length = 4 := fun n => by
    rw [List.length_append, Lib.length_zeroPadded]
    rfl
  unfold atoi_tab
  rw [List.getD_eq_getElem?_getD, getElem?_flatMap_parts parts _ inside,
    List.getElem?_range number, Option.bind_some, List.getD_eq_getElem?_getD]

theorem atoiDigits_eq {i : Nat} (number : i < 1000) : atoiDigits i = Lib.zeroPadded 3 i := by
  have first := atoi_tab_get number (show 0 < 4 by decide)
  rw [Nat.add_zero] at first
  unfold atoiDigits
  rw [first, atoi_tab_get number (by decide), atoi_tab_get number (by decide)]
  rfl

def scratchRounds (v1 : Nat) : Nat :=
  if v1 / 1000 > 0 then scratchRounds (v1 / 1000) + 1 else 1
termination_by v1

/-- **The scratch buffer holds the numeral with leading zeros.** -/
theorem scratchDigits_eq (v1 : Nat) (s : Text) :
    scratchDigits v1 s = Lib.zeroPadded (3 * scratchRounds v1) v1 ++ s ∧
      v1 < 10 ^ (3 * scratchRounds v1) := by
  induction v1 using Nat.strong_induction_on generalizing s with
  | _ v1 ih =>
    have group : atoiDigits (v1 - 1000 * (v1 / 1000)) = Lib.zeroPadded 3 v1 := by
      rw [atoiDigits_eq (by omega), ← Lib.zeroPadded_mod 3 v1]
      congr 1
      omega
    rw [scratchDigits, scratchRounds, group]
    split
    · obtain ⟨digits, fits⟩ := ih (v1 / 1000) (by omega) (Lib.zeroPadded 3 v1 ++ s)
      have front : v1 / 10 ^ 3 = v1 / 1000 := rfl
      refine ⟨?_, ?_⟩
      · rw [digits, Nat.mul_succ, Lib.zeroPadded_add, List.append_assoc, front]
      · rw [Nat.mul_succ, Nat.pow_add]
        omega
    · exact ⟨rfl, by omega⟩

theorem scratchText_eq {v : Nat} (positive : 0 < v) : scratchText v = Nat.toDigits 10 v := by
  obtain ⟨digits, fits⟩ := scratchDigits_eq v []
  unfold scratchText
  rw [digits, List.append_nil, Lib.dropWhile_zeroPadded positive fits]

theorem uText_eq (v : UInt32) : uText v = Nat.toDigits 10 v.toNat := by
  unfold uText
  split
  · rename_i zero
    rw [zero]
    rfl
  · rename_i some_
    have positive : v.toNat ≠ 0 := fun zero => some_ (UInt32.toNat_inj.mp (zero.trans rfl))
    exact scratchText_eq (by omega)

theorem toUInt32_toNat (v : Int32) :
    (v.toUInt32.toNat : Int) = if v.toInt < 0 then v.toInt + 2 ^ 32 else v.toInt := by
  have word : (v.toUInt32.toNat : Int) = v.toBitVec.toNat := rfl
  have signed : v.toInt = v.toBitVec.toInt := rfl
  have small := v.toBitVec.isLt
  rw [word, signed, BitVec.toInt_eq_toNat_cond]
  split <;> split <;> omega

theorem neg_toUInt32_toNat {v : Int32} (negative : v.toInt < 0) :
    (-v).toUInt32.toNat = v.toInt.natAbs := by
  have word : (-v).toUInt32.toNat = (-v.toBitVec).toNat := rfl
  have value := toUInt32_toNat v
  rw [if_pos negative] at value
  have same : v.toUInt32.toNat = v.toBitVec.toNat := rfl
  have low := v.le_toInt
  rw [word, BitVec.toNat_neg]
  omega

/-- **`%d` is the decimal of an `int`**, the least one included. -/
theorem dText_eq (v : Int32) : dText v = printD v := by
  have value := toUInt32_toNat v
  unfold dText printD
  rcases Int.lt_trichotomy v.toInt 0 with negative | zero | positive
  · have some_ : v ≠ 0 := fun zero => by
      rw [zero] at negative
      exact absurd negative (by decide)
    rw [if_pos (Int.le_of_lt negative), if_neg some_, if_pos negative, neg_toUInt32_toNat negative,
      scratchText_eq (by omega)]
  · have none_ : v = 0 := Int32.toInt_inj.mp (zero.trans rfl)
    rw [none_]
    rfl
  · rw [if_neg (by omega)] at value
    rw [if_neg (by omega), if_neg (by omega), scratchText_eq (by omega)]
    congr 1
    omega

/-- **`%lu` is nine digits**, behind one character for the thousands of millions. -/
theorem luText_eq (v : UInt64) : luText v.toNat = (printLu v.toNat, (printLu v.toNat).length) := by
  have small := v.toNat_lt
  have word : ((v.toNat : Int) % 2 ^ 64).toNat = v.toNat := by omega
  have digits : ∀ n < 1000000000, atoiDigits (n / 1000000) ++
      atoiDigits ((n - n / 1000000 * 1000000) / 1000) ++
      atoiDigits (n - n / 1000000 * 1000000 - (n - n / 1000000 * 1000000) / 1000 * 1000) =
        Lib.zeroPadded 9 n := by
    intro n fits
    rw [atoiDigits_eq (by omega), atoiDigits_eq (by omega), atoiDigits_eq (by omega),
      Lib.zeroPadded_add 6 3, Lib.zeroPadded_add 3 3, ← Lib.zeroPadded_mod 3 (n / 10 ^ 3),
      ← Lib.zeroPadded_mod 3 n]
    congr 3
    all_goals omega
  unfold luText printLu
  simp only [word]
  by_cases large : v.toNat > 999999999
  · rw [if_pos large, if_pos large, if_pos large, digits _ (by omega)]
    refine Prod.ext ?_ ?_
    · show _ :: _ = [_] ++ _
      congr 2
      omega
    · show 1 + 9 = ([_] ++ _ : Text).length
      rw [List.length_append, Lib.length_zeroPadded]
      rfl
  · rw [if_neg large, if_neg large, if_neg large, digits _ (by omega),
      Nat.mod_eq_of_lt (by omega), List.nil_append, Lib.length_zeroPadded]

/-! ### Formats with their arguments -/

/-- A literal character of a format, or a directive with its argument. -/
inductive Piece
  | lit (c : Char) (plain : c ≠ '%' ∧ c ≠ NUL)
  | string (s : CString)
  | char (v : Int32)
  | int (v : Int32)
  | uint (v : UInt32)
  | ulong (v : UInt32)
  | long (v : Int64)
  | percent

namespace Piece

def format : Piece → Text
  | .lit c _ => [c]
  | .string _ => ['%', 's']
  | .char _ => ['%', 'c']
  | .int _ => ['%', 'd']
  | .uint _ => ['%', 'u']
  | .ulong _ => ['%', 'l', 'u']
  | .long _ => ['%', 'l', 'd']
  | .percent => ['%', '%']

def arg : Piece → List Arg
  | .string s => [.str s.1]
  | .char v => [.int v]
  | .int v => [.int v]
  | .uint v => [.uint v]
  | .ulong v => [.ulong v.toUInt64]
  | .long v => [.long v]
  | .lit .. | .percent => []

/-- What `sprintf` prints, when it prints `%lu` so. -/
def printWith (lu : UInt32 → Text) : Piece → Text
  | .lit c _ => [c]
  | .string s => s.1
  | .char v => [charOf v]
  | .int v => printD v
  | .uint v => Nat.toDigits 10 v.toNat
  | .ulong v => lu v
  | .long v => printLd v
  | .percent => ['%']

def plain : Piece → Text := printWith fun v => Nat.toDigits 10 v.toNat

/-- What `sprintf` prints, with `%09lu` for `%lu`. -/
def print : Piece → Text := printWith fun v => (Nat.toDigits 10 v.toNat).leftpad 9 '0'

def known : Piece → Bool
  | .long _ => false
  | _ => true

end Piece

def formatOf (pieces : List Piece) : Text := pieces.flatMap Piece.format

def argsOf (pieces : List Piece) : List Arg := pieces.flatMap Piece.arg

/-! ### Piece after piece -/

theorem vsprintf_piece (piece : Piece) (format : Text) (args : List Arg) :
    vsprintf (piece.format ++ format) (piece.arg ++ args) =
      (vsprintf format args).map (piece.plain ++ ·) := by
  cases piece with
  | lit c plain =>
    show vsprintf (c :: format) args = _
    rw [vsprintf]
    · rfl
    all_goals
      intros
      exact absurd ‹c = '%'› plain.1
  | ulong v =>
    show vsprintf ('%' :: 'l' :: 'u' :: format) (.ulong v.toUInt64 :: args) = _
    rw [vsprintf, UInt32.toNat_toUInt64]
    rfl
  | _ => rfl

/-- **The C library prints piece after piece.** -/
theorem vsprintf_pieces (pieces : List Piece) :
    vsprintf (formatOf pieces) (argsOf pieces) = some (pieces.flatMap Piece.plain) := by
  induction pieces with
  | nil => rfl
  | cons piece pieces ih =>
    show vsprintf (piece.format ++ formatOf pieces) (piece.arg ++ argsOf pieces) = _
    rw [vsprintf_piece, ih]
    rfl

theorem printLu_eq (v : UInt32) :
    printLu v.toNat = (Nat.toDigits 10 v.toNat).leftpad 9 '0' := by
  have small := v.toNat_lt
  have word : ((v.toNat : Int) % 2 ^ 64).toNat = v.toNat := by omega
  unfold printLu List.leftpad
  simp only [word]
  by_cases large : v.toNat > 999999999
  · have long : ¬ (Nat.toDigits 10 v.toNat).length ≤ 9 := by
      rw [Nat.length_toDigits_le_iff (by decide) (by decide)]
      omega
    have ten : Lib.zeroPadded 10 v.toNat = _ := Lib.zeroPadded_eq (by omega) (by omega)
    have most := congrArg List.length ten
    rw [Lib.length_zeroPadded, List.length_append, List.length_replicate] at most
    have lead : Lib.zeroPadded 1 (v.toNat / 10 ^ 9) = [(v.toNat / 1000000000).digitChar] := by
      show [(v.toNat / 1000000000 % 10).digitChar] = _
      rw [Nat.mod_eq_of_lt (by omega)]
    have last : Lib.zeroPadded 9 (v.toNat % 1000000000) = Lib.zeroPadded 9 v.toNat :=
      Lib.zeroPadded_mod 9 v.toNat
    rw [if_pos large, ofNat_digit (by omega), last, ← lead,
      ← Lib.zeroPadded_add 1 9, ten]
    congr 2
    omega
  · rw [if_neg large, List.nil_append, Nat.mod_eq_of_lt (by omega)]
    by_cases zero : v.toNat = 0
    · rw [zero]
      rfl
    · exact Lib.zeroPadded_eq (by omega) (by omega)

theorem vsprintf_irc_piece {piece : Piece} (known : piece.known = true) (format : Text)
    (args : List Arg) :
    vsprintf_irc (piece.format ++ format) (piece.arg ++ args) =
      wrote piece.print piece.print.length (vsprintf_irc format args) := by
  cases piece with
  | lit c plain =>
    show vsprintf_irc (c :: format) args = _
    rw [vsprintf_irc]
    · rfl
    all_goals
      intros
      exact absurd ‹c = '%'› plain.1
  | ulong v =>
    show vsprintf_irc ('%' :: 'l' :: 'u' :: format) (.ulong v.toUInt64 :: args) = _
    rw [vsprintf_irc, luText_eq, UInt32.toNat_toUInt64, printLu_eq]
    rfl
  | int v =>
    show vsprintf_irc ('%' :: 'd' :: format) (.int v :: args) = _
    rw [vsprintf_irc, dText_eq]
    rfl
  | uint v =>
    show vsprintf_irc ('%' :: 'u' :: format) (.uint v :: args) = _
    rw [vsprintf_irc, uText_eq]
    rfl
  | long v => cases known
  | _ => rfl

/-- What the fast formatter prints: from the first `%ld` on it is the C library that prints. -/
def ircText (pieces : List Piece) : Text :=
  (pieces.takeWhile Piece.known).flatMap Piece.print ++
    (pieces.dropWhile Piece.known).flatMap Piece.plain

/-- **The fast formatter prints piece after piece up to the first `%ld`**, and counts what it
prints. -/
theorem vsprintf_irc_pieces (pieces : List Piece) :
    vsprintf_irc (formatOf pieces) (argsOf pieces) =
      some (ircText pieces, (ircText pieces).length) := by
  induction pieces with
  | nil => rfl
  | cons piece pieces ih =>
    cases known : piece.known with
    | true =>
      have text : ircText (piece :: pieces) = piece.print ++ ircText pieces := by
        unfold ircText
        rw [List.takeWhile_cons_of_pos known, List.dropWhile_cons_of_pos known, List.flatMap_cons,
          List.append_assoc]
      show vsprintf_irc (piece.format ++ formatOf pieces) (piece.arg ++ argsOf pieces) = _
      rw [vsprintf_irc_piece known, ih, text, List.length_append]
      rfl
    | false =>
      have unknown : ¬ piece.known = true := by rw [known]; decide
      have text : ircText (piece :: pieces) = (piece :: pieces).flatMap Piece.plain := by
        unfold ircText
        rw [List.takeWhile_cons_of_neg unknown, List.dropWhile_cons_of_neg unknown]
        rfl
      have library := vsprintf_pieces (piece :: pieces)
      cases piece with
      | long v =>
        rw [text]
        show vsprintf_irc ('%' :: 'l' :: 'd' :: formatOf pieces) (.long v :: argsOf pieces) = _
        rw [vsprintf_irc]
        · change (vsprintf (formatOf (.long v :: pieces)) (argsOf (.long v :: pieces))).map _ = _
          rw [library]
          rfl
        all_goals
          intros
          simp_all
      | _ => cases known

/-! ### When the two agree -/

theorem leftpad_iff (v : UInt32) :
    ((Nat.toDigits 10 v.toNat).leftpad 9 '0').length = (Nat.toDigits 10 v.toNat).length ↔
      100000000 ≤ v.toNat := by
  have short : (Nat.toDigits 10 v.toNat).length ≤ 8 ↔ v.toNat < 10 ^ 8 :=
    Nat.length_toDigits_le_iff (by decide) (by decide)
  rw [List.length_leftpad]
  omega

theorem length_plain_le (piece : Piece) : piece.plain.length ≤ piece.print.length := by
  cases piece with
  | ulong v =>
    show (Nat.toDigits 10 v.toNat).length ≤ ((Nat.toDigits 10 v.toNat).leftpad 9 '0').length
    rw [List.length_leftpad]
    exact Nat.le_max_right ..
  | _ => exact Nat.le_refl _

theorem plain_eq_print {piece : Piece}
    (wide : ∀ v, piece = .ulong v → 100000000 ≤ v.toNat) : piece.plain = piece.print := by
  cases piece with
  | ulong v =>
    have same := (leftpad_iff v).mpr (wide v rfl)
    rw [List.length_leftpad] at same
    have none_ : 9 - (Nat.toDigits 10 v.toNat).length = 0 := by omega
    show _ = List.leftpad 9 '0' (Nat.toDigits 10 v.toNat)
    unfold List.leftpad
    rw [none_]
    rfl
  | _ => rfl

/-- Texts of the same length are made of pieces of the same length, when none is longer than its
counterpart. -/
theorem length_flatMap_eq {α : Type} {f g : α → Text} (shorter : ∀ a, (f a).length ≤ (g a).length)
    {l : List α} (same : (l.flatMap f).length = (l.flatMap g).length) :
    ∀ a ∈ l, (f a).length = (g a).length := by
  have most : ∀ l : List α, (l.flatMap f).length ≤ (l.flatMap g).length := by
    intro l
    induction l with
    | nil => exact Nat.le_refl _
    | cons a l ih =>
      rw [List.flatMap_cons, List.flatMap_cons, List.length_append, List.length_append]
      exact Nat.add_le_add (shorter a) ih
  induction l with
  | nil => exact fun _ inside => absurd inside List.not_mem_nil
  | cons a l ih =>
    rw [List.flatMap_cons, List.flatMap_cons, List.length_append, List.length_append] at same
    have first := shorter a
    have rest := most l
    intro b inside
    rcases List.mem_cons.mp inside with rfl | inside
    · omega
    · exact ih (by omega) b inside

/-- **The fast formatter is `sprintf`** with `%lu` in nine digits, and returns the number of bytes,
exactly when every `%lu` behind a `%ld` has nine digits by itself. -/
theorem ircsprintf_iff (pieces : List Piece) :
    vsprintf_irc (formatOf pieces) (argsOf pieces) =
        some (pieces.flatMap Piece.print, (pieces.flatMap Piece.print).length) ↔
      ∀ v, .ulong v ∈ pieces.dropWhile Piece.known → 100000000 ≤ v.toNat := by
  have split : pieces.flatMap Piece.print = (pieces.takeWhile Piece.known).flatMap Piece.print ++
      (pieces.dropWhile Piece.known).flatMap Piece.print := by
    rw [← List.flatMap_append, List.takeWhile_append_dropWhile]
  rw [vsprintf_irc_pieces]
  constructor
  · intro same v inside
    have text := (Prod.ext_iff.mp (Option.some.inj same)).1
    unfold ircText at text
    rw [split] at text
    have rest := List.append_cancel_left text
    have lengths := length_flatMap_eq length_plain_le (congrArg List.length rest) _ inside
    exact (leftpad_iff v).mp lengths.symm
  · intro wide
    have rest : (pieces.dropWhile Piece.known).flatMap Piece.plain =
        (pieces.dropWhile Piece.known).flatMap Piece.print :=
      List.flatMap_congr fun piece inside => plain_eq_print fun v same =>
        wide v (same ▸ inside)
    unfold ircText
    rw [rest, ← split]

/-- **A time behind a `%ld` is not padded.** -/
theorem not_ircsprintf : ¬ ∀ pieces, vsprintf_irc (formatOf pieces) (argsOf pieces) =
    some (pieces.flatMap Piece.print, (pieces.flatMap Piece.print).length) := by
  intro same
  have short := (congrArg (Option.map Prod.snd) (same [.long 5, .ulong 7]))
  exact absurd short (by decide +kernel)

end PtlinkIrcd
