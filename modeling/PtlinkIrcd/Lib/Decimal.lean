/-
**Decimal numerals.**

`zeroPadded width n` writes `n` in exactly `width` digits; reading the digits gives `n` back when it
fits (`ofDigitChars_zeroPadded`), and so does the shortest numeral with zeros in front
(`zeroPadded_eq`) or with its leading zeros taken away (`dropWhile_zeroPadded`).
`takeWhile_isDigit_append` cuts a numeral off what follows it.
-/

import Mathlib.Algebra.Group.Nat.Defs
import Mathlib.Data.Nat.Basic

namespace PtlinkIrcd.Lib

/-- A number in exactly `width` digits, the last ones. -/
def zeroPadded : Nat → Nat → List Char
  | 0, _ => []
  | width + 1, n => zeroPadded width (n / 10) ++ [(n % 10).digitChar]

theorem length_zeroPadded (width n : Nat) : (zeroPadded width n).length = width := by
  induction width generalizing n with
  | zero => rfl
  | succ width ih => rw [zeroPadded, List.length_append, ih]; rfl

theorem isDigit_of_mem_zeroPadded {width n : Nat} {c : Char} (member : c ∈ zeroPadded width n) :
    c.isDigit := by
  induction width generalizing n with
  | zero => exact absurd member List.not_mem_nil
  | succ width ih =>
    rcases List.mem_append.mp member with member | member
    · exact ih member
    · rw [List.mem_singleton.mp member]
      rw [Nat.isDigit_digitChar]
      exact decide_eq_true (Nat.mod_lt _ (by decide))

/-- **Reading the padded digits gives the number back, up to the width.** -/
theorem ofDigitChars_zeroPadded (width n : Nat) :
    Nat.ofDigitChars 10 (zeroPadded width n) 0 = n % 10 ^ width := by
  induction width generalizing n with
  | zero => simp [zeroPadded, Nat.mod_one]
  | succ width ih =>
    have last : n % 10 < 10 := Nat.mod_lt _ (by decide)
    rw [zeroPadded, Nat.ofDigitChars_append, ih, Nat.ofDigitChars_cons_digitChar_of_lt_ten last,
      Nat.ofDigitChars_nil, Nat.pow_succ, Nat.mul_comm (10 ^ width), Nat.mod_mul]
    omega

theorem zeroPadded_add (first last n : Nat) :
    zeroPadded (first + last) n = zeroPadded first (n / 10 ^ last) ++ zeroPadded last n := by
  induction last generalizing n with
  | zero => rw [Nat.pow_zero, Nat.div_one, zeroPadded, List.append_nil]; rfl
  | succ last ih =>
    rw [← Nat.add_assoc, zeroPadded, ih, zeroPadded, Nat.div_div_eq_div_mul, List.append_assoc,
      Nat.pow_succ, Nat.mul_comm 10]

theorem zeroPadded_mod (width n : Nat) : zeroPadded width (n % 10 ^ width) = zeroPadded width n := by
  induction width generalizing n with
  | zero => rfl
  | succ width ih =>
    have front : n % 10 ^ (width + 1) / 10 = n / 10 % 10 ^ width := by
      rw [Nat.pow_succ, Nat.mul_comm, Nat.mod_mul_right_div_self]
    have last : n % 10 ^ (width + 1) % 10 = n % 10 := by
      rw [Nat.pow_succ, Nat.mod_mul_left_mod]
    rw [zeroPadded, zeroPadded, front, last, ih]

theorem zeroPadded_zero (width : Nat) : zeroPadded width 0 = List.replicate width '0' := by
  induction width with
  | zero => rfl
  | succ width ih =>
    rw [zeroPadded, Nat.zero_div, ih, List.replicate_succ']
    rfl

/-- **The shortest numeral with zeros in front.** -/
theorem zeroPadded_eq {width n : Nat} (positive : 0 < n) (small : n < 10 ^ width) :
    zeroPadded width n =
      List.replicate (width - (Nat.toDigits 10 n).length) '0' ++ Nat.toDigits 10 n := by
  induction width generalizing n with
  | zero => exact absurd small (by omega)
  | succ width ih =>
    rw [zeroPadded, Nat.toDigits_eq_if (by decide)]
    by_cases one : n < 10
    · rw [if_pos one, Nat.div_eq_of_lt one, Nat.mod_eq_of_lt one, zeroPadded_zero,
        List.length_singleton, Nat.add_sub_cancel]
    · have shorter : n / 10 < 10 ^ width := by
        rw [Nat.pow_succ] at small
        omega
      rw [if_neg one, ih (by omega) shorter, List.length_append, List.length_singleton,
        Nat.add_sub_add_right, List.append_assoc]

theorem head?_toDigits {n : Nat} (positive : 0 < n) : (Nat.toDigits 10 n).head? ≠ some '0' := by
  induction n using Nat.strong_induction_on with
  | _ n ih =>
    rw [Nat.toDigits_eq_if (by decide)]
    split
    · rename_i one
      intro zero
      have value := congrArg (Nat.ofDigitChars 10 · 0) (congrArg Option.toList zero)
      rw [List.head?_cons, Option.toList_some, Option.toList_some,
        Nat.ofDigitChars_cons_digitChar_of_lt_ten one] at value
      have read : 10 * 0 + n = 0 := value
      omega
    · rename_i more
      have rest := ih (n / 10) (by omega) (by omega)
      cases front : Nat.toDigits 10 (n / 10) with
      | nil => exact absurd front Nat.toDigits_ne_nil
      | cons c digits =>
        rw [front] at rest
        exact rest

/-- **Without its leading zeros a padded numeral is the shortest one.** -/
theorem dropWhile_zeroPadded {width n : Nat} (positive : 0 < n) (small : n < 10 ^ width) :
    (zeroPadded width n).dropWhile (· = '0') = Nat.toDigits 10 n := by
  rw [zeroPadded_eq positive small, List.dropWhile_append_of_pos fun c inside => by
    rw [List.eq_of_mem_replicate inside]; rfl]
  have head := head?_toDigits positive
  cases whole : Nat.toDigits 10 n with
  | nil => rfl
  | cons c rest =>
    rw [whole, List.head?_cons] at head
    rw [List.dropWhile_cons_of_neg]
    exact fun zero => head (congrArg some (of_decide_eq_true zero))

theorem takeWhile_isDigit_append {ds t : List Char} (digits : ∀ c ∈ ds, c.isDigit)
    (stop : ∀ c ∈ t.head?, c.isDigit = false) :
    (ds ++ t).takeWhile Char.isDigit = ds := by
  rw [List.takeWhile_append_of_pos digits]
  cases t with
  | nil => simp
  | cons c t =>
    have no : c.isDigit = false := stop c rfl
    rw [List.takeWhile_cons_of_neg (by simp [no]), List.append_nil]

end PtlinkIrcd.Lib
