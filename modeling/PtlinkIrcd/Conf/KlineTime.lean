/-
**How long a temporary K-line lasts.**

`m_kline` takes its first parameter for a time in minutes when it is a number. `isnumber` reads the digits
into an `int`, and only a time that is too long is cut.

* `isnumber_eq` — the number modulo `2 ^ 32`, and one for zero.
* `m_kline_minutes` — the minutes of a K-line that is added.
* `kline_minutes_iff` — **they are those that were asked for, within a day, exactly when the number does
  not come out negative**.
-/

import PtlinkIrcd.Conf.AddressText
import PtlinkIrcd.Conf.KlineFile

namespace PtlinkIrcd

section

variable {p : Text}

/-- The loop of `isnumber`, behind a number that is `n` as far as an `int` goes. -/
theorem foldl_digits (digits : Digits p) {result : Int32} {n : Nat} (before : result = Int32.ofNat n) :
    p.foldl (fun result c => result * 10 + Int32.ofNat (c.toNat &&& 0xF)) result =
      Int32.ofNat (Nat.ofDigitChars 10 p n) := by
  induction p generalizing result n with
  | nil => exact before
  | cons c p ih =>
    obtain ⟨digit, digits⟩ := List.forall_mem_cons.mp digits
    rw [List.foldl_cons, Nat.ofDigitChars_cons]
    apply ih digits
    rw [before, and_15_of_isDigit digit, Nat.mul_comm 10 n, Int32.ofNat_add, Int32.ofNat_mul]
    rfl

/-- **The digits are read modulo `2 ^ 32`**, and zero is one. -/
theorem isnumber_eq (digits : Digits p) :
    isnumber p = if Int32.ofNat (decimal p) = 0 then 1 else Int32.ofNat (decimal p) := by
  have all : p.all Char.isDigit = true := List.all_eq_true.mpr digits
  rw [isnumber, if_pos all, foldl_digits digits (rfl : (0 : Int32) = Int32.ofNat 0)]
  rfl

theorem isnumber_ne_zero (digits : Digits p) : isnumber p ≠ 0 := by
  rw [isnumber_eq digits]
  split_ifs with zero
  · decide
  · exact zero

theorem toInt_ofNat_cases (n : Nat) :
    (n % 2 ^ 32 < 2 ^ 31 ∧ (Int32.ofNat n).toInt = n % 2 ^ 32) ∨
      (2 ^ 31 ≤ n % 2 ^ 32 ∧ (Int32.ofNat n).toInt < 0) := by
  rw [Int32.toInt_ofNat', Int.bmod_def]
  have size : (Int32.size : Int) = 2 ^ 32 := rfl
  rw [size]
  omega

/-- The minutes that `m_kline` uses. -/
def klineMinutes (p : Text) : Int32 := min (isnumber p) (24 * 60)

theorem toInt_min (a b : Int32) : (min a b).toInt = min a.toInt b.toInt := by
  show (if a ≤ b then a else b).toInt = _
  split_ifs with le
  · exact (min_eq_left (Int32.le_iff_toInt_le.mp le)).symm
  · exact (min_eq_right (le_of_not_ge fun ge => le (Int32.le_iff_toInt_le.mpr ge))).symm

/-- The minutes, for a number that comes out negative and for another one. -/
theorem toInt_klineMinutes (digits : Digits p) :
    (klineMinutes p).toInt =
      if decimal p % 2 ^ 32 < 2 ^ 31 then min (max (decimal p % 2 ^ 32 : Int) 1) (24 * 60)
      else (Int32.ofNat (decimal p)).toInt := by
  have day : ((24 : Int32) * 60).toInt = 24 * 60 := by decide
  have one : (1 : Int32).toInt = 1 := by decide
  have zero : Int32.ofNat (decimal p) = 0 ↔ (Int32.ofNat (decimal p)).toInt = 0 :=
    ⟨fun same => congrArg Int32.toInt same, fun same => Int32.toInt_inj.mp same⟩
  rw [klineMinutes, toInt_min, day, isnumber_eq digits]
  rcases toInt_ofNat_cases (decimal p) with ⟨small, same⟩ | ⟨large, negative⟩
  · rw [if_pos small]
    split_ifs with none_
    · rw [one]
      have value := zero.mp none_
      omega
    · have value := mt zero.mpr none_
      rw [same] at value ⊢
      omega
  · rw [if_neg (Nat.not_lt.mpr large)]
    split_ifs with none_
    · exact absurd (zero.mp none_) negative.ne
    · omega

end

/-- **The time of a K-line**: within a day, and the time that was asked for if that is. -/
def KlineTimely (p : Text) (minutes : Int32) : Prop :=
  1 ≤ minutes.toInt ∧ minutes.toInt ≤ 24 * 60 ∧
    (1 ≤ decimal p → decimal p ≤ 24 * 60 → minutes.toInt = decimal p)

theorem klineTimely_iff {p : Text} (digits : Digits p) :
    KlineTimely p (klineMinutes p) ↔ decimal p % 2 ^ 32 < 2 ^ 31 := by
  unfold KlineTimely
  rw [toInt_klineMinutes digits]
  rcases toInt_ofNat_cases (decimal p) with ⟨small, -⟩ | ⟨large, negative⟩
  · rw [if_pos small]
    refine iff_of_true ⟨?_, ?_, fun some_ day => ?_⟩ small
    · omega
    · omega
    · omega
  · rw [if_neg (Nat.not_lt.mpr large)]
    exact iff_of_false (fun timely => by omega) (Nat.not_lt.mpr large)

section

variable {w : Nat} {env : KlineEnv w} {sptr : Klining} {parv : List Text} {k : Kline w} {p : Text}

theorem minutes_lineOf {minutes : Option Int32} {user host : Text} {comment : Option Text}
    (added : env.lineOf minutes user host comment = some k) : k.minutes = minutes := by
  unfold KlineEnv.lineOf at added
  dsimp only at added
  split_ifs at added
  · rw [← Option.some.inj added]
  · rw [← Option.some.inj added]

/-- **The minutes of a K-line that is added** for a first parameter of digits. -/
theorem m_kline_minutes (first : parv[1]? = some p) (digits : Digits p)
    (added : m_kline env sptr parv = some k) : k.minutes = some (klineMinutes p) := by
  have parameter : parv.getD 1 [] = p := by rw [List.getD_eq_getElem?_getD, first, Option.getD_some]
  unfold m_kline at added
  dsimp only at added
  rw [parameter, if_pos (isnumber_ne_zero digits), if_pos (isnumber_ne_zero digits)] at added
  split_ifs at added
  split at added
  · cases added
  · exact minutes_lineOf added

/-- **The minutes of a temporary K-line are within a day, and those asked for if these are**, exactly when
the number is less than `2 ^ 31` modulo `2 ^ 32`. -/
theorem kline_minutes_iff (env : KlineEnv w) (sptr : Klining) (first : parv[1]? = some p)
    (digits : Digits p) (added : m_kline env sptr parv = some k) :
    (∃ minutes, k.minutes = some minutes ∧ KlineTimely p minutes) ↔ decimal p % 2 ^ 32 < 2 ^ 31 := by
  rw [m_kline_minutes first digits added, ← klineTimely_iff digits]
  simp only [Option.some.injEq, exists_eq_left']

end

/-- A K-line for an hour. -/
theorem kline_minutes_iff_hour : ∃ k, m_kline sampleKlineEnv sampleKlining
      ["ann".toList, "60".toList, "b@bad.example".toList] = some k ∧
    ∃ minutes, k.minutes = some minutes ∧ KlineTimely "60".toList minutes := by
  obtain ⟨k, added⟩ : ∃ k, m_kline sampleKlineEnv sampleKlining
      ["ann".toList, "60".toList, "b@bad.example".toList] = some k :=
    Option.isSome_iff_exists.mp (by decide +kernel)
  have digits : Digits "60".toList := List.all_eq_true.mp (by decide)
  exact ⟨k, added, (kline_minutes_iff sampleKlineEnv sampleKlining rfl digits added).mpr (by decide)⟩

/-- **A number of minutes that comes out as -1**: the K-line has ended before it starts. -/
theorem not_kline_minutes : ¬ ∀ (env : KlineEnv 64) (sptr : Klining) (parv : List Text) (p : Text)
    (k : Kline 64), parv[1]? = some p → Digits p → m_kline env sptr parv = some k →
      ∃ minutes, k.minutes = some minutes ∧ KlineTimely p minutes := by
  intro all
  obtain ⟨k, added⟩ : ∃ k, m_kline sampleKlineEnv sampleKlining
      ["ann".toList, "4294967295".toList, "b@bad.example".toList] = some k :=
    Option.isSome_iff_exists.mp (by decide +kernel)
  have digits : Digits "4294967295".toList := List.all_eq_true.mp (by decide)
  obtain ⟨minutes, same, timely⟩ := all sampleKlineEnv sampleKlining _ _ k rfl digits added
  have used := m_kline_minutes rfl digits added
  obtain rfl := Option.some.inj (used.symm.trans same)
  exact absurd ((klineTimely_iff digits).mp timely) (by decide)

end PtlinkIrcd
