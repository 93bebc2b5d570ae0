/-
**Prefixes.**

A prefix is the set of words that agree with `ip` on the first bits, those of a mask.

* `netmask`, `Covers`, `IsPrefix` — the mask of a number of bits, the words of a prefix, and what a
  pair of a word and a mask has to meet for it.
* `IsPrefix.covers_iff_range`, `IsPrefix.and_lt_iff` — a prefix is an interval, and its mask tells on
  which side of it a word lies.
* `Meets`, `IsPrefix.meets`, `IsPrefix.nested` — **two prefixes that meet are nested**, the one with the longer
  mask inside.
* `Covers.and_hull` — the bits that occur in the words of a prefix.
-/

import Mathlib.Algebra.Group.Nat.Defs
import Mathlib.Data.Nat.Basic
import Mathlib.Order.Basic

namespace PtlinkIrcd.Lib

variable {w : Nat}

/-- The mask of the first `length` bits. -/
def netmask (w length : Nat) : BitVec w := BitVec.allOnes w <<< (w - length)

/-- The words of a prefix. -/
def Covers (ip mask x : BitVec w) : Prop := x &&& mask = ip

instance (ip mask x : BitVec w) : Decidable (Covers ip mask x) :=
  inferInstanceAs (Decidable (x &&& mask = ip))

/-- One of two prefixes contains the other, as the word of one in the other tells. -/
def Meets (ip mask ip' mask' : BitVec w) : Prop := Covers ip mask ip' ∨ Covers ip' mask' ip

instance (ip mask ip' mask' : BitVec w) : Decidable (Meets ip mask ip' mask') :=
  inferInstanceAs (Decidable (_ ∨ _))

/-- The mask is that of some first bits, and the other bits of `ip` are clear. -/
structure IsPrefix (ip mask : BitVec w) : Prop where
  contiguous : ∃ length ≤ w, mask = netmask w length
  cleared : ip &&& mask = ip

/-! ### Masks -/

theorem and_netmask (x : BitVec w) (length : Nat) :
    x &&& netmask w length = (x >>> (w - length)) <<< (w - length) := by
  apply BitVec.eq_of_getLsbD_eq
  intro i below
  unfold netmask
  rw [BitVec.getLsbD_and, BitVec.getLsbD_shiftLeft, BitVec.getLsbD_shiftLeft,
    BitVec.getLsbD_ushiftRight, BitVec.getLsbD_allOnes]
  by_cases low : i < w - length
  · simp [low]
  · have back : w - length + (i - (w - length)) = i := by omega
    have inside : i - (w - length) < w := by omega
    simp [low, back, inside, below]

theorem toNat_and_netmask (x : BitVec w) (length : Nat) :
    (x &&& netmask w length).toNat = x.toNat / 2 ^ (w - length) * 2 ^ (w - length) := by
  rw [and_netmask, BitVec.toNat_shiftLeft, BitVec.toNat_ushiftRight, Nat.shiftLeft_eq,
    Nat.shiftRight_eq_div_pow]
  exact Nat.mod_eq_of_lt (Nat.lt_of_le_of_lt (Nat.div_mul_le_self _ _) x.isLt)

theorem toNat_netmask (w length : Nat) : (netmask w length).toNat = 2 ^ w - 2 ^ (w - length) := by
  have short : 2 ^ (w - length) ≤ 2 ^ w := Nat.pow_le_pow_right (by omega) (Nat.sub_le _ _)
  have some_ : 0 < 2 ^ (w - length) := Nat.two_pow_pos _
  unfold netmask
  rw [BitVec.toNat_shiftLeft, BitVec.toNat_allOnes, Nat.shiftLeft_eq]
  generalize 2 ^ (w - length) = step at *
  generalize 2 ^ w = all at *
  have parts : (all - 1) * step = all - step + all * (step - 1) := by
    obtain ⟨rest, rfl⟩ : ∃ rest, all = rest + 1 := ⟨all - 1, by omega⟩
    obtain ⟨less, rfl⟩ : ∃ less, step = less + 1 := ⟨step - 1, by omega⟩
    rw [Nat.add_sub_cancel, Nat.add_sub_cancel, Nat.succ_mul, Nat.mul_succ]
    omega
  rw [parts, Nat.add_mul_mod_self_left]
  exact Nat.mod_eq_of_lt (by omega)

/-! ### The interval -/

namespace IsPrefix

variable {ip mask ip' mask' x y : BitVec w}

theorem covers_self (block : IsPrefix ip mask) : Covers ip mask ip := block.cleared

theorem exists_size (block : IsPrefix ip mask) :
    ∃ length ≤ w, mask = netmask w length ∧ 2 ^ w - mask.toNat = 2 ^ (w - length) ∧
      ip.toNat = ip.toNat / 2 ^ (w - length) * 2 ^ (w - length) := by
  obtain ⟨length, short, rfl⟩ := block.contiguous
  have below : 2 ^ (w - length) ≤ 2 ^ w := Nat.pow_le_pow_right (by omega) (Nat.sub_le _ _)
  refine ⟨length, short, rfl, ?_, ?_⟩
  · rw [toNat_netmask, Nat.sub_sub_self below]
  · rw [← toNat_and_netmask, block.cleared]

/-- **The mask tells on which side of the prefix a word lies.** -/
theorem and_lt_iff (block : IsPrefix ip mask) : x &&& mask < ip ↔ x.toNat < ip.toNat := by
  obtain ⟨length, _, rfl, _, whole⟩ := block.exists_size
  rw [BitVec.lt_def, toNat_and_netmask, whole]
  generalize 2 ^ (w - length) = step at *
  constructor
  · intro less
    have quotient := Nat.lt_of_mul_lt_mul_right less
    by_contra more
    have : ip.toNat / step ≤ x.toNat / step := Nat.div_le_div_right (by omega)
    omega
  · intro less
    exact Nat.lt_of_le_of_lt (Nat.div_mul_le_self _ _) less

theorem covers_iff_range (block : IsPrefix ip mask) :
    Covers ip mask x ↔ ip.toNat ≤ x.toNat ∧ x.toNat < ip.toNat + (2 ^ w - mask.toNat) := by
  obtain ⟨length, _, rfl, size, whole⟩ := block.exists_size
  have some_ : 0 < 2 ^ (w - length) := Nat.two_pow_pos _
  rw [size]
  unfold Covers
  rw [← BitVec.toNat_inj, toNat_and_netmask]
  generalize 2 ^ (w - length) = step at *
  constructor
  · intro same
    have parts := Nat.div_add_mod' x.toNat step
    have rest := Nat.mod_lt x.toNat some_
    omega
  · rintro ⟨more, less⟩
    rw [whole] at more less ⊢
    have quotient : x.toNat / step = ip.toNat / step := by
      refine Nat.le_antisymm (Nat.le_of_lt_succ ?_) ((Nat.le_div_iff_mul_le some_).mpr more)
      rw [Nat.div_lt_iff_lt_mul some_, Nat.succ_mul]
      exact less
    rw [quotient]

/-! ### Nesting -/

theorem and_and_of_le (short : mask ≤ mask') (block : IsPrefix ip mask)
    (block' : IsPrefix ip' mask') : (x &&& mask') &&& mask = x &&& mask := by
  obtain ⟨length, inside, rfl⟩ := block.contiguous
  obtain ⟨length', inside', rfl⟩ := block'.contiguous
  have longer : length ≤ length' := by
    rw [BitVec.le_def, toNat_netmask, toNat_netmask] at short
    have below : 2 ^ (w - length) ≤ 2 ^ w := Nat.pow_le_pow_right (by omega) (Nat.sub_le _ _)
    have below' : 2 ^ (w - length') ≤ 2 ^ w := Nat.pow_le_pow_right (by omega) (Nat.sub_le _ _)
    have size : 2 ^ (w - length') ≤ 2 ^ (w - length) := by omega
    have := (Nat.pow_le_pow_iff_right (by omega : 1 < 2)).mp size
    omega
  rw [BitVec.and_assoc]
  congr 1
  apply BitVec.eq_of_getLsbD_eq
  intro i below
  unfold netmask
  rw [BitVec.getLsbD_and, BitVec.getLsbD_shiftLeft, BitVec.getLsbD_shiftLeft]
  by_cases low : i < w - length
  · simp [low]
  · have low' : ¬ i < w - length' := by omega
    have inside : i - (w - length') < w := by omega
    simp [low, low', inside, below]

/-- **Two prefixes that meet are nested.** -/
theorem nested (block : IsPrefix ip mask) (block' : IsPrefix ip' mask') (short : mask ≤ mask')
    (common : Covers ip mask x) (common' : Covers ip' mask' x) (inner : Covers ip' mask' y) :
    Covers ip mask y := by
  unfold Covers at *
  calc y &&& mask = (y &&& mask') &&& mask := (and_and_of_le short block block').symm
    _ = (x &&& mask') &&& mask := by rw [inner, common']
    _ = x &&& mask := and_and_of_le short block block'
    _ = ip := common

/-- **Prefixes with a word in common** meet. -/
theorem meets (block : IsPrefix ip mask) (block' : IsPrefix ip' mask') (common : Covers ip mask x)
    (common' : Covers ip' mask' x) : Meets ip mask ip' mask' := by
  rcases BitVec.le_total mask mask' with short | long
  · exact .inl (block.nested block' short common common' block'.covers_self)
  · exact .inr (block'.nested block long common' common block.covers_self)

theorem of_and (ip : BitVec w) {length : Nat} (inside : length ≤ w) :
    IsPrefix (ip &&& netmask w length) (netmask w length) :=
  ⟨⟨length, inside, rfl⟩, by rw [BitVec.and_assoc, BitVec.and_self]⟩

theorem and_eq_of_covers (block : IsPrefix ip mask) {length : Nat} (inside : length ≤ w)
    (short : netmask w length ≤ mask) (here : Covers ip mask x) :
    x &&& netmask w length = ip &&& netmask w length :=
  (of_and ip inside).nested block short rfl block.covers_self here

end IsPrefix

/-- **The bits of the words of a prefix**: the free ones and those of `ip`. -/
theorem Covers.and_hull {ip mask x : BitVec w} (here : Covers ip mask x) :
    (BitVec.allOnes w - mask + ip) &&& x = x := by
  have cleared : ip &&& mask = ip := by
    rw [← here, BitVec.and_assoc, BitVec.and_self]
  have apart : ~~~mask &&& ip = 0 := by
    apply BitVec.eq_of_getLsbD_eq
    intro i below
    have bit := congrArg (·.getLsbD i) cleared
    simp only [BitVec.getLsbD_and] at bit
    rw [BitVec.getLsbD_and, BitVec.getLsbD_not]
    cases on : mask.getLsbD i
    · rw [on, Bool.and_false] at bit
      simp [← bit]
    · simp
  rw [BitVec.allOnes_sub_eq_not, BitVec.add_eq_or_of_and_eq_zero _ _ apart]
  apply BitVec.eq_of_getLsbD_eq
  intro i below
  have bit := congrArg (·.getLsbD i) here
  simp only [BitVec.getLsbD_and] at bit
  rw [BitVec.getLsbD_and, BitVec.getLsbD_or, BitVec.getLsbD_not]
  cases on : mask.getLsbD i
  · simp [below]
  · rw [on, Bool.and_true] at bit
    simp [← bit]

end PtlinkIrcd.Lib
