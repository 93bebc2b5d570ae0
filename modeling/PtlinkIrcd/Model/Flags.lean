/-
**Words of flag bits.**

C tests a flag with `word & flag`, sets it with `word |= flag` and clears it with `word &= ~flag`.

* `Flags.has` — the test, of one bit or of several at once.
* `Flags.change` — setting or clearing, by a sign.
* What a change does to the test of the same flag and of a flag apart from it.
* `Flags.and_union_eq` — two words that agree on the test of each bit agree under the mask of all.
-/

import Mathlib.Data.List.Basic
import Mathlib.Data.Nat.Basic

namespace PtlinkIrcd

abbrev Flags := BitVec 32

namespace Flags

/-- Whether some bit of `flag` is set in `word`: C's `word & flag` as a condition. -/
def has (word flag : Flags) : Bool := word &&& flag != 0

def change (word : Flags) (add : Bool) (flag : Flags) : Flags :=
  if add then word ||| flag else word &&& ~~~flag

@[simp] theorem zero_has (flag : Flags) : has 0#32 flag = false := by
  unfold has
  rw [BitVec.zero_and]
  rfl

theorem has_self {flag : Flags} (some_ : flag ≠ 0#32) : flag.has flag = true := by
  unfold has
  rw [BitVec.and_self]
  exact bne_iff_ne.mpr some_

theorem has_of_disjoint {word flag : Flags} (apart : word &&& flag = 0#32) :
    word.has flag = false := by
  unfold has
  rw [apart]
  rfl

theorem or_has (a b flag : Flags) : has (a ||| b) flag = (a.has flag || b.has flag) := by
  unfold has
  rw [Bool.eq_iff_iff]
  simp only [bne_iff_ne, Bool.or_eq_true, ne_eq]
  show ¬ (_ = 0#32) ↔ ¬ (_ = 0#32) ∨ ¬ (_ = 0#32)
  rw [BitVec.and_comm, BitVec.and_or_distrib_left, BitVec.or_eq_zero_iff, not_and_or,
    BitVec.and_comm, BitVec.and_comm flag]

theorem has_or (word a b : Flags) : word.has (a ||| b) = (word.has a || word.has b) := by
  have swap : ∀ a b : Flags, a.has b = b.has a := fun a b => by
    unfold has
    rw [BitVec.and_comm]
  rw [swap, or_has, swap a, swap b]

theorem and_has {mask flag : Flags} (inside : mask &&& flag = flag) (word : Flags) :
    has (word &&& mask) flag = word.has flag := by
  unfold has
  rw [BitVec.and_assoc, inside]

theorem has_of_and {word mask flag : Flags} (set : has (word &&& mask) flag = true) :
    word.has flag = true := by
  unfold has at set ⊢
  rw [bne_iff_ne] at set ⊢
  intro zero
  refine set ?_
  rw [BitVec.and_assoc, BitVec.and_comm mask, ← BitVec.and_assoc, zero]
  exact BitVec.zero_and

theorem and_has_of_disjoint {mask flag : Flags} (apart : mask &&& flag = 0#32) (word : Flags) :
    has (word &&& mask) flag = false := by
  refine has_of_disjoint ?_
  rw [BitVec.and_assoc, apart]
  exact BitVec.and_zero

theorem not_and_of_disjoint {a flag : Flags} (apart : a &&& flag = 0#32) :
    ~~~a &&& flag = flag := by
  ext i inBounds
  have bit := congrArg (fun w : Flags => w[i]) apart
  simp only [BitVec.getElem_and, BitVec.getElem_not, BitVec.getElem_zero] at bit ⊢
  cases known : a[i] <;> simp_all

theorem change_has_of_disjoint {a flag : Flags} (apart : a &&& flag = 0#32) (word : Flags)
    (add : Bool) : (word.change add a).has flag = word.has flag := by
  unfold change
  cases add with
  | true => rw [if_pos rfl, or_has, has_of_disjoint apart, Bool.or_false]
  | false => exact and_has (not_and_of_disjoint apart) word

theorem change_has_self {flag : Flags} (some_ : flag ≠ 0#32) (word : Flags) (add : Bool) :
    (word.change add flag).has flag = add := by
  unfold change
  cases add with
  | true => rw [if_pos rfl, or_has, has_self some_, Bool.or_true]
  | false =>
    refine has_of_disjoint ?_
    rw [if_neg Bool.false_ne_true, BitVec.and_assoc, BitVec.and_comm (~~~flag), BitVec.and_not_self]
    exact BitVec.and_zero

/-- Whether no flag of one list shares a bit with one of the other. -/
def apart (flags others : List Flags) : Bool :=
  flags.all fun flag => others.all fun other => flag &&& other == 0#32

theorem and_eq_zero_of_apart {flags others : List Flags} (none_ : apart flags others = true)
    {flag other : Flags} (left : flag ∈ flags) (right : other ∈ others) :
    flag &&& other = 0#32 := by
  have row := List.all_eq_true.mp none_ flag left
  exact beq_iff_eq.mp (List.all_eq_true.mp row other right)

def union (flags : List Flags) : Flags := flags.foldr (· ||| ·) 0#32

theorem and_bit (word : Flags) (i : Nat) :
    word &&& BitVec.twoPow 32 i =
      if word.has (BitVec.twoPow 32 i) then BitVec.twoPow 32 i else 0#32 := by
  unfold has
  rw [BitVec.and_twoPow]
  split
  · split
    · rfl
    · rename_i none_
      exact (bne_eq_false_iff_eq.mp (Bool.eq_false_iff.mpr none_))
  · rfl

theorem and_union {flags : List Flags} (bits : ∀ flag ∈ flags, ∃ i, flag = BitVec.twoPow 32 i)
    (word : Flags) : word &&& union flags = union (flags.filter word.has) := by
  induction flags with
  | nil => exact BitVec.and_zero
  | cons flag flags ih =>
    obtain ⟨i, bit⟩ := bits flag List.mem_cons_self
    have rest := ih fun f member => bits f (List.mem_cons_of_mem _ member)
    have here : word &&& flag = if word.has flag then flag else 0#32 := by
      rw [bit, and_bit]
    show word &&& (flag ||| union flags) = _
    rw [BitVec.and_or_distrib_left, here, rest, List.filter_cons]
    split
    · rfl
    · exact BitVec.zero_or

theorem and_union_eq {flags : List Flags} {a b : Flags}
    (bits : ∀ flag ∈ flags, ∃ i, flag = BitVec.twoPow 32 i)
    (same : ∀ flag ∈ flags, a.has flag = b.has flag) : a &&& union flags = b &&& union flags := by
  rw [and_union bits, and_union bits, List.filter_congr same]

theorem has_of_and_eq {mask a b flag : Flags} (inside : mask &&& flag = flag)
    (same : a &&& mask = b &&& mask) : a.has flag = b.has flag := by
  rw [← and_has inside a, same, and_has inside]

def Within (mask word : Flags) : Prop := word &&& mask = word

theorem Within.change {mask word flag : Flags} (within : Within mask word)
    (flagWithin : Within mask flag) (add : Bool) : Within mask (word.change add flag) := by
  unfold Within at *
  unfold Flags.change
  cases add with
  | true =>
    rw [if_pos rfl, BitVec.and_comm, BitVec.and_or_distrib_left, BitVec.and_comm, within,
      BitVec.and_comm, flagWithin]
  | false =>
    rw [if_neg Bool.false_ne_true, BitVec.and_assoc, BitVec.and_comm (~~~flag), ← BitVec.and_assoc,
      within]

theorem Within.and {mask word : Flags} (within : Within mask word) (other : Flags) :
    Within mask (word &&& other) := by
  unfold Within at *
  rw [BitVec.and_assoc, BitVec.and_comm other, ← BitVec.and_assoc, within]

theorem Within.or {mask word : Flags} (within : Within mask word) (other : Flags) :
    Within (mask ||| other) word := by
  unfold Within at *
  rw [BitVec.and_or_distrib_left, within]
  ext i bound
  simp only [BitVec.getElem_or, BitVec.getElem_and]
  cases word[i] <;> rfl

theorem Within.drop {mask word : Flags} (within : Within mask word) (other : Flags) :
    Within (mask &&& ~~~other) (word &&& ~~~other) := by
  unfold Within at *
  calc word &&& ~~~other &&& (mask &&& ~~~other)
      = word &&& mask &&& (~~~other &&& ~~~other) := by ac_rfl
    _ = word &&& ~~~other := by rw [within, BitVec.and_self]

theorem Within.has {mask word flag : Flags} (within : Within mask word)
    (set : word.has flag = true) : mask.has flag = true := by
  unfold Within at within
  rw [← within, BitVec.and_comm] at set
  exact has_of_and set

end Flags

end PtlinkIrcd
