/-
**UTF-8 on lists of bytes.**

A text is well formed when it is the UTF-8 form of some characters.

* `encode_append_inj` — the form of a character is not the beginning of that of another one.
* `wellFormed_append_encode` — **no character goes across the start of another one**: a text is well formed
  if and only if the parts before and behind a character of it are.
* `encode_one`, `encode_two`, `encode_three`, `encode_four` — the bytes of a character;
  `low_of_wellFormed` — a byte alone is one of ASCII.
-/

import Mathlib.Data.List.Basic

namespace PtlinkIrcd.Lib

/-- The UTF-8 form of a character. -/
def encodeChar (c : Char) : List (BitVec 8) := (String.utf8EncodeChar c).map UInt8.toBitVec

/-- The UTF-8 form of some characters. -/
def WellFormed (bytes : List (BitVec 8)) : Prop := ∃ text : List Char, text.flatMap encodeChar = bytes

variable {a b r : List (BitVec 8)} {c d : Char} {n : Nat}

theorem map_ofBitVec_encodeChar : (encodeChar c).map UInt8.ofBitVec = String.utf8EncodeChar c := by
  unfold encodeChar
  rw [List.map_map]
  exact List.map_id _

theorem wellFormed_nil : WellFormed [] := ⟨[], rfl⟩

theorem WellFormed.append (front : WellFormed a) (behind : WellFormed b) : WellFormed (a ++ b) := by
  obtain ⟨text, rfl⟩ := front
  obtain ⟨more, rfl⟩ := behind
  exact ⟨text ++ more, List.flatMap_append⟩

theorem wellFormed_encodeChar (c : Char) : WellFormed (encodeChar c) :=
  ⟨[c], List.flatMap_singleton ..⟩

theorem encodeChar_ne_nil (c : Char) : encodeChar c ≠ [] := by
  intro none_
  exact String.utf8EncodeChar_ne_nil (List.map_eq_nil_iff.mp none_)

/-- **The form of a character is not the beginning of that of another one.** -/
theorem encode_append_inj (same : encodeChar c ++ a = encodeChar d ++ b) : c = d ∧ a = b := by
  have decoded : ∀ (c : Char) (a : List (BitVec 8)),
      ByteArray.utf8DecodeChar? ((encodeChar c ++ a).map UInt8.ofBitVec).toByteArray 0 = some c := by
    intro c a
    rw [List.map_append, map_ofBitVec_encodeChar, List.toByteArray_append]
    exact ByteArray.utf8DecodeChar?_utf8EncodeChar_append
  have first := decoded c a
  rw [same, decoded d b] at first
  obtain rfl := Option.some.inj first
  exact ⟨rfl, List.append_cancel_left same⟩

theorem wellFormed_encode_append : WellFormed (encodeChar c ++ r) ↔ WellFormed r := by
  constructor
  · rintro ⟨text, same⟩
    cases text with
    | nil => exact absurd (List.append_eq_nil_iff.mp same.symm).1 (encodeChar_ne_nil c)
    | cons d text => exact ⟨text, (encode_append_inj same).2⟩
  · exact (wellFormed_encodeChar c).append

theorem WellFormed.append_iff (front : WellFormed a) : WellFormed (a ++ b) ↔ WellFormed b := by
  obtain ⟨text, rfl⟩ := front
  induction text with
  | nil => rfl
  | cons c text ih =>
    rw [List.flatMap_cons, List.append_assoc, wellFormed_encode_append]
    exact ih

/-- Only the first byte of a character is one that a character can begin with. -/
theorem isUTF8FirstByte_iff {x : BitVec 8} (here : encodeChar c = a ++ x :: b) :
    (UInt8.ofBitVec x).IsUTF8FirstByte ↔ a = [] := by
  have bytes : String.utf8EncodeChar c = a.map UInt8.ofBitVec ++ UInt8.ofBitVec x :: b.map UInt8.ofBitVec := by
    rw [← map_ofBitVec_encodeChar, here, List.map_append, List.map_cons]
  have inside : a.length < (String.utf8EncodeChar c).length := by
    rw [bytes, List.length_append, List.length_map, List.length_cons]
    omega
  have found : (String.utf8EncodeChar c)[a.length] = UInt8.ofBitVec x := by
    simp only [bytes]
    rw [List.getElem_append_right (Nat.le_of_eq (List.length_map ..))]
    simp only [List.length_map, Nat.sub_self, List.getElem_cons_zero]
  rw [← found, UInt8.isUTF8FirstByte_getElem_utf8EncodeChar, List.length_eq_zero_iff]

/-- **No character goes across the start of another one.** -/
theorem wellFormed_append_encode :
    WellFormed (a ++ (encodeChar d ++ r)) ↔ WellFormed a ∧ WellFormed r := by
  constructor
  · rintro ⟨text, same⟩
    induction text generalizing a with
    | nil =>
      have none_ := (List.append_eq_nil_iff.mp (List.append_eq_nil_iff.mp same.symm).2).1
      exact absurd none_ (encodeChar_ne_nil d)
    | cons c text ih =>
      rw [List.flatMap_cons] at same
      rcases List.append_eq_append_iff.mp same with ⟨behind, rfl, remaining⟩ | ⟨x, bytes, next⟩
      · obtain ⟨front, rest⟩ := ih remaining
        exact ⟨wellFormed_encode_append.mpr front, rest⟩
      · cases x with
        | nil =>
          rw [List.append_nil] at bytes
          rw [List.nil_append] at next
          exact ⟨bytes ▸ wellFormed_encodeChar c, wellFormed_encode_append.mp ⟨text, next.symm⟩⟩
        | cons x y =>
          -- the byte here is the first one of a character, so that nothing is before it
          have first : (UInt8.ofBitVec x).IsUTF8FirstByte := by
            cases form : encodeChar d with
            | nil => exact absurd form (encodeChar_ne_nil d)
            | cons z rest =>
              rw [form] at next
              rw [← (List.cons.inj next).1]
              exact (isUTF8FirstByte_iff (List.nil_append (z :: rest) ▸ form)).mpr rfl
          obtain rfl := (isUTF8FirstByte_iff bytes).mp first
          exact ⟨wellFormed_nil, wellFormed_encode_append.mp ⟨c :: text, same⟩⟩
  · rintro ⟨front, rest⟩
    exact front.append (wellFormed_encode_append.mpr rest)

/-! ### The bytes of a character -/

theorem exists_char (small : n < 0xd800) : ∃ c : Char, c.toNat = n :=
  ⟨Char.ofNatAux n (.inl small), rfl⟩

theorem char_toNat_lt (c : Char) : c.toNat < 0x110000 := by
  have valid := c.valid
  have same : c.val.toNat = c.toNat := rfl
  simp only [UInt32.isValidChar, Nat.isValidChar] at valid
  omega

theorem encode_one (small : c.toNat < 0x80) : encodeChar c = [BitVec.ofNat 8 c.toNat] := by
  unfold encodeChar String.utf8EncodeChar
  rw [if_pos (show c.val.toNat ≤ 0x7f from Nat.le_of_lt_succ small)]
  rfl

theorem encode_two (low : 0x80 ≤ c.toNat) (small : c.toNat < 0x800) :
    encodeChar c = [BitVec.ofNat 8 (192 + c.toNat / 64), BitVec.ofNat 8 (128 + c.toNat % 64)] := by
  unfold encodeChar String.utf8EncodeChar
  have above : ¬ c.val.toNat ≤ 0x7f := fun below => by
    have := show c.toNat ≤ 0x7f from below
    omega
  rw [if_neg above, if_pos (show c.val.toNat ≤ 0x7ff from Nat.le_of_lt_succ small)]
  have lead : c.val.toNat / 64 % 0x20 + 0xc0 = 192 + c.toNat / 64 := by
    rw [show c.val.toNat = c.toNat from rfl]
    omega
  have tail : c.val.toNat % 0x40 + 0x80 = 128 + c.toNat % 64 := Nat.add_comm ..
  rw [lead, tail]
  rfl

theorem encode_three (low : 0x800 ≤ c.toNat) (small : c.toNat < 0x10000) :
    encodeChar c = [BitVec.ofNat 8 (224 + c.toNat / 4096), BitVec.ofNat 8 (128 + c.toNat / 64 % 64),
      BitVec.ofNat 8 (128 + c.toNat % 64)] := by
  unfold encodeChar String.utf8EncodeChar
  have above : ¬ c.val.toNat ≤ 0x7f := fun below => by
    have := show c.toNat ≤ 0x7f from below
    omega
  have above' : ¬ c.val.toNat ≤ 0x7ff := fun below => by
    have := show c.toNat ≤ 0x7ff from below
    omega
  rw [if_neg above, if_neg above', if_pos (show c.val.toNat ≤ 0xffff from Nat.le_of_lt_succ small)]
  have lead : c.val.toNat / 4096 % 0x10 + 0xe0 = 224 + c.toNat / 4096 := by
    rw [show c.val.toNat = c.toNat from rfl]
    omega
  have mid : c.val.toNat / 64 % 0x40 + 0x80 = 128 + c.toNat / 64 % 64 := Nat.add_comm ..
  have tail : c.val.toNat % 0x40 + 0x80 = 128 + c.toNat % 64 := Nat.add_comm ..
  rw [lead, mid, tail]
  rfl

theorem encode_four (low : 0x10000 ≤ c.toNat) :
    encodeChar c = [BitVec.ofNat 8 (240 + c.toNat / 262144), BitVec.ofNat 8 (128 + c.toNat / 4096 % 64),
      BitVec.ofNat 8 (128 + c.toNat / 64 % 64), BitVec.ofNat 8 (128 + c.toNat % 64)] := by
  have range := char_toNat_lt c
  unfold encodeChar String.utf8EncodeChar
  have same : c.val.toNat = c.toNat := rfl
  rw [if_neg (by omega), if_neg (by omega), if_neg (by omega)]
  have lead : c.val.toNat / 262144 % 0x08 + 0xf0 = 240 + c.toNat / 262144 := by omega
  have second : c.val.toNat / 4096 % 0x40 + 0x80 = 128 + c.toNat / 4096 % 64 := Nat.add_comm ..
  have third : c.val.toNat / 64 % 0x40 + 0x80 = 128 + c.toNat / 64 % 64 := Nat.add_comm ..
  have tail : c.val.toNat % 0x40 + 0x80 = 128 + c.toNat % 64 := Nat.add_comm ..
  rw [lead, second, third, tail]
  rfl

/-- **A byte alone is a character of ASCII.** -/
theorem low_of_wellFormed {x : BitVec 8} (whole : WellFormed [x]) : x.toNat < 0x80 := by
  obtain ⟨text, same⟩ := whole
  cases text with
  | nil => cases same
  | cons c text =>
    rw [List.flatMap_cons] at same
    have short : (encodeChar c).length ≤ 1 := by
      have length := congrArg List.length same
      rw [List.length_append, List.length_singleton] at length
      omega
    by_cases one : c.toNat < 0x80
    · rw [encode_one one] at same
      rw [← (List.cons.inj same).1, BitVec.toNat_ofNat]
      omega
    by_cases two : c.toNat < 0x800
    · rw [encode_two (by omega) two] at short
      exact absurd short (by simp)
    by_cases three : c.toNat < 0x10000
    · rw [encode_three (by omega) three] at short
      exact absurd short (by simp)
    · rw [encode_four (by omega)] at short
      exact absurd short (by simp)

end PtlinkIrcd.Lib
