/-
**The UTF-8 characters of a nick.**

The copies that `s_user.c` keeps of the character functions of GLib, and the loop of `clean_nick_name`
over the characters.

* `g_utf8_get_char_validated` — a character, or why there is none; `validated_encodeChar`,
  `exists_char_of_validated` — it finds the characters that `UNICODE_VALID` lets through, and nothing else.
* `Unended`, `validated_incomplete_iff` — **when a character does not end**.
* `utf8Cut_whole`, `utf8Cut_unended` — the loop keeps whole characters, and of one that does not end its
  first byte; `exists_whole` — there is nothing else in front.
-/

import PtlinkIrcd.Lib.Utf8
import PtlinkIrcd.Net.Codepage
import Mathlib.Algebra.Order.Group.Int

namespace PtlinkIrcd.Ircd

open Lib (encodeChar)

/-! ### The functions -/

def UTF8_LENGTH (c : Int) : Nat :=
  if c < 0x80 then 1 else if c < 0x800 then 2 else if c < 0x10000 then 3 else if c < 0x200000 then 4
  else if c < 0x4000000 then 5 else 6

def UNICODE_VALID (c : Nat) : Bool :=
  c < 0x110000 && c &&& 0xFFFFF800 ≠ 0xD800 && (c < 0xFDD0 || c > 0xFDEF) && c &&& 0xFFFE ≠ 0xFFFE

/-- `(c & 0xc0) == 0x80`. -/
def isTail (c : Byte) : Bool := c &&& 0xc0 == 0x80

/-- The number of bytes that the first one of a character calls for, and its bits of the character. -/
def leadByte (c : Byte) : Option (Nat × Nat) :=
  if c < 0xc0 then none
  else if c < 0xe0 then some (2, (c &&& 0x1f).toNat)
  else if c < 0xf0 then some (3, (c &&& 0x0f).toNat)
  else if c < 0xf8 then some (4, (c &&& 0x07).toNat)
  else if c < 0xfc then some (5, (c &&& 0x03).toNat)
  else if c < 0xfe then some (6, (c &&& 0x01).toNat)
  else none

/-- The other bytes of a character. The terminator is behind the last byte. -/
def tailBytes : Nat → Nat → List Byte → Int
  | 0, wc, _ => wc
  | _ + 1, _, [] => -2
  | len + 1, wc, ch :: p =>
    if ¬ isTail ch then if ch ≠ 0 then -1 else -2
    else tailBytes len (wc <<< 6 ||| (ch &&& 0x3f).toNat) p

/-- `g_utf8_get_char_extended`, at the byte `c` with `p` behind it. -/
def g_utf8_get_char_extended (c : Byte) (p : List Byte) (max_len : Nat) : Int :=
  if c < 0x80 then c.toNat
  else
    match leadByte c with
    | none => -1
    | some (len, wc) =>
      if len > max_len then
        if (List.range (max_len - 1)).all fun i => isTail (p.getD i 0) then -2 else -1
      else
        let wc := tailBytes (len - 1) wc p
        if wc < 0 then wc else if UTF8_LENGTH wc ≠ len then -1 else wc

def g_utf8_get_char_validated (c : Byte) (p : List Byte) (max_len : Nat) : Int :=
  let result := g_utf8_get_char_extended c p max_len
  if result < 0 then result else if UNICODE_VALID result.toNat then result else -1

theorem UTF8_LENGTH_pos (c : Int) : 0 < UTF8_LENGTH c := by
  unfold UTF8_LENGTH
  split_ifs <;> decide

/-- The loop over the UTF-8 characters, with `room` bytes to the longest nick: what it keeps.
`g_utf8_find_next_char` does not return `NULL` here. -/
def utf8Cut (room : Nat) : List Byte → List Byte
  | [] => []
  | ch :: p =>
    if room = 0 then []
    else if ch < 0x80 then ch :: utf8Cut (room - 1) p
    else
      let unichar := g_utf8_get_char_validated ch p room
      if unichar = -1 then []
      else
        let length := UTF8_LENGTH unichar
        (ch :: p).take length ++ utf8Cut (room - length) ((ch :: p).drop length)
  termination_by nick => nick.length
  decreasing_by
    · simp
    · have step := UTF8_LENGTH_pos (g_utf8_get_char_validated ch p room)
      simp only [List.length_drop, List.length_cons]
      omega

/-! ### One character -/

section Characters

variable {c : Byte} {p t r : List Byte} {ch : Char} {len wc room : Nat}

theorem isTail_iff : ∀ c : Byte, isTail c = true ↔ 0x80 ≤ c.toNat ∧ c.toNat < 0xc0 := by decide +kernel

theorem leadByte_eq : ∀ c : Byte, leadByte c =
    if c.toNat < 0xc0 then none else if c.toNat < 0xe0 then some (2, c.toNat - 0xc0)
    else if c.toNat < 0xf0 then some (3, c.toNat - 0xe0) else if c.toNat < 0xf8 then some (4, c.toNat - 0xf0)
    else if c.toNat < 0xfc then some (5, c.toNat - 0xf8) else if c.toNat < 0xfe then some (6, c.toNat - 0xfc)
    else none := by
  decide +kernel

theorem leadByte_cases (lead : leadByte c = some (len, wc)) :
    (len = 2 ∧ c.toNat = 0xc0 + wc ∧ wc < 32) ∨ (len = 3 ∧ c.toNat = 0xe0 + wc ∧ wc < 16) ∨
      (len = 4 ∧ c.toNat = 0xf0 + wc ∧ wc < 8) ∨ (5 ≤ len ∧ 0xf8 ≤ c.toNat) := by
  rw [leadByte_eq] at lead
  split_ifs at lead
  all_goals
    obtain ⟨rfl, rfl⟩ := Prod.mk.inj (Option.some.inj lead)
    omega

theorem leadByte_high (lead : leadByte c = some (len, wc)) : ¬ c < 0x80 ∧ 2 ≤ len := by
  have first := leadByte_cases lead
  refine ⟨fun low => ?_, by omega⟩
  have low : c.toNat < 0x80 := low
  omega

/-- The number that a first byte's bits and the bytes behind it give. -/
def tailNumber (wc : Nat) (t : List Byte) : Nat := t.foldl (fun wc ch => wc * 64 + ch.toNat % 64) wc

theorem shift_or (wc : Nat) (b : Byte) : wc <<< 6 ||| (b &&& 0x3f).toNat = wc * 64 + b.toNat % 64 := by
  rw [toNat_and_mask 6 rfl, Nat.shiftLeft_eq, or_shifted 6 (Nat.mod_lt _ (by decide))]
  rfl

theorem tailBytes_whole (tails : ∀ b ∈ t, isTail b = true) :
    tailBytes t.length wc (t ++ r) = tailNumber wc t := by
  induction t generalizing wc with
  | nil => rfl
  | cons b t ih =>
    rw [List.length_cons, List.cons_append, tailBytes, if_neg (not_not.mpr (tails b List.mem_cons_self)),
      ih fun b member => tails b (List.mem_cons_of_mem _ member), shift_or]
    rfl

/-- **The other bytes do not end** when there are only such ones, and too few. -/
theorem tailBytes_incomplete_iff (proper : 0 ∉ p) :
    tailBytes len wc p = -2 ↔ p.length < len ∧ ∀ b ∈ p, isTail b = true := by
  induction p generalizing len wc with
  | nil => cases len <;> simp [tailBytes]
  | cons b p ih =>
    obtain ⟨some_, proper⟩ := not_or.mp (mt List.mem_cons.mpr proper)
    cases len with
    | zero => simp [tailBytes]
    | succ len =>
      rw [tailBytes]
      by_cases tail : isTail b = true
      · rw [if_neg (not_not.mpr tail), ih proper, List.forall_mem_cons, List.length_cons]
        simp only [tail, true_and, Nat.add_lt_add_iff_right]
      · rw [if_pos tail, if_pos (Ne.symm some_), List.forall_mem_cons]
        simp [tail]

theorem tailBytes_whole_of_nonneg (found : 0 ≤ tailBytes len wc p) :
    ∃ t r, p = t ++ r ∧ t.length = len ∧ ∀ b ∈ t, isTail b = true := by
  induction len generalizing wc p with
  | zero => exact ⟨[], p, rfl, rfl, List.forall_mem_nil _⟩
  | succ len ih =>
    cases p with
    | nil => exact absurd (show (0 : Int) ≤ -2 from found) (by decide)
    | cons b p =>
      rw [tailBytes] at found
      by_cases tail : isTail b = true
      · rw [if_neg (not_not.mpr tail)] at found
        obtain ⟨t, r, rfl, length, tails⟩ := ih found
        exact ⟨b :: t, r, rfl, congrArg (· + 1) length, List.forall_mem_cons.mpr ⟨tail, tails⟩⟩
      · rw [if_pos tail] at found
        split_ifs at found <;> omega

theorem tailBytes_cases (len wc : Nat) (p : List Byte) :
    tailBytes len wc p = -1 ∨ tailBytes len wc p = -2 ∨ 0 ≤ tailBytes len wc p := by
  induction len generalizing wc p with
  | zero => exact .inr (.inr (Int.natCast_nonneg wc))
  | succ len ih =>
    cases p with
    | nil => exact .inr (.inl rfl)
    | cons b p =>
      rw [tailBytes]
      split_ifs
      · exact ih ..
      · exact .inl rfl
      · exact .inr (.inl rfl)

theorem UTF8_LENGTH_range {n : Nat} : (UTF8_LENGTH n = 2 ↔ 0x80 ≤ n ∧ n < 0x800) ∧
    (UTF8_LENGTH n = 3 ↔ 0x800 ≤ n ∧ n < 0x10000) ∧ (UTF8_LENGTH n = 4 ↔ 0x10000 ≤ n ∧ n < 0x200000) := by
  unfold UTF8_LENGTH
  refine ⟨?_, ?_, ?_⟩ <;> split_ifs <;> omega

theorem byte_eq {n : Nat} (same : n = c.toNat) : BitVec.ofNat 8 n = c := by
  rw [same, BitVec.ofNat_toNat]
  rfl

theorem isTail_ofNat (n : Nat) : isTail (BitVec.ofNat 8 (128 + n % 64)) = true := by
  rw [isTail_iff, BitVec.toNat_ofNat]
  omega

/-- **The bytes of a character**: how many its first one calls for, and its number. -/
theorem bytes_of_encodeChar (high : 0x80 ≤ ch.toNat) (form : encodeChar ch = c :: t) :
    ∃ wc, leadByte c = some (t.length + 1, wc) ∧ (∀ b ∈ t, isTail b = true) ∧
      tailNumber wc t = ch.toNat ∧ UTF8_LENGTH ch.toNat = t.length + 1 := by
  have range := Lib.char_toNat_lt ch
  by_cases two : ch.toNat < 0x800
  · obtain ⟨rfl, rfl⟩ := List.cons.inj ((Lib.encode_two high two).symm.trans form)
    refine ⟨ch.toNat / 64, ?_, ?_, ?_, UTF8_LENGTH_range.1.mpr ⟨high, two⟩⟩
    · rw [leadByte_eq, BitVec.toNat_ofNat, if_neg (by omega), if_pos (by omega)]
      simp only [List.length_singleton, Option.some.injEq, Prod.mk.injEq, true_and]
      omega
    · exact List.forall_mem_singleton.mpr (isTail_ofNat _)
    · simp only [tailNumber, List.foldl_cons, List.foldl_nil, BitVec.toNat_ofNat]
      omega
  by_cases three : ch.toNat < 0x10000
  · obtain ⟨rfl, rfl⟩ := List.cons.inj ((Lib.encode_three (by omega) three).symm.trans form)
    refine ⟨ch.toNat / 4096, ?_, ?_, ?_, UTF8_LENGTH_range.2.1.mpr ⟨by omega, three⟩⟩
    · rw [leadByte_eq, BitVec.toNat_ofNat, if_neg (by omega), if_neg (by omega), if_pos (by omega)]
      simp only [List.length_cons, List.length_nil, Option.some.injEq, Prod.mk.injEq, true_and]
      omega
    · exact List.forall_mem_cons.mpr ⟨isTail_ofNat _, List.forall_mem_singleton.mpr (isTail_ofNat _)⟩
    · simp only [tailNumber, List.foldl_cons, List.foldl_nil, BitVec.toNat_ofNat]
      omega
  · obtain ⟨rfl, rfl⟩ := List.cons.inj ((Lib.encode_four (by omega)).symm.trans form)
    refine ⟨ch.toNat / 262144, ?_, ?_, ?_, UTF8_LENGTH_range.2.2.mpr ⟨by omega, by omega⟩⟩
    · rw [leadByte_eq, BitVec.toNat_ofNat, if_neg (by omega), if_neg (by omega), if_neg (by omega),
        if_pos (by omega)]
      simp only [List.length_cons, List.length_nil, Option.some.injEq, Prod.mk.injEq, true_and]
      omega
    · exact List.forall_mem_cons.mpr ⟨isTail_ofNat _, List.forall_mem_cons.mpr
        ⟨isTail_ofNat _, List.forall_mem_singleton.mpr (isTail_ofNat _)⟩⟩
    · simp only [tailNumber, List.foldl_cons, List.foldl_nil, BitVec.toNat_ofNat]
      omega

/-- The other way round, for a number whose length is the one that the first byte calls for. -/
theorem encodeChar_of_bytes (lead : leadByte c = some (t.length + 1, wc)) (tails : ∀ b ∈ t, isTail b = true)
    (number : tailNumber wc t = ch.toNat) (length : UTF8_LENGTH ch.toNat = t.length + 1) :
    encodeChar ch = c :: t := by
  have range := Lib.char_toNat_lt ch
  have first := leadByte_cases lead
  simp only [isTail_iff] at tails
  have few : t.length + 1 = 2 ∨ t.length + 1 = 3 ∨ t.length + 1 = 4 := by
    have short : UTF8_LENGTH ch.toNat ≤ 4 := by
      unfold UTF8_LENGTH
      split_ifs <;> omega
    omega
  rcases few with two | three | four
  · obtain ⟨low, small⟩ := UTF8_LENGTH_range.1.mp (length.trans two)
    obtain ⟨b, rfl⟩ := List.length_eq_one_iff.mp (Nat.succ.inj two)
    have bounds := tails b List.mem_cons_self
    simp only [tailNumber, List.foldl_cons, List.foldl_nil] at number
    have first : c.toNat = 192 + ch.toNat / 64 := by omega
    rw [Lib.encode_two low small, byte_eq first.symm, byte_eq (show 128 + ch.toNat % 64 = b.toNat by omega)]
  · obtain ⟨low, small⟩ := UTF8_LENGTH_range.2.1.mp (length.trans three)
    obtain ⟨b, d, rfl⟩ := List.length_eq_two.mp (Nat.succ.inj three)
    obtain ⟨second, third⟩ := List.forall_mem_cons.mp tails
    have third := third d List.mem_cons_self
    simp only [tailNumber, List.foldl_cons, List.foldl_nil] at number
    have first : c.toNat = 224 + ch.toNat / 4096 := by omega
    rw [Lib.encode_three low small, byte_eq first.symm,
      byte_eq (show 128 + ch.toNat / 64 % 64 = b.toNat by omega),
      byte_eq (show 128 + ch.toNat % 64 = d.toNat by omega)]
  · obtain ⟨low, -⟩ := UTF8_LENGTH_range.2.2.mp (length.trans four)
    obtain ⟨b, d, e, rfl⟩ := List.length_eq_three.mp (Nat.succ.inj four)
    obtain ⟨second, tails⟩ := List.forall_mem_cons.mp tails
    obtain ⟨third, fourth⟩ := List.forall_mem_cons.mp tails
    have fourth := fourth e List.mem_cons_self
    simp only [tailNumber, List.foldl_cons, List.foldl_nil] at number
    have first : c.toNat = 240 + ch.toNat / 262144 := by omega
    rw [Lib.encode_four low, byte_eq first.symm,
      byte_eq (show 128 + ch.toNat / 4096 % 64 = b.toNat by omega),
      byte_eq (show 128 + ch.toNat / 64 % 64 = d.toNat by omega),
      byte_eq (show 128 + ch.toNat % 64 = e.toNat by omega)]

theorem validated_whole (high : ¬ c < 0x80) (lead : leadByte c = some (t.length + 1, wc))
    (tails : ∀ b ∈ t, isTail b = true) (fits : t.length + 1 ≤ room) :
    g_utf8_get_char_validated c (t ++ r) room =
      if UTF8_LENGTH (tailNumber wc t) = t.length + 1 ∧ UNICODE_VALID (tailNumber wc t) = true then
        (tailNumber wc t : Int)
      else -1 := by
  have extended : g_utf8_get_char_extended c (t ++ r) room =
      if UTF8_LENGTH (tailNumber wc t) = t.length + 1 then (tailNumber wc t : Int) else -1 := by
    unfold g_utf8_get_char_extended
    rw [if_neg high, lead]
    dsimp only
    rw [if_neg (not_lt.mpr fits), Nat.add_sub_cancel, tailBytes_whole tails,
      if_neg (not_lt.mpr (Int.natCast_nonneg _)), ite_not]
  unfold g_utf8_get_char_validated
  rw [extended]
  by_cases length : UTF8_LENGTH (tailNumber wc t) = t.length + 1
  · rw [if_pos length]
    dsimp only
    rw [if_neg (not_lt.mpr (Int.natCast_nonneg _)), Int.toNat_natCast]
    simp only [length, true_and]
  · rw [if_neg length]
    dsimp only
    rw [if_pos (show (-1 : Int) < 0 by decide), if_neg fun both => length both.1]

/-- **A character in front is found.** -/
theorem validated_encodeChar (high : 0x80 ≤ ch.toNat) (valid : UNICODE_VALID ch.toNat = true)
    (form : encodeChar ch = c :: t) (fits : t.length + 1 ≤ room) :
    ¬ c < 0x80 ∧ g_utf8_get_char_validated c (t ++ r) room = ch.toNat ∧
      UTF8_LENGTH ch.toNat = t.length + 1 := by
  obtain ⟨wc, lead, tails, number, length⟩ := bytes_of_encodeChar high form
  obtain ⟨notLow, -⟩ := leadByte_high lead
  rw [validated_whole notLow lead tails fits, number, if_pos ⟨length, valid⟩]
  exact ⟨notLow, rfl, length⟩

theorem valid_of_ascii : ∀ n < 0x80, UNICODE_VALID n = true := by decide

theorem exists_char_of_valid {n : Nat} (valid : UNICODE_VALID n = true) : ∃ ch : Char, ch.toNat = n := by
  simp only [UNICODE_VALID, Bool.and_eq_true, decide_eq_true_eq] at valid
  obtain ⟨⟨⟨small, surrogate⟩, -⟩, -⟩ := valid
  have outside : n < 0xD800 ∨ 0xDFFF < n := by
    by_contra! inside
    have high : (n &&& 0xFFFFF800) / 2 ^ 11 = 27 := by
      rw [Nat.and_div_two_pow, show n / 2 ^ 11 = 27 by omega]
      rfl
    have low : (n &&& 0xFFFFF800) % 2 ^ 11 = 0 := by
      rw [Nat.and_mod_two_pow]
      exact Nat.and_zero _
    omega
  exact ⟨Char.ofNatAux n (outside.imp id fun above => ⟨above, small⟩), rfl⟩

/-- **What is found is a character in front.** -/
theorem exists_char_of_validated (high : ¬ c < 0x80) (found : 0 ≤ g_utf8_get_char_validated c p room) :
    ∃ ch t r, p = t ++ r ∧ encodeChar ch = c :: t ∧ UNICODE_VALID ch.toNat = true ∧ t.length + 1 ≤ room ∧
      0x80 ≤ ch.toNat := by
  have extended : 0 ≤ g_utf8_get_char_extended c p room := by
    by_contra negative
    unfold g_utf8_get_char_validated at found
    dsimp only at found
    rw [if_pos (not_le.mp negative)] at found
    exact negative found
  unfold g_utf8_get_char_extended at extended
  rw [if_neg high] at extended
  cases lead : leadByte c with
  | none =>
    rw [lead] at extended
    exact absurd (show (0 : Int) ≤ -1 from extended) (by decide)
  | some both =>
    obtain ⟨len, wc⟩ := both
    rw [lead] at extended
    dsimp only at extended
    by_cases long : len > room
    · rw [if_pos long] at extended
      split_ifs at extended <;> omega
    · rw [if_neg long] at extended
      have number : 0 ≤ tailBytes (len - 1) wc p := by
        by_contra negative
        rw [if_pos (not_le.mp negative)] at extended
        exact negative extended
      obtain ⟨t, r, rfl, length, tails⟩ := tailBytes_whole_of_nonneg number
      obtain ⟨-, some_⟩ := leadByte_high lead
      obtain rfl : len = t.length + 1 := by omega
      rw [validated_whole high lead tails (not_lt.mp long)] at found
      split_ifs at found with whole
      · obtain ⟨ch, number⟩ := exists_char_of_valid whole.2
        refine ⟨ch, t, r, rfl, encodeChar_of_bytes lead tails number.symm (number ▸ whole.1), number ▸ whole.2,
          not_lt.mp long, ?_⟩
        have two := whole.1
        unfold UTF8_LENGTH at two
        rw [number]
        split_ifs at two <;> omega
      · exact absurd found (by decide)

end Characters

/-! ### A character that does not end -/

/-- A first byte and fewer other ones than it calls for; where they would not fit anyway, they fill the
room there is. -/
def Unended (room : Nat) (rest : List Byte) : Prop :=
  ∃ c p len wc, rest = c :: p ∧ leadByte c = some (len, wc) ∧ (∀ b ∈ p, isTail b = true) ∧
    rest.length < len ∧ (room < len → rest.length = room)

section Unended

variable {c : Byte} {p rest : List Byte} {len wc room : Nat}

theorem validated_cases (c : Byte) (p : List Byte) (room : Nat) :
    g_utf8_get_char_validated c p room = -1 ∨ g_utf8_get_char_validated c p room = -2 ∨
      0 ≤ g_utf8_get_char_validated c p room := by
  have extended : g_utf8_get_char_extended c p room = -1 ∨ g_utf8_get_char_extended c p room = -2 ∨
      0 ≤ g_utf8_get_char_extended c p room := by
    unfold g_utf8_get_char_extended
    cases leadByte c with
    | none =>
      dsimp only
      split_ifs <;> omega
    | some both =>
      dsimp only
      have tails := tailBytes_cases (both.1 - 1) both.2 p
      split_ifs <;> omega
  unfold g_utf8_get_char_validated
  dsimp only
  split_ifs <;> omega

theorem validated_incomplete_iff_extended :
    g_utf8_get_char_validated c p room = -2 ↔ g_utf8_get_char_extended c p room = -2 := by
  unfold g_utf8_get_char_validated
  dsimp only
  split_ifs
  · rfl
  · omega
  · omega

/-- The bytes up to the longest nick are other bytes of a character when they are all there and are such
ones. -/
theorem all_tails_iff {n : Nat} (fits : p.length ≤ n) :
    ((List.range n).all fun i => isTail (p.getD i 0)) = true ↔ p.length = n ∧ ∀ b ∈ p, isTail b = true := by
  simp only [List.all_eq_true, List.mem_range]
  constructor
  · intro tails
    have full : p.length = n := by
      by_contra short
      have none_ := tails p.length (by omega)
      rw [List.getD_eq_default _ _ le_rfl] at none_
      exact absurd none_ (by decide)
    refine ⟨full, fun b member => ?_⟩
    obtain ⟨i, inside, rfl⟩ := List.getElem_of_mem member
    have tail := tails i (full ▸ inside)
    rwa [List.getD_eq_getElem _ _ inside] at tail
  · rintro ⟨rfl, tails⟩ i inside
    rw [List.getD_eq_getElem _ _ inside]
    exact tails _ (List.getElem_mem inside)

theorem extended_incomplete_iff (proper : 0 ∉ p) (fits : p.length < room)
    (lead : leadByte c = some (len, wc)) : g_utf8_get_char_extended c p room = -2 ↔
      (∀ b ∈ p, isTail b = true) ∧ p.length + 1 < len ∧ (room < len → p.length + 1 = room) := by
  obtain ⟨high, some_⟩ := leadByte_high lead
  unfold g_utf8_get_char_extended
  rw [if_neg high, lead]
  dsimp only
  by_cases long : len > room
  · rw [if_pos long]
    have all := all_tails_iff (show p.length ≤ room - 1 by omega)
    by_cases tails : ((List.range (room - 1)).all fun i => isTail (p.getD i 0)) = true
    · rw [if_pos tails]
      obtain ⟨full, tails⟩ := all.mp tails
      exact iff_of_true rfl ⟨tails, by omega, fun _ => by omega⟩
    · rw [if_neg tails]
      refine iff_of_false (by decide) fun ⟨other, _, full⟩ => ?_
      have full := full long
      exact tails (all.mpr ⟨by omega, other⟩)
  · rw [if_neg long]
    have incomplete := @tailBytes_incomplete_iff p (len - 1) wc proper
    have same : (if tailBytes (len - 1) wc p < 0 then tailBytes (len - 1) wc p
        else if UTF8_LENGTH (tailBytes (len - 1) wc p) ≠ len then -1 else tailBytes (len - 1) wc p) = -2 ↔
        tailBytes (len - 1) wc p = -2 := by
      split_ifs <;> omega
    rw [same, incomplete]
    constructor
    · exact fun ⟨few, tails⟩ => ⟨tails, by omega, fun more => absurd more long⟩
    · exact fun ⟨tails, few, _⟩ => ⟨by omega, tails⟩

/-- **When a character does not end.** -/
theorem validated_incomplete_iff (proper : 0 ∉ p) (fits : p.length < room) :
    g_utf8_get_char_validated c p room = -2 ↔ Unended room (c :: p) := by
  rw [validated_incomplete_iff_extended]
  constructor
  · intro found
    cases lead : leadByte c with
    | none =>
      unfold g_utf8_get_char_extended at found
      rw [lead] at found
      dsimp only at found
      split_ifs at found
      omega
    | some both =>
      obtain ⟨tails, few, full⟩ := (extended_incomplete_iff proper fits lead).mp found
      exact ⟨c, p, both.1, both.2, rfl, lead, tails, few, full⟩
  · rintro ⟨d, q, len, wc, same, lead, tails, few, full⟩
    obtain ⟨rfl, rfl⟩ := List.cons.inj same
    exact (extended_incomplete_iff proper fits lead).mpr ⟨tails, few, full⟩

end Unended

/-! ### The loop over the UTF-8 characters -/

section Cut

variable {c : Byte} {p rest l : List Byte} {text : List Char} {room : Nat}

theorem utf8Cut_nil (room : Nat) : utf8Cut room [] = [] := by rw [utf8Cut]

/-- At a byte from 0x80 on that is not the first one of a character, the loop ends. -/
theorem utf8Cut_tail (tail : isTail c = true) : utf8Cut room (c :: p) = [] := by
  have range := (isTail_iff c).mp tail
  have high : ¬ c < 0x80 := fun low => by
    have low : c.toNat < 0x80 := low
    omega
  have none_ : g_utf8_get_char_validated c p room = -1 := by
    unfold g_utf8_get_char_validated g_utf8_get_char_extended
    rw [if_neg high, leadByte_eq, if_pos range.2]
    rfl
  rw [utf8Cut, if_neg high, none_]
  exact ite_self []

/-- **Whole characters are kept.** -/
theorem utf8Cut_whole (valid : ∀ ch ∈ text, UNICODE_VALID ch.toNat = true)
    (fits : (text.flatMap encodeChar).length ≤ room) :
    utf8Cut room (text.flatMap encodeChar ++ rest) =
      text.flatMap encodeChar ++ utf8Cut (room - (text.flatMap encodeChar).length) rest := by
  induction text generalizing room with
  | nil => rfl
  | cons ch text ih =>
    obtain ⟨valid, others⟩ := List.forall_mem_cons.mp valid
    rw [List.flatMap_cons, List.length_append] at fits
    rw [List.flatMap_cons, List.append_assoc, List.append_assoc, List.length_append, ← Nat.sub_sub]
    have ih := @ih (room - (encodeChar ch).length) others (by omega)
    rw [← ih]
    obtain ⟨c, t, form⟩ := List.exists_cons_of_ne_nil (Lib.encodeChar_ne_nil ch)
    rw [form] at fits ⊢
    rw [List.length_cons] at fits
    rw [List.cons_append, List.cons_append, List.length_cons, utf8Cut, if_neg (by omega)]
    by_cases high : 0x80 ≤ ch.toNat
    · obtain ⟨notLow, found, length⟩ := @validated_encodeChar c t (text.flatMap encodeChar ++ rest) ch room
        high valid form (by omega)
      rw [if_neg notLow, found]
      dsimp only
      rw [if_neg (by omega), length, ← List.cons_append, show t.length + 1 = (c :: t).length from rfl,
        List.take_left, List.drop_left, List.cons_append]
    · rw [Lib.encode_one (not_le.mp high)] at form
      obtain ⟨rfl, rfl⟩ := List.cons.inj form
      have low : (BitVec.ofNat 8 ch.toNat : Byte) < 0x80 := by
        show (BitVec.ofNat 8 ch.toNat).toNat < 0x80
        rw [BitVec.toNat_ofNat]
        omega
      rw [if_pos low]
      rfl

/-- **The loop passes whole characters**, up to where it ends or to a character that does not end. -/
theorem exists_whole (proper : 0 ∉ l) (fits : l.length ≤ room) :
    ∃ text rest, l = List.flatMap encodeChar text ++ rest ∧ (∀ ch ∈ text, UNICODE_VALID ch.toNat = true) ∧
      (utf8Cut (room - (text.flatMap encodeChar).length) rest = [] ∨
        Unended (room - (text.flatMap encodeChar).length) rest) := by
  induction size : l.length using Nat.strong_induction_on generalizing l room with
  | _ n ih =>
    subst size
    cases l with
    | nil => exact ⟨[], [], rfl, List.forall_mem_nil _, .inl (utf8Cut_nil _)⟩
    | cons c p =>
      obtain ⟨some_, proper⟩ := not_or.mp (mt List.mem_cons.mpr proper)
      rw [List.length_cons] at fits
      have step : (∃ ch t r, p = t ++ r ∧ encodeChar ch = c :: t ∧ UNICODE_VALID ch.toNat = true ∧
          t.length + 1 ≤ room) ∨ ¬ c < 0x80 ∧ ¬ 0 ≤ g_utf8_get_char_validated c p room := by
        by_cases low : c < 0x80
        · obtain ⟨ch, number⟩ := Lib.exists_char (show c.toNat < 0xd800 from lt_trans low (by decide))
          refine .inl ⟨ch, [], p, rfl, ?_, number ▸ valid_of_ascii c.toNat low, show 1 ≤ room by omega⟩
          rw [Lib.encode_one (number ▸ low), byte_eq number]
        by_cases found : 0 ≤ g_utf8_get_char_validated c p room
        · obtain ⟨ch, t, r, same, form, valid, short, -⟩ := exists_char_of_validated low found
          exact .inl ⟨ch, t, r, same, form, valid, short⟩
        · exact .inr ⟨low, found⟩
      rcases step with ⟨ch, t, r, rfl, form, valid, short⟩ | ⟨high, none_⟩
      · have smaller : r.length < (c :: (t ++ r)).length := by
          rw [List.length_cons, List.length_append]
          omega
        rw [List.length_append] at fits
        obtain ⟨text, rest, rfl, others, ending⟩ := @ih r.length smaller r (room - (t.length + 1))
          (fun member => proper (List.mem_append_right t member)) (by omega) rfl
        refine ⟨ch :: text, rest, ?_, List.forall_mem_cons.mpr ⟨valid, others⟩, ?_⟩
        · rw [List.flatMap_cons, form, List.append_assoc, List.cons_append]
        · rw [List.flatMap_cons, List.length_append, form, List.length_cons, ← Nat.sub_sub]
          exact ending
      · refine ⟨[], c :: p, rfl, List.forall_mem_nil _, ?_⟩
        rcases validated_cases c p room with cut | unended | found
        · left
          show utf8Cut room (c :: p) = []
          rw [utf8Cut, if_neg (by omega), if_neg high, cut]
          rfl
        · right
          show Unended room (c :: p)
          exact (validated_incomplete_iff proper (by omega)).mp unended
        · exact absurd found none_

/-- **Of a character that does not end, the loop keeps the first byte.** -/
theorem utf8Cut_unended (proper : 0 ∉ l) (fits : l.length ≤ room) (unended : Unended room l) :
    ∃ c p, l = c :: p ∧ ¬ c < 0x80 ∧ utf8Cut room l = [c] := by
  have same := unended
  obtain ⟨c, p, len, wc, rfl, lead, tails, -⟩ := same
  obtain ⟨high, -⟩ := leadByte_high lead
  obtain ⟨-, proper⟩ := not_or.mp (mt List.mem_cons.mpr proper)
  rw [List.length_cons] at fits
  have found := (validated_incomplete_iff proper (by omega)).mpr unended
  have behind : utf8Cut (room - 1) p = [] := by
    cases p with
    | nil => exact utf8Cut_nil _
    | cons b p => exact utf8Cut_tail (tails b List.mem_cons_self)
  refine ⟨c, p, rfl, high, ?_⟩
  rw [utf8Cut, if_neg (by omega), if_neg high, found]
  show [c] ++ utf8Cut (room - 1) p = [c]
  rw [behind, List.append_nil]

theorem utf8Cut_isPrefix (room : Nat) (l : List Byte) : utf8Cut room l <+: l := by
  induction size : l.length using Nat.strong_induction_on generalizing l room with
  | _ n ih =>
    subst size
    cases l with
    | nil =>
      have none_ := utf8Cut_nil room
      exact none_.symm ▸ List.nil_prefix
    | cons c p =>
      rw [utf8Cut]
      dsimp only
      split_ifs
      · exact List.nil_prefix
      · exact List.cons_prefix_cons.mpr ⟨rfl, ih p.length (Nat.lt_succ_self _) _ p rfl⟩
      · exact List.nil_prefix
      · have step := UTF8_LENGTH_pos (g_utf8_get_char_validated c p room)
        have smaller : ((c :: p).drop (UTF8_LENGTH (g_utf8_get_char_validated c p room))).length <
            (c :: p).length := by
          rw [List.length_drop, List.length_cons]
          omega
        have rest := ih _ smaller (room - UTF8_LENGTH (g_utf8_get_char_validated c p room)) _ rfl
        conv_rhs => rw [← List.take_append_drop (UTF8_LENGTH (g_utf8_get_char_validated c p room)) (c :: p)]
        exact (List.prefix_append_right_inj _).mpr rest

end Cut

end PtlinkIrcd.Ircd
