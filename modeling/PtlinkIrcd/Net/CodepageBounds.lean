/-
**The buffer of the code pages.**

The conversions of a line write into `ucbuf`, which has 1024 bytes. `codepage_to_unicode` looks for room
before it knows how many bytes a character takes; `unicode_to_codepage` does not look at the length of a
sequence.

* `codepage.taken` — the bytes that the loop of `codepage_to_unicode` takes; `toUnicode_taken` — what it
  leaves in the memory.
* `wellFormed_encodeAll_iff` — when that is UTF-8: the bytes with a negative code point decide it.
* `characters` — the characters of a line, as `utf2uc` reads them; `fromUnicode_step` — one character.
* `conversions_bounded_iff` — **when both conversions stay in the buffer**; `not_conversions_bounded` — a
  character of three bytes at the end of the buffer.
-/

import PtlinkIrcd.Lib.Utf8
import PtlinkIrcd.Net.Codepage

namespace PtlinkIrcd

open Lib (WellFormed encodeChar)

/-! ### What `codepage_to_unicode` writes -/

/-- The number of bytes that a byte becomes. -/
def codepage.width (cp : codepage) (c : Byte) : Nat :=
  if isHigh c then
    let uc := (cp.c2u (c.setWidth 7)).toInt
    if uc < 0x80 then 1 else if uc < 0x800 then 2 else 3
  else 1

/-- A byte with a code point that counts as negative. -/
def codepage.isStray (cp : codepage) (c : Byte) : Bool := isHigh c && (cp.c2u (c.setWidth 7)).toInt < 0

/-- `(char) uc`. -/
def codepage.lowByte (cp : codepage) (c : Byte) : Byte := (cp.c2u (c.setWidth 7)).setWidth 8

/-- A byte that becomes the end of the text. -/
def codepage.vanishes (cp : codepage) (c : Byte) : Bool := cp.isStray c && cp.lowByte c == 0

/-- The bytes that the loop takes while there is room. -/
def codepage.taken (cp : codepage) : Nat → List Byte → List Byte
  | _, [] => []
  | 0, _ => []
  | room + 1, c :: rest => c :: cp.taken (room + 1 - cp.width c) rest

section Forms

variable {cp : codepage} {c : Byte} {s front rest : List Byte} {room : Nat}

theorem length_encode (cp : codepage) (c : Byte) : (cp.encode c).length = cp.width c := by
  unfold codepage.width codepage.encode
  cases high : isHigh c with
  | false =>
    have low : c &&& 0x80 = 0 := by
      by_contra marked
      rw [(isHigh_iff c).mpr marked] at high
      cases high
    rw [if_pos low]
    rfl
  | true =>
    rw [if_neg ((isHigh_iff c).mp high)]
    dsimp only
    rw [if_pos rfl]
    unfold uc2utf
    split_ifs <;> first | rfl | omega

theorem encodeAll_cons : cp.encodeAll (c :: rest) = cp.encode c ++ cp.encodeAll rest := List.flatMap_cons

theorem length_encodeAll (cp : codepage) (s : List Byte) :
    (cp.encodeAll s).length = (s.map cp.width).sum := by
  unfold codepage.encodeAll
  rw [List.length_flatMap]
  exact congrArg List.sum (List.map_congr_left fun c _ => length_encode cp c)

theorem width_pos (cp : codepage) (c : Byte) : 0 < cp.width c := by
  rw [← length_encode]
  exact encode_length_pos cp c

theorem encode_of_isStray (stray : cp.isStray c = true) : cp.encode c = [cp.lowByte c] := by
  obtain ⟨high, negative⟩ := Bool.and_eq_true_iff.mp stray
  have negative : (cp.c2u (c.setWidth 7)).toInt < 0 := of_decide_eq_true negative
  have some_ : cp.c2u (c.setWidth 7) ≠ 0 := by
    intro zero
    rw [zero] at negative
    exact absurd negative (by decide)
  unfold codepage.encode codepage.lowByte
  rw [if_neg ((isHigh_iff c).mp high)]
  dsimp only
  rw [if_neg (by omega), if_neg some_]

/-- A code point from 0x80 on that is not negative becomes its character. -/
theorem uc2utf_encodeChar {uc : CodePoint} (big : 0x7f < uc.toInt) :
    ∃ d : Char, d.toNat = uc.toNat ∧ uc2utf uc = encodeChar d := by
  obtain ⟨same, small⟩ := toInt_of_high big
  obtain ⟨d, number⟩ := Lib.exists_char (by omega : uc.toNat < 0xd800)
  refine ⟨d, number, ?_⟩
  by_cases short : uc.toNat < 0x800
  · obtain ⟨a, b, bytes, first, second⟩ := uc2utf_two (by omega) short
    rw [Lib.encode_two (by omega) (by omega), bytes, number, ← first, ← second, BitVec.ofNat_toNat,
      BitVec.ofNat_toNat]
    rfl
  · obtain ⟨a, b, e, bytes, first, second, third⟩ := uc2utf_three (by omega) small
    rw [Lib.encode_three (by omega) (by omega), bytes, number, ← first, ← second, ← third,
      BitVec.ofNat_toNat, BitVec.ofNat_toNat, BitVec.ofNat_toNat]
    rfl

theorem encodeChar_of_ascii (low : c.toNat < 0x80) : ∃ d : Char, d.toNat = c.toNat ∧ [c] = encodeChar d := by
  obtain ⟨d, number⟩ := Lib.exists_char (by omega : c.toNat < 0xd800)
  exact ⟨d, number, by rw [Lib.encode_one (by omega), number, BitVec.ofNat_toNat]; rfl⟩

/-- A byte that is not stray becomes one character, and not the end of the text. -/
theorem encode_eq_encodeChar (plain : cp.isStray c = false) (some_ : c ≠ 0) :
    ∃ d, cp.encode c = encodeChar d ∧ 0 ∉ cp.encode c := by
  cases high : isHigh c with
  | false =>
    rw [encode_of_not_high high]
    obtain ⟨d, -, form⟩ := encodeChar_of_ascii (not_le.mp (of_decide_eq_false high))
    exact ⟨d, form, by simpa using Ne.symm some_⟩
  | true =>
    have positive : ¬ (cp.c2u (c.setWidth 7)).toInt < 0 := by
      intro negative
      rw [codepage.isStray, high, decide_eq_true negative] at plain
      cases plain
    unfold codepage.encode
    rw [if_neg ((isHigh_iff c).mp high)]
    dsimp only
    by_cases big : 0x7f < (cp.c2u (c.setWidth 7)).toInt
    · rw [if_pos big]
      obtain ⟨d, -, form⟩ := uc2utf_encodeChar big
      refine ⟨d, form, fun member => ?_⟩
      exact absurd (high_of_mem_uc2utf big member) (by decide)
    · rw [if_neg big]
      by_cases zero : cp.c2u (c.setWidth 7) = 0
      · rw [if_pos zero]
        obtain ⟨d, -, form⟩ := encodeChar_of_ascii (c := 63) (by decide)
        exact ⟨d, form, by decide⟩
      · rw [if_neg zero]
        have small : (cp.c2u (c.setWidth 7)).toNat < 0x80 := by
          have range := (cp.c2u (c.setWidth 7)).isLt
          rw [BitVec.toInt_eq_toNat_cond] at big positive
          split_ifs at big positive <;> omega
        have number : ((cp.c2u (c.setWidth 7)).setWidth 8 : Byte).toNat = (cp.c2u (c.setWidth 7)).toNat := by
          rw [BitVec.toNat_setWidth]
          omega
        obtain ⟨d, -, form⟩ := encodeChar_of_ascii (number ▸ small)
        refine ⟨d, form, fun member => zero (BitVec.eq_of_toNat_eq ?_)⟩
        rw [← number, ← List.mem_singleton.mp member]
        rfl

/-- The end of the text is in the form of a byte that vanishes, and in no other. -/
theorem zero_mem_encode (some_ : c ≠ 0) : 0 ∈ cp.encode c ↔ cp.vanishes c = true := by
  unfold codepage.vanishes
  cases stray : cp.isStray c with
  | false =>
    obtain ⟨d, -, proper⟩ := encode_eq_encodeChar stray some_
    exact iff_of_false proper Bool.false_ne_true
  | true =>
    rw [encode_of_isStray stray, List.mem_singleton, Bool.true_and, beq_iff_eq, eq_comm]

theorem takeWhile_encodeAll (proper : 0 ∉ s) :
    (cp.encodeAll s).takeWhile (· ≠ 0) = cp.encodeAll (s.takeWhile (!cp.vanishes ·)) := by
  induction s with
  | nil => rfl
  | cons c rest ih =>
    rw [List.mem_cons, not_or] at proper
    have mem := @zero_mem_encode cp c (Ne.symm proper.1)
    rw [encodeAll_cons, List.takeWhile_cons]
    cases gone : cp.vanishes c with
    | false =>
      have each : ∀ x ∈ cp.encode c, decide (x ≠ 0) = true := by
        intro x member
        refine decide_eq_true ?_
        rintro rfl
        rw [gone] at mem
        exact absurd (mem.mp member) Bool.false_ne_true
      rw [List.takeWhile_append_of_pos each, ih proper.2]
      rfl
    | true =>
      obtain ⟨stray, zero⟩ := Bool.and_eq_true_iff.mp gone
      rw [encode_of_isStray stray, beq_iff_eq.mp zero]
      rfl

variable {acc : List Byte}

/-- **The characters that are made of bytes without a negative code point separate the others.** `acc`
holds what has been read of a run, the last byte first. -/
theorem wellFormed_lowBytes_encodeAll (proper : 0 ∉ s) :
    WellFormed (acc.reverse.map cp.lowByte ++ cp.encodeAll s) ↔
      ∀ run ∈ s.splitOnPPrepend (!cp.isStray ·) acc, WellFormed (run.map cp.lowByte) := by
  induction s generalizing acc with
  | nil =>
    rw [List.splitOnPPrepend_nil]
    simp [codepage.encodeAll]
  | cons c rest ih =>
    rw [List.mem_cons, not_or] at proper
    rw [encodeAll_cons]
    cases stray : cp.isStray c with
    | false =>
      obtain ⟨d, form, -⟩ := encode_eq_encodeChar stray (Ne.symm proper.1)
      have later := @ih [] proper.2
      rw [List.reverse_nil, List.map_nil, List.nil_append, List.splitOnPPrepend_nil_right] at later
      rw [form, Lib.wellFormed_append_encode, later, List.splitOnPPrepend_cons_pos (by simp [stray]),
        List.forall_mem_cons]
    | true =>
      have longer : (c :: acc).reverse.map cp.lowByte = acc.reverse.map cp.lowByte ++ [cp.lowByte c] := by
        rw [List.reverse_cons, List.map_append, List.map_singleton]
      rw [encode_of_isStray stray, List.splitOnPPrepend_cons_neg (by simp [stray]), ← ih proper.2, longer,
        List.append_assoc]

/-- **When the text is UTF-8.** -/
theorem wellFormed_encodeAll_iff (proper : 0 ∉ s) : WellFormed (cp.encodeAll s) ↔
    ∀ run ∈ s.splitOnP (!cp.isStray ·), WellFormed (run.map cp.lowByte) :=
  @wellFormed_lowBytes_encodeAll cp s [] proper

/-! ### How much is taken -/

@[simp] theorem taken_nil (cp : codepage) (room : Nat) : cp.taken room [] = [] := by rw [codepage.taken]

@[simp] theorem taken_zero (cp : codepage) (s : List Byte) : cp.taken 0 s = [] := by cases s <;> rfl

theorem taken_isPrefix (cp : codepage) (room : Nat) (s : List Byte) : cp.taken room s <+: s := by
  induction s generalizing room with
  | nil => simp
  | cons c rest ih =>
    cases room with
    | zero => exact List.nil_prefix
    | succ room => exact List.cons_prefix_cons.mpr ⟨rfl, ih _⟩

theorem taken_eq_self_or (cp : codepage) (room : Nat) (s : List Byte) :
    cp.taken room s = s ∨ room ≤ ((cp.taken room s).map cp.width).sum := by
  induction s generalizing room with
  | nil => exact .inl rfl
  | cons c rest ih =>
    cases room with
    | zero => exact .inr (Nat.zero_le _)
    | succ room =>
      rw [codepage.taken, List.map_cons, List.sum_cons]
      rcases ih (room + 1 - cp.width c) with all | full
      · exact .inl (congrArg _ all)
      · exact .inr (by omega)

theorem taken_append (fills : (front.map cp.width).sum = room) : cp.taken room (front ++ rest) = front := by
  induction front generalizing room with
  | nil =>
    subst fills
    exact taken_zero cp rest
  | cons c front ih =>
    rw [List.map_cons, List.sum_cons] at fills
    have some_ := width_pos cp c
    obtain ⟨room, rfl⟩ := Nat.exists_eq_add_one_of_ne_zero (by omega : room ≠ 0)
    rw [List.cons_append, codepage.taken, ih (by omega)]

theorem taken_eq_self (fits : (s.map cp.width).sum ≤ room) : cp.taken room s = s := by
  induction s generalizing room with
  | nil => exact taken_nil cp room
  | cons c rest ih =>
    rw [List.map_cons, List.sum_cons] at fits
    have some_ := width_pos cp c
    obtain ⟨room, rfl⟩ := Nat.exists_eq_add_one_of_ne_zero (by omega : room ≠ 0)
    rw [codepage.taken, ih (by omega)]

end Forms

/-! ### Texts that end -/

section Texts

variable {mem : Bytes} {p q : Nat} {l k : List Byte}

theorem Stored.text_unique (proper : 0 ∉ l) (stored : Stored mem p (l ++ [0])) (other : Stored mem p (k ++ [0])) :
    k.takeWhile (· ≠ 0) = l := by
  induction l generalizing p k with
  | nil =>
    cases k with
    | nil => rfl
    | cons d k =>
      have zero : d = 0 := other.1.symm.trans stored.1
      rw [zero]
      rfl
  | cons c l ih =>
    rw [List.mem_cons, not_or] at proper
    cases k with
    | nil => exact absurd (other.1.symm.trans stored.1) proper.1
    | cons d k =>
      have same : d = c := other.1.symm.trans stored.1
      rw [same, List.takeWhile_cons, if_pos (decide_eq_true (Ne.symm proper.1)),
        ih proper.2 stored.2 other.2]

theorem exists_text (behind : p ≤ q) (ends : mem q = 0) :
    ∃ out, 0 ∉ out ∧ p + out.length ≤ q ∧ Stored mem p (out ++ [0]) := by
  obtain ⟨n, rfl⟩ := Nat.exists_eq_add_of_le behind
  clear behind
  induction n generalizing p with
  | zero => exact ⟨[], List.not_mem_nil, le_rfl, ends, trivial⟩
  | succ n ih =>
    by_cases here : mem p = 0
    · exact ⟨[], List.not_mem_nil, Nat.le_add_right .., here, trivial⟩
    · obtain ⟨out, proper, short, stored⟩ := @ih (p + 1) (by rwa [show p + 1 + n = p + (n + 1) by omega])
      refine ⟨mem p :: out, ?_, by rw [List.length_cons]; omega, rfl, stored⟩
      rw [List.mem_cons, not_or]
      exact ⟨Ne.symm here, proper⟩

theorem Stored.text (stored : Stored mem p (k ++ [0])) :
    Stored mem p (k.takeWhile (· ≠ 0) ++ [0]) ∧ 0 ∉ k.takeWhile (· ≠ 0) := by
  obtain ⟨out, proper, -, text⟩ := exists_text (Nat.le_add_right p k.length)
    (stored_append.mp stored).2.1
  rw [text.text_unique proper stored]
  exact ⟨text, proper⟩

end Texts

/-! ### The loop of `codepage_to_unicode` -/

section Encoding

variable {cp : codepage} {mem : Bytes} {ucbuf sptr dst fuel : Nat} {s : List Byte}

/-- **What the loop leaves.** Where it writes too much, the line must lie below the buffer. -/
theorem toUnicode_taken (stored : Stored mem sptr (s ++ [0])) (proper : 0 ∉ s) (start : ucbuf ≤ dst)
    (apart : sptr + s.length < ucbuf ∨ ucbuf + UCBUF_SIZE ≤ sptr ∧
      dst + (cp.encodeAll (cp.taken (ucbuf + UCBUF_SIZE - 1 - dst) s)).length < ucbuf + UCBUF_SIZE)
    (enough : s.length < fuel) :
    ∃ mem', cp.toUnicode ucbuf fuel mem sptr dst = some mem' ∧
      Stored mem' dst (cp.encodeAll (cp.taken (ucbuf + UCBUF_SIZE - 1 - dst) s) ++ [0]) ∧
      ∀ a, a < dst ∨ dst + (cp.encodeAll (cp.taken (ucbuf + UCBUF_SIZE - 1 - dst) s)).length < a →
        mem' a = mem a := by
  induction s generalizing mem sptr dst fuel with
  | nil =>
    obtain ⟨fuel, rfl⟩ := Nat.exists_eq_add_one_of_ne_zero (by omega : fuel ≠ 0)
    rw [taken_nil]
    refine ⟨Function.update mem dst 0, ?_, ⟨Function.update_self .., trivial⟩, fun a outside => ?_⟩
    · rw [codepage.toUnicode, if_neg fun both => both.1 stored.1]
    · have outside : a < dst ∨ dst + 0 < a := outside
      exact Function.update_of_ne (by omega) ..
  | cons c rest ih =>
    obtain ⟨fuel, rfl⟩ := Nat.exists_eq_add_one_of_ne_zero (by omega : fuel ≠ 0)
    have here : mem sptr = c := stored.1
    rw [List.mem_cons, not_or] at proper
    rw [List.length_cons] at enough
    cases room : ucbuf + UCBUF_SIZE - 1 - dst with
    | zero =>
      -- the loop ends because the buffer is full
      rw [taken_zero]
      refine ⟨Function.update mem dst 0, ?_, ⟨Function.update_self .., trivial⟩, fun a outside => ?_⟩
      · rw [codepage.toUnicode, if_neg fun both => absurd both.2 (by omega)]
      · have outside : a < dst ∨ dst + 0 < a := outside
        exact Function.update_of_ne (by omega) ..
    | succ n =>
      have left : n + 1 - cp.width c = ucbuf + UCBUF_SIZE - 1 - (dst + (cp.encode c).length) := by
        rw [length_encode, ← room, Nat.sub_sub]
      have some_ := encode_length_pos cp c
      have all : (cp.encodeAll (cp.taken (ucbuf + UCBUF_SIZE - 1 - dst) (c :: rest))).length =
          (cp.encode c).length +
            (cp.encodeAll (cp.taken (ucbuf + UCBUF_SIZE - 1 - (dst + (cp.encode c).length)) rest)).length := by
        rw [room, codepage.taken, left, encodeAll_cons, List.length_append]
      rw [List.length_cons, all] at apart
      have keeps : Stored (write mem dst (cp.encode c)) (sptr + 1) (rest ++ [0]) := by
        refine Stored.congr stored.2 fun a low high => write_frame ?_
        rw [List.length_append, List.length_singleton] at high
        omega
      obtain ⟨mem', result, text, frame⟩ := @ih _ _ (dst + (cp.encode c).length) fuel keeps proper.2
        (by omega) (by omega) (by omega)
      rw [← room, all]
      refine ⟨mem', ?_, ?_, fun a outside => ?_⟩
      · rw [codepage.toUnicode, if_pos ⟨by rw [here]; exact Ne.symm proper.1, by omega⟩, here]
        exact result
      · rw [room, codepage.taken, left, encodeAll_cons, List.append_assoc, stored_append]
        have written : Stored (write mem dst (cp.encode c)) dst (cp.encode c) := stored_write
        exact ⟨written.congr fun a low high => frame a (.inl high), text⟩
      · rw [frame a (by omega), write_frame (by omega)]

end Encoding

/-! ### The characters of a line -/

/-- The first character of a line, an ASCII byte or a code point, and what is behind it. -/
def firstCharacter (a : Byte) (rest : List Byte) : (Byte ⊕ CodePoint) × List Byte :=
  if a.toNat < 0x80 then (.inl a, rest)
  else if a &&& 0xe0 = 0xc0 ∧ 1 ≤ rest.length then
    (.inr ((a &&& 0x1f).setWidth 16 <<< 6 ||| (rest.getD 0 0 &&& 0x3f).setWidth 16), rest.drop 1)
  else if a &&& 0xf0 = 0xe0 ∧ 2 ≤ rest.length then
    (.inr ((a &&& 0x1f).setWidth 16 <<< 12 ||| (rest.getD 0 0 &&& 0x3f).setWidth 16 <<< 6 |||
      (rest.getD 1 0 &&& 0x3f).setWidth 16), rest.drop 2)
  else (.inr 0, rest.dropWhile (· &&& 0xc0 = 0x80))

theorem firstCharacter_length (a : Byte) (rest : List Byte) :
    (firstCharacter a rest).2.length ≤ rest.length := by
  unfold firstCharacter
  split_ifs
  · exact le_rfl
  · exact (List.drop_sublist ..).length_le
  · exact (List.drop_sublist ..).length_le
  · exact (List.dropWhile_sublist _).length_le

/-- The characters of a line, as `utf2uc` reads them. -/
def characters : List Byte → List (Byte ⊕ CodePoint)
  | [] => []
  | a :: rest => (firstCharacter a rest).1 :: characters (firstCharacter a rest).2
termination_by s => s.length
decreasing_by exact Nat.lt_succ_of_le (firstCharacter_length a rest)

def entry (cp : codepage) (tl : Option codepage) : Byte ⊕ CodePoint → Converted
  | .inl c => .byte c
  | .inr uc => convert cp tl uc

/-- The length of what a character becomes. -/
def Converted.size : Converted → Nat
  | .byte _ => 1
  | .sequence s => s.length

/-- The length of what the characters of a line become. -/
def convertedSize (cp : codepage) (tl : Option codepage) (s : List Byte) : Nat :=
  ((characters s).map fun x => (entry cp tl x).size).sum

section Reading

variable {mem : Bytes} {p fuel : Nat} {a : Byte} {rest l : List Byte}

theorem skipTail_eq (stored : Stored mem p (rest ++ [0])) (enough : rest.length < fuel) :
    ∃ q, skipTail mem fuel p = some q ∧ Stored mem q (rest.dropWhile (· &&& 0xc0 = 0x80) ++ [0]) ∧
      q + (rest.dropWhile (· &&& 0xc0 = 0x80)).length = p + rest.length := by
  induction rest generalizing p fuel with
  | nil =>
    obtain ⟨fuel, rfl⟩ := Nat.exists_eq_add_one_of_ne_zero (by omega : fuel ≠ 0)
    refine ⟨p, ?_, stored, rfl⟩
    rw [skipTail, stored.1, if_neg (by decide)]
  | cons c rest ih =>
    obtain ⟨fuel, rfl⟩ := Nat.exists_eq_add_one_of_ne_zero (by omega : fuel ≠ 0)
    have here : mem p = c := stored.1
    rw [List.length_cons] at enough
    rw [skipTail, here, List.dropWhile_cons]
    by_cases tail : c &&& 0xc0 = 0x80
    · rw [if_pos tail, if_pos (decide_eq_true tail)]
      obtain ⟨q, result, text, length⟩ := ih stored.2 (by omega : rest.length < fuel)
      exact ⟨q, result, text, by rw [length, List.length_cons]; omega⟩
    · rw [if_neg tail, if_neg (by simpa using tail)]
      exact ⟨p, rfl, stored, rfl⟩

theorem Stored.head_ne_zero (stored : Stored mem p (rest ++ [0])) (proper : 0 ∉ rest) :
    mem p ≠ 0 ↔ 1 ≤ rest.length := by
  cases rest with
  | nil => exact iff_of_false (fun some_ => some_ stored.1) (by simp)
  | cons c rest =>
    have here : mem p = c := stored.1
    refine iff_of_true ?_ (by simp)
    rw [here]
    exact fun zero => proper (List.mem_cons.mpr (.inl zero.symm))

theorem utf2uc_firstCharacter (stored : Stored mem p (a :: rest ++ [0])) (proper : 0 ∉ rest)
    (high : ¬ a.toNat < 0x80) (enough : rest.length < fuel) :
    ∃ uc q, utf2uc mem fuel p = some (uc, q) ∧ (firstCharacter a rest).1 = .inr uc ∧
      Stored mem q ((firstCharacter a rest).2 ++ [0]) ∧
      q + (firstCharacter a rest).2.length = p + 1 + rest.length := by
  have here : mem p = a := stored.1
  have behind : Stored mem (p + 1) (rest ++ [0]) := stored.2
  have marked : ¬ a &&& 0x80 = 0 := (isHigh_iff a).mp (decide_eq_true (not_lt.mp high))
  have second := behind.head_ne_zero proper
  have third : mem (p + 1) ≠ 0 ∧ mem (p + 2) ≠ 0 ↔ 2 ≤ rest.length := by
    rw [second]
    cases rest with
    | nil => exact iff_of_false (fun both => absurd both.1 (by decide)) (by simp)
    | cons b rest =>
      have proper : 0 ∉ rest := fun member => proper (List.mem_cons_of_mem _ member)
      rw [show p + 2 = p + 1 + 1 from rfl, Stored.head_ne_zero behind.2 proper]
      simp only [List.length_cons]
      omega
  unfold utf2uc firstCharacter
  rw [here, if_neg marked, if_neg high]
  by_cases two : a &&& 0xe0 = 0xc0 ∧ 1 ≤ rest.length
  · rw [if_pos ⟨two.1, second.mpr two.2⟩, if_pos two]
    obtain ⟨b, rest, rfl⟩ := List.exists_cons_of_length_pos two.2
    have next : mem (p + 1) = b := behind.1
    refine ⟨_, _, rfl, by rw [next]; rfl, behind.2, ?_⟩
    show p + 2 + rest.length = p + 1 + (rest.length + 1)
    omega
  · rw [if_neg fun both => two ⟨both.1, second.mp both.2⟩, if_neg two]
    by_cases three : a &&& 0xf0 = 0xe0 ∧ 2 ≤ rest.length
    · rw [if_pos ⟨three.1, third.mpr three.2⟩, if_pos three]
      obtain ⟨b, rest, rfl⟩ := List.exists_cons_of_length_pos (Nat.lt_of_lt_of_le Nat.zero_lt_two three.2)
      obtain ⟨c, rest, rfl⟩ := List.exists_cons_of_length_pos (Nat.lt_of_succ_le (Nat.le_of_succ_le_succ three.2))
      have next : mem (p + 1) = b := behind.1
      have last : mem (p + 2) = c := behind.2.1
      refine ⟨_, _, rfl, by rw [next, last]; rfl, behind.2.2, ?_⟩
      show p + 3 + rest.length = p + 1 + (rest.length + 1 + 1)
      omega
    · rw [if_neg fun both => three ⟨both.1, third.mp both.2⟩, if_neg three]
      obtain ⟨q, result, text, length⟩ := skipTail_eq behind enough
      exact ⟨0, q, by rw [result]; rfl, rfl, text, length⟩

end Reading

/-! ### The loops of `unicode_to_codepage` -/

section Decoding

variable {cp : codepage} {tl : Option codepage} {mem : Bytes} {ucbuf src dst fuel changes p : Nat}
variable {a : Byte} {s rest : List Byte} {x : Converted}

theorem put_snd : (x.put mem dst).2 = dst + x.size := by cases x <;> rfl

theorem put_frame (outside : p < dst ∨ dst + x.size < p) : (x.put mem dst).1 p = mem p := by
  cases x with
  | byte c =>
    have outside : p < dst ∨ dst + 1 < p := outside
    exact Function.update_of_ne (by omega) ..
  | sequence s =>
    have outside : p < dst ∨ dst + s.length < p := outside
    refine write_frame ?_
    rw [List.length_append, List.length_singleton]
    omega

theorem firstCharacter_ascii (low : a.toNat < 0x80) : firstCharacter a rest = (.inl a, rest) := if_pos low

/-- **One character**, of a line that lies apart from what is written for it. -/
theorem fromUnicode_step (stored : Stored mem src (a :: rest ++ [0])) (proper : 0 ∉ a :: rest)
    (open_ : cp.u2c.isSome → dst < ucbuf + UCBUF_SIZE)
    (apart : src + rest.length + 1 < dst ∨ dst + (entry cp tl (firstCharacter a rest).1).size < src)
    (enough : rest.length ≤ fuel) :
    ∃ next changes', fromUnicode cp tl ucbuf (fuel + 1) mem src dst changes =
        fromUnicode cp tl ucbuf fuel ((entry cp tl (firstCharacter a rest).1).put mem dst).1 next
          (dst + (entry cp tl (firstCharacter a rest).1).size) changes' ∧
      Stored ((entry cp tl (firstCharacter a rest).1).put mem dst).1 next ((firstCharacter a rest).2 ++ [0]) ∧
      next + (firstCharacter a rest).2.length = src + 1 + rest.length ∧
      (changes' = 0 → changes = 0 ∧ (firstCharacter a rest).1 = .inl a) := by
  have here : mem src = a := stored.1
  have shorter := firstCharacter_length a rest
  -- the rest of the line is not written to
  have keeps : ∀ next, Stored mem next ((firstCharacter a rest).2 ++ [0]) →
      next + (firstCharacter a rest).2.length = src + 1 + rest.length →
      Stored ((entry cp tl (firstCharacter a rest).1).put mem dst).1 next
        ((firstCharacter a rest).2 ++ [0]) := by
    intro next text length
    refine text.congr fun p low high => put_frame ?_
    rw [List.length_append, List.length_singleton] at high
    omega
  rw [List.mem_cons, not_or] at proper
  rw [fromUnicode, if_pos ⟨by rw [here]; exact Ne.symm proper.1, open_⟩, here]
  by_cases low : a.toNat < 0x80
  · rw [firstCharacter_ascii low] at keeps ⊢
    rw [if_pos low]
    exact ⟨src + 1, changes, rfl, keeps _ stored.2 rfl, rfl, fun none_ => ⟨none_, rfl⟩⟩
  · obtain ⟨uc, q, read, first, text, length⟩ :=
      utf2uc_firstCharacter stored proper.2 low (by omega : rest.length < fuel + 1)
    have keeps := keeps q text length
    rw [first] at keeps ⊢
    rw [if_neg low, read, Option.bind_some]
    refine ⟨q, changes + 1, ?_, keeps, length, fun none_ => absurd none_ (by omega)⟩
    dsimp only
    rw [put_snd]
    rfl

theorem firstCharacter_proper (proper : 0 ∉ a :: rest) : 0 ∉ (firstCharacter a rest).2 := by
  have behind : 0 ∉ rest := fun member => proper (List.mem_cons_of_mem _ member)
  unfold firstCharacter
  split_ifs
  · exact behind
  · exact fun member => behind (List.mem_of_mem_drop member)
  · exact fun member => behind (List.mem_of_mem_drop member)
  · exact fun member => behind ((List.dropWhile_sublist _).subset member)

theorem convertedSize_cons : convertedSize cp tl (a :: rest) =
    (entry cp tl (firstCharacter a rest).1).size + convertedSize cp tl (firstCharacter a rest).2 := by
  unfold convertedSize
  rw [characters, List.map_cons, List.sum_cons]

/-- **The loops on a line that fits.** -/
theorem fromUnicode_fits (stored : Stored mem src (s ++ [0])) (proper : 0 ∉ s) (start : ucbuf ≤ dst)
    (apart : src + s.length < ucbuf ∨ ucbuf + UCBUF_SIZE ≤ src)
    (fits : dst + convertedSize cp tl s < ucbuf + UCBUF_SIZE) (enough : s.length < fuel) :
    ∃ mem' changes', fromUnicode cp tl ucbuf fuel mem src dst changes =
        some (mem', dst + convertedSize cp tl s, changes') ∧
      ∀ p, p < dst ∨ ucbuf + UCBUF_SIZE ≤ p → mem' p = mem p := by
  induction s using characters.induct generalizing mem src dst fuel changes with
  | case1 =>
    obtain ⟨fuel, rfl⟩ := Nat.exists_eq_add_one_of_ne_zero (by omega : fuel ≠ 0)
    refine ⟨mem, changes, ?_, fun _ _ => rfl⟩
    rw [fromUnicode, if_neg fun both => both.1 stored.1]
    unfold convertedSize
    rw [characters]
    rfl
  | case2 a rest ih =>
    obtain ⟨fuel, rfl⟩ := Nat.exists_eq_add_one_of_ne_zero (by omega : fuel ≠ 0)
    rw [List.length_cons] at apart enough
    rw [convertedSize_cons] at fits ⊢
    have shorter := firstCharacter_length a rest
    obtain ⟨next, changes', step, keeps, length, -⟩ := @fromUnicode_step cp tl mem ucbuf src dst fuel
      changes a rest stored proper (fun _ => by omega) (by omega) (by omega)
    obtain ⟨mem', changes'', result, frame⟩ := @ih _ _ _ _ changes' keeps (firstCharacter_proper proper)
      (by omega : ucbuf ≤ dst + (entry cp tl (firstCharacter a rest).1).size) (by omega) (by omega)
      (by omega : _ < fuel)
    refine ⟨mem', changes'', ?_, fun p outside => ?_⟩
    · rw [step, result, Nat.add_assoc]
    · rw [frame p (by omega), put_frame (by omega)]

/-- **The loops on a line that does not fit**, and lies below the buffer. -/
theorem fromUnicode_overflows (stored : Stored mem src (s ++ [0])) (proper : 0 ∉ s) (start : ucbuf ≤ dst)
    (below : src + s.length < ucbuf) (long : ucbuf + UCBUF_SIZE ≤ dst + convertedSize cp tl s)
    (enough : s.length < fuel) :
    ∃ mem' dst' changes', fromUnicode cp tl ucbuf fuel mem src dst changes = some (mem', dst', changes') ∧
      ucbuf + UCBUF_SIZE ≤ dst' ∧ (changes' = 0 → changes = 0 ∧ dst' ≤ dst + s.length) := by
  induction s using characters.induct generalizing mem src dst fuel changes with
  | case1 =>
    obtain ⟨fuel, rfl⟩ := Nat.exists_eq_add_one_of_ne_zero (by omega : fuel ≠ 0)
    refine ⟨mem, dst, changes, ?_, ?_, fun none_ => ⟨none_, le_rfl⟩⟩
    · rw [fromUnicode, if_neg fun both => both.1 stored.1]
    · unfold convertedSize at long
      rw [characters] at long
      exact long
  | case2 a rest ih =>
    obtain ⟨fuel, rfl⟩ := Nat.exists_eq_add_one_of_ne_zero (by omega : fuel ≠ 0)
    rw [List.length_cons] at below enough
    rw [convertedSize_cons] at long
    have shorter := firstCharacter_length a rest
    by_cases open_ : cp.u2c.isSome → dst < ucbuf + UCBUF_SIZE
    · obtain ⟨next, changes', step, keeps, length, plain⟩ := @fromUnicode_step cp tl mem ucbuf src dst fuel
        changes a rest stored proper open_ (.inl (by omega)) (by omega)
      obtain ⟨mem', dst', changes'', result, past, none⟩ := @ih _ _ _ _ changes' keeps
        (firstCharacter_proper proper) (by omega : ucbuf ≤ dst + (entry cp tl (firstCharacter a rest).1).size)
        (by omega) (by omega) (by omega : _ < fuel)
      refine ⟨mem', dst', changes'', step.trans result, past, fun none_ => ?_⟩
      obtain ⟨before, short⟩ := none none_
      obtain ⟨first, ascii⟩ := plain before
      refine ⟨first, ?_⟩
      rw [ascii] at short
      have one : (entry cp tl (.inl a)).size = 1 := rfl
      rw [List.length_cons]
      omega
    · -- a single byte table, and the buffer is full
      rw [Classical.not_imp] at open_
      refine ⟨mem, dst, changes, ?_, by omega, fun none_ => ⟨none_, Nat.le_add_right ..⟩⟩
      rw [fromUnicode, if_neg fun both => open_.2 (both.2 open_.1)]

end Decoding

/-! ### The two conversions of a line -/

section Bounds

variable {cps : Codepages} {cp : codepage} {tl : Option codepage} {codepage_translit cpidx : Int}
variable {ucbuf src fuel : Nat} {mem : Bytes} {s front : List Byte} {good : List Byte → Prop}

/-- A conversion that writes to nothing but the buffer and returns a text that ends within the size of the
buffer. -/
def Delivers (ucbuf : Nat) (mem : Bytes) (good : List Byte → Prop) (result : Option (Bytes × Nat)) : Prop :=
  ∃ mem' p out, result = some (mem', p) ∧
    (∀ a, a < ucbuf ∨ ucbuf + UCBUF_SIZE ≤ a → mem' a = mem a) ∧
    0 ∉ out ∧ out.length < UCBUF_SIZE ∧ Stored mem' p (out ++ [0]) ∧ good out

/-- Both conversions of a line stay within the buffer, in every memory and at every place of the line apart
from the buffer, and what is made of it for a client with UTF-8 is UTF-8. -/
def Codepages.Bounded (cps : Codepages) (codepage_translit cpidx : Int) (s : List Byte) : Prop :=
  ∀ (ucbuf : Nat) (mem : Bytes) (src : Nat),
    (src + s.length < ucbuf ∨ ucbuf + UCBUF_SIZE ≤ src) → Stored mem src (s ++ [0]) →
    ∃ enough, ∀ fuel ≥ enough,
      Delivers ucbuf mem WellFormed (codepage_to_unicode cps ucbuf fuel mem src cpidx) ∧
      Delivers ucbuf mem (fun _ => True)
        (unicode_to_codepage cps codepage_translit ucbuf fuel mem src cpidx)

/-- The bytes that are converted: all of the line, or first ones that fill the buffer exactly. -/
def codepage.Fills (cp : codepage) (s front : List Byte) : Prop :=
  front <+: s ∧
    (front = s ∧ (s.map cp.width).sum < UCBUF_SIZE ∨ (front.map cp.width).sum = UCBUF_SIZE - 1)

theorem fills_iff : cp.Fills s front ↔
    front = cp.taken (UCBUF_SIZE - 1) s ∧ (front.map cp.width).sum < UCBUF_SIZE := by
  have size : UCBUF_SIZE = 1024 := rfl
  constructor
  · rintro ⟨⟨rest, rfl⟩, ⟨all, small⟩ | full⟩
    · rw [← all] at small ⊢
      exact ⟨(taken_eq_self (by omega)).symm, small⟩
    · exact ⟨(taken_append full).symm, by omega⟩
  · rintro ⟨rfl, small⟩
    refine ⟨taken_isPrefix cp _ s, ?_⟩
    rcases taken_eq_self_or cp (UCBUF_SIZE - 1) s with all | full
    · rw [all] at small ⊢
      exact .inl ⟨rfl, small⟩
    · exact .inr (by omega)

theorem codepage_to_unicode_taken (loaded : cps.at cpidx = some (some cp))
    (stored : Stored mem src (s ++ [0])) (proper : 0 ∉ s)
    (apart : src + s.length < ucbuf ∨ ucbuf + UCBUF_SIZE ≤ src ∧
      (cp.encodeAll (cp.taken (UCBUF_SIZE - 1) s)).length < UCBUF_SIZE) (enough : s.length < fuel) :
    ∃ mem', codepage_to_unicode cps ucbuf fuel mem src cpidx = some (mem', ucbuf) ∧
      Stored mem' ucbuf (cp.encodeAll (cp.taken (UCBUF_SIZE - 1) s) ++ [0]) ∧
      ∀ a, a < ucbuf ∨ ucbuf + (cp.encodeAll (cp.taken (UCBUF_SIZE - 1) s)).length < a → mem' a = mem a := by
  have room : ucbuf + UCBUF_SIZE - 1 - ucbuf = UCBUF_SIZE - 1 := by omega
  obtain ⟨mem', result, text, frame⟩ := @toUnicode_taken cp mem ucbuf src ucbuf fuel s stored proper le_rfl
    (by rw [room]; omega) enough
  rw [room] at text frame
  exact ⟨mem', by rw [codepage_to_unicode_eq loaded, result]; rfl, text, frame⟩

theorem codepage_to_unicode_delivers (loaded : cps.at cpidx = some (some cp))
    (stored : Stored mem src (s ++ [0])) (proper : 0 ∉ s)
    (apart : src + s.length < ucbuf ∨ ucbuf + UCBUF_SIZE ≤ src) (fills : cp.Fills s front)
    (utf8 : WellFormed ((cp.encodeAll front).takeWhile (· ≠ 0))) (enough : s.length < fuel) :
    Delivers ucbuf mem WellFormed (codepage_to_unicode cps ucbuf fuel mem src cpidx) := by
  obtain ⟨rfl, small⟩ := fills_iff.mp fills
  rw [← length_encodeAll] at small
  obtain ⟨mem', result, written, frame⟩ := codepage_to_unicode_taken loaded stored proper
    (apart.imp_right fun above => ⟨above, small⟩) enough
  obtain ⟨text, ends⟩ := written.text
  refine ⟨mem', ucbuf, _, result, fun a outside => frame a (by omega), ends, ?_, text, utf8⟩
  exact (List.takeWhile_sublist _).length_le.trans_lt small

theorem unicode_to_codepage_delivers (loaded : cps.at cpidx = some (some cp))
    (stored : Stored mem src (s ++ [0])) (proper : 0 ∉ s) (short : s.length < UCBUF_SIZE)
    (apart : src + s.length < ucbuf ∨ ucbuf + UCBUF_SIZE ≤ src)
    (fits : (cp.u2c = none ∧ cp.u2i = none) ∨ convertedSize cp
      (if codepage_translit = cpidx then none else (cps.at codepage_translit).join) s < UCBUF_SIZE)
    (enough : s.length < fuel) :
    Delivers ucbuf mem (fun _ => True)
      (unicode_to_codepage cps codepage_translit ucbuf fuel mem src cpidx) := by
  by_cases transparent : cp.u2c = none ∧ cp.u2i = none
  · refine ⟨mem, src, s, ?_, fun _ _ => rfl, proper, short, stored, trivial⟩
    unfold unicode_to_codepage
    rw [loaded]
    exact if_pos transparent
  · have fits := fits.resolve_left transparent
    rw [unicode_to_codepage_eq loaded transparent]
    generalize (if codepage_translit = cpidx then none else (cps.at codepage_translit).join) = tl at fits ⊢
    obtain ⟨mem', changes, result, frame⟩ := @fromUnicode_fits cp tl mem ucbuf src ucbuf fuel 0 s stored
      proper le_rfl apart (by omega) enough
    rw [result, Option.map_some]
    unfold fromUnicodeEnd
    by_cases none_ : changes = 0
    · refine ⟨mem', src, s, congrArg some (if_pos none_), frame, proper, short, ?_, trivial⟩
      refine stored.congr fun a low high => frame a ?_
      rw [List.length_append, List.length_singleton] at high
      omega
    · have ends : Function.update (Function.update mem' (ucbuf + convertedSize cp tl s) 0)
          (ucbuf + UCBUF_SIZE - 1) 0 (ucbuf + convertedSize cp tl s) = 0 := by
        by_cases last : ucbuf + convertedSize cp tl s = ucbuf + UCBUF_SIZE - 1
        · rw [last, Function.update_self]
        · rw [Function.update_of_ne last, Function.update_self]
      obtain ⟨out, ending, length, text⟩ := exists_text (Nat.le_add_right ..) ends
      refine ⟨_, ucbuf, out, congrArg some (if_neg none_), fun a outside => ?_, ending, by omega, text,
        trivial⟩
      have size : UCBUF_SIZE = 1024 := rfl
      rw [Function.update_of_ne (by omega), Function.update_of_ne (by omega), frame a outside]

/-- Conversions that stay in the buffer have room. The line is put below the buffer, and no byte behind it
is NUL. -/
theorem room_of_bounded (loaded : cps.at cpidx = some (some cp)) (short : s.length ≤ 510) (proper : 0 ∉ s)
    (bounded : cps.Bounded codepage_translit cpidx s) :
    (∃ front, cp.Fills s front ∧ WellFormed ((cp.encodeAll front).takeWhile (· ≠ 0))) ∧
    ((cp.u2c = none ∧ cp.u2i = none) ∨ convertedSize cp
      (if codepage_translit = cpidx then none else (cps.at codepage_translit).join) s < UCBUF_SIZE) := by
  have size : UCBUF_SIZE = 1024 := rfl
  have stored : Stored (write (fun _ => 1) 0 (s ++ [0])) 0 (s ++ [0]) := stored_write
  have ones : ∀ a, s.length < a → write (fun _ => 1) 0 (s ++ [0]) a = 1 := by
    intro a behind
    refine write_frame (.inr ?_)
    rw [List.length_append, List.length_singleton]
    omega
  obtain ⟨enough, all⟩ := bounded (s.length + 1) _ 0 (.inl (by omega)) stored
  obtain ⟨unicode, back⟩ := all (enough + (s.length + 1)) (by omega)
  constructor
  · obtain ⟨mem', result, written, -⟩ := codepage_to_unicode_taken loaded stored proper
      (.inl (by omega : 0 + s.length < s.length + 1)) (by omega : s.length < enough + (s.length + 1))
    obtain ⟨mem₁, p, out, same, frame, ends, -, text, utf8⟩ := unicode
    rw [result] at same
    obtain ⟨rfl, rfl⟩ := Prod.mk.inj (Option.some.inj same)
    refine ⟨_, fills_iff.mpr ⟨rfl, ?_⟩, ?_⟩
    · rw [← length_encodeAll]
      by_contra long
      have zero := (stored_append.mp written).2.1
      rw [frame _ (.inr (by omega)), ones _ (by omega)] at zero
      exact absurd zero (by decide)
    · rwa [text.text_unique ends written]
  · by_contra none_
    obtain ⟨transparent, long⟩ := not_or.mp none_
    rw [unicode_to_codepage_eq loaded transparent] at back
    generalize (if codepage_translit = cpidx then none else (cps.at codepage_translit).join) = tl at *
    obtain ⟨mem', dst, changes, result, past, plain⟩ := @fromUnicode_overflows cp tl _ (s.length + 1) 0
      (s.length + 1) (enough + (s.length + 1)) 0 s stored proper le_rfl (by omega) (by omega) (by omega)
    have some_ : changes ≠ 0 := fun zero => absurd (plain zero).2 (by omega)
    obtain ⟨mem₁, p, out, same, frame, -⟩ := back
    rw [result, Option.map_some, fromUnicodeEnd, if_neg some_] at same
    obtain ⟨rfl, rfl⟩ := Prod.mk.inj (Option.some.inj same)
    have kept := frame dst (.inr past)
    rw [Function.update_of_ne (by omega), Function.update_self, ones _ (by omega)] at kept
    exact absurd kept (by decide)

/-- **When both conversions stay in the buffer.** -/
theorem conversions_bounded_iff (loaded : cps.at cpidx = some (some cp)) (short : s.length ≤ 510)
    (proper : 0 ∉ s) : cps.Bounded codepage_translit cpidx s ↔
      (∃ front, cp.Fills s front ∧
        ∀ run ∈ (front.takeWhile (!cp.vanishes ·)).splitOnP (!cp.isStray ·), WellFormed (run.map cp.lowByte)) ∧
      ((cp.u2c = none ∧ cp.u2i = none) ∨ convertedSize cp
        (if codepage_translit = cpidx then none else (cps.at codepage_translit).join) s < UCBUF_SIZE) := by
  have runs : ∀ front, cp.Fills s front → (WellFormed ((cp.encodeAll front).takeWhile (· ≠ 0)) ↔
      ∀ run ∈ (front.takeWhile (!cp.vanishes ·)).splitOnP (!cp.isStray ·), WellFormed (run.map cp.lowByte)) := by
    intro front fills
    have ending : 0 ∉ front := fun member => proper (fills.1.subset member)
    rw [takeWhile_encodeAll ending]
    exact wellFormed_encodeAll_iff fun member => ending ((List.takeWhile_sublist _).subset member)
  constructor
  · intro bounded
    obtain ⟨⟨front, fills, utf8⟩, fits⟩ := room_of_bounded loaded short proper bounded
    exact ⟨⟨front, fills, (runs front fills).mp utf8⟩, fits⟩
  · rintro ⟨⟨front, fills, each⟩, fits⟩ ucbuf mem src apart stored
    refine ⟨s.length + 1, fun fuel enough => ⟨?_, ?_⟩⟩
    · exact codepage_to_unicode_delivers loaded stored proper apart fills ((runs front fills).mpr each) enough
    · exact unicode_to_codepage_delivers loaded stored proper (by have : UCBUF_SIZE = 1024 := rfl; omega)
        apart fits enough

/-- A code page with the Euro sign, and the character `a` in front of it. -/
theorem conversions_bounded_euro :
    Codepages.Bounded (fun _ => some (singlePage 0x80 0x20ac)) (-1) 0 [0x61, 0x80] := by
  have ascii : firstCharacter 0x61 [0x80] = (.inl 0x61, [0x80]) := by decide
  have high : firstCharacter 0x80 [] = (.inr 0, []) := by decide
  have one : convertedSize (singlePage 0x80 0x20ac) none [0x61, 0x80] = 2 := by
    rw [convertedSize_cons, ascii, convertedSize_cons, high]
    unfold convertedSize
    rw [characters]
    decide
  refine (conversions_bounded_iff rfl (by decide) (by decide)).mpr ⟨⟨_, ⟨List.prefix_rfl, .inl ⟨rfl, ?_⟩⟩, ?_⟩,
    .inr ?_⟩
  · decide
  · have none_ : (List.takeWhile (!(singlePage 0x80 0x20ac).vanishes ·) [0x61, 0x80]).splitOnP
        (!(singlePage 0x80 0x20ac).isStray ·) = [[], [], []] := by decide
    rw [none_]
    simp [Lib.wellFormed_nil]
  · exact one ▸ (by decide : 2 < UCBUF_SIZE)

/-- 1022 bytes, and a character of three behind them. -/
theorem not_conversions_bounded :
    ¬ ∀ (cps : Codepages) (codepage_translit cpidx : Int) (cp : codepage) (s : List Byte),
      cps.at cpidx = some (some cp) → s.length ≤ 510 → 0 ∉ s → cps.Bounded codepage_translit cpidx s := by
  intro always
  have short : (List.replicate 340 (0x80 : Byte) ++ [0x61, 0x61, 0x80]).length ≤ 510 := by
    rw [List.length_append, List.length_replicate]
    decide
  have proper : (0 : Byte) ∉ List.replicate 340 0x80 ++ [0x61, 0x61, 0x80] := by
    rw [List.mem_append, List.mem_replicate]
    decide
  have loaded : Codepages.at (fun _ => some (singlePage 0x80 0x20ac)) 0 =
    some (some (singlePage 0x80 0x20ac)) := rfl
  obtain ⟨⟨front, fills, -⟩, -⟩ := room_of_bounded loaded short proper (always _ (-1) 0 _ _ loaded short proper)
  obtain ⟨rfl, room⟩ := fills_iff.mp fills
  exact absurd room (by decide +kernel)

end Bounds

end PtlinkIrcd
