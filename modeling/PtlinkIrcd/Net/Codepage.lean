/-
**Code pages.**

The two conversions of `unicode.c`, which both write into one static buffer: the second one reads its
argument from the buffer that it writes to.

* `codepage_to_unicode`, `unicode_to_codepage` — the functions, on the bytes of the memory.
* `utf2uc_uc2utf` — what `utf2uc` reads where `uc2utf` has written.
* `toUnicode_stores`, `fromUnicode_stores` — the loops on a text.
* `codepage_roundTrip_iff` — **when texts come back**; `not_codepage_roundTrip` — the byte for a code
  point from 0x8000 on does not.
-/

import Mathlib.Data.Nat.Bitwise
import Mathlib.Logic.Function.Basic

namespace PtlinkIrcd

/-! ### The functions -/

abbrev Byte := BitVec 8

/-- A `short` of the tables. -/
abbrev CodePoint := BitVec 16

/-- The bytes of the memory, by their addresses. -/
abbrev Bytes := Nat → Byte

def UCBUF_SIZE : Nat := 1024

/-- `struct codepage`; `before` is what lies in the memory before `u2s`, the next byte first. -/
structure codepage where
  c2u : BitVec 7 → CodePoint
  first : CodePoint
  last : CodePoint
  u2c : Option (List Byte)
  u2i : Option (List CodePoint)
  u2s : List Byte
  before : Nat → Byte

namespace codepage

/-- `uc >= cp->first && uc <= cp->last`. -/
def covers (cp : codepage) (uc : CodePoint) : Bool :=
  cp.first.toInt ≤ uc.toInt && uc.toInt ≤ cp.last.toInt

/-- `uc - cp->first`, for a character that is covered. -/
def index (cp : codepage) (uc : CodePoint) : Nat := (uc.toInt - cp.first.toInt).toNat

/-- The text at `&cp->u2s[idx]`. An offset that does not fit into a `short` is negative, and so is not in the
table. -/
def sequence (cp : codepage) (idx : CodePoint) : List Byte :=
  let text :=
    if 0 ≤ idx.toInt then cp.u2s.drop idx.toNat
    else ((List.range (-idx.toInt).toNat).map cp.before).reverse ++ cp.u2s
  text.takeWhile (· ≠ 0)

end codepage

/-- The code pages that are loaded, by their places in `cps`. -/
abbrev Codepages := Fin 32 → Option codepage

/-- `cps[cpidx]`, for an index within the table. -/
def Codepages.at (cps : Codepages) (cpidx : Int) : Option (Option codepage) :=
  if inside : 0 ≤ cpidx ∧ cpidx < 32 then some (cps ⟨cpidx.toNat, by omega⟩) else none

/-- `uc2utf`. The divisions are of positive numbers. -/
def uc2utf (uc : CodePoint) : List Byte :=
  if uc.toInt < 0x80 then [uc.setWidth 8]
  else if uc.toInt < 0x800 then
    [0xc0 + (uc / 64 &&& 0x1f).setWidth 8, 0x80 + (uc &&& 0x3f).setWidth 8]
  else
    [0xe0 + (uc / 4096 &&& 0x0f).setWidth 8, 0x80 + (uc / 64 &&& 0x3f).setWidth 8,
      0x80 + (uc &&& 0x3f).setWidth 8]

/-- `for (++(*p); (**p & 0xc0) == 0x80; ++(*p))`. -/
def skipTail (mem : Bytes) : Nat → Nat → Option Nat
  | 0, _ => none
  | fuel + 1, p => if mem p &&& 0xc0 = 0x80 then skipTail mem fuel (p + 1) else some p

/-- `utf2uc`: the character, and the pointer behind it. -/
def utf2uc (mem : Bytes) (fuel p : Nat) : Option (CodePoint × Nat) :=
  if mem p &&& 0x80 = 0 then some ((mem p).setWidth 16, p + 1)
  else if mem p &&& 0xe0 = 0xc0 ∧ mem (p + 1) ≠ 0 then
    some ((mem p &&& 0x1f).setWidth 16 <<< 6 ||| (mem (p + 1) &&& 0x3f).setWidth 16, p + 2)
  else if mem p &&& 0xf0 = 0xe0 ∧ mem (p + 1) ≠ 0 ∧ mem (p + 2) ≠ 0 then
    some ((mem p &&& 0x1f).setWidth 16 <<< 12 ||| (mem (p + 1) &&& 0x3f).setWidth 16 <<< 6 |||
      (mem (p + 2) &&& 0x3f).setWidth 16, p + 3)
  else (skipTail mem fuel (p + 1)).map fun p => (0, p)

def write (mem : Bytes) (dst : Nat) : List Byte → Bytes
  | [] => mem
  | c :: rest => write (Function.update mem dst c) (dst + 1) rest

/-- What `codepage_to_unicode` writes for a byte. -/
def codepage.encode (cp : codepage) (c : Byte) : List Byte :=
  if c &&& 0x80 = 0 then [c]
  else
    let uc := cp.c2u (c.setWidth 7)
    if 0x7f < uc.toInt then uc2utf uc
    else [if uc = 0 then 63 else uc.setWidth 8]

def codepage.toUnicode (cp : codepage) (ucbuf : Nat) : Nat → Bytes → Nat → Nat → Option Bytes
  | 0, _, _, _ => none
  | fuel + 1, mem, sptr, dst =>
    if mem sptr ≠ 0 ∧ dst < ucbuf + UCBUF_SIZE - 1 then
      let c := cp.encode (mem sptr)
      cp.toUnicode ucbuf fuel (write mem dst c) (sptr + 1) (dst + c.length)
    else some (Function.update mem dst 0)

/-- `codepage_to_unicode`: the memory and the pointer that is returned. -/
def codepage_to_unicode (cps : Codepages) (ucbuf fuel : Nat) (mem : Bytes) (src : Nat) (cpidx : Int) :
    Option (Bytes × Nat) :=
  match cps.at cpidx with
  | none => some (mem, src)
  | some none => none
  | some (some cp) => (cp.toUnicode ucbuf fuel mem src ucbuf).map fun mem => (mem, ucbuf)

/-- What a table makes of a character that it covers: a byte, or a text that ends in a zero byte. -/
inductive Converted
  | byte (c : Byte)
  | sequence (s : List Byte)

def codepage.own (cp : codepage) (uc : CodePoint) : Option Converted :=
  if cp.covers uc then
    match cp.u2c with
    | some u2c =>
      let c := u2c.getD (cp.index uc) 0
      if c ≠ 0 then some (.byte c) else none
    | none =>
      let idx := (cp.u2i.getD []).getD (cp.index uc) 0
      if idx ≠ 0 then some (.sequence (cp.sequence idx)) else none
  else none

def codepage.transliterate (tl : codepage) (uc : CodePoint) : Option Converted :=
  if tl.covers uc then
    match tl.u2c with
    | some u2c => some (.byte (u2c.getD (tl.index uc) 0))
    | none =>
      let idx := (tl.u2i.getD []).getD (tl.index uc) 0
      some (if idx ≠ 0 then .sequence (tl.sequence idx) else .byte 63)
  else none

/-- What `unicode_to_codepage` makes of a character. -/
def convert (cp : codepage) (tl : Option codepage) (uc : CodePoint) : Converted :=
  ((cp.own uc).or (tl.bind fun tl => tl.transliterate uc)).getD (.byte 63)

/-- The memory and the pointer behind what is written. -/
def Converted.put (mem : Bytes) (dst : Nat) : Converted → Bytes × Nat
  | .byte c => (Function.update mem dst c, dst + 1)
  | .sequence s => (write mem dst (s ++ [0]), dst + s.length)

/-- The loops of `unicode_to_codepage`: only that of a single byte table looks at the end of the
buffer. -/
def fromUnicode (cp : codepage) (tl : Option codepage) (ucbuf : Nat) :
    Nat → Bytes → Nat → Nat → Nat → Option (Bytes × Nat × Nat)
  | 0, _, _, _, _ => none
  | fuel + 1, mem, src, dst, changes =>
    if mem src ≠ 0 ∧ (cp.u2c.isSome → dst < ucbuf + UCBUF_SIZE) then
      if (mem src).toNat < 0x80 then
        fromUnicode cp tl ucbuf fuel (Function.update mem dst (mem src)) (src + 1) (dst + 1) changes
      else
        (utf2uc mem (fuel + 1) src).bind fun read =>
          let put := (convert cp tl read.1).put mem dst
          fromUnicode cp tl ucbuf fuel put.1 read.2 put.2 (changes + 1)
    else some (mem, dst, changes)

/-- `unicode_to_codepage`: the memory and the pointer that is returned. -/
def unicode_to_codepage (cps : Codepages) (codepage_translit : Int) (ucbuf fuel : Nat) (mem : Bytes)
    (source : Nat) (cpidx : Int) : Option (Bytes × Nat) :=
  match cps.at cpidx with
  | none => some (mem, source)
  | some none => some (mem, source)
  | some (some cp) =>
    if cp.u2c = none ∧ cp.u2i = none then some (mem, source)
    else
      let tl := if codepage_translit = cpidx then none else (cps.at codepage_translit).join
      (fromUnicode cp tl ucbuf fuel mem source ucbuf 0).map fun (mem, dst, changes) =>
        if changes = 0 then (mem, source)
        else (Function.update (Function.update mem dst 0) (ucbuf + UCBUF_SIZE - 1) 0, ucbuf)

/-! ### Texts in the memory -/

def Stored (mem : Bytes) : Nat → List Byte → Prop
  | _, [] => True
  | p, c :: rest => mem p = c ∧ Stored mem (p + 1) rest

section Texts

variable {mem mem' : Bytes} {p dst a : Nat} {l k : List Byte} {c : Byte}

theorem stored_cons : Stored mem p (c :: l) ↔ mem p = c ∧ Stored mem (p + 1) l := Iff.rfl

theorem stored_append : Stored mem p (l ++ k) ↔ Stored mem p l ∧ Stored mem (p + l.length) k := by
  induction l generalizing p with
  | nil => simp [Stored]
  | cons c l ih =>
    rw [List.cons_append, List.length_cons, stored_cons, stored_cons, ih, and_assoc,
      show p + 1 + l.length = p + (l.length + 1) by omega]

theorem Stored.congr (stored : Stored mem p l) (same : ∀ a, p ≤ a → a < p + l.length → mem' a = mem a) :
    Stored mem' p l := by
  induction l generalizing p with
  | nil => trivial
  | cons c l ih =>
    rw [List.length_cons] at same
    refine ⟨(same p le_rfl (by omega)).trans stored.1, ih stored.2 fun a low high => ?_⟩
    exact same a (by omega) (by omega)

theorem Stored.mem_first (stored : Stored mem p l) (some_ : 0 < l.length) : mem p ∈ l := by
  cases l with
  | nil => cases some_
  | cons c l => exact List.mem_cons.mpr (.inl stored.1)

theorem write_frame (outside : a < dst ∨ dst + l.length ≤ a) : write mem dst l a = mem a := by
  induction l generalizing mem dst with
  | nil => rfl
  | cons c l ih =>
    rw [List.length_cons] at outside
    unfold write
    rw [ih (by omega), Function.update_of_ne (by omega)]

theorem stored_write : Stored (write mem dst l) dst l := by
  induction l generalizing mem dst with
  | nil => trivial
  | cons c l ih =>
    unfold write
    refine ⟨?_, ih⟩
    rw [write_frame (.inl (by omega)), Function.update_self]

end Texts

/-! ### A character -/

section Characters

variable {uc : CodePoint} {mem : Bytes} {p fuel : Nat}

theorem toNat_and_mask {w : Nat} {mask : BitVec w} (k : Nat) (low : mask.toNat = 2 ^ k - 1) (x : BitVec w) :
    (x &&& mask).toNat = x.toNat % 2 ^ k := by
  rw [BitVec.toNat_and, low, Nat.and_two_pow_sub_one_eq_mod]

theorem or_shifted {n : Nat} (k : Nat) (small : n < 2 ^ k) (m : Nat) : m * 2 ^ k ||| n = m * 2 ^ k + n := by
  rw [Nat.mul_comm]
  exact (Nat.two_pow_add_eq_or_of_lt small m).symm

theorem toNat_or_two (a b : Byte) :
    ((a &&& 0x1f).setWidth 16 <<< 6 ||| (b &&& 0x3f).setWidth 16 : CodePoint).toNat =
      a.toNat % 32 * 64 + b.toNat % 64 := by
  have lead : (a.toNat % 2 ^ 5 % 2 ^ 16) * 2 ^ 6 % 2 ^ 16 = a.toNat % 32 * 2 ^ 6 := by omega
  have rest : b.toNat % 2 ^ 6 % 2 ^ 16 = b.toNat % 64 := by omega
  rw [BitVec.toNat_or, BitVec.toNat_shiftLeft, BitVec.toNat_setWidth, BitVec.toNat_setWidth,
    toNat_and_mask 5 rfl, toNat_and_mask 6 rfl, Nat.shiftLeft_eq, lead, rest,
    or_shifted 6 (by omega)]
  rfl

theorem toNat_or_three (a b c : Byte) :
    ((a &&& 0x1f).setWidth 16 <<< 12 ||| (b &&& 0x3f).setWidth 16 <<< 6 ||| (c &&& 0x3f).setWidth 16 :
      CodePoint).toNat = a.toNat % 16 * 4096 + b.toNat % 64 * 64 + c.toNat % 64 := by
  have lead : (a.toNat % 2 ^ 5 % 2 ^ 16) * 2 ^ 12 % 2 ^ 16 = a.toNat % 16 * 2 ^ 12 := by omega
  have mid : (b.toNat % 2 ^ 6 % 2 ^ 16) * 2 ^ 6 % 2 ^ 16 = b.toNat % 64 * 2 ^ 6 := by omega
  have rest : c.toNat % 2 ^ 6 % 2 ^ 16 = c.toNat % 64 := by omega
  have front : a.toNat % 16 * 2 ^ 12 + b.toNat % 64 * 2 ^ 6 =
      (a.toNat % 16 * 64 + b.toNat % 64) * 2 ^ 6 := by omega
  rw [BitVec.toNat_or, BitVec.toNat_or, BitVec.toNat_shiftLeft, BitVec.toNat_shiftLeft,
    BitVec.toNat_setWidth, BitVec.toNat_setWidth, BitVec.toNat_setWidth, toNat_and_mask 5 rfl,
    toNat_and_mask 6 rfl, toNat_and_mask 6 rfl, Nat.shiftLeft_eq, Nat.shiftLeft_eq, lead, mid, rest,
    or_shifted 12 (by omega), front, or_shifted 6 (by omega)]
  omega

theorem ne_zero_of_high {c : Byte} (high : 128 ≤ c.toNat) : c ≠ 0 := by
  rintro rfl
  exact absurd high (by decide)

theorem toInt_of_high (high : 0x7f < uc.toInt) : uc.toInt = uc.toNat ∧ uc.toNat < 0x8000 := by
  have range := uc.isLt
  rw [BitVec.toInt_eq_toNat_cond] at high ⊢
  split_ifs at high ⊢ <;> omega

theorem mark_two : ∀ b : Byte, 192 ≤ b.toNat → b.toNat < 224 → b &&& 0x80 ≠ 0 ∧ b &&& 0xe0 = 0xc0 := by
  decide +kernel

theorem mark_three : ∀ b : Byte, 224 ≤ b.toNat → b.toNat < 240 →
    b &&& 0x80 ≠ 0 ∧ b &&& 0xe0 ≠ 0xc0 ∧ b &&& 0xf0 = 0xe0 := by
  decide +kernel

theorem uc2utf_two (low : 0x80 ≤ uc.toNat) (small : uc.toNat < 0x800) :
    ∃ a b : Byte, uc2utf uc = [a, b] ∧ a.toNat = 192 + uc.toNat / 64 ∧ b.toNat = 128 + uc.toNat % 64 := by
  have positive : uc.toInt = uc.toNat := by
    rw [BitVec.toInt_eq_toNat_cond, if_pos (by omega)]
  refine ⟨_, _, by rw [uc2utf, if_neg (by omega), if_pos (by omega)], ?_, ?_⟩
  · rw [BitVec.toNat_add, BitVec.toNat_setWidth, toNat_and_mask 5 rfl, BitVec.toNat_udiv,
      show (0xc0 : Byte).toNat = 192 from rfl, show (64 : CodePoint).toNat = 64 from rfl]
    omega
  · rw [BitVec.toNat_add, BitVec.toNat_setWidth, toNat_and_mask 6 rfl,
      show (0x80 : Byte).toNat = 128 from rfl]
    omega

theorem uc2utf_three (low : 0x800 ≤ uc.toNat) (small : uc.toNat < 0x8000) :
    ∃ a b c : Byte, uc2utf uc = [a, b, c] ∧ a.toNat = 224 + uc.toNat / 4096 ∧
      b.toNat = 128 + uc.toNat / 64 % 64 ∧ c.toNat = 128 + uc.toNat % 64 := by
  have positive : uc.toInt = uc.toNat := by
    rw [BitVec.toInt_eq_toNat_cond, if_pos (by omega)]
  refine ⟨_, _, _, by rw [uc2utf, if_neg (by omega), if_neg (by omega)], ?_, ?_, ?_⟩
  · rw [BitVec.toNat_add, BitVec.toNat_setWidth, toNat_and_mask 4 rfl, BitVec.toNat_udiv,
      show (0xe0 : Byte).toNat = 224 from rfl, show (4096 : CodePoint).toNat = 4096 from rfl]
    omega
  · rw [BitVec.toNat_add, BitVec.toNat_setWidth, toNat_and_mask 6 rfl, BitVec.toNat_udiv,
      show (0x80 : Byte).toNat = 128 from rfl, show (64 : CodePoint).toNat = 64 from rfl]
    omega
  · rw [BitVec.toNat_add, BitVec.toNat_setWidth, toNat_and_mask 6 rfl,
      show (0x80 : Byte).toNat = 128 from rfl]
    omega

theorem high_of_mem_uc2utf (high : 0x7f < uc.toInt) {c : Byte} (member : c ∈ uc2utf uc) :
    0x80 ≤ c.toNat := by
  obtain ⟨same, small⟩ := toInt_of_high high
  by_cases short : uc.toNat < 0x800
  · obtain ⟨a, b, bytes, first, second⟩ := uc2utf_two (by omega) short
    rw [bytes] at member
    simp only [List.mem_cons, List.not_mem_nil, or_false] at member
    rcases member with rfl | rfl <;> omega
  · obtain ⟨a, b, d, bytes, first, second, third⟩ := uc2utf_three (by omega) small
    rw [bytes] at member
    simp only [List.mem_cons, List.not_mem_nil, or_false] at member
    rcases member with rfl | rfl | rfl <;> omega

/-- **`utf2uc` reads what `uc2utf` has written**, for a code point that counts as positive. -/
theorem utf2uc_uc2utf (high : 0x7f < uc.toInt) (stored : Stored mem p (uc2utf uc)) :
    utf2uc mem fuel p = some (uc, p + (uc2utf uc).length) := by
  obtain ⟨same, small⟩ := toInt_of_high high
  by_cases short : uc.toNat < 0x800
  · obtain ⟨a, b, bytes, first, second⟩ := uc2utf_two (by omega) short
    rw [bytes] at stored ⊢
    obtain ⟨rfl, rfl, -⟩ := stored
    obtain ⟨marked, two⟩ := mark_two (mem p) (by omega) (by omega)
    rw [utf2uc, if_neg marked, if_pos ⟨two, ne_zero_of_high (by omega)⟩]
    refine congrArg (fun uc => some (uc, p + 2)) (BitVec.eq_of_toNat_eq ?_)
    rw [toNat_or_two]
    omega
  · obtain ⟨a, b, c, bytes, first, second, third⟩ := uc2utf_three (by omega) small
    rw [bytes] at stored ⊢
    obtain ⟨rfl, rfl, rfl, -⟩ := stored
    obtain ⟨marked, two, three⟩ := mark_three (mem p) (by omega) (by omega)
    have third' : (mem (p + 2)).toNat = 128 + uc.toNat % 64 := third
    rw [utf2uc, if_neg marked, if_neg fun both => two both.1,
      if_pos ⟨three, ne_zero_of_high (by omega), ne_zero_of_high (by omega)⟩]
    refine congrArg (fun uc => some (uc, p + 3)) (BitVec.eq_of_toNat_eq ?_)
    rw [toNat_or_three]
    omega

end Characters

/-! ### The loops on a text -/

section Loops

variable {cp : codepage} {tl : Option codepage} {mem : Bytes} {ucbuf sptr src dst fuel changes : Nat}
variable {s : List Byte} {b : Byte}

/-- What `codepage_to_unicode` writes for a text. -/
def codepage.encodeAll (cp : codepage) (s : List Byte) : List Byte := s.flatMap cp.encode

def isHigh (c : Byte) : Bool := 0x80 ≤ c.toNat

theorem isHigh_iff : ∀ c : Byte, isHigh c = true ↔ c &&& 0x80 ≠ 0 := by decide +kernel

theorem encode_length_pos (cp : codepage) (c : Byte) : 0 < (cp.encode c).length := by
  unfold codepage.encode uc2utf
  dsimp only
  split_ifs <;> simp

/-- **The loop of `codepage_to_unicode` on a text** that lies apart from the buffer and fits. -/
theorem toUnicode_stores (stored : Stored mem sptr (s ++ [0])) (proper : 0 ∉ s)
    (apart : sptr + s.length < ucbuf ∨ ucbuf + UCBUF_SIZE ≤ sptr) (start : ucbuf ≤ dst)
    (fits : dst + (cp.encodeAll s).length < ucbuf + UCBUF_SIZE) (enough : s.length < fuel) :
    ∃ mem', cp.toUnicode ucbuf fuel mem sptr dst = some mem' ∧
      Stored mem' dst (cp.encodeAll s ++ [0]) ∧ ∀ a < dst, mem' a = mem a := by
  induction s generalizing mem sptr dst fuel with
  | nil =>
    obtain ⟨fuel, rfl⟩ := Nat.exists_eq_add_one_of_ne_zero (by omega : fuel ≠ 0)
    refine ⟨Function.update mem dst 0, ?_, ⟨Function.update_self .., trivial⟩,
      fun a below => Function.update_of_ne (by omega) ..⟩
    rw [codepage.toUnicode, if_neg fun both => both.1 stored.1]
  | cons c rest ih =>
    obtain ⟨fuel, rfl⟩ := Nat.exists_eq_add_one_of_ne_zero (by omega : fuel ≠ 0)
    have here : mem sptr = c := stored.1
    have behind : Stored mem (sptr + 1) (rest ++ [0]) := stored.2
    rw [List.mem_cons, not_or] at proper
    rw [List.length_cons] at apart enough
    have all : cp.encodeAll (c :: rest) = cp.encode c ++ cp.encodeAll rest := List.flatMap_cons
    rw [all, List.length_append] at fits
    have some_ := encode_length_pos cp c
    have keeps : Stored (write mem dst (cp.encode c)) (sptr + 1) (rest ++ [0]) := by
      refine behind.congr fun a low high => write_frame ?_
      rw [List.length_append, List.length_singleton] at high
      omega
    obtain ⟨mem', result, text, frame⟩ := ih keeps proper.2 (by omega)
      (by omega : ucbuf ≤ dst + (cp.encode c).length) (by omega) (by omega : rest.length < fuel)
    refine ⟨mem', ?_, ?_, fun a below => ?_⟩
    · rw [codepage.toUnicode, if_pos ⟨by rw [here]; exact Ne.symm proper.1, by omega⟩, here]
      exact result
    · rw [all, List.append_assoc, stored_append]
      have written : Stored (write mem dst (cp.encode c)) dst (cp.encode c) := stored_write
      exact ⟨written.congr fun a low high => frame a high, text⟩
    · rw [frame a (by omega), write_frame (.inl below)]

/-- A byte that comes back: ASCII, or a byte whose code point counts as positive and leads back. -/
def codepage.Returns (cp : codepage) (c : Byte) : Prop :=
  isHigh c = true → 0x7f < (cp.c2u (c.setWidth 7)).toInt ∧
    cp.own (cp.c2u (c.setWidth 7)) = some (.byte c)

variable (tl changes) in
/-- **The loop of `unicode_to_codepage`** that writes over what it has read. -/
theorem fromUnicode_stores (returns : ∀ c ∈ s, cp.Returns c) (proper : 0 ∉ s)
    (stored : Stored mem src (cp.encodeAll s ++ [0])) (start : ucbuf ≤ dst) (behind : dst ≤ src)
    (fits : src + (cp.encodeAll s).length < ucbuf + UCBUF_SIZE) (enough : s.length < fuel) :
    ∃ mem', fromUnicode cp tl ucbuf fuel mem src dst changes =
        some (mem', dst + s.length, changes + s.countP isHigh) ∧
      Stored mem' dst s ∧ ∀ a, a < dst ∨ dst + s.length ≤ a → mem' a = mem a := by
  induction s generalizing mem src dst fuel changes with
  | nil =>
    obtain ⟨fuel, rfl⟩ := Nat.exists_eq_add_one_of_ne_zero (by omega : fuel ≠ 0)
    refine ⟨mem, ?_, trivial, fun _ _ => rfl⟩
    rw [fromUnicode, if_neg fun both => both.1 stored.1]
    rfl
  | cons c rest ih =>
    obtain ⟨fuel, rfl⟩ := Nat.exists_eq_add_one_of_ne_zero (by omega : fuel ≠ 0)
    rw [List.mem_cons, not_or] at proper
    rw [List.length_cons] at enough
    have all : cp.encodeAll (c :: rest) = cp.encode c ++ cp.encodeAll rest := List.flatMap_cons
    rw [all, List.append_assoc, stored_append] at stored
    rw [all, List.length_append] at fits
    have later : ∀ d ∈ rest, cp.Returns d := fun d member => returns d (List.mem_cons_of_mem _ member)
    -- what remains after the byte is written to `dst`, with the rest of the text from `next` on
    have step : ∀ next changes', dst + 1 ≤ next → next = src + (cp.encode c).length →
        ∃ mem', fromUnicode cp tl ucbuf fuel (Function.update mem dst c) next (dst + 1) changes' =
          some (mem', dst + (rest.length + 1), changes' + rest.countP isHigh) ∧
        Stored mem' dst (c :: rest) ∧
          ∀ a, a < dst ∨ dst + (rest.length + 1) ≤ a → mem' a = mem a := by
      rintro next changes' ahead rfl
      have keeps : Stored (Function.update mem dst c) (src + (cp.encode c).length)
          (cp.encodeAll rest ++ [0]) :=
        stored.2.congr fun a low high => Function.update_of_ne (by omega) ..
      obtain ⟨mem', result, text, frame⟩ := @ih _ _ _ _ changes' later proper.2 keeps
        (by omega : ucbuf ≤ dst + 1) ahead (by omega) (by omega : rest.length < fuel)
      refine ⟨mem', ?_, ⟨?_, text⟩, fun a outside => ?_⟩
      · rw [result, show dst + 1 + rest.length = dst + (rest.length + 1) by omega]
      · rw [frame dst (.inl (by omega)), Function.update_self]
      · rw [frame a (by omega), Function.update_of_ne (by omega)]
    have room : dst < ucbuf + UCBUF_SIZE := by omega
    rw [List.countP_cons, List.length_cons]
    cases high : isHigh c with
    | false =>
      have low : c &&& 0x80 = 0 := by
        by_contra marked
        rw [(isHigh_iff c).mpr marked] at high
        cases high
      have bytes : cp.encode c = [c] := if_pos low
      have here : mem src = c := by rw [bytes] at stored; exact stored.1.1
      have small : (mem src).toNat < 0x80 := by
        rw [here]
        exact not_le.mp (of_decide_eq_false high)
      rw [fromUnicode, if_pos ⟨by rw [here]; exact Ne.symm proper.1, fun _ => room⟩, if_pos small, here]
      simp only [Bool.false_eq_true, if_false, Nat.add_zero]
      exact step (src + 1) changes (by omega) (by rw [bytes]; rfl)
    | true =>
      obtain ⟨big, own⟩ := returns c List.mem_cons_self high
      have bytes : cp.encode c = uc2utf (cp.c2u (c.setWidth 7)) := by
        rw [codepage.encode, if_neg ((isHigh_iff c).mp high)]
        exact if_pos big
      have text := stored.1
      rw [bytes] at text
      have first : 0x80 ≤ (mem src).toNat :=
        high_of_mem_uc2utf big (text.mem_first (bytes ▸ encode_length_pos cp c))
      have converted : convert cp tl (cp.c2u (c.setWidth 7)) = .byte c := by
        rw [convert, own]
        rfl
      rw [fromUnicode, if_pos ⟨ne_zero_of_high first, fun _ => room⟩, if_neg (not_lt.mpr first),
        utf2uc_uc2utf big text]
      simp only [Option.bind_some, converted, if_true]
      rw [show changes + (rest.countP isHigh + 1) = changes + 1 + rest.countP isHigh by omega]
      have some_ := encode_length_pos cp c
      exact step _ (changes + 1) (by rw [← bytes]; omega) (by rw [bytes])

end Loops

/-! ### There and back -/

section RoundTrip

variable {cp : codepage} {used : Byte → Prop} {c : Byte} {s : List Byte}

/-- The two tables are inverse to each other on the bytes that are used. -/
structure codepage.MutuallyInverse (cp : codepage) (used : Byte → Prop) : Prop where
  back : ∀ c, used c → isHigh c = true → cp.own (cp.c2u (c.setWidth 7)) = some (.byte c)
  forth : ∀ c uc, used c → isHigh c = true → cp.own uc = some (.byte c) → cp.c2u (c.setWidth 7) = uc

/-- The length of the UTF-8 form of a byte. -/
def codepage.utf8Size (cp : codepage) (c : Byte) : Nat :=
  if isHigh c then
    let uc := (cp.c2u (c.setWidth 7)).toNat
    if uc < 0x80 then 1 else if uc < 0x800 then 2 else 3
  else 1

/-- Every text over the bytes that are used, at any place apart from the buffer, comes back, whatever
other code pages are loaded. -/
def codepage.RoundTrips (cp : codepage) (used : Byte → Prop) : Prop :=
  ∀ (cps : Codepages) (codepage_translit cpidx : Int) (ucbuf : Nat) (mem : Bytes) (src : Nat)
    (s : List Byte),
    cps.at cpidx = some (some cp) → (∀ c ∈ s, used c) → 0 ∉ s →
    (s.map cp.utf8Size).sum < UCBUF_SIZE →
    (src + s.length < ucbuf ∨ ucbuf + UCBUF_SIZE ≤ src) → Stored mem src (s ++ [0]) →
    ∃ enough, ∀ fuel ≥ enough, ∃ mem' p,
      ((codepage_to_unicode cps ucbuf fuel mem src cpidx).bind fun (mem, p) =>
        unicode_to_codepage cps codepage_translit ucbuf fuel mem p cpidx) = some (mem', p) ∧
      Stored mem' p (s ++ [0])

theorem codepage_to_unicode_eq {cps : Codepages} {ucbuf fuel : Nat} {mem : Bytes} {src : Nat} {cpidx : Int}
    (loaded : cps.at cpidx = some (some cp)) : codepage_to_unicode cps ucbuf fuel mem src cpidx =
      (cp.toUnicode ucbuf fuel mem src ucbuf).map fun mem => (mem, ucbuf) := by
  unfold codepage_to_unicode
  rw [loaded]

/-- What `unicode_to_codepage` leaves when its loop has ended. -/
def fromUnicodeEnd (ucbuf source : Nat) : Bytes × Nat × Nat → Bytes × Nat
  | (mem, dst, changes) =>
    if changes = 0 then (mem, source)
    else (Function.update (Function.update mem dst 0) (ucbuf + UCBUF_SIZE - 1) 0, ucbuf)

theorem unicode_to_codepage_eq {cps : Codepages} {codepage_translit : Int} {ucbuf fuel : Nat}
    {mem : Bytes} {source : Nat} {cpidx : Int} (loaded : cps.at cpidx = some (some cp))
    (table : ¬ (cp.u2c = none ∧ cp.u2i = none)) :
    unicode_to_codepage cps codepage_translit ucbuf fuel mem source cpidx =
      (fromUnicode cp (if codepage_translit = cpidx then none else (cps.at codepage_translit).join)
        ucbuf fuel mem source ucbuf 0).map (fromUnicodeEnd ucbuf source) := by
  unfold unicode_to_codepage
  rw [loaded]
  exact if_neg table

theorem encode_of_not_high (low : isHigh c = false) : cp.encode c = [c] := by
  refine if_pos ?_
  by_contra marked
  rw [(isHigh_iff c).mpr marked] at low
  cases low

theorem encode_length (returns : cp.Returns c) : (cp.encode c).length = cp.utf8Size c := by
  unfold codepage.utf8Size
  cases high : isHigh c with
  | false => rw [encode_of_not_high high]; rfl
  | true =>
    obtain ⟨big, -⟩ := returns high
    obtain ⟨same, small⟩ := toInt_of_high big
    rw [codepage.encode, if_neg ((isHigh_iff c).mp high)]
    simp only [big, if_true]
    rw [if_neg (by omega)]
    by_cases short : (cp.c2u (c.setWidth 7)).toNat < 0x800
    · obtain ⟨a, b, bytes, -⟩ := uc2utf_two (by omega) short
      rw [bytes, if_pos short]
      rfl
    · obtain ⟨a, b, d, bytes, -⟩ := uc2utf_three (by omega) small
      rw [bytes, if_neg short]
      rfl

theorem encodeAll_length (returns : ∀ c ∈ s, cp.Returns c) :
    (cp.encodeAll s).length = (s.map cp.utf8Size).sum := by
  unfold codepage.encodeAll
  rw [List.length_flatMap]
  exact congrArg List.sum (List.map_congr_left fun c member => encode_length (returns c member))

theorem encodeAll_of_ascii (ascii : s.countP isHigh = 0) : cp.encodeAll s = s := by
  induction s with
  | nil => rfl
  | cons c rest ih =>
    rw [List.countP_eq_zero] at ascii
    have low : isHigh c = false := by simpa using ascii c List.mem_cons_self
    have all : cp.encodeAll (c :: rest) = cp.encode c ++ cp.encodeAll rest := List.flatMap_cons
    rw [all, encode_of_not_high low, ih (List.countP_eq_zero.mpr fun d member =>
      ascii d (List.mem_cons_of_mem _ member))]
    rfl

theorem length_le_encodeAll (cp : codepage) (s : List Byte) : s.length ≤ (cp.encodeAll s).length := by
  induction s with
  | nil => exact le_rfl
  | cons c rest ih =>
    have all : cp.encodeAll (c :: rest) = cp.encode c ++ cp.encodeAll rest := List.flatMap_cons
    have some_ := encode_length_pos cp c
    rw [all, List.length_append, List.length_cons]
    omega

theorem own_byte_isSome {uc : CodePoint} (own : cp.own uc = some (.byte c)) : cp.u2c ≠ none := by
  intro none_
  unfold codepage.own at own
  rw [none_] at own
  dsimp only at own
  split_ifs at own
  cases own

theorem own_cases (table : cp.u2c ≠ none) (uc : CodePoint) :
    cp.own uc = none ∨ ∃ d, cp.own uc = some (.byte d) := by
  unfold codepage.own
  cases found : cp.u2c with
  | none => exact absurd found table
  | some u2c =>
    dsimp only
    split_ifs
    · exact .inr ⟨_, rfl⟩
    · exact .inl rfl
    · exact .inl rfl

theorem roundTrips_of_returns (returns : ∀ c, used c → cp.Returns c) : cp.RoundTrips used := by
  intro cps codepage_translit cpidx ucbuf mem src s loaded bytes proper fits apart stored
  have each : ∀ c ∈ s, cp.Returns c := fun c member => returns c (bytes c member)
  refine ⟨s.length + 1, fun fuel enough => ?_⟩
  have room : (cp.encodeAll s).length < UCBUF_SIZE := by rwa [encodeAll_length each]
  obtain ⟨mem₁, result₁, text₁, -⟩ := toUnicode_stores stored proper apart (le_refl ucbuf)
    (by omega : ucbuf + (cp.encodeAll s).length < ucbuf + UCBUF_SIZE) (by omega : s.length < fuel)
  rw [codepage_to_unicode_eq loaded, result₁, Option.map_some, Option.bind_some]
  by_cases transparent : cp.u2c = none ∧ cp.u2i = none
  · have ascii : s.countP isHigh = 0 := by
      refine List.countP_eq_zero.mpr fun c member high => ?_
      exact own_byte_isSome (each c member high).2 transparent.1
    rw [encodeAll_of_ascii ascii] at text₁
    refine ⟨mem₁, ucbuf, ?_, text₁⟩
    unfold unicode_to_codepage
    rw [loaded]
    exact if_pos transparent
  · dsimp only
    rw [unicode_to_codepage_eq loaded transparent]
    generalize (if codepage_translit = cpidx then none else (cps.at codepage_translit).join) = tl
    obtain ⟨mem₂, result₂, text₂, frame⟩ := fromUnicode_stores tl 0 each proper
      text₁ (le_refl ucbuf) (le_refl ucbuf) (by omega) (by omega : s.length < fuel)
    rw [result₂, Option.map_some, Nat.zero_add]
    unfold fromUnicodeEnd
    by_cases ascii : s.countP isHigh = 0
    · refine ⟨mem₂, ucbuf, congrArg some (if_pos ascii), stored_append.mpr ⟨text₂, ?_, trivial⟩⟩
      rw [encodeAll_of_ascii ascii] at text₁
      rw [frame _ (.inr le_rfl)]
      exact (stored_append.mp text₁).2.1
    · refine ⟨_, ucbuf, congrArg some (if_neg ascii), stored_append.mpr ⟨?_, ?_, trivial⟩⟩
      · refine text₂.congr fun a low high => ?_
        have short := length_le_encodeAll cp s
        rw [Function.update_of_ne (by omega), Function.update_of_ne (by omega)]
      · by_cases last : ucbuf + s.length = ucbuf + UCBUF_SIZE - 1
        · rw [last, Function.update_self]
        · rw [Function.update_of_ne last, Function.update_self]

/-- The loop of `unicode_to_codepage` on a byte that no character begins with. -/
theorem fromUnicode_stray {mem : Bytes} {x d : Byte} {fuel : Nat} (text : Stored mem 0 [x, 0])
    (high : 0x80 ≤ x.toNat) (converted : convert cp none 0 = .byte d) :
    fromUnicode cp none 0 (fuel + 3) mem 0 0 0 = some (Function.update mem 0 d, 1, 1) := by
  obtain ⟨here, next, -⟩ := text
  have next : mem 1 = 0 := next
  have marked : mem 0 &&& 0x80 ≠ 0 := (isHigh_iff _).mp (by rw [here]; exact decide_eq_true high)
  have read : utf2uc mem (fuel + 3) 0 = some (0, 1) := by
    rw [utf2uc, if_neg marked, if_neg fun both => both.2 next, if_neg fun both => both.2.1 next, skipTail,
      Nat.zero_add, next, if_neg (by decide)]
    rfl
  rw [fromUnicode, if_pos ⟨by rw [here]; exact ne_zero_of_high high, fun _ => by decide⟩,
    if_neg (by rw [here]; omega), read]
  simp only [Option.bind_some, converted, Converted.put]
  rw [fromUnicode, if_neg fun both => both.1 (by rw [Function.update_of_ne (by decide), next])]

theorem fromUnicode_ascii {mem : Bytes} {x : Byte} {fuel : Nat} (text : Stored mem 0 [x, 0])
    (low : x.toNat < 0x80) : fromUnicode cp none 0 (fuel + 3) mem 0 0 0 =
      some (mem, if x = 0 then 0 else 1, 0) := by
  obtain ⟨here, next, -⟩ := text
  have next : mem 1 = 0 := next
  by_cases zero : x = 0
  · rw [fromUnicode, if_neg fun both => both.1 (here.trans zero), if_pos zero]
  · have same : Function.update mem 0 (mem 0) = mem := Function.update_eq_self ..
    rw [fromUnicode, if_pos ⟨by rwa [here], fun _ => by decide⟩, if_pos (by rwa [here]), same, Nat.zero_add,
      fromUnicode, if_neg fun both => both.1 next, if_neg zero]

theorem not_roundTrips_of_low (inverse : cp.MutuallyInverse used) (member : used c) (high : isHigh c = true)
    (low : (cp.c2u (c.setWidth 7)).toInt ≤ 0x7f) : ¬ cp.RoundTrips used := by
  intro returns
  have own := inverse.back c member high
  have proper : (0 : Byte) ∉ [c] := by
    rw [List.mem_singleton]
    rintro rfl
    exact absurd high (by decide)
  obtain ⟨x, x_eq⟩ : ∃ x : Byte, x =
    if cp.c2u (c.setWidth 7) = 0 then 63 else (cp.c2u (c.setWidth 7)).setWidth 8 := ⟨_, rfl⟩
  have all : cp.encodeAll [c] = [x] := by
    unfold codepage.encodeAll
    rw [List.flatMap_singleton, codepage.encode, if_neg ((isHigh_iff c).mp high), x_eq]
    exact if_neg (by omega)
  have size : ([c].map cp.utf8Size).sum < UCBUF_SIZE := by
    have small : cp.utf8Size c ≤ 3 := by
      unfold codepage.utf8Size
      dsimp only
      split_ifs <;> omega
    exact lt_of_le_of_lt (by simpa using small) (by decide : 3 < UCBUF_SIZE)
  have stored : Stored (Function.update (fun _ => 0) 1024 c) 1024 ([c] ++ [0]) :=
    ⟨Function.update_self .., Function.update_of_ne (by decide) .., trivial⟩
  obtain ⟨enough, result⟩ := returns (fun _ => some cp) (-1) 0 0 _ 1024 [c] rfl (by simpa using member)
    proper size (.inr le_rfl) stored
  obtain ⟨mem', p, run, text⟩ := result (enough + 3) (by omega)
  obtain ⟨mem₁, result₁, text₁, -⟩ := toUnicode_stores stored proper (.inr le_rfl) (le_refl 0)
    (by rw [all]; exact (by decide : 0 + 1 < 0 + UCBUF_SIZE) : 0 + (cp.encodeAll [c]).length < 0 + UCBUF_SIZE)
    (by simp : [c].length < enough + 3)
  have loaded : Codepages.at (fun _ => some cp) 0 = some (some cp) := rfl
  have alone : (if (-1 : Int) = 0 then none else (Codepages.at (fun _ => some cp) (-1)).join) = none := rfl
  rw [codepage_to_unicode_eq loaded, result₁, Option.map_some, Option.bind_some] at run
  dsimp only at run
  rw [unicode_to_codepage_eq loaded fun both => own_byte_isSome own both.1, alone] at run
  rw [all] at text₁
  by_cases plain : x.toNat < 0x80
  · rw [fromUnicode_ascii text₁ plain] at run
    obtain ⟨rfl, rfl⟩ := Prod.mk.inj (Option.some.inj run)
    have same : x = c := text₁.1.symm.trans text.1
    rw [same] at plain
    exact absurd (of_decide_eq_true high) (not_le.mpr plain)
  · obtain ⟨d, converted, differs⟩ : ∃ d, convert cp none 0 = .byte d ∧ d ≠ c := by
      rcases own_cases (own_byte_isSome own) 0 with none_ | ⟨d, own'⟩
      · refine ⟨63, by rw [convert, none_]; rfl, ?_⟩
        rintro rfl
        exact absurd high (by decide)
      · refine ⟨d, by rw [convert, own']; rfl, ?_⟩
        rintro rfl
        rw [inverse.forth _ 0 member high own', if_pos rfl] at x_eq
        rw [x_eq] at plain
        exact plain (by decide)
    rw [fromUnicode_stray text₁ (by omega) converted] at run
    obtain ⟨rfl, rfl⟩ := Prod.mk.inj (Option.some.inj run)
    refine differs (Eq.symm (text.1.symm.trans ?_))
    rw [Function.update_of_ne (by decide), Function.update_of_ne (by decide), Function.update_self]

/-- **When texts come back**, for tables that are inverse to each other: all code points count as
positive. -/
theorem codepage_roundTrip_iff (inverse : cp.MutuallyInverse used) :
    cp.RoundTrips used ↔ ∀ c, used c → isHigh c = true → 0x7f < (cp.c2u (c.setWidth 7)).toInt := by
  constructor
  · intro returns c member high
    by_contra low
    exact not_roundTrips_of_low inverse member high (by omega) returns
  · exact fun positive => roundTrips_of_returns fun c member high =>
      ⟨positive c member high, inverse.back c member high⟩

def singlePage (c : Byte) (uc : CodePoint) : codepage :=
  { c2u := fun _ => uc, first := uc, last := uc, u2c := some [c], u2i := none, u2s := [], before := fun _ => 0 }

theorem singlePage_inverse {uc : CodePoint} (proper : c ≠ 0) :
    (singlePage c uc).MutuallyInverse (· = c) := by
  have own : (singlePage c uc).own uc = some (.byte c) := by
    simp only [singlePage, codepage.own, codepage.covers, codepage.index, Int.le_refl, decide_true,
      Bool.and_self, if_true, Int.sub_self, Int.toNat_zero, List.getD_cons_zero]
    exact if_pos proper
  constructor
  · rintro d rfl -
    exact own
  · rintro d other rfl - found
    have covered : (singlePage d uc).covers other = true := by
      by_contra outside
      rw [codepage.own, if_neg outside] at found
      cases found
    obtain ⟨low, high⟩ := Bool.and_eq_true_iff.mp covered
    have least : uc.toInt ≤ other.toInt := of_decide_eq_true low
    have most : other.toInt ≤ uc.toInt := of_decide_eq_true high
    exact BitVec.eq_of_toInt_eq (show uc.toInt = other.toInt by omega)

theorem codepage_roundTrip_sample : (singlePage 0x80 0x20ac).RoundTrips (· = 0x80) :=
  (codepage_roundTrip_iff (singlePage_inverse (by decide))).mpr fun _ _ _ =>
    (by decide : (0x7f : Int) < (0x20ac : CodePoint).toInt)

/-- The first code point that counts as negative. -/
theorem not_codepage_roundTrip :
    ¬ ∀ (cp : codepage) (used : Byte → Prop), cp.MutuallyInverse used → cp.RoundTrips used := by
  intro returns
  have inverse : (singlePage 0x80 0x8000).MutuallyInverse (· = 0x80) := singlePage_inverse (by decide)
  exact not_roundTrips_of_low inverse rfl (by decide) (by decide) (returns _ _ inverse)

end RoundTrip

end PtlinkIrcd
