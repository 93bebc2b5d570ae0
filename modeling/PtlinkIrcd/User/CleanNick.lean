/-
**Nicks.**

`clean_nick_name`, for each of the sets of characters that a server can be configured with, and the
lines of `m_nick` which reject a nick that it changes.

* `hangulCut_again` — the loop over the Korean characters changes nothing the second time.
* `clean_nick_name_again` — a nick cleaned a second time; `m_nick_cleaned` — it is taken from a server.
* `stableNick_iff` — **when every server takes a nick as it is**; `not_stableNick` — three bytes behind 18.
-/

import PtlinkIrcd.Model.State
import PtlinkIrcd.User.Utf8Nick
import Mathlib.Data.List.TakeWhile

namespace PtlinkIrcd.Ircd

open Lib (WellFormed encodeChar)

/-! ### The sets of characters -/

def NICK_C : BitVec 32 := 0x040
def DIGIT_C : BitVec 32 := 0x010

/-- The sets that `configure` chooses between. The table of the UTF-8 one has 250 entries: `beyond` is
what is read behind it. -/
inductive Charset
  | ascii
  | hebrew
  | korean
  | utf8 (beyond : Byte → BitVec 32)

namespace Charset

def isNickChar (cs : Charset) (c : Byte) : Bool :=
  c == 0x2d || (0x30 ≤ c && c ≤ 0x39) || (0x41 ≤ c && c ≤ 0x5b) || (0x5d ≤ c && c ≤ 0x7d) ||
    match cs with
    | .ascii => false
    | .hebrew => 0xe0 ≤ c && c ≤ 0xfa
    | .korean => 0xa1 ≤ c && c ≤ 0xfe
    | .utf8 beyond => (0x80 ≤ c && c ≤ 0xf8) || (0xfa ≤ c && beyond c &&& NICK_C ≠ 0)

def isDigit (cs : Charset) (c : Byte) : Bool :=
  (0x30 ≤ c && c ≤ 0x39) ||
    match cs with
    | .utf8 beyond => 0xfa ≤ c && beyond c &&& DIGIT_C ≠ 0
    | _ => false

end Charset

/-! ### Korean characters -/

def isHangul (c : Byte) : Bool := 0xa1 ≤ c && c ≤ 0xfe

inductive HangulStatus
  | ASCII
  | HANGUL_BYTE_1
  | HANGUL_BYTE_2
  deriving DecidableEq

/-- The loop over the Korean characters, from `status` behind the bytes `kept`. -/
def hangulCut : HangulStatus → List Byte → List Byte → List Byte
  | status, kept, [] => if status = .HANGUL_BYTE_1 then kept.dropLast else kept
  | status, kept, ch :: rest =>
    if ¬ isHangul ch then hangulCut .ASCII (kept ++ [ch]) rest
    else if status = .HANGUL_BYTE_1 then
      let hcode : BitVec 16 := kept.getLastD 0 ++ ch
      if 0xa1a1 ≤ hcode ∧ hcode ≤ 0xacfe then kept.dropLast
      else hangulCut .HANGUL_BYTE_2 (kept ++ [ch]) rest
    else hangulCut .HANGUL_BYTE_1 (kept ++ [ch]) rest

/-! ### `clean_nick_name` -/

namespace Charset

/-- `*nick == '-' || IsDigit(*nick)`. -/
def badFirst (cs : Charset) (nick : List Byte) : Bool :=
  match nick with
  | [] => false
  | c :: _ => c == 0x2d || cs.isDigit c

/-- The characters that a nick begins with, up to the longest nick. -/
def nickChars (cs : Charset) (nick : List Byte) : List Byte := (nick.take NICKLEN).takeWhile cs.isNickChar

def cut (cs : Charset) (nick : List Byte) : List Byte :=
  match cs with
  | .ascii | .hebrew => nick
  | .korean => hangulCut .ASCII [] nick
  | .utf8 _ => utf8Cut NICKLEN nick

/-- `clean_nick_name`: what it returns, and the nick that it leaves. -/
def clean_nick_name (cs : Charset) (nick : List Byte) : Nat × List Byte :=
  if cs.badFirst nick then (0, nick)
  else
    let nick := cs.cut (cs.nickChars nick)
    (nick.length, nick)

/-- The nick that `m_nick` takes from its parameter, if it takes it: for the server's own clients the
parameter ends at the first `~`, and from a server the nick has to be the parameter. -/
def m_nick (cs : Charset) (own server : Bool) (parv : List Byte) : Option (List Byte) :=
  let parv := if own then parv.takeWhile (· ≠ 0x7e) else parv
  let cleaned := cs.clean_nick_name (parv.take NICKLEN)
  if cleaned.1 = 0 ∨ (server ∧ cleaned.2 ≠ parv) then none else some cleaned.2

end Charset

/-! ### Korean characters, cleaned twice -/

section Hangul

variable {status s : HangulStatus} {kept rest : List Byte}

theorem hangulCut_isPrefix (status : HangulStatus) (kept rest : List Byte) :
    hangulCut status kept rest <+: kept ++ rest := by
  induction rest generalizing status kept with
  | nil =>
    rw [hangulCut, List.append_nil]
    split_ifs
    · exact List.dropLast_prefix kept
    · exact List.prefix_refl kept
  | cons ch rest ih =>
    have step : ∀ s, hangulCut s (kept ++ [ch]) rest <+: kept ++ ch :: rest := by
      intro s
      have longer := ih s (kept ++ [ch])
      rwa [List.append_assoc] at longer
    rw [hangulCut]
    dsimp only
    split_ifs
    · exact (List.dropLast_prefix kept).trans (List.prefix_append kept _)
    · exact step _
    · exact step _
    · exact step _

/-- The loop comes to `status` behind the bytes `kept`, whatever is behind them. -/
def Reaches (status : HangulStatus) (kept : List Byte) : Prop :=
  ∀ rest, hangulCut .ASCII [] (kept ++ rest) = hangulCut status kept rest

/-- Within a character, what is before it is a nick that the loop leaves as it is. -/
def Between (status : HangulStatus) (kept : List Byte) : Prop :=
  status = .HANGUL_BYTE_1 → ∃ s, s ≠ .HANGUL_BYTE_1 ∧ Reaches s kept.dropLast

theorem Reaches.fixed (reaches : Reaches status kept) (whole : status ≠ .HANGUL_BYTE_1) :
    hangulCut .ASCII [] kept = kept := by
  have here := reaches []
  rwa [List.append_nil, hangulCut, if_neg whole] at here

theorem Reaches.step {ch : Byte} (reaches : Reaches status kept)
    (step : ∀ rest, hangulCut status kept (ch :: rest) = hangulCut s (kept ++ [ch]) rest) :
    Reaches s (kept ++ [ch]) := by
  intro rest
  rw [List.append_assoc, ← step rest]
  exact reaches (ch :: rest)

/-- **Korean characters cleaned twice.** The induction is over what is behind the bytes that the loop has
passed. -/
theorem hangulCut_fixed (reaches : Reaches status kept) (between : Between status kept) :
    hangulCut .ASCII [] (hangulCut status kept rest) = hangulCut status kept rest := by
  induction rest generalizing status kept with
  | nil =>
    rw [hangulCut]
    split_ifs with first
    · obtain ⟨s, whole, before⟩ := between first
      exact before.fixed whole
    · exact reaches.fixed first
  | cons ch rest ih =>
    by_cases hangul : isHangul ch = true
    · by_cases first : status = .HANGUL_BYTE_1
      · by_cases special : 0xa1a1 ≤ (kept.getLastD 0 ++ ch : BitVec 16) ∧ (kept.getLastD 0 ++ ch : BitVec 16) ≤ 0xacfe
        · obtain ⟨s, whole, before⟩ := between first
          rw [hangulCut, if_neg (not_not.mpr hangul), if_pos first]
          dsimp only
          rw [if_pos special]
          exact before.fixed whole
        · have step : ∀ rest, hangulCut status kept (ch :: rest) =
              hangulCut .HANGUL_BYTE_2 (kept ++ [ch]) rest := by
            intro rest
            rw [hangulCut, if_neg (not_not.mpr hangul), if_pos first]
            dsimp only
            rw [if_neg special]
          rw [step]
          exact ih (reaches.step step) nofun
      · have step : ∀ rest, hangulCut status kept (ch :: rest) =
            hangulCut .HANGUL_BYTE_1 (kept ++ [ch]) rest := by
          intro rest
          rw [hangulCut, if_neg (not_not.mpr hangul), if_neg first]
        rw [step]
        refine ih (reaches.step step) fun _ => ⟨status, first, ?_⟩
        rwa [List.dropLast_concat]
    · have step : ∀ rest, hangulCut status kept (ch :: rest) = hangulCut .ASCII (kept ++ [ch]) rest := by
        intro rest
        rw [hangulCut, if_pos hangul]
      rw [step]
      exact ih (reaches.step step) nofun

theorem hangulCut_again (nick : List Byte) :
    hangulCut .ASCII [] (hangulCut .ASCII [] nick) = hangulCut .ASCII [] nick :=
  hangulCut_fixed (fun _ => rfl) nofun

end Hangul

/-! ### A nick cleaned a second time -/

section Again

variable {cs : Charset} {nick front l : List Byte} {beyond : Byte → BitVec 32}

namespace Charset

theorem cut_isPrefix (cs : Charset) (l : List Byte) : cs.cut l <+: l := by
  cases cs with
  | ascii | hebrew => exact List.prefix_refl l
  | korean => exact hangulCut_isPrefix .ASCII [] l
  | utf8 beyond => exact utf8Cut_isPrefix NICKLEN l

theorem mem_nickChars {c : Byte} (member : c ∈ cs.nickChars nick) : cs.isNickChar c = true :=
  List.mem_takeWhile_imp member

theorem length_nickChars : (cs.nickChars nick).length ≤ NICKLEN :=
  ((List.takeWhile_prefix _).length_le).trans (List.length_take_le ..)

theorem zero_notMem_nickChars : 0 ∉ cs.nickChars nick := by
  intro member
  have nickChar := mem_nickChars member
  revert nickChar
  cases cs <;> simp [isNickChar]

theorem nickChars_of_isPrefix (front_ : front <+: cs.nickChars nick) : cs.nickChars front = front := by
  unfold nickChars
  rw [List.take_of_length_le (front_.length_le.trans length_nickChars), List.takeWhile_eq_self_iff]
  exact fun c member => mem_nickChars (front_.subset member)

theorem badFirst_eq_of_isPrefix (front_ : front <+: nick) (some_ : front ≠ []) :
    cs.badFirst front = cs.badFirst nick := by
  obtain ⟨rest, rfl⟩ := front_
  cases front with
  | nil => exact absurd rfl some_
  | cons c front => rfl

theorem nickChars_isPrefix (cs : Charset) (nick : List Byte) : cs.nickChars nick <+: nick :=
  (List.takeWhile_prefix _).trans (List.take_prefix ..)

theorem badFirst_of_isPrefix (front_ : front <+: nick) (good : cs.badFirst nick = false) :
    cs.badFirst front = false := by
  by_cases some_ : front = []
  · rw [some_]
    rfl
  · rw [badFirst_eq_of_isPrefix front_ some_, good]

theorem nickChars_takeWhile {p : Byte → Bool} (nickChar : ∀ c, cs.isNickChar c = true → p c = true) :
    cs.nickChars (nick.takeWhile p) = cs.nickChars nick := by
  unfold nickChars
  generalize NICKLEN = n
  induction nick generalizing n with
  | nil => rfl
  | cons c nick ih =>
    cases n with
    | zero => rw [List.take_zero, List.take_zero]
    | succ n =>
      by_cases other : p c = true
      · rw [List.takeWhile_cons_of_pos other, List.take_succ_cons, List.take_succ_cons, List.takeWhile_cons,
          List.takeWhile_cons, ih]
      · rw [List.takeWhile_cons_of_neg other, List.take_succ_cons,
          List.takeWhile_cons_of_neg (mt (nickChar c) other)]
        rfl

theorem clean_nick_name_of_good (good : cs.badFirst nick = false) :
    cs.clean_nick_name nick =
      ((cs.cut (cs.nickChars nick)).length, cs.cut (cs.nickChars nick)) := by
  unfold clean_nick_name
  rw [good]
  rfl

theorem good_of_accepted (accepted : (cs.clean_nick_name nick).1 ≠ 0) : cs.badFirst nick = false := by
  by_contra bad
  unfold clean_nick_name at accepted
  rw [if_pos (eq_true_of_ne_false bad)] at accepted
  exact accepted rfl

/-- **A nick cleaned a second time**: only what the loop of the set of characters does once more. -/
theorem clean_nick_name_again (good : cs.badFirst nick = false)
    (fixed : cs.cut (cs.cut (cs.nickChars nick)) = cs.cut (cs.nickChars nick)) :
    cs.clean_nick_name (cs.clean_nick_name nick).2 = cs.clean_nick_name nick := by
  have front := cs.cut_isPrefix (cs.nickChars nick)
  have whole := front.trans (cs.nickChars_isPrefix nick)
  rw [clean_nick_name_of_good good, clean_nick_name_of_good (badFirst_of_isPrefix whole good),
    nickChars_of_isPrefix front, fixed]

theorem isNickChar_ne_tilde (c : Byte) (nickChar : cs.isNickChar c = true) : decide (c ≠ 0x7e) = true := by
  rw [decide_eq_true_eq]
  rintro rfl
  revert nickChar
  cases cs <;> simp [isNickChar]

theorem exists_passed (own : Bool) (nick : List Byte) :
    ∃ passed, passed = (if own then nick.takeWhile (· ≠ 0x7e) else nick) ∧ passed <+: nick ∧
      cs.nickChars (passed.take NICKLEN) = cs.nickChars nick := by
  refine ⟨_, rfl, ?_, ?_⟩
  · split_ifs
    · exact List.takeWhile_prefix _
    · exact List.prefix_refl nick
  · have same : ∀ l : List Byte, cs.nickChars (l.take NICKLEN) = cs.nickChars l := by
      intro l
      unfold nickChars
      rw [List.take_take, min_self]
    rw [same]
    split_ifs
    · exact nickChars_takeWhile isNickChar_ne_tilde
    · rfl

theorem m_nick_eq_some {own server : Bool} {taken : List Byte} (taken_ : cs.m_nick own server nick = some taken) :
    (cs.clean_nick_name nick).1 ≠ 0 ∧ taken = (cs.clean_nick_name nick).2 := by
  obtain ⟨passed, same, whole, chars⟩ := @exists_passed cs own nick
  unfold m_nick at taken_
  rw [← same] at taken_
  dsimp only at taken_
  split_ifs at taken_ with rejected
  have accepted := fun none_ => rejected (.inl none_)
  have good := good_of_accepted accepted
  rw [clean_nick_name_of_good good, chars] at accepted taken_
  have some_ : passed.take NICKLEN ≠ [] := by
    intro none_
    rw [none_] at chars
    have none_ : cs.cut (cs.nickChars nick) = [] := by
      rw [← chars]
      exact List.prefix_nil.mp (cs.cut_isPrefix [])
    rw [none_] at accepted
    exact accepted rfl
  rw [badFirst_eq_of_isPrefix ((List.take_prefix ..).trans whole) some_] at good
  rw [clean_nick_name_of_good good]
  exact ⟨accepted, (Option.some.inj taken_).symm⟩

theorem m_nick_cleaned (good : cs.badFirst nick = false) (accepted : (cs.clean_nick_name nick).1 ≠ 0)
    (fixed : cs.cut (cs.cut (cs.nickChars nick)) = cs.cut (cs.nickChars nick)) (own : Bool) :
    cs.m_nick own true (cs.clean_nick_name nick).2 = some (cs.clean_nick_name nick).2 := by
  have again := clean_nick_name_again good fixed
  rw [clean_nick_name_of_good good] at again accepted ⊢
  dsimp only at again accepted ⊢
  have front := cs.cut_isPrefix (cs.nickChars nick)
  have chars : ∀ c ∈ cs.cut (cs.nickChars nick), decide (c ≠ 0x7e) = true := fun c member =>
    isNickChar_ne_tilde c (mem_nickChars (front.subset member))
  have passed : (if own then (cs.cut (cs.nickChars nick)).takeWhile (· ≠ 0x7e) else cs.cut (cs.nickChars nick)) =
      cs.cut (cs.nickChars nick) := by
    rw [List.takeWhile_eq_self_iff.mpr chars, ite_self]
  unfold m_nick
  rw [passed]
  dsimp only
  rw [List.take_of_length_le (front.length_le.trans length_nickChars), again]
  dsimp only
  rw [if_neg]
  rintro (none_ | ⟨-, other⟩)
  · exact accepted none_
  · exact other rfl

end Charset

/-- Whole characters, and behind them one that does not end. -/
def Charset.Breaks (cs : Charset) (nick : List Byte) : Prop :=
  cs.badFirst nick = false ∧ ∃ text rest, cs.nickChars nick = List.flatMap encodeChar text ++ rest ∧
    (∀ ch ∈ text, UNICODE_VALID ch.toNat = true) ∧
    Unended (NICKLEN - (text.flatMap encodeChar).length) rest

/-- Servers agree on a nick: cleaned a second time, it is accepted and the same, each of them takes it from
the others, and in UTF-8 it has whole characters only. -/
structure Charset.StableNick (cs : Charset) (nick : List Byte) : Prop where
  again : (cs.clean_nick_name nick).1 ≠ 0 →
    cs.clean_nick_name (cs.clean_nick_name nick).2 = cs.clean_nick_name nick
  taken : ∀ own server taken, cs.m_nick own server nick = some taken →
    ∀ own', cs.m_nick own' true taken = some taken
  whole : ∀ beyond, cs = .utf8 beyond → (cs.clean_nick_name nick).1 ≠ 0 →
    WellFormed (cs.clean_nick_name nick).2

/-- Without a character that does not end, the loop keeps whole characters. -/
theorem cut_utf8_of_not_breaks (good : (Charset.utf8 beyond).badFirst nick = false)
    (ended : ¬ (Charset.utf8 beyond).Breaks nick) :
    ∃ text, (Charset.utf8 beyond).cut ((Charset.utf8 beyond).nickChars nick) = List.flatMap encodeChar text ∧
      (∀ ch ∈ text, UNICODE_VALID ch.toNat = true) ∧ (text.flatMap encodeChar).length ≤ NICKLEN := by
  have fits := @Charset.length_nickChars (.utf8 beyond) nick
  obtain ⟨text, rest, same, valid, cut | unended⟩ := exists_whole Charset.zero_notMem_nickChars fits
  · rw [same, List.length_append] at fits
    refine ⟨text, ?_, valid, by omega⟩
    show utf8Cut NICKLEN _ = _
    rw [same, utf8Cut_whole valid (by omega), cut, List.append_nil]
  · exact absurd ⟨good, text, rest, same, valid, unended⟩ ended

theorem cut_utf8_of_breaks (breaks : (Charset.utf8 beyond).Breaks nick) :
    ∃ text c, (Charset.utf8 beyond).cut ((Charset.utf8 beyond).nickChars nick) =
      List.flatMap encodeChar text ++ [c] ∧ ¬ c < 0x80 := by
  obtain ⟨-, text, rest, same, valid, unended⟩ := breaks
  have fits := @Charset.length_nickChars (.utf8 beyond) nick
  have proper := @Charset.zero_notMem_nickChars (.utf8 beyond) nick
  rw [same, List.length_append] at fits
  rw [same] at proper
  obtain ⟨c, p, -, high, cut⟩ := utf8Cut_unended (fun member => proper (List.mem_append_right _ member))
    (show rest.length ≤ NICKLEN - (text.flatMap encodeChar).length by omega) unended
  refine ⟨text, c, ?_, high⟩
  show utf8Cut NICKLEN _ = _
  rw [same, utf8Cut_whole valid (by omega), cut]

/-- The loop of the set of characters leaves a nick as it is that it has been through, in UTF-8 one of
whole characters. -/
theorem cut_again (good : cs.badFirst nick = false)
    (ended : ∀ beyond, cs = .utf8 beyond → ¬ cs.Breaks nick) :
    cs.cut (cs.cut (cs.nickChars nick)) = cs.cut (cs.nickChars nick) := by
  cases cs with
  | ascii | hebrew => rfl
  | korean => exact hangulCut_again _
  | utf8 beyond =>
    obtain ⟨text, same, valid, fits⟩ := cut_utf8_of_not_breaks good (ended beyond rfl)
    rw [same]
    have kept := @utf8Cut_whole [] text NICKLEN valid fits
    rwa [List.append_nil, utf8Cut_nil, List.append_nil] at kept

/-- **When servers agree on a nick.** -/
theorem stableNick_iff (cs : Charset) (nick : List Byte) :
    cs.StableNick nick ↔ ∀ beyond, cs = .utf8 beyond → ¬ cs.Breaks nick := by
  constructor
  · rintro stable beyond rfl breaks
    obtain ⟨text, c, cut, high⟩ := cut_utf8_of_breaks breaks
    have cleaned := Charset.clean_nick_name_of_good breaks.1
    rw [cut] at cleaned
    have whole := stable.whole beyond rfl (by rw [cleaned, List.length_append]; exact Nat.succ_ne_zero _)
    rw [cleaned] at whole
    have alone := (Lib.WellFormed.append_iff ⟨text, rfl⟩).mp whole
    exact high (Lib.low_of_wellFormed alone)
  · intro ended
    refine ⟨fun accepted => ?_, fun own server taken taken_ own' => ?_, ?_⟩
    · have good := Charset.good_of_accepted accepted
      exact Charset.clean_nick_name_again good (cut_again good ended)
    · obtain ⟨accepted, rfl⟩ := Charset.m_nick_eq_some taken_
      have good := Charset.good_of_accepted accepted
      exact Charset.m_nick_cleaned good accepted (cut_again good ended) own'
    · rintro beyond rfl accepted
      have good := Charset.good_of_accepted accepted
      obtain ⟨text, cut, -⟩ := cut_utf8_of_not_breaks good (ended beyond rfl)
      rw [Charset.clean_nick_name_of_good good, cut]
      exact ⟨text, rfl⟩

end Again

/-- 18 letters and the euro sign, which ends behind the longest nick. -/
def sampleEuro : List Byte := List.replicate 18 0x61 ++ [0xe2, 0x82, 0xac]

/-- The first byte of the sign is kept, and the next server removes it. -/
theorem not_stableNick : ¬ (Charset.utf8 fun _ => 0).StableNick sampleEuro := by
  intro stable
  have cleaned : (Charset.utf8 fun _ => 0).clean_nick_name sampleEuro =
      (19, List.replicate 18 0x61 ++ [0xe2]) := by
    decide +kernel
  have again : (Charset.utf8 fun _ => 0).clean_nick_name (List.replicate 18 0x61 ++ [0xe2]) =
      (18, List.replicate 18 0x61) := by
    decide +kernel
  have same := stable.again (by rw [cleaned]; decide)
  rw [cleaned, again] at same
  exact absurd (congrArg Prod.fst same) (by decide)

end PtlinkIrcd.Ircd
