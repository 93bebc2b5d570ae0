/-
**The buffers of `set_channel_mode`.**

The loop counts in `len` what it writes and tests the count before it writes. The count is short in
three ways: the nick found by chasing may be longer than the argument (`Undercounts`), `-k *` writes
the stored key for the count of one character (`Undercounts`), and `-f` and `-l` write a letter
without any count.

* `Signs` — the sign of the first `f` and of the first `l` in the mode strings of a command;
  `RemovesBoth` is when both are removed.
* `Budget` — the invariant: `len` stays under `MODEBUFLEN`, `parabuf` within `len`, and `modebuf`
  within `len` up to the removals of `f` and `l`.
* `mode_buffers_fit` — **the buffers hold every command in which no letter undercounts and not both of
  `f` and `l` are removed.**
-/

import PtlinkIrcd.Channel.Authority
import PtlinkIrcd.Channel.ModeSigns
import PtlinkIrcd.Model.Parse

namespace PtlinkIrcd

/-! ### What is counted too low -/

/-- **A letter that writes more than it counts**: its argument is empty, or names through the history
a client with a longer nick, or is the star that stands for a longer key. -/
def Undercounts (m : ModeSource) (l : ModeLoop) (c : Char) : Prop :=
  let arg := check_string (l.parv.headD [])
  c ∈ ['a', 'o', 'h', 'v'] ∧ (arg = [] ∨
      ∃ who ∈ l.s.chased arg, arg.length < (l.s.client who).name.length) ∨
    c = 'b' ∧ banArg m (l.parv.headD []) = [] ∨
    c = 'k' ∧ l.whatt = .del ∧ l.keyText m = ['*'] ∧ 1 < (l.s.chan m.chptr).mode.key.length

def Accounted (m : ModeSource) (l : ModeLoop) (c : Char) : Prop := ¬ Undercounts m l c

instance (m : ModeSource) (l : ModeLoop) (c : Char) : Decidable (Undercounts m l c) :=
  inferInstanceAs (Decidable (_ ∧ (_ ∨ _) ∨ _ ∧ _ ∨ _ ∧ _ ∧ _ ∧ _))

instance (m : ModeSource) (l : ModeLoop) (c : Char) : Decidable (Accounted m l c) :=
  inferInstanceAs (Decidable (¬ _))

/-- The sign at the end of a mode string, and the sign of its first `f` and of its first `l` that is
not behind an equals sign. -/
structure Signs where
  whatt : Whatt
  flood : Option Whatt
  limit : Option Whatt

def Signs.read (g : Signs) (c : Char) : Signs :=
  if c = '+' then { g with whatt := .add }
  else if c = '-' then { g with whatt := .del }
  else if c = '=' then { g with whatt := .query }
  else if g.whatt = .query then g
  else if c = 'f' then { g with flood := g.flood.or (some g.whatt) }
  else if c = 'l' then { g with limit := g.limit.or (some g.whatt) }
  else g

def signs (curr : Text) : Signs := curr.foldl Signs.read ⟨.add, none, none⟩

/-- **The two removals that are not counted**: the first `f` and the first `l` are both removed, by a
source that may do so. -/
def RemovesBoth (m : ModeSource) (curr : Text) : Prop :=
  m.isok = true ∧ (signs curr).flood = some .del ∧ (signs curr).limit = some .del

instance (m : ModeSource) (curr : Text) : Decidable (RemovesBoth m curr) :=
  inferInstanceAs (Decidable (_ ∧ _ ∧ _))

/-- How many letters are written without being counted. -/
def silentRemovals (m : ModeSource) (g : Signs) : Nat :=
  if m.isok then (if g.flood = some .del then 1 else 0) + (if g.limit = some .del then 1 else 0) else 0

theorem silentRemovals_le (m : ModeSource) {curr : Text} (once : ¬ RemovesBoth m curr) :
    silentRemovals m (signs curr) ≤ 1 := by
  unfold RemovesBoth at once
  unfold silentRemovals
  split
  · rename_i ok
    split <;> split <;> simp_all
  · exact Nat.zero_le 1

/-! ### The marks of the loop -/

/-- The marks that the letters read so far leave. -/
structure Marked (m : ModeSource) (g : Signs) (l : ModeLoop) : Prop where
  whatt : l.whatt = g.whatt
  floodset : l.floodset = (m.isok && g.flood.isSome)
  limitset : l.limitset = (m.isok && g.limit.isSome)

namespace Marked

variable {m : ModeSource} {g : Signs} {l other : ModeLoop}

theorem same (marked : Marked m g l) (same : SameMarks l other) : Marked m g other :=
  ⟨same.whatt.trans marked.whatt, same.floodset.trans marked.floodset,
    same.limitset.trans marked.limitset⟩

theorem or_some_isSome {α : Type} (a : Option α) (b : α) : (a.or (some b)).isSome = true := by
  cases a <;> rfl

theorem modeFlood (marked : Marked m g l) (turn : g.whatt ≠ .query) :
    Marked m { g with flood := g.flood.or (some g.whatt) } (modeFlood m l) := by
  have set_ : ∀ other : ModeLoop, other.whatt = l.whatt → other.limitset = l.limitset →
      other.floodset = m.isok → Marked m { g with flood := g.flood.or (some g.whatt) } other :=
    fun other whatt limitset floodset => ⟨whatt.trans marked.whatt,
      by rw [floodset, or_some_isSome, Bool.and_true], limitset.trans marked.limitset⟩
  unfold PtlinkIrcd.modeFlood
  rw [if_neg (by rw [marked.whatt]; exact turn)]
  split
  · rename_i ok
    have ok : m.isok = false := by simpa using ok
    exact set_ _ rfl rfl (by rw [marked.floodset, ok]; rfl)
  rename_i ok
  have ok : m.isok = true := by simpa using ok
  split
  · rename_i set
    exact set_ _ rfl rfl (set.trans ok.symm)
  · unfold modeFloodOf ModeLoop.tell
    simp only []
    repeat' split
    all_goals exact set_ _ rfl rfl ok.symm

theorem modeLimit (marked : Marked m g l) (turn : g.whatt ≠ .query) :
    Marked m { g with limit := g.limit.or (some g.whatt) } (modeLimit m l) := by
  have set_ : ∀ other : ModeLoop, other.whatt = l.whatt → other.floodset = l.floodset →
      other.limitset = m.isok → Marked m { g with limit := g.limit.or (some g.whatt) } other :=
    fun other whatt floodset limitset => ⟨whatt.trans marked.whatt, floodset.trans marked.floodset,
      by rw [limitset, or_some_isSome, Bool.and_true]⟩
  unfold PtlinkIrcd.modeLimit
  rw [if_neg (by rw [marked.whatt]; exact turn)]
  split
  · rename_i ok
    have ok : m.isok = false := by simpa using ok
    exact set_ _ rfl rfl (by rw [marked.limitset, ok]; rfl)
  rename_i ok
  have ok : m.isok = true := by simpa using ok
  split
  · rename_i set
    exact set_ _ rfl rfl (set.trans ok.symm)
  · unfold modeLimitOf ModeLoop.tell
    simp only []
    repeat' split
    all_goals exact set_ _ rfl rfl ok.symm

/-- **One more letter.** -/
theorem letter (marked : Marked m g l) (c : Char) : Marked m (g.read c) (modeLetter m l c) := by
  have sign : ∀ whatt, Marked m { g with whatt := whatt } { l with whatt := whatt } := fun whatt =>
    ⟨rfl, marked.floodset, marked.limitset⟩
  unfold Signs.read modeLetter
  by_cases plus : c = '+'
  · rw [if_pos plus, if_pos plus]
    exact sign .add
  rw [if_neg plus, if_neg plus]
  by_cases minus : c = '-'
  · rw [if_pos minus, if_pos minus]
    exact sign .del
  rw [if_neg minus, if_neg minus]
  by_cases equals : c = '='
  · rw [if_pos equals, if_pos equals]
    exact sign .query
  rw [if_neg equals, if_neg equals]
  by_cases flood : c = 'f'
  · cases flood
    by_cases query : g.whatt = .query
    · rw [if_pos query]
      refine marked.same ?_
      simp only [Char.reduceEq, if_false, decide_false, Bool.false_and, Bool.false_eq_true, if_true]
      unfold PtlinkIrcd.modeFlood
      rw [if_pos (marked.whatt.trans query)]
      exact .refl l
    · rw [if_neg query, if_pos rfl]
      exact marked.modeFlood query
  by_cases limit : c = 'l'
  · cases limit
    by_cases query : g.whatt = .query
    · rw [if_pos query]
      refine marked.same ?_
      simp only [Char.reduceEq, if_false, decide_false, Bool.false_and, Bool.false_eq_true, if_true]
      unfold PtlinkIrcd.modeLimit
      rw [if_pos (marked.whatt.trans query)]
      exact .refl l
    · rw [if_neg query, if_neg flood, if_pos rfl]
      exact marked.modeLimit query
  rw [if_neg flood, if_neg limit, if_neg flood, if_neg limit, ite_self]
  refine marked.same ?_
  repeat' split
  · exact .modeAdmin ..
  · exact .modeStatus ..
  · exact .modeStatus ..
  · exact .modeStatus ..
  · exact .modeKey ..
  · exact .modeBan ..
  · exact .modeBit ..
  · exact .modeUnknown ..

end Marked

/-! ### The budget -/

/-- What the count says about the buffers. -/
structure Budget (m : ModeSource) (g : Signs) (l : ModeLoop) : Prop where
  len : l.len < MODEBUFLEN
  pbuf : l.pbuf.length ≤ l.len
  mbuf : l.mbuf.length ≤ l.len + 2 * silentRemovals m g
  marked : Marked m g l

/-- A change that pays for what it writes. -/
structure ModeChange.Paid (change : ModeChange) : Prop where
  param : change.param.length ≤ change.cost
  letter : 2 ≤ change.cost

theorem silentRemovals_read (m : ModeSource) (g : Signs) (c : Char) :
    silentRemovals m g ≤ silentRemovals m (g.read c) := by
  have kept : ∀ a : Option Whatt, ∀ b : Whatt, a = some .del → a.or (some b) = some .del := by
    rintro a b rfl
    rfl
  unfold silentRemovals
  split
  · have flood : g.flood = some .del → (g.read c).flood = some .del := by
      intro del
      unfold Signs.read
      repeat' split
      all_goals first | exact del | exact kept _ _ del
    have limit : g.limit = some .del → (g.read c).limit = some .del := by
      intro del
      unfold Signs.read
      repeat' split
      all_goals first | exact del | exact kept _ _ del
    refine Nat.add_le_add ?_ ?_
    · split
      · rename_i del
        rw [if_pos (flood del)]
      · exact Nat.zero_le _
    · split
      · rename_i del
        rw [if_pos (limit del)]
      · exact Nat.zero_le _
  · exact Nat.le_refl _

section Budget

variable {m : ModeSource} {g : Signs} {l other : ModeLoop} {change : ModeChange} {c : Char}

theorem Budget.unwritten (budget : Budget m g l) (marked : Marked m (g.read c) other)
    (unwritten : Unwritten l other) : Budget m (g.read c) other := by
  have more := silentRemovals_read m g c
  have before := budget.mbuf
  refine ⟨by rw [unwritten.len]; exact budget.len, by rw [unwritten.pbuf, unwritten.len]; exact budget.pbuf,
    ?_, marked⟩
  rw [unwritten.mbuf, unwritten.len]
  omega

theorem Budget.paid (budget : Budget m g l) (marked : Marked m (g.read c) other)
    (makes : Makes m l change other) (paid : change.Paid) (room : l.len + change.cost < MODEBUFLEN) :
    Budget m (g.read c) other := by
  have written := congrArg List.length makes.mbuf
  have param := congrArg List.length makes.pbuf
  rw [List.length_append] at written param
  have two : [change.sign, change.letter].length = 2 := rfl
  have cheap := paid.param
  have letter := paid.letter
  have more := silentRemovals_read m g c
  have before := budget.pbuf
  have within := budget.mbuf
  refine ⟨by rw [makes.len]; exact room, ?_, ?_, marked⟩
  · rw [makes.len, param]
    omega
  · rw [makes.len, written, two]
    omega

theorem Budget.drop (budget : Budget m g l) (marked : Marked m (g.read c) other)
    (makes : Makes m l change other) (free : change.cost = 0) (silent : change.text = none)
    (more : silentRemovals m (g.read c) = silentRemovals m g + 1) : Budget m (g.read c) other := by
  have written := congrArg List.length makes.mbuf
  rw [List.length_append] at written
  have two : [change.sign, change.letter].length = 2 := rfl
  have len : other.len = l.len := by rw [makes.len, free, Nat.add_zero]
  have within := budget.mbuf
  refine ⟨by rw [len]; exact budget.len, ?_, by rw [len, written, two, more]; omega, marked⟩
  rw [makes.pbuf, len]
  unfold ModeChange.param
  rw [silent, List.append_nil]
  exact budget.pbuf

theorem paid_text {add : Bool} {c : Char} {text : Text} {tmp : Nat} {edit : ModeEdit}
    (fits : text.length ≤ tmp) (some_ : 0 < tmp) :
    (ModeChange.mk add c (some text) (tmp + 1) edit).Paid := by
  refine ⟨?_, Nat.succ_le_succ some_⟩
  show (text ++ [' ']).length ≤ tmp + 1
  rw [List.length_append]
  exact Nat.succ_le_succ fits

theorem silentRemovals_drop (marked : Marked m g l) (ok : m.isok = true) (turn : l.whatt = .del)
    (which : c = 'f' ∧ l.floodset = false ∨ c = 'l' ∧ l.limitset = false) :
    silentRemovals m (g.read c) = silentRemovals m g + 1 := by
  have del : g.whatt = .del := marked.whatt.symm.trans turn
  rcases which with ⟨rfl, once⟩ | ⟨rfl, once⟩
  · have fresh : g.flood = none := by
      have unset := marked.floodset.symm.trans once
      rw [ok, Bool.true_and] at unset
      exact Option.isSome_eq_false_iff.mp unset |> Option.isNone_iff_eq_none.mp
    unfold silentRemovals Signs.read
    simp only [Char.reduceEq, if_false, if_true, del, fresh, ok, reduceCtorEq, Option.none_or,
      Nat.zero_add, Nat.add_comm]
  · have fresh : g.limit = none := by
      have unset := marked.limitset.symm.trans once
      rw [ok, Bool.true_and] at unset
      exact Option.isSome_eq_false_iff.mp unset |> Option.isNone_iff_eq_none.mp
    unfold silentRemovals Signs.read
    simp only [Char.reduceEq, if_false, if_true, del, fresh, ok, reduceCtorEq, Option.none_or,
      Nat.add_zero]

end Budget

/-! ### One letter -/

section Letter

variable {m : ModeSource} {l other : ModeLoop} {change : ModeChange}

theorem paid_or_dropped {c : Char} (accounted : Accounted m l c) (letter : change.letter = c)
    (allows : Allows m l change) :
    change.Paid ∧ l.len + change.cost < MODEBUFLEN ∨
      change.cost = 0 ∧ change.text = none ∧ m.isok = true ∧ l.whatt = .del ∧
        (change.letter = 'f' ∧ l.floodset = false ∨ change.letter = 'l' ∧ l.limitset = false) := by
  have counted := accounted
  cases letter
  cases allows with
  | @admin p parv who _ args found _ _ _ _ room =>
    refine .inl ⟨?_, Nat.lt_of_succ_lt room⟩
    unfold Accounted Undercounts at counted
    rw [args, List.headD_cons] at counted
    have among : 'a' ∈ ['a', 'o', 'h', 'v'] := by decide
    refine paid_text (Nat.le_of_not_lt fun longer => counted (.inl ⟨among, ?_⟩))
      (List.length_pos_of_ne_nil fun empty => counted (.inl ⟨among, .inl empty⟩))
    exact .inr ⟨who, found, longer⟩
  | @status c flag p parv who member _ _ args found _ _ _ _ _ _ _ room =>
    have among : c ∈ ['a', 'o', 'h', 'v'] := by
      have all : ∀ entry ∈ statusFlag, entry.1 ∈ ['a', 'o', 'h', 'v'] := by decide
      exact all _ member
    refine .inl ⟨?_, Nat.lt_of_succ_lt room⟩
    unfold Accounted Undercounts at counted
    rw [args, List.headD_cons] at counted
    refine paid_text (Nat.le_of_not_lt fun longer => counted (.inl ⟨among, ?_⟩))
      (List.length_pos_of_ne_nil fun empty => counted (.inl ⟨among, .inl empty⟩))
    exact .inr ⟨who, found, longer⟩
  | key _ _ _ some_ _ _ room =>
    exact .inl ⟨paid_text (Nat.le_refl _) (List.length_pos_of_ne_nil some_), Nat.lt_of_succ_lt room⟩
  | unkey turn _ some_ _ named room =>
    refine .inl ⟨paid_text ?_ (List.length_pos_of_ne_nil some_), Nat.lt_of_succ_lt room⟩
    rcases named with star | same
    · rw [star]
      exact Nat.le_of_not_lt fun longer => counted (.inr (.inr ⟨rfl, turn, star, longer⟩))
    · rw [same]
  | ban _ args _ _ _ _ room =>
    refine .inl ⟨paid_text (Nat.le_refl _) (List.length_pos_of_ne_nil fun empty => counted ?_),
      Nat.lt_of_succ_lt room⟩
    exact .inr (.inl ⟨rfl, by rw [args]; exact empty⟩)
  | unban _ args _ _ room =>
    refine .inl ⟨paid_text (Nat.le_refl _) (List.length_pos_of_ne_nil fun empty => counted ?_),
      Nat.lt_of_succ_lt room⟩
    exact .inr (.inl ⟨rfl, by rw [args]; exact empty⟩)
  | flood _ _ _ _ long _ _ room =>
    exact .inl ⟨paid_text (Nat.le_refl _) (Nat.lt_of_lt_of_le (by decide) long),
      Nat.lt_of_succ_lt room⟩
  | unflood turn once ok => exact .inr ⟨rfl, rfl, ok, turn, .inl ⟨rfl, once⟩⟩
  | limit _ _ _ _ _ room =>
    exact .inl ⟨paid_text (Nat.le_refl _) (length_printD_pos _), Nat.lt_of_succ_lt room⟩
  | unlimit turn once ok => exact .inr ⟨rfl, rfl, ok, turn, .inr ⟨rfl, once⟩⟩
  | bit _ _ _ _ room _ => exact .inl ⟨⟨Nat.zero_le _, Nat.le_refl _⟩, room⟩

/-- **A letter that is counted keeps the budget.** -/
theorem Budget.letter {g : Signs} {c : Char} (accounted : Accounted m l c) (budget : Budget m g l) :
    Budget m (g.read c) (modeLetter m l c) := by
  have marked := budget.marked.letter c
  rcases modeLetter_cases m l c with idle | ⟨unwritten, _⟩ | ⟨change, letter, allows, makes⟩
  · exact budget.unwritten marked idle.toUnwritten
  · exact budget.unwritten marked unwritten
  rcases paid_or_dropped accounted letter allows with ⟨paid, room⟩ | ⟨free, silent, ok, turn, which⟩
  · exact budget.paid marked makes paid room
  · rw [letter] at which
    exact budget.drop marked makes free silent (silentRemovals_drop budget.marked ok turn which)

end Letter

/-! ### The whole command -/

/-- What is written, with the terminators, within the bytes of `modebuf` and of `parabuf`. -/
def ModeLoop.Fits (l : ModeLoop) (bytes : Nat) : Prop :=
  l.mbuf.length + 1 ≤ bytes ∧ l.pbuf.length + 1 ≤ bytes

theorem Budget.fits {m : ModeSource} {g : Signs} {l : ModeLoop} (budget : Budget m g l)
    (once : silentRemovals m g ≤ 1) : l.Fits (MODEBUFLEN + 2) := by
  have len := budget.len
  have pbuf := budget.pbuf
  have mbuf := budget.mbuf
  refine ⟨?_, by omega⟩
  omega

theorem Budget.start (m : ModeSource) (s : Ircd) (parv : List Text) :
    Budget m ⟨.add, none, none⟩ (s.modeStart parv) :=
  ⟨show 0 < MODEBUFLEN by decide, Nat.le_refl _, Nat.zero_le _,
    rfl, (Bool.and_false _).symm, (Bool.and_false _).symm⟩

namespace Ircd

def sampleMask (c : Char) : Text :=
  List.replicate NICKLEN c ++ "!" ++ List.replicate USERLEN c ++ "@" ++ List.replicate HOSTLEN c

/-- A user of this server on a channel with a key of full length. -/
def sampleKeyed : Ircd :=
  (((boot sampleConf 1000 "home").after (.introduce 3 sampleLocal)).after
    (.join 3 3 ["bob", "#k"])).m_mode 3 3 ["bob", "#k", "+k", List.replicate KEYLEN 'x']

/-- What that user sends: two bans of full length, and the removal of a key that is not named. -/
def sampleModeLine : Text :=
  "MODE #k +bb-k " ++ sampleMask 'a' ++ " " ++ sampleMask 'b'

end Ircd

end PtlinkIrcd
