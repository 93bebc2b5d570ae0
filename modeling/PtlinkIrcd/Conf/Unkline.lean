/-
**The command `UNKLINE`.**

`m_unkline` of `m_unkline.c` on the temporary K-lines and the file `kline.conf`, after a `KLINE` of the
same mask.

* `unklineDrops` — the buffers that `m_unkline` leaves out of the file; `unklineFile` — the file that
  it writes.
* `KlineState.m_kline`, `KlineState.m_unkline` — the two commands.
* `KeptFrom` — a K-line and the mask that was given for it.
* `KeptFrom.unklineFile_iff` — when the file is restored; `removed_iff`, `kept_removed_iff` — when the
  temporary lists are.
* `m_unkline_undoes` — **an `UNKLINE` takes a `KLINE` of the same mask back just then.**
* `not_m_unkline_undoes` — the K-line of a mask with a star in an address stays.
-/

import PtlinkIrcd.Conf.KlineFile
import PtlinkIrcd.Conf.Tkline

set_option linter.unusedSectionVars false

namespace PtlinkIrcd

open Lib (field)

-- the bits of an `unsigned long`
variable {w : Nat}

/-! ### The file -/

/-- Whether `m_unkline` takes a buffer for a `K:` line of the mask, or for the remark on one. -/
def unklineDrops (user host buf : Text) : Bool :=
  if buf.tail.head? = some ':' ∧ (buf.head? = some 'k' ∨ buf.head? = some 'K') then
    match field ':' ((cutLine buf).drop 2) with
    | (_, none) => false
    | (found_host, some found_comment) =>
      match field ':' found_comment with
      | (_, none) => false
      | (_, some found_user) => irccmp host found_host = 0 && irccmp user found_user = 0
  else if buf.head? = some '#' then
    match field ':' buf with
    | (_, none) => false
    | (_, some rest) =>
      match field ':' rest with
      | (_, none) => false
      | (userathost, some _) =>
        match field '@' (userathost.dropWhile (· = ' ')) with
        | (_, none) => false
        | (found_user, some found_host) =>
          irccmp found_host host = 0 && irccmp found_user user = 0
  else false

/-- The file that `m_unkline` writes. -/
def unklineFile (user host file : Text) : Text :=
  ((fileBuffers file).filter fun buf => !unklineDrops user host buf).flatten

/-! ### The commands -/

/-- The K-lines of the server: the temporary ones and the file. -/
structure KlineState (w : Nat) where
  tklines : Tklines w
  file : Text

def klineArgs (parv : List Text) : List Text :=
  if isnumber (parv.getD 1 []) ≠ 0 then parv.tail else parv

/-- The argument of a `KLINE` that the mask is in. -/
def klineMask (parv : List Text) : Text := (klineArgs parv).getD 1 []

def IsMask (argv : Text) : Prop := '@' ∈ argv ∨ argv.head? = some '*'

instance (argv : Text) : Decidable (IsMask argv) := inferInstanceAs (Decidable (_ ∨ _))

def maskUser (argv : Text) : Text := if '@' ∈ argv then argv.takeWhile (· ≠ '@') else ['*']

def maskHost (argv : Text) : Text := if '@' ∈ argv then (argv.dropWhile (· ≠ '@')).tail else argv

/-- The K-line that a `KLINE` of an explicit mask asks for, as the mask and the reason are given. -/
def klineAsked (w : Nat) (parv : List Text) : Kline w where
  minutes := none
  user := maskUser (klineMask parv)
  host := maskHost (klineMask parv)
  address := none
  reason := (klineArgs parv)[2]?.filter (· ≠ [])

/-- The address that `m_unkline` looks for: zero for what is none. -/
def unklineIp (w : Nat) (host : Text) : BitVec w := ((is_address w host).map Prod.fst).getD 0

def Kline.tkline (k : Kline w) (minutes : Int32) (now : Int) : Tkline w where
  user := k.user
  host := k.host
  ip := (k.address.map Prod.fst).getD 0
  ip_mask := (k.address.map Prod.snd).getD 0
  hold := now + minutes.toInt * 60

namespace KlineState

/-- A `KLINE` at a time, while no one edits the file: the K-line of the command goes to the temporary
ones, at a place that the allocator gave, or to the file. -/
def m_kline (st : KlineState w) (env : KlineEnv w) (sptr : Klining) (parv : List Text) (now : Int)
    (place : Nat) (when_ : Tm) : KlineState w :=
  match PtlinkIrcd.m_kline env sptr parv with
  | none => st
  | some k =>
    match k.minutes with
    | some minutes =>
      { st with tklines := st.tklines.add_temp_kline place (k.tkline minutes now) }
    | none => { st with file := st.file ++ WriteKline sptr k when_ }

/-- `m_unkline`: a temporary K-line goes if there is one, else the K-lines of the file. -/
def m_unkline (st : KlineState w) (isAnOper isSetOperUnkline : Bool) (parv : List Text) : KlineState w :=
  if !isAnOper || !isSetOperUnkline || parv.length < 2 then st
  else
    let argv := parv.getD 1 []
    let user := maskUser argv
    let host := maskHost argv
    if ¬ IsMask argv ∨ user = ['*'] ∧ host = ['*'] then st
    else
      let removed := st.tklines.remove_tkline_match host user (unklineIp w host)
      if removed.2 then { st with tklines := removed.1 }
      else { tklines := removed.1, file := unklineFile user host st.file }

end KlineState

/-! ### The buffers of a file -/

section Buffers

variable {t file line rest : Text} {b : Text}

/-- A buffer of a file whose lines all end: a short line with its end, or a full buffer. -/
def IsBuffer (b : Text) : Prop :=
  (∃ line, OneLine line ∧ line.length < BUFSIZE - 1 ∧ b = line ++ ['\n']) ∨
    OneLine b ∧ b.length = BUFSIZE - 1

theorem IsBuffer.ne_nil (buffer : IsBuffer b) : b ≠ [] := by
  rintro rfl
  rcases buffer with ⟨line, _, _, whole⟩ | ⟨_, full⟩
  · exact absurd whole.symm (by simp)
  · exact absurd full (by decide)

theorem IsBuffer.fbgets (buffer : IsBuffer b) (rest : Text) : fbgets (b ++ rest) = (b, rest) := by
  unfold PtlinkIrcd.fbgets
  rcases buffer with ⟨line, plain, fits, rfl⟩ | ⟨plain, full⟩
  · rw [List.append_assoc]
    exact fbgetsLoop_short plain fits
  · rw [fbgetsLoop_long plain full.ge, ← full, List.take_length, List.drop_length]
    rfl

theorem IsBuffer.eq_of_append {c d s u : Text} (first : IsBuffer c) (second : IsBuffer d)
    (same : c ++ s = d ++ u) : c = d := by
  have read := first.fbgets s
  rw [same, second.fbgets u] at read
  exact (Prod.mk.inj read).1.symm

theorem isBuffer_of_mem_line (plain : OneLine line) (member : b ∈ fileBuffers (line ++ ['\n'])) :
    IsBuffer b := by
  refine plain.induction (P := fun line => b ∈ fileBuffers (line ++ ['\n']) → IsBuffer b)
    (fun line plain fits member => ?_) (fun line plain long ih member => ?_) member
  · rw [fileBuffers_short plain fits] at member
    exact .inl ⟨line, plain, fits, List.mem_singleton.mp member⟩
  · rw [fileBuffers_long plain long] at member
    rcases List.mem_cons.mp member with rfl | later
    · exact .inr ⟨plain.take _, List.length_take_of_le long⟩
    · exact ih later

/-- What is read and what is left are what was there, when no carriage return was. -/
theorem fbgetsLoop_append (noReturn : '\r' ∉ t) (room : Nat) :
    (fbgetsLoop room t).1 ++ (fbgetsLoop room t).2 = t := by
  induction t generalizing room with
  | nil => cases room <;> rfl
  | cons c t ih =>
    rw [List.mem_cons, not_or] at noReturn
    cases room with
    | zero => rfl
    | succ room =>
      unfold fbgetsLoop
      rw [if_neg (Ne.symm noReturn.1)]
      split_ifs with feed
      · rw [feed]
        rfl
      · exact congrArg (c :: ·) (ih noReturn.2 room)

theorem flatten_fileBuffers (noReturn : '\r' ∉ file) : (fileBuffers file).flatten = file := by
  refine fileBuffers_induction (P := fun file => '\r' ∉ file → (fileBuffers file).flatten = file)
    (fun _ => rfl) (fun c t ih noReturn => ?_) file noReturn
  have split : (fbgets (c :: t)).1 ++ (fbgets (c :: t)).2 = c :: t := fbgetsLoop_append noReturn _
  have left : '\r' ∉ (fbgets (c :: t)).2 := fun member =>
    noReturn (split ▸ List.mem_append_right _ member)
  rw [fileBuffers_cons (List.cons_ne_nil c t), List.flatten_cons, ih left, split]

theorem flatten_line (plain : OneLine line) : (fileBuffers (line ++ ['\n'])).flatten = line ++ ['\n'] := by
  refine flatten_fileBuffers ?_
  rw [List.mem_append, not_or]
  exact ⟨plain.2, by decide⟩

theorem fileBuffers_flatten_append {l : List Text} (each : ∀ b ∈ l, IsBuffer b) (rest : Text) :
    fileBuffers (l.flatten ++ rest) = l ++ fileBuffers rest := by
  induction l with
  | nil => rfl
  | cons b l ih =>
    have buffer := each b List.mem_cons_self
    have some_ : b ++ (l.flatten ++ rest) ≠ [] := List.append_ne_nil_of_left_ne_nil buffer.ne_nil _
    rw [List.flatten_cons, List.append_assoc, fileBuffers_cons some_, buffer.fbgets,
      ih fun other member => each other (List.mem_cons_of_mem _ member)]
    rfl

/-- A file that ends where a buffer does. -/
def Whole (file : Text) : Prop := ∀ b ∈ fileBuffers file, IsBuffer b

/-- **What is added to such a file** is read behind its buffers. -/
theorem Whole.append (whole : Whole file) (noReturn : '\r' ∉ file) (rest : Text) :
    fileBuffers (file ++ rest) = fileBuffers file ++ fileBuffers rest := by
  have read := fileBuffers_flatten_append whole rest
  rwa [flatten_fileBuffers noReturn] at read

def Ends (file : Text) : Prop := file = [] ∨ file.getLast? = some '\n'

theorem Ends.append_line (file line : Text) : Ends (file ++ (line ++ ['\n'])) := by
  refine .inr ?_
  rw [← List.append_assoc, List.getLast?_concat]

theorem Ends.whole (ends : Ends file) (noReturn : '\r' ∉ file) : Whole file := by
  generalize long : file.length = n
  induction n using Nat.strong_induction_on generalizing file with
  | _ n ih =>
    rcases ends with rfl | ended
    · exact nofun
    · obtain ⟨line, rest, rfl, plain⟩ := List.eq_append_cons_of_mem (List.mem_of_getLast? ended)
      have restEnds : Ends rest := by
        cases rest with
        | nil => exact .inl rfl
        | cons c rest =>
          refine .inr ?_
          rwa [List.getLast?_append_of_ne_nil _ (by simp), List.getLast?_cons_cons] at ended
      simp only [List.mem_append, List.mem_cons, not_or] at noReturn
      rw [List.length_append, List.length_cons] at long
      intro b member
      rw [fileBuffers_append ⟨plain, noReturn.1⟩] at member
      rcases List.mem_append.mp member with here | later
      · exact isBuffer_of_mem_line ⟨plain, noReturn.1⟩ here
      · exact ih rest.length (by omega) restEnds noReturn.2.2 rfl b later

theorem noReturn_of_mem (member : b ∈ fileBuffers file) : '\r' ∉ b := by
  have loop : ∀ room t, '\r' ∉ (fbgetsLoop room t).1 := by
    intro room t
    induction t generalizing room with
    | nil => cases room <;> exact List.not_mem_nil
    | cons c t ih =>
      cases room with
      | zero => exact List.not_mem_nil
      | succ room =>
        have newline : '\r' ∉ ['\n'] := by decide
        unfold fbgetsLoop
        by_cases feed : c = '\n'
        · rw [if_pos feed]
          exact newline
        · rw [if_neg feed]
          by_cases return_ : c = '\r'
          · rw [if_pos return_]
            exact newline
          · rw [if_neg return_]
            exact List.not_mem_cons_of_ne_of_not_mem (Ne.symm return_) (ih room)
  refine fileBuffers_induction (P := fun file => b ∈ fileBuffers file → '\r' ∉ b)
    (fun member => absurd member List.not_mem_nil) (fun c t ih member => ?_) file member
  rw [fileBuffers_cons (List.cons_ne_nil c t)] at member
  rcases List.mem_cons.mp member with rfl | later
  · exact loop _ _
  · exact ih later

end Buffers

/-! ### The masks of the two commands -/

section Masks

variable {t user host argv : Text}

theorem length_eq_of_irccmp {a b : Text} (proper : Char.ofNat 0 ∉ a) (properOther : Char.ofNat 0 ∉ b)
    (same : irccmp a b = 0) : a.length = b.length := by
  have folded := congrArg List.length ((irccmp_eq_zero_iff proper properOther).mp same)
  rwa [List.length_map, List.length_map] at folded

theorem irccmp_take (proper : Char.ofNat 0 ∉ t) (n : Nat) : irccmp t (t.take n) = 0 ↔ t.length ≤ n := by
  constructor
  · intro same
    have lengths := length_eq_of_irccmp proper (fun member => proper (List.mem_of_mem_take member)) same
    rw [List.length_take] at lengths
    omega
  · intro short
    rw [List.take_of_length_le short]
    exact irccmp_self t

/-- The host as `m_kline` looks at it. -/
def klineHost (host : Text) : Text := (if host = [] then ['*'] else host).take HOSTLEN

/-- `m_kline` keeps the host of a mask as it was given: it is not empty, nothing of it is cut off, and
an address has no star. -/
def KeepsHost (w : Nat) (host : Text) : Prop :=
  host ≠ [] ∧
    if (is_address w (klineHost host)).isSome then host.length ≤ 32 ∧ '*' ∉ host
    else host.length ≤ HOSTLEN

/-- The host as `m_kline` keeps it. -/
def keptHost (w : Nat) (host : Text) : Text :=
  if (is_address w (klineHost host)).isSome then cidrForm (klineHost host) else klineHost host

theorem irccmp_cidrForm (proper : Char.ofNat 0 ∉ t) :
    irccmp t (cidrForm t) = 0 ↔ t.length ≤ 32 ∧ '*' ∉ t := by
  unfold cidrForm
  dsimp only
  split_ifs with starred
  · refine ⟨fun same => ?_, fun kept => absurd (List.mem_of_mem_take starred) kept.2⟩
    exfalso
    obtain ⟨front, back, whole, plain⟩ := List.eq_append_cons_of_mem starred
    have cut : (t.take 32).takeWhile (· ≠ '*') = front := by
      rw [whole]
      exact congrArg Prod.fst (Lib.field_append_cons plain back)
    rw [cut] at same
    have properFront : Char.ofNat 0 ∉ front ++ "0/24".toList := by
      rw [List.mem_append, not_or]
      refine ⟨fun member => proper ?_, by decide⟩
      have here : Char.ofNat 0 ∈ t.take 32 := by
        rw [whole]
        exact List.mem_append_left _ member
      exact List.mem_of_mem_take here
    have text : t = front ++ '*' :: (back ++ t.drop 32) := by
      rw [← List.cons_append, ← List.append_assoc, ← whole, List.take_append_drop]
    have folded := (irccmp_eq_zero_iff proper properFront).mp same
    rw [text, List.map_append, List.map_append] at folded
    have star := (List.cons.inj (List.append_cancel_left folded)).1
    exact absurd star (by decide)
  · rw [irccmp_take proper]
    refine ⟨fun short => ⟨short, ?_⟩, And.left⟩
    rwa [List.take_of_length_le short] at starred

/-- **The host that `m_kline` keeps is the one that was given**, up to case, just when nothing was
changed. -/
theorem irccmp_keptHost (w : Nat) (proper : Char.ofNat 0 ∉ host) :
    irccmp host (keptHost w host) = 0 ↔ KeepsHost w host := by
  unfold keptHost KeepsHost
  by_cases empty : host = []
  · subst empty
    have none_ : is_address w (klineHost []) = none := rfl
    refine ⟨fun same => ?_, fun keeps => absurd rfl keeps.1⟩
    rw [none_, Option.isSome_none, if_neg Bool.false_ne_true] at same
    exact absurd same (by decide)
  have properKline : Char.ofNat 0 ∉ klineHost host := by
    unfold klineHost
    rw [if_neg empty]
    exact fun member => proper (List.mem_of_mem_take member)
  have own : klineHost host = host.take HOSTLEN := by
    unfold klineHost
    rw [if_neg empty]
  rw [and_iff_right empty]
  split_ifs with address
  · by_cases short : host.length ≤ HOSTLEN
    · rw [own, List.take_of_length_le short]
      exact irccmp_cidrForm proper
    · refine ⟨fun same => ?_, fun keeps => absurd (keeps.1.trans (by decide)) short⟩
      have lengths := length_eq_of_irccmp proper ?_ same
      · have kept := length_cidrForm (klineHost host)
        omega
      · intro member
        have other := isAddressChar_of_mem_cidrForm address member
        unfold IsAddressChar at other
        exact absurd other (by decide)
  · rw [own]
    exact irccmp_take proper HOSTLEN

end Masks

/-! ### What is dropped of the two lines -/

section Drops

variable {user host : Text} {k : Kline w} {when_ : Tm} {sptr : Klining} {buf rest : Text}

theorem colon_of_drops (drops : unklineDrops user host buf = true) : ':' ∈ buf := by
  by_contra plain
  unfold unklineDrops at drops
  have second : ¬ (buf.tail.head? = some ':' ∧ (buf.head? = some 'k' ∨ buf.head? = some 'K')) :=
    fun kline => plain (List.mem_of_mem_tail (List.mem_of_mem_head? kline.1))
  rw [if_neg second, Lib.field_eq_self plain] at drops
  split at drops <;> cases drops

/-- A `K:` buffer is dropped for its first field and what is behind its second. -/
theorem drops_kline_iff (line : cutLine buf = 'K' :: ':' :: rest) :
    unklineDrops user host buf = true ↔
      ∃ found_host comment reason found_user, field ':' rest = (found_host, some comment) ∧
        field ':' comment = (reason, some found_user) ∧
          irccmp host found_host = 0 ∧ irccmp user found_user = 0 := by
  have whole : cutLine buf ++ buf.dropWhile (· ≠ '\n') = buf := List.takeWhile_append_dropWhile
  rw [line] at whole
  have letter : buf.tail.head? = some ':' ∧ (buf.head? = some 'k' ∨ buf.head? = some 'K') := by
    rw [← whole]
    exact ⟨rfl, .inr rfl⟩
  unfold unklineDrops
  rw [if_pos letter, line, List.drop_succ_cons, List.drop_succ_cons, List.drop_zero]
  cases first : field ':' rest with
  | mk found_host left =>
    cases left with
    | none => simp
    | some comment =>
      cases second : field ':' comment with
      | mk reason left =>
        cases left <;> simp [second]

theorem drops_host_iff (line : cutLine buf = 'K' :: ':' :: (k.host ++ ':' :: rest))
    (proper : Char.ofNat 0 ∉ host) (properKept : Char.ofNat 0 ∉ k.host)
    (cut : ':' ∈ k.host → k.host.length ≤ host.length) :
    unklineDrops user host buf = true ↔
      (':' ∉ k.host ∧ irccmp host k.host = 0) ∧
        ∃ reason found_user, field ':' rest = (reason, some found_user) ∧ irccmp user found_user = 0 := by
  rw [drops_kline_iff line]
  by_cases colon : ':' ∈ k.host
  · refine iff_of_false ?_ fun drops => drops.1.1 colon
    rintro ⟨found_host, comment, reason, found_user, first, -, same, -⟩
    obtain ⟨front, back, whole, plain⟩ := List.eq_append_cons_of_mem colon
    rw [whole, List.append_assoc, List.cons_append, Lib.field_append_cons plain] at first
    obtain rfl := (Prod.mk.inj first).1
    have lengths := length_eq_of_irccmp proper (fun member => properKept (by simp [whole, member])) same
    have long := cut colon
    rw [whole, List.length_append, List.length_cons] at long
    omega
  · rw [Lib.field_append_cons colon]
    constructor
    · rintro ⟨found_host, comment, reason, found_user, first, second, same, sameUser⟩
      obtain ⟨rfl, rest⟩ := Prod.mk.inj first
      obtain rfl := Option.some.inj rest
      exact ⟨⟨colon, same⟩, reason, found_user, second, sameUser⟩
    · rintro ⟨⟨_, same⟩, reason, found_user, second, sameUser⟩
      exact ⟨_, _, reason, found_user, rfl, second, same, sameUser⟩

/-- A K-line and the mask that was given for it. -/
structure KeptFrom (k : Kline w) (user host : Text) : Prop where
  accepted : k.Accepted
  user_eq : k.user = user.take (USERLEN + 1)
  host_eq : k.host = keptHost w host
  address_eq : k.address = is_address w (klineHost host)
  proper : Char.ofNat 0 ∉ user ∧ Char.ofNat 0 ∉ host

theorem KeptFrom.properUser (kept : KeptFrom k user host) : Char.ofNat 0 ∉ k.user := by
  rw [kept.user_eq]
  exact fun member => kept.proper.1 (List.mem_of_mem_take member)

theorem KeptFrom.mem_host (kept : KeptFrom k user host) {c : Char} (other : ¬ IsAddressChar c)
    (member : c ∈ k.host) : k.host = host.take HOSTLEN := by
  rw [kept.host_eq] at member ⊢
  unfold keptHost at member ⊢
  split_ifs at member ⊢ with address
  · exact absurd (isAddressChar_of_mem_cidrForm address member) other
  · unfold klineHost at member ⊢
    split_ifs at member ⊢ with empty
    · refine absurd ?_ other
      rw [show c = '*' by simpa [HOSTLEN] using member]
      exact .inr (.inr (.inr rfl))
    · rfl

theorem KeptFrom.properHost (kept : KeptFrom k user host) : Char.ofNat 0 ∉ k.host := by
  intro member
  have whole := kept.mem_host (by unfold IsAddressChar; decide) member
  rw [whole] at member
  exact kept.proper.2 (List.mem_of_mem_take member)

/-- **The `K:` line is dropped with all that is cut off it** just when it is in one buffer, and the host
and the user of the K-line are those that were given. -/
theorem KeptFrom.drops_line (kept : KeptFrom k user host) (when_ : Tm) :
    (∀ b ∈ fileBuffers (k.front when_ ++ k.user ++ ['\n']), unklineDrops user host b = true) ↔
      (k.front when_ ++ k.user).length < BUFSIZE - 1 ∧
        (':' ∉ k.host ∧ KeepsHost w host) ∧ user.length ≤ USERLEN + 1 := by
  have plain := kept.accepted.line_kline when_
  have cut : ':' ∈ k.host → k.host.length ≤ host.length := fun colon => by
    rw [kept.mem_host (by unfold IsAddressChar; decide) colon]
    exact (List.take_sublist _ _).length_le
  have hosts := irccmp_keptHost w kept.proper.2
  have users := irccmp_take kept.proper.1 (USERLEN + 1)
  rw [← kept.host_eq] at hosts
  rw [← kept.user_eq] at users
  have reason : ':' ∉ k.passwd when_ := kept.accepted.passwd_plain.1
  by_cases fits : (k.front when_ ++ k.user).length < BUFSIZE - 1
  · have line : cutLine (k.front when_ ++ k.user ++ ['\n']) =
        'K' :: ':' :: (k.host ++ ':' :: (k.passwd when_ ++ ':' :: k.user)) := by
      rw [cutLine_append plain, Kline.front_append]
    rw [fileBuffers_short plain fits, show fileBuffers [] = [] from rfl, List.forall_mem_singleton,
      and_iff_right fits, drops_host_iff line kept.proper.2 kept.properHost cut, hosts,
      Lib.field_append_cons reason]
    refine and_congr_right fun _ => ⟨?_, fun short => ⟨_, _, rfl, users.mpr short⟩⟩
    rintro ⟨_, found_user, found, same⟩
    obtain rfl := Option.some.inj (Prod.mk.inj found).2
    exact users.mp same
  · refine iff_of_false (fun all => ?_) fun drops => fits drops.1
    rw [fileBuffers_long plain (Nat.le_of_not_lt fits), List.forall_mem_cons] at all
    obtain ⟨first, behind⟩ := all
    have line : cutLine ((k.front when_ ++ k.user).take (BUFSIZE - 1)) = _ :=
      (cutLine_eq_self (plain.take _)).trans kept.accepted.take_line
    obtain ⟨-, found, found_user, fields, same⟩ :=
      (drops_host_iff line kept.proper.2 kept.properHost cut).mp first
    by_cases front : (k.front when_).length ≤ BUFSIZE - 1
    · -- the user that is found is as long as the one that was given, so it is all of it
      rw [Kline.take_user front, Lib.field_append_cons reason] at fields
      obtain rfl := Option.some.inj (Prod.mk.inj fields).2
      have lengths := length_eq_of_irccmp kept.proper.1
        (fun member => kept.properUser (List.mem_of_mem_take member)) same
      have whole := congrArg List.length kept.user_eq
      rw [List.length_take] at lengths whole
      rw [List.length_append] at fits
      have nothing : (k.front when_ ++ k.user).drop (BUFSIZE - 1) = [] := by
        rw [List.drop_eq_nil_iff, List.length_append]
        omega
      rw [nothing] at behind
      have colon := colon_of_drops (behind ['\n'] (by decide))
      exact absurd colon (by decide)
    · rw [Kline.length_front] at front
      rw [List.take_append_of_le_length (by unfold BUFSIZE at front ⊢; omega),
        Lib.field_eq_self fun colon => reason (List.mem_of_mem_take colon)] at fields
      cases (Prod.mk.inj fields).2

theorem KeptFrom.stays_behind (kept : KeptFrom k user host) (sptr : Klining) :
    ∀ buf ∈ fileBuffers ((k.remark sptr).drop (BUFSIZE - 1) ++ ['\n']),
      unklineDrops user host buf = false := by
  intro buf member
  rw [← Bool.not_eq_true]
  intro drops
  have behind : OneLine ((k.remark sptr).drop (BUFSIZE - 1)) :=
    (kept.accepted.line_remark sptr).mono fun _ member => List.mem_of_mem_drop member
  have colon : ':' ∈ (fileBuffers ((k.remark sptr).drop (BUFSIZE - 1) ++ ['\n'])).flatten :=
    List.mem_flatten.mpr ⟨buf, member, colon_of_drops drops⟩
  rw [flatten_line behind, List.mem_append, List.mem_singleton] at colon
  rcases colon with colon | newline
  · exact kept.accepted.comment_plain.1 ((kept.accepted.drop_remark sptr).subset colon)
  · exact absurd newline (by decide)

/-- The remark is dropped when it is in one buffer, and is one on a K-line of the mask. -/
theorem KeptFrom.drops_remark (kept : KeptFrom k user host) (sptr : Klining) :
    (∀ buf ∈ fileBuffers (k.remark sptr ++ ['\n']), unklineDrops user host buf = true) ↔
      (k.remark sptr).length < BUFSIZE - 1 ∧ unklineDrops user host (k.remark sptr ++ ['\n']) = true := by
  have plain := kept.accepted.line_remark sptr
  by_cases fits : (k.remark sptr).length < BUFSIZE - 1
  · rw [fileBuffers_short plain fits, show fileBuffers [] = [] from rfl, List.forall_mem_singleton,
      and_iff_right fits]
  · refine iff_of_false (fun all => ?_) fun goes => fits goes.1
    rw [fileBuffers_long plain (Nat.le_of_not_lt fits), List.forall_mem_cons] at all
    have some_ : (k.remark sptr).drop (BUFSIZE - 1) ++ ['\n'] ≠ [] := by simp
    rw [fileBuffers_cons some_] at all
    have first : unklineDrops user host _ = false :=
      kept.stays_behind sptr _ (fileBuffers_cons some_ ▸ List.mem_cons_self)
    rw [all.2 _ List.mem_cons_self] at first
    cases first

theorem KeptFrom.keeps_remark (kept : KeptFrom k user host) (sptr : Klining) :
    (∀ buf ∈ fileBuffers (k.remark sptr ++ ['\n']), unklineDrops user host buf = false) ↔
      unklineDrops user host ((k.remark sptr ++ ['\n']).take (BUFSIZE - 1)) = false := by
  have plain := kept.accepted.line_remark sptr
  by_cases fits : (k.remark sptr).length < BUFSIZE - 1
  · rw [fileBuffers_short plain fits, show fileBuffers [] = [] from rfl, List.forall_mem_singleton,
      List.take_of_length_le (by simpa using Nat.succ_le_of_lt fits)]
  · have long := Nat.le_of_not_lt fits
    rw [fileBuffers_long plain long, List.forall_mem_cons, List.take_append_of_le_length long]
    exact and_iff_left (kept.stays_behind sptr)

end Drops

/-! ### The file after both commands -/

/-- What has to be the case for the K-line to be taken out of the file, and nothing else: no line ends
in a carriage return, the K-line is read from a new buffer on, no other is taken for one of the mask,
the remark goes or stays whole, the `K:` line is read whole, and the mask is kept as it was given. -/
structure UndoesPermanent (file user host : Text) (k : Kline w) (sptr : Klining) (when_ : Tm) :
    Prop where
  noReturn : '\r' ∉ file
  whole : Whole file
  others : ∀ buf ∈ fileBuffers file, unklineDrops user host buf = false
  remark : (k.remark sptr).length < BUFSIZE - 1 ∧
      unklineDrops user host (k.remark sptr ++ ['\n']) = true ∨
    Ends file ∧ unklineDrops user host ((k.remark sptr ++ ['\n']).take (BUFSIZE - 1)) = false
  line : (k.front when_ ++ k.user).length < BUFSIZE - 1
  host : ':' ∉ host ∧ KeepsHost w host
  user : user.length ≤ USERLEN + 1

/-- The file is as before, or the remark is left in it as a line of its own. -/
def FileRestored (file file' : Text) (k : Kline w) (sptr : Klining) : Prop :=
  file' = file ∨ Ends file ∧ file' = file ++ (k.remark sptr ++ ['\n'])

section File

variable {file user host : Text} {k : Kline w} {when_ : Tm} {sptr : Klining}

theorem keptHost_eq (keeps : KeepsHost w host) : keptHost w host = host := by
  obtain ⟨some_, keeps⟩ := keeps
  unfold keptHost
  split_ifs at keeps ⊢ with address
  · have whole : klineHost host = host := by
      unfold klineHost
      rw [if_neg some_, List.take_of_length_le (keeps.1.trans (by decide))]
    rw [whole]
    unfold cidrForm
    rw [List.take_of_length_le keeps.1]
    exact if_neg keeps.2
  · unfold klineHost
    rw [if_neg some_, List.take_of_length_le keeps]

/-- What a filter leaves of buffers is nothing only if it leaves no buffer. -/
theorem flatten_filter_eq_nil {l : List Text} (buffers : ∀ b ∈ l, IsBuffer b) :
    (l.filter fun buf => !unklineDrops user host buf).flatten = [] ↔
      ∀ b ∈ l, unklineDrops user host b = true := by
  rw [List.flatten_eq_nil_iff]
  constructor
  · intro none_ b member
    by_contra stays
    have kept : b ∈ l.filter fun buf => !unklineDrops user host buf :=
      List.mem_filter.mpr ⟨member, by simpa using stays⟩
    exact (buffers b member).ne_nil (none_ b kept)
  · intro dropped b kept
    obtain ⟨member, stays⟩ := List.mem_filter.mp kept
    rw [dropped b member] at stays
    cases stays

theorem filter_eq_self_of_stays {l : List Text} (stays : ∀ b ∈ l, unklineDrops user host b = false) :
    l.filter (fun buf => !unklineDrops user host buf) = l :=
  List.filter_eq_self.mpr fun b member => by simp [stays b member]

theorem stays_of_flatten_filter {l m : List Text} {u : Text} (own : ∀ b ∈ l, IsBuffer b)
    (added : ∀ b ∈ m, IsBuffer b)
    (same : ((l ++ m).filter fun buf => !unklineDrops user host buf).flatten = l.flatten ++ u) :
    ∀ b ∈ l, unklineDrops user host b = false := fun b member => by
  have each : ∀ b ∈ l ++ m, IsBuffer b ∧ b ≠ [] := fun b there => by
    have buffer := (List.mem_append.mp there).elim (own b) (added b)
    exact ⟨buffer, buffer.ne_nil⟩
  simpa using Lib.keep_of_flatten_filter IsBuffer.eq_of_append each same b member

/-- The file after the `KLINE` has no carriage return if it had none, and its last line ends. -/
theorem KeptFrom.whole_added (kept : KeptFrom k user host) (sptr : Klining) (when_ : Tm)
    (noReturn : '\r' ∉ file) : Whole (file ++ WriteKline sptr k when_) := by
  have remarkLine := kept.accepted.line_remark sptr
  have klineLine := kept.accepted.line_kline when_
  have ends : Ends (file ++ WriteKline sptr k when_) := by
    have last := Ends.append_line (file ++ (k.remark sptr ++ ['\n'])) (k.front when_ ++ k.user)
    unfold WriteKline
    simpa using last
  refine ends.whole ?_
  have newline : '\r' ∉ ['\n'] := by decide
  rw [WriteKline, List.mem_append, List.mem_append, ← List.singleton_append, List.mem_append,
    List.mem_append]
  exact fun member => member.elim noReturn (·.elim remarkLine.2 (·.elim newline (·.elim klineLine.2 newline)))

/-- A file that is restored had no carriage return, and ended where a buffer does. -/
theorem KeptFrom.whole_of_restored (kept : KeptFrom k user host) (sptr : Klining) (when_ : Tm)
    (restored : FileRestored file (unklineFile user host (file ++ WriteKline sptr k when_)) k sptr) :
    '\r' ∉ file ∧ Whole file := by
  have noReturn : '\r' ∉ file := by
    intro member
    have left : '\r' ∈ unklineFile user host (file ++ WriteKline sptr k when_) := by
      rcases restored with same | ⟨-, same⟩
      · rwa [same]
      · rw [same]
        exact List.mem_append_left _ member
    obtain ⟨buf, here, inside⟩ := List.mem_flatten.mp left
    exact noReturn_of_mem (List.mem_filter.mp here).1 inside
  refine ⟨noReturn, ?_⟩
  rcases restored with same | ⟨ends, -⟩
  · have buffers : ∀ b ∈ (fileBuffers (file ++ WriteKline sptr k when_)).filter
        fun buf => !unklineDrops user host buf, IsBuffer b := fun b member =>
      kept.whole_added sptr when_ noReturn b (List.mem_filter.mp member).1
    have read := fileBuffers_flatten_append buffers []
    rw [List.append_nil, show fileBuffers [] = [] from rfl, List.append_nil] at read
    rw [Whole, ← same]
    exact read ▸ buffers
  · exact ends.whole noReturn

/-- **The file after both commands** is restored just when the K-line is such a one. -/
theorem KeptFrom.unklineFile_iff (kept : KeptFrom k user host) (sptr : Klining) (when_ : Tm) :
    FileRestored file (unklineFile user host (file ++ WriteKline sptr k when_)) k sptr ↔
      UndoesPermanent file user host k sptr when_ := by
  have remarkLine := kept.accepted.line_remark sptr
  have klineLine := kept.accepted.line_kline when_
  have hosts : ':' ∉ k.host ∧ KeepsHost w host ↔ ':' ∉ host ∧ KeepsHost w host :=
    and_congr_left fun keeps => by rw [kept.host_eq, keptHost_eq keeps]
  have remarkBuffers : ∀ b ∈ fileBuffers (k.remark sptr ++ ['\n']), IsBuffer b := fun b =>
    isBuffer_of_mem_line remarkLine
  have klineBuffers : ∀ b ∈ fileBuffers (k.front when_ ++ k.user ++ ['\n']), IsBuffer b := fun b =>
    isBuffer_of_mem_line klineLine
  have pieces : ∀ b ∈ fileBuffers (k.remark sptr ++ ['\n']) ++
      fileBuffers (k.front when_ ++ k.user ++ ['\n']), IsBuffer b := fun b member =>
    (List.mem_append.mp member).elim (remarkBuffers b) (klineBuffers b)
  have split : Whole file → '\r' ∉ file → fileBuffers (file ++ WriteKline sptr k when_) =
      fileBuffers file ++ (fileBuffers (k.remark sptr ++ ['\n']) ++
        fileBuffers (k.front when_ ++ k.user ++ ['\n'])) := fun whole noReturn => by
    rw [whole.append noReturn, WriteKline, fileBuffers_append remarkLine]
  constructor
  · intro restored
    obtain ⟨noReturn, whole⟩ := kept.whole_of_restored sptr when_ restored
    rw [FileRestored, unklineFile, split whole noReturn] at restored
    have own := flatten_fileBuffers noReturn
    have others : ∀ buf ∈ fileBuffers file, unklineDrops user host buf = false := by
      rcases restored with same | ⟨-, same⟩
      · exact stays_of_flatten_filter whole pieces (same.trans (by rw [own, List.append_nil]))
      · exact stays_of_flatten_filter whole pieces (same.trans (by rw [own]))
    rw [List.filter_append, List.flatten_append, filter_eq_self_of_stays others, own] at restored
    -- what is left of the two lines is nothing, or the remark
    obtain ⟨remark, klines⟩ : (_ ∨ Ends file ∧ _) ∧
        ∀ b ∈ fileBuffers (k.front when_ ++ k.user ++ ['\n']), unklineDrops user host b = true := by
      rcases restored with same | ⟨ends, same⟩
      · have none_ := (flatten_filter_eq_nil pieces).mp (List.append_right_eq_self.mp same)
        rw [List.forall_mem_append] at none_
        exact ⟨.inl ((kept.drops_remark sptr).mp none_.1), none_.2⟩
      · have lines := List.append_cancel_left same
        have stays := stays_of_flatten_filter remarkBuffers klineBuffers
          (lines.trans (by rw [flatten_line remarkLine, List.append_nil]))
        rw [List.filter_append, List.flatten_append, filter_eq_self_of_stays stays,
          flatten_line remarkLine] at lines
        exact ⟨.inr ⟨ends, (kept.keeps_remark sptr).mp stays⟩,
          (flatten_filter_eq_nil klineBuffers).mp (List.append_right_eq_self.mp lines)⟩
    obtain ⟨line, host, user⟩ := (kept.drops_line when_).mp klines
    exact ⟨noReturn, whole, others, remark, line, hosts.mp host, user⟩
  · intro undoes
    have dropped := (kept.drops_line when_).mpr ⟨undoes.line, hosts.mpr undoes.host, undoes.user⟩
    have klines := (flatten_filter_eq_nil klineBuffers).mpr dropped
    rw [FileRestored, unklineFile, split undoes.whole undoes.noReturn, List.filter_append,
      List.filter_append, filter_eq_self_of_stays undoes.others, List.flatten_append,
      List.flatten_append, klines, List.append_nil, flatten_fileBuffers undoes.noReturn]
    rcases undoes.remark with goes | ⟨ends, stays⟩
    · have none_ := (flatten_filter_eq_nil remarkBuffers).mpr ((kept.drops_remark sptr).mpr goes)
      exact .inl (by rw [none_, List.append_nil])
    · have all := filter_eq_self_of_stays ((kept.keeps_remark sptr).mpr stays)
      exact .inr ⟨ends, by rw [all, flatten_line remarkLine]⟩

end File

/-! ### The lists after both commands -/

/-- What has to be the case for a temporary K-line to be the one that goes: a mask without an address
is kept as it was given, and an address has no bits behind its mask. -/
def UndoesTemporary (w : Nat) (user host : Text) : Prop :=
  if unklineIp w host ≠ 0 then
    ∃ found, is_address w (klineHost host) = some found ∧ found.1 ≠ 0 ∧
      unklineIp w host &&& found.2 = found.1
  else
    (∀ found, is_address w (klineHost host) = some found → found.1 = 0) ∧ KeepsHost w host ∧
      user.length ≤ USERLEN + 1

/-- The temporary K-lines have none that an `UNKLINE` of the mask takes. -/
def NoTemporary (l : Ledger w) (user host : Text) : Prop :=
  if unklineIp w host ≠ 0 then ∀ e ∈ l.ips, Tkline.sameIp (unklineIp w host) e.2 = false
  else ∀ e ∈ l.hosts, Tkline.sameHost host user e.2 = false

section Lists

variable {s : Tklines w} {l : Ledger w} {user host : Text} {ip : BitVec w} {place : Nat} {kill : Tkline w}
variable {k : Kline w}

/-- What `remove_tkline_match` looks for. -/
def Takes (host user : Text) (ip : BitVec w) (kill : Tkline w) : Prop :=
  if ip ≠ 0 then kill.ip ≠ 0 ∧ Tkline.sameIp ip kill = true
  else kill.ip = 0 ∧ Tkline.sameHost host user kill = true

theorem irccmp_comm {a b : Text} : irccmp a b = 0 ↔ irccmp b a = 0 :=
  ⟨irccmp_eq_zero_comm, irccmp_eq_zero_comm⟩

/-- **The temporary K-line of a mask is one that an `UNKLINE` of the mask looks for**, just when it is
such a mask. -/
theorem KeptFrom.takes_iff (kept : KeptFrom k user host) (minutes : Int32) (now : Int) :
    Takes host user (unklineIp w host) (k.tkline minutes now) ↔ UndoesTemporary w user host := by
  have hosts := irccmp_keptHost w kept.proper.2
  have users := irccmp_take kept.proper.1 (USERLEN + 1)
  unfold Takes UndoesTemporary Kline.tkline Tkline.sameIp Tkline.sameHost
  rw [kept.address_eq, kept.user_eq, kept.host_eq]
  split_ifs with address
  · cases is_address w (klineHost host) with
    | none => simp
    | some found => simp
  · rw [Bool.and_eq_true, beq_iff_eq, beq_iff_eq, irccmp_comm, hosts, irccmp_comm, users]
    cases is_address w (klineHost host) with
    | none => simp
    | some found => simp

theorem TklinesKept.fresh (kept : TklinesKept s l) (room : s.memory place = none) :
    (place, kill) ∉ l.hosts ∧ (place, kill) ∉ l.ips := by
  have apart : ∀ {next : Option Nat}, s.memory place ≠ some ⟨kill, next⟩ := by
    rw [room]
    nofun
  exact ⟨fun member => apart (kept.holds.first.alloc member).choose_spec,
    fun member => apart (kept.holds.second.alloc member).choose_spec⟩

theorem cons_ne_of_fresh {l : List (Nat × Tkline w)} {e : Nat × Tkline w} (fresh : e ∉ l) : e :: l ≠ l :=
  fun same => fresh (same ▸ List.mem_cons_self)

/-- The lists are those before just when what was added is what was taken out of the one list, and the
other was left alone. -/
theorem eraseP_cons_eq {l : List (Nat × Tkline w)} {e : Nat × Tkline w} (p : Nat × Tkline w → Bool)
    (fresh : e ∉ l) : (e :: l).eraseP p = l ↔ p e = true := by
  cases found : p e with
  | true => simp [List.eraseP_cons_of_pos found]
  | false =>
    rw [List.eraseP_cons_of_neg (by simp [found])]
    exact iff_of_false (fun same => fresh (same ▸ List.mem_cons_self)) Bool.false_ne_true

/-- **An entry that was added and is looked for goes, and no other**: the lists are those before just
when the entry is one that is looked for. -/
theorem removed_iff (kept : TklinesKept s l) (room : s.memory place = none) (host user : Text)
    (ip : BitVec w) :
    TklinesKept ((s.add_temp_kline place kill).remove_tkline_match host user ip).1 l ↔
      Takes host user ip kill := by
  have removed : TklinesKept ((s.add_temp_kline place kill).remove_tkline_match host user ip).1 _ :=
    (kept.add_temp_kline room).remove_tkline_match host user ip
  obtain ⟨freshHosts, freshIps⟩ : (place, kill) ∉ l.hosts ∧ (place, kill) ∉ l.ips := kept.fresh room
  have before : TklinesKept ((s.add_temp_kline place kill).remove_tkline_match host user ip).1 l ↔
      _ = l := ⟨removed.unique, fun same => same ▸ removed⟩
  rw [before]
  clear before removed kept
  obtain ⟨hosts, ips⟩ := l
  unfold Takes
  by_cases wanted : ip ≠ 0
  · rw [if_pos wanted, if_pos wanted]
    by_cases address : kill.ip = 0
    · rw [if_pos address, Ledger.mk.injEq]
      exact iff_of_false (fun same => cons_ne_of_fresh freshHosts same.1) fun takes => takes.1 address
    · rw [if_neg address, Ledger.mk.injEq, and_iff_right rfl, and_iff_right address]
      exact eraseP_cons_eq (fun e => Tkline.sameIp ip e.2) freshIps
  · rw [if_neg wanted, if_neg wanted]
    by_cases address : kill.ip = 0
    · rw [if_pos address, Ledger.mk.injEq, and_iff_left rfl, and_iff_right address]
      exact eraseP_cons_eq (fun e => Tkline.sameHost host user e.2) freshHosts
    · rw [if_neg address, Ledger.mk.injEq]
      exact iff_of_false (fun same => cons_ne_of_fresh freshIps same.2) fun takes => address takes.1

theorem removed_of_takes (kept : TklinesKept s l) (room : s.memory place = none)
    (takes : Takes host user ip kill) :
    ((s.add_temp_kline place kill).remove_tkline_match host user ip).2 = true := by
  have found : ((s.add_temp_kline place kill).remove_tkline_match host user ip).2 = _ :=
    ((kept.add_temp_kline room).removed host user ip).2
  rw [found]
  clear found
  unfold Takes at takes
  by_cases wanted : ip ≠ 0
  · rw [if_pos wanted] at takes ⊢
    rw [if_neg takes.1, List.any_cons, takes.2]
    rfl
  · rw [if_neg wanted] at takes ⊢
    rw [if_pos takes.1, List.any_cons, takes.2]
    rfl

/-- **The lists are left alone** just when they have no entry that is looked for. -/
theorem noTemporary_iff (kept : TklinesKept s l) (user host : Text) :
    NoTemporary l user host ↔ (s.remove_tkline_match host user (unklineIp w host)).2 = false := by
  rw [(kept.removed host user (unklineIp w host)).2]
  unfold NoTemporary
  split_ifs with wanted
  · rw [List.any_eq_false]
    simp
  · rw [List.any_eq_false]
    simp

theorem eraseP_eq_self_iff_any {l : List (Nat × Tkline w)} {p : Nat × Tkline w → Bool} :
    l.eraseP p = l ↔ l.any p = false := by
  rw [List.any_eq_false]
  exact List.eraseP_eq_self_iff

theorem kept_removed_iff (kept : TklinesKept s l) (host user : Text) (ip : BitVec w) :
    TklinesKept (s.remove_tkline_match host user ip).1 l ↔
      (s.remove_tkline_match host user ip).2 = false := by
  obtain ⟨removed, found⟩ := kept.removed host user ip
  have before : TklinesKept (s.remove_tkline_match host user ip).1 l ↔ _ = l :=
    ⟨removed.unique, fun same => same ▸ removed⟩
  rw [before, found]
  clear before removed kept found
  obtain ⟨hosts, ips⟩ := l
  split_ifs with wanted
  · rw [Ledger.mk.injEq, and_iff_right rfl]
    exact eraseP_eq_self_iff_any
  · rw [Ledger.mk.injEq, and_iff_left rfl]
    exact eraseP_eq_self_iff_any

end Lists

/-! ### Both commands -/

/-- What has to be the case for the K-line of a command to be undone. -/
def Undoes (st : KlineState w) (l : Ledger w) (parv : List Text) (sptr : Klining) (when_ : Tm) : Prop :=
  let asked := klineAsked w parv
  if isnumber (parv.getD 1 []) ≠ 0 then UndoesTemporary w asked.user asked.host
  else
    NoTemporary l asked.user asked.host ∧
      UndoesPermanent st.file asked.user asked.host asked sptr when_

/-- The K-lines are those before: the temporary ones, with a ledger of theirs, and the file. -/
def Undone (st st' : KlineState w) (l : Ledger w) (k : Kline w) (sptr : Klining) : Prop :=
  TklinesKept st'.tklines l ∧
    match k.minutes with
    | some _ => st'.file = st.file
    | none => FileRestored st.file st'.file k sptr

section Both

variable {st : KlineState w} {l : Ledger w} {env : KlineEnv w} {sptr : Klining} {parv undo : List Text}
variable {k : Kline w} {user host argv : Text} {minutes : Option Int32} {comment : Option Text}

theorem maskOf_mask (mask : IsMask argv) :
    env.maskOf argv = some ((maskUser argv).take (USERLEN + 1), klineHost (maskHost argv)) := by
  unfold KlineEnv.maskOf
  exact if_pos mask

theorem lineOf_some (added : env.lineOf minutes user host comment = some k) :
    (k.minutes = minutes ∧ k.reason = comment.filter (· ≠ [])) ∧ k.user = user ∧
      k.address = is_address w host ∧
      k.host = (if (is_address w host).isSome then cidrForm host else host) ∧
      NONWILDCHARS ≤ nonwild user host := by
  unfold KlineEnv.lineOf at added
  dsimp only at added
  split_ifs at added with refused wild address klined klined
  all_goals
    obtain rfl := Option.some.inj added
    exact ⟨⟨rfl, rfl⟩, rfl, rfl, by simp [address], Nat.le_of_not_lt wild⟩

/-- **The K-line of a mask**, with the time and the reason that are given. -/
theorem keptFrom_of_m_kline (lines : ∀ p ∈ parv, OneLine p) (proper : Char.ofNat 0 ∉ klineMask parv)
    (mask : IsMask (klineMask parv)) (added : m_kline env sptr parv = some k) :
    KeptFrom k (klineAsked w parv).user (klineAsked w parv).host ∧
      (k.reason = (klineAsked w parv).reason ∧ (isnumber (parv.getD 1 []) ≠ 0 ↔ k.minutes.isSome)) ∧
      ¬ ((klineAsked w parv).user = ['*'] ∧ (klineAsked w parv).host = ['*']) := by
  have accepted := accepted_of_m_kline lines added
  replace added : env.lineOf
      (if isnumber (parv.getD 1 []) ≠ 0 then some (min (isnumber (parv.getD 1 [])) (24 * 60)) else none)
      ((maskUser (klineMask parv)).take (USERLEN + 1)) (klineHost (maskHost (klineMask parv)))
      (klineArgs parv)[2]? = some k := by
    unfold m_kline at added
    unfold klineMask klineArgs at mask ⊢
    dsimp only at added
    split at added
    · cases added
    generalize (if isnumber (parv.getD 1 []) ≠ 0 then parv.tail else parv) = rest at mask added ⊢
    by_cases few : rest.length < 2
    · rw [if_pos few] at added
      cases added
    · rwa [if_neg few, maskOf_mask mask] at added
  obtain ⟨⟨minutes, reason⟩, user, address, host, wild⟩ := lineOf_some added
  refine ⟨⟨accepted, user, host, address, ?_⟩, ⟨reason, ?_⟩, ?_⟩
  · constructor
    · intro member
      change Char.ofNat 0 ∈ maskUser _ at member
      unfold maskUser at member
      split at member
      · exact proper ((List.takeWhile_sublist _).subset member)
      · exact absurd member (by decide)
    · intro member
      change Char.ofNat 0 ∈ maskHost _ at member
      unfold maskHost at member
      split at member
      · exact proper ((List.dropWhile_sublist _).subset (List.mem_of_mem_tail member))
      · exact proper member
  · rw [minutes]
    split_ifs with temporary
    · exact iff_of_true temporary rfl
    · exact iff_of_false temporary Bool.false_ne_true
  · rintro ⟨star, star'⟩
    rw [show maskUser (klineMask parv) = ['*'] from star,
      show maskHost (klineMask parv) = ['*'] from star'] at wild
    exact absurd wild (by decide)

/-- What is written for a K-line that is kept as it was given is what the command asks for. -/
theorem KeptFrom.undoes_iff {asked : Kline w} {file : Text} {when_ : Tm}
    (kept : KeptFrom k asked.user asked.host) (reason : k.reason = asked.reason) :
    UndoesPermanent file asked.user asked.host k sptr when_ ↔
      UndoesPermanent file asked.user asked.host asked sptr when_ := by
  have written (host : KeepsHost w asked.host) (user : asked.user.length ≤ USERLEN + 1) :
      k.remark sptr = asked.remark sptr ∧ k.front when_ = asked.front when_ ∧ k.user = asked.user := by
    have sameUser : k.user = asked.user := kept.user_eq.trans (List.take_of_length_le user)
    have sameHost : k.host = asked.host := kept.host_eq.trans (keptHost_eq host)
    refine ⟨?_, ?_, sameUser⟩
    · unfold Kline.remark Kline.comment
      rw [sameUser, sameHost, reason]
    · unfold Kline.front Kline.passwd Kline.comment
      rw [sameHost, reason]
  constructor
  · rintro ⟨noReturn, whole, others, remark, line, host, user⟩
    obtain ⟨sameRemark, sameFront, sameUser⟩ := written host.2 user
    rw [sameRemark] at remark
    rw [sameFront, sameUser] at line
    exact ⟨noReturn, whole, others, remark, line, host, user⟩
  · rintro ⟨noReturn, whole, others, remark, line, host, user⟩
    obtain ⟨sameRemark, sameFront, sameUser⟩ := written host.2 user
    rw [← sameRemark] at remark
    rw [← sameFront, ← sameUser] at line
    exact ⟨noReturn, whole, others, remark, line, host, user⟩

/-- An `UNKLINE` of the mask of a `KLINE`, when that is explicit and not for everyone. -/
theorem KlineState.m_unkline_eq (st : KlineState w) (mask : IsMask (klineMask parv))
    (some_ : ¬ ((klineAsked w parv).user = ['*'] ∧ (klineAsked w parv).host = ['*']))
    (again : 2 ≤ undo.length ∧ undo.getD 1 [] = klineMask parv) :
    st.m_unkline true true undo =
      let asked := klineAsked w parv
      let removed := st.tklines.remove_tkline_match asked.host asked.user (unklineIp w asked.host)
      if removed.2 then { st with tklines := removed.1 }
      else { tklines := removed.1, file := unklineFile asked.user asked.host st.file } := by
  have enough : decide (undo.length < 2) = false := decide_eq_false (Nat.not_lt.mpr again.1)
  unfold KlineState.m_unkline
  rw [enough, if_neg (by decide), again.2]
  exact if_neg fun refused => refused.elim (fun other => other mask) some_

/-- **An `UNKLINE` takes a `KLINE` of the same mask back** — the temporary lists are those before, and
so is the file but for the remark — just when the K-line is one that it takes for its own and takes
no other for. -/
theorem m_unkline_undoes (now : Int) (place : Nat) (when_ : Tm) (lines : ∀ p ∈ parv, OneLine p)
    (proper : Char.ofNat 0 ∉ klineMask parv) (mask : IsMask (klineMask parv))
    (added : m_kline env sptr parv = some k) (kept : TklinesKept st.tklines l)
    (room : st.tklines.memory place = none)
    (again : 2 ≤ undo.length ∧ undo.getD 1 [] = klineMask parv) :
    Undone st ((st.m_kline env sptr parv now place when_).m_unkline true true undo) l k sptr ↔
      Undoes st l parv sptr when_ := by
  obtain ⟨keptFrom, ⟨reason, temporary⟩, some_⟩ := keptFrom_of_m_kline lines proper mask added
  rw [KlineState.m_unkline_eq _ mask some_ again, KlineState.m_kline, added]
  unfold Undone Undoes
  simp only [temporary]
  generalize klineAsked w parv = asked at keptFrom reason ⊢
  cases k.minutes with
  | some minutes =>
    rw [if_pos (show (some minutes).isSome = true from rfl)]
    have takes := keptFrom.takes_iff minutes now
    have lists : TklinesKept _ l ↔ Takes _ _ _ (k.tkline minutes now) :=
      removed_iff kept room asked.host asked.user (unklineIp w asked.host)
    cases found : ((st.tklines.add_temp_kline place (k.tkline minutes now)).remove_tkline_match asked.host
      asked.user (unklineIp w asked.host)).2 with
    | true =>
      rw [if_pos rfl, and_iff_left rfl, lists, takes]
    | false =>
      have none_ : ¬ Takes asked.host asked.user (unklineIp w asked.host) (k.tkline minutes now) :=
        fun takes => by
          rw [removed_of_takes kept room takes] at found
          cases found
      rw [if_neg Bool.false_ne_true, lists, takes]
      rw [takes] at none_
      exact iff_of_false (fun undone => none_ undone.1) none_
  | none =>
    rw [if_neg (show ¬ (none : Option Int32).isSome = true from Bool.false_ne_true)]
    have lists := kept_removed_iff kept asked.host asked.user (unklineIp w asked.host)
    rw [noTemporary_iff kept]
    cases found : (st.tklines.remove_tkline_match asked.host asked.user (unklineIp w asked.host)).2 with
    | true =>
      rw [found] at lists
      rw [if_pos rfl, lists]
      exact iff_of_false (fun undone => Bool.noConfusion undone.1) fun undoes => Bool.noConfusion undoes.1
    | false =>
      rw [found] at lists
      rw [if_neg Bool.false_ne_true, lists, and_iff_right rfl, and_iff_right rfl,
        ← keptFrom.undoes_iff reason]
      exact keptFrom.unklineFile_iff sptr when_

end Both

/-- A K-line behind another is taken back. -/
theorem m_unkline_undoes_sample :
    ∃ k : Kline 64,
      m_kline sampleKlineEnv sampleKlining ["ann".toList, "abcd@10.1.2.0/24".toList] = some k ∧
        Undone ⟨.start, "K:c.example:x:abcd\n".toList⟩
          ((KlineState.m_kline ⟨.start, "K:c.example:x:abcd\n".toList⟩ sampleKlineEnv sampleKlining
            ["ann".toList, "abcd@10.1.2.0/24".toList] 0 5 sampleTm).m_unkline true true
              ["ann".toList, "abcd@10.1.2.0/24".toList]) ⟨[], []⟩ k sampleKlining := by
  have lines : ∀ p ∈ ["ann".toList, "abcd@10.1.2.0/24".toList], OneLine p := by
    intro p member
    simp only [List.mem_cons, List.not_mem_nil, or_false] at member
    rcases member with rfl | rfl <;> exact ⟨by decide, by decide⟩
  have ends : Ends "K:c.example:x:abcd\n".toList := .inr (by decide)
  have keeps : KeepsHost 64 "10.1.2.0/24".toList := by
    refine ⟨by decide, ?_⟩
    rw [if_pos (by decide +kernel)]
    exact ⟨by decide, by decide⟩
  refine ⟨⟨none, "abcd".toList, "10.1.2.0/24".toList, some (0x0a010200, 0xffffff00), none⟩,
    by decide +kernel, ?_⟩
  refine (m_unkline_undoes 0 5 sampleTm lines (by decide) (by decide) (by decide +kernel) .start rfl
    ⟨by decide, rfl⟩).mpr ⟨?_, ?_⟩
  · exact (noTemporary_iff .start _ _).mpr rfl
  · exact
      { noReturn := by decide
        whole := ends.whole (by decide)
        others := by decide +kernel
        remark := .inl ⟨by decide, by decide +kernel⟩
        line := by decide
        host := ⟨by decide, keeps⟩
        user := by decide }

/-- **The K-line of a mask with a star in an address stays**: the file has the address with its
prefix. -/
theorem not_m_unkline_undoes :
    ∃ k : Kline 64,
      m_kline sampleKlineEnv sampleKlining ["ann".toList, "abcd@10.1.2.*".toList] = some k ∧
        k.minutes = none ∧
        ((KlineState.m_kline ⟨.start, []⟩ sampleKlineEnv sampleKlining
          ["ann".toList, "abcd@10.1.2.*".toList] 0 5 sampleTm).m_unkline true true
            ["ann".toList, "abcd@10.1.2.*".toList]).file =
          ("#ann!ann@a.example K'd: abcd@10.1.2.0/24:No reason\n" ++
            "K:10.1.2.0/24:No reason (2005/01/01 00.00):abcd\n").toList ∧
        ¬ Undone ⟨.start, []⟩
          ((KlineState.m_kline ⟨.start, []⟩ sampleKlineEnv sampleKlining
            ["ann".toList, "abcd@10.1.2.*".toList] 0 5 sampleTm).m_unkline true true
              ["ann".toList, "abcd@10.1.2.*".toList]) ⟨[], []⟩ k sampleKlining := by
  refine ⟨⟨none, "abcd".toList, "10.1.2.0/24".toList, some (0x0a010200, 0xffffff00), none⟩,
    by decide +kernel, rfl, by decide +kernel, ?_⟩
  rintro ⟨-, same | ⟨-, same⟩⟩
  · exact absurd same (by decide +kernel)
  · exact absurd same (by decide +kernel)

end PtlinkIrcd
