/-
**K-lines in the file.**

`WriteKline` of `m_kline.c`, and `initconf` of `s_conf.c` as it reads `kline.conf`, where it includes
no other files.

* `WriteKline` — the two lines that a K-line adds to the file: a remark and the `K:` line.
* `fbgets`, `fileBuffers` — the lines of a file in a buffer of `BUFSIZE`.
* `confLine`, `initconf` — the entries of the lines.
* `confLine_remark`, `Kline.Accepted.initconf_eq` — what the two lines are read as.
* `initconf_WriteKline` — **the K-line is read back as it was written just when** no field has a
  colon or a backslash and the `K:` line fits in the buffer, as far as it matters.
* `not_initconf_WriteKline` — a backslash in a reason is lost.
-/

import PtlinkIrcd.Conf.Kline

namespace PtlinkIrcd

open Lib (unescape field nextField)

/-! ### Writing -/

namespace Kline

variable {w : Nat} (k : Kline w)

def comment : Text := k.reason.getD "No reason".toList

/-- `aconf->passwd`: the reason with the time. -/
def passwd (when_ : Tm) : Text := k.comment ++ " (".toList ++ smalldate when_ ++ ")".toList

/-- The remark of `WriteKline`, up to the end of the line. -/
def remark (sptr : Klining) : Text :=
  "#".toList ++ sptr.name ++ "!".toList ++ sptr.username ++ "@".toList ++ sptr.realhost ++
    " K'd: ".toList ++ k.user ++ "@".toList ++ k.host ++ ":".toList ++ k.comment

/-- The `K:` line of `WriteKline`, up to the user. -/
def front (when_ : Tm) : Text := 'K' :: ':' :: (k.host ++ ':' :: (k.passwd when_ ++ [':']))

end Kline

/-- `WriteKline`: what it adds to the file. -/
def WriteKline {w : Nat} (sptr : Klining) (k : Kline w) (when_ : Tm) : Text :=
  k.remark sptr ++ '\n' :: (k.front when_ ++ k.user ++ ['\n'])

/-! ### Reading -/

/-- The loop of `fbgets`, with the room that is left: what it puts into the buffer and what it leaves
in the file. The end of the line is put there too. -/
def fbgetsLoop : Nat → Text → Text × Text
  | 0, t => ([], t)
  | _ + 1, [] => ([], [])
  | len + 1, c :: t =>
    if c = '\n' then (['\n'], t)
    else if c = '\r' then (['\n'], if t.head? = some '\n' then t.tail else t)
    else
      let later := fbgetsLoop len t
      (c :: later.1, later.2)

/-- `fbgets` with a buffer of `BUFSIZE`. -/
def fbgets (t : Text) : Text × Text := fbgetsLoop (BUFSIZE - 1) t

/-- What `fbgets` reads until the end of the file. Each buffer has a character of the file at least,
which bounds their number. -/
def buffers : Nat → Text → List Text
  | 0, _ => []
  | _ + 1, [] => []
  | bound + 1, c :: t => (fbgets (c :: t)).1 :: buffers bound (fbgets (c :: t)).2

/-- What `fbgets` reads of a file. -/
def fileBuffers (file : Text) : List Text := buffers file.length file

def cutLine (line : Text) : Text := line.takeWhile (· ≠ '\n')

/-- The mask of a K-line: a block of addresses, or a host mask. -/
inductive HostMask (w : Nat) where
  | block (ip ip_mask : BitVec w)
  | mask (host : Text)
deriving DecidableEq

/-- What a line adds to the configuration. What becomes of lines with other letters than `K` is left
open; they have the rest of the line behind the letter. -/
inductive ConfEntry (w : Nat) where
  | kill (user : Option Text) (mask : HostMask w) (passwd : Option Text)
  | other (letter : Char) (line : Option Text)
deriving DecidableEq

/-- The letters of `initconf` other than `K`. -/
def confLetters : Text := "AaCcdDHhiILlMmNnOoPpQqTUuXxYy".toList

/-- A K-line from its fields: without a user there is none for a host mask. -/
def klineEntry (w : Nat) (host : Text) (passwd user : Option Text) : List (ConfEntry w) :=
  match blockOf w host with
  | some (ip, ip_mask) => [.kill user (.block ip ip_mask) passwd]
  | none =>
    match user with
    | some user => [.kill (some (collapse user)) (.mask (collapse host)) passwd]
    | none => []

/-- What `initconf` makes of a line after the escapes: its fields are the letter, the host, the
reason and the user; port and class of a K-line are not used. -/
def confFields (w : Nat) (line : Text) : List (ConfEntry w) :=
  if line.head?.all (· ∈ ['#', '\n', ' ', '\t']) ∨ line.tail.head? ≠ some ':' then []
  else
    let letter := nextField ':' (some line)
    match (letter.1.bind List.head?) with
    | none => []
    | some c =>
      if c = 'K' ∨ c = 'k' then
        let host := nextField ':' letter.2
        let passwd := nextField ':' host.2
        let user := nextField ':' passwd.2
        match host.1 with
        | none => [.other c none]
        | some host => klineEntry w host passwd.1 user.1
      else if c ∈ confLetters then [.other c letter.2]
      else []

/-- What `initconf` makes of a line. -/
def confLine (w : Nat) (line : Text) : List (ConfEntry w) := confFields w (unescape '\\' '#' line)

/-- `initconf` on a file that it includes no others from. -/
def initconf (w : Nat) (file : Text) : List (ConfEntry w) :=
  (fileBuffers file).flatMap fun line => confLine w (cutLine line)

/-! ### The lines of a file -/

section Lines

variable {w : Nat} {line rest : Text}

theorem fbgetsLoop_cons {c : Char} (plain : c ≠ '\n' ∧ c ≠ '\r') (room : Nat) (t : Text) :
    fbgetsLoop (room + 1) (c :: t) = (c :: (fbgetsLoop room t).1, (fbgetsLoop room t).2) := by
  rw [fbgetsLoop, if_neg plain.1, if_neg plain.2]

theorem OneLine.of_cons {c : Char} {t : Text} (line : OneLine (c :: t)) :
    (c ≠ '\n' ∧ c ≠ '\r') ∧ OneLine t := by
  simp only [OneLine, List.mem_cons, not_or] at line
  exact ⟨⟨Ne.symm line.1.1, Ne.symm line.2.1⟩, line.1.2, line.2.2⟩

theorem fbgetsLoop_short (plain : OneLine line) {room : Nat} (fits : line.length < room) :
    fbgetsLoop room (line ++ '\n' :: rest) = (line ++ ['\n'], rest) := by
  induction line generalizing room with
  | nil =>
    obtain ⟨room, rfl⟩ := Nat.exists_eq_succ_of_ne_zero (Nat.ne_of_gt fits)
    rfl
  | cons c line ih =>
    obtain ⟨room, rfl⟩ := Nat.exists_eq_succ_of_ne_zero (Nat.ne_of_gt (Nat.zero_lt_of_lt fits))
    rw [List.cons_append, fbgetsLoop_cons plain.of_cons.1,
      ih plain.of_cons.2 (Nat.lt_of_succ_lt_succ fits)]
    rfl

theorem fbgetsLoop_long (plain : OneLine line) {room : Nat} (long : room ≤ line.length) :
    fbgetsLoop room (line ++ rest) = (line.take room, line.drop room ++ rest) := by
  induction line generalizing room with
  | nil =>
    obtain rfl := Nat.le_zero.mp long
    rfl
  | cons c line ih =>
    cases room with
    | zero => rfl
    | succ room =>
      rw [List.cons_append, fbgetsLoop_cons plain.of_cons.1,
        ih plain.of_cons.2 (Nat.le_of_succ_le_succ long)]
      rfl

theorem length_fbgetsLoop (room : Nat) (t : Text) : (fbgetsLoop room t).2.length ≤ t.length := by
  induction t generalizing room with
  | nil => cases room <;> exact le_rfl
  | cons c t ih =>
    cases room with
    | zero => exact le_rfl
    | succ room =>
      have later := ih room
      unfold fbgetsLoop
      rw [List.length_cons]
      split_ifs with _ _ feed
      · exact Nat.le_succ _
      · exact (List.tail_sublist t).length_le.trans (Nat.le_succ _)
      · exact Nat.le_succ _
      · exact later.trans (Nat.le_succ _)

theorem length_fbgets (c : Char) (t : Text) : (fbgets (c :: t)).2.length ≤ t.length := by
  show (fbgetsLoop (510 + 1) (c :: t)).2.length ≤ t.length
  rw [fbgetsLoop]
  split_ifs with _ _ feed
  · exact le_rfl
  · exact (List.tail_sublist t).length_le
  · exact le_rfl
  · exact length_fbgetsLoop _ t

theorem buffers_eq {bound : Nat} {t : Text} (enough : t.length ≤ bound) :
    buffers bound t = fileBuffers t := by
  unfold fileBuffers
  induction bound using Nat.strong_induction_on generalizing t with
  | _ bound ih =>
    cases t with
    | nil => cases bound <;> rfl
    | cons c t =>
      obtain ⟨bound, rfl⟩ := Nat.exists_eq_succ_of_ne_zero (Nat.ne_of_gt
        (lt_of_lt_of_le (Nat.succ_pos t.length) enough))
      have fewer := length_fbgets c t
      rw [List.length_cons] at enough ⊢
      unfold buffers
      rw [ih bound (Nat.lt_succ_self _) (by omega), ih t.length (by omega) fewer]

theorem fileBuffers_cons {t : Text} (some_ : t ≠ []) :
    fileBuffers t = (fbgets t).1 :: fileBuffers (fbgets t).2 := by
  cases t with
  | nil => exact absurd rfl some_
  | cons c t => exact congrArg _ (buffers_eq (length_fbgets c t))

theorem fileBuffers_short (plain : OneLine line) (fits : line.length < BUFSIZE - 1) (rest : Text) :
    fileBuffers (line ++ '\n' :: rest) = (line ++ ['\n']) :: fileBuffers rest := by
  rw [fileBuffers_cons (by simp), fbgets, fbgetsLoop_short plain fits]

theorem fileBuffers_long (plain : OneLine line) (long : BUFSIZE - 1 ≤ line.length) (rest : Text) :
    fileBuffers (line ++ '\n' :: rest) =
      line.take (BUFSIZE - 1) :: fileBuffers (line.drop (BUFSIZE - 1) ++ '\n' :: rest) := by
  rw [fileBuffers_cons (by simp), fbgets, fbgetsLoop_long plain long]

/-- A file is read buffer by buffer. -/
theorem fileBuffers_induction {P : Text → Prop} (nil : P [])
    (cons : ∀ c t, P (fbgets (c :: t)).2 → P (c :: t)) (file : Text) : P file := by
  generalize size : file.length = n
  induction n using Nat.strong_induction_on generalizing file with
  | _ n ih =>
    cases file with
    | nil => exact nil
    | cons c t => exact cons c t (ih _ (by rw [← size]; exact Nat.lt_succ_of_le (length_fbgets c t)) _ rfl)

/-- A line is read buffer by buffer. -/
theorem OneLine.induction {P : Text → Prop}
    (short : ∀ line, OneLine line → line.length < BUFSIZE - 1 → P line)
    (long : ∀ line, OneLine line → BUFSIZE - 1 ≤ line.length → P (line.drop (BUFSIZE - 1)) → P line)
    (plain : OneLine line) : P line := by
  generalize size : line.length = n
  induction n using Nat.strong_induction_on generalizing line with
  | _ n ih =>
    by_cases fits : line.length < BUFSIZE - 1
    · exact short line plain fits
    · have room : 0 < BUFSIZE - 1 := by decide
      exact long line plain (Nat.le_of_not_lt fits)
        (ih _ (by rw [List.length_drop]; omega) (plain.mono fun _ => List.mem_of_mem_drop) rfl)

/-- **The lines are read one by one.** -/
theorem fileBuffers_append (plain : OneLine line) (rest : Text) :
    fileBuffers (line ++ '\n' :: rest) = fileBuffers (line ++ ['\n']) ++ fileBuffers rest := by
  refine plain.induction (P := fun line =>
    fileBuffers (line ++ '\n' :: rest) = fileBuffers (line ++ ['\n']) ++ fileBuffers rest)
    (fun line plain fits => ?_) fun line plain long ih => ?_
  · rw [fileBuffers_short plain fits, fileBuffers_short plain fits]
    rfl
  · rw [fileBuffers_long plain long, fileBuffers_long plain long, ih]
    rfl

theorem cutLine_append (plain : OneLine line) (t : Text) : cutLine (line ++ '\n' :: t) = line :=
  congrArg Prod.fst (Lib.field_append_cons plain.1 t)

theorem cutLine_eq_self (plain : OneLine line) : cutLine line = line :=
  congrArg Prod.fst (Lib.field_eq_self plain.1)

theorem cutLine_sublist (plain : OneLine line) {piece : Text}
    (member : piece ∈ fileBuffers (line ++ ['\n'])) : (cutLine piece).Sublist line := by
  refine plain.induction (P := fun line => piece ∈ fileBuffers (line ++ ['\n']) → (cutLine piece).Sublist line)
    (fun line plain fits member => ?_) (fun line plain long ih member => ?_) member
  · rw [fileBuffers_short plain fits] at member
    rw [List.mem_singleton.mp member, cutLine_append plain]
  · rw [fileBuffers_long plain long] at member
    rcases List.mem_cons.mp member with rfl | later
    · rw [cutLine_eq_self (plain.take _)]
      exact List.take_sublist _ _
    · exact (ih later).trans (List.drop_sublist _ _)

/-- **What is read of a line**: the front of it, then pieces of what is behind the front. -/
theorem fileBuffers_line (plain : OneLine line) :
    ∃ pieces : List Text,
      (fileBuffers (line ++ ['\n'])).map cutLine = line.take (BUFSIZE - 1) :: pieces ∧
      ∀ piece ∈ pieces, piece.Sublist (line.drop (BUFSIZE - 1)) := by
  by_cases fits : line.length < BUFSIZE - 1
  · refine ⟨[], ?_, nofun⟩
    rw [fileBuffers_short plain fits, List.take_of_length_le (Nat.le_of_lt fits), List.map_cons,
      cutLine_append plain]
    rfl
  · have behind : OneLine (line.drop (BUFSIZE - 1)) :=
      plain.mono fun _ member => List.mem_of_mem_drop member
    refine ⟨(fileBuffers (line.drop (BUFSIZE - 1) ++ ['\n'])).map cutLine, ?_, fun piece member => ?_⟩
    · rw [fileBuffers_long plain (Nat.le_of_not_lt fits), List.map_cons, cutLine_eq_self (plain.take _)]
    · obtain ⟨buffer, here, rfl⟩ := List.mem_map.mp member
      exact cutLine_sublist behind here

end Lines

/-! ### The entries of a line -/

section Entries

variable {w : Nat} {line : Text} {user passwd given own : Option Text} {name : Text} {mask : HostMask w}

theorem confLine_remark (t : Text) : confLine w ('#' :: t) = [] := by
  unfold confLine
  cases t <;> rfl

theorem confLine_of_not_mem (plain : ':' ∉ line) : confLine w line = [] := by
  unfold confLine confFields
  refine if_pos (.inr fun second => plain ?_)
  exact (Lib.unescape_sublist line).subset (List.mem_of_mem_tail (List.mem_of_mem_head? second))

theorem mem_klineEntry {host : Text}
    (member : .kill (some name) mask passwd ∈ klineEntry w host given user) :
    ∃ own, user = some own ∧ collapse name = collapse own := by
  unfold klineEntry at member
  split at member
  · injection List.mem_singleton.mp member with same
    exact ⟨name, same.symm, rfl⟩
  · split at member
    · rename_i own
      injection List.mem_singleton.mp member with same
      injection same with same
      exact ⟨own, rfl, by rw [same, collapse_collapse]⟩
    · cases member

theorem colons_of_mem_confFields (member : .kill (some name) mask passwd ∈ confFields w line) :
    3 ≤ line.count ':' ∧ ':' ∉ name := by
  unfold confFields at member
  split at member
  · cases member
  dsimp only at member
  split at member
  · cases member
  split at member
  · split at member
    · injection List.mem_singleton.mp member
    · obtain ⟨own, found, same⟩ := mem_klineEntry member
      have left := Lib.separators_pos found
      rw [Lib.separators_nextField, Lib.separators_nextField, Lib.separators_nextField] at left
      refine ⟨?_, ?_⟩
      · change 0 < line.count ':' + 1 - 1 - 1 - 1 at left
        omega
      · rw [← mem_collapse (by decide), same, mem_collapse (by decide)]
        exact Lib.not_mem_of_nextField found
  · split at member
    · injection List.mem_singleton.mp member
    · cases member

/-- **A K-line with a user needs three colons**, and the user has none. -/
theorem colons_of_mem_confLine (member : .kill (some name) mask passwd ∈ confLine w line) :
    3 ≤ line.count ':' ∧ ':' ∉ name := by
  obtain ⟨three, plain⟩ := colons_of_mem_confFields member
  exact ⟨three.trans ((Lib.unescape_sublist line).count_le ':'), plain⟩

theorem confFields_kline (t : Text) :
    confFields w ('K' :: ':' :: t) =
      klineEntry w (field ':' t).1 (nextField ':' (field ':' t).2).1
        (nextField ':' (nextField ':' (field ':' t).2).2).1 := by
  have letter : field ':' ('K' :: ':' :: t) = (['K'], some t) :=
    Lib.field_append_cons (a := ['K']) (by decide) t
  unfold confFields
  rw [if_neg (by simp)]
  simp only [nextField, letter]
  rfl

def readMask (w : Nat) (host : Text) : HostMask w :=
  match blockOf w host with
  | some (ip, ip_mask) => .block ip ip_mask
  | none => .mask (collapse host)

theorem mask_of_mem_klineEntry {host : Text}
    (member : .kill user mask passwd ∈ klineEntry w host given own) :
    mask = readMask w host ∧ passwd = given := by
  unfold klineEntry at member
  unfold readMask
  split at member
  · injection List.mem_singleton.mp member with _ same given
    exact ⟨same, given⟩
  · split at member
    · injection List.mem_singleton.mp member with _ same given
      exact ⟨same, given⟩
    · cases member

theorem klineEntry_user (host own : Text) (given : Option Text) :
    ∃ name, collapse name = collapse own ∧
      klineEntry w host given (some own) = [.kill (some name) (readMask w host) given] := by
  unfold klineEntry readMask
  split
  · exact ⟨own, rfl, rfl⟩
  · exact ⟨collapse own, collapse_collapse own, rfl⟩

/-- **The entries of a line with all fields.** -/
theorem confLine_fields {host reason own : Text} (uncut : '#' ∉ host ∧ '#' ∉ reason ∧ '#' ∉ own)
    (colons : ':' ∉ host ∧ ':' ∉ reason ∧ ':' ∉ own) :
    confLine w ('K' :: ':' :: (host ++ ':' :: (reason ++ ':' :: own))) =
      klineEntry w (unescape '\\' '#' host) (some (unescape '\\' '#' reason))
        (some (unescape '\\' '#' own)) := by
  have apart : ∀ {t : Text}, ':' ∉ t → ':' ∉ unescape '\\' '#' t := fun plain member =>
    plain ((Lib.unescape_sublist _).subset member)
  unfold confLine
  rw [Lib.unescape_cons_of_ne (by decide) (by decide), Lib.unescape_cons_of_ne (by decide) (by decide),
    Lib.unescape_append_cons (by decide) (by decide) uncut.1,
    Lib.unescape_append_cons (by decide) (by decide) uncut.2.1, confFields_kline,
    Lib.field_append_cons (apart colons.1)]
  simp only [nextField, Lib.field_append_cons (apart colons.2.1), Lib.field_eq_self (apart colons.2.2)]

end Entries

/-! ### The two lines of a K-line -/

/-- Runs of stars in a host mask as one star. -/
def HostMask.collapsed {w : Nat} : HostMask w → HostMask w
  | .block ip ip_mask => .block ip ip_mask
  | .mask host => .mask (collapse host)

/-- Runs of stars in the masks of an entry as one star. -/
def ConfEntry.collapsed {w : Nat} : ConfEntry w → ConfEntry w
  | .kill user mask passwd => .kill (user.map collapse) mask.collapsed passwd
  | .other letter line => .other letter line

namespace Kline

variable {w : Nat}

/-- The mask of the host that `m_kline` puts into the tables. -/
def mask (k : Kline w) : HostMask w :=
  match k.address with
  | some (ip, ip_mask) => .block (ip &&& ip_mask) ip_mask
  | none => .mask k.host

/-- The entry that `m_kline` puts into the tables. -/
def entry (k : Kline w) (when_ : Tm) : ConfEntry w := .kill (some k.user) k.mask (some (k.passwd when_))

/-- **The `K:` line says what it should**: no colon and no escape is in its fields, all of it up to the
user fits in the buffer, with as much of the user as makes the mask, and the address as it is kept is
for the same block of addresses. -/
structure Rereads (k : Kline w) (when_ : Tm) : Prop where
  user : ':' ∉ k.user ∧ '\\' ∉ k.user
  host : ':' ∉ k.host ∧ '\\' ∉ k.host
  reason : '\\' ∉ k.comment
  fits : (k.front when_).length ≤ BUFSIZE - 1
  enough : collapse (k.user.take (BUFSIZE - 1 - (k.front when_).length)) = collapse k.user
  address : ∀ found, k.address = some found → blockOf w k.host = some (found.1 &&& found.2, found.2)

variable {k : Kline w} {when_ : Tm} {sptr : Klining}

theorem mem_passwd {c : Char} :
    c ∈ k.passwd when_ ↔ c ∈ k.comment ∨ c ∈ [' ', '('] ∨ c ∈ smalldate when_ ∨ c = ')' := by
  unfold passwd
  simp [or_assoc]

theorem not_mem_passwd {c : Char} (other : c.isDigit = false ∧ c ∉ ['-', '/', ' ', '.', '(', ')'])
    (plain : c ∉ k.comment) : c ∉ k.passwd when_ := by
  obtain ⟨noDigit, noMark⟩ := other
  simp only [List.mem_cons, not_or] at noMark
  rw [mem_passwd]
  rintro (here | bracket | date | close)
  · exact plain here
  · simp [noMark] at bracket
  · rcases mem_smalldate date with digit | mark
    · exact absurd (digit.symm.trans noDigit) Bool.true_eq_false.mp
    · simp [noMark] at mark
  · exact noMark.2.2.2.2.2.1 close

theorem Accepted.comment_plain (accepted : k.Accepted) :
    ':' ∉ k.comment ∧ '#' ∉ k.comment ∧ OneLine k.comment := by
  unfold Kline.comment
  cases given : k.reason with
  | none => exact ⟨by decide, by decide, by decide, by decide⟩
  | some reason =>
    exact ⟨accepted.comment reason given, accepted.uncut.2.2 reason given,
      accepted.lines.2.2 reason given⟩

theorem Accepted.passwd_plain (accepted : k.Accepted) :
    ':' ∉ k.passwd when_ ∧ '#' ∉ k.passwd when_ ∧ OneLine (k.passwd when_) :=
  ⟨not_mem_passwd (by decide) accepted.comment_plain.1,
    not_mem_passwd (by decide) accepted.comment_plain.2.1,
    not_mem_passwd (by decide) accepted.comment_plain.2.2.1,
    not_mem_passwd (by decide) accepted.comment_plain.2.2.2⟩

theorem front_append (k : Kline w) (when_ : Tm) (user : Text) :
    k.front when_ ++ user = 'K' :: ':' :: (k.host ++ ':' :: (k.passwd when_ ++ ':' :: user)) := by
  simp [front]

theorem length_front (k : Kline w) (when_ : Tm) :
    (k.front when_).length = k.host.length + (k.passwd when_).length + 4 := by
  simp [front]
  omega

theorem Accepted.take_line (accepted : k.Accepted) :
    (k.front when_ ++ k.user).take (BUFSIZE - 1) =
      'K' :: ':' :: (k.host ++ ':' ::
        (k.passwd when_ ++ ':' :: k.user).take (BUFSIZE - 4 - k.host.length)) := by
  have short := accepted.host_short
  unfold HOSTLEN at short
  have room : BUFSIZE - 1 = k.host.length + (BUFSIZE - 4 - k.host.length) + 1 + 2 := by
    unfold BUFSIZE
    omega
  rw [front_append, room]
  simp only [List.take_succ_cons]
  rw [List.take_append, List.take_of_length_le (by omega)]
  congr 3
  rw [show k.host.length + (BUFSIZE - 4 - k.host.length) + 1 - k.host.length =
    BUFSIZE - 4 - k.host.length + 1 by omega, List.take_succ_cons]

theorem Accepted.drop_line (accepted : k.Accepted) :
    ((k.front when_ ++ k.user).drop (BUFSIZE - 1)).Sublist (k.passwd when_ ++ ':' :: k.user) := by
  have short := accepted.host_short
  unfold HOSTLEN at short
  have before : k.front when_ ++ k.user =
      ('K' :: ':' :: (k.host ++ [':'])) ++ (k.passwd when_ ++ ':' :: k.user) := by
    rw [front_append]
    simp
  rw [before, List.drop_append, List.drop_eq_nil_of_le, List.nil_append]
  · exact List.drop_sublist _ _
  · simp [BUFSIZE]
    omega

theorem Accepted.drop_remark (accepted : k.Accepted) (sptr : Klining) :
    ((k.remark sptr).drop (BUFSIZE - 1)).Sublist k.comment := by
  have name := sptr.name_short
  have username := sptr.username_short
  have realhost := sptr.realhost_short
  have host := accepted.host_short
  have user := accepted.user_short
  unfold HOSTLEN at name realhost host
  unfold USERLEN at username user
  unfold remark
  rw [List.drop_append, List.drop_eq_nil_of_le, List.nil_append]
  · exact List.drop_sublist _ _
  · simp only [List.length_append, show "#".toList.length = 1 from rfl,
      show "!".toList.length = 1 from rfl, show "@".toList.length = 1 from rfl,
      show " K'd: ".toList.length = 6 from rfl, show ":".toList.length = 1 from rfl, BUFSIZE]
    omega

theorem Accepted.line_remark (accepted : k.Accepted) (sptr : Klining) : OneLine (k.remark sptr) := by
  obtain ⟨name, username, realhost⟩ := sptr.lines
  unfold remark
  refine .append (.append (.append (.append (.append (.append (.append (.append (.append (.append
    (.append ?_ name) ?_) username) ?_) realhost) ?_) accepted.lines.1) ?_) accepted.lines.2.1) ?_)
    accepted.comment_plain.2.2
  all_goals exact ⟨by decide, by decide⟩

theorem Accepted.line_kline (accepted : k.Accepted) (when_ : Tm) :
    OneLine (k.front when_ ++ k.user) := by
  have colon : ':' ≠ '\n' ∧ ':' ≠ '\r' := ⟨by decide, by decide⟩
  rw [front_append]
  exact .cons ⟨by decide, by decide⟩ (.cons colon (.append accepted.lines.2.1
    (.cons colon (.append accepted.passwd_plain.2.2 (.cons colon accepted.lines.1)))))

/-- **What is read of the two lines**: the front of the `K:` line, and pieces of what is behind it. -/
theorem Accepted.initconf_eq (accepted : k.Accepted) (sptr : Klining) (when_ : Tm) :
    ∃ pieces : List Text,
      initconf w (WriteKline sptr k when_) =
        confLine w ((k.front when_ ++ k.user).take (BUFSIZE - 1)) ++ pieces.flatMap (confLine w) ∧
      ∀ piece ∈ pieces, piece.Sublist ((k.front when_ ++ k.user).drop (BUFSIZE - 1)) := by
  obtain ⟨remarks, read, parts⟩ := fileBuffers_line (accepted.line_remark sptr)
  obtain ⟨pieces, read', parts'⟩ := fileBuffers_line (accepted.line_kline when_)
  refine ⟨pieces, ?_, parts'⟩
  have remark : confLine w ((k.remark sptr).take (BUFSIZE - 1)) = [] := confLine_remark _
  have behind : remarks.flatMap (confLine w) = [] := by
    rw [List.flatMap_eq_nil_iff]
    intro piece member
    have part := (parts piece member).trans (accepted.drop_remark sptr)
    exact confLine_of_not_mem fun colon => accepted.comment_plain.1 (part.subset colon)
  unfold initconf WriteKline
  rw [← List.flatMap_map, fileBuffers_append (accepted.line_remark sptr), List.map_append, read, read',
    List.flatMap_append, List.flatMap_cons, remark, behind, List.flatMap_cons]
  rfl

/-! ### The round trip -/

theorem take_user (fits : (k.front when_).length ≤ BUFSIZE - 1) (user : Text) :
    (k.passwd when_ ++ ':' :: user).take (BUFSIZE - 4 - k.host.length) =
      k.passwd when_ ++ ':' :: user.take (BUFSIZE - 1 - (k.front when_).length) := by
  rw [length_front] at fits ⊢
  unfold BUFSIZE at fits ⊢
  rw [List.take_append, List.take_of_length_le (by omega)]
  congr 1
  rw [show 512 - 4 - k.host.length - (k.passwd when_).length =
    512 - 1 - (k.host.length + (k.passwd when_).length + 4) + 1 by omega, List.take_succ_cons]

/-- Nothing behind the front of the line is an entry, when the user has no colon. -/
theorem Accepted.count_drop (accepted : k.Accepted) (plain : ':' ∉ k.user) {piece : Text}
    (part : piece.Sublist ((k.front when_ ++ k.user).drop (BUFSIZE - 1))) : piece.count ':' ≤ 1 := by
  have fewer := (part.trans accepted.drop_line).count_le ':'
  rwa [List.count_append, List.count_eq_zero.mpr accepted.passwd_plain.1, List.count_cons_self,
    List.count_eq_zero.mpr plain] at fewer

theorem Accepted.collapsed_readMask (accepted : k.Accepted)
    (address : ∀ found, k.address = some found →
      blockOf w k.host = some (found.1 &&& found.2, found.2)) :
    (readMask w k.host).collapsed = k.mask.collapsed := by
  unfold readMask Kline.mask
  rcases accepted.address with ⟨none_, same⟩ | ⟨host, _, _, some_⟩
  · rw [none_, blockOf, same]
    show HostMask.mask (collapse (collapse k.host)) = HostMask.mask (collapse k.host)
    rw [collapse_collapse]
  · obtain ⟨found, same⟩ := Option.isSome_iff_exists.mp some_
    rw [same, address found same]

theorem Accepted.initconf_of_rereads (accepted : k.Accepted) (rereads : k.Rereads when_)
    (sptr : Klining) :
    (initconf w (WriteKline sptr k when_)).map ConfEntry.collapsed =
      [(k.entry when_).collapsed] := by
  obtain ⟨pieces, read, parts⟩ := accepted.initconf_eq sptr when_
  have reason : '\\' ∉ k.passwd when_ := not_mem_passwd (by decide) rereads.reason
  have part : ∀ {c}, c ∉ k.user → c ∉ k.user.take (BUFSIZE - 1 - (k.front when_).length) :=
    fun plain member => plain (List.mem_of_mem_take member)
  -- the user ends before what is cut off
  have behind : pieces.flatMap (confLine w) = [] := by
    rw [List.flatMap_eq_nil_iff]
    intro piece member
    refine confLine_of_not_mem fun colon => ?_
    have whole := (parts piece member).subset colon
    rw [List.drop_append, List.drop_eq_nil_of_le rereads.fits, List.nil_append] at whole
    exact rereads.user.1 (List.mem_of_mem_drop whole)
  rw [read, behind, List.append_nil, accepted.take_line, take_user rereads.fits,
    confLine_fields ⟨accepted.uncut.2.1, accepted.passwd_plain.2.1, part accepted.uncut.1⟩
      ⟨rereads.host.1, accepted.passwd_plain.1, part rereads.user.1⟩,
    Lib.unescape_eq_self rereads.host.2 accepted.uncut.2.1,
    Lib.unescape_eq_self reason accepted.passwd_plain.2.1,
    Lib.unescape_eq_self (part rereads.user.2) (part accepted.uncut.1)]
  obtain ⟨name, same, entry⟩ := klineEntry_user (w := w) k.host
    (k.user.take (BUFSIZE - 1 - (k.front when_).length)) (some (k.passwd when_))
  rw [entry, List.map_singleton]
  show [ConfEntry.kill (some (collapse name)) (readMask w k.host).collapsed _] =
    [ConfEntry.kill (some (collapse k.user)) k.mask.collapsed _]
  rw [same, rereads.enough, accepted.collapsed_readMask rereads.address]

/-- A host that is read as the mask of the K-line has the characters of its host. -/
theorem Accepted.count_host (accepted : k.Accepted) {host : Text} {c : Char}
    (same : (readMask w host).collapsed = k.mask.collapsed) (other : ¬ IsAddressChar c) :
    k.host.count c ≤ host.count c := by
  have plain : c ≠ '*' := fun star => other (.inr (.inr (.inr star)))
  rcases accepted.address with ⟨none_, _⟩ | ⟨asked, kept, address, some_⟩
  · unfold readMask Kline.mask at same
    rw [none_] at same
    split at same
    · cases same
    · have hosts : collapse (collapse host) = collapse k.host := HostMask.mask.inj same
      rw [← count_collapse plain k.host, ← hosts, collapse_collapse, count_collapse plain]
  · rw [List.count_eq_zero.mpr fun member => other (isAddressChar_of_mem_cidrForm
      (address ▸ some_) (kept ▸ member))]
    exact Nat.zero_le _

theorem Accepted.blockOf_of_readMask (same : (readMask w k.host).collapsed = k.mask.collapsed)
    {found : BitVec w × BitVec w} (address : k.address = some found) :
    blockOf w k.host = some (found.1 &&& found.2, found.2) := by
  unfold readMask Kline.mask at same
  rw [address] at same
  split at same
  · rename_i ip ip_mask block
    obtain ⟨rfl, rfl⟩ := HostMask.block.inj same
    exact block
  · cases same

theorem escape_not_mem {part whole : Text} (sub : part.Sublist whole) (uncut : '#' ∉ part)
    (same : collapse (unescape '\\' '#' part) = collapse whole) : '\\' ∉ whole := by
  have kept := congrArg (List.count '\\') same
  rw [count_collapse (by decide), count_collapse (by decide)] at kept
  have fewer := sub.count_le '\\'
  by_cases escaped : '\\' ∈ part
  · have lost := Lib.count_unescape_lt uncut escaped
    omega
  · rw [← List.count_eq_zero, ← kept, Lib.unescape_eq_self escaped uncut, List.count_eq_zero]
    exact escaped

/-- **The front of a `K:` line that gives the K-line back** says what it should. -/
theorem Accepted.rereads_of_front (accepted : k.Accepted) {name : Text} {mask : HostMask w}
    (member : .kill (some name) mask (some (k.passwd when_)) ∈
      confLine w ((k.front when_ ++ k.user).take (BUFSIZE - 1)))
    (user : collapse name = collapse k.user) (masks : mask.collapsed = k.mask.collapsed) :
    k.Rereads when_ := by
  have colonless : ':' ∉ k.user := by
    have plain := (colons_of_mem_confLine member).2
    rwa [← mem_collapse (by decide), user, mem_collapse (by decide)] at plain
  have three := (colons_of_mem_confLine member).1
  rw [accepted.take_line] at member three
  -- the field that the host is read from has no colon
  have host : ':' ∉ k.host := by
    have fields := member
    unfold confLine at fields
    rw [Lib.unescape_cons_of_ne (by decide) (by decide),
      Lib.unescape_cons_of_ne (by decide) (by decide), confFields_kline] at fields
    rw [(mask_of_mem_klineEntry fields).1] at masks
    have fewer := accepted.count_host (c := ':') masks (by simp [IsAddressChar])
    rw [← List.count_eq_zero, ← Nat.le_zero]
    exact fewer.trans (Nat.le_zero.mpr (List.count_eq_zero.mpr
      (Lib.not_mem_of_field _)))
  -- so the third colon is the one before the user
  have fits : (k.front when_).length ≤ BUFSIZE - 1 := by
    by_contra long
    rw [length_front] at long
    rw [List.take_append_of_le_length (by unfold BUFSIZE at long ⊢; omega), List.count_cons_of_ne
      (by decide), List.count_cons_self, List.count_append, List.count_cons_self,
      List.count_eq_zero.mpr host, List.count_eq_zero.mpr fun colon =>
        accepted.passwd_plain.1 (List.mem_of_mem_take colon)] at three
    omega
  have part := List.take_sublist (BUFSIZE - 1 - (k.front when_).length) k.user
  have uncut : '#' ∉ k.user.take _ := fun cut => accepted.uncut.1 (part.subset cut)
  rw [take_user fits, confLine_fields ⟨accepted.uncut.2.1, accepted.passwd_plain.2.1, uncut⟩
    ⟨host, accepted.passwd_plain.1, fun colon => colonless (part.subset colon)⟩] at member
  obtain ⟨rfl, reason⟩ := mask_of_mem_klineEntry member
  obtain ⟨own, given, names⟩ := mem_klineEntry member
  obtain rfl := Option.some.inj given
  rw [user] at names
  have escapes := escape_not_mem part uncut names.symm
  have unescaped : '\\' ∉ k.host := fun escaped => by
    have lost := Lib.count_unescape_lt accepted.uncut.2.1 escaped
    have kept := accepted.count_host (c := '\\') masks (by simp [IsAddressChar])
    omega
  rw [Lib.unescape_eq_self (fun escaped => escapes (part.subset escaped)) uncut] at names
  rw [Lib.unescape_eq_self unescaped accepted.uncut.2.1] at masks
  exact
    { user := ⟨colonless, escapes⟩
      host := ⟨host, unescaped⟩
      reason := fun escaped => Lib.not_mem_of_unescape_eq accepted.passwd_plain.2.1
        (Option.some.inj reason).symm (mem_passwd.mpr (.inl escaped))
      fits := fits
      enough := names.symm
      address := fun found address => blockOf_of_readMask masks address }

/-- **A K-line that is read back** has a `K:` line that says what it should. -/
theorem Accepted.rereads_of_initconf (accepted : k.Accepted)
    (same : (initconf w (WriteKline sptr k when_)).map ConfEntry.collapsed =
      [(k.entry when_).collapsed]) : k.Rereads when_ := by
  obtain ⟨pieces, read, parts⟩ := accepted.initconf_eq sptr when_
  -- the entry that comes back
  obtain ⟨entry, member, back⟩ : ∃ entry ∈ initconf w (WriteKline sptr k when_),
      entry.collapsed = (k.entry when_).collapsed := by
    rw [← List.mem_map, same]
    exact List.mem_singleton.mpr rfl
  obtain ⟨name, mask, reason, rfl⟩ : ∃ name mask reason, entry = .kill (some name) mask reason := by
    cases entry with
    | kill user mask passwd =>
      cases user with
      | none => injection back with user; cases user
      | some name => exact ⟨name, mask, passwd, rfl⟩
    | other => injection back
  injection back with user masks reasons
  subst reasons
  replace user : collapse name = collapse k.user := Option.some.inj user
  rw [read, List.mem_append] at member
  rcases member with member | later
  · exact accepted.rereads_of_front member user masks
  · -- what is cut off the line has at most one colon
    obtain ⟨piece, here, member⟩ := List.mem_flatMap.mp later
    obtain ⟨many, plain⟩ := colons_of_mem_confLine member
    rw [← mem_collapse (by decide), user, mem_collapse (by decide)] at plain
    have few := accepted.count_drop plain (parts piece here)
    omega

end Kline

/-- **The K-line is read back as it was written just when** its `K:` line says what it should. -/
theorem initconf_WriteKline {w : Nat} (env : KlineEnv w) (sptr : Klining) {parv : List Text}
    (lines : ∀ p ∈ parv, OneLine p) {k : Kline w} (added : m_kline env sptr parv = some k) (when_ : Tm) :
    (initconf w (WriteKline sptr k when_)).map ConfEntry.collapsed = [(k.entry when_).collapsed] ↔
      k.Rereads when_ := by
  have accepted := accepted_of_m_kline lines added
  exact ⟨accepted.rereads_of_initconf, fun rereads => accepted.initconf_of_rereads rereads sptr⟩

def sampleKlineEnv : KlineEnv 64 := ⟨fun _ => none, fun _ _ _ => false⟩

def sampleKlining : Klining where
  name := "ann".toList
  username := "ann".toList
  realhost := "a.example".toList
  myClient := true
  isAnOper := true
  isSetOperK := true
  name_short := by decide
  username_short := by decide
  realhost_short := by decide
  lines := ⟨⟨by decide, by decide⟩, ⟨by decide, by decide⟩, ⟨by decide, by decide⟩⟩

def sampleTm : Tm := ⟨105, 0, 1, 0, 0⟩

/-- A block of addresses is read back. -/
theorem initconf_WriteKline_sample :
    ∃ k : Kline 64,
      m_kline sampleKlineEnv sampleKlining ["ann".toList, "b*@10.1.2.*".toList, "x".toList] = some k ∧
        (initconf 64 (WriteKline sampleKlining k sampleTm)).map ConfEntry.collapsed =
          [(k.entry sampleTm).collapsed] := by
  have lines : ∀ p ∈ ["ann".toList, "b*@10.1.2.*".toList, "x".toList], OneLine p := by
    intro p member
    simp only [List.mem_cons, List.not_mem_nil, or_false] at member
    rcases member with rfl | rfl | rfl <;> exact ⟨by decide, by decide⟩
  refine ⟨⟨none, "b*".toList, "10.1.2.0/24".toList, some (0x0a010200, 0xffffff00), some "x".toList⟩,
    by decide +kernel, ?_⟩
  refine (initconf_WriteKline sampleKlineEnv sampleKlining lines (by decide +kernel) sampleTm).mpr ?_
  exact
    { user := ⟨by decide, by decide⟩
      host := ⟨by decide, by decide⟩
      reason := by decide
      fits := by decide +kernel
      enough := by decide +kernel
      address := fun found some_ => by
        obtain rfl := Option.some.inj some_
        decide +kernel }

/-- **A backslash in a reason is lost**: the K-line that is read back has another reason. -/
theorem not_initconf_WriteKline :
    ∃ k : Kline 64,
      m_kline sampleKlineEnv sampleKlining ["ann".toList, "*@bad.example".toList, "x\\y".toList] =
          some k ∧
        k.minutes = none ∧
        initconf 64 (WriteKline sampleKlining k sampleTm) =
          [.kill (some "*".toList) (.mask "bad.example".toList) (some "xy (2005/01/01 00.00)".toList)] ∧
        (initconf 64 (WriteKline sampleKlining k sampleTm)).map ConfEntry.collapsed ≠
          [(k.entry sampleTm).collapsed] := by
  refine ⟨⟨none, "*".toList, "bad.example".toList, none, some "x\\y".toList⟩, by decide +kernel, rfl, ?_,
    ?_⟩ <;> decide +kernel

end PtlinkIrcd
