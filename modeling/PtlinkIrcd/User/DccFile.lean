/-
**The file of a DCC request.**

`m_message` looks for the name of the file in the text of a CTCP that sends or resumes one, copies it to
a buffer of 255 bytes and asks `is_svlined` about it.

* `dccSpan` — where the name starts, and how much is copied.
* `dccCheck` — the branch of `m_message`; an access outside of its memory has no result.
* `DccRequest` — a request with a plain or a quoted name.
* `DccRequest.dccSpan_eq` — the start and the end that are found, for each command and each kind of name.
* `dcc_name_iff` — **when the name is the one that is asked about**.
-/

import PtlinkIrcd.Model.Memory
import PtlinkIrcd.Model.State

namespace PtlinkIrcd

open Lib

/-! ### The branch -/

/-- An entry of `svlines`. -/
structure SVLine where
  name : Text
  passwd : Option Text

/-- `is_svlined`: the entries for messages are not for files. -/
def is_svlined (svlines : List SVLine) (name : Text) : Option SVLine :=
  svlines.find? fun svl =>
    !(svl.name.head? = some '!' || svl.name.head? = some '/' || !ircMatch svl.name name)

def space_count (message : Text) : Nat := message.foldl (fun i c => if c = ' ' then i + 1 else i) 0

/-- What the branch finds: the entries, `NoDCCSend_Msg`, and what was in its buffer before. -/
structure DccEnv where
  svlines : List SVLine
  NoDCCSend_Msg : Text
  filename : Text
  size : filename.length = 255

/-- The sender. -/
structure DccSender where
  nodcc : Bool
  name : Text
  username : Text
  realhost : Text

/-- What is sent. -/
inductive DccSent
  /-- A notice to the sender. -/
  | notice (text : Text)
  | imodesExploit (name : Text)
  | imodesDeny (name username realhost filename : Text)
  /-- `DCCDENY`, to the servers. -/
  | dccdeny (filename : Text)
deriving DecidableEq

/-- What becomes of a message: the string that `is_svlined` was asked about, whether the sender is marked,
and what is sent when the message stops here. -/
structure DccOutcome where
  asked : Option Text
  nodcc : Bool
  stopped : Option (List DccSent)
deriving DecidableEq

/-- `sfn`, and `efn - sfn`, in a text of `strlen` characters. -/
def dccSpan (memory : Text) (strlen : Nat) : Option (Nat × Nat) := do
  let c ← memory[10]?
  let (sfn, efn) ←
    if c = '"' then do
      let sfn := 11
      let efn ← strchr memory (sfn + 1) '"'
      some (sfn, match efn with | some efn => efn - 1 | none => sfn + strlen)
    else do
      let sfn := 10
      let efn ← strchr memory (sfn + 1) ' '
      some (sfn, efn.getD (sfn + strlen))
  some (sfn, if 255 < efn - sfn then 255 else efn - sfn)

/-- The branch of `m_message` for a CTCP of a local user that sends or resumes a file. -/
def dccCheck (env : DccEnv) (sptr : DccSender) (text : Text) : Option DccOutcome :=
  if sptr.nodcc then some { asked := none, nodcc := true, stopped := some [.notice env.NoDCCSend_Msg] }
  else do
    let memory := text ++ [NUL]
    let (sfn, n) ← dccSpan memory text.length
    if 0 < n then do
      let filename ← strncpy env.filename (memory.drop sfn) n
      let filename ← store filename n NUL
      if 10 < space_count (stringOf (memory.drop sfn)) then
        some { asked := none, nodcc := false, stopped := some [.imodesExploit sptr.name] }
      else do
        let filename ← readString filename 0
        match is_svlined env.svlines filename with
        | some aconf =>
          let why := match aconf.passwd with
            | some passwd => "You can't send the file, reason: ".toList ++ passwd
            | none => env.NoDCCSend_Msg
          some { asked := some filename, nodcc := true, stopped := some [.notice why,
            .imodesDeny sptr.name sptr.username sptr.realhost filename, .dccdeny filename] }
        | none => some { asked := some filename, nodcc := false, stopped := none }
    else some { asked := none, nodcc := false, stopped := none }

/-! ### The copy -/

theorem space_count_eq (message : Text) : space_count message = message.count ' ' := by
  have loop : ∀ i : Nat, message.foldl (fun i c => if c = ' ' then i + 1 else i) i =
      i + message.count ' ' := by
    induction message with
    | nil => exact fun i => rfl
    | cons c message ih =>
      intro i
      rw [List.foldl_cons, ih, List.count_cons]
      by_cases blank : c = ' '
      · rw [if_pos blank, if_pos (by simpa using blank), Nat.add_assoc, Nat.add_comm 1]
      · rw [if_neg blank, if_neg (by simpa using blank), Nat.add_zero]
  exact (loop 0).trans (Nat.zero_add _)

section

variable {buffer string : Text} {n : Nat}

/-- **What the buffer holds** behind the copy and its end. -/
theorem strncpy_store (short : n < buffer.length) (proper : NUL ∉ string) :
    ∃ filename, ((strncpy buffer (string ++ [NUL]) n).bind fun filename => store filename n NUL) =
      some filename ∧ readString filename 0 = some (string.take n) := by
  have read : stringOf (string ++ [NUL]) = string := stringOf_append proper
  have length : (string.take n ++ List.replicate (n - string.length) NUL).length = n := by
    rw [List.length_append, List.length_take, List.length_replicate]
    omega
  refine ⟨splice buffer 0 (string.take n ++ List.replicate (n - string.length) NUL ++ [NUL]), ?_, ?_⟩
  · unfold strncpy
    dsimp only
    rw [read, if_pos short.le, Option.bind_some, store_eq (by rw [length_splice (by omega)]; exact short)]
    have both := @splice_splice Char buffer (string.take n ++ List.replicate (n - string.length) NUL) [NUL] 0
      (by omega)
    rw [length, Nat.zero_add] at both
    exact congrArg some both
  · have word : NUL ∉ string.take n := fun member => proper (List.mem_of_mem_take member)
    -- the first terminator is the one behind the name, or one that fills up
    obtain ⟨after, ends⟩ : ∃ after, List.replicate (n - string.length) NUL ++ [NUL] = NUL :: after := by
      cases n - string.length with
      | zero => exact ⟨[], rfl⟩
      | succ k => exact ⟨List.replicate k NUL ++ [NUL], by rw [List.replicate_succ, List.cons_append]⟩
    unfold splice
    rw [List.take_zero, List.nil_append, List.append_assoc (string.take n), ends, List.append_assoc,
      List.cons_append]
    exact readString_eq [] word

variable {env : DccEnv} {sptr : DccSender} {text : Text} {sfn : Nat}

/-- **The branch**, where the place of the name is known and the copy fits. -/
theorem dccCheck_eq (allowed : sptr.nodcc = false) (proper : NUL ∉ text) (inside : sfn ≤ text.length)
    (span : dccSpan (text ++ [NUL]) text.length = some (sfn, n)) (some_ : 0 < n) (short : n < 255) :
    ∃ outcome, dccCheck env sptr text = some outcome ∧
      if 10 < (text.drop sfn).count ' ' then outcome.asked = none ∧ outcome.stopped ≠ none
      else outcome.asked = some ((text.drop sfn).take n) := by
  have string : NUL ∉ text.drop sfn := fun member => proper (List.mem_of_mem_drop member)
  have dropped : (text ++ [NUL]).drop sfn = text.drop sfn ++ [NUL] := List.drop_append_of_le_length inside
  have blanks : space_count (stringOf (text.drop sfn ++ [NUL])) = (text.drop sfn).count ' ' := by
    rw [stringOf_append string, space_count_eq]
  obtain ⟨filename, copied, read⟩ := strncpy_store (env.size.symm ▸ short) string
  obtain ⟨buffer, filled, ended⟩ := Option.bind_eq_some_iff.mp copied
  unfold dccCheck
  rw [if_neg (by rw [allowed]; exact Bool.false_ne_true)]
  simp only [span, dropped, some_, filled, ended, blanks, read, Option.bind_eq_bind, Option.bind_some, if_true]
  split_ifs with exploit
  · exact ⟨_, rfl, rfl, Option.some_ne_none _⟩
  · cases is_svlined env.svlines ((text.drop sfn).take n) with
    | none => exact ⟨_, rfl, rfl⟩
    | some aconf => exact ⟨_, rfl, rfl⟩

theorem dccCheck_zero (allowed : sptr.nodcc = false)
    (span : dccSpan (text ++ [NUL]) text.length = some (sfn, 0)) :
    dccCheck env sptr text = some { asked := none, nodcc := false, stopped := none } := by
  unfold dccCheck
  rw [if_neg (by rw [allowed]; exact Bool.false_ne_true)]
  simp only [span, Option.bind_eq_bind, Option.bind_some, lt_irrefl, if_false]

/-- **The end of the name is written behind the buffer.** -/
theorem dccCheck_overrun (allowed : sptr.nodcc = false)
    (span : dccSpan (text ++ [NUL]) text.length = some (sfn, 255)) : dccCheck env sptr text = none := by
  have outside : ((strncpy env.filename ((text ++ [NUL]).drop sfn) 255).bind fun filename =>
      store filename 255 NUL) = none := by
    rw [Option.bind_eq_none_iff]
    intro filename copied
    unfold strncpy at copied
    dsimp only at copied
    rw [if_pos env.size.ge, Option.some.injEq] at copied
    unfold store
    rw [if_neg]
    rw [← copied, length_splice, env.size]
    · exact lt_irrefl 255
    · rw [List.length_append, List.length_take, List.length_replicate, env.size]
      omega
  unfold dccCheck
  rw [if_neg (by rw [allowed]; exact Bool.false_ne_true)]
  simp only [span, Option.bind_eq_bind, Option.bind_some, Nat.zero_lt_succ, if_true]
  rw [← Option.bind_assoc, outside, Option.bind_none]

end

/-! ### The end of the name -/

section

variable {front w after : Text} {c : Char} {strlen : Nat}

theorem dccSpan_plain (ten : front.length = 10) (bare : c ≠ '"') (proper : NUL ∉ w) (word : ' ' ∉ w) :
    dccSpan (front ++ c :: (w ++ ' ' :: after)) strlen = some (10, min 255 (w.length + 1)) := by
  have read : (front ++ c :: (w ++ ' ' :: after))[10]? = some c := by
    rw [← ten, getElem?_length_append]
    rfl
  have found := strchr_some proper word (front ++ [c]) after
  rw [List.append_assoc, List.singleton_append, List.length_append, List.length_append,
    List.length_append, List.length_singleton, ten] at found
  unfold dccSpan
  rw [read, Option.bind_eq_bind, Option.bind_some, if_neg bare]
  dsimp only
  rw [found]
  simp only [Option.bind_eq_bind, Option.bind_some, Option.getD_some, Option.some.injEq, Prod.mk.injEq,
    true_and]
  split_ifs <;> omega

theorem dccSpan_quoted (ten : front.length = 10) (proper : NUL ∉ w) (word : '"' ∉ w) :
    dccSpan (front ++ '"' :: c :: (w ++ '"' :: after)) strlen = some (11, min 255 w.length) := by
  have read : (front ++ '"' :: c :: (w ++ '"' :: after))[10]? = some '"' := by
    rw [← ten, getElem?_length_append]
    rfl
  have found := strchr_some proper word (front ++ ['"', c]) after
  rw [List.append_assoc, List.cons_append, List.singleton_append, List.length_append,
    List.length_append, List.length_append, List.length_cons, List.length_singleton, ten] at found
  unfold dccSpan
  rw [read, Option.bind_eq_bind, Option.bind_some, if_pos rfl]
  dsimp only
  rw [found]
  simp only [Option.bind_eq_bind, Option.bind_some, Option.some.injEq, Prod.mk.injEq, true_and]
  split_ifs <;> omega

end

/-! ### Requests -/

inductive DccCommand
  | send
  | resume
deriving DecidableEq

def DccCommand.word : DccCommand → Text
  | .send => "DCC SEND".toList
  | .resume => "DCC RESUME".toList

/-- A request: the command as it is typed, and a name that is followed by what belongs to the transfer. -/
structure DccRequest where
  command : DccCommand
  typed : Text
  typed_eq : typed.map lowerLetter = command.word.map lowerLetter
  quoted : Bool
  name : Text
  args : Text
  named : name ≠ []
  proper : NUL ∉ name ++ args
  plain : quoted = false → ' ' ∉ name ∧ name.head? ≠ some '"'
  closed : quoted = true → '"' ∉ name

namespace DccRequest

variable (r : DccRequest)

def body : Text := if r.quoted then '"' :: (r.name ++ '"' :: r.args) else r.name ++ ' ' :: r.args

def text : Text := Char.ofNat 1 :: (r.typed ++ ' ' :: r.body)

/-- More than ten blanks from the eleventh character of the text on. -/
def Exploit : Prop := 10 < (r.text.drop 10).count ' '

instance : Decidable r.Exploit := inferInstanceAs (Decidable (_ < _))

/-- **The name is asked about**, as far as it fits, with every write inside of the buffer: unless the
message is refused before. -/
def NameAsked (env : DccEnv) (sptr : DccSender) : Prop :=
  ∃ outcome, dccCheck env sptr r.text = some outcome ∧
    ((outcome.asked = none ∧ outcome.stopped ≠ none) ∨ outcome.asked = some (r.name.take 254))

def Found : Prop :=
  match r.command, r.quoted with
  | .send, false => r.name.length ≤ 254
  | .send, true => r.name.length = 255 ∨ (r.Exploit ∧ 2 ≤ r.name.length ∧ r.name.length ≤ 255)
  | .resume, _ => r.Exploit ∨ r.name = r.typed.drop 9

instance : Decidable r.Found := by
  unfold Found
  split <;> infer_instance

/-! ### What is found -/

theorem length_typed : r.typed.length = r.command.word.length := by
  have same := congrArg List.length r.typed_eq
  rwa [List.length_map, List.length_map] at same

theorem proper_text : NUL ∉ r.text := by
  have typed : NUL ∉ r.typed := by
    intro member
    have lowered := List.mem_map_of_mem (f := lowerLetter) member
    rw [r.typed_eq] at lowered
    revert lowered
    cases r.command <;> decide
  have proper := r.proper
  rw [List.mem_append, not_or] at proper
  have quote : NUL ≠ '"' := by decide
  have blank : NUL ≠ ' ' := by decide
  have first : NUL ≠ Char.ofNat 1 := by decide
  have body : NUL ∉ r.body := by
    unfold body
    split_ifs
    · rw [List.mem_cons, List.mem_append, List.mem_cons]
      rintro (same | member | same | member)
      exacts [quote same, proper.1 member, quote same, proper.2 member]
    · rw [List.mem_append, List.mem_cons]
      rintro (member | same | member)
      exacts [proper.1 member, blank same, proper.2 member]
  unfold text
  rw [List.mem_cons, List.mem_append, List.mem_cons]
  rintro (same | member | same | member)
  exacts [first same, typed member, blank same, body member]

/-- Where the name of a request starts, and how much of it is copied. -/
def span : Nat × Nat :=
  match r.command, r.quoted with
  | .send, false => (10, min 255 r.name.length)
  | .send, true => (11, min 255 (r.name.length - 1))
  | .resume, _ => (10, 1)

theorem typed_resume (resume : r.command = .resume) :
    ∃ front e, front.length = 9 ∧ r.typed = front ++ [e] ∧ e ≠ '"' := by
  have length := r.length_typed
  have same := r.typed_eq
  rw [resume] at length same
  have some_ : r.typed ≠ [] := fun empty => by rw [empty] at length; exact absurd length (by decide)
  have cut := List.dropLast_append_getLast some_
  refine ⟨r.typed.dropLast, r.typed.getLast some_, ?_, cut.symm, fun quote => ?_⟩
  · rw [List.length_dropLast, length]
    rfl
  · have last := congrArg List.getLast? same
    rw [← cut, quote, List.map_append, List.map_singleton, List.getLast?_concat] at last
    exact absurd last (by decide)

theorem shape_send {c : Char} {w : Text} (send : r.command = .send) (name : r.name = c :: w) :
    ∃ front : Text, front.length = 10 ∧
      r.text = front ++ if r.quoted then '"' :: c :: (w ++ '"' :: r.args) else c :: (w ++ ' ' :: r.args) := by
  have length := r.length_typed
  rw [send] at length
  refine ⟨Char.ofNat 1 :: (r.typed ++ [' ']), ?_, ?_⟩
  · rw [List.length_cons, List.length_append, length]
    rfl
  · rw [text, body, name]
    show _ = Char.ofNat 1 :: ((r.typed ++ [' ']) ++ _)
    rw [List.append_assoc]
    rfl

theorem shape_resume {front : Text} {e : Char} (typed : r.typed = front ++ [e]) :
    r.text = Char.ofNat 1 :: front ++ e :: ' ' :: r.body := by
  rw [text, typed, List.append_assoc]
  rfl

/-- **The start and the end** that are found: of a quoted name the last character is missing, and of a request
to resume it is the command. -/
theorem dccSpan_eq : dccSpan (r.text ++ [NUL]) r.text.length = some r.span := by
  have properBody := r.proper
  rw [List.mem_append, not_or] at properBody
  obtain ⟨c, w, name⟩ := List.exists_cons_of_ne_nil r.named
  have proper : NUL ∉ w := fun member => properBody.1 (name ▸ List.mem_cons_of_mem _ member)
  unfold span
  generalize r.text.length = strlen
  cases which : r.command with
  | send =>
    obtain ⟨front, ten, shape⟩ := r.shape_send which name
    rw [shape, List.append_assoc]
    cases kind : r.quoted with
    | false =>
      obtain ⟨apart, bare⟩ := r.plain kind
      rw [name] at apart bare
      rw [if_neg Bool.false_ne_true, List.cons_append, List.append_assoc, List.cons_append,
        dccSpan_plain ten (fun same => bare (congrArg some same)) proper
          (fun member => apart (List.mem_cons_of_mem _ member)), name, List.length_cons]
    | true =>
      have apart := r.closed kind
      rw [name] at apart
      rw [if_pos rfl, List.cons_append, List.cons_append, List.append_assoc, List.cons_append,
        dccSpan_quoted ten proper (fun member => apart (List.mem_cons_of_mem _ member)), name,
        List.length_cons, Nat.add_sub_cancel]
  | resume =>
    obtain ⟨front, e, nine, typed, bare⟩ := r.typed_resume which
    rw [r.shape_resume typed, List.append_assoc, List.cons_append, List.cons_append]
    exact @dccSpan_plain (Char.ofNat 1 :: front) [] _ e strlen (by rw [List.length_cons, nine]) bare
      List.not_mem_nil List.not_mem_nil

section

variable {r} {env : DccEnv} {sptr : DccSender}

theorem nameAsked_iff (allowed : sptr.nodcc = false) (some_ : 0 < r.span.2) (short : r.span.2 < 255)
    (inside : r.span.1 ≤ r.text.length) :
    r.NameAsked env sptr ↔ 10 < (r.text.drop r.span.1).count ' ' ∨
      (r.text.drop r.span.1).take r.span.2 = r.name.take 254 := by
  obtain ⟨outcome, checked, result⟩ :=
    @dccCheck_eq _ env _ _ _ allowed r.proper_text inside r.dccSpan_eq some_ short
  unfold NameAsked
  rw [checked]
  simp only [Option.some.injEq, exists_eq_left']
  split_ifs at result with exploit
  · exact iff_of_true (.inl result) (.inl exploit)
  · constructor
    · rintro (⟨refused, -⟩ | asked)
      · rw [result] at refused
        cases refused
      · exact .inr (Option.some.inj (result.symm.trans asked))
    · rintro (many | same)
      · exact absurd many exploit
      · exact .inr (result.trans (congrArg some same))

theorem not_nameAsked_zero (allowed : sptr.nodcc = false) (none_ : r.span.2 = 0) : ¬ r.NameAsked env sptr := by
  have span := r.dccSpan_eq
  rw [← Prod.eta r.span, none_] at span
  rintro ⟨outcome, checked, result⟩
  rw [dccCheck_zero allowed span, Option.some.injEq] at checked
  subst checked
  rcases result with ⟨-, refused⟩ | asked
  · exact refused rfl
  · cases asked

theorem not_nameAsked_overrun (allowed : sptr.nodcc = false) (long : r.span.2 = 255) :
    ¬ r.NameAsked env sptr := by
  have span := r.dccSpan_eq
  rw [← Prod.eta r.span, long] at span
  rintro ⟨outcome, checked, -⟩
  rw [dccCheck_overrun allowed span] at checked
  cases checked

/-- **A plain name to send** fits, or its end is written behind the buffer. -/
theorem nameAsked_plain (allowed : sptr.nodcc = false) (send : r.command = .send) (kind : r.quoted = false) :
    r.NameAsked env sptr ↔ r.name.length ≤ 254 := by
  obtain ⟨c, w, name⟩ := List.exists_cons_of_ne_nil r.named
  obtain ⟨front, ten, shape⟩ := r.shape_send send name
  have some_ := List.length_pos_of_ne_nil r.named
  have span : r.span = (10, min 255 r.name.length) := by rw [DccRequest.span, send, kind]
  rcases Nat.lt_or_ge r.name.length 255 with short | long
  · have copied : r.span.2 = r.name.length := by rw [span]; exact min_eq_right short.le
    have dropped : r.text.drop r.span.1 = r.name ++ ' ' :: r.args := by
      rw [span, shape, kind, ← ten, List.drop_left, name]
      rfl
    have inside : r.span.1 ≤ r.text.length := by
      rw [span, shape, List.length_append]
      omega
    rw [nameAsked_iff allowed (by omega) (by omega) inside, dropped, copied, List.take_left,
      List.take_of_length_le (by omega)]
    exact iff_of_true (.inr rfl) (by omega)
  · refine iff_of_false (not_nameAsked_overrun allowed ?_) (by omega)
    rw [span]
    exact min_eq_left long

/-- **A quoted name to send** loses a character, which is what it is cut by when it has 255. -/
theorem nameAsked_quoted (allowed : sptr.nodcc = false) (send : r.command = .send) (kind : r.quoted = true) :
    r.NameAsked env sptr ↔
      r.name.length = 255 ∨ (r.Exploit ∧ 2 ≤ r.name.length ∧ r.name.length ≤ 255) := by
  obtain ⟨c, w, name⟩ := List.exists_cons_of_ne_nil r.named
  obtain ⟨front, ten, shape⟩ := r.shape_send send name
  have some_ := List.length_pos_of_ne_nil r.named
  have span : r.span = (11, min 255 (r.name.length - 1)) := by rw [DccRequest.span, send, kind]
  have eleven : (front ++ ['"']).length = 11 := by rw [List.length_append, ten, List.length_singleton]
  have quote : r.text = front ++ ['"'] ++ (r.name ++ '"' :: r.args) := by
    rw [shape, if_pos kind, List.append_assoc, name]
    rfl
  have dropped : r.text.drop r.span.1 = r.name ++ '"' :: r.args := by
    rw [quote, span, ← eleven, List.drop_left]
  -- the quote is not a blank
  have blanks : r.Exploit ↔ 10 < (r.name ++ '"' :: r.args).count ' ' := by
    rw [Exploit, quote, List.append_assoc, ← ten, List.drop_left, List.singleton_append, List.count_cons_of_ne
      (by decide)]
  have inside : r.span.1 ≤ r.text.length := by
    rw [span, quote, List.length_append, eleven]
    exact Nat.le_add_right _ _
  rcases Nat.lt_or_ge r.name.length 256 with short | long
  · have copied : r.span.2 = r.name.length - 1 := by rw [span]; exact min_eq_right (by omega)
    rcases Nat.lt_or_ge 1 r.name.length with two | one
    · rw [nameAsked_iff allowed (by omega) (by omega) inside, dropped, copied, ← blanks,
        List.take_append_of_le_length (Nat.sub_le _ _)]
      have cut : r.name.take (r.name.length - 1) = r.name.take 254 ↔ r.name.length = 255 := by
        constructor
        · intro same
          have lengths := congrArg List.length same
          rw [List.length_take, List.length_take] at lengths
          omega
        · intro full
          rw [full]
      rw [cut, or_comm]
      exact or_congr_right ⟨fun exploit => ⟨exploit, two, by omega⟩, And.left⟩
    · exact iff_of_false (not_nameAsked_zero allowed (by omega)) (by omega)
  · refine iff_of_false (not_nameAsked_overrun allowed ?_) (by omega)
    rw [span]
    exact min_eq_left (by omega)

/-- **Of a request to resume** the last letter of the command is asked about. -/
theorem nameAsked_resume (allowed : sptr.nodcc = false) (resume : r.command = .resume) :
    r.NameAsked env sptr ↔ r.Exploit ∨ r.name = r.typed.drop 9 := by
  obtain ⟨front, e, nine, typed, -⟩ := r.typed_resume resume
  have span : r.span = (10, 1) := by rw [DccRequest.span, resume]
  have ten : (Char.ofNat 1 :: front).length = 10 := by rw [List.length_cons, nine]
  have shape := r.shape_resume typed
  have dropped : r.text.drop 10 = e :: ' ' :: r.body := by rw [shape, ← ten, List.drop_left]
  have inside : r.span.1 ≤ r.text.length := by
    rw [span, shape, List.length_append, ten]
    exact Nat.le_add_right _ _
  have blanks : r.Exploit ↔ 10 < (e :: ' ' :: r.body).count ' ' := by rw [Exploit, dropped]
  rw [nameAsked_iff allowed (by rw [span]; decide) (by rw [span]; decide) inside, span, dropped, ← blanks,
    typed, ← nine, List.drop_left, List.take_succ_cons, List.take_zero]
  refine or_congr_right ⟨fun same => ?_, fun same => by rw [same]; rfl⟩
  -- what is cut from the name is longer than one letter
  have lengths := congrArg List.length same
  rw [List.length_singleton, List.length_take] at lengths
  rw [same, List.take_of_length_le (by omega)]

end

end DccRequest

/-- **The name of the file is asked about exactly when** it is a plain one to send that fits, a quoted one
of 255 characters, or when the last letter of the command is the name of a file to resume; the other messages
for which nothing wrong is asked are refused. -/
theorem dcc_name_iff (env : DccEnv) (sptr : DccSender) (r : DccRequest) :
    r.NameAsked env sptr ↔ sptr.nodcc = true ∨ r.Found := by
  cases allowed : sptr.nodcc with
  | true =>
    refine iff_of_true ?_ (.inl rfl)
    exact ⟨_, by rw [dccCheck, if_pos allowed], .inl ⟨rfl, Option.some_ne_none _⟩⟩
  | false =>
    rw [or_iff_right Bool.false_ne_true]
    unfold DccRequest.Found
    cases command : r.command with
    | send =>
      cases kind : r.quoted with
      | false => exact DccRequest.nameAsked_plain allowed command kind
      | true => exact DccRequest.nameAsked_quoted allowed command kind
    | resume => exact DccRequest.nameAsked_resume allowed command

set_option maxRecDepth 4096 in
/-- A quoted name is asked about without its last letter. -/
theorem not_dcc_name : ¬ ∀ (env : DccEnv) (sptr : DccSender) (r : DccRequest), r.NameAsked env sptr := by
  let env : DccEnv :=
    { svlines := [], NoDCCSend_Msg := [], filename := List.replicate 255 NUL, size := List.length_replicate }
  let sptr : DccSender := { nodcc := false, name := "ann".toList, username := "a".toList, realhost := "h".toList }
  let r : DccRequest :=
    { command := .send, typed := "DCC SEND".toList, typed_eq := rfl, quoted := true, name := "virus.exe".toList
      args := " 3232235777 1024 4096".toList, named := by decide, proper := by decide
      plain := by decide, closed := by decide }
  intro all
  have asked : (dccCheck env sptr r.text).map DccOutcome.asked = some (some "virus.ex".toList) := rfl
  obtain ⟨outcome, checked, result⟩ := all env sptr r
  rw [checked, Option.map_some, Option.some.injEq] at asked
  rcases result with ⟨refused, -⟩ | whole
  · rw [asked] at refused
    cases refused
  · rw [asked] at whole
    revert whole
    decide

end PtlinkIrcd
