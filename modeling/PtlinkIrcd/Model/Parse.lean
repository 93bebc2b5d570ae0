/-
**Lines.**

`parse` of `parse.c`: a line from a connection is a prefix, a command and its parameters.

* `wire` — what `sendto_one` leaves of a line.
* `params` — the loop over the parameters.
* `Ircd.parse` — the whole line: the source of the message, its command and `parv`.
-/

import Mathlib.Data.List.Infix
import PtlinkIrcd.Model.State

namespace PtlinkIrcd

/-- A line as it arrives: 510 characters at most. -/
def wire (line : Text) : Text := line.take (BUFSIZE - 2)

/-- The loop over the parameters, with so many slots left: the last one takes the rest of the line,
and so does one that starts with a colon. -/
def params : Nat → Text → List Text
  | 0, _ => []
  | slots + 1, s =>
    match s.dropWhile (· = ' ') with
    | [] => []
    | c :: t =>
      if c = ':' then [t]
      else if slots = 0 then [c :: t]
      else (c :: t).takeWhile (· ≠ ' ') :: params slots ((c :: t).dropWhile (· ≠ ' '))

/-- What a line turns out to be. -/
inductive Parsed
  | message (source : ClientId) (command : Text) (parv : List Text)
  | numeric
  | empty
  | unknownPrefix (sender : Text)
  | wrongDirection (source : ClientId)
  deriving DecidableEq

/-- Whether a line starts with three digits and a blank. -/
def isNumeric (ch : Text) : Bool :=
  (ch.take 3).all Char.isDigit && ch[3]? = some ' '

def parseCommand (source : ClientId) (sender ch : Text) : Parsed :=
  if ch = [] then .empty
  else if isNumeric ch then .numeric
  else .message source ((ch.takeWhile (· ≠ ' ')).map toUpper)
    (sender :: params (MAXPARA - 1) (ch.dropWhile (· ≠ ' ')))

namespace Ircd

/-- `hash_find_masked_server`: the name with all up to a dot replaced by a star. -/
def hash_find_masked_server (s : Ircd) (name : Text) : Option ClientId :=
  if name.head? = some '*' ∨ name.head? = some '.' then none
  else ((name.take HOSTLEN).tails.filter fun t => t.head? = some '.').findSome? fun t =>
    s.find_client ('*' :: t)

def find_server (s : Ircd) (name : Text) : Option ClientId :=
  (s.clientTable.find (hashNickName name) fun cptr =>
    ((s.client cptr).isServer || (s.client cptr).isMe) && irccmp name (s.client cptr).name = 0).or
    (s.hash_find_masked_server name)

def prefixed (s : Ircd) (sender : Text) : Option ClientId :=
  match s.find_client sender with
  | some source =>
    if ircMatch (s.client source).name sender then some source else s.find_server sender
  | none => s.find_server sender

/-- `parse`, up to the call of the handler. -/
def parse (s : Ircd) (cptr : ClientId) (pbuffer : Text) : Parsed :=
  match pbuffer.dropWhile (· = ' ') with
  | [] => .empty
  | c :: ch =>
    if c = ':' then
      let sender := (ch.takeWhile (· ≠ ' ')).take HOSTLEN
      let rest := (ch.dropWhile (· ≠ ' ')).dropWhile (· = ' ')
      if sender ≠ [] && (s.client cptr).isServer then
        match s.prefixed sender with
        | none => .unknownPrefix sender
        | some source =>
          if (s.client source).link ≠ some cptr then .wrongDirection source
          else parseCommand source sender rest
      else parseCommand cptr (s.client cptr).name rest
    else parseCommand cptr (s.client cptr).name (c :: ch)

end Ircd

/-! ### Lines of words -/

/-- A parameter in the middle of a line. -/
structure IsMiddle (t : Text) : Prop where
  ne_nil : t ≠ []
  noBlank : ' ' ∉ t
  noColon : t.head? ≠ some ':'

theorem takeWhile_word {t : Text} (noBlank : ' ' ∉ t) (rest : Text) :
    (t ++ ' ' :: rest).takeWhile (· ≠ ' ') = t ∧
      (t ++ ' ' :: rest).dropWhile (· ≠ ' ') = ' ' :: rest := by
  induction t with
  | nil => exact ⟨rfl, rfl⟩
  | cons c t ih =>
    rw [List.mem_cons, not_or] at noBlank
    obtain ⟨take, drop⟩ := ih noBlank.2
    have keeps : decide (c ≠ ' ') = true := decide_eq_true (Ne.symm noBlank.1)
    refine ⟨?_, ?_⟩
    · rw [List.cons_append, List.takeWhile_cons, if_pos keeps, take]
    · rw [List.cons_append, List.dropWhile_cons, if_pos keeps, drop]

theorem params_middle {t : Text} (middle : IsMiddle t) (slots : Nat) (rest : Text) :
    params (slots + 2) (' ' :: (t ++ ' ' :: rest)) = t :: params (slots + 1) (' ' :: rest) := by
  obtain ⟨take, drop⟩ := takeWhile_word middle.noBlank rest
  cases t with
  | nil => exact absurd rfl middle.ne_nil
  | cons c t =>
    have noBlank := middle.noBlank
    rw [List.mem_cons, not_or] at noBlank
    have noColon : c ≠ ':' := fun colon => middle.noColon (by rw [colon]; rfl)
    have start : (' ' :: (c :: t ++ ' ' :: rest)).dropWhile (· = ' ') = c :: t ++ ' ' :: rest := by
      rw [List.dropWhile_cons, if_pos (by decide), List.cons_append, List.dropWhile_cons,
        if_neg (by simpa using Ne.symm noBlank.1)]
    rw [List.cons_append] at start take drop
    rw [params, List.cons_append, start]
    simp only []
    rw [if_neg noColon, if_neg (Nat.succ_ne_zero slots), take, drop]

theorem params_nil (slots : Nat) : params slots [] = [] := by
  cases slots with
  | zero => rfl
  | succ slots => rfl

theorem params_space (slots : Nat) (rest : Text) : params slots (' ' :: rest) = params slots rest := by
  cases slots with
  | zero => rfl
  | succ slots =>
    rw [params, params]
    rfl

end PtlinkIrcd
