/-
**Names and relayed lines.**

The characters of host names and user names, and how a server reads a line that another one passes on.

* `valid_hostname`, `valid_username` — the checks of `s_user.c`.
* `IsName` — a name that is one word of a line; `Knows` — a server that has the sender of a line behind
  the link on which the line comes.
* `Knows.parse` — **such a line is a message of that sender**, with its command and its parameters.
-/

import Mathlib.Data.List.TakeWhile
import PtlinkIrcd.Model.Parse

namespace PtlinkIrcd

/-! ### Valid names -/

def IsHostChar (c : Char) : Bool := c.isAlphanum || c ∈ ['-', '.', ':']

def valid_hostname (hostname : Text) : Bool :=
  let dots := hostname.countP (· ∈ ['.', ':'])
  let chars := hostname.countP (· ∉ ['.', ':'])
  hostname.head? != some '.' && hostname.all IsHostChar && !(dots == 0 || chars < dots)

def IsUserChar (c : Char) : Bool :=
  c.isAlphanum || c ∈ ['$', '-', '.', '[', ']', '^', '_', Char.ofNat 96, '{', '|', '}', '~']

/-- `valid_username`; a tilde in front is an `IsUserChar` too. -/
def valid_username (username : Text) : Bool := username ≠ [] && username.all IsUserChar

theorem valid_hostname_all {host : Text} (valid : valid_hostname host = true) :
    ∀ c ∈ host, IsHostChar c = true := by
  unfold valid_hostname at valid
  simp only [Bool.and_eq_true, List.all_eq_true] at valid
  exact valid.1.2

theorem valid_username_all {user : Text} (valid : valid_username user = true) :
    ∀ c ∈ user, IsUserChar c = true := by
  unfold valid_username at valid
  simp only [Bool.and_eq_true, List.all_eq_true] at valid
  exact valid.2

/-! ### Relayed lines -/

/-- A name that is one word of a line. -/
structure IsName (t : Text) : Prop extends IsMiddle t where
  fits : t.length ≤ HOSTLEN

/-- A server that has the sender of a line behind the link. -/
structure Knows (t : Ircd) (link : ClientId) (sender : Text) (source : ClientId) : Prop where
  server : (t.client link).isServer = true
  found : t.prefixed sender = some source
  behind : (t.client source).link = some link

theorem params_word {word : Text} (middle : IsMiddle word) (slots : Nat) :
    params (slots + 1) (' ' :: word) = [word] := by
  cases word with
  | nil => exact absurd rfl middle.ne_nil
  | cons c rest =>
    have noBlank : ∀ d ∈ c :: rest, decide (d ≠ ' ') = true := fun d member =>
      decide_eq_true fun blank => middle.noBlank (blank ▸ member)
    have noColon : c ≠ ':' := fun colon => middle.noColon (by rw [colon]; rfl)
    have start : (' ' :: c :: rest).dropWhile (· = ' ') = c :: rest := by
      rw [List.dropWhile_cons, if_pos (by decide), List.dropWhile_cons,
        if_neg (by simpa using noBlank c List.mem_cons_self)]
    rw [params, start]
    dsimp only
    rw [if_neg noColon, List.takeWhile_eq_self_iff.mpr noBlank, List.dropWhile_eq_nil_iff.mpr noBlank,
      params_nil, ite_self]

theorem params_followed {slots : Nat} {text p : Text} {rest : List Text}
    (inside : p :: rest <:+ params slots text) (followed : rest ≠ []) :
    IsMiddle p ∧ p ⊆ text := by
  induction slots generalizing text with
  | zero => exact absurd (List.suffix_nil.mp inside) (List.cons_ne_nil _ _)
  | succ slots ih =>
    have single : ∀ t : Text, ¬ p :: rest <:+ [t] := by
      intro t suffix
      have few := suffix.length_le
      have some_ := List.length_pos_iff.mpr followed
      rw [List.length_cons, List.length_singleton] at few
      omega
    have tail : text.dropWhile (· = ' ') ⊆ text := List.dropWhile_subset _
    rw [params] at inside
    split at inside
    · exact absurd (List.suffix_nil.mp inside) (List.cons_ne_nil _ _)
    · rename_i c t start
      rw [start] at tail
      split at inside
      · exact absurd inside (single _)
      · rename_i noColon
        split at inside
        · exact absurd inside (single _)
        · rcases List.suffix_cons_iff.mp inside with here | later
          · obtain ⟨rfl, -⟩ := List.cons.inj here
            have noBlank : c ≠ ' ' := by
              have head := List.head?_dropWhile_not (· = ' ') text
              rw [start] at head
              simpa using head
            have first : (c :: t).takeWhile (· ≠ ' ') = c :: t.takeWhile (· ≠ ' ') :=
              List.takeWhile_cons_of_pos (by simpa using noBlank)
            refine ⟨⟨?_, ?_, ?_⟩, ?_⟩
            · rw [first]
              exact List.cons_ne_nil _ _
            · exact fun blank => absurd (List.mem_takeWhile_imp blank) (by decide)
            · rw [first]
              exact fun colon => noColon (Option.some.inj colon)
            · exact fun d inside => tail (List.takeWhile_subset _ inside)
          · obtain ⟨middle, subset⟩ := ih later
            exact ⟨middle, fun d inside => tail (List.dropWhile_subset _ (subset inside))⟩

/-- A command word. -/
structure IsCommand (command : Text) : Prop where
  ne_nil : command ≠ []
  noBlank : ' ' ∉ command
  noDigit : ∀ c ∈ command.head?, c.isDigit = false ∧ c ≠ ' '
  upper : command.map toUpper = command

variable {t : Ircd} {link source : ClientId} {sender command : Text}

/-- A relayed line is a message of its sender, if the server has that behind the link. -/
theorem parse_relayed (server : (t.client link).isServer = true) (name : IsName sender)
    (word : IsCommand command) (rest : Text) :
    t.parse link (':' :: (sender ++ ' ' :: (command ++ ' ' :: rest))) =
      match t.prefixed sender with
      | none => .unknownPrefix sender
      | some source =>
        if (t.client source).link ≠ some link then .wrongDirection source
        else .message source command (sender :: params (MAXPARA - 1) (' ' :: rest)) := by
  obtain ⟨c, more, rfl⟩ := List.exists_cons_of_ne_nil word.ne_nil
  obtain ⟨noDigit, noBlank⟩ := word.noDigit c rfl
  obtain ⟨senderTake, senderDrop⟩ := takeWhile_word name.noBlank (c :: more ++ ' ' :: rest)
  obtain ⟨wordTake, wordDrop⟩ := takeWhile_word word.noBlank rest
  have start : (' ' :: (c :: more ++ ' ' :: rest)).dropWhile (· = ' ') = c :: more ++ ' ' :: rest := by
    rw [List.dropWhile_cons, if_pos (by decide), List.cons_append, List.dropWhile_cons,
      if_neg (by simpa using noBlank)]
  have numeric : isNumeric (c :: more ++ ' ' :: rest) = false := by
    simp [isNumeric, noDigit]
  have command_ : ∀ source, parseCommand source sender (c :: more ++ ' ' :: rest) =
      .message source (c :: more) (sender :: params (MAXPARA - 1) (' ' :: rest)) := by
    intro source
    rw [parseCommand, if_neg (by simp), numeric, wordTake, wordDrop, word.upper]
    rfl
  unfold Ircd.parse
  rw [List.dropWhile_cons, if_neg (by decide)]
  dsimp only
  rw [if_pos rfl, senderTake, senderDrop, start, List.take_of_length_le name.fits, server,
    if_pos (by simpa using name.ne_nil)]
  cases t.prefixed sender with
  | none => rfl
  | some source => simp only [command_]

/-- **A relayed line is a message of its sender.** -/
theorem Knows.parse (knows : Knows t link sender source) (name : IsName sender)
    (word : IsCommand command) (rest : Text) :
    t.parse link (':' :: (sender ++ ' ' :: (command ++ ' ' :: rest))) =
      .message source command (sender :: params (MAXPARA - 1) (' ' :: rest)) := by
  rw [parse_relayed knows.server name word rest, knows.found]
  dsimp only
  rw [if_neg (by simpa using knows.behind)]

theorem parv_of_parse_relayed {found : Text} {parv : List Text}
    (server : (t.client link).isServer = true) (name : IsName sender) (word : IsCommand command)
    (rest : Text) (read : t.parse link (':' :: (sender ++ ' ' :: (command ++ ' ' :: rest))) =
      .message source found parv) : parv = sender :: params (MAXPARA - 1) (' ' :: rest) := by
  rw [parse_relayed server name word rest] at read
  split at read
  · cases read
  · split_ifs at read
    cases read
    rfl

theorem params_colon (slots : Nat) (last : Text) :
    params (slots + 1) (' ' :: ':' :: last) = [last] := by
  rw [params]
  rfl

end PtlinkIrcd
