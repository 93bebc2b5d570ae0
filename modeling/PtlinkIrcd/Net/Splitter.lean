/-
**The splitter of lines.**

`parse` as it works on its line: the blanks in front of the parameters become terminators, and `para`
gets the places at which they start.

* `split` — the loop over the parameters; `split_eq` reads back what `params` says.
* `Ircd.parse_line` — the whole of `parse`, up to the call of the handler.
* `parse_line_bounds` — **the index into `para` stays inside**, whatever the line is, and `para` ends
  in NULL.
-/

import Mathlib.Data.List.DropRight
import PtlinkIrcd.Channel.Runs
import PtlinkIrcd.Client.Login
import PtlinkIrcd.Lib.Buffers

namespace PtlinkIrcd

open Lib

/-- An entry of `para`: a string outside of the line, a place in it, or NULL. -/
inductive Para
  | text (t : Text)
  | place (s : Nat)
  | null
  deriving DecidableEq

/-- The string at a place of the memory. -/
def stringAt (memory : Text) (s : Nat) : Text := (memory.drop s).takeWhile (· ≠ NUL)

def Para.read (memory : Text) : Para → Option Text
  | .text t => some t
  | .place s => some (stringAt memory s)
  | .null => none

/-- `IsNonEOS`: every character of the table but the terminator and the blank. -/
def isNonEOS (c : Char) : Bool := c ≠ NUL && c ≠ ' '

theorem isNonEOS_iff {c : Char} : isNonEOS c = true ↔ c ≠ NUL ∧ c ≠ ' ' := by simp [isNonEOS]

/-- `while (*s == ' ') *s++ = '\\0';` in at most so many rounds. -/
def blankOut : Nat → Text → Nat → Option (Text × Nat)
  | 0, _, _ => none
  | rounds + 1, memory, s => do
    let c ← memory[s]?
    if c = ' ' then
      let memory ← store memory s NUL
      blankOut rounds memory (s + 1)
    else some (memory, s)

/-- A round of the loop over the parameters, behind the blanks: the end of the line, the rest of it as
the last parameter, or a parameter and what is behind it. -/
def takeParam (paramcount : Nat)
    (next : Text → Nat → Nat → List Para → Option (Text × Nat × List Para))
    (memory : Text) (s i : Nat) (para : List Para) : Option (Text × Nat × List Para) := do
  let c ← memory[s]?
  if c = NUL then some (memory, i, para)
  else if c = ':' then
    let para ← store para i (.place (s + 1))
    some (memory, i + 1, para)
  else
    let para ← store para i (.place s)
    if paramcount ≤ i + 1 then some (memory, i + 1, para)
    else
      let s ← skipWhile isNonEOS memory s
      next memory s (i + 1) para

/-- The loop over the parameters, in at most so many rounds: the memory, the index and `para` behind
it. -/
def split (paramcount : Nat) : Nat → Text → Nat → Nat → List Para → Option (Text × Nat × List Para)
  | 0, _, _, _, _ => none
  | rounds + 1, memory, s, i, para => do
    let (memory, s) ← blankOut memory.length memory s
    takeParam paramcount (split paramcount rounds) memory s i para

section

variable {rest w after : Text} {para : List Para} {rounds i paramcount : Nat}

/-- What is left of the line when its first blanks are gone. -/
def unblank (rest : Text) : Text :=
  (rest.takeWhile (· = ' ')).map (fun _ => NUL) ++ rest.dropWhile (· = ' ')

theorem blankOut_eq (front : Text) (word : NUL ∉ rest) (enough : rest.length < rounds) :
    blankOut rounds (front ++ rest ++ NUL :: after) front.length =
      some (front ++ unblank rest ++ NUL :: after,
        front.length + (rest.takeWhile (· = ' ')).length) := by
  induction rounds generalizing front rest with
  | zero => exact absurd enough (Nat.not_lt_zero _)
  | succ rounds ih =>
    rw [blankOut, List.append_assoc, getElem?_length_append]
    cases rest with
    | nil => simp [unblank, show NUL ≠ ' ' by decide]
    | cons c rest =>
      rw [List.cons_append, List.head?_cons, Option.bind_eq_bind, Option.bind_some]
      unfold unblank
      by_cases blank : c = ' '
      · have later := ih (front ++ [NUL]) (List.not_mem_of_not_mem_cons word)
          (Nat.lt_of_succ_lt_succ enough)
        rw [if_pos blank, store_length_append, Option.bind_eq_bind, Option.bind_some,
          List.takeWhile_cons_of_pos (by simpa using blank),
          List.dropWhile_cons_of_pos (by simpa using blank)]
        unfold unblank at later
        simpa [Nat.add_assoc, Nat.add_comm 1] using later
      · rw [if_neg blank, List.takeWhile_cons_of_neg (by simpa using blank),
          List.dropWhile_cons_of_neg (by simpa using blank)]
        simp

/-- The blanks in front of a parameter, or of the end of the line, become terminators. -/
theorem blankOut_front (front : Text) (word : NUL ∉ rest) :
    ∃ nuls : Text, nuls.length + (rest.dropWhile (· = ' ')).length = rest.length ∧
      blankOut (front ++ rest ++ NUL :: after).length (front ++ rest ++ NUL :: after) front.length =
        some (front ++ nuls ++ rest.dropWhile (· = ' ') ++ NUL :: after, (front ++ nuls).length) ∧
      (rest.head? = some ' ' → nuls.head? = some NUL) := by
  have whole := congrArg List.length (List.takeWhile_append_dropWhile (p := (· = ' ')) (l := rest))
  rw [List.length_append] at whole
  refine ⟨(rest.takeWhile (· = ' ')).map fun _ => NUL, by rw [List.length_map, whole], ?_, fun blank => ?_⟩
  · rw [blankOut_eq front word (by simp only [List.length_append, List.length_cons]; omega), unblank]
    simp
  · obtain ⟨tail, rfl⟩ := List.head?_eq_some_iff.mp blank
    rw [List.takeWhile_cons_of_pos (by decide)]
    rfl

theorem stringAt_front (front : Text) (word : NUL ∉ w) (rest : Text) :
    stringAt (front ++ w ++ NUL :: rest) front.length = w := by
  have plain : ∀ c ∈ w, decide (c ≠ NUL) = true := fun c inside =>
    decide_eq_true fun same => word (same ▸ inside)
  unfold stringAt
  rw [List.append_assoc, List.drop_left, List.takeWhile_append_of_pos plain,
    List.takeWhile_cons_of_neg (by decide), List.append_nil]

theorem takeWhile_isNonEOS (word : NUL ∉ w) : w.takeWhile isNonEOS = w.takeWhile (· ≠ ' ') := by
  induction w with
  | nil => rfl
  | cons c w ih =>
    have same : isNonEOS c = decide (c ≠ ' ') := by
      unfold isNonEOS
      rw [decide_eq_true (List.ne_of_not_mem_cons word).symm, Bool.true_and]
    rw [List.takeWhile_cons, List.takeWhile_cons, same, ih (List.not_mem_of_not_mem_cons word)]

theorem params_succ (slots : Nat) (rest : Text) :
    params (slots + 1) rest = params (slots + 1) (rest.dropWhile (· = ' ')) := by
  rw [params, params, List.dropWhile_idempotent]

theorem params_cons {c : Char} (noBlank : c ≠ ' ') (slots : Nat) (u : Text) :
    params (slots + 1) (c :: u) =
      if c = ':' then [u]
      else if slots = 0 then [c :: u]
      else (c :: u).takeWhile (· ≠ ' ') :: params slots ((c :: u).dropWhile (· ≠ ' ')) := by
  rw [params, List.dropWhile_cons_of_neg (by simpa using noBlank)]

section

variable {next : Text → Nat → Nat → List Para → Option (Text × Nat × List Para)}

theorem takeParam_end (front : Text) :
    takeParam paramcount next (front ++ NUL :: after) front.length i para =
      some (front ++ NUL :: after, i, para) := by
  rw [takeParam, getElem?_length_append]
  rfl

theorem takeParam_colon (front : Text) (room : i < para.length) :
    takeParam paramcount next (front ++ ':' :: rest) front.length i para =
      some (front ++ ':' :: rest, i + 1, splice para i [.place (front.length + 1)]) := by
  rw [takeParam, getElem?_length_append, store_eq room]
  rfl

theorem takeParam_last {c : Char} (front : Text) (room : i < para.length) (some_ : c ≠ NUL)
    (plain : c ≠ ':') (last : paramcount ≤ i + 1) :
    takeParam paramcount next (front ++ c :: rest) front.length i para =
      some (front ++ c :: rest, i + 1, splice para i [.place front.length]) := by
  rw [takeParam, getElem?_length_append, List.head?_cons, Option.bind_eq_bind, Option.bind_some,
    if_neg some_, if_neg plain, store_eq room, Option.bind_eq_bind, Option.bind_some, if_pos last]

theorem takeParam_middle {c : Char} (front : Text) (room : i < para.length) (word : NUL ∉ c :: w)
    (plain : c ≠ ':') (more : ¬ paramcount ≤ i + 1) :
    takeParam paramcount next (front ++ (c :: w) ++ NUL :: after) front.length i para =
      next (front ++ (c :: w) ++ NUL :: after) (front.length + ((c :: w).takeWhile (· ≠ ' ')).length)
        (i + 1) (splice para i [.place front.length]) := by
  have read : (front ++ (c :: w) ++ NUL :: after)[front.length]? = some c := by
    rw [List.append_assoc, getElem?_length_append]
    rfl
  rw [takeParam, read, Option.bind_eq_bind, Option.bind_some,
    if_neg (List.ne_of_not_mem_cons word).symm, if_neg plain, store_eq room, Option.bind_eq_bind,
    Option.bind_some, if_neg more, skipWhile_eq (by decide), takeWhile_isNonEOS word]
  rfl

end

/-- What the loop leaves of the rest of a line behind `front`: the places of at most so many parameters,
stored from `i` on, at which the strings are those of `params`. -/
def Leaves (after : Text) (slots : Nat) (front rest : Text) (i : Nat) (para : List Para)
    (result : Option (Text × Nat × List Para)) : Prop :=
  ∃ (rest' : Text) (places : List Nat), rest'.length = rest.length ∧
    ((∀ c ∈ rest.head?, c = ' ') → (rest' ++ NUL :: after).head? = some NUL) ∧
    result = some (front ++ rest' ++ NUL :: after, i + places.length, splice para i (places.map .place)) ∧
    places.map (stringAt (front ++ rest' ++ NUL :: after)) = params slots rest ∧
    places.length ≤ slots

section

variable {front nuls t u : Text} {c : Char} {slots : Nat} {result : Option (Text × Nat × List Para)}
variable {next : Text → Nat → Nat → List Para → Option (Text × Nat × List Para)}

theorem Leaves.blanks (left : Leaves after slots (front ++ nuls) t i para result)
    (gone : nuls.length + t.length = rest.length) (starts : rest.head? = some ' ' → nuls.head? = some NUL)
    (same : params slots rest = params slots t) : Leaves after slots front rest i para result := by
  obtain ⟨t', places, length, -, made, strings, few⟩ := left
  have whole : (nuls ++ t').length = rest.length := by rw [List.length_append, length, gone]
  rw [List.append_assoc front] at made strings
  refine ⟨nuls ++ t', places, whole, fun blank => ?_, made, strings.trans same.symm, few⟩
  cases rest with
  | nil =>
    rw [List.length_eq_zero_iff.mp whole]
    rfl
  | cons c rest =>
    have head := starts (by rw [blank c rfl]; rfl)
    rw [List.append_assoc, List.head?_append, head]
    rfl

theorem leaves_end : Leaves after (slots + 1) front [] i para (some (front ++ NUL :: after, i, para)) := by
  refine ⟨[], [], rfl, fun _ => rfl, ?_, rfl, Nat.zero_le _⟩
  rw [List.append_nil, List.map_nil, splice_nil]
  rfl

theorem leaves_one {p : Nat} (noBlank : c ≠ ' ')
    (string : [stringAt (front ++ c :: u ++ NUL :: after) p] = params (slots + 1) (c :: u)) :
    Leaves after (slots + 1) front (c :: u) i para
      (some (front ++ c :: u ++ NUL :: after, i + 1, splice para i [.place p])) :=
  ⟨c :: u, [p], rfl, fun blank => absurd (blank c rfl) noBlank, rfl, string, Nat.le_add_left 1 slots⟩

theorem leaves_colon (word : NUL ∉ u) (room : i < para.length) :
    Leaves after (slots + 1) front (':' :: u) i para
      (takeParam paramcount next (front ++ ':' :: u ++ NUL :: after) front.length i para) := by
  have behind : front.length + 1 = (front ++ [':']).length := by
    rw [@List.length_append _ front]
    rfl
  rw [List.append_assoc, List.cons_append, takeParam_colon front room, ← List.cons_append,
    ← List.append_assoc]
  refine leaves_one (by decide) ?_
  have apart : front ++ ':' :: u = front ++ [':'] ++ u := List.append_cons ..
  rw [params_cons (by decide), if_pos rfl, behind, apart, stringAt_front _ word]

theorem leaves_last (word : NUL ∉ c :: u) (room : i < para.length) (noBlank : c ≠ ' ') (plain : c ≠ ':')
    (last : paramcount ≤ i + 1) : Leaves after 1 front (c :: u) i para
      (takeParam paramcount next (front ++ c :: u ++ NUL :: after) front.length i para) := by
  rw [List.append_assoc, List.cons_append,
    takeParam_last front room (List.ne_of_not_mem_cons word).symm plain last, ← List.cons_append,
    ← List.append_assoc]
  refine leaves_one noBlank ?_
  rw [params_cons noBlank, if_neg plain, if_pos rfl, stringAt_front _ word]

theorem Leaves.middle (left : Leaves after slots (front ++ w) t (i + 1) (splice para i [.place front.length]) result)
    (word : NUL ∉ w) (behind : ∀ c ∈ t.head?, c = ' ') (room : i < para.length) (starts : ∃ c ∈ w.head?, c ≠ ' ')
    (same : params (slots + 1) (w ++ t) = w :: params slots t) :
    Leaves after (slots + 1) front (w ++ t) i para result := by
  obtain ⟨t', places, length, ended, made, strings, few⟩ := left
  obtain ⟨c, first, noBlank⟩ := starts
  obtain ⟨tail, ended⟩ := List.head?_eq_some_iff.mp (ended behind)
  rw [List.append_assoc front] at made strings
  refine ⟨w ++ t', front.length :: places, ?_, fun blank => ?_, ?_, ?_, Nat.succ_le_succ few⟩
  · rw [List.length_append, List.length_append, length]
  · refine absurd (blank c ?_) noBlank
    rw [List.head?_append, Option.mem_def.mp first]
    rfl
  · have written : splice (splice para i [.place front.length]) (i + 1) (places.map .place) =
        splice para i ((front.length :: places).map .place) :=
      splice_splice (by rw [List.length_singleton]; omega)
    rw [made, written, List.length_cons, Nat.add_assoc, Nat.add_comm 1]
  · rw [List.map_cons, strings, same, ← List.append_assoc front, List.append_assoc _ t', ended,
      stringAt_front _ word]

end

/-- **The loop splits the line as `params` does**, and stores the places from `i` on. -/
theorem split_eq (front : Text) (word : NUL ∉ rest) (enough : rest.length < rounds)
    (room : max (i + 1) paramcount ≤ para.length) :
    Leaves after (max 1 (paramcount - i)) front rest i para
      (split paramcount rounds (front ++ rest ++ NUL :: after) front.length i para) := by
  induction rounds generalizing front rest i para with
  | zero => exact absurd enough (Nat.not_lt_zero _)
  | succ rounds ih =>
    obtain ⟨nuls, gone, blanked, starts⟩ := @blankOut_front rest after front word
    have word_ : NUL ∉ rest.dropWhile (· = ' ') := fun member =>
      word ((List.dropWhile_sublist _).subset member)
    obtain ⟨slots, count, last⟩ : ∃ slots, max 1 (paramcount - i) = slots + 1 ∧
        (slots = 0 ↔ paramcount ≤ i + 1) :=
      ⟨max 1 (paramcount - i) - 1, by omega, by omega⟩
    have step : split paramcount (rounds + 1) (front ++ rest ++ NUL :: after) front.length i para =
        takeParam paramcount (split paramcount rounds)
          (front ++ nuls ++ rest.dropWhile (· = ' ') ++ NUL :: after) (front ++ nuls).length i para := by
      rw [split, blanked]
      rfl
    have head := List.head?_dropWhile_not (· = ' ') rest
    rw [step, count]
    refine Leaves.blanks ?_ gone starts (params_succ slots rest)
    generalize rest.dropWhile (· = ' ') = t at gone word_ head ⊢
    cases t with
    | nil =>
      rw [List.append_nil, takeParam_end]
      exact leaves_end
    | cons c u =>
      have noBlank : c ≠ ' ' := by simpa using head
      by_cases colon : c = ':'
      · subst colon
        exact leaves_colon (List.not_mem_of_not_mem_cons word_) (by omega)
      by_cases ends : slots = 0
      · rw [ends, Nat.zero_add]
        exact leaves_last word_ (by omega) noBlank colon (last.mp ends)
      · have more : ¬ paramcount ≤ i + 1 := mt last.mpr ends
        have left : max 1 (paramcount - (i + 1)) = slots := by omega
        have parts := List.takeWhile_append_dropWhile (p := (· ≠ ' ')) (l := c :: u)
        have begins : ∃ b ∈ ((c :: u).takeWhile (· ≠ ' ')).head?, b ≠ ' ' := by
          rw [List.takeWhile_cons_of_pos (by simpa using noBlank)]
          exact ⟨c, rfl, noBlank⟩
        have blank := List.head?_dropWhile_not (· ≠ ' ') (c :: u)
        have strings := params_cons noBlank slots u
        rw [if_neg colon, if_neg ends] at strings
        rw [takeParam_middle _ (by omega) word_ colon more]
        generalize (c :: u).takeWhile (· ≠ ' ') = w, (c :: u).dropWhile (· ≠ ' ') = t
          at parts begins blank strings ⊢
        rw [← parts] at word_ gone strings ⊢
        rw [List.length_append] at gone
        have positive : 0 < w.length := by
          obtain ⟨b, first, -⟩ := begins
          obtain ⟨tail, rfl⟩ := List.head?_eq_some_iff.mp first
          exact Nat.zero_lt_succ _
        have size : (splice para i [Para.place (front ++ nuls).length]).length = para.length :=
          length_splice (by rw [List.length_singleton]; omega)
        have later := @ih t (splice para i [.place (front ++ nuls).length]) (i + 1) (front ++ nuls ++ w)
          (fun member => word_ (List.mem_append_right _ member)) (by omega) (by rw [size]; omega)
        rw [left, List.append_assoc _ w, @List.length_append _ (front ++ nuls)] at later
        refine later.middle (fun member => word_ (List.mem_append_left _ member)) (fun b first => ?_)
          (by omega) begins strings
        rw [Option.mem_def.mp first] at blank
        simpa using blank

end

/-! ### The whole of `parse` -/

/-- What `parse` has made of a line when it is done with the parameters. -/
structure Split where
  parc : Nat
  memory : Text
  para : List Para

def Split.parv (x : Split) : List (Option Text) := (x.para.take x.parc).map (Para.read x.memory)

/-- `para` has its size, the index is inside, and NULL is behind the last entry. -/
structure Split.Ends (x : Split) : Prop where
  size : x.para.length = MAXPARA + 1
  inside : x.parc ≤ MAXPARA
  null : x.para[x.parc]? = some .null

/-- What `parse` reads of a connection besides its client block. -/
structure Gate where
  /-- `IsDead`. -/
  dead : Bool
  /-- `hvc_enabled && cptr->hvc`. -/
  hvc : Bool
  /-- `IsDoingList`. -/
  doingList : Bool

/-- What `parse` does at last: it goes back before it comes to the parameters, or with a command that
may not be used now, or it calls a handler. -/
inductive Outcome
  | returned
  | numeric (source : ClientId) (split : Split)
  | refused (msg : Message) (split : Split)
  | handler (msg : Message) (source : ClientId) (split : Split)

/-- The parameters from `s` on, if there are any, and the NULL behind them. -/
def finish (paramcount : Nat) (memory : Text) (s : Option Nat) (para : List Para) : Option Split :=
  (match s with
    | some s => split (min paramcount MAXPARA) memory.length memory s 1 para
    | none => some (memory, 1, para)).bind fun (memory, i, para) =>
  (store para i .null).map fun para => ⟨i, memory, para⟩

def Gate.allows (gate : Gate) (x : Client) (msg : Message) : Bool :=
  ((x.isServer || x.isClient) && !gate.hvc || msg.allow_unregistered_use) &&
    !(gate.doingList && msg.cmd ≠ "LIST")

def deliver (gate : Gate) (x : Client) (source : ClientId) (word memory : Text) (s : Option Nat)
    (para : List Para) : Option Outcome :=
  match tree_parse word with
  | none => some .returned
  | some msg => (finish msg.parameters memory s para).map fun split =>
    if gate.allows x msg then .handler msg source split else .refused msg split

def parse_command (gate : Gate) (x : Client) (source : ClientId) (memory : Text) (ch : Nat)
    (para : List Para) : Option Outcome :=
  let line := stringAt memory ch
  let word := line.takeWhile (· ≠ ' ')
  if line = [] then some .returned
  else if isNumeric line then
    (store memory (ch + 3) NUL).bind fun memory =>
      (finish MAXPARA memory (some (ch + 4)) para).map (.numeric source)
  else if line.dropWhile (· ≠ ' ') = [] then deliver gate x source word memory none para
  else
    (store memory (ch + word.length) NUL).bind fun memory =>
      deliver gate x source word memory (some (ch + word.length + 1)) para

namespace Ircd

/-- Who sent a message with a prefix, and `para[0]`; a message that is not from there has no sender. -/
def sender (s : Ircd) (cptr : ClientId) (sender : Text) : Option (ClientId × Text) :=
  if sender ≠ [] && (s.client cptr).isServer then
    match s.prefixed sender with
    | none => none
    | some source => if (s.client source).link ≠ some cptr then none else some (source, sender)
  else some (cptr, (s.client cptr).name)

/-- `parse`, with what is in the memory from the line on and with `para` as it was left. -/
def parse_line (s : Ircd) (gate : Gate) (cptr : ClientId) (memory : Text) (para : List Para) :
    Option Outcome := do
  if gate.dead then some .returned
  else
    let ch ← skipWhile (· = ' ') memory 0
    let c ← memory[ch]?
    if c = ':' then
      let behind ← skipWhile isNonEOS memory (ch + 1)
      match s.sender cptr (((memory.drop (ch + 1)).take (behind - (ch + 1))).take HOSTLEN) with
      | none => some .returned
      | some (source, name) =>
        let ch ← skipWhile (· = ' ') memory behind
        let para ← store para 0 (.text name)
        parse_command gate (s.client cptr) source memory ch para
    else
      let para ← store para 0 (.text (s.client cptr).name)
      parse_command gate (s.client cptr) cptr memory ch para

end Ircd

/-! ### What becomes of a line -/

section

variable {old : List Para} {name rest after word : Text}

theorem store_null {places : List Nat} {memory : Text} (size : old.length = MAXPARA)
    (few : places.length < MAXPARA) :
    ∃ x, (store (splice (.text name :: old) 1 (places.map .place)) (1 + places.length) .null).map
        (fun para => (⟨1 + places.length, memory, para⟩ : Split)) = some x ∧ x.Ends ∧
      x.parv = (name :: places.map (stringAt memory)).map some := by
  have wide : 1 + (places.map Para.place).length ≤ (Para.text name :: old).length := by
    rw [List.length_map, List.length_cons, size]
    omega
  have room : (splice (.text name :: old) 1 (places.map Para.place)).length = MAXPARA + 1 := by
    rw [length_splice wide, List.length_cons, size]
  have written : splice (splice (.text name :: old) 1 (places.map .place)) (1 + places.length) [.null] =
      .text name :: (places.map .place ++ .null :: old.drop (places.length + 1)) := by
    have both : splice (splice (.text name :: old) 1 (places.map .place))
        (1 + (places.map Para.place).length) [.null] =
          splice (.text name :: old) 1 (places.map .place ++ [.null]) := splice_splice wide
    rw [List.length_map] at both
    rw [both, splice, List.length_append, List.length_map, Nat.add_comm 1]
    simp
  rw [store_eq (by rw [room]; omega), written]
  refine ⟨_, rfl, ⟨?_, by dsimp only; omega, ?_⟩, ?_⟩
  · rw [← written, length_splice, room]
    rw [room, List.length_singleton]
    omega
  · show (Para.text name :: (places.map Para.place ++ _))[1 + places.length]? = _
    rw [Nat.add_comm 1, List.getElem?_cons_succ, ← List.length_map (f := Para.place),
      getElem?_length_append]
    rfl
  · unfold Split.parv
    dsimp only
    rw [Nat.add_comm 1, List.take_succ_cons, ← List.length_map (f := Para.place), List.take_left,
      List.map_cons, List.map_cons, List.map_map, List.map_map]
    rfl

/-- **The parameters from a place on.** -/
theorem finish_eq (front : Text) (plain : NUL ∉ rest) (size : old.length = MAXPARA)
    (paramcount : Nat) :
    ∃ x, finish paramcount (front ++ rest ++ NUL :: after) (some front.length) (.text name :: old) =
        some x ∧ x.Ends ∧
      x.parv = (name :: params (max 1 (min paramcount MAXPARA - 1)) rest).map some := by
  have limit : MAXPARA = 15 := rfl
  obtain ⟨rest', places, -, -, made, strings, few⟩ := @split_eq rest after (.text name :: old)
    (front ++ rest ++ NUL :: after).length 1 (min paramcount MAXPARA) front plain
    (by simp only [List.length_append, List.length_cons]; omega)
    (by rw [List.length_cons, size]; omega)
  rw [← strings]
  unfold finish
  dsimp only
  rw [made, Option.bind_some]
  exact store_null size (by omega)

theorem finish_none (memory : Text) (size : old.length = MAXPARA) (paramcount : Nat) :
    ∃ x, finish paramcount memory none (.text name :: old) = some x ∧ x.Ends ∧
      x.parv = [some name] :=
  @store_null old name [] memory size (by decide)

variable {gate : Gate} {x : Client} {source : ClientId} {line : Text} {msg : Message}

/-- What handlers, numerics and refusals get ends in NULL. -/
def Outcome.Ends : Outcome → Prop
  | .returned => True
  | .numeric _ split => split.Ends
  | .refused _ split => split.Ends
  | .handler _ _ split => split.Ends

/-- **A command that is known** gets the parameters of the list model. -/
theorem parse_command_eq (front : Text) (plain : NUL ∉ line) (size : old.length = MAXPARA)
    (some_ : line ≠ []) (wordy : isNumeric line = false)
    (known : tree_parse (line.takeWhile (· ≠ ' ')) = some msg) :
    ∃ split, parse_command gate x source (front ++ line ++ NUL :: after) front.length
        (.text name :: old) =
        some (if gate.allows x msg then .handler msg source split else .refused msg split) ∧
      split.Ends ∧ split.parv = (parv msg name (line.dropWhile (· ≠ ' '))).map some := by
  have parts := List.takeWhile_append_dropWhile (p := (· ≠ ' ')) (l := line)
  have blank := List.head?_dropWhile_not (· ≠ ' ') line
  unfold parse_command
  rw [stringAt_front front plain, if_neg some_, if_neg (by rw [wordy]; exact Bool.false_ne_true)]
  generalize line.takeWhile (· ≠ ' ') = word, line.dropWhile (· ≠ ' ') = gap at parts blank known ⊢
  subst parts
  unfold deliver
  rw [known]
  dsimp only
  cases gap with
  | nil =>
    obtain ⟨split, made, ends, strings⟩ :=
      @finish_none old name (front ++ (word ++ []) ++ NUL :: after) size msg.parameters
    rw [if_pos rfl, made, parv, params_nil]
    exact ⟨split, rfl, ends, strings⟩
  | cons c rest =>
    obtain rfl : c = ' ' := by simpa using blank
    obtain ⟨split, made, ends, strings⟩ := @finish_eq old name rest after (front ++ word ++ [NUL])
      (fun member => plain (List.mem_append_right _ (List.mem_cons_of_mem _ member))) size
      msg.parameters
    have memory : front ++ (word ++ ' ' :: rest) ++ NUL :: after =
        front ++ word ++ ' ' :: (rest ++ NUL :: after) := by simp
    have written : front ++ word ++ NUL :: (rest ++ NUL :: after) =
        front ++ word ++ [NUL] ++ rest ++ NUL :: after := by simp
    have place : front.length + word.length + 1 = (front ++ word ++ [NUL]).length := by
      rw [List.length_append, List.length_append]
      rfl
    rw [if_neg (List.cons_ne_nil _ _), memory, ← List.length_append, store_length_append,
      Option.bind_some, written, List.length_append, place, made]
    rw [parv, params_space]
    exact ⟨split, rfl, ends, strings⟩

theorem exists_of_isNumeric (numeric : isNumeric line = true) :
    ∃ digits rest, line = digits ++ ' ' :: rest ∧ digits.length = 3 := by
  have blank : (line)[3]? = some ' ' := of_decide_eq_true (Bool.and_eq_true _ _ ▸ numeric).2
  obtain ⟨long, same⟩ := List.getElem?_eq_some_iff.mp blank
  refine ⟨line.take 3, line.drop 4, ?_, by rw [List.length_take]; omega⟩
  rw [← same, ← List.drop_eq_getElem_cons long, List.take_append_drop]

/-- **Whatever is at the command**, `para` stays inside and ends in NULL. -/
theorem parse_command_ends (front : Text) (plain : NUL ∉ line) (size : old.length = MAXPARA) :
    ∃ out, parse_command gate x source (front ++ line ++ NUL :: after) front.length
      (.text name :: old) = some out ∧ out.Ends := by
  by_cases none_ : line = []
  · exact ⟨.returned, by rw [parse_command, stringAt_front front plain, if_pos none_], trivial⟩
  by_cases numeric : isNumeric line = true
  · obtain ⟨digits, rest, rfl, three⟩ := exists_of_isNumeric numeric
    obtain ⟨split, made, ends, -⟩ := @finish_eq old name rest after (front ++ digits ++ [NUL])
      (fun member => plain (List.mem_append_right _ (List.mem_cons_of_mem _ member))) size MAXPARA
    have memory : front ++ (digits ++ ' ' :: rest) ++ NUL :: after =
        front ++ digits ++ ' ' :: (rest ++ NUL :: after) := by simp
    have written : front ++ digits ++ NUL :: (rest ++ NUL :: after) =
        front ++ digits ++ [NUL] ++ rest ++ NUL :: after := by simp
    have place : front.length + 4 = (front ++ digits ++ [NUL]).length := by
      rw [List.length_append, List.length_append, three]
      rfl
    refine ⟨.numeric source split, ?_, ends⟩
    rw [parse_command, stringAt_front front plain, if_neg none_, if_pos numeric, memory, ← three,
      ← List.length_append, store_length_append, Option.bind_some, written, place, made]
    rfl
  · cases known : tree_parse (line.takeWhile (· ≠ ' ')) with
    | none =>
      have unknown : ∀ memory s, deliver gate x source (line.takeWhile (· ≠ ' ')) memory s
          (.text name :: old) = some .returned := by
        intro memory s
        rw [deliver, known]
      have short : (line.takeWhile (· ≠ ' ')).length ≤ line.length := (List.takeWhile_sublist _).length_le
      refine ⟨.returned, ?_, trivial⟩
      rw [parse_command, stringAt_front front plain, if_neg none_, if_neg numeric,
        unknown, store_eq (by simp only [List.length_append, List.length_cons]; omega),
        Option.bind_some, unknown, ite_self]
    | some msg =>
      obtain ⟨split, made, ends, -⟩ := @parse_command_eq old name after gate x source line msg front plain
        size none_ (Bool.eq_false_iff.mpr numeric) known
      refine ⟨_, made, ?_⟩
      split <;> exact ends

end

namespace Ircd

variable {s : Ircd} {gate : Gate} {cptr : ClientId} {p : Para} {old : List Para}
  {blanks t u after : Text}

theorem skip_blanks (front : Text) (blank : ∀ c ∈ blanks, c = ' ') (start : ∀ c ∈ t.head?, c ≠ ' ') :
    skipWhile (· = ' ') (front ++ blanks ++ t ++ NUL :: after) front.length =
      some (front ++ blanks).length := by
  have all : ∀ c ∈ blanks, decide (c = ' ') = true := fun c inside => decide_eq_true (blank c inside)
  have none_ : t.takeWhile (· = ' ') = [] := by
    cases t with
    | nil => rfl
    | cons c t => rw [List.takeWhile_cons_of_neg (by simpa using start c rfl)]
  rw [List.append_assoc front, skipWhile_eq (by decide), List.takeWhile_append_of_pos all, none_,
    List.append_nil, List.length_append]

theorem parse_line_plain (alive : gate.dead = false) (blank : ∀ c ∈ blanks, c = ' ')
    (start : ∀ c ∈ t.head?, c ≠ ' ' ∧ c ≠ ':') :
    s.parse_line gate cptr (blanks ++ t ++ NUL :: after) (p :: old) =
      parse_command gate (s.client cptr) cptr (blanks ++ t ++ NUL :: after) blanks.length
        (.text (s.client cptr).name :: old) := by
  have skipped : skipWhile (· = ' ') (blanks ++ t ++ NUL :: after) 0 = some blanks.length :=
    skip_blanks [] blank fun c head => (start c head).1
  have read : ∃ c, (blanks ++ t ++ NUL :: after)[blanks.length]? = some c ∧ c ≠ ':' := by
    rw [List.append_assoc, getElem?_length_append]
    cases t with
    | nil => exact ⟨NUL, rfl, by decide⟩
    | cons c t => exact ⟨c, rfl, (start c rfl).2⟩
  obtain ⟨c, read, noColon⟩ := read
  unfold parse_line
  rw [alive, if_neg Bool.false_ne_true, skipped, Option.bind_eq_bind, Option.bind_some, read,
    Option.bind_eq_bind, Option.bind_some, if_neg noColon]
  rfl

theorem parse_line_from {word gap line : Text} (alive : gate.dead = false)
    (blank : ∀ c ∈ blanks, c = ' ') (plain : NUL ∉ word) (noBlank : ' ' ∉ word)
    (blank_ : ∀ c ∈ gap, c = ' ') (start : ∀ c ∈ line.head?, c ≠ ' ') (apart : gap = [] → line = []) :
    s.parse_line gate cptr (blanks ++ ':' :: (word ++ gap ++ line) ++ NUL :: after) (p :: old) =
      match s.sender cptr (word.take HOSTLEN) with
      | none => some .returned
      | some (source, name) =>
        parse_command gate (s.client cptr) source
          (blanks ++ [':'] ++ word ++ gap ++ line ++ NUL :: after) (blanks ++ [':'] ++ word ++ gap).length
          (.text name :: old) := by
  have memory : blanks ++ ':' :: (word ++ gap ++ line) ++ NUL :: after =
      blanks ++ [':'] ++ word ++ gap ++ line ++ NUL :: after := by simp
  have skipped : skipWhile (· = ' ') (blanks ++ ':' :: (word ++ gap ++ line) ++ NUL :: after) 0 =
      some blanks.length :=
    skip_blanks [] blank fun c head => by
      rw [← Option.some.inj head]
      decide
  have read : (blanks ++ ':' :: (word ++ gap ++ line) ++ NUL :: after)[blanks.length]? = some ':' := by
    rw [List.append_assoc, getElem?_length_append]
    rfl
  have place : blanks.length + 1 = (blanks ++ [':']).length := by
    rw [List.length_append]
    rfl
  have behind : skipWhile isNonEOS (blanks ++ [':'] ++ word ++ gap ++ line ++ NUL :: after)
      (blanks ++ [':']).length = some ((blanks ++ [':']).length + word.length) := by
    have all : ∀ c ∈ word, isNonEOS c = true := fun c inside =>
      isNonEOS_iff.mpr ⟨ne_of_mem_of_not_mem inside plain, ne_of_mem_of_not_mem inside noBlank⟩
    have none_ : (gap ++ line).takeWhile isNonEOS = [] := by
      cases gap with
      | nil => rw [apart rfl]; rfl
      | cons c gap => rw [blank_ c List.mem_cons_self]; rfl
    have shape : blanks ++ [':'] ++ word ++ gap ++ line ++ NUL :: after =
        blanks ++ [':'] ++ (word ++ (gap ++ line)) ++ NUL :: after := by
      simp only [List.append_assoc]
    rw [shape, skipWhile_eq (by decide), List.takeWhile_append_of_pos all, none_, List.append_nil]
  have again : skipWhile (· = ' ') (blanks ++ [':'] ++ word ++ gap ++ line ++ NUL :: after)
      (blanks ++ [':'] ++ word).length = some (blanks ++ [':'] ++ word ++ gap).length :=
    skip_blanks _ blank_ start
  have name : ((blanks ++ [':'] ++ word ++ gap ++ line ++ NUL :: after).drop (blanks ++ [':']).length).take
      word.length = word := by
    simp only [List.append_assoc]
    rw [← List.append_assoc, List.drop_left, List.take_left]
  unfold parse_line
  rw [alive, if_neg Bool.false_ne_true, skipped, Option.bind_eq_bind, Option.bind_some, read,
    Option.bind_eq_bind, Option.bind_some, if_pos rfl, place, memory, behind, Option.bind_eq_bind,
    Option.bind_some, Nat.add_sub_cancel_left, name, ← List.length_append, again]
  rfl

theorem exists_parts (u : Text) : ∃ word gap line, u = word ++ gap ++ line ∧ ' ' ∉ word ∧
    (∀ c ∈ gap, c = ' ') ∧ (∀ c ∈ line.head?, c ≠ ' ') ∧ (gap = [] → line = []) := by
  have first := List.takeWhile_append_dropWhile (p := (· ≠ ' ')) (l := u)
  have stop := List.head?_dropWhile_not (· ≠ ' ') u
  have second := List.takeWhile_append_dropWhile (p := (· = ' ')) (l := u.dropWhile (· ≠ ' '))
  have start := List.head?_dropWhile_not (· = ' ') (u.dropWhile (· ≠ ' '))
  refine ⟨u.takeWhile (· ≠ ' '), (u.dropWhile (· ≠ ' ')).takeWhile (· = ' '),
    (u.dropWhile (· ≠ ' ')).dropWhile (· = ' '), ?_, ?_, ?_, ?_, ?_⟩
  · rw [List.append_assoc, second, first]
  · exact fun inside => by simpa using List.mem_takeWhile_imp inside
  · exact fun c inside => by simpa using List.mem_takeWhile_imp inside
  · intro c head
    rw [Option.mem_def.mp head] at start
    simpa using start
  · intro none_
    cases rest : u.dropWhile (· ≠ ' ') with
    | nil => rfl
    | cons c t =>
      rw [rest] at stop none_
      have blank : c = ' ' := by simpa using stop
      rw [List.takeWhile_cons_of_pos (by simpa using blank)] at none_
      cases none_

/-- **The index into `para` stays inside**, whatever the line is: no write is outside of `para` or of
the line, and where a handler, a numeric or a refusal is reached, NULL is behind the last entry. -/
theorem parse_line_bounds (s : Ircd) (gate : Gate) (cptr : ClientId) (pbuffer : CString) (after : Text)
    {para : List Para} (size : para.length = MAXPARA + 1) :
    ∃ out, s.parse_line gate cptr (pbuffer.1 ++ NUL :: after) para = some out ∧ out.Ends := by
  obtain ⟨p, old, rfl⟩ := List.exists_cons_of_length_eq_add_one size
  have size_ : old.length = MAXPARA := Nat.succ.inj size
  cases dead : gate.dead with
  | true => exact ⟨.returned, by rw [parse_line, dead]; rfl, trivial⟩
  | false =>
    obtain ⟨line, plain⟩ := pbuffer
    have parts := List.takeWhile_append_dropWhile (p := (· = ' ')) (l := line)
    have blank : ∀ c ∈ line.takeWhile (· = ' '), c = ' ' := fun c inside => by
      simpa using List.mem_takeWhile_imp inside
    have start := List.head?_dropWhile_not (· = ' ') line
    dsimp only
    generalize line.takeWhile (· = ' ') = blanks, line.dropWhile (· = ' ') = t at parts blank start
    subst parts
    by_cases colon : t.head? = some ':'
    · obtain ⟨u, rfl⟩ := List.head?_eq_some_iff.mp colon
      obtain ⟨word, gap, rest, rfl, noBlank, blank_, start_, apart⟩ := exists_parts u
      have inside : NUL ∉ word ++ gap ++ rest := fun member =>
        plain (List.mem_append_right _ (List.mem_cons_of_mem _ member))
      have proper : NUL ∉ word := fun member =>
        inside (List.mem_append_left _ (List.mem_append_left _ member))
      rw [parse_line_from dead blank proper noBlank blank_ start_ apart]
      cases s.sender cptr (word.take HOSTLEN) with
      | none => exact ⟨.returned, rfl, trivial⟩
      | some from_ => exact parse_command_ends _ (fun member => inside (List.mem_append_right _ member)) size_
    · rw [parse_line_plain dead blank (fun c head => ?_)]
      · exact parse_command_ends blanks (fun member => plain (List.mem_append_right _ member)) size_
      · refine ⟨?_, fun same => colon (by rw [← same]; exact head)⟩
        rw [Option.mem_def.mp head] at start
        simpa using start

end Ircd

/-! ### Lines that are put together -/

/-- A parameter that may stand in the middle of a line. -/
abbrev MiddleParam := { t : Text // IsMiddle t ∧ NUL ∉ t }

/-- Parameters, each with the number of blanks in front of it but one. -/
def joined : List (Nat × MiddleParam) → Text
  | [] => []
  | (n, t) :: middles => List.replicate (n + 1) ' ' ++ t.1 ++ joined middles

theorem params_blanks (slots n : Nat) (rest : Text) :
    params slots (List.replicate n ' ' ++ rest) = params slots rest := by
  induction n with
  | zero => rfl
  | succ n ih => rw [List.replicate_succ, List.cons_append, params_space, ih]

/-- **Splitting undoes joining**, as long as the slots suffice. -/
theorem params_joined (middles : List (Nat × MiddleParam)) (slots n : Nat) (last : Text) :
    params (middles.length + slots + 1)
        (joined middles ++ (List.replicate (n + 1) ' ' ++ ':' :: last)) =
      middles.map (·.2.1) ++ [last] := by
  induction middles with
  | nil =>
    rw [joined, List.nil_append, params_blanks, List.length_nil, Nat.zero_add,
      params_cons (by decide), if_pos rfl]
    rfl
  | cons first middles ih =>
    obtain ⟨m, t⟩ := first
    obtain ⟨next, spaced⟩ : ∃ next,
        joined middles ++ (List.replicate (n + 1) ' ' ++ ':' :: last) = ' ' :: next := by
      cases middles with
      | nil => exact ⟨_, rfl⟩
      | cons second middles => exact ⟨_, rfl⟩
    rw [spaced] at ih
    rw [joined, List.append_assoc _ (joined middles), spaced, List.append_assoc, params_blanks,
      ← params_space, List.length_cons, Nat.add_right_comm middles.length 1,
      params_middle t.2.1, ih]
    rfl

/-- A line with a prefix, a command of the table, and parameters behind any number of blanks. -/
structure Request where
  sender : Text
  word : ' ' ∉ sender ∧ NUL ∉ sender
  command : Text
  message : Message
  known : tree_parse command = some message
  middles : List (Nat × MiddleParam)
  last : CString
  /-- The blanks in front of the command, and in front of the last parameter, but one. -/
  blanks : Nat × Nat

namespace Request

variable (r : Request)

def params : List Text := r.middles.map (·.2.1) ++ [r.last.1]

def tail : Text := joined r.middles ++ (List.replicate (r.blanks.2 + 1) ' ' ++ ':' :: r.last.1)

def line : Text :=
  ':' :: (r.sender ++ List.replicate (r.blanks.1 + 1) ' ' ++ (r.command ++ r.tail))

end Request

/-- How many parameters `parse` gives to the handler at most: `parameters` counts `para[0]`, too. -/
def Message.limit (msg : Message) : Nat := max 1 (min msg.parameters MAXPARA - 1)

theorem letter_of_tree_parse {word : Text} {msg : Message} (known : tree_parse word = some msg) :
    word ≠ [] ∧ ∀ c ∈ word, 65 ≤ (toUpper c).toNat ∧ (toUpper c).toNat ≤ 90 := by
  have letters : (msgtab.all fun e => e.cmd ≠ [] && e.cmd.all fun c =>
      65 ≤ c.toNat && c.toNat ≤ 90) = true := by
    decide +kernel
  have same : msg.cmd = word.map toUpper := of_decide_eq_true
    (List.find?_some (p := fun msg : Message => decide (msg.cmd = word.map toUpper)) known)
  have entry := List.all_eq_true.mp letters msg (List.mem_of_find?_eq_some known)
  rw [same, Bool.and_eq_true, decide_eq_true_iff, List.all_eq_true] at entry
  refine ⟨fun none_ => entry.1 (by rw [none_]; rfl), fun c inside => ?_⟩
  simpa using entry.2 _ (List.mem_map_of_mem inside)

namespace Request

variable (r : Request)

theorem notMem_joined (middles : List (Nat × MiddleParam)) : NUL ∉ joined middles := by
  induction middles with
  | nil => exact List.not_mem_nil
  | cons first middles ih =>
    rw [joined, List.mem_append, List.mem_append, not_or, not_or]
    exact ⟨⟨fun inside => absurd (List.eq_of_mem_replicate inside) (by decide), first.2.2.2⟩, ih⟩

theorem notMem_command : NUL ∉ r.command ++ r.tail := by
  rw [List.mem_append, not_or]
  refine ⟨fun inside => ?_, ?_⟩
  · exact absurd ((letter_of_tree_parse r.known).2 _ inside) (by decide)
  · unfold tail
    rw [List.mem_append, List.mem_append, List.mem_cons, not_or, not_or, not_or]
    exact ⟨notMem_joined r.middles,
      fun inside => absurd (List.eq_of_mem_replicate inside) (by decide), by decide, r.last.2⟩

theorem exists_tail : ∃ rest, r.tail = ' ' :: rest := by
  unfold tail
  cases r.middles with
  | nil => exact ⟨_, rfl⟩
  | cons first middles => exact ⟨_, rfl⟩

theorem takeWhile_command : (r.command ++ r.tail).takeWhile (· ≠ ' ') = r.command ∧
    (r.command ++ r.tail).dropWhile (· ≠ ' ') = r.tail := by
  obtain ⟨rest, blank⟩ := r.exists_tail
  rw [blank]
  exact takeWhile_word (fun inside =>
    absurd ((letter_of_tree_parse r.known).2 _ inside) (by decide)) rest

theorem not_isNumeric : isNumeric (r.command ++ r.tail) = false := by
  obtain ⟨some_, letters⟩ := letter_of_tree_parse r.known
  obtain ⟨c, rest, command⟩ := List.exists_cons_of_ne_nil some_
  have letter := letters c (by rw [command]; exact List.mem_cons_self)
  have noDigit : c.isDigit = false := by
    rw [toUpper_toNat] at letter
    refine Bool.eq_false_iff.mpr fun digit => ?_
    have range := isDigit_range digit
    split_ifs at letter <;> omega
  unfold isNumeric
  rw [command, List.cons_append, List.take_succ_cons, List.all_cons, noDigit]
  rfl

/-- **The parameters are split as they were joined.** -/
theorem parv_tail (limit : r.params.length ≤ r.message.limit) (name : Text) :
    parv r.message name r.tail = name :: r.params := by
  have count : r.params.length = r.middles.length + 1 := by
    unfold params
    rw [List.length_append, List.length_map]
    rfl
  have slots : r.message.limit = r.middles.length + (r.message.limit - r.params.length) + 1 := by
    omega
  unfold parv
  rw [show max 1 (min r.message.parameters MAXPARA - 1) = r.message.limit from rfl, slots]
  exact congrArg (name :: ·) (params_joined r.middles _ r.blanks.2 r.last.1)

end Request

namespace Ircd

/-- **Splitting a line inverts joining it**: the handler of the command gets the sender and the
parameters, as long as they are not more than the command takes. Whatever a line is, no write is
outside of `para`, and `para` ends in NULL. -/
theorem parse_line_params {s : Ircd} {gate : Gate} {cptr source : ClientId} {name : Text}
    {para : List Para} (r : Request) (alive : gate.dead = false)
    (known : s.sender cptr (r.sender.take HOSTLEN) = some (source, name))
    (allowed : gate.allows (s.client cptr) r.message = true)
    (limit : r.params.length ≤ r.message.limit) (size : para.length = MAXPARA + 1) (after : Text) :
    (∃ split, s.parse_line gate cptr (r.line ++ NUL :: after) para =
        some (.handler r.message source split) ∧ split.Ends ∧
      split.parv = (name :: r.params).map some) ∧
    ∀ (t : Ircd) (gate : Gate) (cptr : ClientId) (pbuffer : CString) (after : Text) (para : List Para),
      para.length = MAXPARA + 1 →
        ∃ out, t.parse_line gate cptr (pbuffer.1 ++ NUL :: after) para = some out ∧ out.Ends := by
  refine ⟨?_, fun t gate cptr pbuffer after para => parse_line_bounds t gate cptr pbuffer after⟩
  obtain ⟨p, old, rfl⟩ := List.exists_cons_of_length_eq_add_one size
  obtain ⟨word, rest⟩ := r.takeWhile_command
  have some_ : r.command ++ r.tail ≠ [] :=
    List.append_ne_nil_of_left_ne_nil (letter_of_tree_parse r.known).1 _
  have start : ∀ c ∈ (r.command ++ r.tail).head?, c ≠ ' ' := by
    obtain ⟨some_, letters⟩ := letter_of_tree_parse r.known
    obtain ⟨c, more, command⟩ := List.exists_cons_of_ne_nil some_
    rw [command]
    rintro d ⟨⟩ blank
    exact absurd (letters c (by rw [command]; exact List.mem_cons_self)) (by rw [blank]; decide)
  have blanks : ∀ c ∈ List.replicate (r.blanks.1 + 1) ' ', c = ' ' := fun c => List.eq_of_mem_replicate
  have line : r.line ++ NUL :: after =
      [] ++ ':' :: (r.sender ++ List.replicate (r.blanks.1 + 1) ' ' ++ (r.command ++ r.tail)) ++
        NUL :: after := rfl
  rw [line, parse_line_from alive (fun c inside => absurd inside List.not_mem_nil) r.word.2 r.word.1
    blanks start (fun none_ => by cases none_), known]
  dsimp only
  obtain ⟨split, made, ends, strings⟩ := @parse_command_eq old name after gate (s.client cptr) source
    (r.command ++ r.tail) r.message
    ([] ++ [':'] ++ r.sender ++ List.replicate (r.blanks.1 + 1) ' ') r.notMem_command
    (Nat.succ.inj size) some_ r.not_isNumeric (by rw [word]; exact r.known)
  rw [if_pos allowed] at made
  rw [rest, r.parv_tail limit] at strings
  exact ⟨split, made, ends, strings⟩

/-- A topic that a server passes on for a user of its own. -/
def sampleTopic : Request where
  sender := "ann"
  word := by decide
  command := "topic"
  message := ⟨"TOPIC", MAXPARA, false⟩
  known := by decide +kernel
  middles := [(0, ⟨"#c", ⟨by decide, by decide, by decide⟩, by decide⟩)]
  last := ⟨"hi there", by decide⟩
  blanks := (0, 1)

/-- A connection that nothing stands in the way of. -/
def openGate : Gate := ⟨false, false, false⟩

theorem parse_line_params_topic :
    ∃ split, sampleKnown.parse_line openGate 1 (sampleTopic.line ++ [NUL])
        (List.replicate (MAXPARA + 1) .null) = some (.handler sampleTopic.message 2 split) ∧
      split.Ends ∧ split.parv = (["ann", "#c", "hi there"] : List Text).map some :=
  have known : sampleKnown.sender 1 (sampleTopic.sender.take HOSTLEN) = some (2, ("ann" : Text)) := by
    decide +kernel
  have allowed : openGate.allows (sampleKnown.client 1) sampleTopic.message = true := by
    decide +kernel
  (parse_line_params sampleTopic rfl known allowed (by decide) (by decide) []).1

/-- A notice with as many parameters as the table has for its command. -/
def sampleNotice : Request where
  sender := "ann"
  word := by decide
  command := "RNOTICE"
  message := ⟨"RNOTICE", 3, false⟩
  known := by decide +kernel
  middles := [(0, ⟨"a", ⟨by decide, by decide, by decide⟩, by decide⟩),
    (0, ⟨"b", ⟨by decide, by decide, by decide⟩, by decide⟩)]
  last := ⟨"c", by decide⟩
  blanks := (0, 0)

/-- **The number in the table is no bound for the parameters**, since it counts `para[0]`. -/
theorem not_parse_line_params :
    ¬ ∀ (s : Ircd) (gate : Gate) (cptr source : ClientId) (name : Text) (para : List Para)
      (r : Request), gate.dead = false →
      s.sender cptr (r.sender.take HOSTLEN) = some (source, name) →
      gate.allows (s.client cptr) r.message = true → r.params.length ≤ r.message.parameters →
      para.length = MAXPARA + 1 →
      ∃ split, s.parse_line gate cptr (r.line ++ [NUL]) para =
        some (.handler r.message source split) ∧ split.parv = (name :: r.params).map some := by
  intro all
  obtain ⟨split, made, strings⟩ := all sampleKnown openGate 1 2 "ann"
    (List.replicate (MAXPARA + 1) .null) sampleNotice rfl (by decide +kernel) (by decide +kernel)
    (by decide) (by decide)
  have seen : (sampleKnown.parse_line openGate 1 (sampleNotice.line ++ [NUL])
      (List.replicate (MAXPARA + 1) .null)).map (fun
        | .handler _ _ split => split.parv
        | _ => []) = some ((["ann", "a", "b :c"] : List Text).map some) := by
    decide +kernel
  rw [made, Option.map_some] at seen
  dsimp only at seen
  rw [strings] at seen
  exact absurd seen (by decide)

end Ircd

end PtlinkIrcd
