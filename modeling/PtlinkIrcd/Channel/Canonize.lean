/-
**The targets of a message without repeats.**

`canonize` cuts the list in place and looks for each item among those already copied to its static
buffer, which it cuts and restores for each comparison.

* `findDuplicate` — the loop over the static buffer; `findDuplicate_eq` says that it finds an item that
  is equal up to case, and that the commas can be put back.
* `canonizeToken` — one item of the list.
* `canonizeInPlace_eq` — **the static buffer is the list without the items that are equal to an earlier
  one**, and nothing is written outside of it.
-/

import PtlinkIrcd.Channel.Targets
import PtlinkIrcd.Model.Memory

namespace PtlinkIrcd

open Lib

/-- `if (p2) p2[-1] = ',';`. -/
def restoreComma (memory : Text) : Option Nat → Option Text
  | none => some memory
  | some p2 => storeBefore memory p2 ','

/-- The loop over `cbuf`, in at most so many rounds: `cbuf`, `p2`, and whether it found an item equal
to `s`. -/
def findDuplicate (s : Text) : Nat → Text → Option Nat → Option (Text × Option Nat × Bool)
  | 0, _, _ => none
  | rounds + 1, cbuf, pos => do
    let (cbuf, p2, t) ← strtokenAt ',' cbuf pos
    match t with
    | none => some (cbuf, p2, false)
    | some t =>
      let t ← readString cbuf t
      if irccmp s t = 0 then some (cbuf, p2, true)
      else
        let cbuf ← restoreComma cbuf p2
        findDuplicate s rounds cbuf p2

/-- The variables of `canonize` between two items. -/
structure CanonizeState where
  cbuf : Text
  cp : Nat
  l : Bool

/-- `if (l) *(cp-1) = ','; else l = 1;`, and the copy; `step` is `p - s` if there is a `p`. -/
def appendItem (st : CanonizeState) (source : Text) (step : Option Nat) : Option CanonizeState :=
  (if st.l then storeBefore st.cbuf st.cp ',' else some st.cbuf).bind fun cbuf =>
    (strcpy cbuf st.cp source).bind fun cbuf => some ⟨cbuf, st.cp + step.getD 0, true⟩

/-- The search for an item among those in `cbuf`. -/
def searchItem (st : CanonizeState) (item : Text) : Option (Text × Option Nat × Bool) :=
  if st.l then findDuplicate item (st.cbuf.length + 1) st.cbuf (some 0) else some (st.cbuf, none, false)

/-- What `canonize` does with the item at `s` of the list, when the next one is looked for at `p`. -/
def canonizeToken (st : CanonizeState) (buffer : Text) (p : Option Nat) (s : Nat) :
    Option CanonizeState := do
  let item ← readString buffer s
  let (cbuf, p2, t) ← searchItem st item
  if t then
    let cbuf ← restoreComma cbuf p2
    some { st with cbuf }
  else appendItem { st with cbuf } (buffer.drop s) (p.map (· - s))

/-- The loop of `canonize`, in at most so many rounds. -/
def canonizeFrom : Nat → CanonizeState → Text → Option Nat → Option CanonizeState
  | 0, _, _, _ => none
  | rounds + 1, st, buffer, pos => do
    let (buffer, p, s) ← strtokenAt ',' buffer pos
    match s with
    | none => some st
    | some s =>
      let st ← canonizeToken st buffer p s
      canonizeFrom rounds st buffer p

/-- `canonize(buffer)`, with what its static buffer holds before; there are not more items than
characters. -/
def canonizeInPlace (buffer cbuf : Text) : Option Text := do
  let cbuf ← store cbuf 0 NUL
  let st ← canonizeFrom (buffer.length + 1) ⟨cbuf, 0, false⟩ buffer (some 0)
  some st.cbuf

/-! ### The items in the static buffer -/

/-- An item of a list: a nonempty string without commas. -/
structure IsItem (w : Text) : Prop where
  word : IsWord (· == ',') w
  string : NUL ∉ w

def commaJoined (items : List Text) : Text := [','].intercalate items

theorem joined_cons_cons (w v : Text) (items : List Text) :
    commaJoined (w :: v :: items) = w ++ ',' :: commaJoined (v :: items) := by
  unfold commaJoined
  rw [List.intercalate_cons_cons, List.append_assoc]
  rfl

theorem joined_concat {items : List Text} (some_ : items ≠ []) (w : Text) :
    commaJoined (items ++ [w]) = commaJoined items ++ ',' :: w := by
  induction items with
  | nil => exact absurd rfl some_
  | cons v items ih =>
    cases items with
    | nil =>
      rw [List.cons_append, List.nil_append, joined_cons_cons]
      simp [commaJoined]
    | cons u items =>
      rw [List.cons_append, List.cons_append, joined_cons_cons, ← List.cons_append,
        ih (List.cons_ne_nil u items), joined_cons_cons, List.append_assoc]
      rfl

theorem joined_string {items : List Text} (strings : ∀ w ∈ items, NUL ∉ w) : NUL ∉ commaJoined items := by
  induction items with
  | nil => exact List.not_mem_nil
  | cons w items ih =>
    obtain ⟨string, strings⟩ := List.forall_mem_cons.mp strings
    cases items with
    | nil =>
      rw [commaJoined, List.intercalate_singleton]
      exact string
    | cons v items =>
      rw [joined_cons_cons, List.mem_append, List.mem_cons]
      rintro (inside | comma | later)
      · exact string inside
      · exact absurd comma (by decide)
      · exact ih strings later

variable {front after w s : Text} {kept : List Text} {rounds : Nat}

/-- **An equal item is found, and otherwise nothing has changed**; the comma behind the item that was
found is put back. -/
theorem findDuplicate_eq (front rest : Text) (items : ∀ w ∈ kept, IsItem w) (some_ : kept ≠ [])
    (enough : kept.length < rounds) :
    ∃ cbuf p2, findDuplicate s rounds (front ++ (commaJoined kept ++ NUL :: rest)) (some front.length) =
        some (cbuf, p2, kept.any (irccmp s · = 0)) ∧
      restoreComma cbuf p2 = some (front ++ (commaJoined kept ++ NUL :: rest)) ∧
      (kept.any (irccmp s · = 0) = false → p2 = none) := by
  induction kept generalizing front rounds with
  | nil => exact absurd rfl some_
  | cons w kept ih =>
    obtain ⟨rounds, rfl⟩ := Nat.exists_eq_add_one_of_ne_zero (Nat.ne_zero_of_lt enough)
    have fewer : kept.length < rounds := Nat.lt_of_succ_lt_succ enough
    obtain ⟨item, items⟩ := List.forall_mem_cons.mp items
    have start : (front ++ []).length = front.length := by rw [List.append_nil]
    cases kept with
    | nil =>
      obtain ⟨rounds, rfl⟩ := Nat.exists_eq_add_one_of_ne_zero (Nat.ne_zero_of_lt fewer)
      have call := @strtokenAt_last w [] ',' nofun item.word item.string front rest
      have read := @readString_eq w rest front item.string
      have single : commaJoined [w] = w := List.intercalate_singleton
      rw [List.nil_append, start] at call
      rw [single, findDuplicate, call, Option.bind_eq_bind, Option.bind_some]
      dsimp only
      rw [read, Option.bind_eq_bind, Option.bind_some, List.any_cons, List.any_nil, Bool.or_false]
      by_cases same : irccmp s w = 0
      · rw [if_pos same]
        exact ⟨_, none, by rw [decide_eq_true same], rfl, fun _ => rfl⟩
      · rw [if_neg same]
        exact ⟨_, none, by rw [decide_eq_false same]; rfl, rfl, fun _ => rfl⟩
    | cons v kept =>
      have call := @strtokenAt_word w [] ',' nofun item.word item.string (by decide) front
        (commaJoined (v :: kept) ++ NUL :: rest)
      have read := @readString_eq w (commaJoined (v :: kept) ++ NUL :: rest) front item.string
      have comma : restoreComma ((front ++ w) ++ NUL :: (commaJoined (v :: kept) ++ NUL :: rest))
          (some ((front ++ w).length + 1)) = some ((front ++ w) ++ ',' :: (commaJoined (v :: kept) ++ NUL :: rest)) :=
        storeBefore_eq (front ++ w) NUL ',' (commaJoined (v :: kept) ++ NUL :: rest)
      simp only [List.append_assoc, List.nil_append, List.append_nil] at call comma
      rw [joined_cons_cons, List.append_assoc, List.cons_append, findDuplicate, call,
        Option.bind_eq_bind, Option.bind_some]
      dsimp only
      rw [read, Option.bind_eq_bind, Option.bind_some, List.any_cons]
      by_cases same : irccmp s w = 0
      · rw [if_pos same]
        refine ⟨_, _, by rw [decide_eq_true same, Bool.true_or], comma, fun none_ => ?_⟩
        rw [decide_eq_true same, Bool.true_or] at none_
        cases none_
      · obtain ⟨cbuf, p2, found, restored, rest_⟩ := ih (front ++ (w ++ [','])) items
          (List.cons_ne_nil v kept) fewer
        have split : front ++ (w ++ ',' :: (commaJoined (v :: kept) ++ NUL :: rest)) =
            front ++ (w ++ [',']) ++ (commaJoined (v :: kept) ++ NUL :: rest) := by simp
        have length : (front ++ w).length + 1 = (front ++ (w ++ [','])).length := by
          simp [Nat.add_assoc]
        rw [if_neg same, comma, Option.bind_some, length, split, found, decide_eq_false same,
          Bool.false_or]
        exact ⟨cbuf, p2, rfl, restored, rest_⟩

/-! ### One item -/

/-- The items that are kept when one more comes. -/
def keepItem (kept : List Text) (item : Text) : List Text :=
  if kept.any (irccmp item · = 0) then kept else kept ++ [item]

/-- Where `cp` stands behind some items. -/
def copied (kept : List Text) : Nat := if kept = [] then 0 else (commaJoined kept).length + 1

theorem copied_concat (kept : List Text) (w : Text) : copied (kept ++ [w]) = copied kept + w.length + 1 := by
  unfold copied
  rw [if_neg (by simp)]
  by_cases none_ : kept = []
  · rw [none_, if_pos rfl, List.nil_append, commaJoined, List.intercalate_singleton, Nat.zero_add]
  · rw [if_neg none_, joined_concat none_, List.length_append, List.length_cons]
    omega

theorem length_le_copied (items : ∀ w ∈ kept, IsItem w) : kept.length ≤ (commaJoined kept).length := by
  induction kept with
  | nil => exact Nat.zero_le _
  | cons w kept ih =>
    obtain ⟨item, items⟩ := List.forall_mem_cons.mp items
    have positive := List.length_pos_of_ne_nil item.word.ne_nil
    cases kept with
    | nil =>
      rw [commaJoined, List.intercalate_singleton]
      exact positive
    | cons v kept =>
      have later := ih items
      rw [joined_cons_cons]
      simp only [List.length_append, List.length_cons] at later ⊢
      omega

/-- The static buffer with some items in it. -/
structure HoldsItems (kept : List Text) (st : CanonizeState) : Prop where
  items : ∀ w ∈ kept, IsItem w
  text : ∃ rest, st.cbuf = commaJoined kept ++ NUL :: rest
  l : st.l = !kept.isEmpty

theorem strcpy_append (pre rest : Text) (string : NUL ∉ w)
    (room : pre.length + w.length + 1 ≤ (pre ++ rest).length) :
    strcpy (pre ++ rest) pre.length (w ++ NUL :: after) =
      some (pre ++ (w ++ NUL :: rest.drop (w.length + 1))) := by
  rw [strcpy_eq string room, splice, List.take_left, List.length_append, List.length_singleton,
    List.drop_append, List.drop_of_length_le (Nat.le_add_right ..), List.nil_append,
    Nat.add_sub_cancel_left]
  simp

/-- **An item is found when one that is kept is equal to it**, and otherwise nothing has changed. -/
theorem searchItem_eq {st : CanonizeState} (holds : HoldsItems kept st) (item : Text) :
    ∃ cbuf p2, searchItem st item = some (cbuf, p2, kept.any (irccmp item · = 0)) ∧
      restoreComma cbuf p2 = some st.cbuf ∧ (kept.any (irccmp item · = 0) = false → p2 = none) := by
  unfold searchItem
  rw [holds.l]
  by_cases none_ : kept = []
  · subst none_
    exact ⟨st.cbuf, none, rfl, rfl, fun _ => rfl⟩
  · obtain ⟨rest, text⟩ := holds.text
    have few := length_le_copied holds.items
    rw [if_pos (by simpa using none_), text]
    refine findDuplicate_eq [] rest holds.items none_ ?_
    rw [List.length_append]
    omega

theorem appendItem_eq {st : CanonizeState} (holds : HoldsItems kept st) (cp : st.cp = copied kept)
    (item : IsItem w) (room : copied kept + w.length + 1 ≤ st.cbuf.length) (after : Text)
    (step : Option Nat) :
    ∃ st', appendItem st (w ++ NUL :: after) step = some st' ∧ st'.cbuf.length = st.cbuf.length ∧
      HoldsItems (kept ++ [w]) st' ∧ st'.cp = copied kept + step.getD 0 := by
  obtain ⟨cbuf, cp', l'⟩ := st
  obtain ⟨items, ⟨rest, rfl⟩, rfl⟩ := holds
  obtain rfl : cp' = copied kept := cp
  have itemsMore : ∀ v ∈ kept ++ [w], IsItem v :=
    List.forall_mem_append.mpr ⟨items, List.forall_mem_singleton.mpr item⟩
  have l : true = !(kept ++ [w]).isEmpty := by simp
  -- what stands before the place of the copy, its comma with it
  obtain ⟨pre, behind, comma, place, text, whole⟩ : ∃ pre behind,
      (if (!kept.isEmpty) = true then storeBefore (commaJoined kept ++ NUL :: rest) (copied kept) ','
        else some (commaJoined kept ++ NUL :: rest)) = some (pre ++ behind) ∧
      pre.length = copied kept ∧ commaJoined (kept ++ [w]) = pre ++ w ∧
      pre.length + behind.length = (commaJoined kept).length + rest.length + 1 := by
    by_cases none_ : kept = []
    · subst none_
      exact ⟨[], NUL :: rest, rfl, rfl, by simp [commaJoined], by simp [commaJoined]⟩
    · refine ⟨commaJoined kept ++ [','], rest, ?_, ?_, ?_, by simp [Nat.add_right_comm]⟩
      · rw [if_pos (by simpa using none_), copied, if_neg none_, storeBefore_eq]
        simp
      · rw [copied, if_neg none_, List.length_append, List.length_singleton]
      · rw [joined_concat none_]
        simp
  have room' : pre.length + w.length + 1 ≤ (pre ++ behind).length := by
    rw [place, List.length_append, whole]
    refine room.trans ?_
    simp [Nat.add_assoc]
  have copy : strcpy (pre ++ behind) pre.length (w ++ NUL :: after) = _ :=
    strcpy_append pre behind item.string room'
  rw [place] at copy
  refine ⟨⟨commaJoined (kept ++ [w]) ++ NUL :: behind.drop (w.length + 1), copied kept + step.getD 0, true⟩,
    ?_, ?_, ⟨itemsMore, ⟨_, rfl⟩, l⟩, rfl⟩
  · unfold appendItem
    rw [comma, Option.bind_some, copy, Option.bind_some, text, List.append_assoc]
  · rw [text]
    simp only [List.length_append, List.length_cons, List.length_drop] at room' ⊢
    omega

/-- **A new item is appended, and one that is there already is not.** -/
theorem canonizeToken_eq {st : CanonizeState} (holds : HoldsItems kept st) (cp : st.cp = copied kept)
    (item : IsItem w) (room : copied kept + w.length + 1 ≤ st.cbuf.length) (front after : Text)
    (p : Option Nat) :
    ∃ st', canonizeToken st (front ++ (w ++ NUL :: after)) p front.length = some st' ∧
      st'.cbuf.length = st.cbuf.length ∧ HoldsItems (keepItem kept w) st' ∧
      (p = some (front.length + w.length + 1) → st'.cp = copied (keepItem kept w)) := by
  have read := @readString_eq w after front item.string
  have source : (front ++ (w ++ NUL :: after)).drop front.length = w ++ NUL :: after := List.drop_left
  unfold canonizeToken
  rw [read, Option.bind_eq_bind, Option.bind_some, source]
  have append : kept.any (irccmp w · = 0) = false →
      ∃ st', appendItem st (w ++ NUL :: after) (p.map (· - front.length)) = some st' ∧
        st'.cbuf.length = st.cbuf.length ∧ HoldsItems (keepItem kept w) st' ∧
        (p = some (front.length + w.length + 1) → st'.cp = copied (keepItem kept w)) := by
    intro fresh
    obtain ⟨st', done, length, holds', cp'⟩ :=
      appendItem_eq holds cp item room after (p.map (· - front.length))
    rw [keepItem, fresh, if_neg Bool.false_ne_true]
    refine ⟨st', done, length, holds', fun next => ?_⟩
    rw [cp', next, copied_concat]
    show copied kept + (front.length + w.length + 1 - front.length) = _
    omega
  obtain ⟨cbuf, p2, search, restored, whole⟩ := searchItem_eq holds w
  rw [search, Option.bind_eq_bind, Option.bind_some]
  cases found : kept.any (irccmp w · = 0) with
  | true =>
    rw [keepItem, found, if_pos rfl]
    refine ⟨st, ?_, rfl, holds, fun _ => cp⟩
    show (restoreComma cbuf p2).bind _ = _
    rw [restored, Option.bind_some]
  | false =>
    rw [whole found, restoreComma] at restored
    rw [Option.some.inj restored]
    exact append found

/-! ### The whole list -/

/-- **Every item of the list is looked at**, and the static buffer holds those that are kept. -/
theorem canonizeFrom_eq {st : CanonizeState} {t : Text} (holds : HoldsItems kept st)
    (cp : st.cp = copied kept) (string : NUL ∉ t) (room : copied kept + t.length + 1 ≤ st.cbuf.length)
    (enough : t.length < rounds) (front after : Text) :
    ∃ st', canonizeFrom rounds st (front ++ (t ++ NUL :: after)) (some front.length) = some st' ∧
      st'.cbuf.length = st.cbuf.length ∧ HoldsItems ((strtoken ',' t).foldl keepItem kept) st' := by
  induction rounds generalizing st kept t front with
  | zero => exact absurd enough (Nat.not_lt_zero _)
  | succ rounds ih =>
    rw [canonizeFrom, strtoken]
    rcases words_cases (· == ',') t with ⟨all, none_⟩ | ⟨gap, w, all, word, last | more⟩
    · rw [strtokenAt_none all string, none_]
      exact ⟨st, rfl, rfl, holds⟩
    · obtain ⟨rfl, one⟩ := last
      have item : IsItem w := ⟨word, fun member => string (List.mem_append_right _ member)⟩
      have positive := List.length_pos_of_ne_nil word.ne_nil
      rw [List.length_append] at room enough
      obtain ⟨st', done, length, holds', -⟩ :=
        canonizeToken_eq holds cp item (by omega) (front ++ gap) after none
      rw [List.append_assoc] at done
      obtain ⟨rounds, rfl⟩ := Nat.exists_eq_add_one_of_ne_zero (show rounds ≠ 0 by omega)
      refine ⟨st', ?_, length, by rw [one]; exact holds'⟩
      rw [List.append_assoc gap, strtokenAt_last all word string, Option.bind_eq_bind, Option.bind_some]
      dsimp only
      rw [done]
      rfl
    · obtain ⟨c, rest, comma, rfl, words_⟩ := more
      obtain rfl : c = ',' := eq_of_beq comma
      have apart : NUL ∉ gap ++ w := fun member => string (by
        rw [← List.append_assoc]
        exact List.mem_append_left _ member)
      have later : NUL ∉ rest := fun member => string (by simp [member])
      have item : IsItem w := ⟨word, fun member => apart (List.mem_append_right _ member)⟩
      simp only [List.length_append, List.length_cons] at room enough
      obtain ⟨st', done, length, holds', next⟩ :=
        canonizeToken_eq holds cp item (by omega) (front ++ gap) (rest ++ NUL :: after)
          (some ((front ++ gap).length + w.length + 1))
      have room' : copied (keepItem kept w) + rest.length + 1 ≤ st'.cbuf.length := by
        have most : copied (keepItem kept w) ≤ copied kept + w.length + 1 := by
          unfold keepItem
          split
          · omega
          · rw [copied_concat]
        omega
      obtain ⟨st'', done', length', holds''⟩ := ih holds' (next rfl) later room' (by omega)
        (front ++ gap ++ w ++ [NUL])
      refine ⟨st'', ?_, length'.trans length, by rw [words_]; exact holds''⟩
      have start : (front ++ gap ++ w).length + 1 = (front ++ gap ++ w ++ [NUL]).length := by
        simp [Nat.add_assoc]
      have ends : (front ++ gap).length + w.length + 1 = (front ++ gap ++ w).length + 1 :=
        congrArg (· + 1) List.length_append.symm
      have cut := strtokenAt_word all word apart (by decide) front (rest ++ NUL :: after)
      rw [← start] at done'
      rw [ends] at done
      simp only [List.append_assoc, List.cons_append, List.nil_append] at cut done done' ⊢
      rw [cut, Option.bind_eq_bind, Option.bind_some]
      dsimp only
      rw [done, Option.bind_eq_bind, Option.bind_some, done']

/-- The items that are equal to none before them, of which `earlier` are already known. -/
def firstItems : List Text → List Text → List Text
  | _, [] => []
  | earlier, item :: items =>
    if earlier.any (irccmp item · = 0) then firstItems (earlier ++ [item]) items
    else item :: firstItems (earlier ++ [item]) items

theorem firstItems_eq_canonize (earlier items : List Text) :
    firstItems earlier items =
      (canonize items).filter fun item => !earlier.any (irccmp item · = 0) := by
  induction items generalizing earlier with
  | nil => rfl
  | cons item items ih =>
    have both : (canonize items).filter (fun x => !(earlier ++ [item]).any (irccmp x · = 0)) =
        ((canonize items).filter fun x => irccmp x item ≠ 0).filter
          fun x => !earlier.any (irccmp x · = 0) := by
      rw [List.filter_filter]
      refine List.filter_congr fun x _ => ?_
      simp [List.any_append]
    rw [firstItems, ih, both, canonize, List.filter_cons]
    cases earlier.any (irccmp item · = 0) <;> rfl

theorem canonize_mem {items : List Text} {x : Text} (member : x ∈ canonize items) : x ∈ items := by
  induction items with
  | nil => exact member
  | cons item items ih =>
    rcases List.mem_cons.mp member with rfl | later
    · exact List.mem_cons_self
    · exact List.mem_cons_of_mem _ (ih (List.mem_of_mem_filter later))

theorem irccmp_eq_zero_trans {a b c : Text} (first : NUL ∉ a) (second : NUL ∉ b) (third : NUL ∉ c)
    (ab : irccmp a b = 0) (bc : irccmp b c = 0) : irccmp a c = 0 :=
  (irccmp_eq_zero_iff first third).mpr
    (((irccmp_eq_zero_iff first second).mp ab).trans ((irccmp_eq_zero_iff second third).mp bc))

/-- An item that is equal to one before it makes no difference to those after it. -/
theorem firstItems_repeat {item : Text} {items : List Text} (strings : ∀ x ∈ kept ++ item :: items, NUL ∉ x)
    (found : kept.any (irccmp item · = 0) = true) :
    firstItems (kept ++ [item]) items = firstItems kept items := by
  rw [firstItems_eq_canonize, firstItems_eq_canonize]
  refine List.filter_congr fun x member => ?_
  obtain ⟨k, inside, same⟩ := List.any_eq_true.mp found
  have plain : NUL ∉ x := strings x (by simp [canonize_mem member])
  have through : irccmp x item = 0 → kept.any (irccmp x · = 0) = true := fun equal =>
    List.any_eq_true.mpr ⟨k, inside, decide_eq_true (irccmp_eq_zero_trans plain (strings item (by simp))
      (strings k (List.mem_append_left _ inside)) equal (of_decide_eq_true same))⟩
  rw [List.any_append, List.any_cons, List.any_nil, Bool.or_false]
  by_cases equal : irccmp x item = 0
  · rw [through equal, Bool.true_or]
  · rw [decide_eq_false equal, Bool.or_false]

/-- **What is kept one by one** are the items that are equal to none before them. -/
theorem foldl_keepItem (items : List Text) (strings : ∀ x ∈ kept ++ items, NUL ∉ x) :
    items.foldl keepItem kept = kept ++ firstItems kept items := by
  induction items generalizing kept with
  | nil => exact (List.append_nil kept).symm
  | cons item items ih =>
    rw [List.foldl_cons, keepItem, firstItems]
    cases found : kept.any (irccmp item · = 0) with
    | true =>
      rw [if_pos rfl, if_pos rfl, firstItems_repeat strings found]
      refine ih fun x member => strings x ?_
      rcases List.mem_append.mp member with inside | inside
      · exact List.mem_append_left _ inside
      · exact List.mem_append_right _ (List.mem_cons_of_mem _ inside)
    | false =>
      rw [if_neg Bool.false_ne_true, if_neg Bool.false_ne_true, ih (by simpa using strings)]
      simp

theorem strtoken_string {fs : Char} {t : Text} (string : NUL ∉ t) : ∀ w ∈ strtoken fs t, NUL ∉ w := by
  induction length : t.length using Nat.strong_induction_on generalizing t with
  | _ n ih =>
    unfold strtoken
    rcases words_cases (· == fs) t with ⟨-, none_⟩ | ⟨gap, w, -, -, ⟨rfl, one⟩ | ⟨c, rest, -, rfl, more⟩⟩
    · rw [none_]
      nofun
    · rw [one, List.forall_mem_singleton]
      exact fun member => string (List.mem_append_right _ member)
    · rw [more, List.forall_mem_cons]
      refine ⟨fun member => string (by simp [member]), ih rest.length ?_ ?_ rfl⟩
      · rw [← length]
        simp only [List.length_append, List.length_cons]
        omega
      · exact fun member => string (by simp [member])

/-- **`canonize` removes the repeats and nothing else.** For every list that is shorter than the static
buffer, whatever that holds, it leaves the items in order without those that are equal up to case to an
earlier one, with commas between them, and writes nothing outside of the buffer. -/
theorem canonizeInPlace_eq (list : CString) (short : list.1.length < BUFSIZE) (after cbuf : Text)
    (size : cbuf.length = BUFSIZE) :
    ∃ result, canonizeInPlace (list.1 ++ NUL :: after) cbuf = some result ∧
      result.length = BUFSIZE ∧
      stringOf result = commaJoined (firstItems [] (strtoken ',' list.1)) := by
  obtain ⟨c, rest, rfl⟩ := List.exists_cons_of_length_pos (show 0 < cbuf.length by rw [size]; decide)
  have holds : HoldsItems [] ⟨NUL :: rest, 0, false⟩ := ⟨nofun, ⟨rest, rfl⟩, rfl⟩
  have room : copied [] + list.1.length + 1 ≤ (NUL :: rest).length := by
    rw [copied, if_pos rfl, Nat.zero_add]
    exact (Nat.succ_le_of_lt short).trans size.ge
  have enough : list.1.length < (list.1 ++ NUL :: after).length + 1 := by
    rw [List.length_append]
    omega
  obtain ⟨st', done, length, kept, ⟨behind, text⟩, -⟩ :=
    canonizeFrom_eq holds rfl list.2 room enough [] after
  have first : store (c :: rest) 0 NUL = some (NUL :: rest) := store_length_append [] rest c
  have whole : (strtoken ',' list.1).foldl keepItem [] = firstItems [] (strtoken ',' list.1) :=
    foldl_keepItem (strtoken ',' list.1) (strtoken_string list.2)
  rw [whole] at kept text
  refine ⟨st'.cbuf, ?_, length.trans size, ?_⟩
  · unfold canonizeInPlace
    rw [first, Option.bind_eq_bind, Option.bind_some]
    exact congrArg (Option.bind · fun st => some st.cbuf) done
  · rw [text, stringOf_append (joined_string fun w member => (kept w member).string)]

/-- The list `#a,,#A,#b`. -/
theorem canonizeInPlace_eq_four : ∃ result,
    canonizeInPlace ("#a,,#A,#b".toList ++ NUL :: []) (List.replicate BUFSIZE NUL) = some result ∧
      result.length = BUFSIZE ∧
      stringOf result = commaJoined (firstItems [] (strtoken ',' "#a,,#A,#b".toList)) :=
  canonizeInPlace_eq ⟨"#a,,#A,#b".toList, by decide⟩ (by decide) [] _ (List.length_replicate ..)

end PtlinkIrcd
