/-
**The tree of commands.**

`init_tree_parse`, `do_msg_tree` and `tree_parse` of `parse.c`: the commands are found in a tree by
their letters.

* `MessageTree` — the nodes; `MessageTree.Finds` — what is found below a node.
* `branch_finds`, `do_msg_tree_finds` — the tree of a block of names with a common start.
* `tree_parse_iff` — **the tree finds a command by its name, in upper or lower case, and nothing else**.
* `tree_parse_msgtab` — so for the table of the server, a search by name does.
-/

import Mathlib.Data.Char
import Mathlib.Data.List.Infix
import Mathlib.Data.List.FinRange
import Mathlib.Data.Nat.Bitwise
import Mathlib.Logic.Function.Basic
import PtlinkIrcd.Client.Login

namespace PtlinkIrcd

/-! ### The functions -/

/-- `mtree->final`: nothing, `(void *)1`, or the rest of a name. -/
inductive FinalCase
  | null
  | here
  | rest (name : Text)

/-- `MESSAGE_TREE *`. -/
inductive MessageTree (Entry : Type)
  | null
  | node (final : FinalCase) (msg : Option Entry) (pointers : Fin 26 → MessageTree Entry)

def letter (c : Fin 26) : Char := Char.ofNat (65 + c)

/-- `r &= 0xdf`, and `r - 'A'` for a letter. -/
def letterIndex (r : Char) : Option (Fin 26) :=
  let r := r.toNat - (r.toNat &&& 0x20)
  if range : 65 ≤ r ∧ r ≤ 90 then some ⟨r - 65, by omega⟩ else none

def NEWPREF_SIZE : Nat := 64

namespace MessageTree

section Functions

variable {Entry : Type} (cmd : Entry → Text)

/-- `!mptr->cmd || strncmp(mptr->cmd, prefix, lp)`. -/
def leaves (start : Text) : List Entry → Bool
  | [] => true
  | first :: _ => !start.isPrefixOf (cmd first)

/-- The loop over the letters: the pointers, and the entries that are left. -/
def branch (recurse : Text → List Entry → Option (MessageTree Entry × List Entry)) (start : Text) :
    List (Fin 26) → List Entry → Option ((Fin 26 → MessageTree Entry) × List Entry)
  | [], mptr => some (fun _ => null, mptr)
  | _ :: _, [] => none
  | c :: later, first :: others =>
    if (cmd first)[start.length]? = some (letter c) then
      (recurse (start ++ [letter c]) (first :: others)).bind fun (mtree1, mptr) =>
        if leaves cmd start mptr then some (Function.update (fun _ => null) c mtree1, mptr)
        else (branch recurse start later mptr).map fun (pointers, mptr) =>
          (Function.update pointers c mtree1, mptr)
    else branch recurse start later (first :: others)

/-- The body of `do_msg_tree`. -/
def build (recurse : Text → List Entry → Option (MessageTree Entry × List Entry)) (start : Text) :
    List Entry → Option (MessageTree Entry × List Entry)
  | [] => none
  | first :: others =>
    if start = [] ∨ start.isPrefixOf (cmd first) then
      if others = [] ∨ start ≠ [] ∧ leaves cmd start others then
        some (node (.rest ((cmd first).drop start.length)) (some first) fun _ => null, others)
      else if irccmp (cmd first) start = 0 then
        (branch cmd recurse start (List.finRange 26) others).map fun (pointers, mptr) =>
          (node .here (some first) pointers, mptr)
      else
        (branch cmd recurse start (List.finRange 26) (first :: others)).map fun (pointers, mptr) =>
          (node .null none pointers, mptr)
    else none

/-- `do_msg_tree`, with room for so many more characters in `newpref`. -/
def do_msg_tree : Nat → Text → List Entry → Option (MessageTree Entry × List Entry)
  | 0 => build cmd fun _ _ => none
  | room + 1 => build cmd (do_msg_tree room)

/-- `init_tree_parse`: it ends the program when an entry is left. -/
def init_tree_parse (table : List Entry) : Option (MessageTree Entry) :=
  match do_msg_tree cmd (NEWPREF_SIZE - 1) []
    (table.mergeSort fun m1 m2 => strcmp (cmd m1) (cmd m2) ≤ 0) with
  | some (root, []) => some root
  | _ => none

def tree_parse : MessageTree Entry → Text → Option Entry
  | _, [] => none
  | null, _ => none
  | node _ _ pointers, r :: rest =>
    match letterIndex r with
    | none => none
    | some c =>
      match pointers c with
      | null => none
      | node .here msg below => if rest = [] then msg else tree_parse (node .here msg below) rest
      | node (.rest name) msg below =>
        if irccmp name rest = 0 then msg else tree_parse (node (.rest name) msg below) rest
      | node .null msg below => tree_parse (node .null msg below) rest

end Functions

/-! ### Letters -/

theorem letter_toNat (c : Fin 26) : (letter c).toNat = 65 + c := toNat_ofNat_of_lt (by omega)

theorem letter_injective : Function.Injective letter := by
  intro c d same
  have numbers := congrArg Char.toNat same
  rw [letter_toNat, letter_toNat] at numbers
  exact Fin.ext (by omega)

theorem toUpper_letter (c : Fin 26) : toUpper (letter c) = letter c := by
  rw [← Char.toNat_inj, toUpper_toNat, letter_toNat]
  split_ifs <;> omega

theorem letterIndex_eq_some_iff {r : Char} {c : Fin 26} :
    letterIndex r = some c ↔ toUpper r = letter c := by
  have bit : r.toNat &&& 0x20 = r.toNat / 32 % 2 * 32 := by
    rw [show (0x20 : Nat) = 2 ^ 5 from rfl, Nat.and_two_pow, Nat.testBit_eq_decide_div_mod_eq]
    show (decide (r.toNat / 32 % 2 = 1)).toNat * 32 = r.toNat / 32 % 2 * 32
    rcases Nat.mod_two_eq_zero_or_one (r.toNat / 32) with bit | bit <;> rw [bit] <;> rfl
  unfold letterIndex
  simp only [bit, ← Char.toNat_inj, toUpper_toNat, letter_toNat]
  constructor
  · intro found
    split_ifs at found with range
    have value := congrArg Fin.val (Option.some.inj found)
    simp only at value
    split_ifs <;> omega
  · intro found
    have range := c.isLt
    rw [dif_pos (by split_ifs at found <;> omega)]
    refine congrArg some (Fin.ext ?_)
    show r.toNat - r.toNat / 32 % 2 * 32 - 65 = c
    split_ifs at found <;> omega

/-! ### Sorted names -/

section Blocks

variable {Entry : Type} {cmd : Entry → Text} {start t u : Text} {block : List Entry} {e : Entry}

def Lettered (t : Text) : Prop := ∀ c ∈ t, ∃ i, c = letter i

theorem Lettered.toUpper_eq (lettered : Lettered t) : t.map toUpper = t := by
  refine (List.map_congr_left fun c member => ?_).trans (List.map_id t)
  obtain ⟨i, rfl⟩ := lettered c member
  exact toUpper_letter i

theorem Lettered.proper (lettered : Lettered t) : Char.ofNat 0 ∉ t := by
  intro member
  obtain ⟨i, same⟩ := lettered _ member
  have number := congrArg Char.toNat same
  rw [letter_toNat] at number
  exact absurd number (by rw [toNat_ofNat_of_lt (by decide)]; omega)

theorem strcmp_append (p t u : Text) : strcmp (p ++ t) (p ++ u) = strcmp t u := by
  induction p with
  | nil => rfl
  | cons c p ih => rw [List.cons_append, List.cons_append, strcmp, if_pos rfl, ih]

theorem letter_le_of_strcmp {i j : Fin 26} (less : strcmp (letter i :: t) (letter j :: u) < 0) : i ≤ j := by
  unfold strcmp at less
  split_ifs at less with same below
  · exact (letter_injective same).le
  · have numbers : (letter i).toNat < (letter j).toNat := below
    rw [letter_toNat, letter_toNat] at numbers
    exact Fin.le_def.mpr (by omega)
  · exact absurd less (by decide)

/-- A run of entries of the sorted table whose names have a common start. -/
structure Block (cmd : Entry → Text) (start : Text) (block : List Entry) : Prop where
  sorted : block.Pairwise fun a b => strcmp (cmd a) (cmd b) < 0
  starts : ∀ e ∈ block, start <+: cmd e
  lettered : ∀ e ∈ block, Lettered (cmd e)
  short : ∀ e ∈ block, (cmd e).length < NEWPREF_SIZE - 1

theorem Block.sublist (b : Block cmd start block) {part : List Entry} (sub : part.Sublist block) :
    Block cmd start part :=
  ⟨b.sorted.sublist sub, fun e member => b.starts e (sub.subset member),
    fun e member => b.lettered e (sub.subset member), fun e member => b.short e (sub.subset member)⟩

def nextIs (cmd : Entry → Text) (start : Text) (c : Fin 26) (e : Entry) : Bool :=
  (cmd e)[start.length]? = some (letter c)

theorem nextIs_iff (starts : start <+: cmd e) (c : Fin 26) :
    nextIs cmd start c e = true ↔ start ++ [letter c] <+: cmd e := by
  obtain ⟨rest, same⟩ := starts
  unfold nextIs
  rw [← same, List.prefix_append_right_inj, decide_eq_true_eq,
    List.getElem?_append_right (le_refl _), Nat.sub_self]
  cases rest with
  | nil => simp
  | cons d rest => simp [eq_comm]

theorem exists_nextIs (lettered : Lettered (cmd e))
    (longer : start.length < (cmd e).length) : ∃ c, nextIs cmd start c e = true := by
  obtain ⟨c, same⟩ := lettered _ (List.getElem_mem longer)
  refine ⟨c, decide_eq_true ?_⟩
  rw [List.getElem?_eq_getElem longer, same]

/-- Entries in their order have their letters in the order of the letters. -/
theorem nextIs_le {a b : Entry} {i j : Fin 26} (startsA : start <+: cmd a) (startsB : start <+: cmd b)
    (less : strcmp (cmd a) (cmd b) < 0) (nextA : nextIs cmd start i a = true)
    (nextB : nextIs cmd start j b = true) : i ≤ j := by
  obtain ⟨t, sameA⟩ := (nextIs_iff startsA i).mp nextA
  obtain ⟨u, sameB⟩ := (nextIs_iff startsB j).mp nextB
  rw [← sameA, ← sameB, List.append_assoc, List.append_assoc, strcmp_append] at less
  exact letter_le_of_strcmp less

theorem nextIs_unique {i j : Fin 26} (one : nextIs cmd start i e = true)
    (other : nextIs cmd start j e = true) : i = j := by
  have same := (of_decide_eq_true one).symm.trans (of_decide_eq_true other)
  exact letter_injective (Option.some.inj same)

theorem Block.split (b : Block cmd start block) {c : Fin 26} {later : List (Fin 26)}
    (order : ∀ j ∈ later, c < j)
    (inside : ∀ e ∈ block, ∃ i ∈ c :: later, nextIs cmd start i e = true) :
    ∃ here rest, block = here ++ rest ∧ (∀ e ∈ here, nextIs cmd start c e = true) ∧
      ∀ e ∈ rest, ∃ i ∈ later, nextIs cmd start i e = true := by
  induction block with
  | nil => exact ⟨[], [], rfl, by simp, by simp⟩
  | cons e block ih =>
    cases next : nextIs cmd start c e with
    | true =>
      obtain ⟨here, rest, rfl, all, none_⟩ := ih (b.sublist (List.sublist_cons_self ..))
        fun x member => inside x (List.mem_cons_of_mem _ member)
      refine ⟨e :: here, rest, rfl, fun x member => ?_, none_⟩
      rcases List.mem_cons.mp member with rfl | member
      · exact next
      · exact all x member
    | false =>
      refine ⟨[], e :: block, rfl, by simp, fun x member => ?_⟩
      obtain ⟨i, among, nextE⟩ := inside e List.mem_cons_self
      have big : c < i := by
        rcases List.mem_cons.mp among with rfl | among
        · rw [next] at nextE
          cases nextE
        · exact order i among
      obtain ⟨j, amongX, nextX⟩ := inside x member
      refine ⟨j, ?_, nextX⟩
      have after : i ≤ j := by
        rcases List.mem_cons.mp member with rfl | behind
        · exact (nextIs_unique nextE nextX).le
        · exact nextIs_le (b.starts e List.mem_cons_self) (b.starts x member)
            (List.rel_of_pairwise_cons b.sorted behind) nextE nextX
      rcases List.mem_cons.mp amongX with rfl | amongX
      · exact absurd (lt_of_lt_of_le big after) (lt_irrefl _)
      · exact amongX

/-- What is found where the loop of `tree_parse` has come to a node. -/
def arrive : MessageTree Entry → Text → Option Entry
  | null, _ => none
  | node .here msg below, rest => if rest = [] then msg else tree_parse (node .here msg below) rest
  | node (.rest name) msg below, rest =>
    if irccmp name rest = 0 then msg else tree_parse (node (.rest name) msg below) rest
  | node .null msg below, rest => tree_parse (node .null msg below) rest

theorem tree_parse_cons (final : FinalCase) (msg : Option Entry) (pointers : Fin 26 → MessageTree Entry)
    (r : Char) (rest : Text) :
    tree_parse (node final msg pointers) (r :: rest) =
      (letterIndex r).bind fun c => arrive (pointers c) rest := by
  rw [tree_parse]
  cases letterIndex r with
  | none => rfl
  | some c =>
    dsimp only [Option.bind_some]
    cases pointers c with
    | null => rfl
    | node final msg below => cases final <;> rfl

/-- Where the loop has come to by `start`, the entries of the block are found, by the rest of their
names, and nothing else. -/
def Finds (cmd : Entry → Text) (tree : MessageTree Entry) (start : Text) (block : List Entry) : Prop :=
  ∀ rest e, Char.ofNat 0 ∉ rest →
    (arrive tree rest = some e ↔ e ∈ block ∧ cmd e = start ++ rest.map toUpper)

theorem tree_parse_node {pointers : Fin 26 → MessageTree Entry} {final : FinalCase} {msg : Option Entry}
    (b : Block cmd start block) (longer : ∀ e ∈ block, start.length < (cmd e).length)
    (finds : ∀ i, Finds cmd (pointers i) (start ++ [letter i]) (block.filter (nextIs cmd start i)))
    {rest : Text} (proper : Char.ofNat 0 ∉ rest) :
    tree_parse (node final msg pointers) rest = some e ↔ e ∈ block ∧ cmd e = start ++ rest.map toUpper := by
  cases rest with
  | nil =>
    rw [tree_parse]
    refine iff_of_false (by simp) fun ⟨member, same⟩ => ?_
    have more := longer e member
    rw [same] at more
    simp at more
  | cons r rest =>
    rw [tree_parse_cons]
    cases found : letterIndex r with
    | none =>
      refine iff_of_false (by simp) fun ⟨member, same⟩ => ?_
      obtain ⟨i, eq⟩ := b.lettered e member (toUpper r) (by simp [same])
      rw [letterIndex_eq_some_iff.mpr eq] at found
      cases found
    | some i =>
      have upper := letterIndex_eq_some_iff.mp found
      rw [Option.bind_some, finds i rest e (List.not_mem_of_not_mem_cons proper), List.mem_filter,
        List.map_cons, upper, List.append_assoc, List.singleton_append, and_assoc]
      refine and_congr_right fun member => and_iff_right_of_imp fun same => ?_
      exact (nextIs_iff (b.starts e member) i).mpr ⟨rest.map toUpper, by rw [same]; simp⟩

theorem leaves_cons {others : List Entry} :
    leaves cmd start (e :: others) = true ↔ ¬ start <+: cmd e := by
  rw [leaves, Bool.not_eq_true', ← Bool.not_eq_true, List.isPrefixOf_iff_prefix]

/-- **The loop over the letters** takes a block and makes a tree for each letter. -/
theorem branch_finds {recurse : Text → List Entry → Option (MessageTree Entry × List Entry)}
    {after : List Entry} (leave : leaves cmd start after = true)
    (below : ∀ i block after, block ≠ [] → Block cmd (start ++ [letter i]) block →
      leaves cmd (start ++ [letter i]) after = true →
      ∃ tree, recurse (start ++ [letter i]) (block ++ after) = some (tree, after) ∧
        Finds cmd tree (start ++ [letter i]) block)
    (ls : List (Fin 26)) (order : ls.Pairwise (· < ·)) (b : Block cmd start block) (some_ : block ≠ [])
    (inside : ∀ e ∈ block, ∃ i ∈ ls, nextIs cmd start i e = true) :
    ∃ pointers, branch cmd recurse start ls (block ++ after) = some (pointers, after) ∧
      ∀ i, Finds cmd (pointers i) (start ++ [letter i]) (block.filter (nextIs cmd start i)) := by
  induction ls generalizing block with
  | nil =>
    obtain ⟨e, member⟩ := List.exists_mem_of_ne_nil _ some_
    obtain ⟨i, among, -⟩ := inside e member
    cases among
  | cons c later ih =>
    rw [List.pairwise_cons] at order
    obtain ⟨here, rest, rfl, all, remain⟩ := b.split order.1 inside
    have blockRest : Block cmd start rest := b.sublist (List.sublist_append_right ..)
    have apart : ∀ e ∈ rest, nextIs cmd start c e = false := by
      intro e member
      obtain ⟨i, among, next⟩ := remain e member
      by_contra other
      exact absurd (nextIs_unique (Bool.eq_true_of_not_eq_false other) next) (order.1 i among).ne
    cases here with
    | nil =>
      obtain ⟨e, others, rfl⟩ := List.exists_cons_of_ne_nil some_
      have other : ¬ (cmd e)[start.length]? = some (letter c) :=
        of_decide_eq_false (apart e List.mem_cons_self)
      rw [List.nil_append, List.cons_append, branch, if_neg other]
      exact ih order.2 blockRest some_ remain
    | cons h hs =>
      have blockHere : Block cmd (start ++ [letter c]) (h :: hs) := by
        have part := b.sublist (List.sublist_append_left (h :: hs) rest)
        exact ⟨part.sorted, fun e member => (nextIs_iff (part.starts e member) c).mp (all e member),
          part.lettered, part.short⟩
      have goes : leaves cmd (start ++ [letter c]) (rest ++ after) = true := by
        cases rest with
        | nil =>
          cases after with
          | nil => rfl
          | cons a after =>
            have away := leaves_cons.mp leave
            exact leaves_cons.mpr fun long => away ((List.prefix_append start [letter c]).trans long)
        | cons r rest =>
          have away := apart r List.mem_cons_self
          have starts := b.starts r (by simp)
          refine leaves_cons.mpr fun long => ?_
          rw [(nextIs_iff starts c).mpr long] at away
          cases away
      obtain ⟨tree, built, found⟩ := below c (h :: hs) (rest ++ after) (by simp) blockHere goes
      have own : (h :: hs ++ rest).filter (nextIs cmd start c) = h :: hs := by
        rw [List.filter_append, List.filter_eq_self.mpr all,
          List.filter_eq_nil_iff.mpr fun e member => by simp [apart e member], List.append_nil]
      have others : ∀ i, i ≠ c → (h :: hs ++ rest).filter (nextIs cmd start i) =
          rest.filter (nextIs cmd start i) := by
        intro i ne
        rw [List.filter_append, List.filter_eq_nil_iff.mpr fun e member next =>
          ne (nextIs_unique next (all e member)), List.nil_append]
      have taken : (cmd h)[start.length]? = some (letter c) :=
        of_decide_eq_true (all h List.mem_cons_self)
      rw [List.append_assoc, List.cons_append, branch, if_pos taken]
      rw [List.cons_append] at built
      simp only [built, Option.bind_some]
      cases rest with
      | nil =>
        rw [List.nil_append, if_pos leave]
        refine ⟨_, rfl, fun i => ?_⟩
        by_cases same : i = c
        · rw [same, Function.update_self, own]
          exact found
        · rw [Function.update_of_ne same, others i same]
          exact fun rest e _ => by simp [arrive]
      | cons r rest =>
        obtain ⟨pointers, result, finds⟩ := ih order.2 blockRest (by simp) remain
        have goes_on : ¬ leaves cmd start (r :: rest ++ after) = true :=
          fun leave => leaves_cons.mp leave (blockRest.starts r List.mem_cons_self)
        rw [if_neg goes_on, result]
        refine ⟨_, rfl, fun i => ?_⟩
        by_cases same : i = c
        · rw [same, Function.update_self, own]
          exact found
        · rw [Function.update_of_ne same, others i same]
          exact finds i

theorem leaf_finds (b : Block cmd start [e]) :
    Finds cmd (node (.rest ((cmd e).drop start.length)) (some e) fun _ => null) start [e] := by
  intro rest x proper
  obtain ⟨name, same⟩ := b.starts e List.mem_cons_self
  have lettered := b.lettered e List.mem_cons_self
  have letteredName : Lettered name := fun c member => lettered c (by rw [← same]; simp [member])
  have below : tree_parse (node (.rest ((cmd e).drop start.length)) (some e) fun _ => null) rest = none := by
    cases rest with
    | nil => rfl
    | cons r rest =>
      rw [tree_parse_cons]
      cases letterIndex r <;> rfl
  have compared : irccmp ((cmd e).drop start.length) rest = 0 ↔ cmd e = start ++ rest.map toUpper := by
    rw [← same, List.drop_left, irccmp_eq_zero_iff letteredName.proper proper, letteredName.toUpper_eq,
      List.append_cancel_left_eq]
  rw [arrive, below, List.mem_singleton]
  by_cases hit : irccmp ((cmd e).drop start.length) rest = 0
  · rw [if_pos hit, Option.some.injEq]
    refine ⟨fun eq => eq ▸ ⟨rfl, compared.mp hit⟩, fun both => both.1.symm⟩
  · rw [if_neg hit]
    refine iff_of_false (by simp) fun both => hit (compared.mpr ?_)
    rw [← both.1]
    exact both.2

theorem Block.longer (b : Block cmd start block) (member : e ∈ block) (ne : cmd e ≠ start) :
    start.length < (cmd e).length := by
  have starts := b.starts e member
  exact lt_of_le_of_ne starts.length_le fun same => ne (starts.eq_of_length same).symm

theorem Block.longer_behind (b : Block cmd start (e :: block)) (same : cmd e = start) :
    ∀ x ∈ block, start.length < (cmd x).length := by
  intro x member
  refine b.longer (List.mem_cons_of_mem _ member) fun eq => ?_
  have less := (List.pairwise_cons.mp b.sorted).1 x member
  rw [same, eq, strcmp_eq_zero_iff.mpr rfl] at less
  exact absurd less (lt_irrefl 0)

/-- The start itself would come first, so without it all names are longer. -/
theorem Block.longer_of_ne (b : Block cmd start (e :: block)) (other : cmd e ≠ start) :
    ∀ x ∈ e :: block, start.length < (cmd x).length := by
  intro x member
  refine b.longer member fun eq => ?_
  rcases List.mem_cons.mp member with rfl | behind
  · exact other eq
  · obtain ⟨name, split⟩ := b.starts e List.mem_cons_self
    have less := (List.pairwise_cons.mp b.sorted).1 x behind
    rw [eq, ← split] at less
    have back : strcmp (start ++ name) (start ++ []) < 0 := by rwa [List.append_nil]
    rw [strcmp_append] at back
    cases name with
    | nil => exact absurd back (by decide)
    | cons c name => exact absurd back (by rw [strcmp]; decide)

/-- A node with the start itself finds it at its end, and the others below. -/
theorem start_finds {pointers : Fin 26 → MessageTree Entry} (same : cmd e = start)
    (b : Block cmd start block) (longer : ∀ x ∈ block, start.length < (cmd x).length)
    (finds : ∀ i, Finds cmd (pointers i) (start ++ [letter i]) (block.filter (nextIs cmd start i))) :
    Finds cmd (node .here (some e) pointers) start (e :: block) := by
  intro rest x proper
  rw [arrive]
  by_cases ended : rest = []
  · subst ended
    rw [if_pos rfl, Option.some.injEq, List.map_nil, List.append_nil, List.mem_cons]
    refine ⟨fun eq => eq ▸ ⟨.inl rfl, same⟩, fun ⟨member, eq⟩ => ?_⟩
    rcases member with rfl | member
    · rfl
    · have more := longer x member
      rw [eq] at more
      exact absurd more (lt_irrefl _)
  · rw [if_neg ended, tree_parse_node b longer finds proper]
    refine ⟨fun ⟨member, eq⟩ => ⟨List.mem_cons_of_mem _ member, eq⟩, fun ⟨member, eq⟩ => ?_⟩
    rcases List.mem_cons.mp member with rfl | behind
    · rw [same] at eq
      exact absurd (by simpa using eq) ended
    · exact ⟨behind, eq⟩

/-- **`do_msg_tree` takes a block and makes its tree.** -/
theorem do_msg_tree_finds (room : Nat) {after : List Entry} (fits : start.length + room = NEWPREF_SIZE - 1)
    (some_ : block ≠ []) (b : Block cmd start block) (leave : leaves cmd start after = true)
    (two : start = [] → 2 ≤ block.length) :
    ∃ tree, do_msg_tree cmd room start (block ++ after) = some (tree, after) ∧
      Finds cmd tree start block ∧
      (start = [] → (∀ e ∈ block, cmd e ≠ []) → ∃ msg pointers, tree = node .null msg pointers) := by
  induction room generalizing start block after with
  | zero =>
    obtain ⟨e, member⟩ := List.exists_mem_of_ne_nil _ some_
    have long := (b.starts e member).length_le
    have short := b.short e member
    omega
  | succ room ih =>
    obtain ⟨e, others, rfl⟩ := List.exists_cons_of_ne_nil some_
    have starts := b.starts e List.mem_cons_self
    have begins : start = [] ∨ start.isPrefixOf (cmd e) = true :=
      .inr (List.isPrefixOf_iff_prefix.mpr starts)
    have below : ∀ i block after, block ≠ [] → Block cmd (start ++ [letter i]) block →
        leaves cmd (start ++ [letter i]) after = true →
        ∃ tree, do_msg_tree cmd room (start ++ [letter i]) (block ++ after) = some (tree, after) ∧
          Finds cmd tree (start ++ [letter i]) block := by
      intro i block after some_ b leave
      obtain ⟨tree, built, finds, -⟩ := ih (by simp; omega) some_ b leave (by simp)
      exact ⟨tree, built, finds⟩
    have inside : ∀ {part : List Entry}, part.Sublist (e :: others) →
        (∀ x ∈ part, start.length < (cmd x).length) →
        ∀ x ∈ part, ∃ i ∈ List.finRange 26, nextIs cmd start i x = true := by
      intro part sub longer x member
      obtain ⟨i, next⟩ := exists_nextIs (b.lettered x (sub.subset member)) (longer x member)
      exact ⟨i, List.mem_finRange i, next⟩
    rw [List.cons_append, do_msg_tree, build, if_pos begins]
    cases others with
    | nil =>
      have alone : after = [] ∨ start ≠ [] ∧ leaves cmd start after = true := by
        cases after with
        | nil => exact .inl rfl
        | cons a after =>
          refine .inr ⟨?_, leave⟩
          rintro rfl
          exact leaves_cons.mp leave (List.nil_prefix ..)
      rw [List.nil_append, if_pos alone]
      exact ⟨_, rfl, leaf_finds b, fun empty => absurd (two empty) (by simp)⟩
    | cons second more =>
      have several : ¬ (second :: more ++ after = [] ∨
          start ≠ [] ∧ leaves cmd start (second :: more ++ after) = true) := by
        rintro (none_ | ⟨-, goes⟩)
        · cases none_
        · exact leaves_cons.mp goes (b.starts second (by simp))
      have letteredE := b.lettered e List.mem_cons_self
      have letteredStart : Lettered start := fun c member => letteredE c (starts.subset member)
      have exact_ : irccmp (cmd e) start = 0 ↔ cmd e = start := by
        rw [irccmp_eq_zero_iff letteredE.proper letteredStart.proper, letteredE.toUpper_eq,
          letteredStart.toUpper_eq]
      rw [if_neg several]
      by_cases same : cmd e = start
      · rw [if_pos (exact_.mpr same)]
        have longer := b.longer_behind same
        have blockRest := b.sublist (List.sublist_cons_self e (second :: more))
        obtain ⟨pointers, result, finds⟩ := branch_finds leave below (List.finRange 26)
          (List.pairwise_lt_finRange 26) blockRest (by simp) (inside (List.sublist_cons_self ..) longer)
        rw [result]
        exact ⟨_, rfl, start_finds same blockRest longer finds, fun empty proper =>
          absurd (same.trans empty) (proper e List.mem_cons_self)⟩
      · rw [if_neg (mt exact_.mp same)]
        have longer := b.longer_of_ne same
        obtain ⟨pointers, result, finds⟩ := branch_finds leave below (List.finRange 26)
          (List.pairwise_lt_finRange 26) b (by simp) (inside (List.Sublist.refl _) longer)
        rw [List.cons_append] at result
        rw [result]
        exact ⟨_, rfl, fun rest x proper => tree_parse_node b longer finds proper,
          fun _ _ => ⟨_, _, rfl⟩⟩

end Blocks

/-! ### The table -/

section Tables

variable {Entry : Type} {cmd : Entry → Text} {table : List Entry}

/-- A table that `init_tree_parse` is for. -/
structure Commands (cmd : Entry → Text) (table : List Entry) : Prop where
  two : 2 ≤ table.length
  distinct : (table.map cmd).Nodup
  nonempty : ∀ e ∈ table, cmd e ≠ []
  lettered : ∀ e ∈ table, Lettered (cmd e)
  short : ∀ e ∈ table, (cmd e).length < NEWPREF_SIZE - 1

theorem strcmp_le_trans (t u v : Text) (first : strcmp t u ≤ 0) (second : strcmp u v ≤ 0) :
    strcmp t v ≤ 0 := by
  induction t generalizing u v with
  | nil => cases v <;> simp [strcmp]
  | cons c t ih =>
    cases u with
    | nil => exact absurd first (by rw [strcmp]; decide)
    | cons d u =>
      cases v with
      | nil => exact absurd second (by rw [strcmp]; decide)
      | cons k v =>
        unfold strcmp at first second ⊢
        by_cases same : c = d
        · subst same
          rw [if_pos rfl] at first
          by_cases same' : c = k
          · subst same'
            rw [if_pos rfl] at second ⊢
            exact ih u v first second
          · rw [if_neg same'] at second ⊢
            exact second
        · rw [if_neg same] at first
          have below : c < d := by
            by_contra above
            rw [if_neg above] at first
            exact absurd first (by decide)
          by_cases same' : d = k
          · subst same'
            rw [if_neg same, if_pos below]
            decide
          · rw [if_neg same'] at second
            have below' : d < k := by
              by_contra above
              rw [if_neg above] at second
              exact absurd second (by decide)
            have further := lt_trans below below'
            rw [if_neg further.ne, if_pos further]
            decide

theorem strcmp_le_total (t u : Text) : strcmp t u ≤ 0 ∨ strcmp u t ≤ 0 := by
  induction t generalizing u with
  | nil => cases u <;> simp [strcmp]
  | cons c t ih =>
    cases u with
    | nil => exact .inr (by rw [strcmp]; decide)
    | cons d u =>
      unfold strcmp
      by_cases same : c = d
      · subst same
        rw [if_pos rfl, if_pos rfl]
        exact ih u
      · rw [if_neg same, if_neg (Ne.symm same)]
        rcases lt_or_gt_of_ne same with below | above
        · exact .inl (by rw [if_pos below]; decide)
        · exact .inr (by rw [if_pos above]; decide)

theorem Commands.block (commands : Commands cmd table) :
    Block cmd [] (table.mergeSort fun m1 m2 => strcmp (cmd m1) (cmd m2) ≤ 0) := by
  have perm := table.mergeSort_perm fun m1 m2 => strcmp (cmd m1) (cmd m2) ≤ 0
  refine ⟨?_, fun e _ => List.nil_prefix, fun e member => commands.lettered e (perm.mem_iff.mp member),
    fun e member => commands.short e (perm.mem_iff.mp member)⟩
  have sorted := @List.pairwise_mergeSort Entry (fun m1 m2 => strcmp (cmd m1) (cmd m2) ≤ 0)
    (fun a b c first second => decide_eq_true
      (strcmp_le_trans _ _ _ (of_decide_eq_true first) (of_decide_eq_true second)))
    (fun a b => by simpa using strcmp_le_total (cmd a) (cmd b)) table
  have distinct := List.pairwise_map.mp (((perm.map cmd).nodup_iff).mpr commands.distinct)
  refine (sorted.and distinct).imp fun {a b} both => ?_
  refine lt_of_le_of_ne (of_decide_eq_true both.1) fun zero => both.2 (strcmp_eq_zero_iff.mp zero)

theorem Commands.finds (commands : Commands cmd table) :
    ∃ root, init_tree_parse cmd table = some root ∧ ∀ s e, Char.ofNat 0 ∉ s →
      (tree_parse root s = some e ↔ e ∈ table ∧ cmd e = s.map toUpper) := by
  have perm := table.mergeSort_perm fun m1 m2 => strcmp (cmd m1) (cmd m2) ≤ 0
  have two : 2 ≤ (table.mergeSort fun m1 m2 => strcmp (cmd m1) (cmd m2) ≤ 0).length :=
    perm.length_eq ▸ commands.two
  obtain ⟨tree, built, finds, plain⟩ := do_msg_tree_finds (NEWPREF_SIZE - 1) (by simp)
    (List.ne_nil_of_length_pos (by omega)) commands.block (rfl : leaves cmd [] [] = true) fun _ => two
  obtain ⟨msg, pointers, rfl⟩ := plain rfl fun e member => commands.nonempty e (perm.mem_iff.mp member)
  rw [List.append_nil] at built
  refine ⟨_, by rw [init_tree_parse, built], fun s e proper => (finds s e proper).trans ?_⟩
  rw [perm.mem_iff, List.nil_append]

/-- **The tree finds an entry by its name, in upper or lower case, and nothing else.** -/
theorem tree_parse_iff (commands : Commands cmd table) :
    ∃ root, init_tree_parse cmd table = some root ∧
      ∀ (s : CString) (e : Entry), tree_parse root s.1 = some e ↔ e ∈ table ∧ irccmp (cmd e) s.1 = 0 := by
  obtain ⟨root, built, finds⟩ := commands.finds
  refine ⟨root, built, fun s e => (finds s.1 e s.2).trans (and_congr_right fun member => ?_)⟩
  have lettered := commands.lettered e member
  rw [irccmp_eq_zero_iff lettered.proper s.2, lettered.toUpper_eq]

theorem commands_msgtab : Commands Message.cmd msgtab := by
  have letters : (msgtab.all fun e => e.cmd.all fun c => 65 ≤ c.toNat && c.toNat ≤ 90) = true := by
    decide +kernel
  -- numbers are faster to tell apart than names
  have codes : ((msgtab.map Message.cmd).map fun cmd =>
      cmd.foldl (fun n c => n * 32 + c.toNat) 0).Nodup := by
    decide +kernel
  refine ⟨by decide +kernel, codes.of_map _, by decide +kernel, fun e member c inside => ?_,
    by decide +kernel⟩
  have range : 65 ≤ c.toNat ∧ c.toNat ≤ 90 := by
    simpa using List.all_eq_true.mp (List.all_eq_true.mp letters e member) c inside
  refine ⟨⟨c.toNat - 65, by omega⟩, Char.toNat_inj.mp ?_⟩
  rw [letter_toNat]
  show c.toNat = 65 + (c.toNat - 65)
  omega

theorem tree_parse_iff_msgtab : ∃ root, init_tree_parse Message.cmd msgtab = some root ∧
    ∀ (s : CString) (e : Message),
      tree_parse root s.1 = some e ↔ e ∈ msgtab ∧ irccmp e.cmd s.1 = 0 :=
  tree_parse_iff commands_msgtab

theorem tree_parse_msgtab : ∃ root, init_tree_parse Message.cmd msgtab = some root ∧
    ∀ s : CString, tree_parse root s.1 = PtlinkIrcd.tree_parse s.1 := by
  obtain ⟨root, built, finds⟩ := commands_msgtab.finds
  refine ⟨root, built, fun s => ?_⟩
  unfold PtlinkIrcd.tree_parse
  cases found : msgtab.find? (·.cmd = s.1.map toUpper) with
  | none =>
    refine Option.eq_none_iff_forall_ne_some.mpr fun e tree => ?_
    obtain ⟨member, same⟩ := (finds s.1 e s.2).mp tree
    exact List.find?_eq_none.mp found e member (decide_eq_true same)
  | some e =>
    exact (finds s.1 e s.2).mpr ⟨List.mem_of_find?_eq_some found, of_decide_eq_true
      (List.find?_some (p := fun msg : Message => decide (msg.cmd = s.1.map toUpper)) found)⟩

end Tables

end MessageTree

end PtlinkIrcd
