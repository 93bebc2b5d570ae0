/-
**The tables of clients and channels.**

`hash.c`: two tables of the same make, one by `hash_nick_name`, one by `hash_channel_name`.

* `HashEntry`, `HashTable` — a bucket with its chain and its counters; the table and the names of
  what it holds.
* `add_to_hash_table`, `del_from_hash_table`, `hash_find` — the functions of both tables, by the
  hash.
* `Obeys` — what the callers take care of: nothing is added twice, and what is in the table keeps
  its name.
* `chains_call` — the calls do to the chains what the state of the server has for them.
* `run_tables` — **a lookup finds the entry added last** among those with an equal name, after every
  history that obeys.
-/

import Mathlib.Data.List.Induction
import Mathlib.Data.List.Nodup
import Mathlib.Logic.Function.Basic
import PtlinkIrcd.Model.State

namespace PtlinkIrcd

/-! ### The tables -/

/-- `struct HashEntry`, with the chain of its list. -/
structure HashEntry (α : Type) where
  hits : Nat
  links : Nat
  list : List α

/-- A table, and the `name` or `chname` of everything that can be in it. -/
structure HashTable (α : Type) where
  table : Nat → HashEntry α
  name : α → CString

namespace HashTable

variable {α : Type} [DecidableEq α]

/-- `clear_client_hash_table`, `clear_channel_hash_table`. -/
def clear (name : α → CString) : HashTable α := ⟨fun _ => ⟨0, 0, []⟩, name⟩

/-- The body of `add_to_client_hash_table` and `add_to_channel_hash_table`. -/
def add_to_hash_table (hash : Text → Nat) (name : Text) (cptr : α) (t : HashTable α) :
    HashTable α :=
  let hashv := hash name
  let bucket := t.table hashv
  { t with
    table := Function.update t.table hashv
      ⟨bucket.hits + 1, bucket.links + 1, cptr :: bucket.list⟩ }

/-- The loop over a chain: the rest without `cptr`; `none` when it is not on the chain. -/
def unchain (cptr : α) : List α → Option (List α)
  | [] => none
  | tmp :: rest => if tmp = cptr then some rest else (unchain cptr rest).map (tmp :: ·)

/-- The body of `del_from_client_hash_table` and `del_from_channel_hash_table`. -/
def del_from_hash_table (hash : Text → Nat) (name : Text) (cptr : α) (t : HashTable α) :
    HashTable α :=
  let hashv := hash name
  let bucket := t.table hashv
  match unchain cptr bucket.list with
  | none => t
  | some list =>
    let links := if 0 < bucket.links then bucket.links - 1 else bucket.links
    { t with table := Function.update t.table hashv ⟨bucket.hits, links, list⟩ }

/-- The body of `hash_find_client` and `hash_find_channel`. -/
def hash_find (hash : Text → Nat) (name : Text) (cptr : Option α) (t : HashTable α) : Option α :=
  match (t.table (hash name)).list.find? fun tmp => irccmp name (t.name tmp).1 = 0 with
  | some tmp => some tmp
  | none => cptr

def add_to_client_hash_table (name : Text) (cptr : α) (t : HashTable α) : HashTable α :=
  t.add_to_hash_table hashNickName name cptr

def del_from_client_hash_table (name : Text) (cptr : α) (t : HashTable α) : HashTable α :=
  t.del_from_hash_table hashNickName name cptr

def hash_find_client (name : Text) (cptr : Option α) (t : HashTable α) : Option α :=
  t.hash_find hashNickName name cptr

def add_to_channel_hash_table (name : Text) (chptr : α) (t : HashTable α) : HashTable α :=
  t.add_to_hash_table hashChannelName name chptr

def del_from_channel_hash_table (name : Text) (chptr : α) (t : HashTable α) : HashTable α :=
  t.del_from_hash_table hashChannelName name chptr

def hash_find_channel (name : Text) (chptr : Option α) (t : HashTable α) : Option α :=
  t.hash_find hashChannelName name chptr

theorem unchain_eq (cptr : α) (list : List α) :
    unchain cptr list = if cptr ∈ list then some (list.erase cptr) else none := by
  induction list with
  | nil => rfl
  | cons tmp rest ih =>
    unfold unchain
    by_cases same : tmp = cptr
    · subst same
      rw [if_pos rfl, if_pos List.mem_cons_self, List.erase_cons_head]
    · have apart : cptr ≠ tmp := fun eq => same eq.symm
      rw [if_neg same, ih]
      by_cases member : cptr ∈ rest
      · rw [if_pos member, if_pos (List.mem_cons_of_mem _ member), Option.map_some,
          List.erase_cons_tail (by simpa using same)]
      · rw [if_neg member, if_neg (by simp [apart, member]), Option.map_none]

/-! ### The tables of the state -/

/-- The chains of a table, as the state of the server has them. -/
def chains (t : HashTable α) : Lib.ChainTable α := fun hashv => (t.table hashv).list

omit [DecidableEq α] in
theorem chains_add (hash : Text → Nat) (name : Text) (cptr : α) (t : HashTable α) :
    (t.add_to_hash_table hash name cptr).chains = t.chains.add (hash name) cptr := by
  funext hashv
  by_cases same : hashv = hash name
  · subst same
    simp [chains, add_to_hash_table, Lib.ChainTable.add]
  · simp [chains, add_to_hash_table, Lib.ChainTable.add, same]

theorem chains_del (hash : Text → Nat) (name : Text) (cptr : α) (t : HashTable α) :
    (t.del_from_hash_table hash name cptr).chains = t.chains.del (hash name) cptr := by
  funext hashv
  unfold del_from_hash_table
  simp only [unchain_eq]
  by_cases member : cptr ∈ (t.table (hash name)).list
  · rw [if_pos member]
    by_cases same : hashv = hash name
    · subst same
      simp [chains, Lib.ChainTable.del]
    · simp [chains, Lib.ChainTable.del, same]
  · rw [if_neg member]
    by_cases same : hashv = hash name
    · subst same
      simp [chains, Lib.ChainTable.del, List.erase_of_not_mem member]
    · simp [chains, Lib.ChainTable.del, same]

/-- **A lookup in the table is the lookup of the state** over the same chains and names. -/
theorem find_client_eq {t : HashTable ClientId} {s : Ircd} (chains : t.chains = s.clientTable)
    (names : ∀ cptr, (t.name cptr).1 = (s.client cptr).name) (name : Text) :
    t.hash_find_client name none = s.find_client name := by
  unfold hash_find_client hash_find Ircd.find_client Lib.ChainTable.find
  simp only [← chains, ← names, HashTable.chains]
  cases List.find? _ _ <;> rfl

/-! ### What a table holds -/

/-- The table holds the entries `present`, which were added in this order, the last one first. -/
structure Holds (hash : Text → Nat) (present : List α) (t : HashTable α) : Prop where
  nodup : present.Nodup
  list : ∀ hashv, (t.table hashv).list = present.filter fun cptr => hash (t.name cptr).1 = hashv
  links : ∀ hashv, (t.table hashv).links = (t.table hashv).list.length

namespace Holds

variable {hash : Text → Nat} {present : List α} {t : HashTable α}

omit [DecidableEq α] in
theorem clear (hash : Text → Nat) (name : α → CString) : Holds hash [] (clear name) where
  nodup := List.nodup_nil
  list _ := rfl
  links _ := rfl

omit [DecidableEq α] in
/-- **Adding what is not in the table**, under its name. -/
theorem add (holds : Holds hash present t) {cptr : α} (fresh : cptr ∉ present) :
    Holds hash (cptr :: present) (t.add_to_hash_table hash (t.name cptr).1 cptr) where
  nodup := List.nodup_cons.mpr ⟨fresh, holds.nodup⟩
  list hashv := by
    unfold add_to_hash_table
    simp only []
    rw [List.filter_cons]
    by_cases same : hashv = hash (t.name cptr).1
    · rw [same, Function.update_self, if_pos (decide_eq_true rfl), holds.list]
    · have apart : ¬ hash (t.name cptr).1 = hashv := fun eq => same eq.symm
      rw [Function.update_of_ne same, if_neg (by simpa using apart), holds.list]
  links hashv := by
    unfold add_to_hash_table
    simp only []
    by_cases same : hashv = hash (t.name cptr).1
    · rw [same, Function.update_self, List.length_cons, holds.links]
    · rw [Function.update_of_ne same, holds.links]

/-- **Deleting**, under the name; what is not in the table is not found. -/
theorem del (holds : Holds hash present t) (cptr : α) :
    Holds hash (present.erase cptr) (t.del_from_hash_table hash (t.name cptr).1 cptr) := by
  have chain := holds.list (hash (t.name cptr).1)
  have here : cptr ∈ (t.table (hash (t.name cptr).1)).list ↔ cptr ∈ present := by
    rw [chain, List.mem_filter]
    exact and_iff_left (decide_eq_true rfl)
  unfold del_from_hash_table
  simp only [unchain_eq]
  by_cases member : cptr ∈ present
  · rw [if_pos (here.mpr member)]
    refine ⟨holds.nodup.erase cptr, fun hashv => ?_, fun hashv => ?_⟩
    · rw [holds.nodup.erase_eq_filter, List.filter_filter]
      by_cases same : hashv = hash (t.name cptr).1
      · have once : (t.table (hash (t.name cptr).1)).list.Nodup := by
          rw [chain]
          exact holds.nodup.filter _
        simp only [same, Function.update_self]
        rw [once.erase_eq_filter, chain, List.filter_filter]
        exact List.filter_congr fun other _ => Bool.and_comm _ _
      · simp only [Function.update_of_ne same]
        rw [holds.list]
        refine List.filter_congr fun other _ => ?_
        by_cases hit : hash (t.name other).1 = hashv
        · have apart : other ≠ cptr := by
            rintro rfl
            exact same hit.symm
          simp [hit, apart]
        · simp [hit]
    · by_cases same : hashv = hash (t.name cptr).1
      · have some_ : 0 < (t.table (hash (t.name cptr).1)).links := by
          rw [holds.links]
          exact List.length_pos_of_mem (here.mpr member)
        simp only [same, Function.update_self]
        rw [if_pos some_, holds.links, List.length_erase_of_mem (here.mpr member)]
      · simp only [Function.update_of_ne same]
        exact holds.links hashv
  · rw [if_neg (mt here.mp member), List.erase_of_not_mem member]
    exact holds

/-- **Naming what is not in the table** leaves the table as it is. -/
theorem rename (holds : Holds hash present t) {cptr : α} (fresh : cptr ∉ present)
    (name : CString) : Holds hash present { t with name := Function.update t.name cptr name } where
  nodup := holds.nodup
  list hashv := by
    rw [holds.list]
    refine List.filter_congr fun other member => ?_
    have apart : other ≠ cptr := by
      rintro rfl
      exact fresh member
    simp only [Function.update_of_ne apart]
  links := holds.links

omit [DecidableEq α] in
/-- **A lookup finds the newest entry with an equal name**, when equal names have one hash. -/
theorem find (holds : Holds hash present t)
    (folds : ∀ {name other : CString}, irccmp name.1 other.1 = 0 → hash name.1 = hash other.1)
    (name : CString) (cptr : Option α) :
    t.hash_find hash name.1 cptr =
      (present.find? fun tmp => irccmp name.1 (t.name tmp).1 = 0).or cptr := by
  have test : (fun tmp => decide (decide (hash (t.name tmp).1 = hash name.1) = true ∧
      decide (irccmp name.1 (t.name tmp).1 = 0) = true)) =
      fun tmp => decide (irccmp name.1 (t.name tmp).1 = 0) := by
    funext tmp
    by_cases same : irccmp name.1 (t.name tmp).1 = 0
    · simp [same, folds same]
    · simp [same]
  unfold hash_find
  rw [holds.list, List.find?_filter, test]
  cases present.find? fun tmp => irccmp name.1 (t.name tmp).1 = 0 <;> rfl

end Holds

/-! ### Every history of a table -/

/-- What the callers do to a table: `add` and `del` use the name that is current. -/
inductive TableCall (α : Type)
  | add (cptr : α)
  | del (cptr : α)
  | name (cptr : α) (name : CString)

namespace TableCall

def rename (cptr : α) (name : CString) : List (TableCall α) := [.del cptr, .name cptr name, .add cptr]

/-- The entries in the table, the last added first. -/
def after (present : List α) : TableCall α → List α
  | .add cptr => cptr :: present
  | .del cptr => present.erase cptr
  | .name _ _ => present

/-- What is in the table is neither added nor named. -/
def allowed (present : List α) : TableCall α → Prop
  | .add cptr => cptr ∉ present
  | .del _ => True
  | .name cptr _ => cptr ∉ present

instance (present : List α) (call : TableCall α) : Decidable (call.allowed present) := by
  cases call <;> unfold allowed <;> infer_instance

end TableCall

def call (hash : Text → Nat) (t : HashTable α) : TableCall α → HashTable α
  | .add cptr => t.add_to_hash_table hash (t.name cptr).1 cptr
  | .del cptr => t.del_from_hash_table hash (t.name cptr).1 cptr
  | .name cptr name => { t with name := Function.update t.name cptr name }

/-- **A call does to the chains what the state of the server has for it.** -/
theorem chains_call (hash : Text → Nat) (t : HashTable α) (c : TableCall α) :
    (t.call hash c).chains =
      match c with
      | .add cptr => t.chains.add (hash (t.name cptr).1) cptr
      | .del cptr => t.chains.del (hash (t.name cptr).1) cptr
      | .name _ _ => t.chains := by
  cases c with
  | add cptr => exact chains_add ..
  | del cptr => exact chains_del ..
  | name cptr name => rfl

/-- The entries in the table after some calls. -/
def present (calls : List (TableCall α)) : List α := calls.foldl TableCall.after []

def Obeys : List α → List (TableCall α) → Prop
  | _, [] => True
  | entries, call :: calls => call.allowed entries ∧ Obeys (call.after entries) calls

instance decidableObeys : (entries : List α) → (calls : List (TableCall α)) →
    Decidable (Obeys entries calls)
  | _, [] => .isTrue trivial
  | entries, call :: calls =>
    have := decidableObeys (call.after entries) calls
    inferInstanceAs (Decidable (call.allowed entries ∧ Obeys (call.after entries) calls))

def run (hash : Text → Nat) (name : α → CString) (calls : List (TableCall α)) : HashTable α :=
  calls.foldl (call hash) (clear name)

theorem Holds.call {hash : Text → Nat} {entries : List α} {t : HashTable α}
    (holds : Holds hash entries t) {call : TableCall α} (allowed : call.allowed entries) :
    Holds hash (call.after entries) (t.call hash call) := by
  cases call with
  | add cptr => exact holds.add allowed
  | del cptr => exact holds.del cptr
  | name cptr name => exact holds.rename allowed name

/-- **Every history that obeys** leaves the entries that it should. -/
theorem Holds.calls {hash : Text → Nat} {entries : List α} {t : HashTable α}
    (holds : Holds hash entries t) {calls : List (TableCall α)} (obeys : Obeys entries calls) :
    Holds hash (calls.foldl TableCall.after entries) (calls.foldl (HashTable.call hash) t) := by
  induction calls generalizing entries t with
  | nil => exact holds
  | cons call calls ih => exact ih (holds.call obeys.1) obeys.2

theorem holds_run (hash : Text → Nat) (name : α → CString) {calls : List (TableCall α)}
    (obeys : Obeys [] calls) : Holds hash (present calls) (run hash name calls) :=
  (Holds.clear hash name).calls obeys

variable {β : Type} [DecidableEq β]

/-- **The two tables are maps up to the case of IRC.** Names that `irccmp` identifies have one
bucket in either table; after every history that obeys, a lookup finds the entry added last among
those with an equal name, and the default without one; `links` counts the chain. -/
theorem run_tables (clientCalls : List (TableCall α)) (channelCalls : List (TableCall β))
    (nicks : α → CString) (chnames : β → CString) (clients : Obeys [] clientCalls)
    (channels : Obeys [] channelCalls) :
    let clientTable := run hashNickName nicks clientCalls
    let channelTable := run hashChannelName chnames channelCalls
    (∀ name other : CString, irccmp name.1 other.1 = 0 →
      hashNickName name.1 = hashNickName other.1 ∧
        hashChannelName name.1 = hashChannelName other.1) ∧
    (∀ (name : CString) (cptr : Option α), clientTable.hash_find_client name.1 cptr =
      ((present clientCalls).find? fun tmp => irccmp name.1 (clientTable.name tmp).1 = 0).or cptr) ∧
    (∀ (name : CString) (chptr : Option β), channelTable.hash_find_channel name.1 chptr =
      ((present channelCalls).find? fun tmp =>
        irccmp name.1 (channelTable.name tmp).1 = 0).or chptr) ∧
    (∀ hashv, (clientTable.table hashv).links = (clientTable.table hashv).list.length) ∧
    ∀ hashv, (channelTable.table hashv).links = (channelTable.table hashv).list.length := by
  have clientsHeld := holds_run hashNickName nicks clients
  have channelsHeld := holds_run hashChannelName chnames channels
  exact ⟨fun _ _ same => ⟨hashNickName_eq same, hashChannelName_eq same⟩,
    clientsHeld.find hashNickName_eq, channelsHeld.find hashChannelName_eq, clientsHeld.links,
    channelsHeld.links⟩

/-- A client that has changed its nick to `x^` is found as `X~`, the channel `#a` as `#A`. -/
theorem run_tables_sample :
    let nick : CString := ⟨"x^".toList, by decide⟩
    let clientTable := run hashNickName (fun _ : Fin 2 => ⟨"foo".toList, by decide⟩)
      ([.add 0, .add 1] ++ TableCall.rename 0 nick)
    let channelTable := run hashChannelName (fun _ : Fin 1 => ⟨"#a".toList, by decide⟩) [.add 0]
    clientTable.hash_find_client "X~".toList none = some 0 ∧
      channelTable.hash_find_channel "#A".toList none = some 0 := by
  have held := run_tables
    ([.add 0, .add 1] ++ TableCall.rename (0 : Fin 2) ⟨"x^".toList, by decide⟩) [.add (0 : Fin 1)]
    (fun _ => ⟨"foo".toList, by decide⟩) (fun _ => ⟨"#a".toList, by decide⟩) (by decide) (by decide)
  exact ⟨(held.2.1 ⟨"X~".toList, by decide⟩ none).trans (by decide),
    (held.2.2.1 ⟨"#A".toList, by decide⟩ none).trans (by decide)⟩

end HashTable

end PtlinkIrcd
