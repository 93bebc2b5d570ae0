/-
**The buffers of the queues.**

`dbuf.c` with its pointers: all queues take their buffers from one free list, or from the memory.

* `Pool`, `DBufHeader` — the buffers that exist with the free list and the two counters, and a queue
  with its pointers to the first and the last of its buffers.
* `dbuf_init`, `dbuf_put`, `dbuf_map`, `dbuf_delete`, `dbuf_get` — the calls; without a value a
  pointer was followed to no buffer.
* `Stocked` — **what the pool amounts to**: the free list, the linked buffers, and the counters.
* `Stocked.alloc`, `Stocked.release`, `Stocked.write` — what becomes of it.
-/

import Mathlib.Data.Set.Card
import Mathlib.Order.Interval.Finset.Nat
import PtlinkIrcd.Lib.Chains
import PtlinkIrcd.Net.Dbuf

namespace PtlinkIrcd

open Lib (Cell Memory)
open Lib.Memory (Segment)

def INITIAL_DBUFS : Nat := 1000

def BUFFERPOOL : Nat := 9000000 * 4

def DBUF_USUAL_MAX_COUNT : Nat := BUFFERPOOL / DBUF_SIZE

/-- `struct DBuf`. -/
structure DBufHeader where
  head : Option Nat
  tail : Option Nat
  length : Nat

/-- The memory of the buffers, and the variables of `dbuf.c`; `top` is the next address that
`MyMalloc` gives. -/
structure Pool where
  cells : Memory DBufBuffer
  top : Nat
  dbufFreeList : Option Nat
  DBufCount : Int
  DBufUsedCount : Int

namespace Pool

/-! ### Buffers -/

/-- `MyMalloc` of a buffer, with what is written to it next. -/
def malloc (pool : Pool) (cell : Cell DBufBuffer) : Pool :=
  { pool with cells := Function.update pool.cells pool.top (some cell), top := pool.top + 1 }

/-- The loop of `dbuf_init`. -/
def initLoop : Nat → Nat → Pool → Pool
  | 0, current_bp, pool => { pool with cells := pool.cells.setNext (some current_bp) none }
  | i + 1, current_bp, pool =>
    let new_bp := pool.top
    let pool := pool.malloc ⟨⟨0, []⟩, none⟩
    initLoop i new_bp { pool with cells := pool.cells.setNext (some current_bp) (some new_bp) }

/-- Before `dbuf_init`. -/
def blank : Pool := ⟨fun _ => none, 0, none, 0, 0⟩

def dbuf_init : Pool :=
  let pool := { blank.malloc ⟨⟨0, []⟩, none⟩ with dbufFreeList := some 0 }
  { initLoop INITIAL_DBUFS 0 pool with DBufCount := INITIAL_DBUFS }

/-- The first buffer of the free list comes into use; `next` is the second one. -/
def takeFree (db : Nat) (next : Option Nat) (pool : Pool) : Pool :=
  { pool with
    cells := Function.update pool.cells db (some ⟨⟨0, []⟩, none⟩)
    dbufFreeList := next
    DBufUsedCount := pool.DBufUsedCount + 1 }

def takeNew (pool : Pool) : Pool :=
  { pool.malloc ⟨⟨0, []⟩, none⟩ with
    DBufCount := pool.DBufCount + 1
    DBufUsedCount := pool.DBufUsedCount + 1 }

def dbuf_alloc (pool : Pool) : Option (Nat × Pool) :=
  match pool.dbufFreeList with
  | some db => (pool.cells db).map fun cell => (db, pool.takeFree db cell.next)
  | none => some (pool.top, pool.takeNew)

def discard (ptr : Nat) (pool : Pool) : Pool :=
  { pool with cells := pool.cells.free ptr, DBufUsedCount := pool.DBufUsedCount - 1 }

/-- A buffer goes back to the free list. -/
def giveBack (ptr : Nat) (pool : Pool) : Pool :=
  { pool with
    cells := pool.cells.setNext (some ptr) pool.dbufFreeList
    dbufFreeList := some ptr
    DBufUsedCount := pool.DBufUsedCount - 1 }

def dbuf_free (ptr : Nat) (pool : Pool) : Option Pool :=
  (pool.cells ptr).map fun _ =>
    if pool.DBufUsedCount > DBUF_USUAL_MAX_COUNT then pool.discard ptr else pool.giveBack ptr

end Pool

namespace Dbuf

open Pool

/-! ### The calls -/

/-- The pointer that `h` points to in `dbuf_put`. -/
inductive BufferLink where
  | head
  | tail
  | next (d : Nat)

namespace BufferLink

def read (dyn : DBufHeader) (pool : Pool) : BufferLink → Option (Option Nat)
  | head => some dyn.head
  | tail => some dyn.tail
  | next d => (pool.cells d).map Cell.next

def write (d : Nat) (dyn : DBufHeader) (pool : Pool) : BufferLink → DBufHeader × Pool
  | head => ({ dyn with head := some d }, pool)
  | tail => ({ dyn with tail := some d }, pool)
  | next last => (dyn, { pool with cells := pool.cells.setNext (some last) (some d) })

end BufferLink

/-- The buffer at the link, from `dbuf_alloc` where there is none. -/
def bufferAt (h : BufferLink) (dyn : DBufHeader) (pool : Pool) :
    Option (Nat × DBufHeader × Pool) := do
  match ← h.read dyn pool with
  | some d => some (d, dyn, pool)
  | none =>
    let (d, pool) ← dbuf_alloc pool
    some (d, h.write d { dyn with tail := some d } pool)

/-- `memcpy(d->end, buf, chunk); d->end += chunk`. -/
def fill (d : Nat) (part : Text) (pool : Pool) : Pool :=
  { pool with cells := pool.cells.setItem d fun db => ⟨db.start, db.bytes ++ part⟩ }

/-- The loop of `dbuf_put`. -/
def putLoop : Nat → BufferLink → Text → DBufHeader → Pool → Option (DBufHeader × Pool)
  | 0, _, _, _, _ => none
  | fuel + 1, h, buf, dyn, pool =>
    if buf = [] then some (dyn, pool)
    else do
      let (d, dyn, pool) ← bufferAt h dyn pool
      let cell ← pool.cells d
      let chunk := DBUF_SIZE - (cell.item.start + cell.item.bytes.length)
      putLoop fuel (.next d) (buf.drop chunk) dyn (fill d (buf.take chunk) pool)

/-- `dbuf_put`. The tail may be full, and then the first turn of the loop copies nothing. -/
def dbuf_put (dyn : DBufHeader) (buf : Text) (pool : Pool) : Option (DBufHeader × Pool) :=
  putLoop (buf.length + 2) (if dyn.length = 0 then .head else .tail) buf
    { dyn with length := dyn.length + buf.length } pool

/-- `dbuf_map`: the bytes at the pointer it returns. -/
def dbuf_map (dyn : DBufHeader) (pool : Pool) : Option Text :=
  if dyn.length = 0 then some []
  else do
    let head ← dyn.head
    let cell ← pool.cells head
    some cell.item.bytes

/-- `db->start += chunk`. -/
def advance (db : Nat) (chunk : Nat) (pool : Pool) : Pool :=
  { pool with cells := pool.cells.setItem db fun b => ⟨b.start + chunk, b.bytes.drop chunk⟩ }

/-- The loop of `dbuf_delete`. -/
def deleteLoop : Nat → Nat → DBufHeader → Pool → Option (DBufHeader × Pool)
  | 0, _, _, _ => none
  | fuel + 1, length, dyn, pool =>
    if length = 0 then some (dyn, pool)
    else
      match dyn.head with
      | none => some (dyn, pool)
      | some db => do
        let cell ← pool.cells db
        let chunk := min cell.item.bytes.length length
        let dyn := { dyn with length := dyn.length - chunk }
        let pool := advance db chunk pool
        if chunk = cell.item.bytes.length then
          let pool ← dbuf_free db pool
          deleteLoop fuel (length - chunk) { dyn with head := cell.next } pool
        else deleteLoop fuel (length - chunk) dyn pool

def dbuf_delete (dyn : DBufHeader) (length : Nat) (pool : Pool) : Option (DBufHeader × Pool) := do
  let length := min length dyn.length
  let (dyn, pool) ← deleteLoop (length + 1) length dyn pool
  match dyn.head with
  | none => some (⟨none, none, 0⟩, pool)
  | some _ => some (dyn, pool)

/-- The loop of `dbuf_get`; `moved` is what was copied so far. -/
def getLoop : Nat → Nat → Text → DBufHeader → Pool → Option (Text × DBufHeader × Pool)
  | 0, _, _, _, _ => none
  | fuel + 1, length, moved, dyn, pool =>
    if length = 0 then some (moved, dyn, pool)
    else do
      let b ← dbuf_map dyn pool
      if dyn.length = 0 then some (moved, dyn, pool)
      else
        let chunk := min b.length length
        let (dyn, pool) ← dbuf_delete dyn chunk pool
        getLoop fuel (length - chunk) (moved ++ b.take chunk) dyn pool

/-- `dbuf_get`, with the bytes it copies. -/
def dbuf_get (dyn : DBufHeader) (length : Nat) (pool : Pool) :
    Option (Text × DBufHeader × Pool) := getLoop (length + 1) length [] dyn pool

/-! ### The free list and the counters -/

/-- **What the pool amounts to**: the buffers that exist are those on the free list and those that
are linked in queues, `DBufUsedCount` counts the latter, and `DBufCount` is `gap` short of all. -/
structure Stocked (pool : Pool) (spare : List (Nat × DBufBuffer)) (linked : Set Nat) (gap : Int) :
    Prop where
  free : Segment pool.cells pool.dbufFreeList spare none
  nodup : (spare.map Prod.fst).Nodup
  apart : ∀ a ∈ linked, a ∉ spare.map Prod.fst
  owned : ∀ a, pool.cells a ≠ none ↔ a ∈ spare.map Prod.fst ∨ a ∈ linked
  bound : ∀ a, pool.cells a ≠ none → a < pool.top
  used : pool.DBufUsedCount = linked.ncard
  count : (linked.ncard : Int) + spare.length = pool.DBufCount + gap

/-- The cells of others are as they were. -/
def Framed (others : Set Nat) (pool pool' : Pool) : Prop :=
  ∀ a ∈ others, pool'.cells a = pool.cells a

/-- How many of the buffers in use are more than usual. -/
def excess (pool : Pool) : Nat := (pool.DBufUsedCount - DBUF_USUAL_MAX_COUNT).toNat

section Pool

variable {pool pool' : Pool} {spare : List (Nat × DBufBuffer)} {linked : Set Nat} {gap : Int}
  {a d : Nat}

theorem Stocked.finite (stocked : Stocked pool spare linked gap) : linked.Finite :=
  (Set.finite_Iio pool.top).subset fun a member =>
    stocked.bound a ((stocked.owned a).mpr (.inr member))

theorem Stocked.ncard_existing (stocked : Stocked pool spare linked gap) :
    ({a | pool.cells a ≠ none}.ncard : Int) = pool.DBufCount + gap := by
  have parts : {a | pool.cells a ≠ none} = linked ∪ ↑(spare.map Prod.fst).toFinset := by
    ext a
    rw [Set.mem_union, List.coe_toFinset, or_comm]
    exact stocked.owned a
  have disjoint : Disjoint linked ↑(spare.map Prod.fst).toFinset := by
    rw [Set.disjoint_left]
    intro a member
    rw [List.coe_toFinset]
    exact stocked.apart a member
  rw [parts, Set.ncard_union_eq disjoint stocked.finite (Finset.finite_toSet _),
    Set.ncard_coe_finset, List.toFinset_card_of_nodup stocked.nodup, List.length_map,
    ← stocked.count]
  exact Nat.cast_add ..

theorem Stocked.ncard_insert (stocked : Stocked pool spare linked gap) (new : d ∉ linked) :
    ((insert d linked).ncard : Int) = linked.ncard + 1 := by
  rw [Set.ncard_insert_of_notMem new stocked.finite]
  exact Nat.cast_succ _

theorem Framed.update (out : d ∉ linked) {cell : Option (Cell DBufBuffer)}
    (cells : pool'.cells = Function.update pool.cells d cell) : Framed linked pool pool' :=
  fun a member => (congrFun cells a).trans
    (Function.update_of_ne (fun same : a = d => out (same ▸ member)) ..)

theorem Stocked.takeFree {b : DBufBuffer} (stocked : Stocked pool ((d, b) :: spare) linked gap)
    {next : Option Nat} (cell : pool.cells d = some ⟨b, next⟩)
    (rest : Segment pool.cells next spare none) (out : d ∉ linked) :
    Stocked (pool.takeFree d next) spare (insert d linked) gap := by
  have number := stocked.ncard_insert out
  obtain ⟨outSpare, nodup⟩ : d ∉ spare.map Prod.fst ∧ (spare.map Prod.fst).Nodup :=
    List.nodup_cons.mp stocked.nodup
  have old : ∀ a, a ≠ d → (pool.takeFree d next).cells a = pool.cells a :=
    fun a other => Function.update_of_ne other ..
  refine ⟨?_, nodup, fun a member => ?_, fun a => ?_, fun a there => ?_, ?_, ?_⟩
  · exact rest.congr fun i member =>
      old i.1 fun same : i.1 = d => outSpare (same ▸ List.mem_map_of_mem member)
  · rcases member with rfl | member
    · exact outSpare
    · exact fun inside => stocked.apart a member (List.mem_cons_of_mem _ inside)
  · by_cases same : a = d
    · subst same
      simp [Pool.takeFree]
    · rw [old a same, stocked.owned a, Set.mem_insert_iff, List.map_cons, List.mem_cons]
      simp [same]
  · refine stocked.bound a ?_
    by_cases same : a = d
    · rw [same, cell]
      exact nofun
    · rwa [old a same] at there
  · show pool.DBufUsedCount + 1 = _
    rw [number, stocked.used]
  · have count := stocked.count
    rw [List.length_cons] at count
    show _ = pool.DBufCount + gap
    rw [number]
    omega

theorem Stocked.takeNew (stocked : Stocked pool [] linked gap) (out : pool.top ∉ linked) :
    Stocked pool.takeNew [] (insert pool.top linked) gap := by
  have number := stocked.ncard_insert out
  have old : ∀ a, a ≠ pool.top → pool.takeNew.cells a = pool.cells a :=
    fun a other => Function.update_of_ne other ..
  refine ⟨stocked.free, List.nodup_nil, fun a _ => List.not_mem_nil, fun a => ?_,
    fun a there => ?_, ?_, ?_⟩
  · by_cases same : a = pool.top
    · subst same
      simp [Pool.takeNew, malloc]
    · rw [old a same, stocked.owned a, Set.mem_insert_iff]
      simp [same]
  · show a < pool.top + 1
    by_cases same : a = pool.top
    · omega
    · rw [old a same] at there
      exact Nat.lt_succ_of_lt (stocked.bound a there)
  · show pool.DBufUsedCount + 1 = _
    rw [number, stocked.used]
  · have count := stocked.count
    show _ = pool.DBufCount + 1 + gap
    rw [number]
    omega

/-- **`dbuf_alloc`** gives a buffer that no queue has. -/
theorem Stocked.alloc (stocked : Stocked pool spare linked gap) :
    ∃ d pool' spare', dbuf_alloc pool = some (d, pool') ∧ d ∉ linked ∧
      pool'.cells d = some ⟨⟨0, []⟩, none⟩ ∧ Stocked pool' spare' (insert d linked) gap ∧
      Framed linked pool pool' ∧ pool'.DBufUsedCount = pool.DBufUsedCount + 1 := by
  cases spare with
  | nil =>
    have none_ : pool.dbufFreeList = none := stocked.free
    have out : pool.top ∉ linked := fun member =>
      Nat.lt_irrefl _ (stocked.bound _ ((stocked.owned _).mpr (.inr member)))
    refine ⟨pool.top, pool.takeNew, [], ?_, out, Function.update_self .., stocked.takeNew out,
      .update out rfl, rfl⟩
    rw [dbuf_alloc, none_]
  | cons first spare =>
    obtain ⟨d, b⟩ := first
    obtain ⟨head, next, cell, rest⟩ := stocked.free
    have out : d ∉ linked := fun member => stocked.apart d member List.mem_cons_self
    refine ⟨d, pool.takeFree d next, spare, ?_, out, Function.update_self ..,
      stocked.takeFree cell rest out, .update out rfl, rfl⟩
    rw [dbuf_alloc, head]
    show (pool.cells d).map _ = _
    rw [cell]
    rfl

theorem Stocked.ncard_remove (stocked : Stocked pool spare linked gap) (member : d ∈ linked) :
    ((linked \ {d}).ncard : Int) = linked.ncard - 1 := by
  have number := Set.ncard_sdiff_singleton_add_one member stocked.finite
  omega

/-- **`dbuf_free`** of a buffer that was linked. A buffer that is discarded stays in `DBufCount`. -/
theorem Stocked.release (stocked : Stocked pool spare linked gap) (member : d ∈ linked) :
    ∃ pool' spare', dbuf_free d pool = some pool' ∧
      Stocked pool' spare' (linked \ {d}) (gap - (excess pool - excess pool')) ∧
      Framed (linked \ {d}) pool pool' ∧ pool'.DBufUsedCount = pool.DBufUsedCount - 1 := by
  have there := (stocked.owned d).mpr (.inr member)
  obtain ⟨cell, found⟩ := Option.ne_none_iff_exists'.mp there
  have number := stocked.ncard_remove member
  have outSpare := stocked.apart d member
  have out : d ∉ linked \ {d} := fun inside => inside.2 rfl
  have segment : ∀ {cells : Memory DBufBuffer}, (∀ a, a ≠ d → cells a = pool.cells a) →
      Segment cells pool.dbufFreeList spare none := fun old => stocked.free.congr fun i inside =>
    old i.1 fun same : i.1 = d => outSpare (same ▸ List.mem_map_of_mem inside)
  have used := stocked.used
  have count := stocked.count
  by_cases more : pool.DBufUsedCount > DBUF_USUAL_MAX_COUNT
  · refine ⟨pool.discard d, spare, ?_, ?_, .update out rfl, rfl⟩
    · rw [dbuf_free, found]
      exact congrArg some (if_pos more)
    · have old : ∀ a, a ≠ d → (pool.discard d).cells a = pool.cells a :=
        fun a other => Function.update_of_ne other ..
      refine ⟨segment old, stocked.nodup, fun a inside => stocked.apart a inside.1, fun a => ?_,
        fun a there => ?_, ?_, ?_⟩
      · by_cases same : a = d
        · subst same
          refine ⟨fun some_ => absurd (Function.update_self ..) some_, ?_⟩
          exact fun inside => absurd (inside.resolve_left outSpare) out
        · rw [old a same, stocked.owned a]
          simp [same]
      · refine stocked.bound a fun gone => there ?_
        by_cases same : a = d
        · exact (congrArg _ same).trans (Function.update_self ..)
        · rw [old a same, gone]
      · show pool.DBufUsedCount - 1 = _
        omega
      · have fewer : (excess pool : Int) - excess (pool.discard d) = 1 := by
          unfold excess
          show ((pool.DBufUsedCount - DBUF_USUAL_MAX_COUNT).toNat : Int) -
            (pool.DBufUsedCount - 1 - DBUF_USUAL_MAX_COUNT).toNat = 1
          omega
        show _ = pool.DBufCount + _
        omega
  · refine ⟨pool.giveBack d, (d, cell.item) :: spare, ?_, ?_, .update out rfl, rfl⟩
    · rw [dbuf_free, found]
      exact congrArg some (if_neg more)
    · have old : ∀ a, a ≠ d → (pool.giveBack d).cells a = pool.cells a :=
        fun a other => Function.update_of_ne other ..
      have new : (pool.giveBack d).cells d = some ⟨cell.item, pool.dbufFreeList⟩ := by
        show Function.update pool.cells d ((pool.cells d).map _) d = _
        rw [Function.update_self, found]
        rfl
      refine ⟨⟨rfl, _, new, segment old⟩, List.nodup_cons.mpr ⟨outSpare, stocked.nodup⟩,
        fun a inside => ?_, fun a => ?_, fun a there => ?_, ?_, ?_⟩
      · rw [List.map_cons, List.mem_cons, not_or]
        exact ⟨inside.2, stocked.apart a inside.1⟩
      · by_cases same : a = d
        · subst same
          simp [new]
        · rw [old a same, stocked.owned a]
          simp [same]
      · by_cases same : a = d
        · exact same ▸ stocked.bound d ((stocked.owned d).mpr (.inr member))
        · rw [old a same] at there
          exact stocked.bound a there
      · show pool.DBufUsedCount - 1 = _
        omega
      · have same : excess pool = excess (pool.giveBack d) := by
          unfold excess
          show (pool.DBufUsedCount - DBUF_USUAL_MAX_COUNT).toNat =
            (pool.DBufUsedCount - 1 - DBUF_USUAL_MAX_COUNT).toNat
          omega
        rw [List.length_cons]
        show _ = pool.DBufCount + _
        omega

theorem Stocked.write (stocked : Stocked pool spare linked gap) {cells : Memory DBufBuffer}
    (rest : ∀ a, a ∉ linked → cells a = pool.cells a)
    (same : ∀ a, cells a = none ↔ pool.cells a = none) :
    Stocked { pool with cells := cells } spare linked gap where
  free := stocked.free.congr fun i member => rest i.1 fun inside =>
    stocked.apart i.1 inside (List.mem_map_of_mem member)
  nodup := stocked.nodup
  apart := stocked.apart
  owned a := (not_congr (same a)).trans (stocked.owned a)
  bound a there := stocked.bound a ((not_congr (same a)).mp there)
  used := stocked.used
  count := stocked.count

end Pool

end Dbuf

end PtlinkIrcd
