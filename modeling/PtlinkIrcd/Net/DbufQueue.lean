/-
**Queues of buffers.**

What the calls of `dbuf.c` do to one queue while others share the pool.

* `Owns` — **what belongs to a queue**: its chain, apart from the free list and from what others
  own.
* `Owns.grow`, `Owns.setItem`, `Owns.drop` — a buffer at the end, a write to one, and the loss of
  the first one.
* `Owns.put`, `Owns.delete` — the calls do to the chain what `DBuf.put` and `DBuf.delete` do.
* `Packed` — every buffer but the last is written up to its end, every one but the first is unread.
* `Queue` — the two together, for the bytes that the queue stands for.
-/

import PtlinkIrcd.Net.DbufPool

namespace PtlinkIrcd.Dbuf

open Lib (Cell Memory)
open Lib.Memory (Segment)
open Pool

/-- The buffers of a chain and those of others. -/
def linkedWith (chain : List (Nat × DBufBuffer)) (others : Set Nat) : Set Nat :=
  {a | a ∈ chain.map Prod.fst} ∪ others

/-- **What belongs to a queue.** -/
structure Owns (dyn : DBufHeader) (pool : Pool) (chain spare : List (Nat × DBufBuffer))
    (others : Set Nat) (gap : Int) : Prop where
  stocked : Stocked pool spare (linkedWith chain others) gap
  segment : Segment pool.cells dyn.head chain none
  tail : ∀ a, (chain.map Prod.fst).getLast? = some a → dyn.tail = some a
  nodup : (chain.map Prod.fst).Nodup
  apart : ∀ a ∈ others, a ∉ chain.map Prod.fst

variable {dyn : DBufHeader} {pool : Pool} {chain spare front rest : List (Nat × DBufBuffer)}
  {others : Set Nat} {gap : Int} {a d : Nat} {b e : DBufBuffer} {h : BufferLink}

theorem Framed.trans {first second third : Pool} (one : Framed others first second)
    (two : Framed others second third) : Framed others first third :=
  fun a member => (two a member).trans (one a member)

theorem Framed.mono {more : Set Nat} {first second : Pool} (one : Framed more first second)
    (fewer : others ⊆ more) : Framed others first second := fun a member => one a (fewer member)

/-! ### Single steps -/

theorem mem_addresses : d ∈ (front ++ (d, b) :: rest).map Prod.fst :=
  List.mem_map.mpr ⟨(d, b), List.mem_append_right front List.mem_cons_self, rfl⟩

theorem nodup_concat (nodup : (chain.map Prod.fst).Nodup) (out : d ∉ chain.map Prod.fst) :
    ((chain ++ [(d, b)]).map Prod.fst).Nodup := by
  rw [List.map_append, List.nodup_append]
  refine ⟨nodup, List.nodup_singleton d, fun a inside a' last same => out ?_⟩
  obtain rfl : a' = d := List.mem_singleton.mp last
  exact same ▸ inside

theorem Owns.setItem (owns : Owns dyn pool (front ++ (d, b) :: rest) spare others gap)
    (f : DBufBuffer → DBufBuffer) :
    Owns dyn { pool with cells := pool.cells.setItem d f } (front ++ (d, f b) :: rest) spare others
        gap ∧
      Framed others pool { pool with cells := pool.cells.setItem d f } := by
  have member : d ∈ (front ++ (d, b) :: rest).map Prod.fst := mem_addresses
  have places : (front ++ (d, f b) :: rest).map Prod.fst =
      (front ++ (d, b) :: rest).map Prod.fst := by
    rw [List.map_append, List.map_append]
    rfl
  have old : ∀ a, a ≠ d → pool.cells.setItem d f a = pool.cells a :=
    fun a other => Function.update_of_ne other ..
  refine ⟨⟨?_, owns.segment.setItem owns.nodup f, ?_, ?_, ?_⟩, fun a inside => old a ?_⟩
  · unfold linkedWith
    rw [places]
    exact owns.stocked.write (fun a out => old a fun same => out (.inl (same ▸ member)))
      (pool.cells.setItem_eq_none d f)
  · rw [places]
    exact owns.tail
  · rw [places]
    exact owns.nodup
  · rw [places]
    exact owns.apart
  · exact fun same => owns.apart a inside (same ▸ member)

theorem Owns.relength (owns : Owns dyn pool chain spare others gap) (length : Nat) :
    Owns { dyn with length := length } pool chain spare others gap :=
  ⟨owns.stocked, owns.segment, owns.tail, owns.nodup, owns.apart⟩

/-- **The first buffer is given up.** -/
theorem Owns.drop (owns : Owns dyn pool ((d, b) :: rest) spare others gap) {next : Option Nat}
    (cell : pool.cells d = some ⟨b, next⟩) :
    ∃ pool' spare', dbuf_free d pool = some pool' ∧
      Owns { dyn with head := next } pool' rest spare' others (gap - (excess pool - excess pool')) ∧
      Framed others pool pool' ∧ pool'.DBufUsedCount = pool.DBufUsedCount - 1 := by
  obtain ⟨outRest, nodup⟩ : d ∉ rest.map Prod.fst ∧ (rest.map Prod.fst).Nodup :=
    List.nodup_cons.mp owns.nodup
  have outOthers : d ∉ others := fun inside => owns.apart d inside List.mem_cons_self
  have left_ : linkedWith ((d, b) :: rest) others \ {d} = linkedWith rest others := by
    ext a
    by_cases same : a = d
    · subst same
      simpa [linkedWith] using ⟨by simpa using outRest, outOthers⟩
    · simp [linkedWith, same]
  obtain ⟨pool', spare', freed, stocked, frame, fewer⟩ :=
    owns.stocked.release (d := d) (.inl List.mem_cons_self)
  rw [left_] at stocked frame
  obtain ⟨_, next', cell', ahead⟩ := owns.segment
  obtain rfl : next = next' := congrArg Cell.next (Option.some.inj (cell.symm.trans cell'))
  refine ⟨pool', spare', freed, ⟨stocked, ahead.congr fun i member => frame i.1
    (.inl (List.mem_map_of_mem member)), fun a last => owns.tail a ?_, nodup, fun a inside member =>
    owns.apart a inside (List.mem_cons_of_mem _ member)⟩, frame.mono fun _ => .inr, fewer⟩
  rw [List.map_cons, List.getLast?_cons, last]
  rfl

/-- `h` is the link behind the last buffer. -/
def Behind (chain : List (Nat × DBufBuffer)) : BufferLink → Prop
  | .head => chain = []
  | .tail => False
  | .next d => ∃ front b, chain = front ++ [(d, b)]

theorem linkedWith_concat :
    linkedWith (chain ++ [(d, b)]) others = insert d (linkedWith chain others) := by
  ext a
  simp [linkedWith, or_assoc, or_left_comm]

/-- **Another buffer at the end of the chain.** -/
theorem Owns.grow (owns : Owns dyn pool chain spare others gap) (behind : Behind chain h) :
    ∃ d dyn' pool' spare', bufferAt h dyn pool = some (d, dyn', pool') ∧
      Owns dyn' pool' (chain ++ [(d, ⟨0, []⟩)]) spare' others gap ∧ Framed others pool pool' ∧
      dyn'.length = dyn.length ∧ pool.DBufUsedCount ≤ pool'.DBufUsedCount := by
  obtain ⟨d, pool', spare', got, out, cell, stocked, frame, more⟩ := owns.stocked.alloc
  have more : pool.DBufUsedCount ≤ pool'.DBufUsedCount := by omega
  have others_ : others ⊆ linkedWith chain others := fun _ => .inr
  rw [← linkedWith_concat (b := ⟨0, []⟩)] at stocked
  have nodup : ((chain ++ [(d, (⟨0, []⟩ : DBufBuffer))]).map Prod.fst).Nodup :=
    nodup_concat owns.nodup fun inside => out (.inl inside)
  have apart : ∀ a ∈ others, a ∉ (chain ++ [(d, (⟨0, []⟩ : DBufBuffer))]).map Prod.fst := by
    intro a inside member
    rw [List.map_append, List.mem_append] at member
    rcases member with member | last
    · exact owns.apart a inside member
    · obtain rfl : a = d := List.mem_singleton.mp last
      exact out (.inr inside)
  have segment : Segment pool'.cells dyn.head chain none := owns.segment.congr fun i member =>
    frame i.1 (.inl (List.mem_map_of_mem member))
  have tail : ∀ a, ((chain ++ [(d, (⟨0, []⟩ : DBufBuffer))]).map Prod.fst).getLast? = some a →
      some d = some a := by
    intro a last
    rw [List.map_append, List.map_singleton, List.getLast?_concat] at last
    exact last
  cases h with
  | head =>
    obtain rfl : chain = [] := behind
    have none_ : dyn.head = none := owns.segment
    refine ⟨d, { dyn with head := some d, tail := some d }, pool', spare', ?_,
      ⟨stocked, ⟨rfl, none, cell, rfl⟩, tail, nodup, apart⟩, frame.mono others_, rfl, more⟩
    simp only [bufferAt, BufferLink.read, none_, Option.bind_eq_bind, Option.bind_some, got]
    rfl
  | tail => exact behind.elim
  | next last =>
    obtain ⟨front, e, rfl⟩ := behind
    obtain ⟨mid, _, start, next, there, ends⟩ := Segment.append.mp owns.segment
    obtain rfl : next = none := ends
    have member : last ∈ (front ++ [(last, e)]).map Prod.fst := mem_addresses
    have new : d ≠ last := fun same => out (.inl (same ▸ member))
    have old : ∀ a, a ≠ last → pool'.cells.setNext (some last) (some d) a = pool'.cells a :=
      fun a other => Function.update_of_ne other ..
    refine ⟨d, { dyn with tail := some d },
      { pool' with cells := pool'.cells.setNext (some last) (some d) }, spare', ?_,
      ⟨?_, ?_, tail, nodup, apart⟩, fun a inside => ?_, rfl, more⟩
    · have read : (pool.cells last).map Cell.next = some none := by rw [there]; rfl
      simp only [bufferAt, BufferLink.read, read, Option.bind_eq_bind, Option.bind_some, got]
      rfl
    · refine stocked.write (fun a outside => old a fun same => outside ?_)
        (pool'.cells.setNext_eq_none last (some d))
      rw [linkedWith_concat]
      exact .inr (.inl (same ▸ member))
    · exact Segment.append.mpr ⟨some d, segment.redirect owns.nodup _, rfl, none,
        (old d new).trans cell, rfl⟩
    · refine (old a fun same => ?_).trans (frame a (.inr inside))
      exact owns.apart a inside (same ▸ member)

/-! ### `dbuf_put` -/

theorem putLoop_some {fuel : Nat} {buf : Text} (some_ : buf ≠ []) {dyn' : DBufHeader} {pool' : Pool}
    {cell : Cell DBufBuffer} (at_ : bufferAt h dyn pool = some (d, dyn', pool'))
    (found : pool'.cells d = some cell) :
    putLoop (fuel + 1) h buf dyn pool =
      putLoop fuel (.next d)
        (buf.drop (DBUF_SIZE - (cell.item.start + cell.item.bytes.length))) dyn'
        (fill d (buf.take (DBUF_SIZE - (cell.item.start + cell.item.bytes.length))) pool') := by
  rw [putLoop, if_neg some_, at_]
  simp only [Option.bind_eq_bind, Option.bind_some, found]

theorem putLoop_nil {fuel : Nat} : putLoop (fuel + 1) h [] dyn pool = some (dyn, pool) := by
  rw [putLoop, if_pos rfl]

/-- **The loop behind the end of a chain** adds the buffers that the model of lists adds. -/
theorem Owns.putLoop (owns : Owns dyn pool chain spare others gap) (behind : Behind chain h)
    (buf : Text) (fuel steps : Nat) (enough : buf.length < fuel) (enough' : buf.length ≤ steps) :
    ∃ dyn' pool' spare' more, Dbuf.putLoop fuel h buf dyn pool = some (dyn', pool') ∧
      more.map Prod.snd = DBuf.putFrom steps [] buf ∧
      Owns dyn' pool' (chain ++ more) spare' others gap ∧ Framed others pool pool' ∧
      dyn'.length = dyn.length ∧ pool.DBufUsedCount ≤ pool'.DBufUsedCount := by
  induction steps generalizing dyn pool chain spare h buf fuel with
  | zero =>
    obtain rfl : buf = [] := List.length_eq_zero_iff.mp (Nat.le_zero.mp enough')
    obtain ⟨fuel, rfl⟩ : ∃ f, fuel = f + 1 := ⟨fuel - 1, by omega⟩
    exact ⟨dyn, pool, spare, [], putLoop_nil, rfl, by rwa [List.append_nil], fun _ _ => rfl, rfl,
      le_refl _⟩
  | succ steps ih =>
    obtain ⟨fuel, rfl⟩ : ∃ f, fuel = f + 1 := ⟨fuel - 1, by omega⟩
    by_cases none_ : buf = []
    · subst none_
      exact ⟨dyn, pool, spare, [], putLoop_nil, rfl, by rwa [List.append_nil], fun _ _ => rfl, rfl,
        le_refl _⟩
    · have long := List.length_pos_iff.mpr none_
      obtain ⟨d, dyn₁, pool₁, spare₁, at_, owns₁, frame₁, length₁, more₁⟩ := owns.grow behind
      obtain ⟨next, cell⟩ := owns₁.segment.alloc
        (i := (d, ⟨0, []⟩)) (List.mem_append_right chain List.mem_cons_self)
      obtain ⟨owns₂, frame₂⟩ := owns₁.setItem fun db => ⟨db.start, db.bytes ++ buf.take DBUF_SIZE⟩
      have shorter : (buf.drop DBUF_SIZE).length = buf.length - DBUF_SIZE := List.length_drop
      have size : 0 < DBUF_SIZE := by decide
      obtain ⟨dyn', pool', spare', more, run, buffers, owns', frame', length', more'⟩ :=
        ih owns₂ (h := .next d) ⟨chain, _, rfl⟩ (buf.drop DBUF_SIZE) fuel (by omega) (by omega)
      refine ⟨dyn', pool', spare', (d, ⟨0, buf.take DBUF_SIZE⟩) :: more, ?_, ?_, ?_,
        (frame₁.trans frame₂).trans frame', length'.trans length₁, le_trans more₁ more'⟩
      · rw [putLoop_some none_ at_ cell]
        exact run
      · rw [List.map_cons, buffers, DBuf.putFrom, if_neg none_]
        rfl
      · rwa [List.append_assoc] at owns'

/-- The list of buffers that a queue stands for. -/
def listed (dyn : DBufHeader) (chain : List (Nat × DBufBuffer)) : DBuf :=
  ⟨chain.map Prod.snd, dyn.length⟩

/-- **`dbuf_put` does to the chain what it does to a list of buffers.** -/
theorem Owns.put (owns : Owns dyn pool chain spare others gap) {q : Text}
    (holds : (listed dyn chain).Holds q) (buf : Text) :
    ∃ dyn' pool' spare' chain', dbuf_put dyn buf pool = some (dyn', pool') ∧
      listed dyn' chain' = (listed dyn chain).put buf ∧
      Owns dyn' pool' chain' spare' others gap ∧ Framed others pool pool' ∧
      pool.DBufUsedCount ≤ pool'.DBufUsedCount := by
  have owns₀ := owns.relength (dyn.length + buf.length)
  by_cases none_ : dyn.length = 0
  · obtain rfl : chain = [] := by
      have empty : q = [] := List.length_eq_zero_iff.mp (holds.length.symm.trans none_)
      exact List.map_eq_nil_iff.mp (empty ▸ holds).buffers_nil
    obtain ⟨dyn', pool', spare', more, run, buffers, owns', frame, length, used⟩ :=
      owns₀.putLoop (h := .head) rfl buf (buf.length + 2) (buf.length + 1) (by omega) (by omega)
    refine ⟨dyn', pool', spare', more, ?_, ?_, owns', frame, used⟩
    · rw [dbuf_put, if_pos none_]
      exact run
    · unfold listed DBuf.put
      rw [if_pos none_, buffers, length]
      rfl
  · have some_ : chain ≠ [] := fun empty => none_ (by
      have length := holds.length
      rw [← holds.spells, empty] at length
      exact length)
    obtain ⟨front, ⟨d, b⟩, rfl⟩ := (List.eq_nil_or_concat' chain).resolve_left some_
    have listed_ : (listed dyn (front ++ [(d, b)])).put buf =
        ⟨front.map Prod.snd ++ DBuf.putFrom (buf.length + 1) [b] buf, dyn.length + buf.length⟩ := by
      unfold listed DBuf.put
      rw [if_neg none_]
      simp
    rw [listed_]
    by_cases empty : buf = []
    · subst empty
      refine ⟨_, pool, spare, front ++ [(d, b)], ?_, ?_, owns₀, fun _ _ => rfl, le_refl _⟩
      · rw [dbuf_put]
        exact putLoop_nil
      · simp [listed, DBuf.putFrom]
    · have at_ : bufferAt .tail { dyn with length := dyn.length + buf.length } pool =
          some (d, { dyn with length := dyn.length + buf.length }, pool) := by
        have tail : dyn.tail = some d := owns.tail d (by simp)
        simp only [bufferAt, BufferLink.read, tail, Option.bind_eq_bind, Option.bind_some]
      obtain ⟨next, cell⟩ := owns.segment.alloc
        (i := (d, b)) (List.mem_append_right front List.mem_cons_self)
      obtain ⟨owns₁, frame₁⟩ := owns₀.setItem fun db =>
        ⟨db.start, db.bytes ++ buf.take (DBUF_SIZE - (b.start + b.bytes.length))⟩
      have shorter : (buf.drop (DBUF_SIZE - (b.start + b.bytes.length))).length ≤ buf.length := by
        rw [List.length_drop]
        exact Nat.sub_le ..
      obtain ⟨dyn', pool', spare', more, run, buffers, owns', frame', length', used⟩ :=
        owns₁.putLoop (h := .next d) ⟨front, _, rfl⟩
          (buf.drop (DBUF_SIZE - (b.start + b.bytes.length))) (buf.length + 1) buf.length (by omega)
          shorter
      refine ⟨dyn', pool', spare', _, ?_, ?_, owns', frame₁.trans frame', used⟩
      · rw [dbuf_put, if_neg none_, putLoop_some empty at_ cell]
        exact run
      · unfold listed
        rw [length', DBuf.putFrom, if_neg empty, List.map_append, List.map_append, buffers]
        simp

/-! ### `dbuf_delete` -/

theorem Owns.advance (owns : Owns dyn pool ((d, b) :: rest) spare others gap) (chunk : Nat) :
    Owns dyn (Dbuf.advance d chunk pool) ((d, ⟨b.start + chunk, b.bytes.drop chunk⟩) :: rest) spare
        others gap ∧ Framed others pool (Dbuf.advance d chunk pool) :=
  Owns.setItem (show Owns dyn pool ([] ++ (d, b) :: rest) spare others gap from owns) _

theorem advance_cell {next : Option Nat} (cell : pool.cells d = some ⟨b, next⟩) (chunk : Nat) :
    (advance d chunk pool).cells d = some ⟨⟨b.start + chunk, b.bytes.drop chunk⟩, next⟩ := by
  show Function.update pool.cells d _ d = _
  rw [Function.update_self, cell]
  rfl

theorem advance_used (chunk : Nat) :
    (advance d chunk pool).DBufUsedCount = pool.DBufUsedCount := rfl

theorem advance_excess (chunk : Nat) : excess (advance d chunk pool) = excess pool := rfl

theorem deleteLoop_some {fuel length : Nat} (some_ : length ≠ 0) {next : Option Nat}
    (head : dyn.head = some d) (cell : pool.cells d = some ⟨b, next⟩) :
    deleteLoop (fuel + 1) length dyn pool =
      if min b.bytes.length length = b.bytes.length then
        (dbuf_free d (advance d (min b.bytes.length length) pool)).bind fun pool =>
          deleteLoop fuel (length - min b.bytes.length length)
            { dyn with length := dyn.length - min b.bytes.length length, head := next } pool
      else deleteLoop fuel (length - min b.bytes.length length)
        { dyn with length := dyn.length - min b.bytes.length length }
        (advance d (min b.bytes.length length) pool) := by
  rw [deleteLoop, if_neg some_, head]
  simp only [cell, Option.bind_eq_bind, Option.bind_some]

theorem deleteLoop_zero {fuel : Nat} : deleteLoop (fuel + 1) 0 dyn pool = some (dyn, pool) := by
  rw [deleteLoop, if_pos rfl]

/-- **The loop of `dbuf_delete`** leaves the buffers that the model of lists leaves. -/
theorem Owns.deleteLoop (owns : Owns dyn pool chain spare others gap)
    (used : ∀ i ∈ chain, DBuf.Used i.2) (fuel length : Nat) (enough : length < fuel) :
    ∃ dyn' pool' spare' chain', Dbuf.deleteLoop fuel length dyn pool = some (dyn', pool') ∧
      chain'.map Prod.snd = DBuf.deleteFrom (chain.map Prod.snd) length ∧
      Owns dyn' pool' chain' spare' others (gap - (excess pool - excess pool')) ∧
      Framed others pool pool' ∧ pool'.DBufUsedCount ≤ pool.DBufUsedCount ∧
      dyn'.length = dyn.length - min length (DBuf.bytesOf (chain.map Prod.snd)).length := by
  induction chain generalizing dyn pool spare gap fuel length with
  | nil =>
    obtain ⟨fuel, rfl⟩ : ∃ f, fuel = f + 1 := ⟨fuel - 1, by omega⟩
    have none_ : dyn.head = none := owns.segment
    refine ⟨dyn, pool, spare, [], ?_, rfl, by rwa [sub_self, sub_zero], fun _ _ => rfl, le_refl _,
      ?_⟩
    · rw [Dbuf.deleteLoop, none_]
      split <;> rfl
    · simp [DBuf.bytesOf]
  | cons first rest ih =>
    obtain ⟨d, b⟩ := first
    obtain ⟨fuel, rfl⟩ : ∃ f, fuel = f + 1 := ⟨fuel - 1, by omega⟩
    by_cases zero : length = 0
    · subst zero
      refine ⟨dyn, pool, spare, (d, b) :: rest, deleteLoop_zero, ?_, by rwa [sub_self, sub_zero],
        fun _ _ => rfl, le_refl _, ?_⟩
      · rw [List.map_cons, DBuf.deleteFrom, if_pos rfl]
      · simp
    · obtain ⟨head, next, cell, _⟩ := owns.segment
      have long : 0 < b.bytes.length :=
        List.length_pos_iff.mpr (used (d, b) List.mem_cons_self).some_
      obtain ⟨owns₁, frame₁⟩ := owns.advance (min b.bytes.length length)
      have cell₁ := advance_cell cell (min b.bytes.length length)
      rw [deleteLoop_some zero head cell, List.map_cons, DBuf.deleteFrom, if_neg zero,
        DBuf.bytesOf_cons, List.length_append]
      by_cases whole : min b.bytes.length length = b.bytes.length
      · obtain ⟨pool₂, spare₂, freed, owns₂, frame₂, fewer₂⟩ := owns₁.drop cell₁
        obtain ⟨dyn', pool', spare', chain', run, buffers, owns', frame', fewer', length'⟩ :=
          ih (owns₂.relength (dyn.length - min b.bytes.length length))
            (fun i member => used i (List.mem_cons_of_mem _ member)) fuel
            (length - min b.bytes.length length) (by omega)
        rw [advance_excess] at owns'
        rw [advance_used] at fewer₂
        refine ⟨dyn', pool', spare', chain', ?_, ?_, ?_, (frame₁.trans frame₂).trans frame', ?_, ?_⟩
        · rw [if_pos whole]
          exact (congrArg (Option.bind · _) freed).trans run
        · rw [buffers]
          exact (if_pos whole).symm
        · convert owns' using 1
          omega
        · omega
        · rw [length']
          show dyn.length - _ - _ = dyn.length - min length (b.bytes.length + _)
          omega
      · obtain ⟨fuel, rfl⟩ : ∃ f, fuel = f + 1 := ⟨fuel - 1, by omega⟩
        have none_ : length - min b.bytes.length length = 0 := by omega
        refine ⟨{ dyn with length := dyn.length - min b.bytes.length length },
          Dbuf.advance d (min b.bytes.length length) pool, spare,
          (d, ⟨b.start + min b.bytes.length length, b.bytes.drop (min b.bytes.length length)⟩) ::
            rest,
          ?_, ?_, ?_, frame₁, le_refl _, ?_⟩
        · rw [if_neg whole, none_]
          exact deleteLoop_zero
        · exact (if_neg whole).symm
        · rw [advance_excess, sub_self, sub_zero]
          exact owns₁.relength _
        · show dyn.length - _ = dyn.length - min length (b.bytes.length + _)
          omega

/-- **`dbuf_delete` does to the chain what it does to a list of buffers.** -/
theorem Owns.delete (owns : Owns dyn pool chain spare others gap) {q : Text}
    (holds : (listed dyn chain).Holds q) (length : Nat) :
    ∃ dyn' pool' spare' chain', dbuf_delete dyn length pool = some (dyn', pool') ∧
      listed dyn' chain' = (listed dyn chain).delete length ∧
      Owns dyn' pool' chain' spare' others (gap - (excess pool - excess pool')) ∧
      Framed others pool pool' ∧ pool'.DBufUsedCount ≤ pool.DBufUsedCount ∧
      (chain' = [] → dyn'.tail = none) := by
  have used : ∀ i ∈ chain, DBuf.Used i.2 := fun i member =>
    holds.used i.2 (List.mem_map_of_mem member)
  have all : (DBuf.bytesOf (chain.map Prod.snd)).length = dyn.length :=
    (congrArg List.length holds.spells).trans holds.length.symm
  obtain ⟨dyn', pool', spare', chain', run, buffers, owns', frame, fewer, left_⟩ :=
    owns.deleteLoop used (min length dyn.length + 1) (min length dyn.length) (Nat.lt_succ_self _)
  rw [all, Nat.min_eq_left (Nat.min_le_right ..)] at left_
  have called : dbuf_delete dyn length pool =
      some (if dyn'.head.isNone then ⟨none, none, 0⟩ else dyn', pool') := by
    unfold dbuf_delete
    cases last : dyn'.head <;> simp only [run, Option.bind_eq_bind, Option.bind_some, last] <;> rfl
  cases chain' with
  | nil =>
    have none_ : dyn'.head = none := owns'.segment
    rw [none_, if_pos Option.isNone_none] at called
    refine ⟨⟨none, none, 0⟩, pool', spare', [], called, ?_, ?_, frame, fewer, fun _ => rfl⟩
    · unfold listed DBuf.delete
      simp only []
      rw [← buffers]
      rfl
    · exact ⟨owns'.stocked, rfl, fun a last => absurd last (Option.some_ne_none a).symm, owns'.nodup, owns'.apart⟩
  | cons first rest =>
    obtain ⟨head, _⟩ := owns'.segment
    rw [head, Option.isNone_some, if_neg Bool.false_ne_true] at called
    refine ⟨dyn', pool', spare', first :: rest, called, ?_, owns', frame, fewer, fun same =>
      absurd same (List.cons_ne_nil _ _)⟩
    unfold listed DBuf.delete
    simp only []
    rw [← buffers, left_]
    rfl

/-! ### How the buffers are filled -/

/-- Every buffer but the last is written up to its end, and every one but the first is unread. -/
structure Packed (buffers : List DBufBuffer) : Prop where
  written : ∀ b ∈ buffers.dropLast, b.start + b.bytes.length = DBUF_SIZE
  unread : ∀ b ∈ buffers.tail, b.start = 0

theorem Packed.full {front rest : List DBufBuffer} (packed : Packed (front ++ b :: rest))
    (behind : front ≠ []) (before : rest ≠ []) : b.bytes.length = DBUF_SIZE := by
  have written := packed.written b (by
    rw [List.dropLast_append_of_ne_nil (List.cons_ne_nil _ _), List.dropLast_cons_of_ne_nil before]
    exact List.mem_append_right _ List.mem_cons_self)
  have unread := packed.unread b (by
    rw [List.tail_append_of_ne_nil behind]
    exact List.mem_append_right _ List.mem_cons_self)
  omega

theorem Packed.tail {buffers : List DBufBuffer} (packed : Packed (b :: buffers)) :
    Packed buffers where
  written other member := packed.written other (by
    cases buffers with
    | nil => exact nomatch member
    | cons c buffers => exact List.mem_cons_of_mem _ member)
  unread other member := packed.unread other (List.mem_of_mem_tail member)

theorem Packed.nil : Packed [] :=
  ⟨fun _ member => (nomatch member), fun _ member => (nomatch member)⟩

theorem Packed.cons {first : DBufBuffer} {buffers : List DBufBuffer} (packed : Packed buffers)
    (written : buffers ≠ [] → first.start + first.bytes.length = DBUF_SIZE)
    (unread : ∀ b ∈ buffers, b.start = 0) : Packed (first :: buffers) where
  written b member := by
    cases buffers with
    | nil => exact nomatch member
    | cons c rest =>
      rcases List.mem_cons.mp member with rfl | member
      · exact written (List.cons_ne_nil _ _)
      · exact packed.written b member
  unread := unread

theorem putFrom_empty (steps : Nat) : DBuf.putFrom steps [] [] = [] := by
  cases steps <;> rfl

theorem packed_putFrom_nil (steps : Nat) (buf : Text) :
    Packed (DBuf.putFrom steps [] buf) ∧ ∀ b ∈ DBuf.putFrom steps [] buf, b.start = 0 := by
  induction steps generalizing buf with
  | zero => exact ⟨.nil, fun _ member => nomatch member⟩
  | succ steps ih =>
    rw [DBuf.putFrom]
    split
    · exact ⟨.nil, fun _ member => nomatch member⟩
    · obtain ⟨packed, unread⟩ := ih (buf.drop DBUF_SIZE)
      refine ⟨packed.cons (fun some_ => ?_) unread, fun b member => ?_⟩
      · have long : buf.drop DBUF_SIZE ≠ [] := fun empty => some_ (by
          rw [empty, putFrom_empty])
        rw [ne_eq, List.drop_eq_nil_iff, not_le] at long
        show 0 + (buf.take DBUF_SIZE).length = DBUF_SIZE
        rw [List.length_take]
        omega
      · rcases List.mem_cons.mp member with rfl | member
        · rfl
        · exact unread b member

theorem Packed.extend {front more : List DBufBuffer} (packed : Packed (front ++ [b]))
    (same : e.start = b.start) (unread : ∀ c ∈ more, c.start = 0) (ends : Packed (e :: more)) :
    Packed (front ++ e :: more) where
  written c member := by
    rw [List.dropLast_append_of_ne_nil (List.cons_ne_nil _ _)] at member
    rcases List.mem_append.mp member with member | member
    · exact packed.written c (by rwa [List.dropLast_concat])
    · exact ends.written c member
  unread c member := by
    cases front with
    | nil => exact unread c member
    | cons first front =>
      rcases List.mem_append.mp member with member | member
      · exact packed.unread c (List.mem_append_left _ member)
      · rcases List.mem_cons.mp member with rfl | member
        · exact same.trans (packed.unread b (List.mem_append_right _ List.mem_cons_self))
        · exact unread c member

theorem Packed.put {dyn : DBuf} {q : Text} (packed : Packed dyn.buffers) (holds : dyn.Holds q)
    (buf : Text) : Packed (dyn.put buf).buffers := by
  unfold DBuf.put
  simp only []
  by_cases none_ : dyn.length = 0
  · have empty : q = [] := List.length_eq_zero_iff.mp (holds.length.symm.trans none_)
    have nil : dyn.buffers = [] := (show dyn.Holds [] from empty ▸ holds).buffers_nil
    rw [if_pos none_, nil]
    exact (packed_putFrom_nil _ buf).1
  · rw [if_neg none_]
    have some_ : dyn.buffers ≠ [] := fun empty => none_ (by
      have length := holds.length
      rw [← holds.spells, empty] at length
      exact length)
    obtain ⟨front, b, parts⟩ := (List.eq_nil_or_concat' dyn.buffers).resolve_left some_
    rw [parts] at packed ⊢
    rw [List.dropLast_concat, List.getLast?_concat, Option.toList_some, DBuf.putFrom]
    split
    · exact packed
    · obtain ⟨ends, unread⟩ := packed_putFrom_nil buf.length
        (buf.drop (DBUF_SIZE - (b.start + b.bytes.length)))
      refine packed.extend rfl unread (ends.cons (fun more => ?_) unread)
      have long : buf.drop (DBUF_SIZE - (b.start + b.bytes.length)) ≠ [] := fun empty => more (by
        rw [empty, putFrom_empty])
      have fits := (holds.used b (by rw [parts]; exact List.mem_concat_self)).fits
      rw [ne_eq, List.drop_eq_nil_iff, not_le] at long
      show b.start + (b.bytes ++ buf.take (DBUF_SIZE - (b.start + b.bytes.length))).length = _
      rw [List.length_append, List.length_take]
      omega

theorem Packed.deleteFrom {buffers : List DBufBuffer} (packed : Packed buffers) (length : Nat) :
    Packed (DBuf.deleteFrom buffers length) := by
  induction buffers generalizing length with
  | nil => exact packed
  | cons b next ih =>
    rw [DBuf.deleteFrom]
    split
    · exact packed
    · simp only []
      split
      · exact ih packed.tail _
      · refine packed.tail.cons (fun some_ => ?_) packed.unread
        have written := packed.written b (by
          rw [List.dropLast_cons_of_ne_nil some_]
          exact List.mem_cons_self)
        show b.start + min b.bytes.length length +
          (b.bytes.drop (min b.bytes.length length)).length = _
        rw [List.length_drop]
        omega

/-! ### A queue with its bytes -/

/-- **A queue that stands for some bytes.** -/
structure Queue (dyn : DBufHeader) (pool : Pool) (chain spare : List (Nat × DBufBuffer))
    (others : Set Nat) (gap : Int) (q : Text) : Prop
    extends Owns dyn pool chain spare others gap where
  holds : (listed dyn chain).Holds q
  ends : chain = [] → dyn.tail = none
  packed : Packed (chain.map Prod.snd)

/-- What a call makes of a queue: the pool gives buffers back, and has `gap` more than it counts. -/
def Turns (others : Set Nat) (gap : Int) (pool : Pool) (dyn' : DBufHeader) (pool' : Pool)
    (q : Text) : Prop :=
  Framed others pool pool' ∧ ∃ chain spare, Queue dyn' pool' chain spare others
    (gap - (excess pool - excess pool' : Nat)) q

variable {q : Text}

theorem Queue.put (queue : Queue dyn pool chain spare others gap q) (buf : Text) :
    ∃ dyn' pool', dbuf_put dyn buf pool = some (dyn', pool') ∧
      Turns others gap pool dyn' pool' (q ++ buf) := by
  obtain ⟨dyn', pool', spare', chain', called, same, owns, frame, more⟩ :=
    queue.toOwns.put queue.holds buf
  have filled := queue.packed.put queue.holds buf
  have holds := queue.holds.put buf
  have none_ : excess pool - excess pool' = 0 := by
    unfold excess
    omega
  refine ⟨dyn', pool', called, frame, chain', spare', ?_, same ▸ holds, fun empty => ?_, ?_⟩
  · rw [none_]
    simpa using owns
  · -- Nothing was put into an empty queue.
    have spells : DBuf.bytesOf (chain'.map Prod.snd) = q ++ buf := (same ▸ holds).spells
    rw [empty] at spells
    obtain ⟨rfl, rfl⟩ := List.append_eq_nil_iff.mp spells.symm
    have nil : chain = [] := List.map_eq_nil_iff.mp queue.holds.buffers_nil
    have stays := (putLoop_nil (h := if dyn.length = 0 then .head else .tail)).symm.trans called
    rw [← (Prod.mk.inj (Option.some.inj stays)).1]
    exact queue.ends nil
  · exact (congrArg (Packed ·.buffers) same).mpr filled

theorem Queue.delete (queue : Queue dyn pool chain spare others gap q) (length : Nat) :
    ∃ dyn' pool', dbuf_delete dyn length pool = some (dyn', pool') ∧
      Turns others gap pool dyn' pool' (q.drop length) ∧
      pool'.DBufUsedCount ≤ pool.DBufUsedCount := by
  obtain ⟨dyn', pool', spare', chain', called, same, owns, frame, fewer, ends⟩ :=
    queue.toOwns.delete queue.holds length
  have less : excess pool' ≤ excess pool := Int.toNat_le_toNat (by omega)
  refine ⟨dyn', pool', called,
    ⟨frame, chain', spare', ?_, same ▸ queue.holds.delete length, ends, ?_⟩, fewer⟩
  · rwa [Nat.cast_sub less]
  · exact (congrArg (Packed ·.buffers) same).mpr (queue.packed.deleteFrom _)

/-! ### `dbuf_map` and `dbuf_get` -/

/-- **`dbuf_map`** shows bytes at the front, and some where there are any. -/
theorem Queue.map (queue : Queue dyn pool chain spare others gap q) :
    ∃ b, dbuf_map dyn pool = some b ∧ b <+: q ∧ (b = [] → q = []) := by
  have length : dyn.length = q.length := queue.holds.length
  by_cases none_ : dyn.length = 0
  · have empty : q = [] := List.length_eq_zero_iff.mp (length.symm.trans none_)
    exact ⟨[], if_pos none_, List.nil_prefix, fun _ => empty⟩
  · have spells : DBuf.bytesOf (chain.map Prod.snd) = q := queue.holds.spells
    cases chain with
    | nil => exact absurd (length.trans (congrArg List.length spells.symm)) none_
    | cons first rest =>
      obtain ⟨d, b⟩ := first
      obtain ⟨head, next, cell, _⟩ := queue.segment
      have some_ := (queue.holds.used b List.mem_cons_self).some_
      refine ⟨b.bytes, ?_, ⟨DBuf.bytesOf (rest.map Prod.snd), ?_⟩, fun empty => absurd empty some_⟩
      · unfold dbuf_map
        simp only [if_neg none_, head, cell, Option.bind_eq_bind, Option.bind_some]
      · rw [← spells, List.map_cons, DBuf.bytesOf_cons]

theorem Turns.trans {dyn₂ : DBufHeader} {pool₁ pool₂ : Pool} {q₂ : Text}
    (frame₁ : Framed others pool pool₁) (less₁ : pool₁.DBufUsedCount ≤ pool.DBufUsedCount)
    (less₂ : pool₂.DBufUsedCount ≤ pool₁.DBufUsedCount)
    (turns : Turns others (gap - (excess pool - excess pool₁ : Nat)) pool₁ dyn₂ pool₂ q₂) :
    Turns others gap pool dyn₂ pool₂ q₂ := by
  obtain ⟨frame₂, chain, spare, queue⟩ := turns
  refine ⟨frame₁.trans frame₂, chain, spare, ?_⟩
  have first : excess pool₁ ≤ excess pool := Int.toNat_le_toNat (by omega)
  have second : excess pool₂ ≤ excess pool₁ := Int.toNat_le_toNat (by omega)
  convert queue using 1
  omega

/-- **The loop of `dbuf_get`** copies the bytes at the front. -/
theorem Queue.getLoop (queue : Queue dyn pool chain spare others gap q) (fuel length : Nat)
    (enough : length < fuel) (moved : Text) :
    ∃ dyn' pool',
      Dbuf.getLoop fuel length moved dyn pool = some (moved ++ q.take length, dyn', pool') ∧
      Turns others gap pool dyn' pool' (q.drop length) ∧
      pool'.DBufUsedCount ≤ pool.DBufUsedCount := by
  induction fuel generalizing dyn pool chain spare gap q length moved with
  | zero => exact absurd enough (Nat.not_lt_zero _)
  | succ fuel ih =>
    have refl : Turns others gap pool dyn pool q := by
      refine ⟨fun _ _ => rfl, chain, spare, ?_⟩
      rwa [Nat.sub_self, Nat.cast_zero, sub_zero]
    by_cases zero : length = 0
    · subst zero
      refine ⟨dyn, pool, ?_, refl, le_refl _⟩
      rw [Dbuf.getLoop, if_pos rfl, List.take_zero, List.append_nil]
    · obtain ⟨b, mapped, isPrefix, nil⟩ := queue.map
      have length_ : dyn.length = q.length := queue.holds.length
      by_cases none_ : dyn.length = 0
      · obtain rfl : q = [] := List.length_eq_zero_iff.mp (length_.symm.trans none_)
        rw [List.take_nil, List.append_nil, List.drop_nil]
        refine ⟨dyn, pool, ?_, refl, le_refl _⟩
        rw [Dbuf.getLoop, if_neg zero, mapped]
        exact if_pos none_
      · have some_ : 0 < b.length := List.length_pos_iff.mpr fun empty =>
          none_ (length_.trans (congrArg List.length (nil empty)))
        obtain ⟨dyn₁, pool₁, deleted, ⟨frame₁, chain₁, spare₁, queue₁⟩, fewer₁⟩ :=
          queue.delete (min b.length length)
        obtain ⟨dyn', pool', run, turns, fewer⟩ := ih queue₁ (length - min b.length length)
          (by omega) (moved ++ b.take (min b.length length))
        have parts : min b.length length + (length - min b.length length) = length := by omega
        have copied : b.take (min b.length length) = q.take (min b.length length) := by
          obtain ⟨more, rfl⟩ := isPrefix
          rw [List.take_append_of_le_length (Nat.min_le_left ..)]
        have taken : q.take length = b.take (min b.length length) ++
            (q.drop (min b.length length)).take (length - min b.length length) := by
          rw [copied, ← List.take_add, parts]
        have left_ : (q.drop (min b.length length)).drop (length - min b.length length) =
            q.drop length := by rw [List.drop_drop, parts]
        refine ⟨dyn', pool', ?_, left_ ▸ turns.trans frame₁ fewer₁ fewer, le_trans fewer fewer₁⟩
        rw [taken, ← List.append_assoc, ← run, Dbuf.getLoop, if_neg zero, mapped]
        simp only [Option.bind_eq_bind, Option.bind_some, if_neg none_, deleted]

/-- **`dbuf_get`** moves the bytes at the front to the buffer of the caller. -/
theorem Queue.get (queue : Queue dyn pool chain spare others gap q) (length : Nat) :
    ∃ dyn' pool', dbuf_get dyn length pool = some (q.take length, dyn', pool') ∧
      Turns others gap pool dyn' pool' (q.drop length) := by
  obtain ⟨dyn', pool', run, turns, _⟩ := queue.getLoop (length + 1) length (Nat.lt_succ_self _) []
  exact ⟨dyn', pool', run, turns⟩

end PtlinkIrcd.Dbuf
