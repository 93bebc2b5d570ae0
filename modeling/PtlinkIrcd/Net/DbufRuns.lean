/-
**Calls on any number of queues.**

The queues of all connections over the one pool of buffers, from `dbuf_init` on.

* `Queues`, `Call`, `run` — the state, the calls of `dbuf.c`, and a sequence of them.
* `Stream` — what a queue is for: a stream of bytes of which the first ones are gone.
* `Sound` — the invariant: every queue owns its chain, and what is linked nowhere is on the free
  list.
* `dbuf_fifo` — **every queue is a stream**.
* `dbuf_accounting` — **how the two counters stand to the buffers**.
-/

import PtlinkIrcd.Net.DbufQueue

set_option linter.unusedSectionVars false

namespace PtlinkIrcd.Dbuf

open Lib (Cell Memory)
open Lib.Memory (Segment)
open Pool

/-- The queues, and the buffers of all of them. -/
structure Queues (ι : Type) where
  dyn : ι → DBufHeader
  pool : Pool

/-- A call on a queue. -/
inductive Call (ι : Type) where
  | put (i : ι) (buf : Text)
  | delete (i : ι) (length : Nat)
  | get (i : ι) (length : Nat)
  | map (i : ι)

/-- A queue and what it stands for: what was put into it so far, and how much of that is gone. -/
structure Stream where
  put : Text
  removed : Nat

namespace Stream

def left_ (x : Stream) : Text := x.put.drop x.removed

def remove (length : Nat) (x : Stream) : Stream :=
  { x with removed := x.removed + min length x.left_.length }

def append (buf : Text) (x : Stream) : Stream := { x with put := x.put ++ buf }

def Sensible (x : Stream) : Prop := x.removed ≤ x.put.length

variable {x : Stream}

theorem left_append (sensible : x.Sensible) (buf : Text) :
    (x.append buf).left_ = x.left_ ++ buf := List.drop_append_of_le_length sensible

theorem left_remove (length : Nat) : (x.remove length).left_ = x.left_.drop length := by
  show x.put.drop (x.removed + min length x.left_.length) = (x.put.drop x.removed).drop length
  rw [← List.drop_drop]
  show x.left_.drop (min length x.left_.length) = x.left_.drop length
  by_cases long : length ≤ x.left_.length
  · rw [Nat.min_eq_left long]
  · rw [List.drop_of_length_le (by omega), List.drop_of_length_le (by omega)]

theorem Sensible.append (sensible : x.Sensible) (buf : Text) : (x.append buf).Sensible := by
  unfold Sensible at *
  show x.removed ≤ (x.put ++ buf).length
  rw [List.length_append]
  omega

theorem Sensible.remove (sensible : x.Sensible) (length : Nat) : (x.remove length).Sensible := by
  have rest : x.left_.length = x.put.length - x.removed := List.length_drop
  unfold Sensible at *
  show x.removed + min length x.left_.length ≤ x.put.length
  omega

end Stream

variable {ι : Type} [DecidableEq ι]

namespace Queues

def set (s : Queues ι) (i : ι) (dyn : DBufHeader) (pool : Pool) : Queues ι :=
  ⟨Function.update s.dyn i dyn, pool⟩

/-- A call, with the bytes that the caller gets. -/
def call (s : Queues ι) : Call ι → Option (Queues ι × Text)
  | .put i buf => (dbuf_put (s.dyn i) buf s.pool).map fun r => (s.set i r.1 r.2, [])
  | .delete i length => (dbuf_delete (s.dyn i) length s.pool).map fun r => (s.set i r.1 r.2, [])
  | .get i length => (dbuf_get (s.dyn i) length s.pool).map fun r => (s.set i r.2.1 r.2.2, r.1)
  | .map i => (dbuf_map (s.dyn i) s.pool).map fun b => (s, b)

def start : Queues ι := ⟨fun _ => ⟨none, none, 0⟩, dbuf_init⟩

end Queues

/-- What a run has come to: the queues, and how many buffers were released while more than the usual
number was in use. -/
structure Run (ι : Type) where
  queues : Queues ι
  surrendered : Nat

def Run.step (r : Run ι) (c : Call ι) : Option (Run ι) :=
  (r.queues.call c).map fun next =>
    ⟨next.1, r.surrendered + (excess r.queues.pool - excess next.1.pool)⟩

def run (calls : List (Call ι)) : Option (Run ι) := calls.foldlM Run.step ⟨.start, 0⟩

/-- What a call does to the stream of a queue. -/
def Call.onStream (i : ι) (x : Stream) : Call ι → Stream
  | .put j buf => if j = i then x.append buf else x
  | .delete j length => if j = i then x.remove length else x
  | .get j length => if j = i then x.remove length else x
  | .map _ => x

def stream (calls : List (Call ι)) (i : ι) : Stream := calls.foldl (Call.onStream i) ⟨[], 0⟩

/-- What a caller gets, by the streams: `dbuf_get` the bytes at the front as far as there are any,
and `dbuf_map` some of them. -/
def Call.Obtains (x : ι → Stream) (obtained : Text) : Call ι → Prop
  | .put _ _ => obtained = []
  | .delete _ _ => obtained = []
  | .get i length => obtained = (x i).left_.take length
  | .map i => obtained <+: (x i).left_ ∧ (obtained = [] → (x i).left_ = [])

/-! ### The invariant -/

/-- What a queue is, apart from the others. -/
structure Stands (cells : Memory DBufBuffer) (dyn : DBufHeader) (chain : List (Nat × DBufBuffer))
    (x : Stream) : Prop where
  segment : Segment cells dyn.head chain none
  tail : ∀ a, (chain.map Prod.fst).getLast? = some a → dyn.tail = some a
  nodup : (chain.map Prod.fst).Nodup
  holds : (listed dyn chain).Holds x.left_
  ends : chain = [] → dyn.tail = none
  packed : Packed (chain.map Prod.snd)
  sensible : x.Sensible

/-- **Every queue owns its chain**, and every other buffer is on the free list. -/
structure Sound (s : Queues ι) (chains : ι → List (Nat × DBufBuffer))
    (spare : List (Nat × DBufBuffer)) (gap : Int) (x : ι → Stream) : Prop where
  stocked : Stocked s.pool spare {a | ∃ i, a ∈ (chains i).map Prod.fst} gap
  each : ∀ i, Stands s.pool.cells (s.dyn i) (chains i) (x i)
  apart : ∀ i j, i ≠ j → ∀ a ∈ (chains i).map Prod.fst, a ∉ (chains j).map Prod.fst

def othersOf (chains : ι → List (Nat × DBufBuffer)) (i : ι) : Set Nat :=
  {a | ∃ j, j ≠ i ∧ a ∈ (chains j).map Prod.fst}

variable {s : Queues ι} {chains : ι → List (Nat × DBufBuffer)} {spare : List (Nat × DBufBuffer)}
  {gap : Int} {x : ι → Stream}

theorem linkedWith_othersOf (i : ι) :
    linkedWith (chains i) (othersOf chains i) = {a | ∃ i, a ∈ (chains i).map Prod.fst} := by
  ext a
  constructor
  · rintro (own | ⟨j, _, member⟩)
    · exact ⟨i, own⟩
    · exact ⟨j, member⟩
  · rintro ⟨j, member⟩
    by_cases same : j = i
    · exact .inl (same ▸ member)
    · exact .inr ⟨j, same, member⟩

theorem Sound.queue (sound : Sound s chains spare gap x) (i : ι) :
    Queue (s.dyn i) s.pool (chains i) spare (othersOf chains i) gap (x i).left_ where
  stocked := by
    rw [linkedWith_othersOf]
    exact sound.stocked
  segment := (sound.each i).segment
  tail := (sound.each i).tail
  nodup := (sound.each i).nodup
  apart := fun _ ⟨j, other, member⟩ => sound.apart j i other _ member
  holds := (sound.each i).holds
  ends := (sound.each i).ends
  packed := (sound.each i).packed

theorem othersOf_update (i : ι) (chain : List (Nat × DBufBuffer)) :
    othersOf (Function.update chains i chain) i = othersOf chains i := by
  ext a
  refine exists_congr fun j => and_congr_right fun other => ?_
  rw [Function.update_of_ne other]

/-- **A call on one queue** leaves the others as they are. -/
theorem Sound.turn (sound : Sound s chains spare gap x) {i : ι} {dyn' : DBufHeader} {pool' : Pool}
    {y : Stream} (turns : Turns (othersOf chains i) gap s.pool dyn' pool' y.left_)
    (sensible : y.Sensible) :
    ∃ chains' spare', Sound (s.set i dyn' pool') chains' spare'
      (gap - (excess s.pool - excess pool' : Nat)) (Function.update x i y) := by
  obtain ⟨frame, chain, spare', queue⟩ := turns
  have there : ∀ j, j ≠ i → (Function.update chains i chain) j = chains j :=
    fun j other => Function.update_of_ne other ..
  refine ⟨Function.update chains i chain, spare', ?_, fun j => ?_, fun j k other a member => ?_⟩
  · rw [← linkedWith_othersOf i, Function.update_self, othersOf_update]
    exact queue.stocked
  · show Stands pool'.cells (Function.update s.dyn i dyn' j) _ _
    by_cases same : j = i
    · subst same
      rw [Function.update_self, Function.update_self, Function.update_self]
      exact ⟨queue.segment, queue.tail, queue.nodup, queue.holds, queue.ends, queue.packed,
        sensible⟩
    · rw [there j same, Function.update_of_ne same, Function.update_of_ne same]
      have segment := (sound.each j).segment.congr fun item member =>
        frame item.1 ⟨j, same, List.mem_map_of_mem member⟩
      exact { sound.each j with segment := segment }
  · by_cases same : j = i
    · subst same
      rw [Function.update_self] at member
      rw [there k other.symm]
      exact fun inside => queue.apart a ⟨k, other.symm, inside⟩ member
    · rw [there j same] at member
      by_cases same' : k = i
      · subst same'
        rw [Function.update_self]
        exact queue.apart a ⟨j, same, member⟩
      · rw [there k same']
        exact sound.apart j k other a member

theorem update_stream (i : ι) (f : Stream → Stream) :
    Function.update x i (f (x i)) = fun j => if i = j then f (x j) else x j := by
  funext j
  by_cases same : j = i
  · subst same
    rw [Function.update_self, if_pos rfl]
  · rw [Function.update_of_ne same, if_neg fun same' => same same'.symm]

/-- **Every call succeeds**, gives what the streams give, and keeps the invariant. -/
theorem Sound.call (sound : Sound s chains spare gap x) (c : Call ι) :
    ∃ s' obtained chains' spare', s.call c = some (s', obtained) ∧ c.Obtains x obtained ∧
      Sound s' chains' spare' (gap - (excess s.pool - excess s'.pool : Nat))
        (fun i => c.onStream i (x i)) := by
  cases c with
  | put i buf =>
    obtain ⟨dyn', pool', called, turns⟩ := (sound.queue i).put buf
    rw [← Stream.left_append (sound.each i).sensible] at turns
    obtain ⟨chains', spare', next⟩ := sound.turn turns ((sound.each i).sensible.append buf)
    refine ⟨s.set i dyn' pool', [], chains', spare', ?_, rfl, ?_⟩
    · rw [Queues.call, called]
      rfl
    · rwa [update_stream i (Stream.append buf)] at next
  | delete i length =>
    obtain ⟨dyn', pool', called, turns, _⟩ := (sound.queue i).delete length
    rw [← Stream.left_remove] at turns
    obtain ⟨chains', spare', next⟩ := sound.turn turns ((sound.each i).sensible.remove length)
    refine ⟨s.set i dyn' pool', [], chains', spare', ?_, rfl, ?_⟩
    · rw [Queues.call, called]
      rfl
    · rwa [update_stream i (Stream.remove length)] at next
  | get i length =>
    obtain ⟨dyn', pool', called, turns⟩ := (sound.queue i).get length
    rw [← Stream.left_remove] at turns
    obtain ⟨chains', spare', next⟩ := sound.turn turns ((sound.each i).sensible.remove length)
    refine ⟨s.set i dyn' pool', (x i).left_.take length, chains', spare', ?_, rfl, ?_⟩
    · rw [Queues.call, called]
      rfl
    · rwa [update_stream i (Stream.remove length)] at next
  | map i =>
    obtain ⟨b, mapped, shown⟩ := (sound.queue i).map
    refine ⟨s, b, chains, spare, ?_, shown, ?_⟩
    · rw [Queues.call, mapped]
      rfl
    · rw [Nat.sub_self, Nat.cast_zero, sub_zero]
      exact sound

/-! ### The start -/

theorem Stocked.behind {pool : Pool} {front : List (Nat × DBufBuffer)} {current_bp : Nat}
    {b : DBufBuffer} (stocked : Stocked pool (front ++ [(current_bp, b)]) ∅ gap) :
    Stocked { pool.malloc ⟨⟨0, []⟩, none⟩ with
        cells := (pool.malloc ⟨⟨0, []⟩, none⟩).cells.setNext (some current_bp) (some pool.top) }
      (front ++ [(current_bp, b)] ++ [(pool.top, ⟨0, []⟩)]) ∅ (gap + 1) := by
  have out : pool.top ∉ (front ++ [(current_bp, b)]).map Prod.fst := fun member =>
    Nat.lt_irrefl _ (stocked.bound _ ((stocked.owned _).mpr (.inl member)))
  have last : current_bp ∈ (front ++ [(current_bp, b)]).map Prod.fst := mem_addresses
  have new : pool.top ≠ current_bp := fun same => out (same ▸ last)
  have old : ∀ a, a ≠ pool.top → (pool.malloc ⟨⟨0, []⟩, none⟩).cells a = pool.cells a :=
    fun a other => Function.update_of_ne other ..
  have linked : ∀ a, a ≠ current_bp → (pool.malloc ⟨⟨0, []⟩, none⟩).cells.setNext (some current_bp)
      (some pool.top) a = (pool.malloc ⟨⟨0, []⟩, none⟩).cells a :=
    fun a other => Function.update_of_ne other ..
  have same := (pool.malloc ⟨⟨0, []⟩, none⟩).cells.setNext_eq_none current_bp (some pool.top)
  have fresh : (pool.malloc ⟨⟨0, []⟩, none⟩).cells pool.top = some ⟨⟨0, []⟩, none⟩ :=
    Function.update_self ..
  refine ⟨?_, ?_, fun a member => (nomatch member), fun a => ?_, fun a there => ?_, stocked.used,
    ?_⟩
  · have segment := stocked.free.congr fun i member => old i.1 fun same : i.1 = pool.top =>
      out (same ▸ List.mem_map_of_mem member)
    exact Segment.append.mpr ⟨some pool.top, segment.redirect stocked.nodup _, rfl, none,
      (linked _ new).trans fresh, rfl⟩
  · exact nodup_concat stocked.nodup out
  · rw [ne_eq, same a, List.map_append, List.mem_append]
    by_cases here : a = pool.top
    · subst here
      simp [fresh]
    · rw [old a here]
      simpa [here] using stocked.owned a
  · show a < pool.top + 1
    by_cases here : a = pool.top
    · omega
    · rw [ne_eq, same a, old a here] at there
      exact Nat.lt_succ_of_lt (stocked.bound a there)
  · have count := stocked.count
    show ((∅ : Set Nat).ncard : Int) + (_ ++ [_]).length = pool.DBufCount + (gap + 1)
    rw [List.length_append, List.length_singleton]
    omega

/-- The loop of `dbuf_init` puts buffers behind the last one of the free list. -/
theorem Stocked.initLoop {pool : Pool} {front : List (Nat × DBufBuffer)} {current_bp : Nat}
    {b : DBufBuffer} (stocked : Stocked pool (front ++ [(current_bp, b)]) ∅ gap) (i : Nat) :
    ∃ spare, Stocked (Pool.initLoop i current_bp pool) spare ∅ (gap + i) ∧
      (Pool.initLoop i current_bp pool).DBufCount = pool.DBufCount := by
  induction i generalizing pool front current_bp b gap with
  | zero =>
    refine ⟨front ++ [(current_bp, b)], ?_, rfl⟩
    have same := pool.cells.setNext_eq_none current_bp none
    rw [Nat.cast_zero, add_zero]
    exact ⟨stocked.free.redirect stocked.nodup none, stocked.nodup, stocked.apart,
      fun a => (not_congr (same a)).trans (stocked.owned a),
      fun a there => stocked.bound a ((not_congr (same a)).mp there), stocked.used, stocked.count⟩
  | succ i ih =>
    obtain ⟨spare, next, count⟩ := ih stocked.behind
    refine ⟨spare, ?_, count⟩
    have gap_ : gap + (i + 1 : Nat) = gap + 1 + i := by
      push_cast
      omega
    rw [gap_]
    exact next

theorem stocked_first : Stocked { blank.malloc ⟨⟨0, []⟩, none⟩ with dbufFreeList := some 0 }
    ([] ++ [(0, (⟨0, []⟩ : DBufBuffer))]) ∅ 1 := by
  refine ⟨⟨rfl, none, rfl, rfl⟩, List.nodup_singleton 0, fun a member => (nomatch member),
    fun a => ?_, fun a there => ?_, ?_, ?_⟩
  · by_cases same : a = 0
    · subst same
      exact ⟨fun _ => .inl List.mem_cons_self, fun _ => nofun⟩
    · simp [malloc, blank, same]
  · by_cases same : a = 0
    · subst same
      exact Nat.zero_lt_one
    · simp [malloc, blank, same] at there
  · simp [malloc, blank]
  · simp [malloc, blank]

/-- **`dbuf_init`** makes one buffer more than it counts. -/
theorem stocked_dbuf_init : ∃ spare, Stocked dbuf_init spare ∅ 1 := by
  unfold dbuf_init
  generalize INITIAL_DBUFS = initial
  obtain ⟨spare, stocked, count⟩ := stocked_first.initLoop initial
  refine ⟨spare, stocked.free, stocked.nodup, stocked.apart, stocked.owned, stocked.bound,
    stocked.used, ?_⟩
  have total := stocked.count
  rw [count] at total
  rw [total]
  show (0 : Int) + (1 + initial) = initial + 1
  omega

/-! ### Runs -/

theorem sound_start (ι : Type) :
    ∃ spare, Sound (.start : Queues ι) (fun _ => []) spare 1 fun _ => ⟨[], 0⟩ := by
  obtain ⟨spare, stocked⟩ := stocked_dbuf_init
  have nothing : {a | ∃ i : ι, a ∈ (([] : List (Nat × DBufBuffer))).map Prod.fst} = ∅ := by
    ext a
    simp
  refine ⟨spare, nothing.symm ▸ stocked, fun i => ?_, fun i j _ a member => (nomatch member)⟩
  exact ⟨rfl, fun a last => (nomatch last), List.nodup_nil, .empty, fun _ => rfl, .nil,
    Nat.le_refl 0⟩

theorem stream_concat (calls : List (Call ι)) (c : Call ι) :
    stream (calls ++ [c]) = fun i => c.onStream i (stream calls i) := by
  funext i
  exact List.foldl_concat ..

/-- **Every sequence of calls succeeds and keeps the invariant.** -/
theorem sound_run (calls : List (Call ι)) : ∃ r chains spare, run calls = some r ∧
    Sound r.queues chains spare (1 - r.surrendered) (stream calls) := by
  induction calls using List.reverseRecOn with
  | nil =>
    obtain ⟨spare, sound⟩ := sound_start ι
    exact ⟨⟨.start, 0⟩, _, spare, rfl, sound⟩
  | append_singleton calls c ih =>
    obtain ⟨r, chains, spare, ran, sound⟩ := ih
    obtain ⟨s', obtained, chains', spare', called, _, next⟩ := sound.call c
    refine ⟨⟨s', r.surrendered + (excess r.queues.pool - excess s'.pool)⟩, chains', spare', ?_, ?_⟩
    · rw [run, List.foldlM_append]
      show (run calls).bind _ = _
      rw [ran]
      show Run.step r c >>= _ = _
      rw [Run.step, called]
      rfl
    · rw [stream_concat]
      have gap_ : (1 : Int) - r.surrendered - (excess r.queues.pool - excess s'.pool : Nat) =
          1 - (r.surrendered + (excess r.queues.pool - excess s'.pool) : Nat) := by
        push_cast
        omega
      rw [← gap_]
      exact next

/-! ### Queues are streams -/

/-- **A queue that is a stream**: its chain holds what is left, every buffer between others is full,
and there is a first and a last buffer exactly where bytes are left. -/
structure IsStream (s : Queues ι) (i : ι) (x : Stream) : Prop where
  chain : ∃ chain, Segment s.pool.cells (s.dyn i).head chain none ∧
    (s.dyn i).tail = chain.getLast?.map Prod.fst ∧ DBuf.bytesOf (chain.map Prod.snd) = x.left_ ∧
    ∀ front b rest, chain.map Prod.snd = front ++ b :: rest → front ≠ [] → rest ≠ [] →
      b.bytes.length = DBUF_SIZE
  length : ((s.dyn i).length : Int) = x.put.length - x.removed
  head : (s.dyn i).head = none ↔ (s.dyn i).length = 0
  tail : (s.dyn i).tail = none ↔ (s.dyn i).length = 0

theorem Stands.isStream (i : ι) {y : Stream} {chain : List (Nat × DBufBuffer)}
    (stands : Stands s.pool.cells (s.dyn i) chain y) : IsStream s i y := by
  have length : (s.dyn i).length = y.left_.length := stands.holds.length
  have rest : y.left_.length = y.put.length - y.removed := List.length_drop
  have sensible : y.removed ≤ y.put.length := stands.sensible
  have tail : (s.dyn i).tail = chain.getLast?.map Prod.fst := by
    cases last : (chain.map Prod.fst).getLast? with
    | none =>
      have nil : chain = [] := List.map_eq_nil_iff.mp (List.getLast?_eq_none_iff.mp last)
      rw [stands.ends nil, nil]
      rfl
    | some a => rw [stands.tail a last, ← last, List.getLast?_map]
  have nil : (s.dyn i).length = 0 ↔ chain = [] := by
    refine ⟨fun zero => ?_, fun nil => ?_⟩
    · have empty : y.left_ = [] := List.length_eq_zero_iff.mp (length.symm.trans zero)
      exact List.map_eq_nil_iff.mp (empty ▸ stands.holds).buffers_nil
    · have spells : DBuf.bytesOf (chain.map Prod.snd) = y.left_ := stands.holds.spells
      rw [length, ← spells, nil]
      rfl
  refine ⟨⟨chain, stands.segment, tail, stands.holds.spells, fun front b rest parts behind before =>
    (parts ▸ stands.packed).full behind before⟩, by omega, ?_, ?_⟩
  · rw [nil, stands.segment.start, Option.map_eq_none_iff, List.head?_eq_none_iff]
  · rw [nil, tail, Option.map_eq_none_iff, List.getLast?_eq_none_iff]

/-- **A queue is a stream of bytes**, whatever is called on it and on others: every call succeeds,
and what it gives are the bytes that were put, in their order. -/
theorem dbuf_fifo (calls : List (Call ι)) : ∃ r, run calls = some r ∧
    (∀ i, IsStream r.queues i (stream calls i)) ∧
    ∀ c : Call ι, ∃ s' obtained, r.queues.call c = some (s', obtained) ∧
      c.Obtains (stream calls) obtained := by
  obtain ⟨r, chains, spare, ran, sound⟩ := sound_run calls
  refine ⟨r, ran, fun i => (sound.each i).isStream, fun c => ?_⟩
  obtain ⟨s', obtained, _, _, called, gives, _⟩ := sound.call c
  exact ⟨s', obtained, called, gives⟩

/-! ### The counters -/

/-- The buffers that are linked in queues. -/
def Queues.linked (s : Queues ι) : Set Nat :=
  {a | ∃ i chain, Segment s.pool.cells (s.dyn i).head chain none ∧ a ∈ chain.map Prod.fst}

def Queues.existing (s : Queues ι) : Set Nat := {a | s.pool.cells a ≠ none}

theorem Sound.linked_eq (sound : Sound s chains spare gap x) :
    s.linked = {a | ∃ i, a ∈ (chains i).map Prod.fst} := by
  ext a
  constructor
  · rintro ⟨i, chain, segment, member⟩
    obtain rfl := segment.unique (sound.each i).segment
    exact ⟨i, member⟩
  · rintro ⟨i, member⟩
    exact ⟨i, chains i, (sound.each i).segment, member⟩

/-- **How the counters stand to the buffers.** -/
theorem Sound.counters (sound : Sound s chains spare gap x) :
    s.pool.DBufUsedCount = s.linked.ncard ∧ (s.existing.ncard : Int) = s.pool.DBufCount + gap := by
  rw [sound.linked_eq]
  exact ⟨sound.stocked.used, sound.stocked.ncard_existing⟩

/-- The counters are exact. -/
structure Queues.Counted (s : Queues ι) : Prop where
  used : s.pool.DBufUsedCount = s.linked.ncard
  count : s.pool.DBufCount = s.existing.ncard

/-- **The counters are exact** in the states in which exactly one buffer was discarded since the
start: `dbuf_init` makes one more than it counts, and `dbuf_free` does not count the buffers that
it discards. -/
theorem dbuf_accounting_iff (calls : List (Call ι)) : ∃ r, run calls = some r ∧
    (r.queues.Counted ↔ r.surrendered = 1) := by
  obtain ⟨r, chains, spare, ran, sound⟩ := sound_run calls
  obtain ⟨used, existing⟩ := sound.counters
  refine ⟨r, ran, fun counted => ?_, fun once => ⟨used, ?_⟩⟩
  · have count := counted.count
    omega
  · omega

/-- Right after `dbuf_init` there is one buffer more than `DBufCount`. -/
theorem not_dbuf_accounting : ¬ ∀ (calls : List (Call Nat)) (r : Run Nat), run calls = some r →
    r.queues.Counted := by
  intro always
  obtain ⟨spare, sound⟩ := sound_start Nat
  have same : (.start : Queues Nat).pool.DBufCount = (.start : Queues Nat).pool.DBufCount + 1 :=
    (always [] ⟨.start, 0⟩ rfl).count.trans sound.counters.2
  omega

end PtlinkIrcd.Dbuf
