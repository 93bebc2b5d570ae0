/-
**How many clients an address has.**

The entries of `s_conf.c` that count the local clients of an address, in hash chains and on a free list:
`clear_ip_hash_table`, `find_or_add_ip`, `attach_iline` and `remove_one_ip`, with the clients that come
and go.

* `IpHashTable` — the chains, the free list, and the block of entries; without a value the free list ran out,
  or a pointer led to no entry.
* `IpServer` — the table with the local clients; `IpEvent` — what happens to them.
* `Counted` — the table counts as it should; `Counted.attach`, `Counted.remove` — it goes on to.
* `ipServer_counts` — **in every run each address has one entry at most, which counts its clients, and
  chains and free list have all entries**; the free list does not run out, and `attach_iline` compares
  the true number.
-/

import Mathlib.Algebra.BigOperators.Group.Finset.Piecewise
import Mathlib.Data.Finset.Card
import PtlinkIrcd.Lib.Arena

set_option linter.unusedSectionVars false

namespace PtlinkIrcd

open Lib (Memory Cell)
open Lib.Memory (Segment Chained places exists_places_move setNext_eq_update)

def HARD_FDLIMIT_ : Nat := 600

def HARD_FDLIMIT : Nat := HARD_FDLIMIT_ - 10

def MAXCONNECTIONS : Nat := HARD_FDLIMIT

def IP_HASH_SIZE : Nat := 0x1000

/-! ### The table -/

/-- An IPv4 address in the order of the network. -/
abbrev InAddr := BitVec 32

/-- `IP_ENTRY`, but for its pointer. -/
structure IpEntry where
  ip : InAddr
  count : Int
deriving DecidableEq

/-- `ntohl`, where the last byte comes first. -/
def ntohl (ip : InAddr) : InAddr :=
  (ip <<< 24) ||| ((ip &&& 0xff00) <<< 8) ||| ((ip >>> 8) &&& 0xff00) ||| (ip >>> 24)

/-- `hash_ip`; the last bits of the sum are the same in any `unsigned long`. -/
def hash_ip (ip : InAddr) : Nat :=
  let ip := (ntohl ip).setWidth 64
  (((ip >>> 12) + ip) &&& BitVec.ofNat 64 (IP_HASH_SIZE - 1)).toNat

/-- `ip_hash_table` and `free_ip_entries`, with the entries. -/
structure IpHashTable where
  cells : Memory IpEntry
  ip_hash_table : Nat → Option Nat
  free_ip_entries : Option Nat

namespace IpHashTable

/-- The loop of `clear_ip_hash_table`, with `n` entries left to link behind `last`. -/
def clearLoop : Nat → Nat → Memory IpEntry → Memory IpEntry
  | 0, _, m => m
  | n + 1, last, m => clearLoop n (last + 1) ((m.setNext (some last) (some (last + 1))).setNext (some (last + 1)) none)

/-- `clear_ip_hash_table`; `garbage` is what the block holds that `MyMalloc` gives. -/
def clear_ip_hash_table (garbage : Nat → Cell IpEntry) : IpHashTable where
  cells := clearLoop (MAXCONNECTIONS - 1) 0 fun a => if a < MAXCONNECTIONS then some (garbage a) else none
  ip_hash_table := fun _ => none
  free_ip_entries := some 0

/-- The walk along a chain to the entry of an address, with the entry before it. -/
def walk (cells : Memory IpEntry) (ip_in : InAddr) : Nat → Option Nat → Option Nat → Option (Option Nat × Nat)
  | 0, _, _ => none
  | fuel + 1, last_ptr, ptr =>
    match ptr with
    | none => none
    | some a =>
      match cells a with
      | none => none
      | some cell => if cell.item.ip = ip_in then some (last_ptr, a) else walk cells ip_in fuel (some a) cell.next

/-- The walk of both functions; a chain has no more entries than there are. -/
def entryOf (t : IpHashTable) (ip_in : InAddr) : Option (Option Nat × Nat) :=
  let first := t.ip_hash_table (hash_ip ip_in)
  walk t.cells ip_in MAXCONNECTIONS first first

def find_or_add_ip (t : IpHashTable) (ip_in : InAddr) : Option (IpHashTable × Nat) :=
  let hash_index := hash_ip ip_in
  match t.entryOf ip_in with
  | some (_, ptr) => some (t, ptr)
  | none =>
    match t.ip_hash_table hash_index with
    | some ptr =>
      t.free_ip_entries.bind fun newptr =>
        (t.cells newptr).map fun cell =>
          ({ cells := Function.update t.cells newptr (some ⟨⟨ip_in, 0⟩, some ptr⟩)
             ip_hash_table := Function.update t.ip_hash_table hash_index (some newptr)
             free_ip_entries := cell.next }, newptr)
    | none =>
      t.free_ip_entries.bind fun ptr =>
        (t.cells ptr).map fun cell =>
          ({ cells := Function.update t.cells ptr (some ⟨⟨ip_in, 0⟩, none⟩)
             ip_hash_table := Function.update t.ip_hash_table hash_index (some ptr)
             free_ip_entries := cell.next }, ptr)

/-- Take an entry out of its chain and put it on the free list. -/
def release (t : IpHashTable) (hash_index : Nat) (last_ptr : Option Nat) (ptr : Nat) (next : Option Nat) :
    IpHashTable :=
  let t :=
    if t.ip_hash_table hash_index = some ptr then
      { t with ip_hash_table := Function.update t.ip_hash_table hash_index next }
    else { t with cells := t.cells.setNext last_ptr next }
  { t with cells := t.cells.setNext (some ptr) t.free_ip_entries, free_ip_entries := some ptr }

def remove_one_ip (t : IpHashTable) (ip_in : InAddr) : Option IpHashTable :=
  match t.entryOf ip_in with
  | none => some t
  | some (last_ptr, ptr) =>
    (t.cells ptr).map fun cell =>
      let count := if cell.item.count ≠ 0 then cell.item.count - 1 else cell.item.count
      let t := { t with cells := t.cells.setItem ptr fun entry => { entry with count := count } }
      if count = 0 then t.release (hash_ip ip_in) last_ptr ptr cell.next else t

end IpHashTable

/-- What `attach_iline` reads of an I-line: `ConfConFreq` and `IsConfFlined`. -/
structure Iline where
  conFreq : Int
  flined : Bool

/-- `attach_iline` before `attach_conf`, for a client with an address: whether it refuses. -/
def attach_iline (t : IpHashTable) (ip : InAddr) (aconf : Iline) : Option (IpHashTable × Bool) :=
  (t.find_or_add_ip ip).bind fun found =>
    let t :=
      { found.1 with cells := found.1.cells.setItem found.2 fun entry => { entry with count := entry.count + 1 } }
    (t.cells found.2).map fun cell =>
      (t, aconf.conFreq != 0 && decide (aconf.conFreq < cell.item.count) && !aconf.flined)

/-! ### The clients -/

/-- A client in a slot of `local`: `iphash` is `FLAGS_IPHASH`, and `unknown` its status before it is
registered. -/
structure IpClient where
  ip : InAddr
  iphash : Bool
  unknown : Bool
deriving DecidableEq

/-- The table and the slots of `local`. -/
structure IpServer where
  table : IpHashTable
  local_ : Nat → Option IpClient

namespace IpServer

/-- The server after `clear_ip_hash_table`. -/
def start (garbage : Nat → Cell IpEntry) : IpServer := ⟨.clear_ip_hash_table garbage, fun _ => none⟩

/-- `accept_connection`, where the system gives a descriptor that is not in use. -/
def accept_connection (s : IpServer) (fd : Nat) (ip : InAddr) : IpServer :=
  if MAXCONNECTIONS - 10 < fd ∨ s.local_ fd ≠ none then s
  else { s with local_ := Function.update s.local_ fd (some ⟨ip, false, true⟩) }

/-- `do_user` of a client from a web server, which says the address of its own client. -/
def do_user (s : IpServer) (fd : Nat) (ip : InAddr) : IpServer :=
  match s.local_ fd with
  | some c => if c.unknown then { s with local_ := Function.update s.local_ fd (some { c with ip := ip }) } else s
  | none => s

/-- `m_server`: a client that is a server from then on. -/
def m_server (s : IpServer) (fd : Nat) : IpServer :=
  match s.local_ fd with
  | some c => { s with local_ := Function.update s.local_ fd (some { c with unknown := false }) }
  | none => s

/-- `exit_client` of a local client. -/
def exit_client (s : IpServer) (fd : Nat) : Option IpServer :=
  match s.local_ fd with
  | none => some s
  | some c =>
    (if c.iphash then s.table.remove_one_ip c.ip else some s.table).map fun table =>
      ⟨table, Function.update s.local_ fd none⟩

/-- `register_user` of a client that is not registered yet. `access` is the I-line that `verify_access`
found, unless it refused the client, and `admitted` says that nothing after the count refuses it. -/
def register_user (s : IpServer) (fd : Nat) (access : Option Iline) (admitted : Bool) : Option IpServer :=
  match s.local_ fd with
  | none => some s
  | some c =>
    if c.unknown then
      match access with
      | none => s.exit_client fd
      | some aconf =>
        (attach_iline s.table c.ip aconf).bind fun attached =>
          let s := IpServer.mk attached.1 (Function.update s.local_ fd (some { c with iphash := true }))
          if attached.2 || !admitted then s.exit_client fd
          else some { s with local_ := Function.update s.local_ fd (some { c with iphash := true, unknown := false }) }
    else some s

end IpServer

/-- What happens to the clients. -/
inductive IpEvent
  | accept_connection (fd : Nat) (ip : InAddr)
  | do_user (fd : Nat) (ip : InAddr)
  | m_server (fd : Nat)
  | register_user (fd : Nat) (access : Option Iline) (admitted : Bool)
  | exit_client (fd : Nat)

def IpServer.after (s : IpServer) : IpEvent → Option IpServer
  | .accept_connection fd ip => some (s.accept_connection fd ip)
  | .do_user fd ip => some (s.do_user fd ip)
  | .m_server fd => some (s.m_server fd)
  | .register_user fd access admitted => s.register_user fd access admitted
  | .exit_client fd => s.exit_client fd

def ipServerAfter (garbage : Nat → Cell IpEntry) (events : List IpEvent) : Option IpServer :=
  events.foldlM IpServer.after (.start garbage)

def countsFor (ip : InAddr) : Option IpClient → Nat
  | some c => if c.iphash ∧ c.ip = ip then 1 else 0
  | none => 0

/-- The clients with `FLAGS_IPHASH` that have an address. -/
def IpServer.flagged (s : IpServer) (ip : InAddr) : Nat :=
  ∑ fd ∈ Finset.range MAXCONNECTIONS, countsFor ip (s.local_ fd)

/-! ### The walk -/

abbrev ips (list : List (Nat × IpEntry)) : List InAddr := list.map fun e => e.2.ip

section Walk

variable {m : Memory IpEntry} {ip : InAddr} {list before rest : List (Nat × IpEntry)} {last p : Option Nat}
  {a : Nat} {e : IpEntry}

theorem walk_eq_none (fuel : Nat) (segment : Segment m p list none) (none_ : ip ∉ ips list) :
    IpHashTable.walk m ip fuel last p = none := by
  induction fuel generalizing last p list with
  | zero => rfl
  | succ fuel ih =>
    unfold IpHashTable.walk
    cases list with
    | nil =>
      obtain rfl : p = none := segment
      rfl
    | cons head rest =>
      obtain ⟨rfl, next, cell, ahead⟩ := segment
      obtain ⟨other, none_⟩ := not_or.mp (mt List.mem_cons.mpr none_)
      simp only [cell]
      rw [if_neg fun same => other (same.symm)]
      exact ih ahead none_

theorem walk_eq_some (fuel : Nat) (enough : (before ++ (a, e) :: rest).length ≤ fuel)
    (segment : Segment m p (before ++ (a, e) :: rest) none) (none_ : e.ip ∉ ips before) :
    IpHashTable.walk m e.ip fuel last p = some ((before.getLast?.map Prod.fst).or last, a) := by
  induction before generalizing last p fuel with
  | nil =>
    obtain ⟨rfl, next, cell, -⟩ := segment
    obtain ⟨fuel, rfl⟩ : ∃ n, fuel = n + 1 := ⟨fuel - 1, by simp at enough; omega⟩
    unfold IpHashTable.walk
    simp only [cell]
    exact if_pos trivial
  | cons head before ih =>
    obtain ⟨rfl, next, cell, ahead⟩ := segment
    obtain ⟨fuel, rfl⟩ : ∃ n, fuel = n + 1 := ⟨fuel - 1, by simp at enough; omega⟩
    obtain ⟨other, none_⟩ := not_or.mp (mt List.mem_cons.mpr none_)
    unfold IpHashTable.walk
    simp only [cell]
    rw [if_neg fun same => other same.symm, ih fuel (by simpa using enough) ahead none_]
    cases before with
    | nil => rfl
    | cons next before => simp [List.getLast?_eq_some_getLast]

end Walk

/-! ### The lists of a table -/

/-- The head of a chain, or of the free list. -/
def IpHashTable.head (t : IpHashTable) : Option Nat → Option Nat
  | some h => t.ip_hash_table h
  | none => t.free_ip_entries

theorem head_of_chain (t : IpHashTable) (h : Nat) (p : Option Nat) (m : Memory IpEntry) :
    IpHashTable.head ⟨m, Function.update t.ip_hash_table h p, t.free_ip_entries⟩ =
      Function.update t.head (some h) p := by
  funext k
  cases k with
  | none => rfl
  | some h' =>
    by_cases same : h' = h
    · rw [same, Function.update_self]
      exact Function.update_self ..
    · rw [Function.update_of_ne (fun eq => same (Option.some.inj eq))]
      exact Function.update_of_ne same ..

theorem head_of_cells (t : IpHashTable) (m : Memory IpEntry) :
    IpHashTable.head ⟨m, t.ip_hash_table, t.free_ip_entries⟩ = t.head := by
  funext k
  cases k <;> rfl

theorem head_of_free (t : IpHashTable) (p : Option Nat) (m : Memory IpEntry) :
    IpHashTable.head ⟨m, t.ip_hash_table, p⟩ = Function.update t.head none p := by
  funext k
  cases k with
  | none => rw [Function.update_self, IpHashTable.head]
  | some h =>
    rw [Function.update_of_ne (Option.some_ne_none h)]
    rfl

/-- The table has these lists: every entry is in one, and each chain has those of its addresses `here`,
one for each, with their counts. -/
structure IpTallied (t : IpHashTable) (n : InAddr → Nat) (here : InAddr → Prop)
    (lists : Option Nat → List (Nat × IpEntry)) : Prop where
  chained : Chained t.cells t.head lists
  whole : ∀ a, (∃ k, a ∈ places (lists k)) ↔ a < MAXCONNECTIONS
  once : ∀ h, (ips (lists (some h))).Nodup
  mem : ∀ h ip, ip ∈ ips (lists (some h)) ↔ here ip ∧ hash_ip ip = h
  counts : ∀ h, ∀ e ∈ lists (some h), e.2.count = n e.2.ip

def Counted (t : IpHashTable) (n : InAddr → Nat) : Prop := ∃ lists, IpTallied t n (fun ip => 0 < n ip) lists

section Table

variable {t : IpHashTable} {n : InAddr → Nat} {here : InAddr → Prop} {lists : Option Nat → List (Nat × IpEntry)}
  {ip : InAddr} {a : Nat} {e : IpEntry} {before rest : List (Nat × IpEntry)}

theorem IpTallied.length_le (kept : IpTallied t n here lists) (k : Option Nat) : (lists k).length ≤ MAXCONNECTIONS := by
  have inside : places (lists k) ⊆ List.range MAXCONNECTIONS := fun a member =>
    List.mem_range.mpr ((kept.whole a).mp ⟨k, member⟩)
  have short := (List.subperm_of_subset (kept.chained.nodup k) inside).length_le
  rwa [List.length_map, List.length_range] at short

/-- **The entry of an address that has one.** -/
theorem IpTallied.entry (kept : IpTallied t n here lists) (there : here ip) :
    ∃ before a rest, lists (some (hash_ip ip)) = before ++ (a, ⟨ip, n ip⟩) :: rest ∧
      t.entryOf ip = some ((before.getLast?.map Prod.fst).or (t.ip_hash_table (hash_ip ip)), a) := by
  obtain ⟨⟨a, e⟩, member, rfl⟩ := List.mem_map.mp ((kept.mem _ ip).mpr ⟨there, rfl⟩)
  have count : e = ⟨e.ip, n e.ip⟩ := congrArg (IpEntry.mk e.ip) (kept.counts _ _ member)
  obtain ⟨before, rest, split⟩ := List.append_of_mem member
  have once := kept.once (hash_ip e.ip)
  have segment := kept.chained.segment (some (hash_ip e.ip))
  have short := kept.length_le (some (hash_ip e.ip))
  rw [split] at once segment short
  refine ⟨before, a, rest, count ▸ split, walk_eq_some _ short segment ?_⟩
  rw [ips, List.map_append, List.map_cons, List.nodup_middle, List.nodup_cons] at once
  exact fun inside => once.1 (List.mem_append_left _ inside)

theorem IpTallied.entryOf_eq_none (kept : IpTallied t n here lists) (gone : ¬ here ip) : t.entryOf ip = none :=
  walk_eq_none _ (kept.chained.segment (some (hash_ip ip))) fun member => gone ((kept.mem _ ip).mp member).1

theorem find_or_add_ip_of_none (none_ : t.entryOf ip = none) :
    t.find_or_add_ip ip = t.free_ip_entries.bind fun a => (t.cells a).map fun cell =>
      (⟨Function.update t.cells a (some ⟨⟨ip, 0⟩, t.ip_hash_table (hash_ip ip)⟩),
        Function.update t.ip_hash_table (hash_ip ip) (some a), cell.next⟩, a) := by
  unfold IpHashTable.find_or_add_ip
  rw [none_]
  dsimp only
  cases t.ip_hash_table (hash_ip ip) <;> rfl

/-- **An entry from the free list**: it goes to the chain of an address that has none. -/
theorem IpTallied.add (kept : IpTallied t n here lists) (gone : ¬ here ip) (zero : n ip = 0) (room : lists none ≠ []) :
    ∃ t' ptr lists', t.find_or_add_ip ip = some (t', ptr) ∧ IpTallied t' n (fun x => here x ∨ x = ip) lists' ∧
      lists' (some (hash_ip ip)) = (ptr, ⟨ip, n ip⟩) :: lists (some (hash_ip ip)) := by
  obtain ⟨⟨a, e⟩, rest, free⟩ := List.exists_cons_of_ne_nil room
  have first : t.free_ip_entries = some a := by
    have segment := kept.chained.segment none
    rw [free] at segment
    exact segment.1
  obtain ⟨next, cell⟩ : ∃ next, t.cells a = some ⟨e, next⟩ :=
    (kept.chained.segment none).alloc (free ▸ List.mem_cons_self)
  have popped := kept.chained.pop free cell
  have atFront : lists none = [] ++ (a, e) :: rest := free
  have out := kept.chained.out_of_cut atFront
  have pushed := popped.push out (some (hash_ip ip)) ⟨ip, 0⟩
  have apart : some (hash_ip ip) ≠ none := Option.some_ne_none _
  rw [Function.update_of_ne apart, Function.update_of_ne apart] at pushed
  have whole := fun b => @exists_places_move _ _ _ lists none (some (hash_ip ip)) a b e ⟨ip, 0⟩ [] rest apart free
  have atHash : Function.update (Function.update lists none rest) (some (hash_ip ip))
      ((a, ⟨ip, 0⟩) :: lists (some (hash_ip ip))) (some (hash_ip ip)) =
        (a, ⟨ip, 0⟩) :: lists (some (hash_ip ip)) := Function.update_self ..
  have elsewhere : ∀ h, h ≠ hash_ip ip → Function.update (Function.update lists none rest) (some (hash_ip ip))
      ((a, ⟨ip, 0⟩) :: lists (some (hash_ip ip))) (some h) = lists (some h) := fun h other =>
    (Function.update_of_ne (fun same => other (Option.some.inj same)) ..).trans
      (Function.update_of_ne (Option.some_ne_none h) ..)
  rw [List.nil_append] at whole
  generalize Function.update (Function.update lists none rest) (some (hash_ip ip))
    ((a, ⟨ip, 0⟩) :: lists (some (hash_ip ip))) = lists' at pushed whole atHash elsewhere
  refine ⟨⟨Function.update t.cells a (some ⟨⟨ip, 0⟩, t.ip_hash_table (hash_ip ip)⟩),
    Function.update t.ip_hash_table (hash_ip ip) (some a), next⟩, a, lists', ?_, ⟨?_, ?_, ?_, ?_, ?_⟩, zero ▸ atHash⟩
  · rw [find_or_add_ip_of_none (kept.entryOf_eq_none gone), first, Option.bind_some, cell, Option.map_some]
  · have heads := head_of_chain ⟨t.cells, t.ip_hash_table, next⟩ (hash_ip ip) (some a)
      (Function.update t.cells a (some ⟨⟨ip, 0⟩, t.ip_hash_table (hash_ip ip)⟩))
    rw [heads, head_of_free]
    exact pushed
  · exact fun b => (whole b).trans (kept.whole b)
  · intro h
    by_cases same : h = hash_ip ip
    · rw [same, atHash]
      exact List.nodup_cons.mpr ⟨fun member => gone ((kept.mem _ ip).mp member).1, kept.once _⟩
    · rw [elsewhere h same]
      exact kept.once h
  · intro h x
    by_cases same : h = hash_ip ip
    · rw [same, atHash, ips, List.map_cons, List.mem_cons, kept.mem]
      constructor
      · rintro (rfl | ⟨there, at_⟩)
        · exact ⟨.inr rfl, rfl⟩
        · exact ⟨.inl there, at_⟩
      · rintro ⟨there | rfl, at_⟩
        · exact .inr ⟨there, at_⟩
        · exact .inl rfl
    · rw [elsewhere h same, kept.mem]
      constructor
      · exact fun ⟨there, at_⟩ => ⟨.inl there, at_⟩
      · rintro ⟨there | rfl, at_⟩
        · exact ⟨there, at_⟩
        · exact absurd at_.symm same
  · intro h x member
    by_cases same : h = hash_ip ip
    · rw [same, atHash] at member
      rcases List.mem_cons.mp member with rfl | member
      · exact (congrArg Nat.cast zero).symm
      · exact kept.counts _ x member
    · rw [elsewhere h same] at member
      exact kept.counts h x member

/-- **A new count for an entry.** -/
theorem IpTallied.setCount (kept : IpTallied t n here lists)
    (at_ : lists (some (hash_ip ip)) = before ++ (a, ⟨ip, n ip⟩) :: rest) {f : IpEntry → IpEntry} {c : Nat}
    (set_ : f ⟨ip, n ip⟩ = ⟨ip, c⟩) :
    ∃ lists', IpTallied { t with cells := t.cells.setItem a f } (Function.update n ip c) here lists' ∧
      lists' (some (hash_ip ip)) = before ++ (a, ⟨ip, c⟩) :: rest := by
  have changed := kept.chained.setItem at_ f
  rw [set_] at changed
  have atHash : Function.update lists (some (hash_ip ip)) (before ++ (a, ⟨ip, c⟩) :: rest) (some (hash_ip ip)) =
      before ++ (a, ⟨ip, c⟩) :: rest := Function.update_self ..
  have elsewhere : ∀ k, k ≠ some (hash_ip ip) →
      Function.update lists (some (hash_ip ip)) (before ++ (a, ⟨ip, c⟩) :: rest) k = lists k :=
    fun k other => Function.update_of_ne other ..
  generalize Function.update lists (some (hash_ip ip)) (before ++ (a, ⟨ip, c⟩) :: rest) = lists'
    at changed atHash elsewhere
  have samePlaces : ∀ k, places (lists' k) = places (lists k) := by
    intro k
    by_cases same : k = some (hash_ip ip)
    · rw [same, atHash, at_]
      simp [places]
    · rw [elsewhere k same]
  have sameIps : ∀ k, ips (lists' k) = ips (lists k) := by
    intro k
    by_cases same : k = some (hash_ip ip)
    · rw [same, atHash, at_]
      simp [ips]
    · rw [elsewhere k same]
  refine ⟨lists', ⟨?_, ?_, ?_, ?_, ?_⟩, atHash⟩
  · rw [head_of_cells]
    exact changed
  · intro b
    simp only [samePlaces]
    exact kept.whole b
  · intro h
    rw [sameIps]
    exact kept.once h
  · intro h x
    rw [sameIps]
    exact kept.mem h x
  · intro h x member
    by_cases same : h = hash_ip ip
    · have once := kept.once (hash_ip ip)
      rw [at_, ips, List.map_append, List.map_cons, List.nodup_middle, List.nodup_cons] at once
      have old : ∀ y ∈ before ++ rest, y.2.count = Function.update n ip c y.2.ip := by
        intro y inside
        have other : y.2.ip ≠ ip := fun eq =>
          once.1 (by rw [← List.map_append]; exact List.mem_map.mpr ⟨y, inside, eq⟩)
        rw [Function.update_of_ne other]
        refine kept.counts (hash_ip ip) y ?_
        rw [at_]
        simp only [List.mem_append, List.mem_cons] at inside ⊢
        tauto
      rw [same, atHash, List.mem_append, List.mem_cons] at member
      rcases member with member | rfl | member
      · exact old x (List.mem_append_left _ member)
      · show (c : Int) = (Function.update n ip c ip : Nat)
        rw [Function.update_self]
      · exact old x (List.mem_append_right _ member)
    · rw [elsewhere _ fun eq => same (Option.some.inj eq)] at member
      have there := (kept.mem h x.2.ip).mp (List.mem_map_of_mem member)
      rw [Function.update_of_ne fun eq : x.2.ip = ip => same (there.2.symm.trans (congrArg hash_ip eq))]
      exact kept.counts h x member

theorem IpTallied.chained_release (kept : IpTallied t n here lists)
    (at_ : lists (some (hash_ip ip)) = before ++ (a, e) :: rest) {next : Option Nat}
    (cell : t.cells a = some ⟨e, next⟩) :
    Chained
      (t.release (hash_ip ip) ((before.getLast?.map Prod.fst).or (t.ip_hash_table (hash_ip ip))) a next).cells
      (t.release (hash_ip ip) ((before.getLast?.map Prod.fst).or (t.ip_hash_table (hash_ip ip))) a next).head
      (Function.update (Function.update lists (some (hash_ip ip)) (before ++ rest)) none
        ((a, e) :: lists none)) := by
  have out := kept.chained.out_of_cut at_
  have apart : (none : Option Nat) ≠ some (hash_ip ip) := (Option.some_ne_none _).symm
  unfold IpHashTable.release
  rcases List.eq_nil_or_concat' before with rfl | ⟨before, ⟨b, e'⟩, rfl⟩
  · have first : t.ip_hash_table (hash_ip ip) = some a := kept.chained.head_eq at_
    have pushed := (kept.chained.pop at_ cell).push out none e
    rw [Function.update_of_ne apart, Function.update_of_ne apart] at pushed
    have heads := head_of_free ⟨t.cells, Function.update t.ip_hash_table (hash_ip ip) next, t.free_ip_entries⟩
      (some a) (t.cells.setNext (some a) t.free_ip_entries)
    rw [if_pos first]
    dsimp only
    rw [heads, head_of_chain, setNext_eq_update cell]
    exact pushed
  · have first : t.ip_hash_table (hash_ip ip) ≠ some a := kept.chained.head_ne at_ (by simp)
    have last : (((before ++ [(b, e')]).getLast?.map Prod.fst).or (t.ip_hash_table (hash_ip ip))) = some b := by
      rw [List.getLast?_concat]
      rfl
    have old : t.cells.setNext (some b) next a = some ⟨e, next⟩ := by
      refine (Function.update_of_ne (fun same : a = b => ?_) ..).trans cell
      have once := kept.chained.nodup (some (hash_ip ip))
      rw [at_, same, places, List.map_append, List.map_cons, List.nodup_middle, List.nodup_cons] at once
      exact once.1 (by simp)
    have pushed := (kept.chained.cut at_ cell).push out none e
    rw [if_neg first, last]
    dsimp only
    rw [head_of_free, setNext_eq_update old]
    rw [Function.update_of_ne apart] at pushed
    exact pushed

/-- **An entry goes back to the free list.** -/
theorem IpTallied.release (kept : IpTallied t n here lists) {c : Int}
    (at_ : lists (some (hash_ip ip)) = before ++ (a, ⟨ip, c⟩) :: rest) {next : Option Nat}
    (cell : t.cells a = some ⟨⟨ip, c⟩, next⟩) :
    ∃ lists', IpTallied
      (t.release (hash_ip ip) ((before.getLast?.map Prod.fst).or (t.ip_hash_table (hash_ip ip))) a next) n
      (fun x => here x ∧ x ≠ ip) lists' := by
  have chained := kept.chained_release at_ cell
  have apart : (none : Option Nat) ≠ some (hash_ip ip) := (Option.some_ne_none _).symm
  have whole := fun b =>
    @exists_places_move _ _ _ lists (some (hash_ip ip)) none a b ⟨ip, c⟩ ⟨ip, c⟩ before rest apart at_
  have lists_some : ∀ h, Function.update (Function.update lists (some (hash_ip ip)) (before ++ rest)) none
      ((a, ⟨ip, c⟩) :: lists none) (some h) =
        if h = hash_ip ip then before ++ rest else lists (some h) := by
    intro h
    rw [Function.update_of_ne (Option.some_ne_none h)]
    by_cases same : h = hash_ip ip
    · rw [if_pos same, same, Function.update_self]
    · rw [if_neg same, Function.update_of_ne fun eq => same (Option.some.inj eq)]
  generalize Function.update (Function.update lists (some (hash_ip ip)) (before ++ rest)) none
    ((a, ⟨ip, c⟩) :: lists none) = lists' at chained whole lists_some
  have once := kept.once (hash_ip ip)
  rw [at_, ips, List.map_append, List.map_cons, List.nodup_middle, List.nodup_cons, ← List.map_append] at once
  refine ⟨lists', chained, fun b => (whole b).trans (kept.whole b), fun h => ?_, fun h x => ?_, fun h x member => ?_⟩
  · rw [lists_some]
    split_ifs
    · exact once.2
    · exact kept.once h
  · rw [lists_some]
    by_cases same : h = hash_ip ip
    · have all : x ∈ ips (lists (some h)) ↔ x = ip ∨ x ∈ ips (before ++ rest) := by
        rw [same, at_]
        simp only [ips, List.map_append, List.map_cons, List.mem_append, List.mem_cons]
        tauto
      rw [if_pos same]
      constructor
      · intro member
        have there := (kept.mem h x).mp (all.mpr (.inr member))
        exact ⟨⟨there.1, fun eq => once.1 (eq ▸ member)⟩, there.2⟩
      · rintro ⟨⟨there, other⟩, at_⟩
        exact (all.mp ((kept.mem h x).mpr ⟨there, at_⟩)).resolve_left other
    · rw [if_neg same, kept.mem]
      constructor
      · exact fun ⟨there, at_⟩ => ⟨⟨there, fun eq => same (at_.symm.trans (congrArg hash_ip eq))⟩, at_⟩
      · exact fun ⟨⟨there, _⟩, at_⟩ => ⟨there, at_⟩
  · rw [lists_some] at member
    split_ifs at member with same
    · refine kept.counts (hash_ip ip) x ?_
      rw [at_]
      simp only [List.mem_append, List.mem_cons] at member ⊢
      tauto
    · exact kept.counts h x member

/-- **The free list has an entry** while there are not too many addresses. -/
theorem IpTallied.room (kept : IpTallied t n here lists)
    (few : ∀ S : Finset InAddr, (∀ x ∈ S, here x) → S.card < MAXCONNECTIONS) : lists none ≠ [] := by
  intro empty
  have each : ∀ b, ∃ x, b < MAXCONNECTIONS → here x ∧ ∃ c, (b, ⟨x, c⟩) ∈ lists (some (hash_ip x)) := by
    intro b
    by_cases inside : b < MAXCONNECTIONS
    · obtain ⟨k, member⟩ := (kept.whole b).mpr inside
      cases k with
      | none =>
        rw [empty] at member
        exact absurd member List.not_mem_nil
      | some h =>
        obtain ⟨⟨_, e⟩, entry, rfl⟩ := List.mem_map.mp member
        obtain ⟨there, rfl⟩ := (kept.mem h e.ip).mp (List.mem_map.mpr ⟨_, entry, rfl⟩)
        exact ⟨e.ip, fun _ => ⟨there, e.count, entry⟩⟩
    · exact ⟨0, fun lt => absurd lt inside⟩
  choose address spec using each
  have apart : Set.InjOn address (Finset.range MAXCONNECTIONS) := by
    intro b inside b' inside' same
    obtain ⟨-, c, member⟩ := spec b (Finset.mem_range.mp inside)
    obtain ⟨-, c', member'⟩ := spec b' (Finset.mem_range.mp inside')
    rw [← same] at member'
    exact congrArg Prod.fst (List.inj_on_of_nodup_map (kept.once _) member member' rfl)
  have many := few ((Finset.range MAXCONNECTIONS).image address) fun x member => by
    obtain ⟨b, inside, rfl⟩ := Finset.mem_image.mp member
    exact (spec b (Finset.mem_range.mp inside)).1
  rw [Finset.card_image_of_injOn apart, Finset.card_range] at many
  exact Nat.lt_irrefl _ many

theorem IpTallied.congr (kept : IpTallied t n here lists) {here' : InAddr → Prop} (same : ∀ x, here x ↔ here' x) :
    IpTallied t n here' lists := by
  obtain rfl : here = here' := funext fun x => propext (same x)
  exact kept

/-- **The entry of an address, old or new.** -/
theorem IpTallied.find_or_add (kept : IpTallied t n (fun x => 0 < n x) lists)
    (few : ∀ S : Finset InAddr, (∀ x ∈ S, 0 < n x) → S.card < MAXCONNECTIONS) (ip : InAddr) :
    ∃ t' a lists' before rest, t.find_or_add_ip ip = some (t', a) ∧
      IpTallied t' n (fun x => 0 < n x ∨ x = ip) lists' ∧
      lists' (some (hash_ip ip)) = before ++ (a, ⟨ip, n ip⟩) :: rest := by
  by_cases there : 0 < n ip
  · obtain ⟨before, a, rest, at_, found⟩ := kept.entry there
    refine ⟨t, a, lists, before, rest, ?_, kept.congr fun x => ?_, at_⟩
    · rw [IpHashTable.find_or_add_ip, found]
    · exact ⟨.inl, fun either => either.elim id fun same => same ▸ there⟩
  · obtain ⟨t', a, lists', found, kept', at_⟩ := kept.add there (Nat.eq_zero_of_not_pos there) (kept.room few)
    exact ⟨t', a, lists', [], _, found, kept', at_⟩

/-- **A client more**: `attach_iline` counts it, and compares the number that is then true. -/
theorem Counted.attach (counted : Counted t n)
    (few : ∀ S : Finset InAddr, (∀ x ∈ S, 0 < n x) → S.card < MAXCONNECTIONS) (ip : InAddr) (aconf : Iline) :
    ∃ t' full, attach_iline t ip aconf = some (t', full) ∧ Counted t' (Function.update n ip (n ip + 1)) ∧
      (full = true ↔ aconf.conFreq ≠ 0 ∧ aconf.conFreq < n ip + 1 ∧ aconf.flined = false) := by
  obtain ⟨lists, kept⟩ := counted
  obtain ⟨t', a, lists', before, rest, found, kept', at_⟩ := kept.find_or_add few ip
  obtain ⟨lists'', kept'', at_'⟩ := kept'.setCount at_ (c := n ip + 1)
    (f := fun entry => { entry with count := entry.count + 1 }) rfl
  obtain ⟨next, cell⟩ : ∃ next, t'.cells.setItem a (fun entry => { entry with count := entry.count + 1 }) a =
      some ⟨⟨ip, (n ip + 1 : Nat)⟩, next⟩ :=
    (kept''.chained.segment (some (hash_ip ip))).alloc (at_' ▸ List.mem_append_right _ List.mem_cons_self)
  refine ⟨_, aconf.conFreq != 0 && decide (aconf.conFreq < (n ip + 1 : Nat)) && !aconf.flined, ?_,
    ⟨lists'', kept''.congr fun x => ?_⟩, ?_⟩
  · rw [attach_iline, found, Option.bind_some]
    dsimp only
    rw [cell, Option.map_some]
  · by_cases same : x = ip
    · subst same
      rw [Function.update_self]
      simp
    · rw [Function.update_of_ne same]
      simp [same]
  · simp [and_assoc]

/-- **A client less.** -/
theorem Counted.remove (counted : Counted t n) {ip : InAddr} (there : 0 < n ip) :
    ∃ t', t.remove_one_ip ip = some t' ∧ Counted t' (Function.update n ip (n ip - 1)) := by
  obtain ⟨lists, kept⟩ := counted
  obtain ⟨before, a, rest, at_, found⟩ := kept.entry there
  obtain ⟨next, cell⟩ : ∃ next, t.cells a = some ⟨⟨ip, n ip⟩, next⟩ :=
    (kept.chained.segment (some (hash_ip ip))).alloc (at_ ▸ List.mem_append_right _ List.mem_cons_self)
  have count : (if (n ip : Int) ≠ 0 then (n ip : Int) - 1 else n ip) = (n ip - 1 : Nat) := by
    rw [if_pos (by omega)]
    omega
  obtain ⟨lists', kept', at_'⟩ := kept.setCount at_ (c := n ip - 1)
    (f := fun entry => { entry with count := (n ip - 1 : Nat) }) rfl
  have cell' : t.cells.setItem a (fun entry => { entry with count := (n ip - 1 : Nat) }) a =
      some ⟨⟨ip, (n ip - 1 : Nat)⟩, next⟩ := by
    rw [Lib.Memory.setItem, Function.update_self, cell]
    rfl
  have positive (x : InAddr) : 0 < Function.update n ip (n ip - 1) x ↔
      (x = ip ∧ 0 < n ip - 1) ∨ (x ≠ ip ∧ 0 < n x) := by
    by_cases same : x = ip
    · subst same
      rw [Function.update_self]
      simp
    · rw [Function.update_of_ne same]
      simp [same]
  unfold IpHashTable.remove_one_ip
  rw [found]
  simp only [cell, Option.map_some, count]
  by_cases last : n ip - 1 = 0
  · rw [if_pos (Int.natCast_eq_zero.mpr last)]
    obtain ⟨lists'', kept''⟩ := kept'.release at_' cell'
    refine ⟨_, rfl, lists'', kept''.congr fun x => ?_⟩
    rw [positive, last]
    simp [and_comm]
  · rw [if_neg fun zero => last (Int.natCast_eq_zero.mp zero)]
    refine ⟨_, rfl, lists', kept'.congr fun x => ?_⟩
    rw [positive]
    by_cases same : x = ip
    · subst same
      simp [there, Nat.pos_of_ne_zero last]
    · simp [same]

end Table

/-! ### The block -/

section Block

variable {garbage : Nat → Cell IpEntry} {m : Memory IpEntry}

def block (garbage : Nat → Cell IpEntry) (n : Nat) : List (Nat × IpEntry) :=
  (List.range n).map fun a => (a, (garbage a).item)

theorem places_block (n : Nat) : places (block garbage n) = List.range n := by
  rw [places, block, List.map_map]
  exact List.map_id _

theorem block_succ (n : Nat) : block garbage (n + 1) = block garbage n ++ [(n, (garbage n).item)] := by
  rw [block, List.range_succ, List.map_append]
  rfl

def HoldsBlock (garbage : Nat → Cell IpEntry) (m : Memory IpEntry) : Prop :=
  ∀ a, a < MAXCONNECTIONS → ∃ next, m a = some ⟨(garbage a).item, next⟩

theorem HoldsBlock.setNext (holds : HoldsBlock garbage m) {b : Nat} (inside : b < MAXCONNECTIONS)
    (p : Option Nat) : HoldsBlock garbage (m.setNext (some b) p) := by
  intro a lt
  obtain ⟨next, cell⟩ := holds b inside
  rw [setNext_eq_update cell]
  by_cases same : a = b
  · rw [same, Function.update_self]
    exact ⟨p, rfl⟩
  · rw [Function.update_of_ne same]
    exact holds a lt

theorem segment_link {last : Nat} (room : last + 1 < MAXCONNECTIONS) (holds : HoldsBlock garbage m)
    (linked : Segment m (some 0) (block garbage last) (some last)) :
    Segment ((m.setNext (some last) (some (last + 1))).setNext (some (last + 1)) none) (some 0)
        (block garbage (last + 1)) (some (last + 1)) ∧
      (m.setNext (some last) (some (last + 1))).setNext (some (last + 1)) none (last + 1) =
        some ⟨(garbage (last + 1)).item, none⟩ := by
  obtain ⟨next, cell⟩ := holds last (by omega)
  obtain ⟨next', cell'⟩ := (holds.setNext (b := last) (by omega) (some (last + 1))) (last + 1) room
  rw [setNext_eq_update cell', setNext_eq_update cell, Function.update_self]
  refine ⟨?_, rfl⟩
  rw [block_succ]
  refine Segment.append.mpr ⟨some last, linked.congr fun i member => ?_, rfl, some (last + 1), ?_, rfl⟩
  · have inside : i.1 < last := by
      have place : i.1 ∈ places (block garbage last) := List.mem_map_of_mem member
      rw [places_block, List.mem_range] at place
      exact place
    rw [Function.update_of_ne (by omega), Function.update_of_ne (by omega)]
  · rw [Function.update_of_ne (by omega), Function.update_self]

/-- **The loop links the block.** -/
theorem segment_clearLoop (n last : Nat) (room : last + n + 1 < MAXCONNECTIONS) (holds : HoldsBlock garbage m)
    (linked : Segment m (some 0) (block garbage last) (some last)) :
    Segment (IpHashTable.clearLoop (n + 1) last m) (some 0) (block garbage (last + n + 2)) none := by
  obtain ⟨linked', cell⟩ := segment_link (by omega) holds linked
  induction n generalizing last m with
  | zero =>
    rw [block_succ]
    exact Segment.append.mpr ⟨some (last + 1), linked', rfl, none, cell, rfl⟩
  | succ n ih =>
    have holds' := (holds.setNext (b := last) (by omega) (some (last + 1))).setNext (b := last + 1) (by omega) none
    obtain ⟨linked'', cell'⟩ := segment_link (by omega) holds' linked'
    have whole := ih (last + 1) (by omega) holds' linked' linked'' cell'
    rw [show last + (n + 1) + 2 = last + 1 + n + 2 by omega]
    exact whole

theorem counted_zero {t : IpHashTable} {list : List (Nat × IpEntry)} (chains : ∀ h, t.ip_hash_table h = none)
    (free : Segment t.cells t.free_ip_entries list none) (once : (places list).Nodup)
    (whole : ∀ a, a ∈ places list ↔ a < MAXCONNECTIONS) : Counted t fun _ => 0 := by
  refine ⟨fun k => k.elim list fun _ => [], ⟨⟨?_, ?_, ?_⟩, ?_, fun h => List.nodup_nil, ?_, ?_⟩⟩
  · rintro (_ | h)
    · exact free
    · exact chains h
  · rintro (_ | h)
    · exact once
    · exact List.nodup_nil
  · rintro (_ | h) (_ | h') a first second
    · rfl
    · exact absurd second List.not_mem_nil
    · exact absurd first List.not_mem_nil
    · exact absurd first List.not_mem_nil
  · intro a
    rw [← whole a]
    constructor
    · rintro ⟨_ | h, member⟩
      · exact member
      · exact absurd member List.not_mem_nil
    · exact fun member => ⟨none, member⟩
  · simp
  · exact fun h e member => absurd member List.not_mem_nil

/-- **The table starts with all entries on the free list.** -/
theorem counted_clear (garbage : Nat → Cell IpEntry) : Counted (.clear_ip_hash_table garbage) fun _ => 0 := by
  have holds : HoldsBlock garbage fun a => if a < MAXCONNECTIONS then some (garbage a) else none :=
    fun a inside => ⟨(garbage a).next, if_pos inside⟩
  obtain ⟨n, size⟩ : ∃ n, MAXCONNECTIONS = n + 2 := ⟨588, rfl⟩
  have free := segment_clearLoop n 0 (by omega) holds rfl
  have turns : n + 1 = MAXCONNECTIONS - 1 := by omega
  unfold IpHashTable.clear_ip_hash_table
  rw [← turns]
  generalize IpHashTable.clearLoop (n + 1) 0 (fun a => if a < MAXCONNECTIONS then some (garbage a) else none) = cells
    at free
  refine counted_zero (fun _ => rfl) free ?_ ?_
  · rw [places_block]
    exact List.nodup_range
  · intro a
    rw [places_block, List.mem_range]
    omega

end Block

/-! ### The server -/

section Server

variable {s : IpServer} {fd : Nat} {c : IpClient} {ip : InAddr}

/-- The table counts the clients, and those that are not registered do not count. -/
structure IpServed (s : IpServer) : Prop where
  counted : Counted s.table s.flagged
  fds : ∀ fd c, s.local_ fd = some c → fd ≤ MAXCONNECTIONS - 10
  fresh : ∀ fd c, s.local_ fd = some c → c.unknown = true → c.iphash = false

theorem fd_lt (served : IpServed s) (there : s.local_ fd = some c) : fd < MAXCONNECTIONS :=
  Nat.lt_of_le_of_lt (served.fds fd c there) (by decide)

theorem flagged_update (table : IpHashTable) (inside : fd < MAXCONNECTIONS) (v : Option IpClient) (ip : InAddr) :
    (IpServer.mk table (Function.update s.local_ fd v)).flagged ip + countsFor ip (s.local_ fd) =
      s.flagged ip + countsFor ip v := by
  have member : fd ∈ Finset.range MAXCONNECTIONS := Finset.mem_range.mpr inside
  have others : ∑ i ∈ (Finset.range MAXCONNECTIONS).erase fd, countsFor ip (Function.update s.local_ fd v i) =
      ∑ i ∈ (Finset.range MAXCONNECTIONS).erase fd, countsFor ip (s.local_ i) :=
    Finset.sum_congr rfl fun i inside => by rw [Function.update_of_ne (Finset.ne_of_mem_erase inside)]
  unfold IpServer.flagged
  rw [← Finset.add_sum_erase _ _ member, ← Finset.add_sum_erase _ (fun i => countsFor ip (s.local_ i)) member,
    others]
  have self : countsFor ip (Function.update s.local_ fd v fd) = countsFor ip v := by rw [Function.update_self]
  dsimp only
  omega

/-- **There are fewer addresses than entries.** -/
theorem IpServed.few (served : IpServed s) (S : Finset InAddr) (all : ∀ x ∈ S, 0 < s.flagged x) :
    S.card < MAXCONNECTIONS := by
  have each : ∀ x, ∃ fd, x ∈ S → ∃ c, s.local_ fd = some c ∧ c.ip = x := by
    intro x
    by_cases member : x ∈ S
    · obtain ⟨fd, -, counts⟩ := Finset.exists_ne_zero_of_sum_ne_zero (Nat.pos_iff_ne_zero.mp (all x member))
      refine ⟨fd, fun _ => ?_⟩
      cases there : s.local_ fd with
      | none =>
        rw [there] at counts
        exact absurd rfl counts
      | some c =>
        rw [there, countsFor] at counts
        exact ⟨c, rfl, (ite_ne_right_iff.mp counts).1.2⟩
    · exact ⟨0, fun inside => absurd inside member⟩
  choose slot spec using each
  have inside : ∀ x ∈ S, slot x ∈ Finset.range (MAXCONNECTIONS - 9) := by
    intro x member
    obtain ⟨c, there, -⟩ := spec x member
    have bound := served.fds _ c there
    have size : MAXCONNECTIONS = 590 := rfl
    rw [Finset.mem_range]
    omega
  have apart : Set.InjOn slot S := by
    intro x member y member' same
    obtain ⟨c, there, rfl⟩ := spec x member
    obtain ⟨c', there', rfl⟩ := spec y member'
    rw [same, there'] at there
    rw [Option.some.inj there]
  have short := Finset.card_le_card_of_injOn slot inside apart
  rw [Finset.card_range] at short
  have size : MAXCONNECTIONS = 590 := rfl
  omega

theorem flagged_eq (table : IpHashTable) (inside : fd < MAXCONNECTIONS) {v : Option IpClient}
    (same : ∀ ip, countsFor ip v = countsFor ip (s.local_ fd)) :
    (IpServer.mk table (Function.update s.local_ fd v)).flagged = s.flagged := by
  funext ip
  have update := flagged_update (s := s) table inside v ip
  rw [same] at update
  omega

theorem IpServed.update {table : IpHashTable} {v : Option IpClient} (served : IpServed s)
    (counted : Counted table (IpServer.mk table (Function.update s.local_ fd v)).flagged)
    (slot : ∀ c ∈ v, fd ≤ MAXCONNECTIONS - 10 ∧ (c.unknown = true → c.iphash = false)) :
    IpServed ⟨table, Function.update s.local_ fd v⟩ where
  counted := counted
  fds fd' c there := by
    change Function.update s.local_ fd v fd' = some c at there
    by_cases same : fd' = fd
    · subst same
      rw [Function.update_self] at there
      exact (slot c there).1
    · rw [Function.update_of_ne same] at there
      exact served.fds fd' c there
  fresh fd' c there := by
    change Function.update s.local_ fd v fd' = some c at there
    by_cases same : fd' = fd
    · subst same
      rw [Function.update_self] at there
      exact (slot c there).2
    · rw [Function.update_of_ne same] at there
      exact served.fresh fd' c there

theorem countsFor_iphash (c : IpClient) (ip : InAddr) :
    countsFor ip (some ⟨c.ip, true, false⟩) = if c.ip = ip then 1 else 0 := by
  simp [countsFor]

theorem countsFor_of_not_iphash (quiet : c.iphash = false) (ip : InAddr) : countsFor ip (some c) = 0 := by
  simp [countsFor, quiet]

/-- **A client that goes.** -/
theorem IpServed.exit_client (served : IpServed s) (fd : Nat) :
    ∃ s', s.exit_client fd = some s' ∧ IpServed s' ∧ s'.local_ = Function.update s.local_ fd none := by
  unfold IpServer.exit_client
  cases there : s.local_ fd with
  | none =>
    refine ⟨s, rfl, served, ?_⟩
    rw [← there, Function.update_eq_self]
  | some c =>
    have inside := fd_lt served there
    dsimp only
    cases flag : c.iphash with
    | false =>
      refine ⟨_, rfl, served.update ?_ nofun, rfl⟩
      rw [flagged_eq s.table inside fun ip => ?_]
      · exact served.counted
      · rw [there, countsFor_of_not_iphash flag]
        rfl
    | true =>
      have counts : countsFor c.ip (s.local_ fd) = 1 := by simp [there, countsFor, flag]
      have numbers (table : IpHashTable) (ip : InAddr) := flagged_update (s := s) table inside none ip
      have some_ : 0 < s.flagged c.ip := by
        have update := numbers s.table c.ip
        rw [counts] at update
        change _ + 1 = s.flagged c.ip + 0 at update
        omega
      obtain ⟨table, removed, counted⟩ := served.counted.remove some_
      rw [if_pos rfl, removed, Option.map_some]
      refine ⟨_, rfl, served.update ?_ nofun, rfl⟩
      have less : (IpServer.mk table (Function.update s.local_ fd none)).flagged =
          Function.update s.flagged c.ip (s.flagged c.ip - 1) := by
        funext ip
        have update := numbers table ip
        change _ + _ = s.flagged ip + 0 at update
        by_cases same : ip = c.ip
        · subst same
          rw [counts] at update
          rw [Function.update_self]
          omega
        · rw [Function.update_of_ne same]
          have other : countsFor ip (s.local_ fd) = 0 := by simp [there, countsFor, Ne.symm same]
          omega
      rw [less]
      exact counted

theorem exit_client_unknown (table : IpHashTable) (local_ : Nat → Option IpClient) (fd : Nat) (c : IpClient) :
    IpServer.exit_client ⟨table, Function.update local_ fd (some { c with iphash := true })⟩ fd =
      IpServer.exit_client ⟨table, Function.update local_ fd (some ⟨c.ip, true, false⟩)⟩ fd := by
  unfold IpServer.exit_client
  dsimp only
  rw [Function.update_self, Function.update_self, Function.update_idem, Function.update_idem]

/-- **A client that registers**: it is counted, and goes or stays. -/
theorem IpServed.register_user (served : IpServed s) (fd : Nat) (access : Option Iline) (admitted : Bool) :
    ∃ s', s.register_user fd access admitted = some s' ∧ IpServed s' := by
  have goes {s : IpServer} (served : IpServed s) : ∃ s', s.exit_client fd = some s' ∧ IpServed s' :=
    let ⟨s', gone, served', _⟩ := served.exit_client fd
    ⟨s', gone, served'⟩
  unfold IpServer.register_user
  cases there : s.local_ fd with
  | none => exact ⟨s, rfl, served⟩
  | some c =>
    dsimp only
    by_cases unknown : c.unknown = true
    · rw [if_pos unknown]
      cases access with
      | none => exact goes served
      | some aconf =>
        have inside := fd_lt served there
        have quiet := served.fresh fd c there unknown
        have before (ip : InAddr) : countsFor ip (s.local_ fd) = 0 := by
          rw [there, countsFor_of_not_iphash quiet]
        obtain ⟨table, full, attached, counted, -⟩ := served.counted.attach served.few c.ip aconf
        have more : (IpServer.mk table (Function.update s.local_ fd (some ⟨c.ip, true, false⟩))).flagged =
            Function.update s.flagged c.ip (s.flagged c.ip + 1) := by
          funext ip
          have update := flagged_update (s := s) table inside (some ⟨c.ip, true, false⟩) ip
          rw [before, countsFor_iphash, Nat.add_zero] at update
          by_cases same : c.ip = ip
          · subst same
            rw [if_pos rfl] at update
            rw [Function.update_self]
            exact update
          · rw [if_neg same, Nat.add_zero] at update
            rw [Function.update_of_ne (Ne.symm same)]
            exact update
        have registered : IpServed ⟨table, Function.update s.local_ fd (some ⟨c.ip, true, false⟩)⟩ :=
          served.update (more ▸ counted) fun c' new => by
            obtain rfl := Option.some.inj new
            exact ⟨served.fds fd c there, fun unknown => absurd unknown Bool.false_ne_true⟩
        dsimp only
        rw [attached, Option.bind_some]
        dsimp only
        split_ifs
        · rw [exit_client_unknown]
          exact goes registered
        · rw [Function.update_idem]
          exact ⟨_, rfl, registered⟩
    · rw [if_neg unknown]
      exact ⟨s, rfl, served⟩

theorem IpServed.change (served : IpServed s) (there : s.local_ fd = some c) {c' : IpClient}
    (same : ∀ ip, countsFor ip (some c') = countsFor ip (some c))
    (fresh : c'.unknown = true → c'.iphash = false) :
    IpServed ⟨s.table, Function.update s.local_ fd (some c')⟩ := by
  refine served.update ?_ fun x new => ?_
  · rw [flagged_eq s.table (fd_lt served there) fun ip => there ▸ same ip]
    exact served.counted
  · obtain rfl := Option.some.inj new
    exact ⟨served.fds fd c there, fresh⟩

/-- **Every event goes through, and the table goes on to count.** -/
theorem IpServed.after (served : IpServed s) (event : IpEvent) :
    ∃ s', s.after event = some s' ∧ IpServed s' := by
  cases event with
  | register_user fd access admitted => exact served.register_user fd access admitted
  | exit_client fd =>
    obtain ⟨s', gone, served', -⟩ := served.exit_client fd
    exact ⟨s', gone, served'⟩
  | accept_connection fd ip =>
    refine ⟨_, rfl, ?_⟩
    unfold IpServer.accept_connection
    split_ifs with refused
    · exact served
    · obtain ⟨low, vacant⟩ := not_or.mp refused
      have inside : fd < MAXCONNECTIONS := by
        have size : MAXCONNECTIONS = 590 := rfl
        omega
      refine served.update ?_ fun c new => ?_
      · rw [flagged_eq s.table inside fun x => ?_]
        · exact served.counted
        · rw [not_ne_iff.mp vacant]
          exact countsFor_of_not_iphash rfl x
      · obtain rfl := Option.some.inj new
        exact ⟨Nat.le_of_not_lt low, fun _ => rfl⟩
  | do_user fd ip =>
    refine ⟨_, rfl, ?_⟩
    unfold IpServer.do_user
    cases there : s.local_ fd with
    | none => exact served
    | some c =>
      dsimp only
      split_ifs with unknown
      · have quiet := served.fresh fd c there unknown
        refine served.change there (fun x => ?_) fun _ => quiet
        rw [countsFor_of_not_iphash quiet, countsFor_of_not_iphash (c := { c with ip := ip }) quiet]
      · exact served
  | m_server fd =>
    refine ⟨_, rfl, ?_⟩
    unfold IpServer.m_server
    cases there : s.local_ fd with
    | none => exact served
    | some c => exact served.change there (fun _ => rfl) fun unknown => absurd unknown Bool.false_ne_true

theorem IpServed.start (garbage : Nat → Cell IpEntry) : IpServed (.start garbage) where
  counted := by
    have none_ : (IpServer.start garbage).flagged = fun _ => 0 :=
      funext fun ip => Finset.sum_eq_zero fun _ _ => rfl
    rw [none_]
    exact counted_clear garbage
  fds _ _ there := absurd there (Option.some_ne_none _).symm
  fresh _ _ there := absurd there (Option.some_ne_none _).symm

/-- **Every run goes through, and the table counts in it.** -/
theorem ipServed_after (garbage : Nat → Cell IpEntry) (events : List IpEvent) :
    ∃ s, ipServerAfter garbage events = some s ∧ IpServed s := by
  have run : ∀ s, IpServed s → ∃ s', events.foldlM IpServer.after s = some s' ∧ IpServed s' := by
    induction events with
    | nil => exact fun s served => ⟨s, rfl, served⟩
    | cons event events ih =>
      intro s served
      obtain ⟨s', after, served'⟩ := served.after event
      rw [List.foldlM_cons, after]
      exact ih s' served'
  exact run _ (.start garbage)

/-- **In every run the table counts the clients of each address.** No run stops for want of an entry.
Chains and free list have every entry of the block once; the chains have one entry for each address of
clients with `FLAGS_IPHASH`, none for others, and it has their number; and `attach_iline` refuses a
client exactly when the number with the client is more than the I-line allows. -/
theorem ipServer_counts (garbage : Nat → Cell IpEntry) (events : List IpEvent) :
    ∃ s, ipServerAfter garbage events = some s ∧
      (∃ lists, IpTallied s.table s.flagged (fun ip => 0 < s.flagged ip) lists) ∧
      ∀ (ip : InAddr) (aconf : Iline), ∃ table full, attach_iline s.table ip aconf = some (table, full) ∧
        (full = true ↔ aconf.conFreq ≠ 0 ∧ aconf.conFreq < s.flagged ip + 1 ∧ aconf.flined = false) := by
  obtain ⟨s, run, served⟩ := ipServed_after garbage events
  refine ⟨s, run, served.counted, fun ip aconf => ?_⟩
  obtain ⟨table, full, attached, -, refuses⟩ := served.counted.attach served.few ip aconf
  exact ⟨table, full, attached, refuses⟩

end Server

end PtlinkIrcd
