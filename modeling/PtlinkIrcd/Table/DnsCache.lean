/-
**The cache of DNS answers.**

The cache of `res.c`: a list of all entries with the last used in front, and the chains of a hash table by
name and by address.

* `DnsCache` — the entries, the list and the chains.
* `find_cache_name`, `find_cache_number`, `make_cache`, `rem_cache` — the calls; `CacheEvent.step`.
* `Sound` — every entry is in the list once and in its two chains; `Sound.step` — the calls keep it.
* `Reached` — an entry with the name that the search of a name comes to.
* `dns_cache_run` — **in every run the cache is sound, no entry that is referred to is freed, the search of an
  address is complete, and that of a name is exactly if an entry with the name is reached**.
-/

import PtlinkIrcd.Conf.IpCounts
import PtlinkIrcd.Model.Text
import PtlinkIrcd.Lib.ChainTable

namespace PtlinkIrcd

open Lib

def AR_TTL : Int := 600
def ARES_CACSIZE : Nat := 307
def MAXCACHED : Int := 281

/-! ### The hashes -/

/-- `hash_number`, of the bytes as they lie in memory. -/
def hash_number (ip : InAddr) : Nat :=
  let byte := fun i => (ip >>> (8 * i)).toNat % 256
  (((byte 0 * 2 + byte 1) * 2 + byte 2) * 2 + byte 3) % ARES_CACSIZE

/-- `*name`, a signed character, as it is added to an `unsigned int`. -/
def hashedChar (c : Char) : BitVec 32 := (BitVec.ofNat 8 c.toNat).signExtend 32

/-- `hash_name`: the first label counts. -/
def hash_name (name : Text) : Nat :=
  ((name.takeWhile (· ≠ '.')).foldl (fun hashv c => hashv + hashedChar c) 0).toNat % ARES_CACSIZE

/-! ### The cache -/

/-- A `struct hostent`. -/
structure HostEnt where
  h_name : Option Text
  h_aliases : List Text
  h_addr_list : List InAddr

/-- `struct cache`, without its links; an entry has a name and an address. -/
structure CacheEntry where
  h_name : Text
  h_aliases : List Text
  h_addr : InAddr
  h_addrs : List InAddr
  ref_count : Int
  ttl : Int
  expireat : Int

/-- All names, as the loop over `h_name` and `h_aliases` meets them. -/
def CacheEntry.names (e : CacheEntry) : List Text := e.h_name :: e.h_aliases

def CacheEntry.addresses (e : CacheEntry) : List InAddr := e.h_addr :: e.h_addrs

abbrev CacheId := Nat

/-- The globals of the cache, with the entries. -/
structure DnsCache where
  entry : CacheId → CacheEntry
  /-- The first entry never used. -/
  next : CacheId
  cacheTop : List CacheId
  name_list : ChainTable CacheId
  num_list : ChainTable CacheId
  cachedCount : Int

namespace DnsCache

def empty : DnsCache := ⟨fun _ => ⟨[], [], 0, [], 0, 0, 0⟩, 0, [], .empty, .empty, 0⟩

section

variable (s : DnsCache)

/-- The hash of the name of an entry, and of its first address. -/
def nameKey (cp : CacheId) : Nat := hash_name (s.entry cp).h_name
def numKey (cp : CacheId) : Nat := hash_number (s.entry cp).h_addr

def rem_cache (CurrentTime : Int) (ocp : CacheId) : DnsCache :=
  if 0 < (s.entry ocp).ref_count then
    { s with entry := Function.update s.entry ocp { s.entry ocp with expireat := CurrentTime + AR_TTL } }
  else
    { s with
      cacheTop := s.cacheTop.erase ocp
      name_list := s.name_list.del (s.nameKey ocp) ocp
      num_list := s.num_list.del (s.numKey ocp) ocp
      cachedCount := s.cachedCount - 1 }

def update_list (cachep : CacheId) : DnsCache :=
  if cachep ∈ s.cacheTop then { s with cacheTop := cachep :: s.cacheTop.erase cachep } else s

/-- `find_cache_name`. The second search compares the first alias only, again and again. -/
def find_cache_name (name : Text) : DnsCache × Option CacheId :=
  let hashv := hash_name name
  match (s.name_list hashv).find? fun cp => (s.entry cp).names.any fun t => irccmp t name = 0 with
  | some cp => (s.update_list cp, some cp)
  | none =>
    match s.cacheTop.find? fun cp =>
        hashv ≠ s.nameKey cp && (s.entry cp).h_aliases.head?.any fun t => irccmp name t = 0 with
    | some cp => (s.update_list cp, some cp)
    | none => (s, none)

def find_cache_number (addr : InAddr) : DnsCache × Option CacheId :=
  let hashv := hash_number addr
  match (s.num_list hashv).find? fun cp => addr ∈ (s.entry cp).addresses with
  | some cp => (s.update_list cp, some cp)
  | none =>
    match s.cacheTop.find? fun cp =>
        !(s.entry cp).h_addrs.isEmpty && hashv ≠ s.numKey cp && addr ∈ (s.entry cp).h_addrs with
    | some cp => (s.update_list cp, some cp)
    | none => (s, none)

/-- `add_to_cache` of the entry that was made. -/
def add_to_cache (CurrentTime : Int) (ocp : CacheId) : DnsCache :=
  let s : DnsCache :=
    { s with
      cacheTop := ocp :: s.cacheTop
      name_list := s.name_list.add (s.nameKey ocp) ocp
      num_list := s.num_list.add (s.numKey ocp) ocp
      cachedCount := s.cachedCount + 1 }
  if s.cachedCount > MAXCACHED then
    match s.cacheTop.getLast? with
    | some cp => s.rem_cache CurrentTime cp
    | none => s
  else s

/-- The loop of `make_cache` that looks for the addresses. -/
def findAddress : List InAddr → DnsCache × Option CacheId
  | [] => (s, none)
  | addr :: rest =>
    match s.find_cache_number addr with
    | (s, some cp) => (s, some cp)
    | (_, none) => findAddress rest

/-- `make_cache`, with the name, the addresses and the time to live of the request. -/
def make_cache (CurrentTime : Int) (hp : HostEnt) (ttl : Int) : DnsCache × Option CacheId :=
  match hp.h_name, hp.h_addr_list with
  | some h_name, h_addr :: h_addrs =>
    match s.findAddress hp.h_addr_list with
    | (s, some cp) => (s, some cp)
    | (_, none) =>
      let cp := s.next
      let ttl := if ttl < 600 then 600 else ttl
      let made : DnsCache :=
        { s with
          entry := Function.update s.entry cp
            ⟨h_name, hp.h_aliases, h_addr, h_addrs, 0, ttl, CurrentTime + ttl⟩
          next := cp + 1 }
      (made.add_to_cache CurrentTime cp, some cp)
  | _, _ => (s, none)

end

end DnsCache

/-! ### Runs -/

/-- A call, or somebody who refers to an answer or does no more. -/
inductive CacheEvent
  | make_cache (CurrentTime : Int) (hp : HostEnt) (ttl : Int)
  | find_cache_name (name : Text)
  | find_cache_number (addr : InAddr)
  | rem_cache (CurrentTime : Int) (ocp : CacheId)
  | refer (cp : CacheId) (ref_count : Int)

namespace DnsCache

/-- What a call does, and what it returns. -/
def step (s : DnsCache) : CacheEvent → DnsCache × Option CacheId
  | .make_cache CurrentTime hp ttl => s.make_cache CurrentTime hp ttl
  | .find_cache_name name => s.find_cache_name name
  | .find_cache_number addr => s.find_cache_number addr
  | .rem_cache CurrentTime ocp => (s.rem_cache CurrentTime ocp, none)
  | .refer cp ref_count =>
    ({ s with entry := Function.update s.entry cp { s.entry cp with ref_count } }, none)

end DnsCache

/-- The entries that the callers name are those of the cache. -/
def CacheEvent.Fits (s : DnsCache) : CacheEvent → Prop
  | .rem_cache _ ocp => ocp ∈ s.cacheTop
  | .refer cp _ => cp ∈ s.cacheTop
  | _ => True

/-- The states of all runs. -/
inductive CacheRun : DnsCache → Prop
  | start : CacheRun .empty
  | step {s : DnsCache} (run : CacheRun s) {event : CacheEvent} (fits : event.Fits s) : CacheRun (s.step event).1

/-! ### A sound cache -/

namespace DnsCache

/-- **Every entry is in the list once, and in the chain of its name and in that of its address**, and the
entries are counted. -/
structure Sound (s : DnsCache) : Prop where
  once : s.cacheTop.Nodup
  names : ChainTable.Holds s.nameKey s.cacheTop s.name_list
  numbers : ChainTable.Holds s.numKey s.cacheTop s.num_list
  count : s.cachedCount = s.cacheTop.length
  known : ∀ cp ∈ s.cacheTop, cp < s.next

/-- An entry with a name, and one with an address. -/
def HasName (s : DnsCache) (cp : CacheId) (name : Text) : Prop := ∃ t ∈ (s.entry cp).names, irccmp t name = 0
def HasNumber (s : DnsCache) (cp : CacheId) (addr : InAddr) : Prop := addr ∈ (s.entry cp).addresses

/-- **The search of a name finds an entry with it if there is one**, and no other. -/
structure NameComplete (s : DnsCache) (name : Text) : Prop where
  right : ∀ cp, (s.find_cache_name name).2 = some cp → cp ∈ s.cacheTop ∧ s.HasName cp name
  found : (∃ cp ∈ s.cacheTop, s.HasName cp name) → ((s.find_cache_name name).2).isSome = true

/-- **The search of an address finds an entry with it if there is one**, and no other. -/
structure NumberComplete (s : DnsCache) (addr : InAddr) : Prop where
  right : ∀ cp, (s.find_cache_number addr).2 = some cp → cp ∈ s.cacheTop ∧ s.HasNumber cp addr
  found : (∃ cp ∈ s.cacheTop, s.HasNumber cp addr) → ((s.find_cache_number addr).2).isSome = true

/-- **An entry with the name is reached**: with the hash of its own name, or with another one by the first
alias. -/
def Reached (s : DnsCache) (name : Text) : Prop :=
  ∃ cp ∈ s.cacheTop,
    if s.nameKey cp = hash_name name then s.HasName cp name
    else ∃ t ∈ (s.entry cp).h_aliases.head?, irccmp t name = 0

section

variable {s : DnsCache} {cp : CacheId} {name : Text} {addr : InAddr} {CurrentTime : Int}

theorem empty_sound : Sound .empty where
  once := List.nodup_nil
  names := .empty
  numbers := .empty
  count := rfl
  known _ member := absurd member List.not_mem_nil

/-- **An entry that was found goes to the front.** -/
theorem Sound.update_list (sound : s.Sound) (cp : CacheId) : (s.update_list cp).Sound := by
  unfold DnsCache.update_list
  split
  · rename_i member
    have perm := List.perm_cons_erase member
    exact ⟨perm.nodup_iff.mp sound.once, sound.names.perm perm, sound.numbers.perm perm,
      sound.count.trans (congrArg _ perm.length_eq), fun other inside => sound.known other (perm.mem_iff.mpr inside)⟩
  · exact sound

theorem mem_update_list {other : CacheId} : other ∈ (s.update_list cp).cacheTop ↔ other ∈ s.cacheTop := by
  unfold DnsCache.update_list
  split
  · rename_i member
    exact (List.perm_cons_erase member).mem_iff.symm
  · exact Iff.rfl

theorem Sound.setEntry (sound : s.Sound) {e : CacheEntry} (name : e.h_name = (s.entry cp).h_name)
    (addr : e.h_addr = (s.entry cp).h_addr) : Sound { s with entry := Function.update s.entry cp e } where
  once := sound.once
  names := sound.names.congr fun other _ => by
    by_cases same : other = cp
    · subst same
      simp [nameKey, name]
    · simp [nameKey, same]
  numbers := sound.numbers.congr fun other _ => by
    by_cases same : other = cp
    · subst same
      simp [numKey, addr]
    · simp [numKey, same]
  count := sound.count
  known := sound.known

/-- **An entry is removed from the list and from both chains**, unless somebody refers to it. -/
theorem Sound.rem_cache (sound : s.Sound) (member : cp ∈ s.cacheTop) : (s.rem_cache CurrentTime cp).Sound := by
  unfold DnsCache.rem_cache
  split
  · exact sound.setEntry rfl rfl
  · refine ⟨sound.once.erase _, sound.names.del sound.once cp, sound.numbers.del sound.once cp, ?_, ?_⟩
    · show s.cachedCount - 1 = ((s.cacheTop.erase cp).length : Int)
      have some_ := List.length_pos_of_mem member
      rw [List.length_erase_of_mem member, sound.count]
      omega
    · exact fun other inside => sound.known other (List.mem_of_mem_erase inside)

theorem mem_rem_cache {other : CacheId} (inside : other ∈ s.cacheTop)
    (kept : other ≠ cp ∨ 0 < (s.entry cp).ref_count) : other ∈ (s.rem_cache CurrentTime cp).cacheTop := by
  unfold DnsCache.rem_cache
  split
  · exact inside
  · rename_i free
    exact (List.mem_erase_of_ne (kept.resolve_right free)).mpr inside

/-- **A new entry comes to the front, and the last one may go.** -/
theorem Sound.add_to_cache (sound : s.Sound) (fresh : cp ∉ s.cacheTop) (old : cp < s.next) :
    (s.add_to_cache CurrentTime cp).Sound := by
  have added : Sound { s with
      cacheTop := cp :: s.cacheTop
      name_list := s.name_list.add (s.nameKey cp) cp
      num_list := s.num_list.add (s.numKey cp) cp
      cachedCount := s.cachedCount + 1 } :=
    { once := List.nodup_cons.mpr ⟨fresh, sound.once⟩
      names := sound.names.add fresh
      numbers := sound.numbers.add fresh
      count := by
        show s.cachedCount + 1 = ((cp :: s.cacheTop).length : Int)
        rw [List.length_cons, sound.count]
        rfl
      known := fun other inside => (List.mem_cons.mp inside).elim (fun same => same ▸ old) (sound.known other) }
  unfold DnsCache.add_to_cache
  dsimp only
  split
  · split
    · rename_i last
      exact added.rem_cache (List.mem_of_getLast? last)
    · exact added
  · exact added

theorem mem_add_to_cache {other : CacheId} (inside : other ∈ s.cacheTop) (held : 0 < (s.entry other).ref_count) :
    other ∈ (s.add_to_cache CurrentTime cp).cacheTop := by
  have later : other ∈ cp :: s.cacheTop := List.mem_cons_of_mem _ inside
  unfold DnsCache.add_to_cache
  dsimp only
  split
  · split
    · rename_i last _
      refine mem_rem_cache later ?_
      by_cases same : other = last
      · exact .inr (same ▸ held)
      · exact .inl same
    · exact later
  · exact later

/-! ### The searches -/

/-- A search leaves the cache, or an entry goes to the front. -/
def Searched (s after : DnsCache) : Prop := after = s ∨ ∃ cp, after = s.update_list cp

theorem find_cache_name_searched (s : DnsCache) (name : Text) : s.Searched (s.find_cache_name name).1 := by
  unfold find_cache_name
  dsimp only
  split
  · exact .inr ⟨_, rfl⟩
  · split
    · exact .inr ⟨_, rfl⟩
    · exact .inl rfl

theorem find_cache_number_searched (s : DnsCache) (addr : InAddr) :
    s.Searched (s.find_cache_number addr).1 := by
  unfold find_cache_number
  dsimp only
  split
  · exact .inr ⟨_, rfl⟩
  · split
    · exact .inr ⟨_, rfl⟩
    · exact .inl rfl

theorem findAddress_searched (s : DnsCache) (list : List InAddr) : s.Searched (s.findAddress list).1 := by
  induction list with
  | nil => exact .inl rfl
  | cons addr rest ih =>
    unfold findAddress
    split
    · rename_i after cp found
      have searched := s.find_cache_number_searched addr
      rw [found] at searched
      exact searched
    · exact ih

theorem Searched.sound {after : DnsCache} (searched : s.Searched after) (sound : s.Sound) : after.Sound := by
  rcases searched with rfl | ⟨cp, rfl⟩
  · exact sound
  · exact sound.update_list cp

theorem Searched.mem {after : DnsCache} (searched : s.Searched after) (inside : cp ∈ s.cacheTop) :
    cp ∈ after.cacheTop := by
  rcases searched with rfl | ⟨other, rfl⟩
  · exact inside
  · exact mem_update_list.mpr inside

/-- **What the search of a name returns** has the name and is reached. -/
theorem find_cache_name_some (sound : s.Sound) (found : (s.find_cache_name name).2 = some cp) :
    cp ∈ s.cacheTop ∧ s.HasName cp name ∧ s.Reached name := by
  unfold find_cache_name at found
  dsimp only at found
  split at found
  · rename_i first hit
    obtain rfl := Option.some.inj found
    obtain ⟨inside, key⟩ := (sound.names.mem _ _).mp (List.mem_of_find?_eq_some hit)
    have test := List.find?_some hit
    obtain ⟨t, member, same⟩ := List.any_eq_true.mp test
    have named : s.HasName first name := ⟨t, member, of_decide_eq_true same⟩
    exact ⟨inside, named, first, inside, by rw [if_pos key]; exact named⟩
  · split at found
    · rename_i _ first hit
      obtain rfl := Option.some.inj found
      have inside := List.mem_of_find?_eq_some hit
      have test := List.find?_some hit
      rw [Bool.and_eq_true, decide_eq_true_eq, Option.any_eq_true] at test
      obtain ⟨other, t, head, same⟩ := test
      have same := irccmp_eq_zero_comm (of_decide_eq_true same)
      refine ⟨inside, ⟨t, List.mem_cons_of_mem _ (List.mem_of_head? head), same⟩, first, inside, ?_⟩
      rw [if_neg (Ne.symm other)]
      exact ⟨t, head, same⟩
    · exact nomatch found

/-- **A name that reaches an entry is found.** -/
theorem find_cache_name_isSome (sound : s.Sound) (reached : s.Reached name) :
    ((s.find_cache_name name).2).isSome = true := by
  obtain ⟨cp, inside, test⟩ := reached
  unfold find_cache_name
  dsimp only
  split
  · rfl
  · rename_i first
    split
    · rfl
    · rename_i second
      exfalso
      split at test
      · rename_i key
        obtain ⟨t, member, same⟩ := test
        exact List.find?_eq_none.mp first cp ((sound.names.mem _ _).mpr ⟨inside, key⟩)
          (List.any_eq_true.mpr ⟨t, member, decide_eq_true same⟩)
      · rename_i key
        obtain ⟨t, head, same⟩ := test
        refine List.find?_eq_none.mp second cp inside ?_
        rw [Bool.and_eq_true, decide_eq_true_eq, Option.any_eq_true]
        exact ⟨Ne.symm key, t, head, decide_eq_true (irccmp_eq_zero_comm same)⟩

/-- **The search of a name is complete exactly if an entry with the name is reached.** -/
theorem nameComplete_iff (sound : s.Sound) (name : Text) :
    s.NameComplete name ↔ ((∃ cp ∈ s.cacheTop, s.HasName cp name) → s.Reached name) := by
  constructor
  · intro complete named
    obtain ⟨cp, found⟩ := Option.isSome_iff_exists.mp (complete.found named)
    exact (find_cache_name_some sound found).2.2
  · intro reached
    refine ⟨fun cp found => ?_, fun named => find_cache_name_isSome sound (reached named)⟩
    obtain ⟨inside, named, -⟩ := find_cache_name_some sound found
    exact ⟨inside, named⟩

/-- **The search of an address is complete**: where the hash of the first address is another one, the other
addresses are compared. -/
theorem numberComplete (sound : s.Sound) (addr : InAddr) : s.NumberComplete addr := by
  constructor
  · intro cp found
    unfold find_cache_number at found
    dsimp only at found
    split at found
    · rename_i first hit
      obtain rfl := Option.some.inj found
      have test := List.find?_some hit
      rw [decide_eq_true_eq] at test
      exact ⟨((sound.numbers.mem _ _).mp (List.mem_of_find?_eq_some hit)).1, test⟩
    · split at found
      · rename_i _ first hit
        obtain rfl := Option.some.inj found
        have test := List.find?_some hit
        rw [Bool.and_eq_true, decide_eq_true_eq] at test
        exact ⟨List.mem_of_find?_eq_some hit, List.mem_cons_of_mem _ test.2⟩
      · exact nomatch found
  · rintro ⟨cp, inside, member⟩
    unfold find_cache_number
    dsimp only
    split
    · rfl
    · rename_i first
      split
      · rfl
      · rename_i second
        exfalso
        by_cases key : s.numKey cp = hash_number addr
        · exact List.find?_eq_none.mp first cp ((sound.numbers.mem _ _).mpr ⟨inside, key⟩)
            (decide_eq_true member)
        · rcases List.mem_cons.mp member with same | later
          · exact key (congrArg hash_number same.symm)
          · refine List.find?_eq_none.mp second cp inside ?_
            have more : (s.entry cp).h_addrs ≠ [] := List.ne_nil_of_mem later
            simp [more, Ne.symm key, later]

/-! ### The calls -/

/-- **No entry that is referred to is freed** by a call. -/
def Keeps (s : DnsCache) (event : CacheEvent) : Prop :=
  ∀ cp ∈ s.cacheTop, 0 < (s.entry cp).ref_count → cp ∈ (s.step event).1.cacheTop

theorem Sound.makeEntry (sound : s.Sound) (e : CacheEntry) :
    Sound { s with entry := Function.update s.entry s.next e, next := s.next + 1 } where
  once := sound.once
  names := sound.names.congr fun cp inside => by
    simp [nameKey, Nat.ne_of_lt (sound.known cp inside)]
  numbers := sound.numbers.congr fun cp inside => by
    simp [numKey, Nat.ne_of_lt (sound.known cp inside)]
  count := sound.count
  known cp inside := Nat.lt_succ_of_lt (sound.known cp inside)

/-- **Every call keeps the cache sound, and frees no entry that is referred to.** -/
theorem Sound.step (sound : s.Sound) {event : CacheEvent} (fits : event.Fits s) :
    (s.step event).1.Sound ∧ s.Keeps event := by
  cases event with
  | make_cache CurrentTime hp ttl =>
    unfold Keeps DnsCache.step make_cache
    dsimp only
    split
    · rename_i h_name h_addr h_addrs _ _
      split
      · rename_i after cp found
        have searched := s.findAddress_searched hp.h_addr_list
        rw [found] at searched
        exact ⟨searched.sound sound, fun cp inside _ => searched.mem inside⟩
      · have fresh : s.next ∉ s.cacheTop := fun inside => absurd (sound.known _ inside) (Nat.lt_irrefl _)
        refine ⟨(sound.makeEntry _).add_to_cache fresh (Nat.lt_succ_self _), fun cp inside held => ?_⟩
        refine mem_add_to_cache inside ?_
        show 0 < (Function.update s.entry s.next _ cp).ref_count
        rw [Function.update_of_ne (Nat.ne_of_lt (sound.known cp inside))]
        exact held
    · exact ⟨sound, fun cp inside _ => inside⟩
  | find_cache_name name =>
    exact ⟨(s.find_cache_name_searched name).sound sound, fun cp inside _ =>
      (s.find_cache_name_searched name).mem inside⟩
  | find_cache_number addr =>
    exact ⟨(s.find_cache_number_searched addr).sound sound, fun cp inside _ =>
      (s.find_cache_number_searched addr).mem inside⟩
  | rem_cache CurrentTime ocp =>
    refine ⟨sound.rem_cache fits, fun cp inside held => mem_rem_cache inside ?_⟩
    by_cases same : cp = ocp
    · exact .inr (same ▸ held)
    · exact .inl same
  | refer cp ref_count => exact ⟨sound.setEntry rfl rfl, fun cp inside _ => inside⟩

theorem CacheRun.sound (run : CacheRun s) : s.Sound := by
  induction run with
  | start => exact empty_sound
  | step run fits ih => exact (ih.step fits).1

/-- **In every run the cache is sound, no call frees an entry that is referred to, and the search of an address
is complete; that of a name is exactly if an entry with the name is reached.** -/
theorem dns_cache_run (run : CacheRun s) :
    s.Sound ∧ (∀ event, event.Fits s → s.Keeps event) ∧ (∀ addr, s.NumberComplete addr) ∧
      ∀ name, s.NameComplete name ↔ ((∃ cp ∈ s.cacheTop, s.HasName cp name) → s.Reached name) := by
  have sound := CacheRun.sound run
  exact ⟨sound, fun event fits => (sound.step fits).2, numberComplete sound, nameComplete_iff sound⟩

end

def sampleHost : HostEnt :=
  ⟨some "host.org".toList, ["irc.org".toList, "chat.org".toList], [0x0100007f]⟩

def sampleCache : DnsCache := (DnsCache.empty.step (.make_cache 1000 sampleHost 600)).1

theorem sampleCache_run : CacheRun sampleCache := .step .start trivial

/-- The cache with one entry. -/
theorem dns_cache_run_sample :
    sampleCache.Sound ∧ (∀ event, event.Fits sampleCache → sampleCache.Keeps event) ∧
      (∀ addr, sampleCache.NumberComplete addr) ∧
        ∀ name, sampleCache.NameComplete name ↔
          ((∃ cp ∈ sampleCache.cacheTop, sampleCache.HasName cp name) → sampleCache.Reached name) :=
  dns_cache_run sampleCache_run

/-- **The second alias of an entry** is not found. -/
theorem not_dns_cache_run : ¬ ∀ s, CacheRun s →
    s.Sound ∧ (∀ event, event.Fits s → s.Keeps event) ∧ (∀ addr, s.NumberComplete addr) ∧
      ∀ name, s.NameComplete name := by
  intro all
  have complete := (all sampleCache sampleCache_run).2.2.2 "chat.org".toList
  have found := complete.found ⟨0, by decide, "chat.org".toList, by decide, by decide⟩
  exact absurd found (by decide +kernel)

end DnsCache

end PtlinkIrcd
