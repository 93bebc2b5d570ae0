/-
**The nick history.**

`whowas.c`: the slots of the ring `WHOWAS`, each threaded on the list of its hash bucket and, while
the client is on line, on the list of that client.

* `WhowasRing` — the slots, the pointers of both kinds of lists and `whowas_next`.
* `WhowasRing.add_history`, `off_history`, `get_history` — the three entry points; `found` is what
  `m_whowas` lists.
* `WhowasRing.Records r log` — the ring keeps the newest entries of the log, in the slots that their
  numbers give. Every operation keeps it (`Records.add_history`, `Records.off_history`).
* `run_history` — what every sequence of calls leaves in the ring.
-/

import Mathlib.Data.List.Induction
import Mathlib.Order.Fin.Basic
import PtlinkIrcd.Client.Exit
import PtlinkIrcd.Lib.LinkedLists

namespace PtlinkIrcd

def WW_MAX : Nat := 65536

def hash_whowas_name (name : Text) : Nat :=
  (name.foldl hashRound 0 &&& BitVec.ofNat 32 (WW_MAX - 1)).toNat

theorem hash_whowas_name_eq {name other : CString} (same : irccmp name.1 other.1 = 0) :
    hash_whowas_name name.1 = hash_whowas_name other.1 :=
  hashNickName_eq same

/-! ### The ring -/

abbrev WhowasSlot := Fin NICKNAMEHISTORYLENGTH

/-- What `add_history` reads of a client; a nick has at most `NICKLEN` characters. -/
structure Nicked where
  name : Text
  username : Text
  realhost : Text
  host : Text
  info : Text
  server : Text
  short : name.length ≤ NICKLEN
  proper : Char.ofNat 0 ∉ name

/-- The fields that a slot keeps of a client. -/
structure Entry where
  name : Text
  username : Text
  realhost : Text
  hostname : Text
  realname : Text
  servername : Text
  logoff : Int
  online : Option ClientId

/-- `struct Whowas` without its links; `hashv` is `none` for -1. -/
structure Slot extends Entry where
  hashv : Option Nat

/-- The globals of `whowas.c`. The heads of `links` are `WHOWASHASH`, those of `clinks` the
`whowas` pointers of the clients. -/
structure WhowasRing where
  WHOWAS : WhowasSlot → Slot
  links : Lib.Links WhowasSlot Nat
  clinks : Lib.Links WhowasSlot ClientId
  whowas_next : WhowasSlot

theorem history_pos : 0 < NICKNAMEHISTORYLENGTH := by decide

namespace WhowasRing

def initwhowas : WhowasRing where
  WHOWAS _ := ⟨⟨[], [], [], [], [], [], 0, none⟩, none⟩
  links := .clear
  clinks := .clear
  whowas_next := ⟨0, history_pos⟩

/-- What a slot keeps of a client that leaves its nick. -/
def entryOf (user : Nicked) (cptr : ClientId) (online : Bool) (now : Int) : Entry where
  name := user.name.take NICKLEN
  username := user.username
  realhost := user.realhost
  hostname := user.host
  realname := user.info
  servername := user.server
  logoff := now
  online := if online then some cptr else none

/-- The start of `add_history`: the old content of the next slot leaves its lists. -/
def release (r : WhowasRing) : WhowasRing :=
  let who := r.WHOWAS r.whowas_next
  match who.hashv with
  | none => r
  | some hashv =>
    let r :=
      match who.online with
      | some cptr => { r with clinks := r.clinks.remove cptr r.whowas_next }
      | none => r
    { r with links := r.links.remove hashv r.whowas_next }

/-- `whowas_next++`, and back to the start at the end of the ring. -/
def advance (slot : WhowasSlot) : WhowasSlot :=
  if inside : slot.val + 1 < NICKNAMEHISTORYLENGTH then ⟨slot.val + 1, inside⟩
  else ⟨0, history_pos⟩

/-- The rest of `add_history`: the next slot is filled and put on its lists. -/
def fill (r : WhowasRing) (user : Nicked) (cptr : ClientId) (online : Bool) (now : Int) :
    WhowasRing where
  WHOWAS := Function.update r.WHOWAS r.whowas_next
    ⟨entryOf user cptr online now, some (hash_whowas_name user.name)⟩
  links := r.links.push (hash_whowas_name user.name) r.whowas_next
  clinks := if online then r.clinks.push cptr r.whowas_next else r.clinks
  whowas_next := advance r.whowas_next

def add_history (r : WhowasRing) (user : Nicked) (cptr : ClientId) (online : Bool) (now : Int) :
    WhowasRing :=
  r.release.fill user cptr online now

/-- The loop of `off_history` from `temp` on; `none` when the fuel runs out. -/
def offLoop (cptr : ClientId) : Nat → Option WhowasSlot → WhowasRing → Option WhowasRing
  | _, none, r => some r
  | 0, some _, _ => none
  | fuel + 1, some temp, r =>
    let next := r.clinks.next temp
    let off : Slot := { r.WHOWAS temp with online := none }
    offLoop cptr fuel next
      { r with
        WHOWAS := Function.update r.WHOWAS temp off
        clinks := r.clinks.remove cptr temp }

/-- `off_history`: a list without repetition is no longer than the ring. -/
def off_history (r : WhowasRing) (cptr : ClientId) : Option WhowasRing :=
  offLoop cptr NICKNAMEHISTORYLENGTH (r.clinks.head cptr) r

/-- The slots on the list of a hash bucket. -/
def bucket (r : WhowasRing) (hashv : Nat) : Option (List WhowasSlot) :=
  Lib.Links.walk r.links.next NICKNAMEHISTORYLENGTH (r.links.head hashv)

def clist (r : WhowasRing) (cptr : ClientId) : Option (List WhowasSlot) :=
  Lib.Links.walk r.clinks.next NICKNAMEHISTORYLENGTH (r.clinks.head cptr)

/-- The entries that `m_whowas` finds for a nick, in the order of its list. -/
def found (r : WhowasRing) (nick : Text) : Option (List Entry) :=
  (r.bucket (hash_whowas_name nick)).map fun slots =>
    (slots.map fun slot => (r.WHOWAS slot).toEntry).filter fun who => irccmp nick who.name = 0

/-- `get_history`: the client of the first entry with that nick that is not too old. -/
def get_history (r : WhowasRing) (nick : Text) (timelimit now : Int) :
    Option (Option ClientId) :=
  (r.bucket (hash_whowas_name nick)).map fun slots =>
    ((slots.find? fun slot => irccmp nick (r.WHOWAS slot).name = 0 ∧
      ¬ (r.WHOWAS slot).logoff < now - timelimit).map fun slot => (r.WHOWAS slot).online).join

/-! ### The log behind the ring -/

def offEntry (cptr : ClientId) (who : Entry) : Entry :=
  if who.online = some cptr then { who with online := none } else who

theorem offEntry_name (cptr : ClientId) (who : Entry) : (offEntry cptr who).name = who.name := by
  unfold offEntry
  split <;> rfl

theorem offEntry_online (cptr other : ClientId) (who : Entry) :
    (offEntry cptr who).online = some other ↔ who.online = some other ∧ other ≠ cptr := by
  unfold offEntry
  by_cases same : who.online = some cptr
  · rw [if_pos same, same]
    constructor
    · exact fun eq => absurd eq nofun
    · rintro ⟨eq, apart⟩
      exact absurd (Option.some.inj eq).symm apart
  · rw [if_neg same]
    refine ⟨fun eq => ⟨eq, ?_⟩, And.left⟩
    rintro rfl
    exact same eq

/-- The slot of the entry with a number. -/
def slotOf (number : Nat) : WhowasSlot :=
  ⟨number % NICKNAMEHISTORYLENGTH, Nat.mod_lt _ history_pos⟩

theorem advance_slotOf (number : Nat) : advance (slotOf number) = slotOf (number + 1) := by
  unfold advance slotOf
  apply Fin.ext
  by_cases inside : number % NICKNAMEHISTORYLENGTH + 1 < NICKNAMEHISTORYLENGTH
  · rw [dif_pos inside]
    simp only [NICKNAMEHISTORYLENGTH] at inside ⊢
    omega
  · rw [dif_neg inside]
    simp only [NICKNAMEHISTORYLENGTH] at inside ⊢
    omega

/-- The entries of a log, newest first, with the slots that their numbers give. -/
def placed : List Entry → List (WhowasSlot × Entry)
  | [] => []
  | who :: log => (slotOf log.length, who) :: placed log

@[simp] theorem length_placed (log : List Entry) : (placed log).length = log.length := by
  induction log with
  | nil => rfl
  | cons who log ih => simp [placed, ih]

theorem map_snd_placed (log : List Entry) : (placed log).map Prod.snd = log := by
  induction log with
  | nil => rfl
  | cons who log ih => simp [placed, ih]

theorem placed_map (f : Entry → Entry) (log : List Entry) :
    placed (log.map f) = (placed log).map fun item => (item.1, f item.2) := by
  induction log with
  | nil => rfl
  | cons who log ih => simp [placed, ih]

theorem fst_getElem_placed (log : List Entry) (k : Nat) (inside : k < (placed log).length) :
    ((placed log)[k]).1 = slotOf (log.length - 1 - k) := by
  induction log generalizing k with
  | nil => exact absurd inside (Nat.not_lt_zero k)
  | cons who log ih => cases k with
    | zero => rfl
    | succ k =>
      have within : k < (placed log).length := Nat.lt_of_succ_lt_succ inside
      show ((placed log)[k]).1 = _
      rw [ih k within, List.length_cons]
      congr 1
      omega

/-- The newest entries of a log, as many as the ring has slots. -/
def recent (log : List Entry) : List (WhowasSlot × Entry) :=
  (placed log).take NICKNAMEHISTORYLENGTH

/-- The recent entries but the one that the next entry will overwrite. -/
def kept (log : List Entry) : List (WhowasSlot × Entry) :=
  (placed log).take (NICKNAMEHISTORYLENGTH - 1)

theorem length_recent_le (log : List Entry) : (recent log).length ≤ NICKNAMEHISTORYLENGTH :=
  List.length_take_le ..

theorem recent_cons (who : Entry) (log : List Entry) :
    recent (who :: log) = (slotOf log.length, who) :: kept log := by
  have count : NICKNAMEHISTORYLENGTH = (NICKNAMEHISTORYLENGTH - 1) + 1 := by decide
  unfold recent kept
  rw [count]
  rfl

/-- **The recent entries are in different slots.** -/
theorem nodup_recent (log : List Entry) : ((recent log).map Prod.fst).Nodup := by
  refine List.pairwise_iff_getElem.mpr fun i j hi hj less same => ?_
  rw [List.length_map] at hi hj
  have bound : (recent log).length ≤ log.length := by
    rw [recent, List.length_take, length_placed]
    exact Nat.min_le_right _ _
  have within := length_recent_le log
  simp only [List.getElem_map, recent, List.getElem_take, fst_getElem_placed] at same
  have numbers := Fin.val_eq_of_eq same
  simp only [slotOf, NICKNAMEHISTORYLENGTH] at numbers within
  omega

theorem fresh_slot (log : List Entry) :
    slotOf log.length ∉ (kept log).map Prod.fst := by
  have once := nodup_recent
    ((⟨[], [], [], [], [], [], 0, none⟩ : Entry) :: log)
  rw [recent_cons, List.map_cons] at once
  exact (List.nodup_cons.mp once).1

/-- Either the next slot is unused, or it holds the oldest of the recent entries. -/
theorem recent_cases (log : List Entry) :
    recent log = kept log ∨ ∃ who, recent log = kept log ++ [(slotOf log.length, who)] := by
  by_cases full : NICKNAMEHISTORYLENGTH ≤ log.length
  · right
    have count : (NICKNAMEHISTORYLENGTH - 1) + 1 = NICKNAMEHISTORYLENGTH := by decide
    have inside : NICKNAMEHISTORYLENGTH - 1 < (placed log).length := by
      rw [length_placed]
      omega
    refine ⟨((placed log)[NICKNAMEHISTORYLENGTH - 1]).2, ?_⟩
    have slot := fst_getElem_placed log _ inside
    have oldest : slotOf log.length = slotOf (log.length - 1 - (NICKNAMEHISTORYLENGTH - 1)) := by
      unfold slotOf
      apply Fin.ext
      simp only [NICKNAMEHISTORYLENGTH] at full ⊢
      omega
    have last := List.take_succ_eq_append_getElem inside
    rw [count] at last
    unfold recent kept
    rw [oldest, ← slot]
    exact last
  · left
    unfold recent kept
    rw [List.take_of_length_le (by rw [length_placed]; omega),
      List.take_of_length_le (by rw [length_placed]; omega)]

/-! ### What the ring keeps -/

theorem length_byKey_le {κ : Type} [DecidableEq κ] (key : WhowasSlot × Entry → Option κ)
    (log : List Entry) (k : κ) :
    (Lib.Links.byKey key Prod.fst (recent log) k).length ≤ NICKNAMEHISTORYLENGTH :=
  le_trans (Lib.Links.byKey_length_le ..) (length_recent_le log)

def bucketOf (item : WhowasSlot × Entry) : Option Nat := some (hash_whowas_name item.2.name)

/-- The client of an entry, while it is on line. -/
def onlineOf (item : WhowasSlot × Entry) : Option ClientId := item.2.online

/-- The ring keeps the recent entries of the log. -/
structure Records (r : WhowasRing) (log : List Entry) : Prop where
  next : r.whowas_next = slotOf log.length
  used : ∀ item ∈ recent log, r.WHOWAS item.1 = ⟨item.2, bucketOf item⟩
  free : ∀ slot, slot ∉ (recent log).map Prod.fst → (r.WHOWAS slot).hashv = none
  proper : ∀ who ∈ log, Char.ofNat 0 ∉ who.name
  buckets : r.links.Lists (Lib.Links.byKey bucketOf Prod.fst (recent log))
  clients : r.clinks.Lists (Lib.Links.byKey onlineOf Prod.fst (recent log))

theorem records_init : Records initwhowas [] where
  next := rfl
  used item member := absurd member (by simp [recent, placed])
  free _ _ := rfl
  proper _ member := absurd member List.not_mem_nil
  buckets := Lib.Links.Lists.clear
  clients := Lib.Links.Lists.clear

namespace Records

variable {r : WhowasRing} {log : List Entry}

/-- **The next slot leaves its lists**, and only those lists change. -/
theorem release (records : Records r log) :
    r.release.WHOWAS = r.WHOWAS ∧ r.release.whowas_next = r.whowas_next ∧
      r.release.links.Lists (Lib.Links.byKey bucketOf Prod.fst (kept log)) ∧
      r.release.clinks.Lists (Lib.Links.byKey onlineOf Prod.fst (kept log)) := by
  rcases recent_cases log with same | ⟨who, same⟩
  · have unused : (r.WHOWAS r.whowas_next).hashv = none := by
      rw [records.next]
      exact records.free _ (same ▸ fresh_slot log)
    unfold WhowasRing.release
    simp only [unused]
    exact ⟨trivial, trivial, same ▸ records.buckets, same ▸ records.clients⟩
  · have content : r.WHOWAS r.whowas_next = ⟨who, some (hash_whowas_name who.name)⟩ := by
      rw [records.next]
      exact records.used (slotOf log.length, who) (by rw [same]; simp)
    have buckets := records.buckets
    have clients := records.clients
    rw [same] at buckets clients
    unfold WhowasRing.release
    simp only [content]
    cases online : who.online with
    | none => exact ⟨rfl, rfl, records.next ▸ buckets.shrink rfl, clients.shrink_none online⟩
    | some cptr =>
      exact ⟨rfl, rfl, records.next ▸ buckets.shrink rfl, records.next ▸ clients.shrink online⟩

/-- **Recording an entry.** -/
theorem add_history (records : Records r log) (user : Nicked) (cptr : ClientId) (online : Bool)
    (now : Int) :
    Records (r.add_history user cptr online now) (entryOf user cptr online now :: log) := by
  obtain ⟨slots, next, buckets, clients⟩ := records.release
  have place : r.release.whowas_next = slotOf log.length := next.trans records.next
  have name : (entryOf user cptr online now).name = user.name := List.take_of_length_le user.short
  have fresh := fresh_slot log
  have content : (r.add_history user cptr online now).WHOWAS =
      Function.update r.WHOWAS (slotOf log.length)
        ⟨entryOf user cptr online now, some (hash_whowas_name user.name)⟩ := by
    rw [← place, ← slots]
    rfl
  have keptOld : ∀ item ∈ kept log, item ∈ recent log := fun item member => by
    rcases recent_cases log with same | ⟨who, same⟩
    · exact same ▸ member
    · exact same ▸ List.mem_append_left _ member
  refine ⟨?_, fun item member => ?_, fun slot outside => ?_, fun who member => ?_, ?_, ?_⟩
  · show advance r.release.whowas_next = slotOf (log.length + 1)
    rw [place, advance_slotOf]
  · rw [recent_cons, List.mem_cons] at member
    rw [content]
    rcases member with rfl | member
    · rw [Function.update_self, bucketOf, name]
    · have apart : item.1 ≠ slotOf log.length := fun same =>
        fresh (same ▸ List.mem_map_of_mem member)
      rw [Function.update_of_ne apart, records.used item (keptOld item member)]
  · rw [recent_cons, List.map_cons, List.mem_cons, not_or] at outside
    rw [content, Function.update_of_ne outside.1]
    refine records.free slot fun member => ?_
    rcases recent_cases log with same | ⟨who, same⟩
    · exact outside.2 (same ▸ member)
    · rw [same, List.map_append, List.mem_append] at member
      exact member.elim outside.2 fun last => outside.1 (List.mem_singleton.mp last)
  · rcases List.mem_cons.mp member with rfl | member
    · rw [name]
      exact user.proper
    · exact records.proper who member
  · rw [recent_cons]
    have grown := buckets.grow (slotOf log.length, entryOf user cptr online now) rfl fresh
    rw [name] at grown
    show (r.release.links.push _ r.release.whowas_next).Lists _
    rwa [place]
  · rw [recent_cons]
    cases online with
    | false =>
      rw [Lib.Links.byKey_cons_none rfl]
      exact clients
    | true =>
      have grown := clients.grow (slotOf log.length, entryOf user cptr true now) (k := cptr) rfl
        fresh
      show (r.release.clinks.push cptr r.release.whowas_next).Lists _
      rwa [place]

end Records

/-! ### Going off -/

theorem offLoop_spec (cptr : ClientId) {fuel : Nat} {rest : List WhowasSlot} {r : WhowasRing}
    {lists : ClientId → List WhowasSlot} (threads : r.clinks.Lists lists)
    (here : lists cptr = rest) (enough : rest.length ≤ fuel) :
    ∃ after, offLoop cptr fuel rest.head? r = some after ∧ after.links = r.links ∧
      after.whowas_next = r.whowas_next ∧
      after.clinks.Lists (Function.update lists cptr []) ∧
      ∀ slot, after.WHOWAS slot =
        if slot ∈ rest then ({ r.WHOWAS slot with online := none } : Slot) else r.WHOWAS slot := by
  induction rest generalizing fuel r lists with
  | nil =>
    have same : Function.update lists cptr [] = lists := by
      rw [← here]
      exact Function.update_eq_self cptr lists
    refine ⟨r, by cases fuel <;> rfl, rfl, rfl, same.symm ▸ threads, fun slot => ?_⟩
    rw [if_neg List.not_mem_nil]
  | cons temp rest ih => cases fuel with
    | zero => exact absurd enough (Nat.not_succ_le_zero _)
    | succ fuel =>
      have follows : r.clinks.next temp = rest.head? := threads.next cptr [] temp rest here
      have removed := threads.remove (l := []) here
      have once : temp ∉ rest := (List.nodup_cons.mp (here ▸ threads.nodup cptr)).1
      obtain ⟨after, ran, links, next, lists', slots⟩ := ih
        (r := { r with
          WHOWAS := Function.update r.WHOWAS temp { r.WHOWAS temp with online := none }
          clinks := r.clinks.remove cptr temp })
        removed (by rw [Function.update_self, List.nil_append]) (Nat.le_of_succ_le_succ enough)
      refine ⟨after, ?_, links, next, ?_, fun slot => ?_⟩
      · rw [← ran, ← follows]
        rfl
      · rwa [Function.update_idem] at lists'
      · rw [slots slot]
        by_cases same : slot = temp
        · subst same
          rw [if_neg once, if_pos List.mem_cons_self]
          exact Function.update_self ..
        · have kept : Function.update r.WHOWAS temp { r.WHOWAS temp with online := none } slot =
              r.WHOWAS slot := Function.update_of_ne same ..
          simp only [kept, List.mem_cons, same, false_or]

theorem recent_off (cptr : ClientId) (log : List Entry) :
    recent (log.map (offEntry cptr)) =
      (recent log).map fun item => (item.1, offEntry cptr item.2) := by
  rw [recent, placed_map, ← List.map_take]
  rfl

theorem mem_clist_iff {log : List Entry} {item : WhowasSlot × Entry} (member : item ∈ recent log)
    (cptr : ClientId) :
    item.1 ∈ Lib.Links.byKey onlineOf Prod.fst (recent log) cptr ↔ item.2.online = some cptr := by
  rw [Lib.Links.mem_byKey]
  refine ⟨?_, fun online => ⟨item, member, online, rfl⟩⟩
  rintro ⟨other, inLog, online, same⟩
  rwa [List.inj_on_of_nodup_map (nodup_recent log) inLog member same] at online

/-- **A client goes off**: its entries stay, without a client. -/
theorem Records.off_history {r : WhowasRing} {log : List Entry} (records : Records r log)
    (cptr : ClientId) :
    ∃ after, r.off_history cptr = some after ∧ Records after (log.map (offEntry cptr)) := by
  obtain ⟨after, ran, links, next, lists, slots⟩ := offLoop_spec cptr records.clients rfl
    (length_byKey_le onlineOf log cptr)
  rw [← records.clients.head] at ran
  have places : (recent (log.map (offEntry cptr))).map Prod.fst = (recent log).map Prod.fst := by
    rw [recent_off, List.map_map]
    rfl
  refine ⟨after, ran, ?_, fun item member => ?_, fun slot outside => ?_, fun who member => ?_,
    ?_, ?_⟩
  · rw [next, records.next, List.length_map]
  · rw [recent_off] at member
    obtain ⟨old, inLog, rfl⟩ := List.mem_map.mp member
    rw [slots, records.used old inLog]
    by_cases online : old.2.online = some cptr
    · rw [if_pos ((mem_clist_iff inLog cptr).mpr online)]
      simp [offEntry, online, bucketOf]
    · rw [if_neg (mt (mem_clist_iff inLog cptr).mp online)]
      simp [offEntry, online, bucketOf]
  · rw [places] at outside
    have unused := records.free slot outside
    rw [slots]
    split <;> exact unused
  · obtain ⟨old, inLog, rfl⟩ := List.mem_map.mp member
    rw [offEntry_name]
    exact records.proper old inLog
  · rw [links, recent_off]
    refine records.buckets.congr fun hashv => ?_
    simp only [Lib.Links.byKey, List.filter_map, List.map_map, Function.comp_def, bucketOf,
      offEntry_name]
    rfl
  · refine lists.congr fun other => ?_
    rw [recent_off]
    simp only [Lib.Links.byKey, List.filter_map, List.map_map, Function.comp_def, onlineOf,
      offEntry_online]
    by_cases same : other = cptr
    · subst same
      simp
    · rw [Function.update_of_ne same]
      simp only [ne_eq, same, not_false_eq_true, and_true]
      rfl

/-! ### What the ring answers -/

namespace Records

variable {r : WhowasRing} {log : List Entry}

theorem bucket (records : Records r log) (hashv : Nat) :
    r.bucket hashv = some (Lib.Links.byKey bucketOf Prod.fst (recent log) hashv) :=
  records.buckets.walk hashv (length_byKey_le bucketOf log hashv)

theorem clist (records : Records r log) (cptr : ClientId) :
    r.clist cptr = some (Lib.Links.byKey onlineOf Prod.fst (recent log) cptr) :=
  records.clients.walk cptr (length_byKey_le onlineOf log cptr)

/-- A list by key names a slot once when its entry has the key, and else not at all. -/
theorem count_byKey {κ : Type} [DecidableEq κ] (key : WhowasSlot × Entry → Option κ)
    (log : List Entry) (k : κ) (slot : WhowasSlot) :
    (Lib.Links.byKey key Prod.fst (recent log) k).count slot =
      if ∃ item ∈ recent log, key item = some k ∧ item.1 = slot then 1 else 0 := by
  have once : (Lib.Links.byKey key Prod.fst (recent log) k).Nodup :=
    (nodup_recent log).sublist (List.Sublist.map _ List.filter_sublist)
  rw [once.count]
  exact if_congr Lib.Links.mem_byKey rfl rfl

theorem map_slots (records : Records r log) {items : List (WhowasSlot × Entry)}
    (inside : ∀ item ∈ items, item ∈ recent log) :
    (items.map Prod.fst).map (fun slot => (r.WHOWAS slot).toEntry) = items.map Prod.snd := by
  rw [List.map_map]
  refine List.map_congr_left fun item member => ?_
  show (r.WHOWAS item.1).toEntry = item.2
  rw [records.used item (inside item member)]

theorem map_snd_recent (log : List Entry) :
    (recent log).map Prod.snd = log.take NICKNAMEHISTORYLENGTH := by
  rw [recent, List.map_take, map_snd_placed]

/-- **What is found for a nick**: the recent entries with that name, newest first. -/
theorem found (records : Records r log) (nick : CString) :
    r.found nick.1 =
      some ((log.take NICKNAMEHISTORYLENGTH).filter fun who => irccmp nick.1 who.name = 0) := by
  have inside : ∀ item ∈ (recent log).filter fun item =>
      bucketOf item = some (hash_whowas_name nick.1), item ∈ recent log :=
    fun item member => List.mem_of_mem_filter member
  rw [WhowasRing.found, records.bucket, Option.map_some, Lib.Links.byKey,
    records.map_slots inside, ← map_snd_recent, List.filter_map, List.filter_map,
    List.filter_filter]
  congr 2
  refine List.filter_congr fun item member => ?_
  have proper : Char.ofNat 0 ∉ item.2.name := by
    refine records.proper item.2 (List.mem_of_mem_take (i := NICKNAMEHISTORYLENGTH) ?_)
    rw [← map_snd_recent]
    exact List.mem_map_of_mem member
  by_cases same : irccmp nick.1 item.2.name = 0
  · have bucket := @hash_whowas_name_eq nick ⟨item.2.name, proper⟩ same
    simp [same, bucketOf, bucket]
  · simp [same]

/-- **What a chase finds**: the client of the newest recent entry that is not too old. -/
theorem get_history (records : Records r log) (nick : CString) (timelimit now : Int) :
    r.get_history nick.1 timelimit now =
      some (((log.take NICKNAMEHISTORYLENGTH).find? fun who => irccmp nick.1 who.name = 0 ∧
        ¬ who.logoff < now - timelimit).map Entry.online).join := by
  let young : Entry → Bool := fun who => ¬ who.logoff < now - timelimit
  have both : (fun who : Entry => decide (irccmp nick.1 who.name = 0 ∧
      ¬ who.logoff < now - timelimit)) =
      fun who => decide (decide (irccmp nick.1 who.name = 0) = true ∧ young who = true) := by
    funext who
    simp [young]
  have listed := records.found nick
  rw [WhowasRing.found, Option.map_eq_some_iff] at listed
  obtain ⟨slots, walked, entries⟩ := listed
  have first := congrArg (List.find? young) entries
  rw [List.find?_filter, List.find?_filter, ← both, List.find?_map] at first
  rw [WhowasRing.get_history, walked, Option.map_some, ← first, Option.map_map]
  rfl

end Records

/-! ### Every sequence of calls -/

/-- A call of `add_history` or `off_history`. -/
inductive HistoryCall
  | add (user : Nicked) (cptr : ClientId) (online : Bool) (now : Int)
  | off (cptr : ClientId)

def call (r : WhowasRing) : HistoryCall → Option WhowasRing
  | .add user cptr online now => some (r.add_history user cptr online now)
  | .off cptr => r.off_history cptr

def run (calls : List HistoryCall) : Option WhowasRing := calls.foldlM call initwhowas

def note (log : List Entry) : HistoryCall → List Entry
  | .add user cptr online now => entryOf user cptr online now :: log
  | .off cptr => log.map (offEntry cptr)

/-- The entries recorded by a sequence of calls, newest first. -/
def logged (calls : List HistoryCall) : List Entry := calls.foldl note []

theorem Records.call {r : WhowasRing} {log : List Entry} (records : Records r log)
    (call : HistoryCall) : ∃ after, r.call call = some after ∧ Records after (note log call) := by
  cases call with
  | add user cptr online now => exact ⟨_, rfl, records.add_history user cptr online now⟩
  | off cptr => exact records.off_history cptr

/-- **Every sequence of calls succeeds**, and the ring follows the log. -/
theorem records_run (calls : List HistoryCall) :
    ∃ r, run calls = some r ∧ Records r (logged calls) := by
  induction calls using List.reverseRecOn with
  | nil => exact ⟨initwhowas, rfl, records_init⟩
  | append_singleton calls last ih =>
    obtain ⟨r, ran, records⟩ := ih
    obtain ⟨after, called, records'⟩ := records.call last
    refine ⟨after, ?_, ?_⟩
    · rw [run, List.foldlM_append, ← run, ran]
      show (r.call last >>= fun r => pure r) = some after
      rw [called]
      rfl
    · rw [logged, List.foldl_append]
      exact records'

/-- An entry that names a client was added for it, and the client has not gone off since. -/
theorem online_of_logged {calls : List HistoryCall} {who : Entry} (member : who ∈ logged calls)
    {cptr : ClientId} (online : who.online = some cptr) :
    ∃ before user now after, calls = before ++ .add user cptr true now :: after ∧
      HistoryCall.off cptr ∉ after ∧ who = entryOf user cptr true now := by
  induction calls using List.reverseRecOn generalizing who with
  | nil => exact absurd member List.not_mem_nil
  | append_singleton calls last ih =>
    have extend : ∀ {old : Entry}, old ∈ logged calls → old.online = some cptr →
        last ≠ .off cptr → ∃ before user now after,
          calls ++ [last] = before ++ .add user cptr true now :: after ∧
          HistoryCall.off cptr ∉ after ∧ old = entryOf user cptr true now := by
      intro old inLog named apart
      obtain ⟨before, user, now, after, split, absent, same⟩ := ih inLog named
      refine ⟨before, user, now, after ++ [last], by rw [split]; simp, ?_, same⟩
      rw [List.mem_append, List.mem_singleton, not_or]
      exact ⟨absent, apart.symm⟩
    rw [logged, List.foldl_append] at member
    cases last with
    | add user other flag now =>
      rcases List.mem_cons.mp member with rfl | inLog
      · cases flag with
        | false => exact absurd online nofun
        | true =>
          obtain rfl : other = cptr := Option.some.inj online
          exact ⟨calls, user, now, [], rfl, List.not_mem_nil, rfl⟩
      · exact extend inLog online nofun
    | off other =>
      obtain ⟨old, inLog, rfl⟩ := List.mem_map.mp member
      obtain ⟨named, apart⟩ := (offEntry_online other cptr old).mp online
      have same : offEntry other old = old :=
        if_neg fun eq => apart (Option.some.inj (named.symm.trans eq))
      rw [same]
      exact extend inLog named fun eq => apart (HistoryCall.off.inj eq).symm

/-- **The nick history over every sequence of calls.** What is found for a nick are the recent
entries with that name, newest first; every slot in use is once on the list of its bucket and, while
its client is on line, once on the list of the client; a chase never ends at a client that has gone
off since the entry was made. -/
theorem run_history (calls : List HistoryCall) :
    ∃ r, run calls = some r ∧
      (∀ nick : CString, r.found nick.1 = some
        (((logged calls).take NICKNAMEHISTORYLENGTH).filter fun who =>
          irccmp nick.1 who.name = 0)) ∧
      (∀ hashv, ∃ slots, r.bucket hashv = some slots ∧
        ∀ slot, slots.count slot = if (r.WHOWAS slot).hashv = some hashv then 1 else 0) ∧
      (∀ cptr, ∃ slots, r.clist cptr = some slots ∧
        ∀ slot, slots.count slot =
          if (r.WHOWAS slot).hashv ≠ none ∧ (r.WHOWAS slot).online = some cptr then 1 else 0) ∧
      (∀ (nick : CString) (timelimit now : Int), ∃ answer,
        r.get_history nick.1 timelimit now = some answer ∧
        ∀ cptr, answer = some cptr → ∃ before user time after,
          calls = before ++ .add user cptr true time :: after ∧ HistoryCall.off cptr ∉ after ∧
            irccmp nick.1 user.name = 0 ∧ now - timelimit ≤ time) := by
  obtain ⟨r, ran, records⟩ := records_run calls
  have holder : ∀ slot, (r.WHOWAS slot).hashv ≠ none → ∃ item ∈ recent (logged calls),
      item.1 = slot := by
    intro slot inUse
    by_contra unheld
    refine inUse (records.free slot fun member => unheld ?_)
    exact List.mem_map.mp member
  refine ⟨r, ran, records.found, fun hashv => ⟨_, records.bucket hashv, fun slot => ?_⟩,
    fun cptr => ⟨_, records.clist cptr, fun slot => ?_⟩,
    fun nick timelimit now => ⟨_, records.get_history nick timelimit now, fun cptr named => ?_⟩⟩
  · rw [Records.count_byKey]
    refine if_congr ⟨?_, fun here => ?_⟩ rfl rfl
    · rintro ⟨item, member, keyed, rfl⟩
      rw [records.used item member]
      exact keyed
    · obtain ⟨item, member, rfl⟩ := holder slot (by rw [here]; nofun)
      rw [records.used item member] at here
      exact ⟨item, member, here, rfl⟩
  · rw [Records.count_byKey]
    refine if_congr ⟨?_, fun here => ?_⟩ rfl rfl
    · rintro ⟨item, member, keyed, rfl⟩
      rw [records.used item member]
      exact ⟨nofun, keyed⟩
    · obtain ⟨item, member, rfl⟩ := holder slot here.1
      rw [records.used item member] at here
      exact ⟨item, member, here.2, rfl⟩
  · rw [Option.join_eq_some_iff, Option.map_eq_some_iff] at named
    obtain ⟨who, first, online⟩ := named
    have member := List.mem_of_mem_take (List.mem_of_find?_eq_some first)
    have passes := List.find?_some first
    have test := of_decide_eq_true passes
    obtain ⟨before, user, time, after, split, absent, rfl⟩ := online_of_logged member online
    have name : (entryOf user cptr true time).name = user.name :=
      List.take_of_length_le user.short
    rw [name] at test
    exact ⟨before, user, time, after, split, absent, test.1, Int.not_lt.mp test.2⟩

/-! ### The history as the commands see it -/

def brief (who : Entry) : Whowas := ⟨who.name, who.logoff, who.online⟩

/-- The ring holds the history that the state of the server lists. -/
def Keeps (r : WhowasRing) (s : Ircd) : Prop :=
  ∃ log, Records r log ∧ s.whowas = (log.take NICKNAMEHISTORYLENGTH).map brief

namespace Keeps

variable {r : WhowasRing} {s : Ircd}

theorem add_history (keeps : Keeps r s) {user : Nicked} {cptr : ClientId}
    (same : user.name = (s.client cptr).name) (online : Bool) :
    Keeps (r.add_history user cptr online s.now) (s.add_history cptr online) := by
  obtain ⟨log, records, listed⟩ := keeps
  have count : NICKNAMEHISTORYLENGTH = (NICKNAMEHISTORYLENGTH - 1) + 1 := by decide
  refine ⟨_, records.add_history user cptr online s.now, ?_⟩
  show (_ :: s.whowas).take NICKNAMEHISTORYLENGTH = _
  rw [listed, count, List.take_succ_cons, List.take_succ_cons, List.map_cons, ← List.map_take,
    List.take_take, ← same]
  rfl

theorem off_history (keeps : Keeps r s) (cptr : ClientId) :
    ∃ after, r.off_history cptr = some after ∧ Keeps after (s.off_history cptr) := by
  obtain ⟨log, records, listed⟩ := keeps
  obtain ⟨after, ran, records'⟩ := records.off_history cptr
  refine ⟨after, ran, _, records', ?_⟩
  show s.whowas.map _ = _
  rw [listed, List.map_map, ← List.map_take, List.map_map]
  refine List.map_congr_left fun who _ => ?_
  show (if who.online = some cptr then _ else _) = brief (offEntry cptr who)
  unfold offEntry
  split <;> rfl

/-- **The ring answers a chase as the list of the state does.** -/
theorem get_history (keeps : Keeps r s) (nick : CString) (timelimit : Int) :
    r.get_history nick.1 timelimit s.now = some (s.get_history nick.1 timelimit) := by
  obtain ⟨log, records, listed⟩ := keeps
  rw [records.get_history, Ircd.get_history, listed, List.find?_map, Option.map_map]
  rfl

end Keeps

end WhowasRing

end PtlinkIrcd
