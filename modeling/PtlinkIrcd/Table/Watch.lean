/-
**Watch lists.**

`hash.c` and `m_watch.c`: a header for every watched nick, with the clients that watch it, and in
every client the headers that it watches.

* `WatchTable` — the headers, their chains and the clients' lists.
* `add_to_watch_hash_table`, `del_from_watch_hash_table`, `hash_del_watch_list`, `m_watch` — the
  functions that change them.
* `Linked` — the two sides agree, and every header with watchers, and no other, is on the chain of
  its nick, once for all ways to write it.
* `watch_run` — **what every sequence of calls keeps.**
-/

import Mathlib.Data.List.Induction
import PtlinkIrcd.Lib.Incidence
import PtlinkIrcd.Model.State

namespace PtlinkIrcd

def WATCHHASHSIZE : Nat := 10007
def MAXWATCH : Int := 128

abbrev WatchId := Nat

/-- `struct Watch`. -/
structure Watch where
  nick : Text
  watch : List ClientId
  lasttime : Int

/-- `watch` and `watches` of a client. -/
structure Watcher where
  watch : List WatchId
  watches : Int

/-- The headers and the clients. `unused` is the block that `MyMalloc` gives out next. -/
structure WatchTable where
  header : WatchId → Watch
  watchTable : Nat → List WatchId
  client : ClientId → Watcher
  unused : WatchId

namespace WatchTable

/-- `clear_watch_hash_table`, with clients that watch nothing. -/
def clear : WatchTable := ⟨fun _ => ⟨[], [], 0⟩, fun _ => [], fun _ => ⟨[], 0⟩, 0⟩

def bucketOf (nick : Text) : Nat := hashNickName nick % WATCHHASHSIZE

def hash_get_watch (t : WatchTable) (nick : Text) : Option WatchId :=
  (t.watchTable (bucketOf nick)).find? fun anptr => strcasecmp (t.header anptr).nick nick = 0

/-! ### The functions -/

def setWatch (t : WatchTable) (anptr : WatchId) (watch : List ClientId) : WatchTable :=
  { t with header := Function.update t.header anptr { t.header anptr with watch := watch } }

/-- A new header at the head of its chain. -/
def newHeader (t : WatchTable) (nick : Text) (now : Int) : WatchTable where
  header := Function.update t.header t.unused ⟨nick, [], now⟩
  watchTable := Function.update t.watchTable (bucketOf nick)
    (t.unused :: t.watchTable (bucketOf nick))
  client := t.client
  unused := t.unused + 1

/-- The client and the header get links to each other. -/
def link (t : WatchTable) (anptr : WatchId) (cptr : ClientId) : WatchTable :=
  let t := t.setWatch anptr (cptr :: (t.header anptr).watch)
  { t with
    client := Function.update t.client cptr
      ⟨anptr :: (t.client cptr).watch, (t.client cptr).watches + 1⟩ }

def add_to_watch_hash_table (t : WatchTable) (nick : Text) (cptr : ClientId) (now : Int) :
    WatchTable :=
  match t.hash_get_watch nick with
  | some anptr => if cptr ∈ (t.header anptr).watch then t else t.link anptr cptr
  | none => (t.newHeader nick now).link t.unused cptr

/-- The header leaves its chain and is freed. -/
def freeHeader (t : WatchTable) (hashv : Nat) (anptr : WatchId) : WatchTable :=
  { t with
    watchTable := Function.update t.watchTable hashv ((t.watchTable hashv).erase anptr)
    header := Function.update t.header anptr ⟨[], [], 0⟩ }

/-- The client leaves the list of the header, and a header without watchers the table. -/
def drop (t : WatchTable) (anptr : WatchId) (cptr : ClientId) (hashv : Nat) : WatchTable :=
  let t := t.setWatch anptr ((t.header anptr).watch.erase cptr)
  if (t.header anptr).watch = [] then t.freeHeader hashv anptr else t

def del_from_watch_hash_table (t : WatchTable) (nick : Text) (cptr : ClientId) : WatchTable :=
  match t.hash_get_watch nick with
  | none => t
  | some anptr =>
    if cptr ∈ (t.header anptr).watch then
      let x := t.client cptr
      let t := t.drop anptr cptr (bucketOf nick)
      { t with client := Function.update t.client cptr ⟨x.watch.erase anptr, x.watches - 1⟩ }
    else t

/-- A round of `hash_del_watch_list`. -/
def dropNext (cptr : ClientId) (t : WatchTable) (anptr : WatchId) : WatchTable :=
  if cptr ∈ (t.header anptr).watch then t.drop anptr cptr (bucketOf (t.header anptr).nick) else t

def hash_del_watch_list (t : WatchTable) (cptr : ClientId) : WatchTable :=
  let np := (t.client cptr).watch
  if np = [] then t
  else
    let t := { t with client := Function.update t.client cptr ⟨[], (t.client cptr).watches⟩ }
    let t := np.foldl (dropNext cptr) t
    { t with client := Function.update t.client cptr ⟨(t.client cptr).watch, 0⟩ }

def watchName (now : Int) (sptr : ClientId) (t : WatchTable) (s : Text) : WatchTable :=
  match s.takeWhile (· ≠ '!') with
  | '+' :: nick =>
    if nick ≠ [] then
      if (t.client sptr).watches ≥ MAXWATCH then t else t.add_to_watch_hash_table nick sptr now
    else t
  | '-' :: nick => t.del_from_watch_hash_table nick sptr
  | 'C' :: _ => t.hash_del_watch_list sptr
  | 'c' :: _ => t.hash_del_watch_list sptr
  | _ => t

/-- `m_watch`, without its replies. -/
def m_watch (t : WatchTable) (sptr : ClientId) (parv1 : Option Text) (now : Int) : WatchTable :=
  (Lib.words (fun c => c == ',' || c == ' ') (parv1.getD ['l'])).foldl (watchName now sptr) t

/-! ### What the functions keep -/

/-- The two sides agree, and the chains hold the headers with watchers. `lists` are the headers that
the clients watch. -/
structure Linked (lists : ClientId → List WatchId) (t : WatchTable) : Prop where
  incident : Lib.Incident lists fun anptr => (t.header anptr).watch
  nodup : ∀ hashv, (t.watchTable hashv).Nodup
  chain : ∀ hashv anptr, anptr ∈ t.watchTable hashv ↔
    (t.header anptr).watch ≠ [] ∧ bucketOf (t.header anptr).nick = hashv
  one : ∀ anptr other, (t.header anptr).watch ≠ [] → (t.header other).watch ≠ [] →
    strcasecmp (t.header anptr).nick (t.header other).nick = 0 → anptr = other
  free : ∀ anptr, t.unused ≤ anptr → (t.header anptr).watch = []

/-- The clients' own lists agree with the headers, and their counters with the lists. -/
structure Consistent (t : WatchTable) : Prop where
  linked : Linked (fun cptr => (t.client cptr).watch) t
  watches : ∀ cptr, (t.client cptr).watches = (t.client cptr).watch.length

theorem bucketOf_eq {nick other : Text} (same : strcasecmp nick other = 0) :
    bucketOf nick = bucketOf other := by
  rw [bucketOf, bucketOf, hashNickName_eq_of_strcasecmp same]

theorem strcasecmp_comm {nick other : Text} (same : strcasecmp nick other = 0) :
    strcasecmp other nick = 0 :=
  strcasecmp_eq_zero_iff.mpr (strcasecmp_eq_zero_iff.mp same).symm

theorem consistent_clear : Consistent clear where
  linked :=
    { incident := Lib.Incident.empty
      nodup := fun _ => List.nodup_nil
      chain := fun _ _ => by simp [clear]
      one := fun _ _ some_ => absurd rfl some_
      free := fun _ _ => rfl }
  watches _ := rfl

namespace Linked

variable {lists : ClientId → List WatchId} {t : WatchTable}

/-- What `hash_get_watch` finds is a header with watchers and that nick. -/
theorem get_some (linked : Linked lists t) {nick : Text} {anptr : WatchId}
    (found : t.hash_get_watch nick = some anptr) :
    (t.header anptr).watch ≠ [] ∧ strcasecmp (t.header anptr).nick nick = 0 :=
  ⟨((linked.chain _ _).mp (List.mem_of_find?_eq_some found)).1,
    of_decide_eq_true (List.find?_some (p := fun anptr =>
      decide (strcasecmp (t.header anptr).nick nick = 0)) found)⟩

theorem get_none (linked : Linked lists t) {nick : Text} (absent : t.hash_get_watch nick = none)
    {anptr : WatchId} (some_ : (t.header anptr).watch ≠ []) :
    strcasecmp (t.header anptr).nick nick ≠ 0 := by
  intro same
  have member := (linked.chain (bucketOf nick) anptr).mpr ⟨some_, bucketOf_eq same⟩
  exact List.find?_eq_none.mp absent anptr member (decide_eq_true same)

/-- **A watcher leaves a header.** -/
theorem drop (linked : Linked lists t) {anptr : WatchId} {cptr : ClientId}
    (watches : cptr ∈ (t.header anptr).watch) :
    Linked (Function.update lists cptr ((lists cptr).erase anptr))
      (t.drop anptr cptr (bucketOf (t.header anptr).nick)) := by
  have some_ : (t.header anptr).watch ≠ [] := List.ne_nil_of_mem watches
  have unlinked := linked.incident.unlink cptr anptr
  have member := (linked.chain _ anptr).mpr ⟨some_, rfl⟩
  by_cases last : (t.header anptr).watch.erase cptr = []
  · have after : t.drop anptr cptr (bucketOf (t.header anptr).nick) =
        { t with
          watchTable := Function.update t.watchTable (bucketOf (t.header anptr).nick)
            ((t.watchTable (bucketOf (t.header anptr).nick)).erase anptr)
          header := Function.update t.header anptr ⟨[], [], 0⟩ } := by
      simp [WatchTable.drop, setWatch, freeHeader, last]
    rw [after]
    have gone : ∀ other, ((Function.update t.header anptr ⟨[], [], 0⟩ : WatchId → Watch) other).watch
        ≠ [] ↔ (t.header other).watch ≠ [] ∧ other ≠ anptr := by
      intro other
      by_cases same : other = anptr
      · simp [same]
      · simp [same]
    refine ⟨?_, fun hashv => ?_, fun hashv other => ?_, fun first second hfirst hsecond same => ?_,
      fun other above => ?_⟩
    · refine Eq.mp (congrArg _ (funext fun other => ?_)) unlinked
      by_cases same : other = anptr
      · simp [same, last]
      · simp [same]
    · by_cases same : hashv = bucketOf (t.header anptr).nick
      · simp only [same, Function.update_self]
        exact (linked.nodup _).erase anptr
      · simp only [Function.update_of_ne same]
        exact linked.nodup hashv
    · rw [gone]
      by_cases same : other = anptr
      · subst same
        simp only [ne_eq, not_true_eq_false, and_false, false_and, iff_false]
        by_cases here : hashv = bucketOf (t.header other).nick
        · simp only [here, Function.update_self]
          exact (linked.nodup _).not_mem_erase
        · simp only [Function.update_of_ne here, linked.chain, not_and]
          exact fun _ eq => here eq.symm
      · simp only [Function.update_of_ne same, ne_eq, same, not_false_eq_true, and_true]
        rw [← ne_eq, ← linked.chain]
        by_cases here : hashv = bucketOf (t.header anptr).nick
        · simp only [here, Function.update_self]
          exact List.mem_erase_of_ne same
        · simp only [Function.update_of_ne here]
    · obtain ⟨old, apart⟩ := (gone first).mp hfirst
      obtain ⟨old', apart'⟩ := (gone second).mp hsecond
      simp only [Function.update_of_ne apart, Function.update_of_ne apart'] at same
      exact linked.one first second old old' same
    · by_contra still
      exact ((gone other).mp still).1 (linked.free other above)
  · have after : t.drop anptr cptr (bucketOf (t.header anptr).nick) =
        t.setWatch anptr ((t.header anptr).watch.erase cptr) := by
      simp [WatchTable.drop, setWatch, last]
    rw [after]
    have nicks : ∀ other, ((t.setWatch anptr ((t.header anptr).watch.erase cptr)).header other).nick =
        (t.header other).nick := by
      intro other
      by_cases same : other = anptr <;> simp [setWatch, same]
    have alive : ∀ other, ((t.setWatch anptr ((t.header anptr).watch.erase cptr)).header other).watch
        ≠ [] ↔ (t.header other).watch ≠ [] := by
      intro other
      by_cases same : other = anptr
      · simp [setWatch, same, last, some_]
      · simp [setWatch, same]
    refine ⟨?_, linked.nodup, fun hashv other => ?_, fun first second hfirst hsecond same => ?_,
      fun other above => ?_⟩
    · refine Eq.mp (congrArg _ (funext fun other => ?_)) unlinked
      by_cases same : other = anptr <;> simp [setWatch, same]
    · rw [alive, nicks]
      exact linked.chain hashv other
    · rw [nicks, nicks] at same
      exact linked.one first second ((alive first).mp hfirst) ((alive second).mp hsecond) same
    · by_contra still
      exact (alive other).mp still (linked.free other above)

end Linked

/-- A header that may get a watcher: it is on its chain, if only for the watcher to come. -/
structure Ready (lists : ClientId → List WatchId) (t : WatchTable) (anptr : WatchId) : Prop where
  incident : Lib.Incident lists fun other => (t.header other).watch
  nodup : ∀ hashv, (t.watchTable hashv).Nodup
  here : ∀ hashv, anptr ∈ t.watchTable hashv ↔ bucketOf (t.header anptr).nick = hashv
  chain : ∀ hashv other, other ≠ anptr → (other ∈ t.watchTable hashv ↔
    (t.header other).watch ≠ [] ∧ bucketOf (t.header other).nick = hashv)
  one : ∀ first second, (t.header first).watch ≠ [] ∨ first = anptr →
    (t.header second).watch ≠ [] ∨ second = anptr →
    strcasecmp (t.header first).nick (t.header second).nick = 0 → first = second
  free : ∀ other, t.unused ≤ other → other ≠ anptr ∧ (t.header other).watch = []

namespace Ready

variable {lists : ClientId → List WatchId} {t : WatchTable}

theorem of_linked (linked : Linked lists t) {anptr : WatchId}
    (some_ : (t.header anptr).watch ≠ []) : Ready lists t anptr where
  incident := linked.incident
  nodup := linked.nodup
  here hashv := (linked.chain hashv anptr).trans (and_iff_right some_)
  chain hashv other _ := linked.chain hashv other
  one first second hfirst hsecond same :=
    linked.one first second (hfirst.elim id fun eq => eq ▸ some_)
      (hsecond.elim id fun eq => eq ▸ some_) same
  free other above :=
    ⟨fun eq => some_ (eq ▸ linked.free other above), linked.free other above⟩

theorem of_newHeader (linked : Linked lists t) {nick : Text}
    (absent : t.hash_get_watch nick = none) (now : Int) :
    Ready lists (t.newHeader nick now) t.unused := by
  have old : ∀ {other}, other ≠ t.unused →
      (t.newHeader nick now).header other = t.header other := fun apart =>
    Function.update_of_ne apart ..
  have new : (t.newHeader nick now).header t.unused = ⟨nick, [], now⟩ := Function.update_self ..
  have watch : ∀ other, ((t.newHeader nick now).header other).watch = (t.header other).watch := by
    intro other
    by_cases same : other = t.unused
    · rw [same, new, linked.free t.unused le_rfl]
    · rw [old same]
  have place : ∀ hashv other, other ∈ (t.newHeader nick now).watchTable hashv ↔
      (other = t.unused ∧ bucketOf nick = hashv) ∨ other ∈ t.watchTable hashv := by
    intro hashv other
    by_cases same : hashv = bucketOf nick
    · simp [newHeader, same]
    · have apart : ¬ bucketOf nick = hashv := fun eq => same eq.symm
      simp [newHeader, same, apart]
  have unlisted : ∀ hashv, t.unused ∉ t.watchTable hashv := fun hashv member =>
    ((linked.chain hashv _).mp member).1 (linked.free _ le_rfl)
  have distinct : ∀ other, other ≠ t.unused → (t.header other).watch ≠ [] →
      strcasecmp (t.header other).nick nick ≠ 0 := fun other _ some_ =>
    linked.get_none absent some_
  refine ⟨?_, fun hashv => ?_, fun hashv => ?_, fun hashv other apart => ?_,
    fun first second hfirst hsecond same => ?_, fun other above => ?_⟩
  · exact Eq.mp (congrArg _ (funext fun other => (watch other).symm)) linked.incident
  · by_cases same : hashv = bucketOf nick
    · simp only [newHeader, same, Function.update_self]
      exact List.nodup_cons.mpr ⟨unlisted _, linked.nodup _⟩
    · simp only [newHeader, Function.update_of_ne same]
      exact linked.nodup hashv
  · rw [place, new]
    exact ⟨fun either => either.elim And.right fun member => absurd member (unlisted hashv),
      fun eq => .inl ⟨rfl, eq⟩⟩
  · rw [place, old apart, linked.chain]
    exact or_iff_right fun eq => apart eq.1
  · rw [watch] at hfirst hsecond
    by_cases isFirst : first = t.unused <;> by_cases isSecond : second = t.unused
    · rw [isFirst, isSecond]
    · rw [isFirst, new, old isSecond] at same
      exact absurd (strcasecmp_comm same)
        (distinct second isSecond (hsecond.resolve_right isSecond))
    · rw [isSecond, new, old isFirst] at same
      exact absurd same (distinct first isFirst (hfirst.resolve_right isFirst))
    · rw [old isFirst, old isSecond] at same
      exact linked.one first second (hfirst.resolve_right isFirst)
        (hsecond.resolve_right isSecond) same
  · have beyond : t.unused < other := above
    rw [watch]
    exact ⟨Nat.ne_of_gt beyond, linked.free other (Nat.le_of_lt beyond)⟩

/-- **A new watcher joins a header.** -/
theorem link {anptr : WatchId} (ready : Ready lists t anptr) {cptr : ClientId}
    (fresh : cptr ∉ (t.header anptr).watch) :
    Linked (Function.update lists cptr (anptr :: lists cptr)) (t.link anptr cptr) := by
  have new : (t.link anptr cptr).header anptr =
      { t.header anptr with watch := cptr :: (t.header anptr).watch } := Function.update_self ..
  have old : ∀ {other}, other ≠ anptr → (t.link anptr cptr).header other = t.header other :=
    fun apart => Function.update_of_ne apart ..
  have nicks : ∀ other, ((t.link anptr cptr).header other).nick = (t.header other).nick := by
    intro other
    by_cases same : other = anptr
    · rw [same, new]
    · rw [old same]
  have alive : ∀ other, ((t.link anptr cptr).header other).watch ≠ [] ↔
      (t.header other).watch ≠ [] ∨ other = anptr := by
    intro other
    by_cases same : other = anptr
    · rw [same, new]
      simp
    · rw [old same]
      exact (or_iff_left same).symm
  have linked := ready.incident.link (a := cptr) (b := anptr) fun member =>
    fresh ((ready.incident.mem_iff _ _).mp member)
  refine ⟨?_, ready.nodup, fun hashv other => ?_, fun first second hfirst hsecond same => ?_,
    fun other above => ?_⟩
  · refine Eq.mp (congrArg _ (funext fun other => ?_)) linked
    by_cases same : other = anptr
    · rw [same, new, Function.update_self]
    · rw [old same, Function.update_of_ne same]
  · rw [alive, nicks]
    by_cases same : other = anptr
    · rw [same]
      exact (ready.here hashv).trans (and_iff_right (.inr rfl)).symm
    · rw [or_iff_left same]
      exact ready.chain hashv other same
  · rw [nicks, nicks] at same
    exact ready.one first second ((alive first).mp hfirst) ((alive second).mp hsecond) same
  · obtain ⟨apart, empty⟩ := ready.free other above
    rw [old apart]
    exact empty

end Ready

/-! ### Every call -/

namespace Consistent

variable {t : WatchTable}

theorem lists_update (t : WatchTable) (cptr : ClientId) (x : Watcher) :
    (fun other => (Function.update t.client cptr x other).watch) =
      Function.update (fun other => (t.client other).watch) cptr x.watch := by
  funext other
  by_cases same : other = cptr
  · subst same
    simp
  · simp [same]

theorem of_update (consistent : Consistent t) {after : WatchTable} (cptr : ClientId) (x : Watcher)
    (clients : after.client = Function.update t.client cptr x)
    (linked : Linked (Function.update (fun other => (t.client other).watch) cptr x.watch) after)
    (count : x.watches = x.watch.length) : Consistent after where
  linked := by
    rw [clients, lists_update]
    exact linked
  watches other := by
    rw [clients]
    by_cases same : other = cptr
    · subst same
      rw [Function.update_self]
      exact count
    · rw [Function.update_of_ne same]
      exact consistent.watches other

theorem link (consistent : Consistent t) {before : WatchTable} {anptr : WatchId}
    (ready : Ready (fun cptr => (t.client cptr).watch) before anptr)
    (clients : before.client = t.client) {cptr : ClientId}
    (fresh : cptr ∉ (before.header anptr).watch) : Consistent (before.link anptr cptr) := by
  refine consistent.of_update cptr
    ⟨anptr :: (t.client cptr).watch, (t.client cptr).watches + 1⟩ ?_ (ready.link fresh) ?_
  · show Function.update before.client cptr
      ⟨anptr :: (before.client cptr).watch, (before.client cptr).watches + 1⟩ = _
    rw [clients]
  · rw [List.length_cons, consistent.watches cptr, Int.natCast_succ]

theorem add (consistent : Consistent t) (nick : Text) (cptr : ClientId) (now : Int) :
    Consistent (t.add_to_watch_hash_table nick cptr now) := by
  unfold add_to_watch_hash_table
  cases found : t.hash_get_watch nick with
  | some anptr =>
    simp only []
    split
    · exact consistent
    · rename_i fresh
      exact consistent.link (Ready.of_linked consistent.linked (consistent.linked.get_some found).1)
        rfl fresh
  | none =>
    have new : (t.newHeader nick now).header t.unused = ⟨nick, [], now⟩ := Function.update_self ..
    refine consistent.link (Ready.of_newHeader consistent.linked found now) rfl ?_
    rw [new]
    exact List.not_mem_nil

theorem drop_client (t : WatchTable) (anptr : WatchId) (cptr : ClientId) (hashv : Nat) :
    (t.drop anptr cptr hashv).client = t.client := by
  unfold drop
  simp only []
  split <;> rfl

theorem del (consistent : Consistent t) (nick : Text) (cptr : ClientId) :
    Consistent (t.del_from_watch_hash_table nick cptr) := by
  unfold del_from_watch_hash_table
  cases found : t.hash_get_watch nick with
  | none => exact consistent
  | some anptr =>
    simp only []
    split
    · rename_i watches
      obtain ⟨-, same⟩ := consistent.linked.get_some found
      have listed : anptr ∈ (t.client cptr).watch :=
        (consistent.linked.incident.mem_iff cptr anptr).mpr watches
      have dropped := consistent.linked.drop watches
      rw [bucketOf_eq same] at dropped
      refine consistent.of_update cptr
        ⟨(t.client cptr).watch.erase anptr, (t.client cptr).watches - 1⟩ ?_ ?_ ?_
      · simp only [drop_client]
      · exact ⟨dropped.incident, dropped.nodup, dropped.chain, dropped.one, dropped.free⟩
      · have positive := List.length_pos_of_mem listed
        rw [List.length_erase_of_mem listed, consistent.watches cptr]
        simp only []
        omega
    · exact consistent

/-- **The rounds of `hash_del_watch_list`** empty the list of the client. -/
theorem foldl_dropNext (cptr : ClientId) {np : List WatchId} {lists : ClientId → List WatchId}
    (linked : Linked lists t) (rest : lists cptr = np) :
    Linked (Function.update lists cptr []) (np.foldl (dropNext cptr) t) ∧
      (np.foldl (dropNext cptr) t).client = t.client := by
  induction np generalizing t lists with
  | nil =>
    have same : Function.update lists cptr [] = lists := by
      rw [← rest]
      exact Function.update_eq_self cptr lists
    exact ⟨same.symm ▸ linked, rfl⟩
  | cons anptr np ih =>
    have watches : cptr ∈ (t.header anptr).watch :=
      (linked.incident.mem_iff cptr anptr).mp (rest ▸ List.mem_cons_self)
    have dropped := linked.drop watches
    rw [rest, List.erase_cons_head] at dropped
    obtain ⟨emptied, clients⟩ := ih dropped (Function.update_self ..)
    rw [Function.update_idem] at emptied
    rw [List.foldl_cons, dropNext, if_pos watches]
    exact ⟨emptied, clients.trans (drop_client ..)⟩

theorem del_list (consistent : Consistent t) (cptr : ClientId) :
    Consistent (t.hash_del_watch_list cptr) ∧
      ∀ anptr, cptr ∉ ((t.hash_del_watch_list cptr).header anptr).watch := by
  unfold hash_del_watch_list
  simp only []
  by_cases nothing : (t.client cptr).watch = []
  · rw [if_pos nothing]
    refine ⟨consistent, fun anptr member => ?_⟩
    have listed := (consistent.linked.incident.mem_iff cptr anptr).mpr member
    rw [nothing] at listed
    exact List.not_mem_nil listed
  · rw [if_neg nothing]
    have broken : Linked (fun other => (t.client other).watch)
        { t with client := Function.update t.client cptr ⟨[], (t.client cptr).watches⟩ } :=
      ⟨consistent.linked.incident, consistent.linked.nodup, consistent.linked.chain,
        consistent.linked.one, consistent.linked.free⟩
    obtain ⟨linked, clients⟩ := foldl_dropNext cptr broken rfl
    refine ⟨consistent.of_update cptr ⟨[], 0⟩ ?_ ?_ rfl, fun anptr member => ?_⟩
    · simp only [clients, Function.update_idem, Function.update_self]
    · exact ⟨linked.incident, linked.nodup, linked.chain, linked.one, linked.free⟩
    · have listed := (linked.incident.mem_iff cptr anptr).mpr member
      rw [Function.update_self] at listed
      exact List.not_mem_nil listed

theorem watchName (consistent : Consistent t) (now : Int) (sptr : ClientId) (s : Text) :
    Consistent (t.watchName now sptr s) := by
  unfold WatchTable.watchName
  split
  · split
    · split
      · exact consistent
      · exact consistent.add ..
    · exact consistent
  · exact consistent.del ..
  · exact (consistent.del_list sptr).1
  · exact (consistent.del_list sptr).1
  · exact consistent

theorem m_watch (consistent : Consistent t) (sptr : ClientId) (parv1 : Option Text) (now : Int) :
    Consistent (t.m_watch sptr parv1 now) := by
  unfold WatchTable.m_watch
  induction Lib.words (fun c => c == ',' || c == ' ') (parv1.getD ['l']) generalizing t with
  | nil => exact consistent
  | cons s names ih => exact ih (consistent.watchName now sptr s)

end Consistent

/-! ### The number of entries -/

theorem maxWatch_nonneg : (0 : Int) ≤ MAXWATCH := by decide

/-- Nobody watches more than `MAXWATCH` nicks. -/
def Bounded (t : WatchTable) : Prop := ∀ cptr, (t.client cptr).watches ≤ MAXWATCH

namespace Bounded

variable {t : WatchTable}

theorem of_update (bounded : Bounded t) {after : WatchTable} (cptr : ClientId) (x : Watcher)
    (clients : after.client = Function.update t.client cptr x) (few : x.watches ≤ MAXWATCH) :
    Bounded after := by
  intro other
  rw [clients]
  by_cases same : other = cptr
  · subst same
    rwa [Function.update_self]
  · rw [Function.update_of_ne same]
    exact bounded other

theorem add (bounded : Bounded t) (nick : Text) (cptr : ClientId) (now : Int)
    (room : (t.client cptr).watches < MAXWATCH) :
    Bounded (t.add_to_watch_hash_table nick cptr now) := by
  unfold add_to_watch_hash_table
  split
  · split
    · exact bounded
    · exact bounded.of_update cptr _ rfl room
  · exact bounded.of_update cptr _ rfl room

theorem del (bounded : Bounded t) (nick : Text) (cptr : ClientId) :
    Bounded (t.del_from_watch_hash_table nick cptr) := by
  unfold del_from_watch_hash_table
  split
  · exact bounded
  · split
    · have fewer : (t.client cptr).watches - 1 ≤ MAXWATCH := by
        have := bounded cptr
        omega
      exact bounded.of_update cptr ⟨_, _⟩ (by simp only [Consistent.drop_client]; rfl) fewer
    · exact bounded

theorem foldl_dropNext_client (cptr : ClientId) (np : List WatchId) (t : WatchTable) :
    (np.foldl (dropNext cptr) t).client = t.client := by
  induction np generalizing t with
  | nil => rfl
  | cons anptr np ih =>
    rw [List.foldl_cons, ih, dropNext]
    split
    · exact Consistent.drop_client ..
    · rfl

theorem del_list (bounded : Bounded t) (cptr : ClientId) :
    Bounded (t.hash_del_watch_list cptr) := by
  unfold hash_del_watch_list
  simp only []
  split
  · exact bounded
  · refine bounded.of_update cptr ⟨[], 0⟩ ?_ maxWatch_nonneg
    simp only [foldl_dropNext_client, Function.update_idem, Function.update_self]

/-- **WATCH adds only where there is room.** -/
theorem watchName (bounded : Bounded t) (now : Int) (sptr : ClientId) (s : Text) :
    Bounded (t.watchName now sptr s) := by
  unfold WatchTable.watchName
  split
  · split
    · split
      · exact bounded
      · rename_i room
        exact bounded.add _ _ _ (Int.not_le.mp room)
    · exact bounded
  · exact Bounded.del bounded _ sptr
  · exact bounded.del_list sptr
  · exact bounded.del_list sptr
  · exact bounded

theorem m_watch (bounded : Bounded t) (sptr : ClientId) (parv1 : Option Text) (now : Int) :
    Bounded (t.m_watch sptr parv1 now) := by
  unfold WatchTable.m_watch
  induction Lib.words (fun c => c == ',' || c == ' ') (parv1.getD ['l']) generalizing t with
  | nil => exact bounded
  | cons s names ih => exact ih (bounded.watchName now sptr s)

end Bounded

/-! ### Every sequence of calls -/

/-- A call of one of the three functions, or a WATCH command. -/
inductive WatchCall
  | add (nick : Text) (cptr : ClientId) (now : Int)
  | del (nick : Text) (cptr : ClientId)
  | del_list (cptr : ClientId)
  | watch (sptr : ClientId) (parv1 : Option Text) (now : Int)

/-- Whether a call adds an entry without the check of `m_watch`. -/
def WatchCall.unchecked : WatchCall → Bool
  | .add .. => true
  | _ => false

def call (t : WatchTable) : WatchCall → WatchTable
  | .add nick cptr now => t.add_to_watch_hash_table nick cptr now
  | .del nick cptr => t.del_from_watch_hash_table nick cptr
  | .del_list cptr => t.hash_del_watch_list cptr
  | .watch sptr parv1 now => t.m_watch sptr parv1 now

def run (calls : List WatchCall) : WatchTable := calls.foldl call clear

theorem Consistent.call {t : WatchTable} (consistent : Consistent t) (call : WatchCall) :
    Consistent (t.call call) := by
  cases call with
  | add nick cptr now => exact consistent.add nick cptr now
  | del nick cptr => exact consistent.del nick cptr
  | del_list cptr => exact (consistent.del_list cptr).1
  | watch sptr parv1 now => exact consistent.m_watch sptr parv1 now

theorem Bounded.call {t : WatchTable} (bounded : Bounded t) {call : WatchCall}
    (checked : call.unchecked = false) : Bounded (t.call call) := by
  cases call with
  | add nick cptr now => exact absurd checked nofun
  | del nick cptr => exact bounded.del nick cptr
  | del_list cptr => exact bounded.del_list cptr
  | watch sptr parv1 now => exact bounded.m_watch sptr parv1 now

theorem consistent_run (calls : List WatchCall) : Consistent (run calls) := by
  induction calls using List.reverseRecOn with
  | nil => exact consistent_clear
  | append_singleton calls call ih =>
    rw [run, List.foldl_append]
    exact ih.call call

theorem bounded_run {calls : List WatchCall} (checked : ∀ call ∈ calls, call.unchecked = false) :
    Bounded (run calls) := by
  induction calls using List.reverseRecOn with
  | nil => exact fun _ => maxWatch_nonneg
  | append_singleton calls call ih =>
    rw [run, List.foldl_append]
    exact (ih fun other member => checked other (List.mem_append_left _ member)).call
      (checked call (List.mem_append_right _ (List.mem_singleton_self call)))

def Listed (t : WatchTable) (anptr : WatchId) : Prop := ∃ hashv, anptr ∈ t.watchTable hashv

theorem Linked.listed_iff {lists : ClientId → List WatchId} {t : WatchTable}
    (linked : Linked lists t) (anptr : WatchId) :
    t.Listed anptr ↔ (t.header anptr).watch ≠ [] :=
  ⟨fun ⟨_, member⟩ => ((linked.chain _ _).mp member).1,
    fun some_ => ⟨_, (linked.chain _ _).mpr ⟨some_, rfl⟩⟩⟩

/-- **The watch lists after every sequence of calls.** A header is once in the table, on the chain of
its nick; there is one for all ways to write a nick, and none without watchers; a client watches
a header exactly when the header lists it, both once; the counter of a client is the length of its
list, and at most `MAXWATCH` when WATCH alone adds; a client whose list is deleted is in no
header. -/
theorem watch_run (calls : List WatchCall) :
    let t := run calls
    (∀ hashv, (t.watchTable hashv).Nodup ∧
      ∀ anptr ∈ t.watchTable hashv, bucketOf (t.header anptr).nick = hashv) ∧
    (∀ anptr other, t.Listed anptr → t.Listed other →
      strcasecmp (t.header anptr).nick (t.header other).nick = 0 → anptr = other) ∧
    (∀ anptr, t.Listed anptr → (t.header anptr).watch ≠ []) ∧
    (∀ cptr anptr, anptr ∈ (t.client cptr).watch ↔
      t.Listed anptr ∧ cptr ∈ (t.header anptr).watch) ∧
    (∀ cptr, (t.client cptr).watch.Nodup) ∧ (∀ anptr, (t.header anptr).watch.Nodup) ∧
    (∀ cptr, (t.client cptr).watches = (t.client cptr).watch.length) ∧
    ((∀ call ∈ calls, call.unchecked = false) → ∀ cptr, (t.client cptr).watches ≤ MAXWATCH) ∧
    ∀ cptr anptr, cptr ∉ ((t.hash_del_watch_list cptr).header anptr).watch := by
  have consistent := consistent_run calls
  have linked := consistent.linked
  refine ⟨fun hashv => ⟨linked.nodup hashv, fun anptr member =>
      ((linked.chain hashv anptr).mp member).2⟩,
    fun anptr other listed listed' => linked.one anptr other ((linked.listed_iff anptr).mp listed)
      ((linked.listed_iff other).mp listed'),
    fun anptr => (linked.listed_iff anptr).mp, fun cptr anptr => ?_,
    linked.incident.left_nodup, linked.incident.right_nodup, consistent.watches, bounded_run,
    fun cptr => (consistent.del_list cptr).2⟩
  rw [linked.incident.mem_iff, linked.listed_iff]
  exact ⟨fun member => ⟨List.ne_nil_of_mem member, member⟩, And.right⟩

end WatchTable

end PtlinkIrcd
