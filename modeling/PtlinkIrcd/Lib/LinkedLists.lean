/-
**Doubly linked lists threaded through their elements.**

Every element carries a pointer to its successor and one to its predecessor, every list has a head;
an element is on one list at most.

* `push`, `remove` — an element becomes the head of a list, or is taken out at the place where its
  own pointers say that it stands.
* `Lists links lists` — the pointers thread exactly the lists `lists`, which share no element.
  Closed under `push` of an element on no list (`Lists.push`) and under `remove`
  (`Lists.remove`).
* `byKey` — the lists of a sequence of keyed items: closed under a new item with its `push`
  (`Lists.grow`) and under the loss of the last one with its `remove` (`Lists.shrink`).
* `walk` — the elements from a pointer on, as long as the fuel lasts; a list is walked whole by as
  much fuel as it has elements (`Lists.walk`).
-/

import Mathlib.Data.List.Nodup
import Mathlib.Logic.Function.Basic

set_option linter.unusedSectionVars false

namespace PtlinkIrcd.Lib

/-- The pointers of the elements `α`, and the heads of the lists `κ`. -/
structure Links (α κ : Type) where
  next : α → Option α
  prev : α → Option α
  head : κ → Option α

namespace Links

variable {α κ : Type} [DecidableEq α] [DecidableEq κ]

/-! ### Operations -/

/-- No element is on a list. -/
def clear : Links α κ := ⟨fun _ => none, fun _ => none, fun _ => none⟩

/-- The element becomes the head of the list `k`. -/
def push (k : κ) (a : α) (links : Links α κ) : Links α κ where
  next := Function.update links.next a (links.head k)
  prev :=
    let prev := Function.update links.prev a none
    match links.head k with
    | some b => Function.update prev b (some a)
    | none => prev
  head := Function.update links.head k (some a)

/-- The element leaves the list `k`: its neighbours, or the head, are joined over it. -/
def remove (k : κ) (a : α) (links : Links α κ) : Links α κ :=
  let joined :=
    match links.prev a with
    | some p => { links with next := Function.update links.next p (links.next a) }
    | none => { links with head := Function.update links.head k (links.next a) }
  match joined.next a with
  | some n => { joined with prev := Function.update joined.prev n (joined.prev a) }
  | none => joined

/-- The elements from a pointer on; `none` when the fuel runs out before the list. -/
def walk (next : α → Option α) : Nat → Option α → Option (List α)
  | _, none => some []
  | 0, some _ => none
  | fuel + 1, some a => (walk next fuel (next a)).map (a :: ·)

/-! ### The pointers after an operation -/

theorem push_next (links : Links α κ) (k : κ) (a b : α) :
    (links.push k a).next b = if b = a then links.head k else links.next b := by
  by_cases same : b = a
  · rw [if_pos same, same]
    exact Function.update_self ..
  · rw [if_neg same]
    exact Function.update_of_ne same ..

theorem push_prev (links : Links α κ) (k : κ) (a b : α) :
    (links.push k a).prev b =
      if links.head k = some b then some a else if b = a then none else links.prev b := by
  unfold push
  cases hhead : links.head k with
  | none =>
    by_cases same : b = a
    · simp [same]
    · simp [same]
  | some c =>
    by_cases first : b = c
    · simp [first]
    · have other : ¬ c = b := fun same => first same.symm
      by_cases same : b = a
      · subst same
        simp [first, other]
      · simp [first, other, same]

theorem push_head (links : Links α κ) (k other : κ) (a : α) :
    (links.push k a).head other = if other = k then some a else links.head other := by
  by_cases same : other = k
  · simp [push, same]
  · simp [push, same]

/-- The first half of a removal does not change the successor of the element itself. -/
theorem remove_next (links : Links α κ) (k : κ) (a b : α) :
    (links.remove k a).next b = if links.prev a = some b then links.next a else links.next b := by
  unfold remove
  cases hprev : links.prev a with
  | none => cases hnext : links.next a <;> simp [hnext]
  | some p =>
    by_cases same : b = p
    · subst same
      by_cases itself : a = b
      · subst itself
        cases hnext : links.next a <;> simp
      · cases hnext : links.next a <;> simp [hnext, itself]
    · have other : ¬ p = b := fun eq => same eq.symm
      by_cases itself : a = p
      · subst itself
        cases hnext : links.next a <;> simp [same, other]
      · cases hnext : links.next a <;> simp [hnext, same, other, itself]

theorem remove_prev (links : Links α κ) (k : κ) (a b : α) :
    (links.remove k a).prev b = if links.next a = some b then links.prev a else links.prev b := by
  unfold remove
  cases hprev : links.prev a with
  | none =>
    cases hnext : links.next a with
    | none => simp [hnext]
    | some n =>
      by_cases same : b = n
      · simp [hnext, hprev, same]
      · have other : ¬ n = b := fun eq => same eq.symm
        simp [hnext, same, other]
  | some p =>
    have kept : (Function.update links.next p (links.next a)) a = links.next a := by
      by_cases itself : a = p
      · subst itself
        exact Function.update_self ..
      · exact Function.update_of_ne itself ..
    simp only [kept]
    cases hnext : links.next a with
    | none => simp
    | some n =>
      by_cases same : b = n
      · simp [hprev, same]
      · have other : ¬ n = b := fun eq => same eq.symm
        simp [same, other]

theorem remove_head (links : Links α κ) (k other : κ) (a : α) :
    (links.remove k a).head other =
      if links.prev a = none ∧ other = k then links.next a else links.head other := by
  unfold remove
  cases hprev : links.prev a with
  | some p =>
    simp only [reduceCtorEq, false_and, if_false]
    split <;> rfl
  | none =>
    by_cases same : other = k
    · subst same
      cases hnext : links.next a <;> simp [hnext]
    · cases hnext : links.next a <;> simp [hnext, same]

/-! ### The lists that the pointers thread -/

/-- The pointers thread the lists `lists`: each element points to its neighbours in its list. -/
structure Lists (links : Links α κ) (lists : κ → List α) : Prop where
  head : ∀ k, links.head k = (lists k).head?
  next : ∀ k before a after, lists k = before ++ a :: after → links.next a = after.head?
  prev : ∀ k before a after, lists k = before ++ a :: after → links.prev a = before.getLast?
  nodup : ∀ k, (lists k).Nodup
  apart : ∀ k other a, a ∈ lists k → a ∈ lists other → k = other

/-- Where an element of two joined lists stands: in the first or in the second. -/
theorem append_eq_append_cons {l r before after : List α} {b : α}
    (split : l ++ r = before ++ b :: after) :
    (∃ m, l = before ++ b :: m ∧ after = m ++ r) ∨ ∃ m, before = l ++ m ∧ r = m ++ b :: after := by
  rcases List.append_eq_append_iff.mp split with ⟨m, hbefore, hr⟩ | ⟨m, hl, hr⟩
  · exact .inr ⟨m, hbefore, hr⟩
  · cases m with
    | nil =>
      rw [List.append_nil] at hl
      rw [List.nil_append] at hr
      exact .inr ⟨[], by rw [hl, List.append_nil], hr.symm⟩
    | cons c m =>
      rw [List.cons_append, List.cons.injEq] at hr
      exact .inl ⟨m, by rw [hl, hr.1], hr.2⟩

namespace Lists

variable {links : Links α κ} {lists : κ → List α}

theorem clear : Lists (clear : Links α κ) fun _ => [] where
  head _ := rfl
  next _ before a after split := by simp at split
  prev _ before a after split := by simp at split
  nodup _ := List.nodup_nil
  apart _ _ _ member := by simp at member

theorem congr (threads : Lists links lists) {other : κ → List α} (same : ∀ k, other k = lists k) :
    Lists links other := by
  rwa [show other = lists from funext same]

theorem mem_of_head (threads : Lists links lists) {k : κ} {a : α} (first : links.head k = some a) :
    a ∈ lists k :=
  List.mem_of_head? ((threads.head k).symm.trans first)

theorem walk_from (threads : Lists links lists) {k : κ} (before : List α) {rest : List α}
    (split : lists k = before ++ rest) {fuel : Nat} (enough : rest.length ≤ fuel) :
    walk links.next fuel rest.head? = some rest := by
  induction rest generalizing before fuel with
  | nil => cases fuel <;> rfl
  | cons a rest ih => cases fuel with
    | zero => exact absurd enough (Nat.not_succ_le_zero _)
    | succ fuel =>
      have further := ih (before ++ [a]) (by rw [split]; simp)
        (Nat.le_of_succ_le_succ enough)
      show (walk links.next fuel (links.next a)).map (a :: ·) = _
      rw [threads.next k before a rest split, further]
      rfl

/-- **A list is walked whole**, from its head to its end. -/
theorem walk (threads : Lists links lists) (k : κ) {fuel : Nat}
    (enough : (lists k).length ≤ fuel) :
    walk links.next fuel (links.head k) = some (lists k) := by
  rw [threads.head]
  exact threads.walk_from [] rfl enough

/-- **Pushing an element** that is on no list. -/
theorem push (threads : Lists links lists) (k : κ) {a : α} (fresh : ∀ other, a ∉ lists other) :
    Lists (links.push k a) (Function.update lists k (a :: lists k)) := by
  have distinct : ∀ other b, b ∈ lists other → b ≠ a := by
    rintro other b member rfl
    exact fresh other member
  refine ⟨fun other => ?_, fun other before b after split => ?_,
    fun other before b after split => ?_, fun other => ?_, fun first second b hfirst hsecond => ?_⟩
  · by_cases same : other = k
    · subst same
      rw [push_head, if_pos rfl, Function.update_self]
      rfl
    · rw [push_head, if_neg same, Function.update_of_ne same, threads.head]
  · by_cases same : other = k
    · subst same
      rw [Function.update_self] at split
      cases before with
      | nil =>
        obtain ⟨rfl, rfl⟩ := List.cons.inj split
        rw [push_next, if_pos rfl, threads.head]
      | cons c before =>
        obtain rfl := (List.cons.inj split).1
        have within : lists other = before ++ b :: after := (List.cons.inj split).2
        have member : b ∈ lists other := by simp [within]
        rw [push_next, if_neg (distinct other b member)]
        exact threads.next other before b after within
    · rw [Function.update_of_ne same] at split
      have member : b ∈ lists other := by simp [split]
      rw [push_next, if_neg (distinct other b member)]
      exact threads.next other before b after split
  · by_cases same : other = k
    · subst same
      rw [Function.update_self] at split
      cases before with
      | nil =>
        obtain ⟨rfl, rfl⟩ := List.cons.inj split
        have notHead : links.head other ≠ some a := fun first =>
          fresh other (threads.mem_of_head first)
        rw [push_prev, if_neg notHead, if_pos rfl]
        rfl
      | cons c before =>
        obtain rfl := (List.cons.inj split).1
        have within : lists other = before ++ b :: after := (List.cons.inj split).2
        have member : b ∈ lists other := by simp [within]
        cases before with
        | nil =>
          have first : links.head other = some b := by
            rw [threads.head, within]
            rfl
          rw [push_prev, if_pos first]
          rfl
        | cons d before =>
          have notHead : links.head other ≠ some b := by
            intro first
            rw [threads.head, within] at first
            obtain rfl : d = b := Option.some.inj first
            have once := threads.nodup other
            rw [within] at once
            exact (List.nodup_cons.mp once).1 (by simp)
          rw [push_prev, if_neg notHead, if_neg (distinct other b member),
            threads.prev other (d :: before) b after within, List.getLast?_cons_cons]
    · rw [Function.update_of_ne same] at split
      have member : b ∈ lists other := by simp [split]
      have notHead : links.head k ≠ some b := fun first =>
        same (threads.apart other k b member (threads.mem_of_head first))
      rw [push_prev, if_neg notHead, if_neg (distinct other b member)]
      exact threads.prev other before b after split
  · by_cases same : other = k
    · subst same
      rw [Function.update_self]
      exact List.nodup_cons.mpr ⟨fresh other, threads.nodup other⟩
    · rw [Function.update_of_ne same]
      exact threads.nodup other
  · have place : ∀ other, b ∈ Function.update lists k (a :: lists k) other →
        (b = a ∧ other = k) ∨ b ∈ lists other := by
      intro other member
      by_cases same : other = k
      · subst same
        rw [Function.update_self, List.mem_cons] at member
        exact member.imp_left fun eq => ⟨eq, rfl⟩
      · rw [Function.update_of_ne same] at member
        exact .inr member
    rcases place first hfirst with ⟨rfl, hk⟩ | hfirst <;>
      rcases place second hsecond with ⟨eq, hk'⟩ | hsecond
    · rw [hk, hk']
    · exact absurd hsecond (fresh second)
    · exact absurd eq (distinct first b hfirst)
    · exact threads.apart first second b hfirst hsecond

/-- **Removing an element** from the place where it stands. -/
theorem remove (threads : Lists links lists) {k : κ} {l r : List α} {a : α}
    (stands : lists k = l ++ a :: r) :
    Lists (links.remove k a) (Function.update lists k (l ++ r)) := by
  have nextOf : links.next a = r.head? := threads.next k l a r stands
  have prevOf : links.prev a = l.getLast? := threads.prev k l a r stands
  have once : (l ++ a :: r).Nodup := stands ▸ threads.nodup k
  have fromLeft : ∀ b, links.prev a = some b → b ∈ l := fun b eq =>
    List.mem_of_getLast? (prevOf.symm.trans eq)
  have fromRight : ∀ b, links.next a = some b → b ∈ r := fun b eq =>
    List.mem_of_head? (nextOf.symm.trans eq)
  have onLeft : ∀ b ∈ l, b ∈ lists k := fun b member => by simp [stands, member]
  have onRight : ∀ b ∈ r, b ∈ lists k := fun b member => by simp [stands, member]
  have crossed : ∀ b ∈ l, b ∉ r := fun b left right =>
    (List.nodup_append.mp once).2.2 b left b (List.mem_cons_of_mem a right) rfl
  refine ⟨fun other => ?_, fun other before b after split => ?_,
    fun other before b after split => ?_, fun other => ?_, fun first second b hfirst hsecond => ?_⟩
  · rw [remove_head]
    by_cases same : other = k
    · subst same
      rw [Function.update_self]
      by_cases front : l = []
      · subst front
        rw [if_pos ⟨prevOf, rfl⟩, nextOf]
        rfl
      · have later : links.prev a ≠ none := by
          rw [prevOf]
          exact fun eq => front (List.getLast?_eq_none_iff.mp eq)
        rw [if_neg fun both => later both.1, threads.head, stands,
          List.head?_append_of_ne_nil _ front, List.head?_append_of_ne_nil _ front]
    · rw [if_neg fun both => same both.2, Function.update_of_ne same, threads.head]
  · rw [remove_next]
    by_cases same : other = k
    · subst same
      rw [Function.update_self] at split
      rcases append_eq_append_cons split with ⟨m, rfl, rfl⟩ | ⟨m, rfl, rfl⟩
      · have old : links.next b = (m ++ a :: r).head? :=
          threads.next other before b (m ++ a :: r) (by rw [stands]; simp)
        cases m with
        | nil => rw [if_pos (by rw [prevOf]; simp), nextOf]; rfl
        | cons c m =>
          have farther : links.prev a ≠ some b := by
            intro eq
            rw [prevOf, List.getLast?_append, List.getLast?_cons_cons] at eq
            have member : b ∈ c :: m := by
              cases hlast : (c :: m).getLast? with
              | none => simp at hlast
              | some d =>
                rw [hlast] at eq
                obtain rfl : d = b := Option.some.inj eq
                exact List.mem_of_getLast? hlast
            have left := (List.nodup_append.mp once).1
            exact (List.nodup_cons.mp (List.nodup_append.mp left).2.1).1 member
          rw [if_neg farther, old]
          rfl
      · have right : b ∈ m ++ b :: after := by simp
        rw [if_neg fun eq => crossed b (fromLeft b eq) right]
        exact threads.next other (l ++ a :: m) b after (by rw [stands]; simp)
    · rw [Function.update_of_ne same] at split
      have member : b ∈ lists other := by simp [split]
      rw [if_neg fun eq => same (threads.apart other k b member (onLeft b (fromLeft b eq)))]
      exact threads.next other before b after split
  · rw [remove_prev]
    by_cases same : other = k
    · subst same
      rw [Function.update_self] at split
      rcases append_eq_append_cons split with ⟨m, rfl, rfl⟩ | ⟨m, rfl, rfl⟩
      · have left : b ∈ before ++ b :: m := by simp
        rw [if_neg fun eq => crossed b left (fromRight b eq)]
        exact threads.prev other before b (m ++ a :: r) (by rw [stands]; simp)
      · have old : links.prev b = (l ++ a :: m).getLast? :=
          threads.prev other (l ++ a :: m) b after (by rw [stands]; simp)
        cases m with
        | nil => rw [if_pos (by rw [nextOf]; rfl), prevOf, List.append_nil]
        | cons c m =>
          have farther : links.next a ≠ some b := by
            intro eq
            rw [nextOf] at eq
            obtain rfl : c = b := Option.some.inj eq
            have right := (List.nodup_cons.mp (List.nodup_append.mp once).2.1).2
            exact (List.nodup_cons.mp right).1 (by simp)
          rw [if_neg farther, old, List.getLast?_append, List.getLast?_append,
            List.getLast?_cons_cons]
    · rw [Function.update_of_ne same] at split
      have member : b ∈ lists other := by simp [split]
      rw [if_neg fun eq => same (threads.apart other k b member (onRight b (fromRight b eq)))]
      exact threads.prev other before b after split
  · by_cases same : other = k
    · subst same
      rw [Function.update_self]
      exact once.sublist (List.Sublist.append_left (List.sublist_cons_self a r) l)
    · rw [Function.update_of_ne same]
      exact threads.nodup other
  · have place : ∀ other, b ∈ Function.update lists k (l ++ r) other → b ∈ lists other := by
      intro other member
      by_cases same : other = k
      · subst same
        rw [Function.update_self, List.mem_append] at member
        exact member.elim (onLeft b) (onRight b)
      · rwa [Function.update_of_ne same] at member
    exact threads.apart first second b (place first hfirst) (place second hsecond)

theorem mem_remove (threads : Lists links lists) {k : κ} {l r : List α} {a : α}
    (stands : lists k = l ++ a :: r) (other : κ) (b : α) :
    b ∈ Function.update lists k (l ++ r) other ↔ b ∈ lists other ∧ b ≠ a := by
  have member : a ∈ lists k := by simp [stands]
  by_cases same : other = k
  · subst same
    have once := threads.nodup other
    rw [stands] at once
    obtain ⟨_, right, crossed⟩ := List.nodup_append.mp once
    have notLeft : a ∉ l := fun left => crossed a left a List.mem_cons_self rfl
    have notRight : a ∉ r := (List.nodup_cons.mp right).1
    rw [Function.update_self, stands]
    simp only [List.mem_append, List.mem_cons]
    constructor
    · rintro (left | right)
      · exact ⟨.inl left, fun eq => notLeft (eq ▸ left)⟩
      · exact ⟨.inr (.inr right), fun eq => notRight (eq ▸ right)⟩
    · rintro ⟨left | eq | right, apart⟩
      · exact .inl left
      · exact absurd eq apart
      · exact .inr right
  · rw [Function.update_of_ne same]
    refine ⟨fun here => ⟨here, ?_⟩, And.left⟩
    rintro rfl
    exact same (threads.apart other k b here member)

theorem mem_push (lists : κ → List α) (k other : κ) (a b : α) :
    b ∈ Function.update lists k (a :: lists k) other ↔ b ∈ lists other ∨ b = a ∧ other = k := by
  by_cases same : other = k
  · subst same
    rw [Function.update_self, List.mem_cons, or_comm]
    simp
  · rw [Function.update_of_ne same]
    simp [same]

end Lists

/-! ### The lists of a sequence of keyed items -/

variable {β : Type}

/-- The places of the items of each key, in the order of the sequence. -/
def byKey (key : β → Option κ) (place : β → α) (items : List β) (k : κ) : List α :=
  (items.filter fun item => key item = some k).map place

theorem mem_byKey {key : β → Option κ} {place : β → α} {items : List β} {k : κ} {a : α} :
    a ∈ byKey key place items k ↔ ∃ item ∈ items, key item = some k ∧ place item = a := by
  simp [byKey, and_assoc]

theorem byKey_length_le (key : β → Option κ) (place : β → α) (items : List β) (k : κ) :
    (byKey key place items k).length ≤ items.length := by
  rw [byKey, List.length_map]
  exact List.length_filter_le ..

theorem byKey_cons_none {key : β → Option κ} {place : β → α} {items : List β} {item : β}
    (keyless : key item = none) : byKey key place (item :: items) = byKey key place items := by
  funext k
  simp [byKey, keyless]

theorem byKey_cons_some {key : β → Option κ} {place : β → α} {items : List β} {item : β} {k : κ}
    (keyed : key item = some k) : byKey key place (item :: items) =
      Function.update (byKey key place items) k (place item :: byKey key place items k) := by
  funext other
  by_cases same : other = k
  · subst same
    rw [Function.update_self, byKey, List.filter_cons, if_pos (decide_eq_true keyed)]
    rfl
  · have apart : ¬ key item = some other := fun eq =>
      same (Option.some.inj (eq.symm.trans keyed))
    rw [Function.update_of_ne same, byKey, List.filter_cons,
      if_neg (by rwa [decide_eq_true_eq])]
    rfl

namespace Lists

variable {links : Links α κ} {key : β → Option κ} {place : β → α} {items : List β}

/-- **A new item is pushed** on the list of its key. -/
theorem grow (threads : Lists links (byKey key place items)) (item : β) {k : κ}
    (keyed : key item = some k) (fresh : place item ∉ items.map place) :
    Lists (links.push k (place item)) (byKey key place (item :: items)) := by
  rw [byKey_cons_some keyed]
  refine threads.push k fun other member => fresh ?_
  obtain ⟨held, inItems, -, same⟩ := mem_byKey.mp member
  exact same ▸ List.mem_map_of_mem inItems

/-- **The last item is removed** from the list of its key. -/
theorem shrink {item : β} (threads : Lists links (byKey key place (items ++ [item]))) {k : κ}
    (keyed : key item = some k) :
    Lists (links.remove k (place item)) (byKey key place items) := by
  have stands : byKey key place (items ++ [item]) k = byKey key place items k ++ place item :: [] := by
    simp [byKey, keyed]
  refine (threads.remove stands).congr fun other => ?_
  by_cases same : other = k
  · subst same
    rw [Function.update_self, List.append_nil]
  · have apart : ¬ key item = some other := fun eq =>
      same (Option.some.inj (eq.symm.trans keyed))
    rw [Function.update_of_ne same]
    simp [byKey, apart]

theorem shrink_none {item : β} (threads : Lists links (byKey key place (items ++ [item])))
    (keyless : key item = none) : Lists links (byKey key place items) :=
  threads.congr fun k => by simp [byKey, keyless]

end Lists

end Links

end PtlinkIrcd.Lib
