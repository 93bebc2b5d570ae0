/-
**Fields with escapes.**

A record is read in two steps: the escapes go first, each leaving what it escapes, and everything
from a cut on goes with them; then the fields are what stands between the separators.

* `unescape` — the first step; `unescape_sublist` says that it only takes away.
* `unescape_append_cons` — **it treats each field by itself**, even when an escape stands before the
  separator.
* `unescape_eq_self`, `count_unescape_lt` — it leaves a text without escapes, and no other.
* `field`, `nextField` — the second step; `separators_nextField` counts the separators.
* `keep_of_flatten_filter` — pieces that start no other piece are not made up by others.
-/

import Mathlib.Data.List.TakeWhile

namespace PtlinkIrcd.Lib

variable {α : Type} [DecidableEq α]

/-! ### Escapes -/

/-- Each `esc` goes and leaves what is behind it as it is; an unescaped `cut` ends the text. -/
def unescape (esc cut : α) : List α → List α
  | [] => []
  | [c] => if c = esc ∨ c = cut then [] else [c]
  | c :: d :: rest =>
    if c = esc then d :: unescape esc cut rest
    else if c = cut then []
    else c :: unescape esc cut (d :: rest)

section Unescape

variable {esc cut sep x : α} {t a b : List α}

theorem unescape_cons_of_ne {c : α} (plain : c ≠ esc) (open_ : c ≠ cut) (t : List α) :
    unescape esc cut (c :: t) = c :: unescape esc cut t := by
  cases t with
  | nil =>
    exact if_neg (not_or.mpr ⟨plain, open_⟩)
  | cons d rest => rw [unescape, if_neg plain, if_neg open_]

/-- **Only items are taken away.** -/
theorem unescape_sublist (t : List α) : (unescape esc cut t).Sublist t := by
  fun_induction unescape esc cut t with
  | case1 => exact List.Sublist.refl []
  | case2 => exact List.nil_sublist _
  | case3 => exact List.Sublist.refl _
  | case4 d rest ih => exact (ih.cons_cons d).cons _
  | case5 => exact List.nil_sublist _
  | case6 c d rest _ _ ih => exact ih.cons_cons c

/-- **The fields are treated one by one.** -/
theorem unescape_append_cons (plain : sep ≠ esc) (open_ : sep ≠ cut) (uncut : cut ∉ a)
    (b : List α) :
    unescape esc cut (a ++ sep :: b) = unescape esc cut a ++ sep :: unescape esc cut b := by
  fun_induction unescape esc cut a with
  | case1 => exact unescape_cons_of_ne plain open_ b
  | case2 c special =>
    obtain rfl := special.resolve_right fun same => uncut (by simp [same])
    show unescape c cut (c :: sep :: b) = _
    rw [unescape, if_pos rfl]
    rfl
  | case3 c ordinary =>
    show unescape esc cut (c :: sep :: b) = _
    rw [unescape_cons_of_ne (mt .inl ordinary) (mt .inr ordinary), unescape_cons_of_ne plain open_]
    rfl
  | case4 d rest ih =>
    show unescape esc cut (esc :: d :: (rest ++ sep :: b)) = _
    rw [unescape, if_pos rfl, ih (fun member => uncut (by simp [member]))]
    rfl
  | case5 d rest _ => exact absurd List.mem_cons_self uncut
  | case6 c d rest ordinary _ ih =>
    show unescape esc cut (c :: (d :: rest ++ sep :: b)) = _
    rw [unescape_cons_of_ne ordinary (fun same => uncut (by simp [same])),
      ih (fun member => uncut (List.mem_cons_of_mem _ member))]
    rfl

theorem unescape_eq_self (unescaped : esc ∉ t) (uncut : cut ∉ t) : unescape esc cut t = t := by
  induction t with
  | nil => rfl
  | cons c t ih =>
    rw [List.mem_cons, not_or] at unescaped uncut
    rw [unescape_cons_of_ne (Ne.symm unescaped.1) (Ne.symm uncut.1), ih unescaped.2 uncut.2]

/-- **An escape is lost**, the ones that it escapes excepted. -/
theorem count_unescape_lt (uncut : cut ∉ t) (escaped : esc ∈ t) :
    (unescape esc cut t).count esc < t.count esc := by
  fun_induction unescape esc cut t with
  | case1 => exact absurd escaped List.not_mem_nil
  | case2 c special =>
    rw [List.mem_singleton.mp escaped]
    simp
  | case3 c ordinary => exact absurd (.inl (List.mem_singleton.mp escaped).symm) ordinary
  | case4 d rest ih =>
    have fewer := (@unescape_sublist _ _ esc cut rest).count_le esc
    rw [List.count_cons, List.count_cons_self, List.count_cons]
    omega
  | case5 d rest _ => exact absurd List.mem_cons_self uncut
  | case6 c d rest ordinary _ ih =>
    rw [List.count_cons_of_ne ordinary, List.count_cons_of_ne ordinary]
    exact ih (fun member => uncut (List.mem_cons_of_mem _ member))
      ((List.mem_cons.mp escaped).resolve_left (Ne.symm ordinary))

theorem not_mem_of_unescape_eq (uncut : cut ∉ t) (same : unescape esc cut t = t) : esc ∉ t := by
  intro escaped
  have fewer := count_unescape_lt uncut escaped
  rw [same] at fewer
  exact absurd fewer (Nat.lt_irrefl _)

end Unescape

/-! ### Fields -/

/-- The first field, and what is behind its separator, if there is one. -/
def field (sep : α) (t : List α) : List α × Option (List α) :=
  (t.takeWhile (· ≠ sep), (t.dropWhile (· ≠ sep)).tail?)

/-- The next field of what is left. -/
def nextField (sep : α) : Option (List α) → Option (List α) × Option (List α)
  | none => (none, none)
  | some t => (some (field sep t).1, (field sep t).2)

section Fields

variable {sep x : α} {t a b f : List α} {left : Option (List α)}

theorem field_append_cons (apart : sep ∉ a) (b : List α) :
    field sep (a ++ sep :: b) = (a, some b) := by
  have plain : ∀ c ∈ a, (decide (c ≠ sep)) = true := fun c member =>
    decide_eq_true fun same => apart (same ▸ member)
  unfold field
  rw [List.takeWhile_append_of_pos plain, List.dropWhile_append_of_pos plain]
  simp

theorem field_eq_self (apart : sep ∉ a) : field sep a = (a, none) := by
  have plain : ∀ c ∈ a, (decide (c ≠ sep)) = true := fun c member =>
    decide_eq_true fun same => apart (same ▸ member)
  unfold field
  rw [List.takeWhile_eq_self_iff.mpr plain, List.dropWhile_eq_nil_iff.mpr plain]
  rfl

theorem not_mem_of_field (t : List α) : sep ∉ (field sep t).1 := fun member =>
  of_decide_eq_true (List.mem_takeWhile_imp (p := fun c => decide (c ≠ sep)) member) rfl

theorem not_mem_of_nextField (found : (nextField sep left).1 = some f) : sep ∉ f := by
  cases left with
  | none => cases found
  | some t =>
    obtain rfl := Option.some.inj found
    exact not_mem_of_field t

/-- The separators that are left, the one before the next field with them. -/
def separators (sep : α) : Option (List α) → Nat
  | none => 0
  | some t => t.count sep + 1

/-- **Each field takes its separator.** -/
theorem separators_nextField (left : Option (List α)) :
    separators sep (nextField sep left).2 = separators sep left - 1 := by
  cases left with
  | none => rfl
  | some t =>
    have front : (t.takeWhile (· ≠ sep)).count sep = 0 := List.count_eq_zero.mpr
      (not_mem_of_field t)
    have whole := congrArg (List.count sep) (List.takeWhile_append_dropWhile
      (p := fun c => decide (c ≠ sep)) (l := t))
    rw [List.count_append, front, Nat.zero_add] at whole
    show separators sep (t.dropWhile _).tail? = t.count sep + 1 - 1
    rw [← whole]
    cases rest : t.dropWhile (· ≠ sep) with
    | nil => rfl
    | cons c u =>
      have same : c = sep := by
        have head := List.head?_dropWhile_not (fun c => decide (c ≠ sep)) t
        rw [rest] at head
        simpa using head
      rw [same, List.count_cons_self]
      rfl

theorem separators_pos (found : (nextField sep left).1 = some f) : 0 < separators sep left := by
  cases left with
  | none => cases found
  | some t => exact Nat.succ_pos _

end Fields

/-! ### Pieces -/

omit [DecidableEq α] in
/-- **Pieces that start no other piece are not found again behind those that are left out**: what is
kept of some pieces starts with all of the first ones only if they are all kept. -/
theorem keep_of_flatten_filter {Piece : List α → Prop}
    (code : ∀ {c d s t}, Piece c → Piece d → c ++ s = d ++ t → c = d) {keep : List α → Bool}
    {l k : List (List α)} {u : List α} (pieces : ∀ b ∈ l ++ k, Piece b ∧ b ≠ [])
    (same : ((l ++ k).filter keep).flatten = l.flatten ++ u) : ∀ b ∈ l, keep b = true := by
  induction l with
  | nil => nofun
  | cons b l ih =>
    have later : ∀ c ∈ l ++ k, Piece c ∧ c ≠ [] := fun c member =>
      pieces c (List.mem_cons_of_mem _ member)
    have first := pieces b List.mem_cons_self
    rw [List.cons_append, List.flatten_cons, List.append_assoc] at same
    cases kept : keep b with
    | true =>
      rw [List.filter_cons_of_pos kept, List.flatten_cons] at same
      intro c member
      rcases List.mem_cons.mp member with rfl | there
      · exact kept
      · exact ih later (List.append_cancel_left same) c there
    | false =>
      rw [List.filter_cons_of_neg (by simp [kept])] at same
      cases left : (l ++ k).filter keep with
      | nil =>
        rw [left] at same
        exact absurd (List.append_eq_nil_iff.mp same.symm).1 first.2
      | cons c rest =>
        have member : c ∈ (l ++ k).filter keep := by rw [left]; exact List.mem_cons_self
        rw [left, List.flatten_cons] at same
        obtain rfl := code (later c (List.mem_filter.mp member).1).1 first.1 same
        rw [(List.mem_filter.mp member).2] at kept
        cases kept

end PtlinkIrcd.Lib
