/-
**Buffers of a fixed size.**

A list stands for a piece of memory; a write past its end has no result.

* `store` — a write of one item; `splice` is what several writes in a row leave (`splice_splice`).
* `copyUntil` — the loop that copies items up to the first of a kind, without it.
* `copyThrough` — the loop that copies a string with its end, but not more than a number of items.
* `skipWhile` — the loop that goes over items of a kind.
-/

import Mathlib.Data.List.TakeWhile

namespace PtlinkIrcd.Lib

variable {α : Type}

/-- A write of one item. -/
def store (out : List α) (i : Nat) (a : α) : Option (List α) :=
  if i < out.length then some (out.set i a) else none

/-- Some items in the place of others. -/
def splice (out : List α) (i : Nat) (items : List α) : List α :=
  out.take i ++ items ++ out.drop (i + items.length)

variable {out items more : List α} {i : Nat} {a : α}

theorem store_eq (room : i < out.length) : store out i a = some (splice out i [a]) := by
  unfold store splice
  rw [if_pos room, List.set_eq_take_append_cons_drop, if_pos room, List.append_assoc]
  rfl

@[simp] theorem splice_nil : splice out i [] = out := by
  unfold splice
  rw [List.append_nil, List.length_nil, Nat.add_zero, List.take_append_drop]

theorem length_splice (room : i + items.length ≤ out.length) :
    (splice out i items).length = out.length := by
  unfold splice
  rw [List.length_append, List.length_append, List.length_take, List.length_drop]
  omega

/-- **Writes in a row.** -/
theorem splice_splice (room : i + items.length ≤ out.length) :
    splice (splice out i items) (i + items.length) more = splice out i (items ++ more) := by
  have front : (out.take i ++ items).length = i + items.length := by
    rw [List.length_append, List.length_take]
    omega
  have behind : (splice out i items).drop (i + items.length + more.length) =
      out.drop (i + (items ++ more).length) := by
    unfold splice
    rw [← front, List.drop_append, List.drop_of_length_le (Nat.le_add_right ..), List.nil_append,
      Nat.add_sub_cancel_left, front, List.drop_drop, List.length_append, Nat.add_assoc]
  rw [splice, behind, splice, ← front, List.take_left, splice, List.append_assoc (out.take i)]

theorem getElem?_length_append (front rest : List α) : (front ++ rest)[front.length]? = rest.head? := by
  rw [List.getElem?_append_right le_rfl, Nat.sub_self, List.head?_eq_getElem?]

theorem store_length_append (front rest : List α) (b : α) :
    store (front ++ b :: rest) front.length a = some (front ++ a :: rest) := by
  unfold store
  rw [if_pos (by simp), List.set_append_right _ _ le_rfl, Nat.sub_self, List.set_cons_zero]

theorem take_splice (n : Nat) (short : n ≤ items.length) :
    (splice out 0 items).take n = items.take n := by
  unfold splice
  rw [List.take_zero, List.nil_append, List.take_append_of_le_length short]

/-! ### Loops that copy -/

variable (stop : α → Bool)

/-- Items are copied up to the first at which to stop. -/
def copyUntil : List α → Nat → List α → Option (List α)
  | [], _, out => some out
  | a :: source, i, out =>
    if stop a then some out
    else (store out i a).bind fun out => copyUntil source (i + 1) out

/-- At most `n` items are copied, up to the first at which to stop and with it. -/
def copyThrough : Nat → List α → Nat → List α → Option (List α)
  | 0, _, _, out => some out
  | _ + 1, [], _, _ => none
  | n + 1, a :: source, i, out =>
    (store out i a).bind fun out => if stop a then some out else copyThrough n source (i + 1) out

variable {stop} {source : List α}

theorem store_bind (room : i + (a :: items).length ≤ out.length) {next : List α → Option (List α)}
    (rest : next (splice out i [a]) = some (splice (splice out i [a]) (i + 1) items)) :
    (store out i a).bind next = some (splice out i (a :: items)) := by
  rw [List.length_cons] at room
  rw [store_eq (by omega), Option.bind_some, rest]
  exact congrArg some (splice_splice (by simp only [List.length_singleton]; omega))

theorem copyUntil_eq (room : i + (source.takeWhile (!stop ·)).length ≤ out.length) :
    copyUntil stop source i out = some (splice out i (source.takeWhile (!stop ·))) := by
  induction source generalizing i out with
  | nil => exact congrArg some splice_nil.symm
  | cons a source ih =>
    rw [copyUntil]
    cases ends : stop a with
    | true => rw [if_pos rfl, List.takeWhile_cons_of_neg (by simp [ends]), splice_nil]
    | false =>
      rw [List.takeWhile_cons_of_pos (by simp [ends])] at room ⊢
      rw [if_neg Bool.false_ne_true]
      refine store_bind room (ih ?_)
      rw [List.length_cons] at room
      rw [length_splice (by simp only [List.length_singleton]; omega)]
      omega

/-- A source with an end is copied with it, as far as there is a number of items to copy. -/
theorem copyThrough_eq {w : List α} {n : Nat} (plain : ∀ b ∈ w, stop b = false) (ends : stop a = true)
    (room : i + min n (w.length + 1) ≤ out.length) (rest : List α) :
    copyThrough stop n (w ++ a :: rest) i out = some (splice out i ((w ++ [a]).take n)) := by
  induction n generalizing w i out with
  | zero => rw [copyThrough, List.take_zero, splice_nil]
  | succ n ih =>
    cases w with
    | nil =>
      have one : ([] ++ [a] : List α).take (n + 1) = [a] := by
        rw [List.nil_append, List.take_succ_cons, List.take_nil]
      rw [List.nil_append, copyThrough, one]
      refine store_bind ?_ ?_
      · rw [List.length_singleton]
        rw [List.length_nil] at room
        omega
      · rw [if_pos ends, splice_nil]
    | cons b w =>
      rw [List.length_cons] at room
      rw [List.cons_append, copyThrough, List.cons_append, List.take_succ_cons]
      have length : ((w ++ [a]).take n).length = min n (w.length + 1) := by
        rw [List.length_take, List.length_append, List.length_singleton]
      refine store_bind (by rw [List.length_cons, length]; omega) ?_
      rw [plain b List.mem_cons_self, if_neg Bool.false_ne_true]
      refine ih (fun c member => plain c (List.mem_cons_of_mem _ member)) ?_
      rw [length_splice (by rw [List.length_singleton]; omega)]
      omega

/-! ### A loop that skips -/

/-- The first place from `i` on with an item that is not to be skipped. -/
def skipWhile (skip : α → Bool) (memory : List α) (i : Nat) : Option Nat :=
  ((memory.drop i).findIdx? (!skip ·)).map (i + ·)

/-- **The loop ends in front of the end of a string.** -/
theorem skipWhile_eq {skip : α → Bool} (ends : skip a = false) (front w rest : List α) :
    skipWhile skip (front ++ w ++ a :: rest) front.length =
      some (front.length + (w.takeWhile skip).length) := by
  have found : (w ++ a :: rest).findIdx? (!skip ·) = some (w.takeWhile skip).length := by
    induction w with
    | nil => simp [List.findIdx?_cons, ends]
    | cons b w ih =>
      rw [List.cons_append, List.findIdx?_cons]
      cases kept : skip b with
      | false => simp [List.takeWhile_cons_of_neg (show ¬ skip b = true by simp [kept])]
      | true => simp [List.takeWhile_cons_of_pos kept, ih]
  unfold skipWhile
  rw [List.append_assoc, List.drop_left, found]
  rfl

end PtlinkIrcd.Lib
