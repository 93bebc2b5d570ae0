/-
**Lines out of a stream.**

A stream comes in pieces. Whoever reads it keeps the lines that an end has closed and the one that
is still open.

* `Lines.feed` — what the pieces read so far amount to; two pieces amount to what they do together.
* `feed_word`, `feed_line` — text without an end stays open; an end closes a line.
* `feed_closed` — what was closed before stays in front.
* `feed_splitOnP` — **the lines are the nonempty pieces between the ends**, and the last piece is open.
* `exists_of_line` — **where a line of the stream stands in it.**
-/

import Mathlib.Data.List.Induction

namespace PtlinkIrcd.Lib

variable {α : Type}

/-- The lines that are closed, and the open one. -/
structure Lines (α : Type) where
  closed : List (List α)
  rest : List α

namespace Lines

/-- Nothing was read. -/
def start : Lines α := ⟨[], []⟩

variable (eol : α → Bool)

/-- One item; lines without text are no lines. -/
def push (state : Lines α) (c : α) : Lines α :=
  if eol c then
    if state.rest = [] then state else ⟨state.closed ++ [state.rest], []⟩
  else ⟨state.closed, state.rest ++ [c]⟩

/-- A piece of the stream. -/
def feed (state : Lines α) (t : List α) : Lines α := t.foldl (push eol) state

variable {eol} {state : Lines α} {t w : List α} {c : α}

@[simp] theorem feed_nil : feed eol state [] = state := rfl

theorem feed_cons : feed eol state (c :: t) = feed eol (push eol state c) t := rfl

/-- **Two pieces are read as one.** -/
theorem feed_append (state : Lines α) (t u : List α) :
    feed eol state (t ++ u) = feed eol (feed eol state t) u := List.foldl_append ..

theorem feed_word (word : ∀ c ∈ w, eol c = false) (state : Lines α) :
    feed eol state w = ⟨state.closed, state.rest ++ w⟩ := by
  induction w generalizing state with
  | nil => simp
  | cons c w ih =>
    have plain : push eol state c = ⟨state.closed, state.rest ++ [c]⟩ := by
      unfold push
      rw [word c List.mem_cons_self, if_neg Bool.false_ne_true]
    rw [feed_cons, plain, ih fun d member => word d (List.mem_cons_of_mem _ member)]
    simp

theorem push_end (isEnd : eol c = true) (some_ : state.rest ≠ []) :
    push eol state c = ⟨state.closed ++ [state.rest], []⟩ := by
  unfold push
  rw [if_pos isEnd, if_neg some_]

theorem push_end_nil (isEnd : eol c = true) (none_ : state.rest = []) : push eol state c = state := by
  unfold push
  rw [if_pos isEnd, if_pos none_]

/-- **A line**: text and its end. -/
theorem feed_line (word : ∀ c ∈ w, eol c = false) (some_ : w ≠ []) (isEnd : eol c = true)
    (closed : List (List α)) (t : List α) :
    feed eol ⟨closed, []⟩ (w ++ c :: t) = feed eol ⟨closed ++ [w], []⟩ t := by
  rw [feed_append, feed_word word, feed_cons, push_end isEnd (by simpa using some_)]
  rfl

theorem feed_dropWhile (closed : List (List α)) (t : List α) :
    feed eol ⟨closed, []⟩ (t.dropWhile eol) = feed eol ⟨closed, []⟩ t := by
  induction t with
  | nil => rfl
  | cons c t ih =>
    cases isEnd : eol c with
    | false => rw [List.dropWhile_cons_of_neg (by simp [isEnd])]
    | true => rw [List.dropWhile_cons_of_pos isEnd, ih, feed_cons, push_end_nil isEnd rfl]

/-- **The lines are the nonempty pieces between the ends**, and the last piece is open. -/
theorem feed_splitOnP (closed : List (List α)) (rest t : List α) :
    feed eol ⟨closed, rest⟩ t =
      ⟨closed ++ (((t.splitOnP eol).modifyHead (rest ++ ·)).dropLast.filter fun line => !line.isEmpty),
        ((t.splitOnP eol).modifyHead (rest ++ ·)).getLastD []⟩ := by
  induction t generalizing closed rest with
  | nil => simp
  | cons c t ih =>
    obtain ⟨piece, pieces, parts⟩ := List.exists_cons_of_ne_nil (List.splitOnP_ne_nil eol t)
    rw [feed_cons, List.splitOnP_cons_eq_if_modifyHead]
    unfold push
    cases isEnd : eol c with
    | true =>
      rw [if_pos rfl, if_pos rfl]
      by_cases none_ : rest = []
      · rw [if_pos none_, ih, parts, none_]
        simp
      · have some_ : rest.isEmpty = false := by simpa using none_
        rw [if_neg none_, ih, parts]
        simp [some_]
    | false =>
      rw [if_neg Bool.false_ne_true, if_neg Bool.false_ne_true, ih, parts]
      simp

theorem rest_word (word : ∀ c ∈ state.rest, eol c = false) (t : List α) :
    ∀ c ∈ (feed eol state t).rest, eol c = false := by
  induction t generalizing state with
  | nil => exact word
  | cons c t ih =>
    refine ih ?_
    unfold push
    split
    · split
      · exact word
      · exact fun d member => absurd member List.not_mem_nil
    · rename_i plain
      intro d member
      rcases List.mem_append.mp member with old | new
      · exact word d old
      · rw [List.mem_singleton.mp new]
        exact Bool.eq_false_iff.mpr plain

theorem feed_closed (closed : List (List α)) (rest t : List α) :
    feed eol ⟨closed, rest⟩ t =
      ⟨closed ++ (feed eol ⟨[], rest⟩ t).closed, (feed eol ⟨[], rest⟩ t).rest⟩ := by
  induction t generalizing closed rest with
  | nil => simp
  | cons c t ih =>
    rw [feed_cons, feed_cons]
    unfold push
    simp only []
    split
    · split
      · exact ih closed rest
      · rw [ih (closed ++ [rest]) [], ih ([] ++ [rest]) []]
        simp
    · exact ih closed (rest ++ [c])

theorem exists_of_end {rest : List α} (some_ : rest ≠ []) (member : c ∈ t) (isEnd : eol c = true) :
    ∃ u more, (feed eol ⟨[], rest⟩ t).closed = (rest ++ u) :: more := by
  induction t generalizing rest with
  | nil => exact absurd member List.not_mem_nil
  | cons d t ih =>
    rw [feed_cons]
    cases first : eol d with
    | true =>
      rw [push_end first some_, feed_closed]
      exact ⟨[], (feed eol ⟨[], []⟩ t).closed, by simp⟩
    | false =>
      have later : c ∈ t := (List.mem_cons.mp member).resolve_left fun same =>
        absurd (first.symm.trans (same ▸ isEnd)) Bool.false_ne_true
      have plain : push eol ⟨[], rest⟩ d = ⟨[], rest ++ [d]⟩ := by
        unfold push
        rw [first, if_neg Bool.false_ne_true]
      have open_ : rest ++ [d] ≠ [] := by simp
      obtain ⟨u, more, closed⟩ := ih open_ later
      exact ⟨d :: u, more, by rw [plain, closed]; simp⟩

theorem feed_concat (state : Lines α) (t : List α) (c : α) :
    feed eol state (t ++ [c]) = push eol (feed eol state t) c := feed_append state t [c]

theorem exists_of_rest (eol : α → Bool) (t : List α) : ∃ p, t = p ++ (feed eol start t).rest ∧
    feed eol start p = ⟨(feed eol start t).closed, []⟩ := by
  induction t using List.reverseRecOn with
  | nil => exact ⟨[], rfl, rfl⟩
  | append_singleton t c ih =>
    obtain ⟨p, split_, before⟩ := ih
    rw [feed_concat]
    cases isEnd : eol c with
    | false =>
      have plain : push eol (feed eol start t) c =
          ⟨(feed eol start t).closed, (feed eol start t).rest ++ [c]⟩ := by
        unfold push
        rw [isEnd, if_neg Bool.false_ne_true]
      rw [plain]
      refine ⟨p, ?_, before⟩
      show t ++ [c] = p ++ ((feed eol start t).rest ++ [c])
      rw [← List.append_assoc, ← split_]
    | true =>
      have empty : (push eol (feed eol start t) c).rest = [] := by
        unfold push
        rw [if_pos isEnd]
        split
        · assumption
        · rfl
      refine ⟨t ++ [c], by rw [empty, List.append_nil], ?_⟩
      rw [feed_concat]
      exact congrArg (Lines.mk _) empty

/-- **Where a line stands in the stream**: between an end, or the start, and the end that closes
it. -/
theorem exists_of_line {before after : List (List α)} {line : List α}
    (closed : (feed eol start t).closed = before ++ line :: after) :
    ∃ p c s, t = p ++ (line ++ c :: s) ∧ eol c = true ∧ (∀ d ∈ line, eol d = false) ∧
      feed eol start p = ⟨before, []⟩ := by
  induction t using List.reverseRecOn generalizing after with
  | nil => exact absurd (congrArg List.length closed) (by simp [start])
  | append_singleton t c ih =>
    have later : ∀ more, (feed eol start t).closed = before ++ line :: more →
        ∃ p d s, t ++ [c] = p ++ (line ++ d :: s) ∧ eol d = true ∧ (∀ d ∈ line, eol d = false) ∧
          feed eol start p = ⟨before, []⟩ := fun more old => by
      obtain ⟨p, d, s, split_, rest⟩ := ih old
      exact ⟨p, d, s ++ [c], by rw [split_]; simp, rest⟩
    rw [feed_concat] at closed
    unfold push at closed
    split at closed
    · rename_i isEnd
      split at closed
      · exact later after closed
      · -- the last line was closed just now
        rcases List.eq_nil_or_concat after with rfl | ⟨more, last, rfl⟩
        · obtain ⟨old, same⟩ := List.append_inj' closed rfl
          obtain ⟨p, split_, before_⟩ := exists_of_rest eol t
          rw [List.cons.inj same |>.1] at split_
          refine ⟨p, c, [], by rw [split_]; simp, isEnd, fun d member => ?_, old ▸ before_⟩
          rw [← (List.cons.inj same).1] at member
          have blank : ∀ d ∈ (start : Lines α).rest, eol d = false :=
            fun d member => absurd member List.not_mem_nil
          exact rest_word blank t d member
        · refine later more ?_
          have parts : (feed eol start t).closed ++ [(feed eol start t).rest] =
              (before ++ line :: more) ++ [last] := by
            refine Eq.trans closed ?_
            simp
          exact (List.append_inj' parts rfl).1
    · exact later after closed

end Lines

end PtlinkIrcd.Lib
