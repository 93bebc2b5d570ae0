/-
**`send_mode_list` sends every entry once.**

The loop fills `modebuf` and `parabuf` and sends them as a MODE line when three parameters are in, or
when the next one does not fit; the entry that does not fit starts the next line.

* `Leftover` — what the loop may find in the buffers: what `channel_modes` left there, or the plus
  sign to which `send_channel_modes` resets them.
* `Lists`, `BanListing` — the buffers, and the lines one after the other, spell out groups of entries:
  a letter and a parameter for each.
* `send_mode_list_once` — **the groups are the list, in order, whatever the loop finds**, and the
  buffers hold them.
-/

import PtlinkIrcd.Channel.BanBurst
import PtlinkIrcd.Channel.ModeText

namespace PtlinkIrcd

/-! ### What the buffers hold -/

/-- The buffers when `send_mode_list` is called. -/
inductive Leftover : Text × Text → Prop
  | modes (m : Mode) (key : m.key.length ≤ KEYLEN) (server oper is_list : Bool) :
      Leftover (channel_modes m server oper is_list)
  | reset : Leftover (['+'], [])

theorem Leftover.room {start : Text × Text} (left : Leftover start) :
    start.1.length ≤ 22 ∧ start.2.length ≤ 60 := by
  cases left with
  | modes m key server oper is_list =>
    exact ⟨channel_modes_letters .., channel_modes_room _ _ _ _ key⟩
  | reset => exact ⟨by decide, Nat.zero_le _⟩

/-- The buffers hold a letter and a parameter for each entry, behind what they started with. Every
parameter has a blank before it, except that the first one of a line that started empty may be
without. -/
structure Lists (flag : Char) (start bufs : Text × Text) (entries : List Text) : Prop where
  letters : bufs.1 = start.1 ++ List.replicate entries.length flag
  params : bufs.2 = start.2 ++ spaced entries ∨ start.2 = [] ∧ ' ' :: bufs.2 = spaced entries
  modebuf : bufs.1.length < MODEBUFLEN
  parabuf : bufs.2.length < MODEBUFLEN

/-- **Lines one after the other**: the first one has what was in the buffers before, the others start
with a plus sign. -/
inductive BanListing (flag : Char) : Text × Text → List (Text × Text) → List (List Text) → Prop
  | nil (start : Text × Text) : BanListing flag start [] []
  | cons {start bufs : Text × Text} {entries : List Text} {lines : List (Text × Text)}
      {groups : List (List Text)} (first : Lists flag start bufs entries)
      (rest : BanListing flag (['+'], []) lines groups) :
      BanListing flag start (bufs :: lines) (entries :: groups)

/-- What the line after some others starts with. -/
def lineStart (start : Text × Text) (lines : List (Text × Text)) : Text × Text :=
  if lines = [] then start else (['+'], [])

section BanListing

variable {flag : Char} {start bufs : Text × Text} {entries : List Text}
  {lines : List (Text × Text)} {groups : List (List Text)}

theorem BanListing.snoc (before : BanListing flag start lines groups)
    (last : Lists flag (lineStart start lines) bufs entries) :
    BanListing flag start (lines ++ [bufs]) (groups ++ [entries]) := by
  induction before with
  | nil start => exact .cons last (.nil _)
  | @cons start bufs entries lines groups first rest ih =>
    refine .cons first (ih ?_)
    -- a line that is not the first starts with a plus sign, whichever follows it
    have plus : lineStart (['+'], []) lines = lineStart start (bufs :: lines) := by
      unfold lineStart
      rw [if_neg (List.cons_ne_nil _ _), ite_self]
    rw [plus]
    exact last

theorem BanListing.forall (listing : BanListing flag (['+'], []) lines groups) :
    List.Forall₂ (Lists flag (['+'], [])) lines groups := by
  generalize fresh : ((['+'], []) : Text × Text) = start at listing
  induction listing with
  | nil => exact .nil
  | cons first _ ih =>
    subst fresh
    exact .cons first (ih rfl)

theorem Lists.opened (modebuf : start.1.length < MODEBUFLEN) (parabuf : start.2.length < MODEBUFLEN) :
    Lists flag start start [] :=
  ⟨(List.append_nil _).symm, .inl (List.append_nil _).symm, modebuf, parabuf⟩

theorem Lists.put (lists : Lists flag start bufs entries) {name : Text}
    (letters : start.1.length + entries.length + 1 < MODEBUFLEN)
    (fits : bufs.2.length + name.length + 10 < MODEBUFLEN) :
    Lists flag start (bufs.1 ++ [flag], bufs.2 ++ ' ' :: name) (entries ++ [name]) := by
  have all : spaced (entries ++ [name]) = spaced entries ++ ' ' :: name := by
    rw [spaced_append, spaced_singleton]
  refine ⟨?_, ?_, ?_, ?_⟩
  · rw [lists.letters, List.length_append, List.length_singleton, List.replicate_succ',
      List.append_assoc]
  · rw [all]
    rcases lists.params with same | ⟨empty, blank⟩
    · exact .inl (by rw [same, List.append_assoc])
    · exact .inr ⟨empty, by rw [← blank, List.cons_append]⟩
  · rw [lists.letters, List.length_append, List.length_append, List.length_replicate,
      List.length_singleton]
    exact letters
  · rw [List.length_append, List.length_cons]
    omega

end BanListing

/-! ### The loop -/

/-- **The invariant of the loop.** -/
structure ModeList.Holds (flag : Char) (start : Text × Text) (l : ModeList) (entries : List Text) :
    Prop where
  split : ∃ groups now, BanListing flag start l.sent groups ∧
    Lists flag (lineStart start l.sent) (l.modebuf, l.parabuf) now ∧
    now.length ≤ l.count + 1 ∧ groups.flatten ++ now = entries
  low : l.count < 3

section Loop

variable {flag : Char} {start : Text × Text} {l : ModeList} {entries : List Text}

theorem lineStart_room (room : start.1.length ≤ 22) (lines : List (Text × Text)) :
    (lineStart start lines).1.length ≤ 22 := by
  unfold lineStart
  split
  · exact room
  · exact Nat.le_add_left 1 21

theorem ModeList.Holds.step (holds : l.Holds flag start entries) (room : start.1.length ≤ 22)
    {name : Text} (short : name.length ≤ 189) :
    (l.step flag name).Holds flag start (entries ++ [name]) := by
  obtain ⟨⟨groups, now, sent, current, few, rfl⟩, low⟩ := holds
  have small := lineStart_room room l.sent
  have joined : ∀ now, groups.flatten ++ now = (groups ++ [now]).flatten := fun now => by
    rw [List.flatten_append, List.flatten_singleton]
  have next : ∀ bufs : Text × Text, lineStart start (l.sent ++ [bufs]) = (['+'], []) := fun bufs =>
    if_neg (List.append_ne_nil_of_right_ne_nil _ (List.cons_ne_nil _ _))
  have stepped := ModeList.step_stepped flag low (show name.length + 10 < MODEBUFLEN by
    unfold MODEBUFLEN
    omega)
  generalize l.step flag name = after at stepped ⊢
  have put : l.parabuf.length + name.length + 10 < MODEBUFLEN → Lists flag (lineStart start l.sent)
      ((l.put flag name).modebuf, (l.put flag name).parabuf) (now ++ [name]) := fun fits =>
    current.put (by unfold MODEBUFLEN; omega) fits
  cases stepped with
  | put fits open_ =>
    refine ⟨⟨groups, now ++ [name], sent, put fits, ?_, (List.append_assoc ..).symm⟩, open_⟩
    rw [List.length_append, List.length_singleton]
    exact Nat.succ_le_succ few
  | third fits =>
    -- the third parameter of a line goes out with it
    refine ⟨⟨groups ++ [now ++ [name]], [], sent.snoc (put fits), ?_, Nat.zero_le _, ?_⟩,
      show 0 < 3 by decide⟩
    · show Lists flag (lineStart start (l.sent ++ [_])) _ _
      rw [next]
      exact .opened (by decide) (by decide)
    · rw [← joined, List.append_nil, List.append_assoc]
  | next =>
    -- the entry that does not fit starts the next line
    refine ⟨⟨groups ++ [now], [name], sent.snoc current, ?_, Nat.le_refl 1, by rw [← joined]⟩,
      show 0 < 3 by decide⟩
    show Lists flag (lineStart start (l.sent ++ [_])) _ _
    rw [next]
    refine ⟨rfl, .inr ⟨rfl, (spaced_singleton name).symm⟩, show 2 < MODEBUFLEN by decide, ?_⟩
    show name.length < 200
    omega

theorem ModeList.Holds.run (holds : l.Holds flag start entries) (room : start.1.length ≤ 22)
    {names : List Text} (short : ∀ name ∈ names, name.length ≤ 189) :
    (names.foldl (ModeList.step flag) l).Holds flag start (entries ++ names) := by
  induction names generalizing l entries with
  | nil =>
    rw [List.append_nil]
    exact holds
  | cons name names ih =>
    have rest := ih (holds.step room (short name List.mem_cons_self))
      fun other inside => short other (List.mem_cons_of_mem name inside)
    rwa [List.append_assoc, List.singleton_append] at rest

theorem ModeList.Holds.listing (holds : l.Holds flag start entries) : ∃ groups,
    BanListing flag start (l.sent ++ [(l.modebuf, l.parabuf)]) groups ∧ groups.flatten = entries := by
  obtain ⟨⟨groups, now, sent, current, -, split⟩, -⟩ := holds
  refine ⟨groups ++ [now], sent.snoc current, ?_⟩
  rw [List.flatten_append, List.flatten_singleton, split]

theorem Lists.flushed {bufs : Text × Text} {entries : List Text}
    (lists : Lists flag (['+'], []) bufs entries) :
    (bufs.1.tail ≠ [] || bufs.2 ≠ []) = true ↔ entries ≠ [] := by
  cases entries with
  | nil =>
    have text : bufs.2 = [] := lists.params.elim id fun blank =>
      absurd blank.2 (List.cons_ne_nil ' ' bufs.2)
    rw [lists.letters, text]
    simp
  | cons entry entries =>
    rw [lists.letters]
    simp

end Loop

namespace Ircd

/-- **The lines spell out the list, every entry once and in order**, from whatever `channel_modes`
left in the buffers; and so do the MODE lines that `send_channel_modes` sends. -/
theorem send_mode_list_once {masks : List Text} (short : ∀ mask ∈ masks, mask.length ≤ 189)
    (flag : Char) :
    (∀ {start : Text × Text}, Leftover start → ∃ groups,
      BanListing flag start ((send_mode_list start.1 start.2 masks flag).sent ++
        [((send_mode_list start.1 start.2 masks flag).modebuf,
          (send_mode_list start.1 start.2 masks flag).parabuf)]) groups ∧
      groups.flatten = masks) ∧
    ∃ groups, List.Forall₂ (Lists flag (['+'], [])) (send_mode_list ['+'] [] masks flag).all groups ∧
      groups.flatten = masks := by
  have loop : ∀ {start : Text × Text}, Leftover start →
      (send_mode_list start.1 start.2 masks flag).Holds flag start masks := by
    intro start left
    have room := left.room
    have few : (if start.2 = [] then 0 else 1) < 3 := by split <;> decide
    have first : Lists flag start start [] := .opened
      (Nat.lt_of_le_of_lt room.1 (by decide)) (Nat.lt_of_le_of_lt room.2 (by decide))
    have opened : ModeList.Holds flag start ⟨start.1, start.2, if start.2 = [] then 0 else 1, []⟩ [] :=
      ⟨⟨[], [], .nil _, first, Nat.zero_le _, rfl⟩, few⟩
    exact opened.run room.1 short
  refine ⟨fun left => (loop left).listing, ?_⟩
  obtain ⟨⟨groups, now, sent, current, -, split⟩, -⟩ := loop .reset
  have plus : lineStart (['+'], []) (send_mode_list ['+'] [] masks flag).sent = (['+'], []) :=
    ite_self _
  rw [plus] at current
  unfold ModeList.all
  by_cases nothing : now = []
  · refine ⟨groups, ?_, by rw [← split, nothing, List.append_nil]⟩
    rw [if_neg fun written => current.flushed.mp written nothing, List.append_nil]
    exact sent.forall
  · refine ⟨groups ++ [now], ?_, by rw [← split, List.flatten_append, List.flatten_singleton]⟩
    rw [if_pos (current.flushed.mpr nothing)]
    exact List.rel_append sent.forall (.cons current .nil)

/-- Four bans make two lines. -/
theorem send_mode_list_once_four : ∃ groups,
    List.Forall₂ (Lists 'b' (['+'], []))
      (send_mode_list ['+'] [] ["a!*@*", "b!*@*", "c!*@*", "d!*@*"] 'b').all groups ∧
    groups.flatten = ["a!*@*", "b!*@*", "c!*@*", "d!*@*"] :=
  (send_mode_list_once (by decide) 'b').2

end Ircd

end PtlinkIrcd
