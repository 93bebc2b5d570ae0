/-
**LIST through send queue overflows.**

`send_list` of `m_list.c`, with what `send_message` and `send_queued` do for a client that is doing a
list: a line that finds the queue over its limit is dropped, and the list goes on when the queue has
drained.

* `send_list` — the function; `Listing.run` — the calls of one listing, each with its own queue.
* `Listing.pending` — the lines that a saved position stands for.
* `send_list_spec` — a call queues lines from the front of those that are pending.
* `list_complete` — **the lines queued in all calls are those of the listable channels, each once, and
  one end of the list**, whatever the queue does.
-/

import PtlinkIrcd.Model.State

namespace PtlinkIrcd

/-! ### The functions -/

/-- A channel, as far as a list shows it. `modes` is what `channel_modes` prints for an operator. -/
structure ListedChannel where
  chname : Text
  topic : Text
  mode : Flags
  users : Int
  iusers : Int
  channelts : Int
  topic_time : Int
  modes : Text

/-- A chain of the channel table; it counts its links. -/
structure ChannelBlock where
  list : List ListedChannel
  links : Nat
  counted : links = list.length

/-- `struct ListOptions` of a list without masks. -/
structure ListOptions where
  showall : Bool
  usermin : Nat
  usermax : Int
  chantimemin : Int
  chantimemax : Int
  topictimemin : Int
  topictimemax : Int

/-- Who asks for the list. -/
structure Lister where
  oper : Bool
  anOper : Bool
  user : Bool
  member : ListedChannel → Bool

inductive ListLine
  | RPL_LIST (chname : Text) (users : Int) (modes topic : Text)
  | RPL_LISTEND

def ShowChannel (cptr : Lister) (chptr : ListedChannel) : Bool :=
  !(chptr.mode.has (MODE_PRIVATE ||| MODE_SECRET)) || cptr.member chptr || cptr.anOper

/-- Whether `send_list` does not pass over a channel. -/
def listable (cptr : Lister) (l : ListOptions) (chptr : ListedChannel) : Bool :=
  !(!cptr.oper && (!cptr.user || chptr.mode.has MODE_SECRET && !cptr.member chptr)) &&
  !(!l.showall && (chptr.users - chptr.iusers ≤ l.usermin ||
    (l.usermax ≠ -1 && l.usermax ≤ chptr.users - chptr.iusers) ||
    -- `(chptr->channelts||1)` is one
    1 ≤ l.chantimemin || chptr.topic_time < l.topictimemin || l.chantimemax ≤ chptr.channelts ||
    l.topictimemax < chptr.topic_time))

def listLine (cptr : Lister) (chptr : ListedChannel) : ListLine :=
  if cptr.oper then .RPL_LIST chptr.chname (chptr.users - chptr.iusers) chptr.modes chptr.topic
  else .RPL_LIST (if ShowChannel cptr chptr then chptr.chname else "*") (chptr.users - chptr.iusers)
    (if ShowChannel cptr chptr then chptr.topic else "") ""

/-- The client: its options while the list is going on, the saved position, the flag for a dropped
line, and what its queue has taken. -/
structure Listing where
  lopt : Option ListOptions
  listprogress : Int
  listprogress2 : Nat
  popped : Bool
  queued : List ListLine
  /-- How many lines the call of `send_list` has tried to send. -/
  attempts : Nat

namespace Listing

section Functions

variable (table : Nat → ChannelBlock) (cptr : Lister) (full : Nat → Bool)

/-- `send_message` to a client that is doing a list. `full` says for each attempt of the call whether
the queue is over its limit. -/
def sendto_one (s : Listing) (line : ListLine) : Listing :=
  if full s.attempts then { s with popped := true, attempts := s.attempts + 1 }
  else { s with queued := s.queued ++ [line], attempts := s.attempts + 1 }

/-- The loop over the chain `i`, from the channel number `j` on; whether the function returns. -/
def sendBucket (l : ListOptions) (i progress2 links : Nat) :
    Nat → List ListedChannel → Listing → Listing × Bool
  | _, [], s => (s, false)
  | j, chptr :: hnextch, s =>
    if links ≤ j then (s, false)
    else if j < progress2 then sendBucket l i progress2 links (j + 1) hnextch s
    else if !listable cptr l chptr then sendBucket l i progress2 links (j + 1) hnextch s
    else
      let s := s.sendto_one full (listLine cptr chptr)
      if s.popped then ({ s with listprogress := i, listprogress2 := j }, true)
      else sendBucket l i progress2 links (j + 1) hnextch s

/-- The loop over the last chains of the table. -/
def sendBuckets (l : ListOptions) : Nat → Listing → Listing × Bool
  | 0, s => (s, false)
  | left + 1, s =>
    let i := CH_MAX - (left + 1)
    let sent := sendBucket cptr full l i s.listprogress2 (table i).links 0 (table i).list s
    if sent.2 then sent else sendBuckets l left { sent.1 with listprogress2 := 0 }

def send_list (s : Listing) : Listing :=
  match s.lopt with
  | none => s
  | some l =>
    let sent :=
      if s.listprogress ≠ -1 then sendBuckets table cptr full l (CH_MAX - s.listprogress.toNat) s
      else (s, false)
    if sent.2 then sent.1
    else
      let s := sent.1.sendto_one full .RPL_LISTEND
      if s.popped then { s with listprogress := -1 } else { s with lopt := none }

end Functions

/-! ### The calls -/

/-- The queue of the client: its limit, its length when the list is asked for, and its length at the
later attempts of each call. -/
structure Queue where
  get_sendq : Nat
  start : Nat
  length : Nat → Nat → Nat

/-- Whether the queue is over its limit. A later call finds it empty at first. -/
def Queue.full (q : Queue) (call attempt : Nat) : Bool :=
  q.get_sendq < if attempt = 0 then (if call = 0 then q.start else 0) else q.length call attempt

variable (table : Nat → ChannelBlock) (cptr : Lister) (l : ListOptions) (q : Queue)

/-- What `m_list` sets before its call. -/
def asked : Listing := ⟨some l, 0, 0, false, [], 0⟩

def drained (call : Nat) (s : Listing) : Listing :=
  if s.popped then send_list table cptr (q.full call) { s with popped := false, attempts := 0 } else s

/-- The client after so many times that the queue has drained. -/
def run : Nat → Listing
  | 0 => send_list table cptr (q.full 0) (asked l)
  | n + 1 => drained table cptr q (n + 1) (run n)

/-! ### The lines of a chain, and those from a saved position -/

/-- The lines for the listable channels of a part of a chain. -/
def chainLines (chain : List ListedChannel) : List ListLine :=
  (chain.filter (listable cptr l)).map (listLine cptr)

/-- The lines from the channel number `skip` of the first of the last chains on. -/
def linesFrom (skip : Nat) : Nat → List ListLine
  | 0 => []
  | left + 1 => chainLines cptr l ((table (CH_MAX - (left + 1))).list.drop skip) ++ linesFrom 0 left

/-- The lines that the client has yet to get. -/
def pending (s : Listing) : List ListLine :=
  match s.lopt with
  | none => []
  | some l =>
    (if s.listprogress = -1 then []
      else linesFrom table cptr l s.listprogress2 (CH_MAX - s.listprogress.toNat)) ++ [.RPL_LISTEND]

def fullList : List ListLine :=
  (List.range CH_MAX).flatMap (fun i => chainLines cptr l (table i).list) ++ [.RPL_LISTEND]

theorem linesFrom_zero {left : Nat} (inside : left ≤ CH_MAX) :
    linesFrom table cptr l 0 left =
      (List.range' (CH_MAX - left) left).flatMap fun i => chainLines cptr l (table i).list := by
  induction left with
  | zero => rfl
  | succ left ih =>
    have next : CH_MAX - (left + 1) + 1 = CH_MAX - left := by omega
    rw [linesFrom, List.range'_succ, List.flatMap_cons, next, ih (by omega), List.drop_zero]

theorem pending_asked : pending table cptr (asked l) = fullList table cptr l := by
  have first : (0 : Int) ≠ -1 := by decide
  simp only [pending, asked, if_neg first, Int.toNat_zero, Nat.sub_zero, fullList,
    linesFrom_zero table cptr l (Nat.le_refl CH_MAX), Nat.sub_self, List.range_eq_range']

theorem pending_of_position {s : Listing} (going : s.lopt = some l) (set : s.listprogress ≠ -1) :
    pending table cptr s =
      linesFrom table cptr l s.listprogress2 (CH_MAX - s.listprogress.toNat) ++ [.RPL_LISTEND] := by
  simp [pending, going, set]

/-! ### One call -/

section Call

variable {cptr l}
variable {full : Nat → Bool} {s s' : Listing}

/-- The loops went on: every line of `todo` was queued. -/
structure Went (s s' : Listing) (todo : List ListLine) : Prop where
  lopt : s'.lopt = s.lopt
  popped : s'.popped = false
  queued : s'.queued = s.queued ++ todo
  attempts : s'.attempts = s.attempts + todo.length

/-- The function returned: some lines were queued, none of them only if the first was dropped. -/
structure Stopped (full : Nat → Bool) (s s' : Listing) (sent : List ListLine) : Prop where
  lopt : s'.lopt = s.lopt
  popped : s'.popped = true
  queued : s'.queued = s.queued ++ sent
  moved : full s.attempts = false → sent ≠ []

theorem Went.trans {s'' : Listing} {todo more : List ListLine} (first : Went s s' todo)
    (second : Went s' s'' more) : Went s s'' (todo ++ more) where
  lopt := second.lopt.trans first.lopt
  popped := second.popped
  queued := by rw [second.queued, first.queued, List.append_assoc]
  attempts := by rw [second.attempts, first.attempts, List.length_append, Nat.add_assoc]

theorem Went.stopped {s'' : Listing} {todo sent : List ListLine} (first : Went s s' todo)
    (second : Stopped full s' s'' sent) : Stopped full s s'' (todo ++ sent) where
  lopt := second.lopt.trans first.lopt
  popped := second.popped
  queued := by rw [second.queued, first.queued, List.append_assoc]
  moved := by
    intro room
    cases todo with
    | nil =>
      have same : s'.attempts = s.attempts := first.attempts
      exact second.moved (by rw [same, room])
    | cons line todo => simp

variable (full) in
theorem sendto_one_cases (clear : s.popped = false) (line : ListLine) :
    ((s.sendto_one full line).popped = false ∧ Went s (s.sendto_one full line) [line]) ∨
      ((s.sendto_one full line).popped = true ∧ full s.attempts = true ∧
        s.sendto_one full line = { s with popped := true, attempts := s.attempts + 1 }) := by
  unfold sendto_one
  cases room : full s.attempts with
  | true => exact .inr ⟨rfl, rfl, rfl⟩
  | false => exact .inl ⟨clear, rfl, clear, rfl, rfl⟩

theorem chainLines_cons (chptr : ListedChannel) (chain : List ListedChannel) :
    chainLines cptr l (chptr :: chain) =
      (if listable cptr l chptr then [listLine cptr chptr] else []) ++ chainLines cptr l chain := by
  unfold chainLines
  cases shown : listable cptr l chptr <;> simp [shown]

variable (cptr l full) in
/-- **The loop over a chain** queues the lines from the saved position on, up to the channel whose line
is dropped. -/
theorem sendBucket_spec (i progress2 links : Nat) (chain : List ListedChannel) :
    ∀ (j : Nat) (s : Listing), s.popped = false → j + chain.length ≤ links →
      let sent := sendBucket cptr full l i progress2 links j chain s
      (sent.2 = false ∧ Went s sent.1 (chainLines cptr l (chain.drop (progress2 - j)))) ∨
      (sent.2 = true ∧ sent.1.listprogress = i ∧ j ≤ sent.1.listprogress2 ∧
        ∃ lines, Stopped full s sent.1 lines ∧
          chainLines cptr l (chain.drop (progress2 - j)) =
            lines ++ chainLines cptr l (chain.drop (sent.1.listprogress2 - j))) := by
  induction chain with
  | nil =>
    intro j s clear _
    refine .inl ⟨rfl, rfl, clear, ?_, ?_⟩ <;> simp [sendBucket, chainLines]
  | cons chptr hnextch ih =>
    intro j s clear inside
    have counted : ¬ links ≤ j := by simp only [List.length_cons] at inside; omega
    have inside' : j + 1 + hnextch.length ≤ links := by
      simp only [List.length_cons] at inside; omega
    -- what the rest of the chain does, seen from this channel
    have tail : ∀ {k : Nat}, j + 1 ≤ k →
        (chptr :: hnextch).drop (k - j) = hnextch.drop (k - (j + 1)) := by
      intro k after
      rw [show k - j = (k - (j + 1)) + 1 by omega, List.drop_succ_cons]
    by_cases passed : j < progress2
    · rw [tail passed]
      simp only [sendBucket, if_neg counted, if_pos passed]
      rcases ih (j + 1) s clear inside' with ⟨on, went⟩ | ⟨back, at_i, after, lines, stopped, todo⟩
      · exact .inl ⟨on, went⟩
      · exact .inr ⟨back, at_i, by omega, lines, stopped, by rw [tail after]; exact todo⟩
    · have here : progress2 - j = 0 := by omega
      have there : progress2 - (j + 1) = 0 := by omega
      rw [here, List.drop_zero, chainLines_cons]
      cases shown : listable cptr l chptr with
      | false =>
        simp only [sendBucket, if_neg counted, if_neg passed, shown, Bool.not_false, if_true,
          Bool.false_eq_true, if_false, List.nil_append]
        rcases ih (j + 1) s clear inside' with ⟨on, went⟩ | ⟨back, at_i, after, lines, stopped, todo⟩
        · exact .inl ⟨on, by simpa only [there, List.drop_zero] using went⟩
        · refine .inr ⟨back, at_i, by omega, lines, stopped, ?_⟩
          rw [tail after]
          simpa only [there, List.drop_zero] using todo
      | true =>
        simp only [sendBucket, if_neg counted, if_neg passed, shown, Bool.not_true, if_true,
          Bool.false_eq_true, if_false]
        rcases sendto_one_cases full clear (listLine cptr chptr) with
          ⟨sent, one⟩ | ⟨dropped, noRoom, same⟩
        · simp only [sent, Bool.false_eq_true, if_false]
          rcases ih (j + 1) _ sent inside' with ⟨on, went⟩ | ⟨back, at_i, after, lines, stopped, todo⟩
          · exact .inl ⟨on, by simpa only [there, List.drop_zero] using one.trans went⟩
          · refine .inr ⟨back, at_i, by omega, _, one.stopped stopped, ?_⟩
            rw [tail after, List.append_assoc, ← todo, there, List.drop_zero]
        · simp only [dropped, if_true]
          refine .inr ⟨trivial, trivial, Nat.le_refl j, [], ⟨?_, rfl, ?_, ?_⟩, ?_⟩
          · rw [same]
          · simp [same]
          · simp [noRoom]
          · simp [chainLines_cons, shown]

variable (cptr l full) in
/-- **The loop over the last chains** queues their lines, and what it leaves is what the saved position
stands for. -/
theorem sendBuckets_spec (left : Nat) :
    ∀ s : Listing, s.popped = false → left ≤ CH_MAX →
      let sent := sendBuckets table cptr full l left s
      (sent.2 = false ∧ Went s sent.1 (linesFrom table cptr l s.listprogress2 left)) ∨
      (sent.2 = true ∧ sent.1.listprogress ≠ -1 ∧ ∃ lines, Stopped full s sent.1 lines ∧
        linesFrom table cptr l s.listprogress2 left = lines ++
          linesFrom table cptr l sent.1.listprogress2 (CH_MAX - sent.1.listprogress.toNat)) := by
  induction left with
  | zero =>
    intro s clear _
    exact .inl ⟨rfl, rfl, clear, (List.append_nil _).symm, rfl⟩
  | succ left ih =>
    intro s clear inside
    have position : CH_MAX - (CH_MAX - (left + 1)) = left + 1 := by omega
    have chain := sendBucket_spec cptr l full (CH_MAX - (left + 1))
      s.listprogress2 (table (CH_MAX - (left + 1))).links (table (CH_MAX - (left + 1))).list 0 s clear
      (by rw [(table (CH_MAX - (left + 1))).counted, Nat.zero_add])
    simp only [Nat.sub_zero] at chain
    rcases chain with ⟨on, went⟩ | ⟨back, at_i, _, lines, stopped, todo⟩
    · have rest := ih { (sendBucket cptr full l (CH_MAX - (left + 1)) s.listprogress2
        (table (CH_MAX - (left + 1))).links 0 (table (CH_MAX - (left + 1))).list s).1 with
          listprogress2 := 0 } went.popped (by omega)
      simp only [sendBuckets, on, Bool.false_eq_true, if_false, linesFrom]
      have turned : Went s { (sendBucket cptr full l (CH_MAX - (left + 1)) s.listprogress2
        (table (CH_MAX - (left + 1))).links 0 (table (CH_MAX - (left + 1))).list s).1 with
          listprogress2 := 0 } _ := ⟨went.lopt, went.popped, went.queued, went.attempts⟩
      rcases rest with ⟨on', went'⟩ | ⟨back, set, lines, stopped, todo⟩
      · exact .inl ⟨on', turned.trans went'⟩
      · exact .inr ⟨back, set, _, turned.stopped stopped, by rw [List.append_assoc, ← todo]⟩
    · simp only [sendBuckets, back, if_true, linesFrom]
      refine .inr ⟨trivial, ?_, lines, stopped, ?_⟩
      · rw [at_i]; omega
      · rw [at_i, Int.toNat_natCast, position, linesFrom, todo, List.append_assoc]

/-- What `send_list` does after the loops. -/
def endList (full : Nat → Bool) (s : Listing) : Listing :=
  if (s.sendto_one full .RPL_LISTEND).popped then
    { s.sendto_one full .RPL_LISTEND with listprogress := -1 }
  else { s.sendto_one full .RPL_LISTEND with lopt := none }

theorem endList_spec {mid : Listing} {todo : List ListLine} (went : Went s mid todo)
    (going : s.lopt = some l) (left : pending table cptr s = todo ++ [.RPL_LISTEND]) :
    (endList full mid).queued ++ pending table cptr (endList full mid) =
        s.queued ++ pending table cptr s ∧
      ((endList full mid).lopt = none ∨
        (endList full mid).lopt = some l ∧ (endList full mid).popped = true) ∧
      (full s.attempts = false →
        (pending table cptr (endList full mid)).length < (pending table cptr s).length) := by
  unfold endList
  rcases sendto_one_cases full went.popped .RPL_LISTEND with
    ⟨sent, one⟩ | ⟨dropped, noRoom, same⟩
  · simp only [sent, Bool.false_eq_true, if_false, left]
    refine ⟨?_, .inl trivial, fun _ => ?_⟩
    · rw [one.queued, went.queued]
      simp [pending]
    · simp [pending]
  · rw [if_pos dropped, same]
    have lopt : mid.lopt = some l := went.lopt.trans going
    refine ⟨?_, .inr ⟨lopt, rfl⟩, fun room => ?_⟩
    · rw [left]
      simp [pending, lopt, went.queued]
    · have some_line : todo ≠ [] := by
        intro none_line
        rw [went.attempts, none_line, List.length_nil, Nat.add_zero, room] at noRoom
        exact Bool.noConfusion noRoom
      have counted := List.length_pos_iff.mpr some_line
      rw [left, List.length_append]
      simp only [pending, lopt, if_true, List.nil_append]
      omega

variable (cptr full) in
/-- **A call**: what it queues is from the front of what was pending, it ends the list or leaves the
flag, and it gets on if its first line finds room. -/
theorem send_list_spec (clear : s.popped = false) (going : s.lopt = some l) :
    let s' := send_list table cptr full s
    s'.queued ++ pending table cptr s' = s.queued ++ pending table cptr s ∧
      (s'.lopt = none ∨ s'.lopt = some l ∧ s'.popped = true) ∧
      (full s.attempts = false →
        (pending table cptr s').length < (pending table cptr s).length) := by
  by_cases fresh : s.listprogress = -1
  · have onlyEnd : send_list table cptr full s = endList full s := by
      simp [send_list, endList, going, fresh]
    rw [onlyEnd]
    exact endList_spec table ⟨rfl, clear, (List.append_nil _).symm, rfl⟩ going
      (by simp [pending, going, fresh])
  · have left := pending_of_position table cptr l going fresh
    rcases sendBuckets_spec table cptr l full
      (CH_MAX - s.listprogress.toNat) s clear (Nat.sub_le _ _) with
      ⟨on, went⟩ | ⟨back, set, lines, stopped, todo⟩
    · have through : send_list table cptr full s =
          endList full (sendBuckets table cptr full l (CH_MAX - s.listprogress.toNat) s).1 := by
        simp [send_list, endList, going, fresh, on]
      rw [through]
      exact endList_spec table went going left
    · have halfway : send_list table cptr full s =
          (sendBuckets table cptr full l (CH_MAX - s.listprogress.toNat) s).1 := by
        simp [send_list, going, fresh, back]
      rw [halfway]
      have lopt := stopped.lopt.trans going
      have still := pending_of_position table cptr l lopt set
      refine ⟨?_, .inr ⟨lopt, stopped.popped⟩, fun room => ?_⟩
      · rw [still, left, todo, stopped.queued]
        simp only [List.append_assoc]
      · have counted := List.length_pos_iff.mpr (stopped.moved room)
        rw [still, left, todo]
        simp only [List.length_append]
        omega

end Call

/-! ### All calls -/

/-- After each call: what was queued and what is pending are the whole list, and a list that goes on
waits for the queue to drain. -/
structure UnderWay (s : Listing) : Prop where
  whole : s.queued ++ pending table cptr s = fullList table cptr l
  waits : s.lopt = none ∨ s.lopt = some l ∧ s.popped = true

theorem underWay_run (n : Nat) : UnderWay table cptr l (run table cptr l q n) := by
  induction n with
  | zero =>
    obtain ⟨whole, waits, _⟩ := send_list_spec (l := l) (s := asked l) table cptr (q.full 0)
      rfl rfl
    refine ⟨?_, waits⟩
    rw [run, whole, pending_asked]
    exact List.nil_append _
  | succ n ih =>
    rw [run, drained]
    rcases ih.waits with ended | ⟨going, popped⟩
    · split
      · have same : send_list table cptr (q.full (n + 1))
            { run table cptr l q n with popped := false, attempts := 0 } =
            { run table cptr l q n with popped := false, attempts := 0 } := by
          simp [send_list, ended]
        rw [same]
        exact ⟨ih.whole, .inl ended⟩
      · exact ih
    · rw [if_pos popped]
      obtain ⟨whole, waits, _⟩ := send_list_spec
        (s := { run table cptr l q n with popped := false, attempts := 0 }) table cptr
        (q.full (n + 1)) rfl going
      exact ⟨whole.trans ih.whole, waits⟩

/-- While the list goes on, each time that the queue has drained gets on with it. -/
theorem pending_run (n : Nat) :
    (pending table cptr (run table cptr l q n)).length ≤
      (pending table cptr (run table cptr l q 0)).length - n := by
  induction n with
  | zero => exact Nat.le_refl _
  | succ n ih =>
    have kept := underWay_run table cptr l q (n + 1)
    rcases (underWay_run table cptr l q n).waits with ended | ⟨going, popped⟩
    · have still : (run table cptr l q (n + 1)).lopt = none := by
        rw [run, drained]
        split <;> simp [send_list, ended]
      simp [pending, still]
    · -- the queue is empty when the function is called again
      have room : q.full (n + 1) 0 = false := by simp [Queue.full]
      obtain ⟨_, _, shorter⟩ := send_list_spec
        (s := { run table cptr l q n with popped := false, attempts := 0 }) table cptr
        (q.full (n + 1)) rfl going
      have next : run table cptr l q (n + 1) = send_list table cptr (q.full (n + 1))
          { run table cptr l q n with popped := false, attempts := 0 } := if_pos popped
      have step := shorter room
      rw [← next] at step
      have same : pending table cptr { run table cptr l q n with popped := false, attempts := 0 } =
        pending table cptr (run table cptr l q n) := rfl
      rw [same] at step
      omega

/-- **A full list survives overflows of the queue**: at each time the lines queued are the first ones of
the list, and from some time on all of them are, the end of the list last. -/
theorem list_complete :
    (∀ n, (run table cptr l q n).queued <+: fullList table cptr l) ∧
      ∃ n, ∀ m, n ≤ m → (run table cptr l q m).lopt = none ∧
        (run table cptr l q m).queued = fullList table cptr l := by
  refine ⟨fun n => ⟨_, (underWay_run table cptr l q n).whole⟩,
    (pending table cptr (run table cptr l q 0)).length, fun m later => ?_⟩
  have kept := underWay_run table cptr l q m
  have counted := pending_run table cptr l q m
  have none_left : pending table cptr (run table cptr l q m) = [] := by
    rw [← List.length_eq_zero_iff]
    omega
  refine ⟨?_, ?_⟩
  · rcases kept.waits with ended | ⟨going, _⟩
    · exact ended
    · simp [pending, going] at none_left
  · rw [← kept.whole, none_left, List.append_nil]

end Listing

end PtlinkIrcd
