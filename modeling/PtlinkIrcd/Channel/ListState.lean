/-
**A client and its LIST.**

The flags and options of a listing, in `m_list` and `send_list` of `m_list.c` and in `send_message` and
`send_queued` of `send.c`.

* `ListClient` — the client: its options, the two flags, its queue and the saved position.
* `send_list_eq` — the call of `send_list` within a call of it is never made.
* `Coherent` — **the client is flagged as doing a list exactly when it has options**.
* `send_list_settles` — a call ends the list with its flag, or leaves both.
* `list_state_iff` — **every state of a run is coherent exactly when no `LIST` interrupts another one
  and none without options finds two thousand bytes queued.**
* `not_list_state` — a client that interrupts its list, and then has its messages dropped.
-/

import Mathlib.Data.List.Induction
import PtlinkIrcd.Channel.ListOptions
import PtlinkIrcd.Net.Dbuf

namespace PtlinkIrcd

/-! ### The functions -/

def PACE_WAIT : Int := 0

/-- Who lists, as far as the functions ask. -/
structure ListUser extends Lister where
  myConnect : Bool
  server : Bool

/-- What a step is made in: the server and the user as they are then, `get_sendq`, the text of a
reply and `last_used`, which the `LIST` of any client sets. -/
structure ListScene where
  me : ListServer
  user : ListUser
  get_sendq : Nat
  text : ListReply → Text
  last_used : Int

/-- `m_list` comes to a list: it is not refused for the load, and it is not asked for its usage. -/
def ListScene.Accepts (e : ListScene) (parv : List Text) : Prop :=
  (!e.user.anOper && (e.me.CurrentTime < e.last_used + PACE_WAIT || e.me.lifesux)) = false ∧
    e.user.myConnect = true ∧ ¬ (parv.length = 2 ∧ strcasecmp (parv.getD 1 []) "?" = 0)

/-- A client. `writes` are the results of its next writes: a number of bytes, or an error; after them
the socket takes nothing. -/
structure ListClient where
  lopt : Option LOpts
  /-- `IsDoingList`. -/
  doingList : Bool
  /-- `IsSendqPopped`. -/
  popped : Bool
  /-- `IsDead`. -/
  dead : Bool
  sendQ : DBuf
  lastsq : Nat
  listprogress : Int
  listprogress2 : Nat
  since : Int
  writes : List (Option Nat)

namespace ListClient

def dead_link (s : ListClient) : ListClient :=
  { s with dead := true, sendQ := s.sendQ.delete s.sendQ.length }

def isSendable (s : ListClient) : Bool := s.sendQ.length < 2048

section Sending

variable (e : ListScene) (list : ListClient → ListClient)

def delivered (s : ListClient) (rlen : Nat) (writes : List (Option Nat)) : ListClient :=
  { s with
    writes := writes
    sendQ := s.sendQ.delete rlen
    lastsq := (s.sendQ.delete rlen).length / 1024 }

/-- A list that was put off goes on when the queue is empty. -/
def resumed (s : ListClient) : ListClient :=
  if s.popped && s.sendQ.length = 0 then list { s with popped := false } else s

/-- The loop of `send_queued`. Every round takes a result, so that there are no more rounds than
these and one. -/
def drain : Nat → ListClient → ListClient
  | 0, s => s
  | rounds + 1, s =>
    if s.sendQ.length = 0 then s
    else
      match s.writes with
      | [] => (s.delivered 0 []).resumed list
      | none :: writes => { s with writes := writes }.dead_link
      | some wrote :: writes =>
        let len := s.sendQ.mapped.length
        let rlen := min wrote len
        let s := (s.delivered rlen writes).resumed list
        if rlen < len then s else drain rounds s

def send_queued (s : ListClient) : ListClient :=
  if s.dead then s else s.drain list (s.writes.length + 1)

def put (msg : Text) (s : ListClient) : ListClient := { s with sendQ := s.sendQ.put msg }

def send_message (msg : Text) (s : ListClient) : ListClient :=
  if s.dead then s
  else if e.get_sendq < s.sendQ.length then
    if s.doingList then { s with popped := true } else s.dead_link
  else
    let s := s.put msg
    let SQinK := s.sendQ.length / 1024
    if (if e.user.server then s.lastsq else s.lastsq + 4) < SQinK then s.send_queued list else s

def sendto_one (reply : ListReply) (s : ListClient) : ListClient :=
  s.send_message e list (e.text reply)

/-! ### The list -/

/-- The client after `send_list` has looked at a channel, and whether it shows it. -/
def examine (s : ListClient) (chptr : ListedChannel) : Bool × ListClient :=
  match s.lopt with
  | none => (false, s)
  | some l =>
    let seen := l.examine e.user.toLister chptr
    (seen.1, { s with lopt := some seen.2 })

/-- The loop over the chain `i`, from the channel number `j` on; whether the function returns. -/
def sendBucket (i progress2 links : Nat) : Nat → List ListedChannel → ListClient → ListClient × Bool
  | _, [], s => (s, false)
  | j, chptr :: hnextch, s =>
    if links ≤ j then (s, false)
    else if j < progress2 then sendBucket i progress2 links (j + 1) hnextch s
    else
      let seen := s.examine e chptr
      if !seen.1 then sendBucket i progress2 links (j + 1) hnextch seen.2
      else
        let s := seen.2.sendto_one e list (.line (listLine e.user.toLister chptr))
        if s.popped then ({ s with listprogress := i, listprogress2 := j }, true)
        else sendBucket i progress2 links (j + 1) hnextch s

/-- The loop over the last chains of the table. -/
def sendBuckets : Nat → ListClient → ListClient × Bool
  | 0, s => (s, false)
  | left + 1, s =>
    let i := CH_MAX - (left + 1)
    let chain := e.me.table i
    let sent := sendBucket e list i s.listprogress2 chain.links 0 chain.list s
    if sent.2 then sent else sendBuckets left { sent.1 with listprogress2 := 0 }

/-- `send_list`, where `send_queued` calls `list` for it. -/
def sendListWith (s : ListClient) : ListClient :=
  if s.lopt.isNone then s
  else
    let sent :=
      if s.listprogress ≠ -1 then s.sendBuckets e list (CH_MAX - s.listprogress.toNat) else (s, false)
    if sent.2 then sent.1
    else
      let s := sent.1.sendto_one e list (.line .RPL_LISTEND)
      if s.popped then { s with listprogress := -1 } else { s with doingList := false, lopt := none }

end Sending

variable (e : ListScene)

def send_list : ListClient → ListClient := sendListWith e id

def reply (s : ListClient) (line : ListReply) : ListClient := s.sendto_one e (send_list e) line

/-- `m_list` without options, once the start of the list was sent. -/
def listAll (s : ListClient) : ListClient :=
  let s := { s with lopt := some (.all e.me) }
  -- the flag is only set here if the queue has room
  if s.isSendable then
    send_list e { s with doingList := true, popped := false, listprogress := 0, listprogress2 := 0 }
  else s

/-- `m_list` with options, once the start of the list was sent. -/
def listSome (parv : List Text) (s : ListClient) : ListClient :=
  match ListRequest.parse e.me e.user.toLister parv with
  | .error r =>
    let replies : List ListReply := r.named.map .line ++ [.badSyntax, .line .RPL_LISTEND]
    replies.foldl (reply e) s
  | .ok r =>
    let s := (r.named.map ListReply.line).foldl (reply e) s
    if r.lists e.me.CurrentTime then
      send_list e { s with
        lopt := some r.lopt
        listprogress := 0
        listprogress2 := 0
        popped := false
        doingList := true }
    else s.reply e (.line .RPL_LISTEND)

/-- `m_list` where a list is already in process. -/
def interrupt (s : ListClient) : ListClient :=
  let s := { s with lopt := none }.reply e (.line .RPL_LISTEND)
  let s := { s with popped := false }
  -- an interrupted list costs ten seconds
  if e.user.anOper || e.user.server then s else { s with since := s.since + 10 }

def m_list (parv : List Text) (s : ListClient) : ListClient :=
  if !e.user.anOper && (e.me.CurrentTime < e.last_used + PACE_WAIT || e.me.lifesux) then
    s.reply e .RPL_LOAD2HI
  else if !e.user.myConnect then s
  else if parv.length = 2 ∧ strcasecmp (parv.getD 1 []) "?" = 0 then
    (listUsage.map ListReply.usage).foldl (reply e) s
  else if s.lopt.isSome then s.interrupt e
  else
    let s := s.reply e .RPL_LISTSTART
    if parv.getD 1 [] = [] then s.listAll e else s.listSome e parv

/-! ### A call that no list waits for -/

section Unpopped

variable {e} {list : ListClient → ListClient} {s s' : ListClient}

/-- What a send does to a client when no list waits for its queue: only the flag for a dropped line
may be set, and only while a list is done. -/
structure Quiet (s s' : ListClient) : Prop where
  lopt : s'.lopt = s.lopt
  doingList : s'.doingList = s.doingList
  popped : s'.popped = true → s.doingList = true

theorem resumed_unpopped (clear : s.popped = false) : s.resumed list = s := by
  rw [resumed, clear]
  rfl

theorem drain_unpopped (list' : ListClient → ListClient) (rounds : Nat) :
    ∀ {s : ListClient}, s.popped = false → drain list rounds s = drain list' rounds s ∧
      (drain list rounds s).lopt = s.lopt ∧ (drain list rounds s).doingList = s.doingList ∧
        (drain list rounds s).popped = false := by
  induction rounds with
  | zero => exact fun clear => ⟨rfl, rfl, rfl, clear⟩
  | succ rounds ih =>
    intro s clear
    have wrote : ∀ rlen writes, (s.delivered rlen writes).popped = false := fun _ _ => clear
    unfold drain
    split_ifs with empty
    · exact ⟨rfl, rfl, rfl, clear⟩
    · cases results : s.writes with
      | nil =>
        simp only [resumed_unpopped (wrote _ _)]
        exact ⟨trivial, rfl, rfl, clear⟩
      | cons result writes =>
        cases result with
        | none => exact ⟨rfl, rfl, rfl, clear⟩
        | some taken =>
          simp only [resumed_unpopped (wrote _ _)]
          split_ifs with partly
          · exact ⟨rfl, rfl, rfl, clear⟩
          · exact ih (wrote _ _)

theorem send_queued_unpopped (list' : ListClient → ListClient) (clear : s.popped = false) :
    s.send_queued list = s.send_queued list' ∧ (s.send_queued list).lopt = s.lopt ∧
      (s.send_queued list).doingList = s.doingList ∧ (s.send_queued list).popped = false := by
  unfold send_queued
  split_ifs with dead
  · exact ⟨rfl, rfl, rfl, clear⟩
  · exact drain_unpopped list' _ clear

variable (e) in
/-- **A send calls no list unless one waits.** -/
theorem send_message_unpopped (list' : ListClient → ListClient) (clear : s.popped = false)
    (msg : Text) :
    s.send_message e list msg = s.send_message e list' msg ∧
      Quiet s (s.send_message e list msg) := by
  have unset : ∀ {s' : ListClient}, s'.popped = false → s'.popped = true → s.doingList = true :=
    fun no yes => absurd (no.symm.trans yes) nofun
  obtain ⟨same, lopt, doingList, popped⟩ :=
    @send_queued_unpopped list (s.put msg) list' clear
  unfold send_message
  split_ifs with dead full doing
  · exact ⟨rfl, rfl, rfl, unset clear⟩
  · exact ⟨rfl, rfl, rfl, fun _ => doing⟩
  · exact ⟨rfl, rfl, rfl, unset clear⟩
  all_goals
    dsimp only
    split_ifs
  all_goals first
    | exact ⟨rfl, rfl, rfl, unset clear⟩
    | exact ⟨same, lopt, doingList, unset popped⟩

/-! ### The calls of a list -/

theorem examine_quiet (s : ListClient) (chptr : ListedChannel) :
    (s.examine e chptr).2.lopt.isSome = s.lopt.isSome ∧
      (s.examine e chptr).2.doingList = s.doingList ∧ (s.examine e chptr).2.popped = s.popped := by
  unfold examine
  cases saved : s.lopt with
  | none => exact ⟨by rw [saved], rfl, rfl⟩
  | some l => exact ⟨rfl, rfl, rfl⟩

/-- The loops: they return when a line is dropped. -/
structure Looped (s : ListClient) (sent : ListClient × Bool) : Prop where
  lopt : sent.1.lopt.isSome = s.lopt.isSome
  doingList : sent.1.doingList = s.doingList
  popped : sent.1.popped = sent.2
  flagged : sent.2 = true → s.doingList = true

theorem Looped.refl (clear : s.popped = false) : Looped s (s, false) := ⟨rfl, rfl, clear, nofun⟩

theorem Looped.trans {sent : ListClient × Bool} (lopt : s'.lopt.isSome = s.lopt.isSome)
    (doingList : s'.doingList = s.doingList) (rest : Looped s' sent) : Looped s sent :=
  ⟨rest.lopt.trans lopt, rest.doingList.trans doingList, rest.popped, fun back =>
    doingList ▸ rest.flagged back⟩

variable (e) in
theorem sendBucket_looped (list' : ListClient → ListClient) (i progress2 links : Nat)
    (chain : List ListedChannel) :
    ∀ (j : Nat) {s : ListClient}, s.popped = false →
      sendBucket e list i progress2 links j chain s = sendBucket e list' i progress2 links j chain s ∧
        Looped s (sendBucket e list i progress2 links j chain s) := by
  induction chain with
  | nil => exact fun _ _ clear => ⟨rfl, .refl clear⟩
  | cons chptr hnextch ih =>
    intro j s clear
    obtain ⟨lopt, doingList, popped⟩ := @examine_quiet e s chptr
    obtain ⟨same, quiet⟩ := @send_message_unpopped e list _ list' (popped.trans clear)
      (e.text (.line (listLine e.user.toLister chptr)))
    have lopt' := (congrArg Option.isSome quiet.lopt).trans lopt
    have doing' := quiet.doingList.trans doingList
    unfold sendBucket sendto_one
    dsimp only
    rw [← same]
    split_ifs with counted passed hidden dropped
    · exact ⟨rfl, .refl clear⟩
    · exact ih (j + 1) clear
    · exact (ih (j + 1) (popped.trans clear)).imp_right (.trans lopt doingList)
    · exact ⟨rfl, lopt', doing', dropped, fun _ => doingList ▸ quiet.popped dropped⟩
    · exact (ih (j + 1) (Bool.not_eq_true _ ▸ dropped)).imp_right (.trans lopt' doing')

variable (e) in
theorem sendBuckets_looped (list' : ListClient → ListClient) (left : Nat) :
    ∀ {s : ListClient}, s.popped = false → sendBuckets e list left s = sendBuckets e list' left s ∧
      Looped s (sendBuckets e list left s) := by
  induction left with
  | zero => exact fun clear => ⟨rfl, .refl clear⟩
  | succ left ih =>
    intro s clear
    obtain ⟨same, looped⟩ := @sendBucket_looped e list list' (CH_MAX - (left + 1))
      s.listprogress2 (e.me.table (CH_MAX - (left + 1))).links
      (e.me.table (CH_MAX - (left + 1))).list 0 s clear
    unfold sendBuckets
    dsimp only
    rw [← same]
    by_cases back : (sendBucket e list (CH_MAX - (left + 1)) s.listprogress2
      (e.me.table (CH_MAX - (left + 1))).links 0 (e.me.table (CH_MAX - (left + 1))).list s).2 = true
    · simp only [if_pos back]
      exact ⟨trivial, looped⟩
    · simp only [if_neg back]
      have clear' := looped.popped.trans (Bool.not_eq_true _ ▸ back)
      obtain ⟨same', rest⟩ := @ih { (sendBucket e list (CH_MAX - (left + 1)) s.listprogress2
        (e.me.table (CH_MAX - (left + 1))).links 0 (e.me.table (CH_MAX - (left + 1))).list s).1 with
          listprogress2 := 0 } clear'
      exact ⟨same', rest.lopt.trans looped.lopt, rest.doingList.trans looped.doingList, rest.popped,
        fun back' => looped.doingList ▸ rest.flagged back'⟩

/-- What a call leaves: no list and no flag, or a list with both flags. -/
def Settled (s : ListClient) : Prop :=
  s.lopt = none ∧ s.doingList = false ∨ s.lopt.isSome = true ∧ s.doingList = true ∧ s.popped = true

variable (e) in
theorem sendListWith_settles (list' : ListClient → ListClient) (clear : s.popped = false) :
    sendListWith e list s = sendListWith e list' s ∧
      (s.lopt.isSome = true → Settled (sendListWith e list s)) := by
  -- the loops, or none of them
  have loops : ∀ sent, sent = (if s.listprogress ≠ -1 then
      s.sendBuckets e list (CH_MAX - s.listprogress.toNat) else (s, false)) →
      Looped s sent := by
    intro sent sent_
    split_ifs at sent_
    · exact sent_ ▸ (sendBuckets_looped e list' _ clear).2
    · exact sent_ ▸ .refl clear
  have sameLoops := (@sendBuckets_looped e list list' (CH_MAX - s.listprogress.toNat) s clear).1
  unfold sendListWith sendto_one
  dsimp only
  rw [← sameLoops]
  generalize (if s.listprogress ≠ -1 then
      s.sendBuckets e list (CH_MAX - s.listprogress.toNat) else (s, false)) = sent at loops ⊢
  have looped := loops sent rfl
  by_cases idle : s.lopt.isNone = true
  · simp only [if_pos idle]
    exact ⟨trivial, fun going => absurd idle (by simp [Option.ne_none_iff_isSome.mpr going])⟩
  · simp only [if_neg idle]
    by_cases back : sent.2 = true
    · simp only [if_pos back]
      exact ⟨trivial, fun going => .inr ⟨looped.lopt.trans going,
        looped.doingList.trans (looped.flagged back), looped.popped.trans back⟩⟩
    · obtain ⟨same, quiet⟩ := @send_message_unpopped e list _ list'
        (looped.popped.trans (Bool.not_eq_true _ ▸ back)) (e.text (.line .RPL_LISTEND))
      simp only [if_neg back]
      rw [← same]
      refine ⟨rfl, fun going => ?_⟩
      split_ifs with dropped
      · exact .inr ⟨(congrArg Option.isSome quiet.lopt).trans (looped.lopt.trans going),
          quiet.doingList.trans (quiet.popped dropped), dropped⟩
      · exact .inl ⟨rfl, rfl⟩

/-- **The call of `send_list` within a call of it is never made.** -/
theorem send_list_eq (clear : s.popped = false) : send_list e s = sendListWith e (send_list e) s :=
  (sendListWith_settles e (send_list e) clear).1

variable (e) in
/-- **A call ends the list and takes its flag, or leaves both.** -/
theorem send_list_settles (clear : s.popped = false) (going : s.lopt.isSome = true) :
    Settled (send_list e s) :=
  (sendListWith_settles e id clear).2 going

variable (e) in
theorem send_list_idle (idle : s.lopt = none) : send_list e s = s := by
  simp [send_list, sendListWith, idle]

end Unpopped

/-! ### What sends keep -/

section Keeps

variable {e} {list : ListClient → ListClient} {P : Option LOpts → Bool → Prop}

/-- A fact of the options and of the flag, which a list that goes on keeps. -/
def Kept (list : ListClient → ListClient) (P : Option LOpts → Bool → Prop) : Prop :=
  ∀ s : ListClient, s.popped = false → P s.lopt s.doingList → P (list s).lopt (list s).doingList

theorem Kept.resumed (kept : Kept list P) {s : ListClient} (holds : P s.lopt s.doingList) :
    P (s.resumed list).lopt (s.resumed list).doingList := by
  unfold ListClient.resumed
  split_ifs
  · exact kept _ rfl holds
  · exact holds

theorem Kept.drain (kept : Kept list P) (rounds : Nat) :
    ∀ {s : ListClient}, P s.lopt s.doingList →
      P (s.drain list rounds).lopt (s.drain list rounds).doingList := by
  induction rounds with
  | zero => exact id
  | succ rounds ih =>
    intro s holds
    have wrote : ∀ rlen writes, P ((s.delivered rlen writes).resumed list).lopt
        ((s.delivered rlen writes).resumed list).doingList := fun _ _ => kept.resumed holds
    unfold ListClient.drain
    split_ifs with empty
    · exact holds
    · cases results : s.writes with
      | nil => exact wrote _ _
      | cons result writes =>
        cases result with
        | none => exact holds
        | some taken =>
          dsimp only
          split_ifs with partly
          · exact wrote _ _
          · exact ih (wrote _ _)

theorem Kept.send_queued (kept : Kept list P) {s : ListClient} (holds : P s.lopt s.doingList) :
    P (s.send_queued list).lopt (s.send_queued list).doingList := by
  unfold ListClient.send_queued
  split_ifs
  · exact holds
  · exact kept.drain _ holds

variable (e) in
/-- **A send keeps what the list keeps that it may go on with.** -/
theorem Kept.send_message (kept : Kept list P) (msg : Text) {s : ListClient}
    (holds : P s.lopt s.doingList) :
    P (s.send_message e list msg).lopt (s.send_message e list msg).doingList := by
  unfold ListClient.send_message
  dsimp only
  split_ifs
  any_goals exact holds
  all_goals exact kept.send_queued holds

theorem Kept.replies (kept : Kept (send_list e) P) (lines : List ListReply) {s : ListClient}
    (holds : P s.lopt s.doingList) :
    P (lines.foldl (reply e) s).lopt (lines.foldl (reply e) s).doingList := by
  induction lines generalizing s with
  | nil => exact holds
  | cons line lines ih => exact ih (kept.send_message e (e.text line) holds)

/-- **The client is flagged as doing a list exactly when it has options.** -/
def Flagged (lopt : Option LOpts) (doingList : Bool) : Prop := doingList = lopt.isSome

theorem Settled.flagged {s : ListClient} (settled : Settled s) : Flagged s.lopt s.doingList := by
  rcases settled with ⟨none_, clear⟩ | ⟨some_, set, _⟩
  · rw [Flagged, none_, clear]
    rfl
  · rw [Flagged, some_, set]

variable (e) in
theorem kept_flagged : Kept (send_list e) Flagged := by
  intro s clear flagged
  cases going : s.lopt.isSome with
  | true => exact (send_list_settles e clear going).flagged
  | false => rwa [send_list_idle e (Option.not_isSome_iff_eq_none.mp (going ▸ nofun))]

variable (e) in
theorem kept_idle (doing : Bool) :
    Kept (send_list e) fun lopt doingList => lopt = none ∧ doingList = doing := by
  rintro s - ⟨idle, same⟩
  rw [send_list_idle e idle]
  exact ⟨idle, same⟩

end Keeps

/-! ### One command -/

section Command

variable {e : ListScene} {parv : List Text} {s : ListClient}

theorem interrupt_unflagged (doing : s.doingList = true) :
    ¬ Flagged (s.interrupt e).lopt (s.interrupt e).doingList := by
  have sent := (kept_idle e true).send_message e (e.text (.line .RPL_LISTEND))
    (s := { s with lopt := none }) ⟨rfl, doing⟩
  obtain ⟨none_, set⟩ : (s.interrupt e).lopt = none ∧ (s.interrupt e).doingList = true := by
    unfold interrupt
    dsimp only
    split_ifs <;> exact sent
  rw [Flagged, none_, set]
  exact nofun

theorem listAll_flagged_iff (idle : s.doingList = false) :
    Flagged (s.listAll e).lopt (s.listAll e).doingList ↔ s.isSendable = true := by
  unfold listAll
  dsimp only
  split_ifs with room
  · exact iff_of_true (send_list_settles e rfl rfl).flagged room
  · exact iff_of_false (by rw [Flagged, idle]; exact nofun) room

theorem listSome_flagged (idle : s.lopt = none ∧ s.doingList = false) :
    Flagged (s.listSome e parv).lopt (s.listSome e parv).doingList := by
  have send := kept_idle e false
  have flagged : ∀ {s : ListClient}, s.lopt = none ∧ s.doingList = false →
      Flagged s.lopt s.doingList := by
    rintro s ⟨none_, clear⟩
    rw [Flagged, none_, clear]
    rfl
  unfold listSome
  cases ListRequest.parse e.me e.user.toLister parv with
  | error r => exact flagged (send.replies _ idle)
  | ok r =>
    dsimp only
    split_ifs
    · exact (send_list_settles e rfl rfl).flagged
    · exact flagged (send.send_message e _ (send.replies _ idle))

/-- **What a `LIST` does to the flag**: it loses the options where it interrupts a list, and does not
set the flag where the queue is not sendable. -/
theorem m_list_flagged_iff (flagged : Flagged s.lopt s.doingList) :
    Flagged (s.m_list e parv).lopt (s.m_list e parv).doingList ↔
      (e.Accepts parv → s.lopt = none ∧
        (parv.getD 1 [] = [] → (s.reply e .RPL_LISTSTART).isSendable = true)) := by
  have send := kept_flagged e
  unfold m_list ListScene.Accepts
  by_cases busy : (!e.user.anOper && (decide (e.me.CurrentTime < e.last_used + PACE_WAIT) ||
    e.me.lifesux)) = true
  · rw [if_pos busy]
    exact iff_of_true (send.send_message e _ flagged) fun accepts => absurd busy (by rw [accepts.1]; nofun)
  rw [if_neg busy]
  by_cases here : e.user.myConnect = true
  swap
  · rw [if_pos (by simpa using here)]
    exact iff_of_true flagged fun accepts => absurd accepts.2.1 here
  rw [if_neg (by simpa using here)]
  by_cases asked : parv.length = 2 ∧ strcasecmp (parv.getD 1 []) "?" = 0
  · rw [if_pos asked]
    exact iff_of_true (send.replies _ flagged) fun accepts => absurd asked accepts.2.2
  rw [if_neg asked, imp_iff_right ⟨Bool.not_eq_true _ ▸ busy, here, asked⟩]
  cases going : s.lopt with
  | some l =>
    rw [if_pos Option.isSome_some]
    refine iff_of_false (interrupt_unflagged ?_) fun spared => nomatch spared.1
    rw [flagged, going]
    rfl
  | none =>
    have idle : s.doingList = false := by rw [flagged, going]; rfl
    have sent := (kept_idle e false).send_message e (e.text .RPL_LISTSTART) ⟨going, idle⟩
    simp only [Option.isSome_none, Bool.false_eq_true, if_false]
    by_cases all : parv.getD 1 [] = []
    · rw [if_pos all]
      exact (listAll_flagged_iff sent.2).trans
        ⟨fun room => ⟨trivial, fun _ => room⟩, fun spared => spared.2 all⟩
    · rw [if_neg all]
      exact iff_of_true (listSome_flagged sent) ⟨trivial, fun none_ => absurd none_ all⟩

end Command

end ListClient

/-! ### Runs -/

/-- A line that the client sends, a message to it, or the time that its socket takes something. -/
inductive ListCall
  | LIST (parv : List Text)
  | send_message (msg : Text)
  | send_queued

/-- A call, what it is made in, and the results of its writes. -/
structure ListStep where
  scene : ListScene
  call : ListCall
  writes : List (Option Nat)

namespace ListClient

def fresh (since : Int) : ListClient := ⟨none, false, false, false, .empty, 0, 0, 0, since, []⟩

/-- A step. `parse` takes no line from a dead client. -/
def step (s : ListClient) (i : ListStep) : ListClient :=
  let s := { s with writes := i.writes }
  match i.call with
  | .LIST parv => if s.dead then s else s.m_list i.scene parv
  | .send_message msg => s.send_message i.scene (send_list i.scene) msg
  | .send_queued => s.send_queued (send_list i.scene)

def run (since : Int) (steps : List ListStep) : ListClient := steps.foldl step (fresh since)

/-- **The state of a listing is coherent**: the client is flagged as doing a list exactly when it has
options, and a client without a list that is over its queue is disconnected by the next message. -/
structure Coherent (s : ListClient) : Prop where
  flagged : s.doingList = true ↔ s.lopt ≠ none
  disconnects : ∀ (e : ListScene) (msg : Text), s.lopt = none → s.dead = false →
    e.get_sendq < s.sendQ.length → (s.send_message e (send_list e) msg).dead = true

/-- **A step spares the listing**: a `LIST` that comes to a list interrupts none, and if it has no
options the queue is sendable once the start of the list was sent. -/
def Spares (s : ListClient) (i : ListStep) : Prop :=
  match i.call with
  | .LIST parv => s.dead = false → i.scene.Accepts parv → s.lopt = none ∧ (parv.getD 1 [] = [] →
      ({ s with writes := i.writes }.reply i.scene .RPL_LISTSTART).isSendable = true)
  | _ => True

variable {s : ListClient} {i : ListStep}

theorem Coherent.iff_flagged : s.Coherent ↔ Flagged s.lopt s.doingList := by
  constructor
  · intro coherent
    rw [Flagged, Bool.eq_iff_iff, Option.isSome_iff_ne_none]
    exact coherent.flagged
  · intro flagged
    refine ⟨?_, fun e msg idle alive full => ?_⟩
    · rw [flagged, Option.isSome_iff_ne_none]
    · have clear : s.doingList = false := by rw [flagged, idle]; rfl
      simp [send_message, alive, full, clear, dead_link]

/-- **A step from a coherent state leads to one exactly if it spares the listing.** -/
theorem Coherent.step_iff (coherent : s.Coherent) : (s.step i).Coherent ↔ s.Spares i := by
  rw [iff_flagged] at coherent ⊢
  unfold ListClient.step Spares
  dsimp only
  cases i.call with
  | LIST parv =>
    dsimp only
    split_ifs with dead
    · exact iff_of_true coherent fun alive => nomatch dead.symm.trans alive
    · rw [imp_iff_right (Bool.not_eq_true _ ▸ dead)]
      exact @m_list_flagged_iff i.scene parv { s with writes := i.writes } coherent
  | send_message msg => exact iff_of_true ((kept_flagged i.scene).send_message i.scene msg coherent) trivial
  | send_queued => exact iff_of_true ((kept_flagged i.scene).send_queued coherent) trivial

theorem run_concat (since : Int) (steps : List ListStep) (i : ListStep) :
    run since (steps ++ [i]) = (run since steps).step i := List.foldl_concat ..

/-- **Every state of a run is coherent exactly when every step spares the listing.** -/
theorem list_state_iff (since : Int) (steps : List ListStep) :
    (∀ done left, steps = done ++ left → (run since done).Coherent) ↔
      ∀ done i left, steps = done ++ i :: left → (run since done).Spares i := by
  constructor
  · intro coherent done i left split
    have after := coherent (done ++ [i]) left (by rw [split, List.append_assoc]; rfl)
    rw [run_concat] at after
    exact (coherent done (i :: left) split).step_iff.mp after
  · intro spares done
    induction done using List.reverseRecOn with
    | nil => exact fun _ _ => Coherent.iff_flagged.mpr rfl
    | append_singleton done i ih =>
      intro left split
      rw [List.append_assoc, List.singleton_append] at split
      rw [run_concat]
      exact (ih (i :: left) split).step_iff.mpr (spares done i left split)

/-! ### A list that is interrupted -/

/-- A server with one channel, and a client whose queue may hold two thousand bytes. -/
def sampleListScene : ListScene where
  me := ⟨1000, false, false, fun i =>
    if i = 0 then ⟨[⟨"#a", "", 0, 2, 0, 900, 0, ""⟩], 1, List.length_singleton.symm⟩
    else ⟨[], 0, List.length_nil.symm⟩⟩
  user := ⟨⟨false, false, true, fun _ => false⟩, true, false⟩
  get_sendq := 2000
  text := fun _ => List.replicate 40 'l'
  last_used := 0

/-- Four messages of five hundred bytes, and two lists. -/
def interruptedList : List ListStep :=
  List.replicate 4 ⟨sampleListScene, .send_message (List.replicate 500 'm'), []⟩ ++
    List.replicate 2 ⟨sampleListScene, .LIST ["a".toList], []⟩

/-- **A client interrupts its list, and keeps the flag.** -/
theorem not_list_state : ¬ ∀ (since : Int) (steps : List ListStep), (run since steps).Coherent := by
  intro claim
  have coherent := (claim 0 interruptedList).flagged
  have left : (run 0 interruptedList).doingList = true ∧
      (run 0 interruptedList).lopt.isNone = true := by decide +kernel
  exact coherent.mp left.1 (Option.isNone_iff_eq_none.mp left.2)

end ListClient
end PtlinkIrcd
