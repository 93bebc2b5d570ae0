/-
**The lines of LIST.**

What a client gets of the list, where no full queue interrupts it.

* `ListClient.sends` — lines, one after the other; `sendto_one_saved` — a line is sent alike, whatever the
  options and the position are.
* `ListClient.m_list_options` — the options with which `m_list` starts a list.
* `ListClient.send_list_lines` — **the lines for the channels that are shown, and the end of the list**.
-/

import PtlinkIrcd.Channel.ListFilters
import PtlinkIrcd.Channel.ListState

namespace PtlinkIrcd

/-! ### The lines of a call -/

/-- The lines for the channels that are shown. -/
def LOpts.lines (cptr : Lister) (l : LOpts) (seen : List ListedChannel) : List ListLine :=
  ((l.visits cptr seen).filter Prod.snd).map fun v => listLine cptr v.1

theorem LOpts.lines_append (cptr : Lister) (l : LOpts) (seen more : List ListedChannel) :
    l.lines cptr (seen ++ more) = l.lines cptr seen ++ (l.after cptr seen).lines cptr more := by
  have visits : ∀ l : LOpts, l.visits cptr (seen ++ more) =
      l.visits cptr seen ++ (l.after cptr seen).visits cptr more := by
    induction seen with
    | nil => exact fun l => rfl
    | cons c seen ih => exact fun l => congrArg (_ :: ·) (ih _)
  rw [LOpts.lines, visits, List.filter_append, List.map_append]
  rfl

namespace ListClient

variable (e : ListScene)

def saved (lopt : Option LOpts) (progress : Int) (progress2 : Nat) (s : ListClient) : ListClient :=
  { s with lopt := lopt, listprogress := progress, listprogress2 := progress2 }

def sends (lines : List ListLine) (s : ListClient) : ListClient :=
  lines.foldl (fun s line => s.sendto_one e id (.line line)) s

section Saved

variable {lopt : Option LOpts} {progress : Int} {progress2 : Nat}

theorem drain_saved (rounds : Nat) (s : ListClient) :
    (s.saved lopt progress progress2).drain id rounds =
      (s.drain id rounds).saved lopt progress progress2 := by
  induction rounds generalizing s with
  | zero => rfl
  | succ rounds ih =>
    have resumed_ : ∀ s : ListClient, (s.saved lopt progress progress2).resumed id =
        (s.resumed id).saved lopt progress progress2 := by
      intro s
      unfold resumed
      split_ifs <;> first | rfl | contradiction
    have delivered_ : ∀ rlen writes, (s.saved lopt progress progress2).delivered rlen writes =
        (s.delivered rlen writes).saved lopt progress progress2 := fun _ _ => rfl
    unfold drain
    have same : (s.saved lopt progress progress2).sendQ = s.sendQ ∧
        (s.saved lopt progress progress2).writes = s.writes := ⟨rfl, rfl⟩
    rw [same.1, same.2]
    split_ifs with empty
    · rfl
    · cases s.writes with
      | nil => rw [delivered_, resumed_]
      | cons result writes =>
        cases result with
        | none => rfl
        | some wrote =>
          dsimp only
          rw [delivered_, resumed_, ih]
          split_ifs <;> rfl

theorem sendto_one_saved (reply : ListReply) (s : ListClient) :
    (s.saved lopt progress progress2).sendto_one e id reply =
      (s.sendto_one e id reply).saved lopt progress progress2 := by
  have put_ : (s.saved lopt progress progress2).put (e.text reply) =
      (s.put (e.text reply)).saved lopt progress progress2 := rfl
  have queued : ∀ s : ListClient, (s.saved lopt progress progress2).send_queued id =
      (s.send_queued id).saved lopt progress progress2 := by
    intro s
    unfold send_queued
    rw [show (s.saved lopt progress progress2).dead = s.dead from rfl,
      show (s.saved lopt progress progress2).writes = s.writes from rfl, drain_saved]
    split_ifs <;> rfl
  unfold sendto_one send_message
  dsimp only
  rw [put_, queued]
  have same : (s.saved lopt progress progress2).dead = s.dead ∧
      (s.saved lopt progress progress2).sendQ = s.sendQ ∧
        (s.saved lopt progress progress2).doingList = s.doingList ∧
          ((s.put (e.text reply)).saved lopt progress progress2).sendQ =
            (s.put (e.text reply)).sendQ ∧
            ((s.put (e.text reply)).saved lopt progress progress2).lastsq =
              (s.put (e.text reply)).lastsq := ⟨rfl, rfl, rfl, rfl, rfl⟩
  rw [same.1, same.2.1, same.2.2.1, same.2.2.2.1, same.2.2.2.2]
  split_ifs <;> rfl

end Saved

theorem sends_append (lines more : List ListLine) (s : ListClient) :
    s.sends e (lines ++ more) = (s.sends e lines).sends e more := List.foldl_append ..

/-- **A chain to its end**: the lines for the channels that are shown, and the masks that are left. -/
theorem sendBucket_lines (i : Nat) (chain : List ListedChannel) (j links : Nat)
    (counted : j + chain.length ≤ links) (l : LOpts) (s : ListClient)
    (ended : (sendBucket e id i 0 links j chain (s.saved (some l) 0 0)).2 = false) :
    sendBucket e id i 0 links j chain (s.saved (some l) 0 0) =
      ((s.sends e (l.lines e.user.toLister chain)).saved (some (l.after e.user.toLister chain)) 0 0,
        false) := by
  induction chain generalizing j l s with
  | nil => rfl
  | cons c chain ih =>
    rw [List.length_cons] at counted
    have examined : (s.saved (some l) 0 0).examine e c =
        ((l.examine e.user.toLister c).1, s.saved (some (l.examine e.user.toLister c).2) 0 0) := rfl
    have after_ : l.after e.user.toLister (c :: chain) =
        (l.examine e.user.toLister c).2.after e.user.toLister chain := rfl
    unfold sendBucket at ended ⊢
    rw [if_neg (by omega), if_neg (Nat.not_lt_zero j)] at ended ⊢
    dsimp only at ended ⊢
    rw [examined] at ended ⊢
    rw [after_, LOpts.lines, LOpts.visits]
    dsimp only at ended ⊢
    by_cases shown : (l.examine e.user.toLister c).1 = true
    · rw [shown, Bool.not_true, if_neg Bool.false_ne_true, sendto_one_saved] at ended ⊢
      split_ifs at ended ⊢ with dropped
      · rw [ih (j + 1) (by omega) _ _ ended]
        rfl
    · rw [Bool.not_eq_true] at shown
      rw [shown, Bool.not_false, if_pos rfl] at ended ⊢
      exact ih (j + 1) (by omega) _ _ ended

def lastChannels (me : ListServer) (left : Nat) : List ListedChannel :=
  (List.range' (CH_MAX - left) left).flatMap fun i => (me.table i).list

/-- **The last chains to their end.** -/
theorem sendBuckets_lines (left : Nat) (fits : left ≤ CH_MAX) (l : LOpts) (s : ListClient)
    (ended : (sendBuckets e id left (s.saved (some l) 0 0)).2 = false) :
    sendBuckets e id left (s.saved (some l) 0 0) =
      ((s.sends e (l.lines e.user.toLister (lastChannels e.me left))).saved
        (some (l.after e.user.toLister (lastChannels e.me left))) 0 0, false) := by
  induction left generalizing l s with
  | zero => rfl
  | succ left ih =>
    have split_ : lastChannels e.me (left + 1) =
        (e.me.table (CH_MAX - (left + 1))).list ++ lastChannels e.me left := by
      rw [lastChannels, List.range'_succ, List.flatMap_cons, lastChannels,
        show CH_MAX - (left + 1) + 1 = CH_MAX - left by omega]
    have links : 0 + (e.me.table (CH_MAX - (left + 1))).list.length ≤
        (e.me.table (CH_MAX - (left + 1))).links := by
      rw [(e.me.table _).counted, Nat.zero_add]
    have bucket := sendBucket_lines e (CH_MAX - (left + 1)) (e.me.table (CH_MAX - (left + 1))).list 0
      (e.me.table (CH_MAX - (left + 1))).links links l s
    have position : (s.saved (some l) 0 0).listprogress2 = 0 := rfl
    unfold sendBuckets at ended ⊢
    dsimp only at ended ⊢
    rw [position] at ended ⊢
    split_ifs at ended ⊢ with back
    · exact absurd (ended.symm.trans back) Bool.false_ne_true
    · rw [bucket (Bool.not_eq_true _ ▸ back)] at ended ⊢
      rw [split_, LOpts.lines_append, sends_append]
      have rest := ih (by omega) (l.after e.user.toLister (e.me.table (CH_MAX - (left + 1))).list)
        (s.sends e (l.lines e.user.toLister (e.me.table (CH_MAX - (left + 1))).list)) ended
      have after_ : ∀ more, l.after e.user.toLister
          ((e.me.table (CH_MAX - (left + 1))).list ++ more) =
            (l.after e.user.toLister (e.me.table (CH_MAX - (left + 1))).list).after
              e.user.toLister more := fun more => List.foldl_append ..
      rw [after_]
      exact rest

theorem lastChannels_all (me : ListServer) : lastChannels me CH_MAX = me.channels := by
  rw [lastChannels, ListServer.channels, List.range_eq_range', Nat.sub_self]

/-- **A list that no full queue interrupts**: the client gets the lines for the channels that are shown, and
the end of the list. -/
theorem send_list_lines {s : ListClient} {l : LOpts} (going : s.lopt = some l)
    (start : s.listprogress = 0 ∧ s.listprogress2 = 0) (clear : s.popped = false)
    (ended : (send_list e s).lopt = none) :
    send_list e s =
      { s.sends e (l.lines e.user.toLister e.me.channels ++ [.RPL_LISTEND]) with
        doingList := false, lopt := none, listprogress := 0, listprogress2 := 0 } := by
  have self : s = s.saved (some l) 0 0 := by
    unfold saved
    rw [← going, ← start.1, ← start.2]
  have looped := (@sendBuckets_looped e id id CH_MAX s clear).2
  have loops := sendBuckets_lines e CH_MAX le_rfl l s
  rw [← self, lastChannels_all] at loops
  have whole : (if s.listprogress ≠ -1 then sendBuckets e id (CH_MAX - s.listprogress.toNat) s
      else (s, false)) = sendBuckets e id CH_MAX s := by
    rw [start.1]
    exact if_pos (by decide)
  unfold send_list sendListWith at ended ⊢
  dsimp only at ended ⊢
  rw [whole, going, Option.isNone_some, if_neg Bool.false_ne_true] at ended ⊢
  split_ifs at ended ⊢ with back dropped
  · -- the options stay where the loops return
    have some_ := looped.lopt
    rw [ended, going] at some_
    cases some_
  · rw [loops (Bool.not_eq_true _ ▸ back), sendto_one_saved] at ended
    cases ended
  · have last : ∀ s : ListClient, s.sends e [.RPL_LISTEND] =
        s.sendto_one e id (.line .RPL_LISTEND) := fun _ => rfl
    rw [loops (Bool.not_eq_true _ ▸ back), sendto_one_saved, sends_append, last]
    generalize sendto_one e id _ _ = s'
    rfl

/-- **What `m_list` does with options**: the list starts, and ends at once if no channel can be shown. -/
theorem m_list_options {parv : List Text} {opts : List ListOption} {s : ListClient}
    (accepts : e.Accepts parv) (idle : s.lopt = none) (read : ListOption.read parv = some opts)
    (given : opts ≠ []) :
    m_list e parv s =
      match e.me.options e.user.toLister parv with
      | some l => send_list e { s.reply e .RPL_LISTSTART with
          lopt := some l, listprogress := 0, listprogress2 := 0, popped := false, doingList := true }
      | none => (s.reply e .RPL_LISTSTART).reply e (.line .RPL_LISTEND) := by
  obtain ⟨light, local_, options⟩ := accepts
  unfold ListOption.read at read
  rw [if_neg options] at read
  split_ifs at read with none_
  · cases read
    exact absurd rfl given
  · obtain ⟨read, -⟩ := Option.filter_eq_some_iff.mp read
    have parsed : ListRequest.parse e.me e.user.toLister parv = .ok
        (opts.foldl (ListRequest.option e.me.CurrentTime) (.start e.me.CurrentTime)) :=
      parse_of_mapM read _
    have named : (opts.foldl (ListRequest.option e.me.CurrentTime)
        (.start e.me.CurrentTime)).named = [] := by
      rw [foldl_option]
      rfl
    unfold m_list ListServer.options
    rw [light, if_neg Bool.false_ne_true, local_, Bool.not_true, if_neg Bool.false_ne_true,
      if_neg options, idle, Option.isSome_none, if_neg Bool.false_ne_true]
    dsimp only
    rw [if_neg none_, if_neg options, if_neg none_, listSome, parsed]
    dsimp only
    rw [named, List.map_nil, List.foldl_nil]
    split_ifs <;> rfl

end ListClient

end PtlinkIrcd
