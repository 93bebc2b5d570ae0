/-
**SXLINEs on every server.**

The list of `sxline.c`, and the time stamp of `m_svsinfo.c` that decides whose data of the services
counts. The messages come from the services and are passed on from server to server.

* `m_sxline`, `m_unsxline`, `find_sxline`, `is_sxlined`, `send_all_sxlines`, `m_svsinfo` — the
  functions; `SvsData` — the list, no name twice.
* `svsRelaying` — what a server does with the messages, and what `server_estab` sends to a new one.
* `svs_agrees` — passing on has the effect of the message, and a burst brings over the list to a server
  with nothing of its own that is newer (`SvsData.Joins`).
* `sxlines_converge` — **in any order of deliveries, joins and splits, a server with nothing waiting
  between it and the services' server has the same entries**.

The lines are taken to fit in the 510 bytes that are sent of one.
-/

import PtlinkIrcd.Channel.Canonize
import PtlinkIrcd.Conf.DconfSave
import PtlinkIrcd.Lib.Relay
import PtlinkIrcd.Model.State
import Mathlib.Data.List.Perm.Basic

namespace PtlinkIrcd

/-! ### The functions -/

/-- An entry: the part of `aConfItem` that an SXLINE uses. -/
structure Sxline where
  name : CString
  passwd : CString
  deriving DecidableEq

def find_sxline (sxlines : List Sxline) (name : Text) : Option Sxline :=
  sxlines.find? fun sxl => irccmp sxl.name.1 name = 0

def is_sxlined (sxlines : List Sxline) (name : Text) : Option Sxline :=
  sxlines.find? fun sxl => ircMatch sxl.name.1 name

/-- **The data of the services**: its time stamp, and the SXLINEs, no name twice. The lists of Q-lines,
SVLINEs and virtual links are left out. -/
structure SvsData where
  my_svsinfo_ts : Int
  max_tot : Int32
  secure_mode : Int32
  sxlines : List Sxline
  distinct : sxlines.Pairwise fun a b => irccmp a.name.1 b.name.1 ≠ 0
  /-- Names are shorter than the length before them can say. -/
  short : ∀ sxl ∈ sxlines, sxl.name.1.length < 2 ^ 31

/-- A message about the data, with its parameters; `service` says that its source is the services. -/
inductive SvsMessage
  | svsinfo (service : Bool) (parv : List CString)
  | sxline (parv : List CString)
  | unsxline (parv : List CString)
  deriving DecidableEq

/-- What a handler sends. -/
inductive SvsSent
  | servButone (message : SvsMessage)
  | reply (numeric : Nat) (args : List Text)
  deriving DecidableEq

def printedD (v : Int32) : CString :=
  ⟨printD v, fun member => by rcases mem_printD member with digit | sign <;> revert member <;> simp_all⟩

/-- `mask:reason`, as a message has it. -/
def Sxline.joined (sxl : Sxline) : CString :=
  ⟨sxl.name.1 ++ ':' :: sxl.passwd.1, by
    simp only [List.mem_append, List.mem_cons, not_or]
    exact ⟨sxl.name.2, by decide, sxl.passwd.2⟩⟩

/-- What `m_sxline` makes of its parameters: the first is the length of the mask in the second. -/
def readSxline (first mask : CString) : Option Sxline :=
  let len := (atoi first.1).toInt
  if 0 ≤ len ∧ len.toNat < mask.1.length ∧ mask.1[len.toNat]? = some ':' then
    some ⟨⟨mask.1.take len.toNat, fun member => mask.2 (List.mem_of_mem_take member)⟩,
      ⟨mask.1.drop (len.toNat + 1), fun member => mask.2 (List.mem_of_mem_drop member)⟩⟩
  else none

theorem readSxline_eq {first mask : CString} {sxl : Sxline} (read : readSxline first mask = some sxl) :
    (atoi first.1).toInt = sxl.name.1.length ∧ mask = sxl.joined := by
  unfold readSxline at read
  dsimp only at read
  split at read
  · rename_i fits
    obtain ⟨positive, inside, colon⟩ := fits
    obtain rfl := Option.some.inj read
    refine ⟨?_, Subtype.ext ?_⟩
    · show _ = ((mask.1.take _).length : Int)
      rw [List.length_take]
      omega
    · show mask.1 = mask.1.take _ ++ ':' :: mask.1.drop _
      obtain ⟨bound, here⟩ := List.getElem?_eq_some_iff.mp colon
      rw [← here, ← List.drop_eq_getElem_cons bound, List.take_append_drop]
  · cases read

theorem readSxline_short {first mask : CString} {sxl : Sxline} (read : readSxline first mask = some sxl) :
    sxl.name.1.length < 2 ^ 31 := by
  have bound := (atoi first.1).toInt_lt
  rw [(readSxline_eq read).1] at bound
  omega

theorem readSxline_joined {first : CString} {sxl : Sxline}
    (len : (atoi first.1).toInt = sxl.name.1.length) : readSxline first sxl.joined = some sxl := by
  obtain ⟨name, reason⟩ := sxl
  have len : (atoi first.1).toInt = name.1.length := len
  have here : (atoi first.1).toInt.toNat = name.1.length := by omega
  have whole : (Sxline.joined ⟨name, reason⟩).1 = name.1 ++ ':' :: reason.1 := rfl
  unfold readSxline
  simp only [whole, here]
  rw [if_pos ⟨by rw [len]; exact Int.natCast_nonneg _, by simp, by simp⟩]
  simp

namespace SvsData

variable (data : SvsData)

def add (sxl : Sxline) (fits : sxl.name.1.length < 2 ^ 31)
    (new : find_sxline data.sxlines sxl.name.1 = none) : SvsData where
  my_svsinfo_ts := data.my_svsinfo_ts
  max_tot := data.max_tot
  secure_mode := data.secure_mode
  sxlines := sxl :: data.sxlines
  distinct := List.pairwise_cons.mpr ⟨fun old member same =>
    of_decide_eq_false (Bool.eq_false_iff.mpr (List.find?_eq_none.mp new old member))
      (irccmp_eq_zero_comm same), data.distinct⟩
  short := List.forall_mem_cons.mpr ⟨fits, data.short⟩

def remove (name : Text) : SvsData where
  my_svsinfo_ts := data.my_svsinfo_ts
  max_tot := data.max_tot
  secure_mode := data.secure_mode
  sxlines := data.sxlines.eraseP fun sxl => irccmp sxl.name.1 name = 0
  distinct := data.distinct.sublist List.eraseP_sublist
  short sxl member := data.short sxl (List.mem_of_mem_eraseP member)

/-- `m_sxline`: the list afterwards, and what is sent; `services` says that the message is from a server
or a service. -/
def m_sxline (services : Bool) (parv : List CString) : SvsData × List SvsSent :=
  if !services then (data, [.reply ERR_NOPRIVILEGES []])
  else
    match parv with
    | first :: mask :: _ =>
      match read : readSxline first mask with
      | none => (data, [])
      | some sxl =>
        if new : find_sxline data.sxlines sxl.name.1 = none then
          (data.add sxl (readSxline_short read) new,
            [.servButone (.sxline [printedD (atoi first.1), sxl.joined])])
        else (data, [])
    | _ => (data, [.reply ERR_NEEDMOREPARAMS ["SXLINE"]])

def m_unsxline (services : Bool) (parv : List CString) : SvsData × List SvsSent :=
  if !services then (data, [.reply ERR_NOPRIVILEGES []])
  else
    match parv with
    | [] => (data, [.reply ERR_NEEDMOREPARAMS ["UNSXLINE"]])
    | name :: _ =>
      if (find_sxline data.sxlines name.1).isSome then
        (data.remove name.1, [.servButone (.unsxline [name])])
      else (data, [])

/-- `m_svsinfo`, from a server. -/
def m_svsinfo (service : Bool) (parv : List CString) : SvsData × List SvsSent :=
  match parv with
  | ts :: users :: rest =>
    let remote_ts := atol ts.1
    if service || decide (data.my_svsinfo_ts < remote_ts) then
      let secure_mode := (rest.head?.map fun mode => atoi mode.1).getD data.secure_mode
      (⟨remote_ts, Int32.ofInt (atol users.1), secure_mode, [], .nil, nofun⟩,
        [.servButone (.svsinfo service [ts, users, printedD secure_mode])])
    else (data, [])
  | _ => (data, [])

/-- `send_all_sxlines`; the messages have the name of the server as their source. -/
def send_all_sxlines : List SvsMessage :=
  data.sxlines.map fun sxl => .sxline [printedD (Int32.ofNat sxl.name.1.length), sxl.joined]

end SvsData

/-! ### What servers do with the messages -/

/-- `%lu` of a time stamp. -/
def printedLu (v : Int) : CString :=
  ⟨(printLu v).takeWhile (· ≠ NUL), fun member => by simpa [NUL] using List.mem_takeWhile_imp member⟩

def SvsMessage.receive (data : SvsData) : SvsMessage → SvsData × List SvsSent
  | .svsinfo service parv => data.m_svsinfo service parv
  | .sxline parv => data.m_sxline true parv
  | .unsxline parv => data.m_unsxline true parv

def SvsSent.relayed : SvsSent → Option SvsMessage
  | .servButone message => some message
  | .reply _ _ => none

/-- What `server_estab` sends of the data to a new server. -/
def SvsData.burst (data : SvsData) : List SvsMessage :=
  .svsinfo false [printedLu data.my_svsinfo_ts, printedD data.max_tot] :: data.send_all_sxlines

/-- A server may link in with no entries that the other one lacks and no newer time stamp; times have at
most ten digits. -/
def SvsData.Joins (x y : SvsData) : Prop :=
  x.sxlines ⊆ y.sxlines ∧ 0 ≤ x.my_svsinfo_ts ∧ x.my_svsinfo_ts ≤ y.my_svsinfo_ts ∧
    y.my_svsinfo_ts < 10 ^ 10

/-- **What a server does with the messages, and what it sends to a new one.** -/
def svsRelaying : Lib.Relaying SvsData SvsMessage where
  start := ⟨0, 0, 0, [], .nil, nofun⟩
  handle data message := ((message.receive data).1, (message.receive data).2.filterMap SvsSent.relayed)
  burst := SvsData.burst
  joins := SvsData.Joins

/-! ### Alike data -/

/-- The same time stamp and the same entries. -/
def SvsData.Alike (x y : SvsData) : Prop :=
  x.my_svsinfo_ts = y.my_svsinfo_ts ∧ x.sxlines.Perm y.sxlines

section Alike

variable {x y : SvsData} {sxl : Sxline} {first mask name : CString}

theorem find_sxline_perm {a b : List Sxline} (perm : a.Perm b) (name : Text) :
    find_sxline a name = none ↔ find_sxline b name = none := by
  unfold find_sxline
  simp only [List.find?_eq_none, perm.mem_iff]

theorem m_sxline_read (data : SvsData) (rest : List CString) (read : readSxline first mask = some sxl) :
    (find_sxline data.sxlines sxl.name.1 = none →
        (data.m_sxline true (first :: mask :: rest)).1.sxlines = sxl :: data.sxlines ∧
          (data.m_sxline true (first :: mask :: rest)).1.my_svsinfo_ts = data.my_svsinfo_ts ∧
          (data.m_sxline true (first :: mask :: rest)).2 =
            [.servButone (.sxline [printedD (atoi first.1), sxl.joined])]) ∧
      (find_sxline data.sxlines sxl.name.1 ≠ none →
        data.m_sxline true (first :: mask :: rest) = (data, [])) := by
  unfold SvsData.m_sxline
  simp only [Bool.not_true, Bool.false_eq_true, if_false]
  split
  · rename_i none_
    exact absurd (read.symm.trans none_) (by simp)
  · rename_i other read'
    obtain rfl := Option.some.inj (read.symm.trans read')
    exact ⟨fun new => by rw [dif_pos new]; exact ⟨rfl, rfl, rfl⟩, fun old => by rw [dif_neg old]⟩

theorem m_sxline_unread (data : SvsData) (rest : List CString) (unread : readSxline first mask = none) :
    data.m_sxline true (first :: mask :: rest) = (data, []) := by
  unfold SvsData.m_sxline
  simp only [Bool.not_true, Bool.false_eq_true, if_false]
  split
  · rfl
  · rename_i sxl read
    exact absurd (unread.symm.trans read) (by simp)

theorem atoi_printedD (v : Int32) : atoi (printedD v).1 = v := atoi_printD v

theorem SvsData.Alike.equivalence : Equivalence SvsData.Alike where
  refl _ := ⟨rfl, .refl _⟩
  symm alike := ⟨alike.1.symm, alike.2.symm⟩
  trans first second := ⟨first.1.trans second.1, first.2.trans second.2⟩

theorem SvsData.Alike.svsinfo (alike : x.Alike y) (service : Bool) (parv : List CString) :
    (x.m_svsinfo service parv).1.Alike (y.m_svsinfo service parv).1 := by
  obtain _ | ⟨ts, _ | ⟨users, rest⟩⟩ := parv
  · exact alike
  · exact alike
  · unfold SvsData.m_svsinfo
    dsimp only
    rw [alike.1]
    split
    · exact ⟨rfl, .refl _⟩
    · exact alike

theorem SvsData.Alike.sxline (alike : x.Alike y) (parv : List CString) :
    (x.m_sxline true parv).1.Alike (y.m_sxline true parv).1 := by
  obtain _ | ⟨first, _ | ⟨mask, rest⟩⟩ := parv
  · exact alike
  · exact alike
  · cases read : readSxline first mask with
    | none =>
      rw [m_sxline_unread x rest read, m_sxline_unread y rest read]
      exact alike
    | some sxl =>
      have inX := m_sxline_read x rest read
      have inY := m_sxline_read y rest read
      by_cases new : find_sxline x.sxlines sxl.name.1 = none
      · obtain ⟨lines, ts, -⟩ := inX.1 new
        obtain ⟨lines', ts', -⟩ := inY.1 ((find_sxline_perm alike.2 _).mp new)
        exact ⟨by rw [ts, ts', alike.1], by rw [lines, lines']; exact alike.2.cons sxl⟩
      · rw [inX.2 new, inY.2 fun none_ => new ((find_sxline_perm alike.2 _).mpr none_)]
        exact alike

theorem SvsData.unique (data : SvsData) (name : CString) :
    data.sxlines.Pairwise fun a b =>
      decide (irccmp a.name.1 name.1 = 0) = true → decide (irccmp b.name.1 name.1 = 0) = true → False := by
  refine data.distinct.imp fun {a b} apart one two => apart ?_
  exact irccmp_eq_zero_trans a.name.2 name.2 b.name.2 (of_decide_eq_true one)
    (irccmp_eq_zero_comm (of_decide_eq_true two))

theorem SvsData.Alike.unsxline (alike : x.Alike y) (parv : List CString) :
    (x.m_unsxline true parv).1.Alike (y.m_unsxline true parv).1 := by
  cases parv with
  | nil => exact alike
  | cons name rest =>
    have same := find_sxline_perm alike.2 name.1
    unfold SvsData.m_unsxline
    simp only [Bool.not_true, Bool.false_eq_true, if_false, Option.isSome_iff_ne_none, ne_eq]
    by_cases absent : find_sxline x.sxlines name.1 = none
    · rw [if_neg (not_not.mpr absent), if_neg (not_not.mpr (same.mp absent))]
      exact alike
    · rw [if_pos absent, if_pos (mt same.mpr absent)]
      exact ⟨alike.1, .eraseP _ (x.unique name) alike.2⟩

/-! ### Passing on, and bursts -/

theorem passes_nothing {data : SvsData} {message : SvsMessage} {sents : List SvsSent}
    (idle : message.receive data = (data, sents)) (silent : sents.filterMap SvsSent.relayed = []) :
    (svsRelaying.after data (svsRelaying.handle data message).2).Alike
      (svsRelaying.handle data message).1 := by
  unfold svsRelaying
  dsimp only
  rw [idle, silent]
  exact SvsData.Alike.equivalence.refl data

theorem passes_once {data after : SvsData} {message m : SvsMessage}
    (taken : message.receive data = (after, [.servButone m])) (same : (m.receive data).1.Alike after) :
    (svsRelaying.after data (svsRelaying.handle data message).2).Alike
      (svsRelaying.handle data message).1 := by
  unfold svsRelaying
  dsimp only
  rw [taken]
  exact same

theorem svs_passes (data : SvsData) (message : SvsMessage) :
    (svsRelaying.after data (svsRelaying.handle data message).2).Alike
      (svsRelaying.handle data message).1 := by
  cases message with
  | svsinfo service parv =>
    obtain _ | ⟨ts, _ | ⟨users, rest⟩⟩ := parv
    · exact passes_nothing rfl rfl
    · exact passes_nothing rfl rfl
    · by_cases newer : (service || decide (data.my_svsinfo_ts < atol ts.1)) = true
      · have cleared : ∀ rest, (data.m_svsinfo service (ts :: users :: rest)).1.my_svsinfo_ts = atol ts.1 ∧
            (data.m_svsinfo service (ts :: users :: rest)).1.sxlines = [] := fun rest => by
          unfold SvsData.m_svsinfo
          dsimp only
          rw [if_pos newer]
          exact ⟨rfl, rfl⟩
        refine passes_once (if_pos newer) ⟨(cleared _).1, ?_⟩
        show (data.m_svsinfo service [ts, users, _]).1.sxlines.Perm []
        rw [(cleared _).2]
      · exact passes_nothing (if_neg newer) rfl
  | sxline parv =>
    obtain _ | ⟨first, _ | ⟨mask, rest⟩⟩ := parv
    · exact passes_nothing rfl rfl
    · exact passes_nothing rfl rfl
    · cases read : readSxline first mask with
      | none => exact passes_nothing (m_sxline_unread data rest read) rfl
      | some sxl =>
        obtain ⟨added, kept⟩ := m_sxline_read data rest read
        by_cases new : find_sxline data.sxlines sxl.name.1 = none
        · obtain ⟨lines, ts, out⟩ := added new
          refine passes_once (Prod.ext rfl out) ?_
          have again : readSxline (printedD (atoi first.1)) sxl.joined = some sxl :=
            readSxline_joined (by rw [atoi_printedD]; exact (readSxline_eq read).1)
          obtain ⟨lines', ts', -⟩ := (m_sxline_read data [] again).1 new
          refine ⟨ts'.trans ts.symm, ?_⟩
          show (data.m_sxline true _).1.sxlines.Perm (data.m_sxline true _).1.sxlines
          rw [lines, lines']
        · exact passes_nothing (kept new) rfl
  | unsxline parv =>
    cases parv with
    | nil => exact passes_nothing rfl rfl
    | cons name rest =>
      by_cases here : (find_sxline data.sxlines name.1).isSome = true
      · have gone : ∀ rest, data.m_unsxline true (name :: rest) =
            (data.remove name.1, [.servButone (.unsxline [name])]) := fun rest => if_pos here
        refine passes_once (gone rest) ?_
        show (data.m_unsxline true [name]).1.Alike _
        rw [gone]
        exact SvsData.Alike.equivalence.refl _
      · exact passes_nothing (if_neg here) rfl

theorem eq_of_name {lines : List Sxline} (apart : lines.Pairwise fun a b => irccmp a.name.1 b.name.1 ≠ 0)
    {a b : Sxline} (first : a ∈ lines) (second : b ∈ lines) (same : irccmp a.name.1 b.name.1 = 0) :
    a = b := by
  by_contra differ
  have symm : Std.Symm fun a b : Sxline => irccmp a.name.1 b.name.1 ≠ 0 :=
    ⟨fun a b differ same => differ (irccmp_eq_zero_comm same)⟩
  exact apart.forall first second differ same

/-- The message of a burst about an entry. -/
def Sxline.told (sxl : Sxline) : SvsMessage :=
  .sxline [printedD (Int32.ofNat sxl.name.1.length), sxl.joined]

theorem readSxline_told {sxl : Sxline} (short : sxl.name.1.length < 2 ^ 31) :
    readSxline (printedD (Int32.ofNat sxl.name.1.length)) sxl.joined = some sxl := by
  refine readSxline_joined ?_
  rw [atoi_printedD]
  exact Int32.toInt_ofNat_of_lt short

/-- **Entries of one list are added to others of it.** -/
theorem after_entries {all : List Sxline} (apart : all.Pairwise fun a b => irccmp a.name.1 b.name.1 ≠ 0)
    (short : ∀ sxl ∈ all, sxl.name.1.length < 2 ^ 31) {lines : List Sxline} (those : lines ⊆ all)
    (data : SvsData) (others : data.sxlines ⊆ all) :
    (∀ sxl, sxl ∈ (svsRelaying.after data (lines.map Sxline.told)).sxlines ↔
        sxl ∈ data.sxlines ∨ sxl ∈ lines) ∧
      (svsRelaying.after data (lines.map Sxline.told)).my_svsinfo_ts = data.my_svsinfo_ts := by
  induction lines generalizing data with
  | nil => exact ⟨fun sxl => by simp [Lib.Relaying.after], rfl⟩
  | cons sxl lines ih =>
    obtain ⟨here, those⟩ := List.cons_subset.mp those
    obtain ⟨added, kept⟩ := m_sxline_read data [] (readSxline_told (short sxl here))
    show (∀ other, other ∈ (svsRelaying.after (data.m_sxline true _).1 (lines.map Sxline.told)).sxlines ↔ _) ∧
      (svsRelaying.after (data.m_sxline true _).1 (lines.map Sxline.told)).my_svsinfo_ts = _
    by_cases new : find_sxline data.sxlines sxl.name.1 = none
    · obtain ⟨list, ts, -⟩ := added new
      obtain ⟨members, ts'⟩ := ih those _ (by
        rw [list]
        exact List.cons_subset.mpr ⟨here, others⟩)
      refine ⟨fun other => ?_, ts'.trans ts⟩
      rw [members other, list, List.mem_cons, List.mem_cons, or_assoc, or_left_comm]
    · have known : sxl ∈ data.sxlines := by
        obtain ⟨old, found⟩ := Option.ne_none_iff_exists'.mp new
        have member := List.mem_of_find?_eq_some found
        have same : irccmp old.name.1 sxl.name.1 = 0 := of_decide_eq_true (List.find?_some
          (p := fun old : Sxline => decide (irccmp old.name.1 sxl.name.1 = 0)) found)
        exact eq_of_name apart (others member) here same ▸ member
      rw [kept new]
      obtain ⟨members, ts⟩ := ih those data others
      refine ⟨fun other => ?_, ts⟩
      rw [members other, List.mem_cons]
      exact ⟨Or.imp_right .inr, fun any => any.elim .inl fun any => any.elim (fun same => .inl (same ▸ known)) .inr⟩

theorem atol_printedLu {v : Int} (positive : 0 ≤ v) (digits : v < 10 ^ 10) : atol (printedLu v).1 = v := by
  obtain ⟨n, rfl⟩ := Int.eq_ofNat_of_zero_le positive
  have small : n < 10 ^ 10 := by omega
  have whole : (printLu n).takeWhile (· ≠ NUL) = printLu n := by
    refine List.takeWhile_eq_self_iff.mpr fun c member => decide_eq_true ?_
    rintro rfl
    exact absurd ((printLu_digits small).1 NUL member) (by decide)
  show atol ((printLu n).takeWhile (· ≠ NUL)) = n
  rw [whole, atol_printLu small]

theorem svsinfo_burst (data : SvsData) {ts : Int} (positive : 0 ≤ ts) (digits : ts < 10 ^ 10)
    (users : CString) :
    (data.my_svsinfo_ts < ts → (data.m_svsinfo false [printedLu ts, users]).1.sxlines = [] ∧
        (data.m_svsinfo false [printedLu ts, users]).1.my_svsinfo_ts = ts) ∧
      (ts ≤ data.my_svsinfo_ts → data.m_svsinfo false [printedLu ts, users] = (data, [])) := by
  unfold SvsData.m_svsinfo
  dsimp only
  rw [atol_printedLu positive digits, Bool.false_or]
  constructor
  · intro newer
    rw [if_pos (decide_eq_true newer)]
    exact ⟨rfl, rfl⟩
  · intro older
    rw [if_neg (by simpa using older)]

theorem svs_fills (joins : x.Joins y) : (svsRelaying.after x (svsRelaying.burst y)).Alike y := by
  obtain ⟨known, positive, older, digits⟩ := joins
  obtain ⟨newer, same⟩ := svsinfo_burst x (positive.trans older) digits (printedD y.max_tot)
  have told : (x.m_svsinfo false [printedLu y.my_svsinfo_ts, printedD y.max_tot]).1.sxlines ⊆ y.sxlines ∧
      (x.m_svsinfo false [printedLu y.my_svsinfo_ts, printedD y.max_tot]).1.my_svsinfo_ts =
        y.my_svsinfo_ts := by
    rcases lt_or_eq_of_le older with less | equal
    · rw [(newer less).1, (newer less).2]
      exact ⟨List.nil_subset _, rfl⟩
    · rw [same equal.ge]
      exact ⟨known, equal⟩
  generalize sent : (x.m_svsinfo false [printedLu y.my_svsinfo_ts, printedD y.max_tot]).1 = z at told
  obtain ⟨members, ts⟩ := after_entries y.distinct y.short (List.Subset.refl y.sxlines) z told.1
  have whole : svsRelaying.after x (svsRelaying.burst y) =
      svsRelaying.after z (y.sxlines.map Sxline.told) := by
    rw [← sent]
    rfl
  have nodup : ∀ data : SvsData, data.sxlines.Nodup := fun data =>
    data.distinct.imp fun {a b} apart same => apart (by rw [same]; exact irccmp_self _)
  rw [whole]
  refine ⟨ts.trans told.2, (List.perm_ext_iff_of_nodup (nodup _) (nodup y)).mpr fun sxl => ?_⟩
  rw [members sxl]
  exact ⟨fun any => any.elim (told.1 ·) id, .inr⟩

theorem svs_silent (joins : x.Joins y) :
    ∀ message ∈ svsRelaying.burst x, svsRelaying.handle y message = (y, []) := by
  obtain ⟨known, positive, older, digits⟩ := joins
  have idle : ∀ message : SvsMessage, message.receive y = (y, []) →
      svsRelaying.handle y message = (y, []) := by
    intro message same
    unfold svsRelaying
    dsimp only
    rw [same]
    rfl
  have all : svsRelaying.burst x =
      .svsinfo false [printedLu x.my_svsinfo_ts, printedD x.max_tot] :: x.sxlines.map Sxline.told := rfl
  rw [all, List.forall_mem_cons, List.forall_mem_map]
  refine ⟨idle _ ((svsinfo_burst _ positive (older.trans_lt digits) _).2 older), fun sxl member => ?_⟩
  refine idle _ ((m_sxline_read y [] (readSxline_told (x.short sxl member))).2 fun none_ => ?_)
  exact List.find?_eq_none.mp none_ sxl (known member) (decide_eq_true (irccmp_self _))

/-- **The servers agree.** -/
theorem svs_agrees : Lib.Agrees svsRelaying SvsData.Alike where
  equivalence := SvsData.Alike.equivalence
  congr m alike := by
    cases m with
    | svsinfo service parv => exact alike.svsinfo service parv
    | sxline parv => exact alike.sxline parv
    | unsxline parv => exact alike.unsxline parv
  passes := svs_passes
  fills := svs_fills
  silent := svs_silent

theorem SvsData.Alike.find_sxline (alike : x.Alike y) (name : CString) :
    PtlinkIrcd.find_sxline x.sxlines name.1 = PtlinkIrcd.find_sxline y.sxlines name.1 := by
  cases found : PtlinkIrcd.find_sxline x.sxlines name.1 with
  | none => exact ((find_sxline_perm alike.2 name.1).mp found).symm
  | some sxl =>
    cases found' : PtlinkIrcd.find_sxline y.sxlines name.1 with
    | none => exact absurd (((find_sxline_perm alike.2 name.1).mpr found').symm.trans found) (by simp)
    | some other =>
      have member := List.mem_of_find?_eq_some found
      have member' := alike.2.mem_iff.mpr (List.mem_of_find?_eq_some found')
      have one : irccmp sxl.name.1 name.1 = 0 := of_decide_eq_true (List.find?_some
        (p := fun sxl : Sxline => decide (irccmp sxl.name.1 name.1 = 0)) found)
      have two : irccmp other.name.1 name.1 = 0 := of_decide_eq_true (List.find?_some
        (p := fun sxl : Sxline => decide (irccmp sxl.name.1 name.1 = 0)) found')
      rw [eq_of_name x.distinct member member' (irccmp_eq_zero_trans sxl.name.2 name.2 other.name.2 one
        (irccmp_eq_zero_comm two))]

end Alike

/-- **The SXLINEs are the same on all servers.** The messages of the services may be under way on any
links and be handled in any order of links, servers may have joined and links may have been lost. When
nothing waits between the server at the services and another one, this has the same entries: those for
a name are equal, and a user is refused by both or by none. -/
theorem sxlines_converge {V : Type} [DecidableEq V] {hub v : V} {net : Lib.Relay V SvsData SvsMessage}
    (reached : net.Reached svsRelaying hub) (settled : net.Settled hub v) :
    (net.state v).my_svsinfo_ts = (net.state hub).my_svsinfo_ts ∧
      (∀ name : CString, find_sxline (net.state v).sxlines name.1 =
        find_sxline (net.state hub).sxlines name.1) ∧
      ∀ info : Text, (is_sxlined (net.state v).sxlines info).isSome =
        (is_sxlined (net.state hub).sxlines info).isSome := by
  have alike := svs_agrees.settled_alike reached settled
  refine ⟨alike.1, alike.find_sxline, fun info => ?_⟩
  unfold is_sxlined
  rw [Bool.eq_iff_iff, List.find?_isSome, List.find?_isSome]
  simp only [alike.2.mem_iff]

/-- A server that has linked to the services' server, an SXLINE that the services add afterwards, a split
and a second link, and a user that the server refuses. -/
theorem sxlines_converge_after_a_link : ∃ net : Lib.Relay Bool SvsData SvsMessage,
    net.up true = some false ∧ (is_sxlined (net.state true).sxlines ['b', 'o', 't']).isSome = true := by
  have link : Lib.Relay.Step svsRelaying false (Lib.Relay.start svsRelaying) _ :=
    .link _ true false rfl (by decide) (by decide)
      ⟨List.Subset.refl _, by decide, by decide, by decide⟩
  have told := (Relation.ReflTransGen.single link).tail (.issue _
    (.sxline [⟨['3'], by decide⟩, ⟨['b', 'o', 't', ':', 'n', 'o'], by decide⟩]))
  -- the time stamp of the burst comes first
  have synced := told.tail (.deliver _ true _ _ rfl)
  have lost := (synced.tail (.deliver _ true _ _ rfl)).tail (.split _ true)
  have again := lost.tail (.link _ true false rfl (by decide) (by decide)
    ⟨List.Subset.refl _, by decide, by decide, by decide⟩)
  have reached := (again.tail (.deliver _ true _ _ rfl)).tail (.deliver _ true _ _ rfl)
  have refused := (sxlines_converge reached (.step (v := true) rfl rfl .root)).2.2 ['b', 'o', 't']
  exact ⟨_, rfl, refused.trans (by decide)⟩

end PtlinkIrcd
