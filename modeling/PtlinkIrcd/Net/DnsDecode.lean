/-
**What is decoded of an answer of a name server.**

A reply as it should be, and what `proc_answer` makes of it in the buffer that earlier replies left.

* `Rr`, `Rr.Lies`, `WellFormedReply` — the records, where they lie in a reply, and the whole reply.
* `HostView`, `HostBuf.view` — what a buffer says of a host; `decoded` — what the records add to it.
* `Decodes` — exactly the answers were decoded, and counted.
* `Skipped`, `Straight` — the replies and buffers for which that is so.
* `Sketch` — what the records that are skipped as they should be make of a buffer, as `proc_answer` has it.
* `proc_answer_decodes_iff` — **exactly the answers of a straight reply are decoded, and of no other whose
  records are skipped as they should be**.
-/

import PtlinkIrcd.Net.DnsAnswer

namespace PtlinkIrcd

/-! ### Replies -/

/-- The data of a record; the target of a `CNAME` record is not looked at. -/
inductive RrData
  | A (addr : InAddr)
  | PTR (target : CString)
  | CNAME
  | other (type : Nat)

/-- A record. -/
structure Rr where
  owner : CString
  query_class : Nat
  rd_length : Nat
  data : RrData

namespace Rr

def type (rr : Rr) : Nat :=
  match rr.data with
  | .A _ => T_A
  | .PTR _ => T_PTR
  | .CNAME => T_CNAME
  | .other type => type

/-- The name that the record has for the host, its alias, and its address. -/
def naming (rr : Rr) : Option Text :=
  match rr.data with
  | .A _ => some rr.owner.1
  | .PTR target => some target.1
  | _ => none

def alias_ (rr : Rr) : Option Text :=
  match rr.data with
  | .CNAME => some rr.owner.1
  | _ => none

def address (rr : Rr) : Option InAddr :=
  match rr.data with
  | .A addr => some addr
  | _ => none

/-- The record is of one of the three types. -/
def isAnswer (rr : Rr) : Bool :=
  match rr.data with
  | .other _ => false
  | _ => true

/-- The data of the record are as its type has them, at a place of the reply. -/
def DataAt (rr : Rr) (lib : Resolv) (p : DnsPacket) (data : Nat) : Prop :=
  match rr.data with
  | .A addr => rr.rd_length = sizeof_IN_ADDR ∧ p.address data = addr
  | .PTR target => 0 < rr.rd_length ∧ lib.dn_expand p data = ((rr.rd_length : Int), target)
  | .CNAME => 0 < rr.rd_length
  | .other type => type ≠ T_A ∧ type ≠ T_PTR ∧ type ≠ T_CNAME

/-- **A record lies in the reply**, from one place, with `n` bytes for its owner. -/
structure Lies (rr : Rr) (lib : Resolv) (p : DnsPacket) (current n : Nat) : Prop where
  some_ : 0 < n
  owner : lib.dn_expand p current = ((n : Int), rr.owner)
  type : p.getshort (current + n) = rr.type
  query_class : p.getshort (current + n + TYPE_SIZE) = rr.query_class
  rd_length : p.getshort (current + n + TYPE_SIZE + CLASS_SIZE + TTL_SIZE) = rr.rd_length
  data : rr.DataAt lib p (current + n + ANSWER_FIXED_SIZE)
  inside : current + n + ANSWER_FIXED_SIZE + rr.rd_length ≤ p.eob

end Rr

/-- Records that lie one behind the other. -/
inductive RecordsFrom (lib : Resolv) (p : DnsPacket) : Nat → List Rr → Prop
  | nil (current : Nat) : RecordsFrom lib p current []
  | cons {current n : Nat} {rr : Rr} {rest : List Rr} (lies : rr.Lies lib p current n)
    (more : RecordsFrom lib p (current + n + ANSWER_FIXED_SIZE + rr.rd_length) rest) :
    RecordsFrom lib p current (rr :: rest)

/-- Queries that lie one behind the other, up to a place. -/
inductive QueriesFrom (lib : Resolv) (p : DnsPacket) (last : Nat) : Nat → Nat → Prop
  | nil : QueriesFrom lib p last 0 last
  | cons {qdcount current n : Nat} (skip : lib.dn_skipname p current = (n : Int))
    (more : QueriesFrom lib p last qdcount (current + n + QFIXEDSZ)) :
    QueriesFrom lib p last (qdcount + 1) current

/-- **A reply as it should be**: its queries, and behind them its records. -/
structure WellFormedReply (lib : Resolv) (p : DnsPacket) (rrs : List Rr) : Prop where
  count : p.ancount = rrs.length
  records : ∃ first, QueriesFrom lib p first p.qdcount sizeof_HEADER ∧ RecordsFrom lib p first rrs

/-! ### What is to be decoded -/

/-- What is known of a host. -/
structure HostView where
  name : Option Text
  aliases : List Text
  addrs : List InAddr
deriving DecidableEq

def HostBuf.view (he : HostBuf) : HostView :=
  ⟨he.h_name.map he.string, he.h_aliases.map he.string, he.h_addr_list⟩

/-- **What the records say**: the name unless there was one, the aliases and the addresses in their order. -/
def decoded (v : HostView) (rrs : List Rr) : HostView :=
  ⟨v.name.or (rrs.findSome? Rr.naming), v.aliases ++ rrs.filterMap Rr.alias_,
    v.addrs ++ rrs.filterMap Rr.address⟩

/-- **Exactly the answers were decoded**, from what the buffer said before, and counted. -/
def Decodes (v : HostView) (rrs : List Rr) (after : Nat × Filling) : Prop :=
  after.2.he.view = decoded v rrs ∧ after.1 = rrs.countP Rr.isAnswer

/-- The characters that the names of the records take, with their ends. -/
def Rr.size (named : Bool) (rr : Rr) : Nat :=
  match rr.alias_, rr.naming with
  | some t, _ => t.length + 1
  | none, some t => if named then 0 else t.length + 1
  | none, none => 0

def namesSize (named : Bool) : List Rr → Nat
  | [] => 0
  | rr :: rest => rr.size named + namesSize (named || rr.naming.isSome) rest

/-- **The records fit**: names of at most `HOSTLEN` characters, fewer addresses and aliases than there may be, and
names for which there is room. -/
structure RecordsFit (he : HostBuf) (rrs : List Rr) : Prop where
  short : ∀ rr ∈ rrs, ∀ t ∈ rr.naming.or rr.alias_, t.length ≤ HOSTLEN
  addrs : he.h_addr_list.length + (rrs.filterMap Rr.address).length < RES_MAXADDRS
  aliases : he.h_aliases.length + (rrs.filterMap Rr.alias_).length < RES_MAXALIASES
  names : he.start + namesSize he.h_name.isSome rrs ≤ MAXGETHOSTLEN + 1

/-- Something holds wherever a list is parted at an entry. -/
def Everywhere {α : Type} (P : List α → α → List α → Prop) (l : List α) : Prop :=
  ∀ before x after, l = before ++ x :: after → P before x after

section

variable {α : Type} {P : List α → α → List α → Prop} {a : α} {l : List α}

theorem everywhere_nil : Everywhere P [] := fun _ _ _ parts =>
  absurd (List.append_eq_nil_iff.mp parts.symm).2 (List.cons_ne_nil _ _)

theorem everywhere_cons :
    Everywhere P (a :: l) ↔ P [] a l ∧ Everywhere (fun before => P (a :: before)) l := by
  constructor
  · intro all
    exact ⟨all [] a l rfl, fun before x after parts => all (a :: before) x after (congrArg (a :: ·) parts)⟩
  · rintro ⟨first, more⟩ (_ | ⟨b, before⟩) x after parts
    · obtain ⟨rfl, rfl⟩ := List.cons.inj parts
      exact first
    · obtain ⟨rfl, rest⟩ := List.cons.inj parts
      exact more before x after rest

end

/-- **The records are skipped as they should be**: only the last one may have data of another type. -/
def Skipped : List Rr → Prop :=
  Everywhere fun _ rr after => rr.isAnswer = false → rr.rd_length = 0 ∨ after = []

/-- **There is room**: a character is left before every answer. -/
def RoomLeft (named : Bool) (start : Nat) : List Rr → Prop :=
  Everywhere fun before rr _ => rr.isAnswer = true → start + namesSize named before < MAXGETHOSTLEN

/-- **A straight reply**: the records are skipped as they should be, there is room, and if the name of the host is
behind the last alias then there is no alias among the records, or the first one is that name. -/
structure Straight (he : HostBuf) (rrs : List Rr) : Prop where
  skipped : Skipped rrs
  room : RoomLeft he.h_name.isSome he.start rrs
  apart : he.h_name = some he.start → ∀ t ∈ rrs.findSome? Rr.alias_, t = he.string he.start

/-! ### What is made of the records -/

/-- What a buffer says, whether the name of the host is where the next name will be, where that is, and how many
answers there were. -/
structure Sketch where
  view : HostView
  at_risk : Bool
  name : Nat
  answer_count : Nat

namespace Sketch

def add (s : Sketch) (rr : Rr) : Sketch where
  view := {
    name := if s.at_risk && rr.alias_.isSome then rr.alias_ else s.view.name.or rr.naming
    aliases := s.view.aliases ++ rr.alias_.toList
    addrs := s.view.addrs ++ rr.address.toList }
  at_risk := s.at_risk && rr.alias_.isNone
  name := s.name + rr.size s.view.name.isSome
  answer_count := s.answer_count + if rr.isAnswer then 1 else 0

/-- The records are filled in, as long as there is room. -/
def run : List Rr → Sketch → Sketch
  | [], s => s
  | rr :: rest, s => if s.name < MAXGETHOSTLEN then run rest (s.add rr) else s

end Sketch

theorem roomLeft_cons {named : Bool} {start : Nat} {rr : Rr} {rest : List Rr} :
    RoomLeft named start (rr :: rest) ↔ (rr.isAnswer = true → start < MAXGETHOSTLEN) ∧
      RoomLeft (named || rr.naming.isSome) (start + rr.size named) rest := by
  refine everywhere_cons.trans (and_congr_right fun _ => ?_)
  refine forall₃_congr fun before x after => ?_
  simp only [namesSize, Nat.add_assoc]

theorem nothing_of_countP {rrs : List Rr} (none_ : rrs.countP Rr.isAnswer = 0) :
    ∀ rr ∈ rrs, rr.isAnswer = false ∧ rr.naming = none ∧ rr.alias_ = none ∧ rr.address = none := by
  intro rr member
  have other : ¬ rr.isAnswer = true := List.countP_eq_zero.mp none_ rr member
  unfold Rr.isAnswer at other
  unfold Rr.isAnswer Rr.naming Rr.alias_ Rr.address
  cases data : rr.data with
  | other type => exact ⟨rfl, rfl, rfl, rfl⟩
  | A addr => exact absurd (by rw [data]) other
  | PTR target => exact absurd (by rw [data]) other
  | CNAME => exact absurd (by rw [data]) other

theorem decoded_nil (v : HostView) : decoded v [] = v := by
  unfold decoded
  rw [List.findSome?_nil, List.filterMap_nil, List.filterMap_nil, Option.or_none, List.append_nil, List.append_nil]

theorem decoded_cons (v : HostView) (rr : Rr) (rest : List Rr) : decoded v (rr :: rest) =
    decoded ⟨v.name.or rr.naming, v.aliases ++ rr.alias_.toList, v.addrs ++ rr.address.toList⟩ rest := by
  unfold decoded
  rw [List.findSome?_cons, Option.or_assoc]
  congr 1
  · cases rr.naming <;> rfl
  · rw [List.append_assoc]
    cases alias_ : rr.alias_ with
    | none => rw [List.filterMap_cons_none alias_]; rfl
    | some t => rw [List.filterMap_cons_some alias_]; rfl
  · rw [List.append_assoc]
    cases address : rr.address with
    | none => rw [List.filterMap_cons_none address]; rfl
    | some t => rw [List.filterMap_cons_some address]; rfl

namespace Sketch

variable {s : Sketch} {rr : Rr} {rrs : List Rr}

theorem add_of_nothing (nothing : rr.isAnswer = false ∧ rr.naming = none ∧ rr.alias_ = none ∧ rr.address = none) :
    s.add rr = s := by
  obtain ⟨other, naming, alias_, address⟩ := nothing
  unfold add Rr.size
  simp [other, naming, alias_, address]

/-- **A name that is not at risk stays.** -/
theorem name_run {t : Text} (known : s.view.name = some t) (safe : s.at_risk = false) :
    (run rrs s).view.name = some t := by
  induction rrs generalizing s with
  | nil => exact known
  | cons rr rest ih =>
    unfold run
    split
    · refine ih ?_ ?_
      · show (if s.at_risk && rr.alias_.isSome then rr.alias_ else s.view.name.or rr.naming) = some t
        rw [safe, known]
        rfl
      · show (s.at_risk && rr.alias_.isNone) = false
        rw [safe]
        rfl
    · exact known

/-- **The records of a sketch are decoded exactly if there is room and the name of the host stays.** -/
theorem run_iff (sound : s.at_risk = true → s.view.name.isSome = true) :
    ((run rrs s).view = decoded s.view rrs ∧
      (run rrs s).answer_count = s.answer_count + rrs.countP Rr.isAnswer) ↔
    RoomLeft s.view.name.isSome s.name rrs ∧
      (s.at_risk = true → ∀ t ∈ rrs.findSome? Rr.alias_, s.view.name = some t) := by
  induction rrs generalizing s with
  | nil =>
    refine iff_of_true ⟨(decoded_nil _).symm, rfl⟩ ⟨everywhere_nil, fun _ t none_ => ?_⟩
    exact absurd none_ (by simp)
  | cons rr rest ih =>
    have counted : (rr :: rest).countP Rr.isAnswer = rest.countP Rr.isAnswer + if rr.isAnswer then 1 else 0 :=
      List.countP_cons
    by_cases open_ : s.name < MAXGETHOSTLEN
    · rw [run, if_pos open_, roomLeft_cons]
      by_cases lost : s.at_risk = true ∧ rr.alias_.isSome = true ∧ s.view.name ≠ rr.alias_
      · -- the alias is written where the name is
        obtain ⟨risk, some_, differs⟩ := lost
        obtain ⟨t, alias_⟩ := Option.isSome_iff_exists.mp some_
        obtain ⟨u, known⟩ := Option.isSome_iff_exists.mp (sound risk)
        have named : (run rest (s.add rr)).view.name = some t := by
          refine name_run ?_ ?_
          · show (if s.at_risk && rr.alias_.isSome then rr.alias_ else _) = some t
            rw [risk, some_]
            exact alias_
          · show (s.at_risk && rr.alias_.isNone) = false
            rw [alias_, risk]
            rfl
        refine iff_of_false (fun both => ?_) (fun both => ?_)
        · have name := congrArg HostView.name both.1
          rw [named, decoded, known] at name
          rw [known, alias_] at differs
          exact differs name.symm
        · refine differs ((both.2 risk t ?_).trans alias_.symm)
          rw [List.findSome?_cons, alias_]
          rfl
      · have view : (s.add rr).view =
            ⟨s.view.name.or rr.naming, s.view.aliases ++ rr.alias_.toList, s.view.addrs ++ rr.address.toList⟩ := by
          unfold add
          split
          · rename_i both
            rw [Bool.and_eq_true] at both
            obtain ⟨t, alias_⟩ := Option.isSome_iff_exists.mp both.2
            have same : s.view.name = rr.alias_ := by
              by_contra differs
              exact lost ⟨both.1, both.2, differs⟩
            rw [same, alias_]
            rfl
          · rfl
        have still : (s.add rr).at_risk = true → (s.add rr).view.name = s.view.name := by
          intro risk
          replace risk : (s.at_risk && rr.alias_.isNone) = true := risk
          rw [Bool.and_eq_true] at risk
          obtain ⟨t, known⟩ := Option.isSome_iff_exists.mp (sound risk.1)
          rw [view, known]
          rfl
        have next := @ih (s.add rr) fun risk => by
          rw [still risk]
          replace risk : (s.at_risk && rr.alias_.isNone) = true := risk
          exact sound (Bool.and_eq_true _ _ ▸ risk).1
        rw [decoded_cons, ← view]
        refine Iff.trans (and_congr_right fun _ => ?_) (next.trans (and_congr ?_ ?_))
        · show _ ↔ _ = s.answer_count + (if rr.isAnswer then 1 else 0) + _
          rw [counted]
          omega
        · rw [and_iff_right fun _ => open_, view]
          show RoomLeft (s.view.name.or rr.naming).isSome (s.name + rr.size s.view.name.isSome) rest ↔ _
          rw [Option.isSome_or]
        · show ((s.at_risk && rr.alias_.isNone) = true → _) ↔ _
          cases alias_ : rr.alias_ with
          | none =>
            rw [List.findSome?_cons, alias_, Option.isNone_none, Bool.and_true]
            refine forall_congr' fun risk => ?_
            rw [still (by show (s.at_risk && rr.alias_.isNone) = true; rw [risk, alias_]; rfl)]
          | some t =>
            rw [List.findSome?_cons, alias_]
            refine iff_of_true (fun risk => ?_) fun risk u same => ?_
            · rw [Option.isNone_some, Bool.and_false] at risk
              exact absurd risk Bool.false_ne_true
            · obtain rfl := Option.some.inj same
              by_contra differs
              exact lost ⟨risk, by rw [alias_]; rfl, by rw [alias_]; exact differs⟩
    · rw [run, if_neg open_]
      by_cases none_ : (rr :: rest).countP Rr.isAnswer = 0
      · have nothing := nothing_of_countP none_
        refine iff_of_true ⟨?_, by rw [none_, Nat.add_zero]⟩ ⟨?_, fun _ t named => ?_⟩
        · unfold decoded
          rw [List.findSome?_eq_none_iff.mpr fun x member => (nothing x member).2.1,
            List.filterMap_eq_nil_iff.mpr fun x member => (nothing x member).2.2.1,
            List.filterMap_eq_nil_iff.mpr fun x member => (nothing x member).2.2.2,
            Option.or_none, List.append_nil, List.append_nil]
        · intro before x after parts answer
          have member : x ∈ rr :: rest := parts ▸ List.mem_append_right _ List.mem_cons_self
          exact absurd answer (Bool.eq_false_iff.mp (nothing x member).1)
        · rw [List.findSome?_eq_none_iff.mpr fun x member => (nothing x member).2.2.1] at named
          exact absurd named (by simp)
      · refine iff_of_false (fun both => none_ (by omega)) fun both => ?_
        obtain ⟨x, member, answer⟩ := List.countP_pos_iff.mp (Nat.pos_of_ne_zero none_)
        obtain ⟨before, after, parts⟩ := List.append_of_mem member
        have room := both.1 before x after parts answer
        omega

end Sketch

/-- What `proc_answer` has come to. -/
def Filling.sketch (st : Filling) : Sketch where
  view := st.he.view
  at_risk := decide (st.he.h_name = some st.name)
  name := st.name
  answer_count := st.answer_count

/-! ### The place of the name -/

namespace HostBuf

variable {he : HostBuf} {i : Nat}

theorem start_of_alias (last : he.h_aliases.getLast? = some i) : he.start = he.behind i := by
  unfold start
  rw [last]

theorem start_of_name (no_alias : he.h_aliases.getLast? = none) (known : he.h_name = some i) :
    he.start = he.behind i := by
  unfold start
  rw [no_alias, known]

end HostBuf

/-- **Where the name of the host is**: before the place of the next name or there, and there only if it was written
behind the last alias, where the next reply begins, too. -/
structure Filling.Placed (st : Filling) : Prop where
  name : ∀ i ∈ st.he.h_name, st.he.behind i ≤ st.name ∨ i = st.name
  start : st.name = st.he.start ∨ st.he.h_name = some st.he.start ∧ st.name = st.he.behind st.he.start

namespace Filling

variable {st : Filling} {t : Text}

/-- What is written from `name` on leaves the strings of the aliases as they are. -/
theorem Good.string_put (good : st.Good) (text : Text) {i : Nat} (member : i ∈ st.he.h_aliases) :
    (st.he.put st.name text).string i = st.he.string i := HostBuf.string_put (good.before i member)

theorem Good.aliases_put (good : st.Good) (text : Text) :
    st.he.h_aliases.map (st.he.put st.name text).string = st.he.h_aliases.map st.he.string :=
  List.map_congr_left fun _ member => good.string_put text member

theorem Good.string_name (good : st.Good) (string : NUL ∉ t) (fits : st.name + t.length ≤ MAXGETHOSTLEN) :
    (st.he.put st.name (t ++ [NUL])).string st.name = t :=
  HostBuf.string_put_self string good.laid.ends (by omega) (.inl ⟨rfl, fits⟩)

theorem Good.string_alias (good : st.Good) (string : NUL ∉ t) (fits : st.name + t.length ≤ MAXGETHOSTLEN) :
    (st.he.put st.name ((t ++ [NUL]).take (MAXGETHOSTLEN - st.name))).string st.name = t := by
  refine HostBuf.string_put_self string good.laid.ends (by omega) ?_
  by_cases room : st.name + t.length < MAXGETHOSTLEN
  · rw [List.take_of_length_le (by rw [List.length_append, List.length_singleton]; omega)]
    exact .inl ⟨rfl, fits⟩
  · rw [List.take_append_of_le_length (by omega), List.take_of_length_le (by omega)]
    exact .inr ⟨rfl, by omega⟩

theorem Placed.addAddress (placed : st.Placed) (query_class data : Nat) (addr : InAddr) :
    (st.addAddress query_class data addr).Placed := ⟨placed.name, placed.start⟩

/-- **The name of the host** is behind the last alias when it is written. -/
theorem Placed.nameHost (placed : st.Placed) (good : st.Good) : (st.nameHost t).Placed := by
  unfold Filling.nameHost
  cases known : st.he.h_name with
  | some i => exact placed
  | none =>
    have start : st.name = st.he.start := by
      refine placed.start.resolve_right fun other => ?_
      rw [known] at other
      exact nomatch other.1
    refine ⟨fun i new => ?_, ?_⟩
    · obtain rfl : st.name = i := Option.some.inj new
      exact .inl le_rfl
    · dsimp only
      let he : HostBuf := { st.he.put st.name (t ++ [NUL]) with h_name := some st.name }
      cases last : st.he.h_aliases.getLast? with
      | none => exact .inl (@HostBuf.start_of_name he st.name last rfl).symm
      | some i =>
        right
        have same : he.start = st.name := by
          have behind : he.behind i = st.he.behind i :=
            good.behind_put (t ++ [NUL]) (List.mem_of_getLast? last)
          rw [@HostBuf.start_of_alias he i last, behind, start, HostBuf.start_of_alias last]
        show some st.name = some he.start ∧ _ = _
        exact ⟨same ▸ rfl, show he.behind st.name = he.behind he.start by rw [same]⟩

/-- **An alias** leaves the name of the host behind, or is written there. -/
theorem Placed.addAlias (placed : st.Placed) : (st.addAlias t).Placed := by
  have advance : ∀ text, st.name ≤ (st.he.put st.name text).behind st.name := fun text => by
    unfold HostBuf.behind
    omega
  refine ⟨fun i old => .inl ?_, .inl ?_⟩
  · rcases placed.name i old with before | rfl
    · exact ((HostBuf.behind_put before).trans_le before).trans (advance _)
    · exact le_rfl
  · exact (HostBuf.start_of_alias List.getLast?_concat).symm

theorem Placed.fill (placed : st.Placed) (good : st.Good) (a : Answer) : (st.fill a).Placed := by
  cases a with
  | A owner query_class data addr =>
    unfold Filling.fill
    dsimp only
    split
    · rename_i more
      have named : (({ st with addr_count := st.addr_count + 1 }.addAddress query_class data addr).nameHost
          owner).Placed :=
        Placed.nameHost ⟨placed.name, placed.start⟩ (good.addAddress query_class data addr more)
      exact ⟨named.name, named.start⟩
    · exact ⟨placed.name, placed.start⟩
  | PTR target => exact ⟨(placed.nameHost good).name, (placed.nameHost good).start⟩
  | CNAME owner =>
    unfold Filling.fill
    dsimp only
    split
    · have added : ({ st with alias_count := st.alias_count + 1 }.addAlias owner).Placed :=
        Placed.addAlias ⟨placed.name, placed.start⟩
      exact ⟨added.name, added.start⟩
    · exact ⟨placed.name, placed.start⟩
  | other => exact placed

/-! ### The records that are filled in -/

/-- **The host is named** unless it has a name. -/
theorem Good.sketch_nameHost (good : st.Good) (string : NUL ∉ t)
    (fits : st.he.h_name.isSome = false → st.name + t.length ≤ MAXGETHOSTLEN) : (st.nameHost t).sketch =
      ⟨{ st.he.view with name := st.he.view.name.or (some t) }, st.sketch.at_risk,
        st.name + if st.he.h_name.isSome then 0 else t.length + 1, st.answer_count⟩ := by
  unfold Filling.nameHost sketch HostBuf.view
  cases known : st.he.h_name with
  | some i =>
    dsimp only
    rw [known]
    rfl
  | none =>
    have written := good.string_name string (fits (by rw [known]; rfl))
    have behind : (st.he.put st.name (t ++ [NUL])).behind st.name = st.name + (t.length + 1) := by
      unfold HostBuf.behind
      rw [written, Nat.add_assoc]
    have aliases := good.aliases_put (t ++ [NUL])
    have apart : ¬ (some st.name = some ((st.he.put st.name (t ++ [NUL])).behind st.name)) := by
      rw [behind, Option.some.injEq]
      omega
    show (⟨⟨some ((st.he.put st.name (t ++ [NUL])).string st.name),
        st.he.h_aliases.map (st.he.put st.name (t ++ [NUL])).string, st.he.h_addr_list⟩,
        decide (some st.name = some ((st.he.put st.name (t ++ [NUL])).behind st.name)),
        (st.he.put st.name (t ++ [NUL])).behind st.name, st.answer_count⟩ : Sketch) =
      ⟨⟨some t, st.he.h_aliases.map st.he.string, st.he.h_addr_list⟩, false, st.name + (t.length + 1),
        st.answer_count⟩
    rw [written, aliases, decide_eq_false apart, behind]

/-- **An alias is added**, over the name of the host if that is there. -/
theorem Good.sketch_addAlias (good : st.Good) (placed : st.Placed) (string : NUL ∉ t)
    (fits : st.name + t.length ≤ MAXGETHOSTLEN) (alias_count : Nat) :
    ({ st with alias_count := alias_count }.addAlias t).sketch =
      ⟨⟨if st.sketch.at_risk then some t else st.he.view.name, st.he.view.aliases ++ [t], st.he.view.addrs⟩, false,
        st.name + (t.length + 1), st.answer_count⟩ := by
  have written := good.string_alias string fits
  have behind : (st.he.put st.name ((t ++ [NUL]).take (MAXGETHOSTLEN - st.name))).behind st.name =
      st.name + (t.length + 1) := by
    unfold HostBuf.behind
    rw [written, Nat.add_assoc]
  have name : st.he.h_name.map (st.he.put st.name ((t ++ [NUL]).take (MAXGETHOSTLEN - st.name))).string =
      if st.sketch.at_risk then some t else st.he.view.name := by
    unfold sketch HostBuf.view
    cases known : st.he.h_name with
    | none => rfl
    | some i =>
      rcases placed.name i known with before | rfl
      · have other : ¬ some i = some st.name := by
          rw [Option.some.injEq]
          unfold HostBuf.behind at before
          omega
        dsimp only
        rw [decide_eq_false other]
        exact congrArg some (HostBuf.string_put before)
      · dsimp only
        rw [decide_eq_true rfl, Option.map_some, written]
        rfl
  have safe : ¬ st.he.h_name = some (st.name + (t.length + 1)) := by
    intro known
    rcases placed.name _ known with before | same
    · unfold HostBuf.behind at before
      omega
    · omega
  have aliases := good.aliases_put ((t ++ [NUL]).take (MAXGETHOSTLEN - st.name))
  show (⟨⟨st.he.h_name.map (st.he.put st.name _).string,
      (st.he.h_aliases ++ [st.name]).map (st.he.put st.name _).string, st.he.h_addr_list⟩,
      decide (st.he.h_name = some ((st.he.put st.name _).behind st.name)), (st.he.put st.name _).behind st.name,
      st.answer_count⟩ : Sketch) = _
  rw [name, List.map_append, aliases, List.map_singleton, written, behind, decide_eq_false safe]
  rfl

end Filling

/-- What is made of a record when it was read. -/
def Rr.answer (rr : Rr) (data : Nat) : Answer :=
  match rr.data with
  | .A addr => .A rr.owner.1 rr.query_class data addr
  | .PTR target => .PTR target.1
  | .CNAME => .CNAME rr.owner.1
  | .other _ => .other

/-- **A record is filled in as it is sketched.** -/
theorem Filling.Good.sketch_fill {st : Filling} {rr : Rr} (good : st.Good) (placed : st.Placed) (data : Nat)
    (addrs : st.he.h_addr_list.length + rr.address.toList.length < RES_MAXADDRS)
    (aliases : st.he.h_aliases.length + rr.alias_.toList.length < RES_MAXALIASES)
    (names : st.name + rr.size st.he.h_name.isSome ≤ MAXGETHOSTLEN + 1) :
    (st.fill (rr.answer data)).sketch = st.sketch.add rr := by
  have named : st.sketch.view.name.isSome = st.he.h_name.isSome := Option.isSome_map ..
  have alias_count := good.aliases
  have addr_count := good.addrs
  have bounds : RES_MAXADDRS = 35 ∧ RES_MAXALIASES = 35 := by decide
  -- one more answer is counted
  have counted : ∀ {st' : Filling} {s : Sketch}, st'.sketch = s →
      Filling.sketch { st' with answer_count := st'.answer_count + 1 } = ⟨s.view, s.at_risk, s.name,
        s.answer_count + 1⟩ := by
    rintro st' _ rfl
    rfl
  obtain ⟨owner, query_class, rd_length, rdata⟩ := rr
  cases rdata with
  | A addr =>
    have more : st.addr_count + 1 < RES_MAXADDRS := by
      have count : st.he.h_addr_list.length + 1 < RES_MAXADDRS := addrs
      omega
    have room : st.he.h_name.isSome = false → st.name + owner.1.length ≤ MAXGETHOSTLEN := fun unnamed => by
      have size : st.name + (if st.he.h_name.isSome then 0 else owner.1.length + 1) ≤ MAXGETHOSTLEN + 1 := names
      rw [unnamed] at size
      exact Nat.le_of_succ_le_succ size
    have filled := counted ((good.addAddress query_class data addr more).sketch_nameHost owner.2 room)
    show Filling.sketch (Filling.fill st (.A owner.1 query_class data addr)) = _
    unfold Filling.fill
    dsimp only
    rw [if_pos more]
    refine filled.trans ?_
    unfold Sketch.add
    rw [named]
    show (⟨⟨_, _, _⟩, _, _, _⟩ : Sketch) = ⟨⟨if st.sketch.at_risk && false then _ else _, _ ++ [], _⟩,
      st.sketch.at_risk && true, _, _⟩
    rw [Bool.and_false, Bool.and_true, List.append_nil]
    rfl
  | PTR target =>
    have room : st.he.h_name.isSome = false → st.name + target.1.length ≤ MAXGETHOSTLEN := fun unnamed => by
      have size : st.name + (if st.he.h_name.isSome then 0 else target.1.length + 1) ≤ MAXGETHOSTLEN + 1 := names
      rw [unnamed] at size
      exact Nat.le_of_succ_le_succ size
    have filled := good.sketch_nameHost target.2 room
    have same : (st.nameHost target.1).answer_count = st.answer_count := congrArg Sketch.answer_count filled
    show Filling.sketch { st.nameHost target.1 with answer_count := st.answer_count + 1 } = _
    refine (congrArg (fun count => Filling.sketch { st.nameHost target.1 with answer_count := count + 1 })
      same.symm).trans ((counted filled).trans ?_)
    unfold Sketch.add
    rw [named]
    show (⟨⟨_, _, _⟩, _, _, _⟩ : Sketch) = ⟨⟨if st.sketch.at_risk && false then _ else _, _ ++ [], _ ++ []⟩,
      st.sketch.at_risk && true, _, _⟩
    rw [Bool.and_false, Bool.and_true, List.append_nil, List.append_nil]
    rfl
  | CNAME =>
    have more : st.alias_count + 1 < RES_MAXALIASES := by
      have count : st.he.h_aliases.length + 1 < RES_MAXALIASES := aliases
      omega
    have room : st.name + owner.1.length ≤ MAXGETHOSTLEN := Nat.le_of_succ_le_succ names
    have filled := counted (good.sketch_addAlias placed owner.2 room (st.alias_count + 1))
    show Filling.sketch (Filling.fill st (.CNAME owner.1)) = _
    unfold Filling.fill
    dsimp only
    rw [if_pos more]
    refine filled.trans ?_
    unfold Sketch.add
    rw [named]
    show (⟨⟨if st.sketch.at_risk then some owner.1 else _, _, _⟩, _, _, _⟩ : Sketch) =
      ⟨⟨if st.sketch.at_risk && true then some owner.1 else st.he.view.name.or none, _, _ ++ []⟩,
        st.sketch.at_risk && false, _, _⟩
    rw [Bool.and_false, Bool.and_true, List.append_nil, Option.or_none]
    rfl
  | other type =>
    exact (Sketch.add_of_nothing ⟨rfl, rfl, rfl, rfl⟩).symm

/-! ### The loop -/

section

variable {lib : Resolv} {p : DnsPacket} {rr : Rr} {rest : List Rr} {current n : Nat}

theorem hostbuf_eq {name : CString} (short : name.1.length ≤ HOSTLEN) : hostbuf name = name.1 :=
  List.take_of_length_le short

/-- **A record that lies in the reply is read**; what is read next is behind its data only if it is an answer. -/
theorem Rr.Lies.read (lies : rr.Lies lib p current n)
    (short : ∀ t ∈ rr.naming.or rr.alias_, t.length ≤ HOSTLEN)
    (more : current + n + ANSWER_FIXED_SIZE < p.eob) : (readAnswer lib p current).outcome =
      .answer (rr.answer (current + n + ANSWER_FIXED_SIZE))
        (current + n + ANSWER_FIXED_SIZE + if rr.isAnswer then rr.rd_length else 0) := by
  have positive := lies.some_
  have first : ¬ ((n : Int) < 0) ∧ ¬ ((n : Int) = 0) := by omega
  unfold readAnswer
  dsimp only
  rw [lies.owner, if_neg first.1, if_neg first.2, Int.toNat_natCast, if_pos more]
  dsimp only
  unfold readRecord
  rw [lies.type, lies.query_class, lies.rd_length]
  have data := lies.data
  obtain ⟨owner, query_class, rd_length, rdata⟩ := rr
  cases rdata with
  | A addr =>
    obtain ⟨size, address⟩ := data
    show (if T_A = T_A then if rd_length = sizeof_IN_ADDR then _ else _ else _) = _
    rw [if_pos rfl, if_pos size, hostbuf_eq (short owner.1 rfl), address]
    rfl
  | PTR target =>
    obtain ⟨some_, expanded⟩ := data
    have second : ¬ ((rd_length : Int) < 0) ∧ ¬ ((rd_length : Int) = 0) := by
      have positive : 0 < rd_length := some_
      omega
    show (if T_PTR = T_A then _ else if T_PTR = T_PTR then _ else _) = _
    dsimp only
    rw [if_neg (by decide), if_pos rfl, expanded]
    dsimp only
    rw [if_neg second.1, if_neg second.2, hostbuf_eq (short target.1 rfl), Int.toNat_natCast]
    rfl
  | CNAME =>
    show (if T_CNAME = T_A then _ else if T_CNAME = T_PTR then _ else if T_CNAME = T_CNAME then _ else _) = _
    rw [if_neg (by decide), if_neg (by decide), if_pos rfl, hostbuf_eq (short owner.1 rfl)]
    rfl
  | other type =>
    obtain ⟨not_A, not_PTR, not_CNAME⟩ := data
    show (if type = T_A then _ else if type = T_PTR then _ else if type = T_CNAME then _ else _) = _
    rw [if_neg not_A, if_neg not_PTR, if_neg not_CNAME]
    rfl

/-- **A record that reaches to the end** of the reply without data is of another type. -/
theorem Rr.Lies.other_of_end (lies : rr.Lies lib p current n)
    (end_ : ¬ current + n + ANSWER_FIXED_SIZE < p.eob) : rr.rd_length = 0 ∧ rr.isAnswer = false := by
  have inside := lies.inside
  have data := lies.data
  have nothing : rr.rd_length = 0 := by omega
  refine ⟨nothing, ?_⟩
  obtain ⟨owner, query_class, rd_length, rdata⟩ := rr
  cases rdata with
  | A addr =>
    have size : rd_length = sizeof_IN_ADDR := data.1
    exact absurd (size.symm.trans nothing) (by decide)
  | PTR target => exact absurd nothing (Nat.pos_iff_ne_zero.mp data.1)
  | CNAME => exact absurd nothing (Nat.pos_iff_ne_zero.mp data)
  | other type => rfl

theorem Rr.Lies.lt (lies : rr.Lies lib p current n) : current < p.eob := by
  have positive := lies.some_
  have inside := lies.inside
  omega

theorem RecordsFrom.nil_of_end (records : RecordsFrom lib p current rest) (end_ : p.eob ≤ current) :
    rest = [] := by
  cases records with
  | nil => rfl
  | cons lies more => exact absurd lies.lt (Nat.not_lt.mpr end_)

end

/-- **There is room ahead** for records, and the name of the host is there if it is at risk. -/
structure Sketch.Ahead (s : Sketch) (rrs : List Rr) : Prop where
  short : ∀ rr ∈ rrs, ∀ t ∈ rr.naming.or rr.alias_, t.length ≤ HOSTLEN
  addrs : s.view.addrs.length + (rrs.filterMap Rr.address).length < RES_MAXADDRS
  aliases : s.view.aliases.length + (rrs.filterMap Rr.alias_).length < RES_MAXALIASES
  names : s.name + namesSize s.view.name.isSome rrs ≤ MAXGETHOSTLEN + 1
  sound : s.at_risk = true → s.view.name.isSome = true

theorem length_filterMap_cons {α β : Type} (f : α → Option β) (a : α) (l : List α) :
    ((a :: l).filterMap f).length = (f a).toList.length + (l.filterMap f).length := by
  cases value : f a with
  | none => rw [List.filterMap_cons_none value, Option.toList_none, List.length_nil, Nat.zero_add]
  | some b => rw [List.filterMap_cons_some value, Option.toList_some, List.length_cons, List.length_singleton,
      Nat.add_comm]

theorem Sketch.Ahead.add {s : Sketch} {rr : Rr} {rest : List Rr} (ahead : s.Ahead (rr :: rest)) :
    (s.add rr).Ahead rest := by
  have name : (s.add rr).view.name.isSome = (s.view.name.isSome || rr.naming.isSome) := by
    show (if s.at_risk && rr.alias_.isSome then rr.alias_ else s.view.name.or rr.naming).isSome = _
    split
    · rename_i both
      rw [Bool.and_eq_true] at both
      rw [both.2, ahead.sound both.1, Bool.true_or]
    · rw [Option.isSome_or]
  refine ⟨fun rr member => ahead.short rr (List.mem_cons_of_mem _ member), ?_, ?_, ?_, fun risk => ?_⟩
  · have room := ahead.addrs
    rw [length_filterMap_cons, ← Nat.add_assoc] at room
    show (s.view.addrs ++ rr.address.toList).length + _ < _
    rw [List.length_append]
    exact room
  · have room := ahead.aliases
    rw [length_filterMap_cons, ← Nat.add_assoc] at room
    show (s.view.aliases ++ rr.alias_.toList).length + _ < _
    rw [List.length_append]
    exact room
  · have room := ahead.names
    rw [namesSize, ← Nat.add_assoc] at room
    rw [name]
    exact room
  · rw [name, ahead.sound (Bool.and_eq_true _ _ ▸ (show (s.at_risk && rr.alias_.isNone) = true from risk)).1,
      Bool.true_or]

section

variable {lib : Resolv} {p : DnsPacket} {st : Filling} {rrs : List Rr} {current : Nat}

theorem Filling.Placed.note (placed : st.Placed) (r : ReadAnswer) : (st.note r).Placed :=
  ⟨placed.name, placed.start⟩

theorem Rr.Lies.takes {rr : Rr} {n : Nat} (lies : rr.Lies lib p current n)
    (names : st.name + rr.size st.he.h_name.isSome ≤ MAXGETHOSTLEN + 1) :
    st.room.Takes p.eob (rr.answer (current + n + ANSWER_FIXED_SIZE)) := by
  have inside := lies.inside
  have data := lies.data
  obtain ⟨owner, query_class, rd_length, rdata⟩ := rr
  -- a name that is taken has the size that is counted for it
  have room : ∀ t : Text, st.name + (if st.he.h_name.isSome then 0 else t.length + 1) ≤ MAXGETHOSTLEN + 1 →
      st.room.named = false → st.room.name + t.length ≤ MAXGETHOSTLEN := by
    intro t size unnamed
    rw [show st.he.h_name.isSome = false from unnamed] at size
    exact Nat.le_of_succ_le_succ size
  cases rdata with
  | A addr =>
    have size : rd_length = sizeof_IN_ADDR := data.1
    exact fun _ => ⟨size ▸ inside, room owner.1 names⟩
  | PTR target => exact room target.1 names
  | CNAME => trivial
  | other type => trivial

/-- **The loop does what is sketched** of records that are skipped as they should be. -/
theorem answerLoop_sketch (good : st.Good) (placed : st.Placed) (records : RecordsFrom lib p current rrs)
    (skipped : Skipped rrs) (ahead : st.sketch.Ahead rrs) :
    (answerLoop lib p rrs.length current st).2.he.view = (st.sketch.run rrs).view ∧
      (answerLoop lib p rrs.length current st).1 = (st.sketch.run rrs).answer_count := by
  induction rrs generalizing current st with
  | nil => exact ⟨rfl, rfl⟩
  | cons rr rest ih =>
    obtain ⟨n, lies, more⟩ : ∃ n, rr.Lies lib p current n ∧
        RecordsFrom lib p (current + n + ANSWER_FIXED_SIZE + rr.rd_length) rest := by
      cases records with
      | cons lies more => exact ⟨_, lies, more⟩
    obtain ⟨skip, skipped⟩ := everywhere_cons.mp skipped
    rw [List.length_cons]
    unfold answerLoop Sketch.run
    by_cases open_ : st.name < MAXGETHOSTLEN
    · rw [if_pos ⟨lies.lt, open_⟩, if_pos (show st.sketch.name < MAXGETHOSTLEN from open_)]
      by_cases inside : current + n + ANSWER_FIXED_SIZE < p.eob
      · have read := lies.read (ahead.short rr List.mem_cons_self) inside
        dsimp only
        rw [read]
        dsimp only
        have noted := good.note (readAnswer lib p current)
        have counts : st.he.h_addr_list.length + rr.address.toList.length < RES_MAXADDRS ∧
            st.he.h_aliases.length + rr.alias_.toList.length < RES_MAXALIASES ∧
            st.name + rr.size st.he.h_name.isSome ≤ MAXGETHOSTLEN + 1 := by
          have addrs := ahead.addrs
          have aliases := ahead.aliases
          have names := ahead.names
          have length : st.sketch.view.aliases.length = st.he.h_aliases.length := List.length_map ..
          have named : st.sketch.view.name.isSome = st.he.h_name.isSome := Option.isSome_map ..
          rw [length_filterMap_cons] at addrs aliases
          rw [namesSize, named] at names
          rw [length] at aliases
          refine ⟨?_, by omega, ?_⟩
          · show st.sketch.view.addrs.length + _ < _
            omega
          · show st.sketch.name + _ ≤ _
            omega
        have sketched : Filling.sketch ((st.note (readAnswer lib p current)).fill
            (rr.answer (current + n + ANSWER_FIXED_SIZE))) = st.sketch.add rr :=
          noted.sketch_fill (placed.note _) _ counts.1 counts.2.1 counts.2.2
        have filled := noted.fill (strings_of_readAnswer read) open_ (lies.takes counts.2.2)
        have kept := (placed.note (readAnswer lib p current)).fill noted
          (rr.answer (current + n + ANSWER_FIXED_SIZE))
        rw [← sketched]
        refine ih filled.1 kept ?_ skipped (by rw [sketched]; exact ahead.add)
        -- the next record is read behind the data, unless there is none
        cases answer : rr.isAnswer with
        | true => exact more
        | false =>
          rcases skip answer with nothing | rfl
          · rw [nothing] at more
            exact more
          · exact .nil _
      · obtain ⟨nothing, other⟩ := lies.other_of_end inside
        have last : rest = [] := more.nil_of_end (by omega)
        have same : st.sketch.add rr = st.sketch := by
          refine Sketch.add_of_nothing (@nothing_of_countP [rr] ?_ rr List.mem_cons_self)
          rw [List.countP_singleton, other]
          rfl
        have ended : (readAnswer lib p current).outcome = .ended := by
          have positive := lies.some_
          unfold readAnswer
          dsimp only
          rw [lies.owner, if_neg (by omega), if_neg (by omega), Int.toNat_natCast, if_neg inside]
        dsimp only
        rw [ended, last, same]
        exact ⟨rfl, rfl⟩
    · rw [if_neg fun both => open_ both.2, if_neg (show ¬ st.sketch.name < MAXGETHOSTLEN from open_)]
      exact ⟨rfl, rfl⟩

/-- **The place of the name is kept by a reply** whose records find room. -/
theorem Filling.Placed.answerLoop (placed : st.Placed) (good : st.Good) {ancount : Nat}
    (roomy : Roomy p.eob (answersFrom lib p ancount current) st.room) :
    (answerLoop lib p ancount current st).2.Placed := by
  induction ancount generalizing current st with
  | zero => exact placed
  | succ ancount ih =>
    unfold PtlinkIrcd.answerLoop
    unfold answersFrom at roomy
    split
    · rename_i both
      rw [if_pos both.1] at roomy
      dsimp only
      cases read : (readAnswer lib p current).outcome with
      | broken => exact placed.note _
      | ended => exact placed.note _
      | answer a next =>
        rw [read] at roomy
        have fill := (good.note (readAnswer lib p current)).fill (strings_of_readAnswer read) both.2
          (roomy both.2).1
        have kept := (placed.note (readAnswer lib p current)).fill (good.note (readAnswer lib p current)) a
        exact ih kept fill.1 (fill.2 ▸ (roomy both.2).2)
    · exact placed

theorem Filling.Placed.begin (placed : st.Placed) (ttl : Nat) : (Filling.begin st.he ttl).Placed := by
  refine ⟨fun i known => ?_, .inl rfl⟩
  show st.he.behind i ≤ st.he.start ∨ i = st.he.start
  rcases placed.start with same | ⟨name, -⟩
  · rw [← same]
    exact placed.name i known
  · replace known : st.he.h_name = some i := known
    rw [name] at known
    exact .inr (Option.some.inj known).symm

theorem skipQueries_eq {first qdcount : Nat} (queries : QueriesFrom lib p first qdcount current) :
    skipQueries lib p qdcount current = first := by
  induction queries with
  | nil => rfl
  | @cons qdcount current n skip more ih =>
    unfold skipQueries
    dsimp only
    rw [skip, if_neg (by omega), Int.toNat_natCast]
    exact ih

end

section

variable {lib : Resolv} {he : Option HostBuf}

theorem HostRun.placed (run : HostRun lib he) (garbage : Nat → Char) (ttl : Nat) :
    (Filling.begin (he.getD (.alloc garbage)) ttl).Placed := by
  induction run generalizing garbage ttl with
  | start => exact ⟨nofun, .inl rfl⟩
  | reply run p other ttl' fits ih =>
    exact ((ih other ttl').answerLoop ((run.laid other).begin ttl') fits).begin ttl

/-- **In every run of replies that fit, exactly the answers of a straight reply are decoded, and of no other reply
whose records are skipped as they should be.** -/
theorem proc_answer_decodes_iff (run : HostRun lib he) {p : DnsPacket} {rrs : List Rr}
    (formed : WellFormedReply lib p rrs) (garbage : Nat → Char) (ttl : Nat)
    (fit : RecordsFit (he.getD (.alloc garbage)) rrs) :
    (Straight (he.getD (.alloc garbage)) rrs →
      Decodes (he.getD (.alloc garbage)).view rrs (proc_answer lib p garbage he ttl)) ∧
    (Skipped rrs → Decodes (he.getD (.alloc garbage)).view rrs (proc_answer lib p garbage he ttl) →
      Straight (he.getD (.alloc garbage)) rrs) := by
  obtain ⟨first, queries, records⟩ := formed.records
  have good := (run.laid garbage).begin ttl
  have placed := run.placed garbage ttl
  generalize buffer : he.getD (.alloc garbage) = before at *
  have named : before.view.name.isSome = before.h_name.isSome := Option.isSome_map ..
  have sound : (Filling.begin before ttl).sketch.at_risk = true → before.view.name.isSome = true := by
    intro risk
    have there : before.h_name = some before.start := of_decide_eq_true risk
    rw [named, there]
    rfl
  have ahead : (Filling.begin before ttl).sketch.Ahead rrs := by
    refine ⟨fit.short, fit.addrs, ?_, ?_, sound⟩
    · show (before.h_aliases.map before.string).length + _ < _
      rw [List.length_map]
      exact fit.aliases
    · show before.start + namesSize before.view.name.isSome rrs ≤ _
      rw [named]
      exact fit.names
  have exactly : Skipped rrs → (Decodes before.view rrs (proc_answer lib p garbage he ttl) ↔
      RoomLeft before.h_name.isSome before.start rrs ∧
        (before.h_name = some before.start → ∀ t ∈ rrs.findSome? Rr.alias_, t = before.string before.start)) := by
    intro skipped
    have loop := answerLoop_sketch good placed records skipped ahead
    have settled := @Sketch.run_iff (Filling.begin before ttl).sketch rrs sound
    unfold Decodes proc_answer
    rw [formed.count, skipQueries_eq queries, buffer, loop.1, loop.2]
    rw [show (Filling.begin before ttl).sketch.answer_count = 0 from rfl, Nat.zero_add] at settled
    refine settled.trans (and_congr ?_ ?_)
    · show RoomLeft before.view.name.isSome before.start rrs ↔ _
      rw [named]
    · refine Iff.trans (imp_congr_left decide_eq_true_iff) (forall_congr' fun there => ?_)
      refine forall₂_congr fun t _ => ?_
      show before.h_name.map before.string = some t ↔ _
      rw [show before.h_name = some before.start from there, Option.map_some, Option.some.injEq]
      exact eq_comm
  constructor
  · exact fun straight => (exactly straight.skipped).mpr ⟨straight.room, straight.apart⟩
  · intro skipped decodes
    have both := (exactly skipped).mp decodes
    exact ⟨skipped, both.1, both.2⟩

end

/-- The host a, its address, and a record of another type. -/
def sampleRr : Rr := ⟨⟨['a'], by decide⟩, C_IN, 4, .A 0x0100007f#32⟩
def sampleTxt : Rr := ⟨⟨['a'], by decide⟩, C_IN, 1, .other 16⟩

/-- A text with one character, and an address behind it. -/
def sampleText : DnsPacket :=
  samplePacket 2 [1, 97, 0, 0, 16, 0, 1, 0, 0, 0, 60, 0, 1, 65,
    1, 97, 0, 0, 1, 0, 1, 0, 0, 0, 60, 0, 4, 127, 0, 0, 1] (by decide)

def sampleCname : Rr := ⟨⟨['a'], by decide⟩, C_IN, 3, .CNAME⟩
def sampleHost : Rr := ⟨⟨['b'], by decide⟩, C_IN, 4, .A 0x0100007f#32⟩
def sampleAlias : DnsPacket :=
  samplePacket 2 [1, 97, 0, 0, 5, 0, 1, 0, 0, 0, 60, 0, 3, 1, 98, 0,
    1, 98, 0, 0, 1, 0, 1, 0, 0, 0, 60, 0, 4, 127, 0, 0, 1] (by decide)

theorem sampleAlias_formed : WellFormedReply sampleResolv sampleAlias [sampleCname, sampleHost] where
  count := rfl
  records := ⟨12, .nil, .cons (n := 3) ⟨by decide, by decide +kernel, by decide, by decide, by decide,
      (by decide : 0 < 3), by decide⟩
    (.cons (n := 3) ⟨by decide, by decide +kernel, by decide, by decide, by decide, ⟨rfl, by decide⟩, by decide⟩
      (.nil _))⟩

/-- An alias and an address. -/
theorem proc_answer_decodes_iff_alias :
    (Straight (.alloc fun _ => NUL) [sampleCname, sampleHost] →
      Decodes (HostBuf.alloc fun _ => NUL).view [sampleCname, sampleHost]
        (proc_answer sampleResolv sampleAlias (fun _ => NUL) none 0)) ∧
    (Skipped [sampleCname, sampleHost] → Decodes (HostBuf.alloc fun _ => NUL).view [sampleCname, sampleHost]
      (proc_answer sampleResolv sampleAlias (fun _ => NUL) none 0) →
        Straight (.alloc fun _ => NUL) [sampleCname, sampleHost]) :=
  proc_answer_decodes_iff .start sampleAlias_formed (fun _ => NUL) 0
    ⟨by decide, by decide, by decide, by decide⟩

/-- **A text before an address**: the address is not found. -/
theorem not_proc_answer_decodes : ¬ ∀ (lib : Resolv) (p : DnsPacket) (garbage : Nat → Char) (ttl : Nat)
    (rrs : List Rr), WellFormedReply lib p rrs → RecordsFit (.alloc garbage) rrs →
      Decodes (HostBuf.alloc garbage).view rrs (proc_answer lib p garbage none ttl) := by
  intro all
  have formed : WellFormedReply sampleResolv sampleText [sampleTxt, sampleRr] := {
    count := rfl
    records := ⟨12, .nil, .cons (n := 3) ⟨by decide, by decide +kernel, by decide, by decide, by decide,
        ⟨by decide, by decide, by decide⟩, by decide⟩
      (.cons (n := 3) ⟨by decide, by decide +kernel, by decide, by decide, by decide, ⟨rfl, by decide⟩, by decide⟩
        (.nil _))⟩ }
  have decodes := all sampleResolv sampleText (fun _ => NUL) 0 _ formed
    ⟨by decide, by decide, by decide, by decide⟩
  exact absurd decodes.2 (by decide +kernel)

end PtlinkIrcd
