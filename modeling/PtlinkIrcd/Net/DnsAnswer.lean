/-
**Answers of name servers.**

`proc_answer` of `res.c` decodes the records of a reply into one buffer, which holds the pointers to aliases
and addresses, the addresses, and the names behind each other.

* `HostBuf` — the buffer and its pointers; `DnsPacket`, `Resolv` — a reply, and the library that expands names.
* `readAnswer` — one record; `Filling.fill` — what is made of it; `proc_answer` — the function, with
  everything that it reads of the records and writes to the buffer.
* `Laid` — what is left of earlier replies.
* `Roomy` — the records whose names and addresses there is room for.
* `proc_answer_iff` — **in every run of replies that fit, a reply is decoded within the buffer and the packet
  exactly if it fits, too**.
-/

import PtlinkIrcd.Conf.IpCounts
import PtlinkIrcd.Model.State

namespace PtlinkIrcd

def MAXPACKET : Nat := 1024
def RES_MAXALIASES : Nat := 35
def RES_MAXADDRS : Nat := 35

/-- `sizeof(char*)` and `sizeof(struct IN_ADDR)`. -/
def sizeof_pointer : Nat := 8
def sizeof_IN_ADDR : Nat := 4

def ALIAS_BLEN : Nat := (RES_MAXALIASES + 1) * sizeof_pointer
def ADDRS_BLEN : Nat := (RES_MAXADDRS + 1) * sizeof_pointer
def ADDRS_OFFSET : Nat := ALIAS_BLEN + ADDRS_BLEN
def ADDRS_DLEN : Nat := RES_MAXADDRS * sizeof_IN_ADDR
def NAMES_OFFSET : Nat := ADDRS_OFFSET + ADDRS_DLEN
def MAXGETHOSTLEN : Nat := NAMES_OFFSET + MAXPACKET

def sizeof_HEADER : Nat := 12
def QFIXEDSZ : Nat := 4
def TYPE_SIZE : Nat := 2
def CLASS_SIZE : Nat := 2
def TTL_SIZE : Nat := 4
def RDLENGTH_SIZE : Nat := 2
def ANSWER_FIXED_SIZE : Nat := TYPE_SIZE + CLASS_SIZE + TTL_SIZE + RDLENGTH_SIZE

def T_A : Nat := 1
def T_CNAME : Nat := 5
def T_PTR : Nat := 12
def C_IN : Nat := 1
def AF_UNSPEC : Nat := 0
def AF_INET : Nat := 2

/-! ### The reply -/

/-- What `get_res` has read: `eob` bytes, and what is behind them in the memory. -/
structure DnsPacket where
  byte : Nat → UInt8
  eob : Nat
  qdcount : Nat
  ancount : Nat
  small : eob ≤ sizeof_HEADER + MAXPACKET

/-- `dn_expand` and `dn_skipname` of the library, at a place of a reply. -/
structure Resolv where
  dn_expand : DnsPacket → Nat → Int × CString
  dn_skipname : DnsPacket → Nat → Int

/-- Some bytes in a row. -/
structure Span where
  start : Nat
  length : Nat
deriving DecidableEq

def Span.Before (s : Span) (bound : Nat) : Prop := s.start + s.length ≤ bound

instance (s : Span) (bound : Nat) : Decidable (s.Before bound) := inferInstanceAs (Decidable (_ ≤ _))

namespace DnsPacket

variable (p : DnsPacket)

def at_ (i : Nat) : Nat := (p.byte i).toNat

/-- `_getshort` and `_getlong`. -/
def getshort (i : Nat) : Nat := p.at_ i * 256 + p.at_ (i + 1)
def getlong (i : Nat) : Nat := p.getshort i * 65536 + p.getshort (i + 2)

def address (i : Nat) : InAddr :=
  BitVec.ofNat 32 (p.at_ i + 256 * p.at_ (i + 1) + 65536 * p.at_ (i + 2) + 16777216 * p.at_ (i + 3))

end DnsPacket

/-- A record that was read; `data` is where an address is. -/
inductive Answer
  | A (owner : Text) (query_class data : Nat) (addr : InAddr)
  | PTR (target : Text)
  | CNAME (owner : Text)
  | other
deriving DecidableEq

/-- What comes of reading a record: no more records, with an error or not, or the record and the place behind
it. -/
inductive Reading
  | broken
  | ended
  | answer (a : Answer) (current : Nat)

/-- The reading of a record, with the bytes and the time to live that were read. -/
structure ReadAnswer where
  reads : List Span
  ttl : Option Nat
  outcome : Reading

def hostbuf (name : CString) : Text := name.1.take HOSTLEN

section

variable (lib : Resolv) (p : DnsPacket)

/-- What is made of a record, from its type on; the place behind one of another type is that of its data. -/
def readRecord (owner : CString) (current : Nat) : Reading :=
  let type := p.getshort current
  let query_class := p.getshort (current + TYPE_SIZE)
  let rd_length := p.getshort (current + TYPE_SIZE + CLASS_SIZE + TTL_SIZE)
  let data := current + ANSWER_FIXED_SIZE
  if type = T_A then
    if rd_length = sizeof_IN_ADDR then
      .answer (.A (hostbuf owner) query_class data (p.address data)) (data + rd_length)
    else .ended
  else if type = T_PTR then
    let n := lib.dn_expand p data
    if n.1 < 0 then .broken
    else if n.1 = 0 then .ended
    else .answer (.PTR (hostbuf n.2)) (data + n.1.toNat)
  else if type = T_CNAME then .answer (.CNAME (hostbuf owner)) (data + rd_length)
  else .answer .other data

def readAnswer (current : Nat) : ReadAnswer :=
  let n := lib.dn_expand p current
  if n.1 < 0 then ⟨[], none, .broken⟩
  else if n.1 = 0 then ⟨[], none, .ended⟩
  else
    let current := current + n.1.toNat
    if current + ANSWER_FIXED_SIZE < p.eob then
      ⟨[⟨current, ANSWER_FIXED_SIZE⟩], some (p.getlong (current + TYPE_SIZE + CLASS_SIZE)),
        readRecord lib p n.2 current⟩
    else ⟨[], none, .ended⟩

def skipQueries : Nat → Nat → Nat
  | 0, current => current
  | qdcount + 1, current =>
    let n := lib.dn_skipname p current
    if n < 0 then current else skipQueries qdcount (current + n.toNat + QFIXEDSZ)

/-- The records, as they are read one after the other. -/
def answersFrom : Nat → Nat → List Answer
  | 0, _ => []
  | ancount + 1, current =>
    if current < p.eob then
      match (readAnswer lib p current).outcome with
      | .answer a current => a :: answersFrom ancount current
      | _ => []
    else []

def answersOf : List Answer := answersFrom lib p p.ancount (skipQueries lib p p.qdcount sizeof_HEADER)

end

/-! ### The buffer -/

/-- `he` of a request: the characters of its buffer by their place, the places of the names, and the
addresses. -/
structure HostBuf where
  mem : Nat → Char
  h_name : Option Nat
  h_aliases : List Nat
  h_addr_list : List InAddr
  h_addrtype : Nat

namespace HostBuf

/-- A buffer as it is allocated; `garbage` is what it holds then. -/
def alloc (garbage : Nat → Char) : HostBuf :=
  ⟨Function.update garbage MAXGETHOSTLEN NUL, none, [], [], AF_INET⟩

/-- The string at a place, with so many characters before the end of the memory. -/
def stringFrom (mem : Nat → Char) : Nat → Nat → Text
  | 0, _ => []
  | room + 1, i => if mem i = NUL then [] else mem i :: stringFrom mem room (i + 1)

variable (he : HostBuf)

def string (i : Nat) : Text := stringFrom he.mem (MAXGETHOSTLEN + 1 - i) i

def behind (i : Nat) : Nat := i + (he.string i).length + 1

def put (i : Nat) (t : Text) : HostBuf :=
  { he with mem := fun j => if i ≤ j then (t[j - i]?).getD (he.mem j) else he.mem j }

/-- `name`: the first place behind the last alias, or else behind the name. -/
def start : Nat :=
  match he.h_aliases.getLast? with
  | some i => he.behind i
  | none =>
    match he.h_name with
    | some i => he.behind i
    | none => NAMES_OFFSET

end HostBuf

/-- `proc_answer` at its work: the buffer with the counters and `name`, and what was written to the buffer and
read of the reply. -/
structure Filling where
  he : HostBuf
  name : Nat
  alias_count : Nat
  addr_count : Nat
  answer_count : Nat
  ttl : Nat
  writes : List Span
  reads : List Span

namespace Filling

variable (st : Filling)

/-- A pointer and the end of the list behind it. -/
def pointers (base count : Nat) : List Span :=
  [⟨base + sizeof_pointer * count, sizeof_pointer⟩, ⟨base + sizeof_pointer * (count + 1), sizeof_pointer⟩]

/-- The name of the host, unless it is known. -/
def nameHost (t : Text) : Filling :=
  match st.he.h_name with
  | some _ => st
  | none =>
    let he := { st.he.put st.name (t ++ [NUL]) with h_name := some st.name }
    { st with he, name := he.behind st.name, writes := st.writes ++ [⟨st.name, t.length + 1⟩] }

/-- An address of the host, at `data` in the reply. -/
def addAddress (query_class data : Nat) (addr : InAddr) : Filling :=
  let count := st.he.h_addr_list.length
  { st with
    he := { st.he with
      h_addr_list := st.he.h_addr_list ++ [addr]
      h_addrtype :=
        if st.answer_count = 1 then (if query_class = C_IN then AF_INET else AF_UNSPEC) else st.he.h_addrtype }
    reads := st.reads ++ [⟨data, sizeof_IN_ADDR⟩]
    writes := st.writes ++ ⟨ADDRS_OFFSET + sizeof_IN_ADDR * count, sizeof_IN_ADDR⟩ :: pointers ALIAS_BLEN count }

def addAlias (t : Text) : Filling :=
  let text := (t ++ [NUL]).take (MAXGETHOSTLEN - st.name)
  let he := { st.he.put st.name text with h_aliases := st.he.h_aliases ++ [st.name] }
  { st with
    he, name := he.behind st.name
    writes := st.writes ++ ⟨st.name, text.length⟩ :: pointers 0 st.he.h_aliases.length }

def fill : Answer → Filling
  | .A owner query_class data addr =>
    let st := { st with addr_count := st.addr_count + 1 }
    let st := if st.addr_count < RES_MAXADDRS then (st.addAddress query_class data addr).nameHost owner else st
    { st with answer_count := st.answer_count + 1 }
  | .PTR target => { st.nameHost target with answer_count := st.answer_count + 1 }
  | .CNAME owner =>
    let st := { st with alias_count := st.alias_count + 1 }
    let st := if st.alias_count < RES_MAXALIASES then st.addAlias owner else st
    { st with answer_count := st.answer_count + 1 }
  | .other => st

/-- The bytes of a record that were read, and its time to live. -/
def note (r : ReadAnswer) : Filling :=
  { st with reads := st.reads ++ r.reads, ttl := r.ttl.getD st.ttl }

end Filling

section

variable (lib : Resolv) (p : DnsPacket)

/-- The loop over the records: what it returns, and how it ends. -/
def answerLoop : Nat → Nat → Filling → Nat × Filling
  | 0, _, st => (st.answer_count, st)
  | ancount + 1, current, st =>
    if current < p.eob ∧ st.name < MAXGETHOSTLEN then
      let r := readAnswer lib p current
      let st := st.note r
      match r.outcome with
      | .broken => (0, st)
      | .ended => (st.answer_count, st)
      | .answer a current => answerLoop ancount current (st.fill a)
    else (st.answer_count, st)

/-- `proc_answer` before the loop, for a buffer. -/
def Filling.begin (he : HostBuf) (ttl : Nat) : Filling :=
  ⟨he, he.start, he.h_aliases.length, he.h_addr_list.length, 0, ttl, [], []⟩

/-- `proc_answer`, for the buffer of a request, which may have none. -/
def proc_answer (garbage : Nat → Char) (he : Option HostBuf) (ttl : Nat) : Nat × Filling :=
  answerLoop lib p p.ancount (skipQueries lib p p.qdcount sizeof_HEADER)
    (.begin (he.getD (.alloc garbage)) ttl)

end

/-! ### Strings in the buffer -/

namespace HostBuf

/-- **The state that earlier replies leave**: the buffer ends in a terminator, the names lie in it, and the
aliases behind each other. -/
structure Laid (he : HostBuf) : Prop where
  ends : he.mem MAXGETHOSTLEN = NUL
  aliases : he.h_aliases.length < RES_MAXALIASES
  addrs : he.h_addr_list.length < RES_MAXADDRS
  name : ∀ i ∈ he.h_name, NAMES_OFFSET ≤ i ∧ i ≤ MAXGETHOSTLEN
  placed : ∀ i ∈ he.h_aliases, NAMES_OFFSET ≤ i ∧ i ≤ MAXGETHOSTLEN
  apart : he.h_aliases.Pairwise fun i j => he.behind i ≤ j

section

variable {mem other : Nat → Char} {i room : Nat} {t : Text}

theorem stringFrom_eq (string : NUL ∉ t) (inside : t.length < room)
    (chars : ∀ k (h : k < t.length), mem (i + k) = t.get ⟨k, h⟩) (ends : mem (i + t.length) = NUL) :
    stringFrom mem room i = t := by
  induction t generalizing i room with
  | nil =>
    cases room with
    | zero => rfl
    | succ room => exact if_pos ends
  | cons c t ih =>
    cases room with
    | zero => exact absurd inside (Nat.not_lt_zero _)
    | succ room =>
      rw [List.mem_cons, not_or] at string
      have first : mem i = c := chars 0 (Nat.succ_pos _)
      rw [stringFrom, first, if_neg (Ne.symm string.1)]
      congr 1
      refine ih string.2 (Nat.lt_of_succ_lt_succ inside) (fun k h => ?_) ?_
      · have next := chars (k + 1) (Nat.succ_lt_succ h)
        rw [show i + 1 + k = i + (k + 1) by omega]
        exact next
      · rw [show i + 1 + t.length = i + (c :: t).length by rw [List.length_cons]; omega]
        exact ends

theorem length_stringFrom (ends : mem (i + room) = NUL) : (stringFrom mem (room + 1) i).length ≤ room := by
  induction room generalizing i with
  | zero =>
    rw [stringFrom, if_pos (show mem i = NUL from ends)]
    exact Nat.le_refl _
  | succ room ih =>
    rw [stringFrom]
    split
    · exact Nat.zero_le _
    · rw [List.length_cons]
      exact Nat.succ_le_succ (ih (by rw [← ends]; congr 1; omega))

/-- Where the characters of a string are the same, with its end, the string is. -/
theorem stringFrom_congr (same : ∀ k, i ≤ k → k ≤ i + (stringFrom mem room i).length → other k = mem k) :
    stringFrom other room i = stringFrom mem room i := by
  induction room generalizing i with
  | zero => rfl
  | succ room ih =>
    have first := same i (Nat.le_refl _) (Nat.le_add_right _ _)
    rw [stringFrom, stringFrom, first]
    rw [stringFrom] at same
    split
    · rfl
    · rename_i some_
      rw [if_neg some_, List.length_cons] at same
      congr 1
      exact ih fun k from_ upTo => same k (by omega) (by omega)

end

variable {he : HostBuf} {i j : Nat} {t : Text}

theorem behind_le (ends : he.mem MAXGETHOSTLEN = NUL) (inside : i ≤ MAXGETHOSTLEN) :
    he.behind i ≤ MAXGETHOSTLEN + 1 := by
  have short : (stringFrom he.mem (MAXGETHOSTLEN - i + 1) i).length ≤ MAXGETHOSTLEN - i :=
    length_stringFrom (by rw [Nat.add_sub_cancel' inside]; exact ends)
  unfold behind string
  rw [show MAXGETHOSTLEN + 1 - i = MAXGETHOSTLEN - i + 1 by omega]
  omega

/-- **What is written behind a string leaves it as it is.** -/
theorem string_put (before : he.behind j ≤ i) : (he.put i t).string j = he.string j := by
  unfold behind at before
  refine stringFrom_congr fun k from_ upTo => ?_
  have apart : ¬ i ≤ k := by
    have read : (he.string j).length = (stringFrom he.mem (MAXGETHOSTLEN + 1 - j) j).length := rfl
    omega
  exact if_neg apart

theorem behind_put (before : he.behind j ≤ i) : (he.put i t).behind j = he.behind j := by
  unfold behind
  rw [string_put before]

/-- **What is read of a string that was written**, as far as there was room. -/
theorem string_put_self (string : NUL ∉ t) (ends : he.mem MAXGETHOSTLEN = NUL) (inside : i ≤ MAXGETHOSTLEN)
    {text : Text} (written : text = t ++ [NUL] ∧ i + t.length ≤ MAXGETHOSTLEN ∨
      text = t ∧ i + t.length = MAXGETHOSTLEN) : (he.put i text).string i = t := by
  have room : i + t.length ≤ MAXGETHOSTLEN := by
    rcases written with ⟨-, fits⟩ | ⟨-, same⟩
    · exact fits
    · exact same.le
  have mem_put : ∀ k, (he.put i text).mem (i + k) = (text[k]?).getD (he.mem (i + k)) := by
    intro k
    unfold put
    dsimp only
    rw [if_pos (Nat.le_add_right _ _), Nat.add_sub_cancel_left]
  refine stringFrom_eq string (by omega) (fun k h => ?_) ?_
  · rw [mem_put]
    rcases written with ⟨rfl, -⟩ | ⟨rfl, -⟩
    · rw [List.getElem?_append_left h, List.getElem?_eq_getElem h]
      rfl
    · rw [List.getElem?_eq_getElem h]
      rfl
  · rw [mem_put]
    rcases written with ⟨rfl, -⟩ | ⟨rfl, same⟩
    · rw [List.getElem?_append_right (Nat.le_refl _), Nat.sub_self]
      rfl
    · rw [List.getElem?_eq_none (Nat.le_refl _), same]
      exact ends

theorem ends_put (ends : he.mem MAXGETHOSTLEN = NUL)
    (written : ∀ c, t[MAXGETHOSTLEN - i]? = some c → c = NUL) : (he.put i t).mem MAXGETHOSTLEN = NUL := by
  unfold put
  dsimp only
  split
  · cases there : t[MAXGETHOSTLEN - i]? with
    | none => exact ends
    | some c => exact written c there
  · exact ends

end HostBuf

/-! ### Room for the records -/

/-- How far the buffer is filled, and whether the host has a name. -/
structure NameRoom where
  name : Nat
  aliases : Nat
  addrs : Nat
  named : Bool
deriving DecidableEq

/-- **The record finds room**: an address that is kept lies in the reply, and a name that the host gets lies in
the buffer. -/
def NameRoom.Takes (r : NameRoom) (eob : Nat) : Answer → Prop
  | .A owner _ data _ => r.addrs + 1 < RES_MAXADDRS →
    data + sizeof_IN_ADDR ≤ eob ∧ (r.named = false → r.name + owner.length ≤ MAXGETHOSTLEN)
  | .PTR target => r.named = false → r.name + target.length ≤ MAXGETHOSTLEN
  | _ => True

def NameRoom.nameHost (r : NameRoom) (t : Text) : NameRoom :=
  { r with name := if r.named then r.name else r.name + t.length + 1, named := true }

def NameRoom.after (r : NameRoom) : Answer → NameRoom
  | .A owner _ _ _ =>
    let r := { r with addrs := r.addrs + 1 }
    if r.addrs < RES_MAXADDRS then r.nameHost owner else r
  | .PTR target => r.nameHost target
  | .CNAME owner =>
    let r := { r with aliases := r.aliases + 1 }
    if r.aliases < RES_MAXALIASES then { r with name := min (r.name + owner.length) MAXGETHOSTLEN + 1 } else r
  | .other => r

/-- **All records that are come to find room**: the buffer is full when `name` is at its end. -/
def Roomy (eob : Nat) : List Answer → NameRoom → Prop
  | [], _ => True
  | a :: rest, r => r.name < MAXGETHOSTLEN → r.Takes eob a ∧ Roomy eob rest (r.after a)

theorem roomy_cons {eob : Nat} {a : Answer} {rest : List Answer} {r : NameRoom} : Roomy eob (a :: rest) r ↔
    (r.name < MAXGETHOSTLEN → r.Takes eob a ∧ Roomy eob rest (r.after a)) := Iff.rfl

def Answer.Strings : Answer → Prop
  | .A owner _ _ _ => NUL ∉ owner
  | .PTR target => NUL ∉ target
  | .CNAME owner => NUL ∉ owner
  | .other => True

namespace Filling

def room (st : Filling) : NameRoom := ⟨st.name, st.alias_count, st.addr_count, st.he.h_name.isSome⟩

/-- **What holds before every record**: the aliases lie before `name`, and the lists have as many entries as
are counted, up to their ends. -/
structure Good (st : Filling) : Prop where
  laid : st.he.Laid
  from_ : NAMES_OFFSET ≤ st.name
  upTo : st.name ≤ MAXGETHOSTLEN + 1
  before : ∀ i ∈ st.he.h_aliases, st.he.behind i ≤ st.name
  aliases : st.he.h_aliases.length = min st.alias_count (RES_MAXALIASES - 1)
  addrs : st.he.h_addr_list.length = min st.addr_count (RES_MAXADDRS - 1)

/-- Nothing is written beyond the buffer, and nothing is read beyond the reply. -/
def Inside (st : Filling) (eob : Nat) : Prop :=
  (∀ w ∈ st.writes, w.Before (MAXGETHOSTLEN + 1)) ∧ ∀ r ∈ st.reads, r.Before eob

variable {st : Filling} {t : Text} {eob : Nat}

theorem Good.behind_put (good : st.Good) (text : Text) {i : Nat} (member : i ∈ st.he.h_aliases) :
    (st.he.put st.name text).behind i = st.he.behind i := HostBuf.behind_put (good.before i member)

/-- **A name is written behind the aliases**, in its room. -/
theorem Good.nameHost (good : st.Good) (string : NUL ∉ t)
    (fits : st.he.h_name.isSome = false → st.name + t.length ≤ MAXGETHOSTLEN) :
    (st.nameHost t).Good ∧ (st.nameHost t).room = st.room.nameHost t := by
  unfold Filling.nameHost room NameRoom.nameHost
  cases known : st.he.h_name with
  | some i => exact ⟨good, by simp [known]⟩
  | none =>
    have space := fits (by rw [known]; rfl)
    have text : (st.he.put st.name (t ++ [NUL])).string st.name = t :=
      HostBuf.string_put_self string good.laid.ends (by omega) (.inl ⟨rfl, space⟩)
    have behind : (st.he.put st.name (t ++ [NUL])).behind st.name = st.name + t.length + 1 := by
      unfold HostBuf.behind
      rw [text]
    have ends : (st.he.put st.name (t ++ [NUL])).mem MAXGETHOSTLEN = NUL := by
      refine HostBuf.ends_put good.laid.ends fun c there => ?_
      have place := (List.getElem?_eq_some_iff.mp there).1
      rw [List.length_append, List.length_singleton] at place
      rw [show MAXGETHOSTLEN - st.name = t.length by omega, List.getElem?_append_right (Nat.le_refl _),
        Nat.sub_self] at there
      exact (Option.some.inj there).symm
    have advance : st.name ≤ (st.he.put st.name (t ++ [NUL])).behind st.name := by
      rw [behind]
      omega
    refine ⟨⟨⟨ends, good.laid.aliases, good.laid.addrs, ?_, good.laid.placed, ?_⟩, ?_, ?_, ?_, good.aliases,
      good.addrs⟩, ?_⟩
    · rintro i ⟨⟩
      exact ⟨good.from_, by omega⟩
    · refine good.laid.apart.imp_of_mem fun first _ apart => ?_
      exact (good.behind_put (t ++ [NUL]) first).trans_le apart
    · exact good.from_.trans advance
    · exact behind.trans_le (by omega)
    · intro i member
      exact (good.behind_put (t ++ [NUL]) member).trans_le ((good.before i member).trans advance)
    · show (⟨(st.he.put st.name (t ++ [NUL])).behind st.name, st.alias_count, st.addr_count, true⟩ : NameRoom) =
        ⟨st.name + t.length + 1, st.alias_count, st.addr_count, true⟩
      rw [behind]

/-- **An alias is written behind the others**, as far as there is room. -/
theorem Good.addAlias (good : st.Good) (string : NUL ∉ t) (open_ : st.name < MAXGETHOSTLEN)
    (more : st.alias_count + 1 < RES_MAXALIASES) :
    ({ st with alias_count := st.alias_count + 1 }.addAlias t).Good ∧
      ({ st with alias_count := st.alias_count + 1 }.addAlias t).room =
        { st.room with aliases := st.alias_count + 1, name := min (st.name + t.length) MAXGETHOSTLEN + 1 } := by
  have count := good.aliases
  rw [Nat.min_eq_left (by omega)] at count
  have length : ((t ++ [NUL]).take (MAXGETHOSTLEN - st.name)).length ≤ MAXGETHOSTLEN - st.name :=
    List.length_take_le _ _
  have read : (st.he.put st.name ((t ++ [NUL]).take (MAXGETHOSTLEN - st.name))).string st.name =
      t.take (MAXGETHOSTLEN - st.name) := by
    refine HostBuf.string_put_self (fun inside => string (List.mem_of_mem_take inside)) good.laid.ends
      open_.le ?_
    by_cases fits : st.name + t.length < MAXGETHOSTLEN
    · left
      have short : (t ++ [NUL]).length ≤ MAXGETHOSTLEN - st.name := by
        rw [List.length_append, List.length_singleton]
        omega
      have shorter : t.length ≤ MAXGETHOSTLEN - st.name := by omega
      rw [List.take_of_length_le short, List.take_of_length_le shorter]
      exact ⟨rfl, fits.le⟩
    · right
      rw [List.take_append_of_le_length (by omega), List.length_take]
      exact ⟨rfl, by omega⟩
  have behind : (st.he.put st.name ((t ++ [NUL]).take (MAXGETHOSTLEN - st.name))).behind st.name =
      min (st.name + t.length) MAXGETHOSTLEN + 1 := by
    unfold HostBuf.behind
    rw [read, List.length_take]
    omega
  have ends : (st.he.put st.name ((t ++ [NUL]).take (MAXGETHOSTLEN - st.name))).mem MAXGETHOSTLEN = NUL :=
    HostBuf.ends_put good.laid.ends fun c there => by
      rw [List.getElem?_eq_none length] at there
      exact nomatch there
  have kept : ∀ i ∈ st.he.h_aliases,
      (st.he.put st.name ((t ++ [NUL]).take (MAXGETHOSTLEN - st.name))).behind i ≤ st.name := fun i member =>
    (good.behind_put _ member).trans_le (good.before i member)
  have advance : st.name ≤ (st.he.put st.name ((t ++ [NUL]).take (MAXGETHOSTLEN - st.name))).behind st.name := by
    rw [behind]
    omega
  refine ⟨⟨⟨ends, ?_, good.laid.addrs, good.laid.name, ?_, ?_⟩, ?_, ?_, ?_, ?_, good.addrs⟩, ?_⟩
  · show (st.he.h_aliases ++ [st.name]).length < _
    rw [List.length_append, List.length_singleton, count]
    exact more
  · intro i member
    rcases List.mem_append.mp member with old | new
    · exact good.laid.placed i old
    · rw [List.mem_singleton.mp new]
      exact ⟨good.from_, open_.le⟩
  · refine List.pairwise_append.mpr ⟨good.laid.apart.imp_of_mem fun first _ apart => ?_,
      List.pairwise_singleton _ _, fun i old j new => ?_⟩
    · exact (good.behind_put _ first).trans_le apart
    · rw [List.mem_singleton.mp new]
      exact kept i old
  · exact good.from_.trans advance
  · exact behind.trans_le (by omega)
  · intro i member
    rcases List.mem_append.mp member with old | new
    · exact (kept i old).trans advance
    · rw [List.mem_singleton.mp new]
      exact le_rfl
  · show (st.he.h_aliases ++ [st.name]).length = min (st.alias_count + 1) (RES_MAXALIASES - 1)
    rw [List.length_append, List.length_singleton, count, Nat.min_eq_left (by omega)]
  · show (⟨(st.he.put st.name ((t ++ [NUL]).take (MAXGETHOSTLEN - st.name))).behind st.name, st.alias_count + 1,
        st.addr_count, st.he.h_name.isSome⟩ : NameRoom) =
      ⟨min (st.name + t.length) MAXGETHOSTLEN + 1, st.alias_count + 1, st.addr_count, st.he.h_name.isSome⟩
    rw [behind]

/-- **An address goes to the next place.** -/
theorem Good.addAddress (good : st.Good) (query_class data : Nat) (addr : InAddr)
    (more : st.addr_count + 1 < RES_MAXADDRS) :
    ({ st with addr_count := st.addr_count + 1 }.addAddress query_class data addr).Good := by
  have count := good.addrs
  rw [Nat.min_eq_left (by omega)] at count
  exact {
    laid := ⟨good.laid.ends, good.laid.aliases, by
      show (st.he.h_addr_list ++ [addr]).length < _
      rw [List.length_append, List.length_singleton, count]
      exact more, good.laid.name, good.laid.placed, good.laid.apart⟩
    from_ := good.from_
    upTo := good.upTo
    before := good.before
    aliases := good.aliases
    addrs := by
      show (st.he.h_addr_list ++ [addr]).length = min (st.addr_count + 1) (RES_MAXADDRS - 1)
      rw [List.length_append, List.length_singleton, count, Nat.min_eq_left (by omega)] }

/-- **A record is filled in where it finds room.** -/
theorem Good.fill (good : st.Good) {a : Answer} (strings : a.Strings) (open_ : st.name < MAXGETHOSTLEN)
    (takes : st.room.Takes eob a) : (st.fill a).Good ∧ (st.fill a).room = st.room.after a := by
  cases a with
  | A owner query_class data addr =>
    unfold Filling.fill NameRoom.after
    dsimp only
    by_cases more : st.addr_count + 1 < RES_MAXADDRS
    · rw [if_pos more, if_pos (show st.room.addrs + 1 < RES_MAXADDRS from more)]
      have named := (good.addAddress query_class data addr more).nameHost strings (takes more).2
      exact ⟨⟨named.1.laid, named.1.from_, named.1.upTo, named.1.before, named.1.aliases, named.1.addrs⟩, named.2⟩
    · rw [if_neg more, if_neg (show ¬ st.room.addrs + 1 < RES_MAXADDRS from more)]
      refine ⟨⟨good.laid, good.from_, good.upTo, good.before, good.aliases, ?_⟩, rfl⟩
      show st.he.h_addr_list.length = min (st.addr_count + 1) (RES_MAXADDRS - 1)
      rw [good.addrs]
      omega
  | PTR target =>
    have named := good.nameHost strings takes
    exact ⟨⟨named.1.laid, named.1.from_, named.1.upTo, named.1.before, named.1.aliases, named.1.addrs⟩, named.2⟩
  | CNAME owner =>
    unfold Filling.fill NameRoom.after
    dsimp only
    by_cases more : st.alias_count + 1 < RES_MAXALIASES
    · rw [if_pos more, if_pos (show st.room.aliases + 1 < RES_MAXALIASES from more)]
      have added := good.addAlias strings open_ more
      exact ⟨⟨added.1.laid, added.1.from_, added.1.upTo, added.1.before, added.1.aliases, added.1.addrs⟩, added.2⟩
    · rw [if_neg more, if_neg (show ¬ st.room.aliases + 1 < RES_MAXALIASES from more)]
      refine ⟨⟨good.laid, good.from_, good.upTo, good.before, ?_, good.addrs⟩, rfl⟩
      show st.he.h_aliases.length = min (st.alias_count + 1) (RES_MAXALIASES - 1)
      rw [good.aliases]
      omega
  | other => exact ⟨good, rfl⟩

/-! ### What is written and read -/

theorem inside_iff {after : Filling} {writes reads : List Span} (written : after.writes = st.writes ++ writes)
    (read : after.reads = st.reads ++ reads) :
    after.Inside eob ↔ st.Inside eob ∧ (∀ w ∈ writes, w.Before (MAXGETHOSTLEN + 1)) ∧ ∀ r ∈ reads, r.Before eob := by
  unfold Inside
  rw [written, read, List.forall_mem_append, List.forall_mem_append]
  exact and_and_and_comm

theorem Inside.of_more {after : Filling} {writes reads : List Span} (inside : after.Inside eob)
    (written : after.writes = st.writes ++ writes) (read : after.reads = st.reads ++ reads) : st.Inside eob :=
  ((inside_iff written read).mp inside).1

/-- The pointers of a list that has room for another one lie in the buffer. -/
theorem pointers_before {base count : Nat} (start : base ≤ ALIAS_BLEN) (more : count + 1 < RES_MAXALIASES) :
    ∀ w ∈ pointers base count, w.Before (MAXGETHOSTLEN + 1) := by
  have bounds : ALIAS_BLEN = 288 ∧ RES_MAXALIASES = 35 ∧ MAXGETHOSTLEN = 1740 ∧ sizeof_pointer = 8 := by decide
  intro w member
  rcases List.mem_cons.mp member with rfl | member
  · show base + sizeof_pointer * count + sizeof_pointer ≤ _
    rw [bounds.2.2.2]
    omega
  · rw [List.mem_singleton.mp member]
    show base + sizeof_pointer * (count + 1) + sizeof_pointer ≤ _
    rw [bounds.2.2.2]
    omega

/-- **A name is written within the buffer exactly if it fits.** -/
theorem inside_nameHost (t : Text) : (st.nameHost t).Inside eob ↔
    st.Inside eob ∧ (st.he.h_name.isSome = false → st.name + t.length ≤ MAXGETHOSTLEN) := by
  unfold nameHost
  cases known : st.he.h_name with
  | some i => simp
  | none =>
    refine Iff.trans (@inside_iff st eob _ [⟨st.name, t.length + 1⟩] [] rfl (List.append_nil _).symm) ?_
    simp only [List.forall_mem_singleton, List.not_mem_nil, false_implies, implies_true, and_true, Span.Before,
      Option.isSome_none, true_implies]
    rw [← Nat.add_assoc, Nat.add_le_add_iff_right]

/-- **An address is written within the buffer**, and read within the reply exactly if it lies in it. -/
theorem Good.inside_addAddress (good : st.Good) (query_class data : Nat) (addr : InAddr)
    (more : st.addr_count + 1 < RES_MAXADDRS) :
    (st.addAddress query_class data addr).Inside eob ↔ st.Inside eob ∧ data + sizeof_IN_ADDR ≤ eob := by
  have count := good.addrs
  rw [Nat.min_eq_left (by omega)] at count
  have bounds : RES_MAXADDRS = 35 ∧ MAXGETHOSTLEN = 1740 ∧ sizeof_IN_ADDR = 4 ∧ ADDRS_OFFSET = 576 := by decide
  have place : ADDRS_OFFSET + sizeof_IN_ADDR * st.he.h_addr_list.length + sizeof_IN_ADDR ≤ MAXGETHOSTLEN + 1 := by
    rw [count, bounds.2.2.1, bounds.2.2.2]
    omega
  refine Iff.trans (@inside_iff st eob _ _ _ rfl rfl) (and_congr_right fun _ => ?_)
  rw [List.forall_mem_cons, List.forall_mem_singleton]
  rw [and_iff_right ⟨place, pointers_before le_rfl (by rw [count]; exact more)⟩]
  exact Iff.rfl

/-- **A record is filled in within the buffer and the reply exactly if it finds room.** -/
theorem Good.inside_fill (good : st.Good) (a : Answer) (open_ : st.name < MAXGETHOSTLEN) :
    (st.fill a).Inside eob ↔ st.Inside eob ∧ st.room.Takes eob a := by
  cases a with
  | A owner query_class data addr =>
    show (Filling.fill st _).Inside eob ↔ _ ∧ (st.addr_count + 1 < RES_MAXADDRS → _)
    unfold Filling.fill
    dsimp only
    by_cases more : st.addr_count + 1 < RES_MAXADDRS
    · rw [if_pos more]
      have counted : ({ st with addr_count := st.addr_count + 1 }.addAddress query_class data addr).Inside eob ↔
          st.Inside eob ∧ data + sizeof_IN_ADDR ≤ eob := good.inside_addAddress query_class data addr more
      refine (inside_nameHost owner).trans ?_
      rw [counted, and_assoc]
      exact and_congr_right fun _ => ⟨fun fits _ => fits, fun fits => fits more⟩
    · rw [if_neg more]
      exact (and_iff_left fun more' => absurd more' more).symm
  | PTR target => exact inside_nameHost target
  | CNAME owner =>
    show (Filling.fill st _).Inside eob ↔ _ ∧ True
    rw [and_true]
    unfold Filling.fill
    dsimp only
    by_cases more : st.alias_count + 1 < RES_MAXALIASES
    · rw [if_pos more]
      have count := good.aliases
      rw [Nat.min_eq_left (by omega)] at count
      have length : ((owner ++ [NUL]).take (MAXGETHOSTLEN - st.name)).length ≤ MAXGETHOSTLEN - st.name :=
        List.length_take_le _ _
      refine Iff.trans (@inside_iff st eob _ _ [] rfl (List.append_nil _).symm) (and_iff_left ⟨?_, nofun⟩)
      have fits : st.name + ((owner ++ [NUL]).take (MAXGETHOSTLEN - st.name)).length ≤ MAXGETHOSTLEN + 1 := by
        omega
      rw [List.forall_mem_cons]
      exact ⟨fits, pointers_before (Nat.zero_le _) (by rw [count]; exact more)⟩
    · rw [if_neg more]
      exact Iff.rfl
  | other => exact (and_iff_left trivial).symm

end Filling

/-! ### The loop -/

section

variable {lib : Resolv} {p : DnsPacket} {st : Filling} {he : HostBuf}

theorem strings_of_readAnswer {current next : Nat} {a : Answer}
    (read : (readAnswer lib p current).outcome = .answer a next) : a.Strings := by
  have cut : ∀ name : CString, NUL ∉ hostbuf name := fun name inside => name.2 (List.mem_of_mem_take inside)
  have record : ∀ owner place, readRecord lib p owner place = .answer a next → a.Strings := by
    intro owner place read
    unfold readRecord at read
    dsimp only at read
    split_ifs at read
    · rw [← (Reading.answer.inj read).1]
      exact cut owner
    · rw [← (Reading.answer.inj read).1]
      exact cut _
    · rw [← (Reading.answer.inj read).1]
      exact cut owner
    · rw [← (Reading.answer.inj read).1]
      trivial
  unfold readAnswer at read
  dsimp only at read
  split_ifs at read
  exact record _ _ read

theorem reads_of_readAnswer (current : Nat) : ∀ r ∈ (readAnswer lib p current).reads, r.Before p.eob := by
  unfold readAnswer
  dsimp only
  split_ifs with _ _ fits
  · exact fun r member => absurd member List.not_mem_nil
  · exact fun r member => absurd member List.not_mem_nil
  · intro r member
    rw [List.mem_singleton.mp member]
    exact fits.le
  · exact fun r member => absurd member List.not_mem_nil

theorem Filling.Good.note (good : st.Good) (r : ReadAnswer) : (st.note r).Good :=
  ⟨good.laid, good.from_, good.upTo, good.before, good.aliases, good.addrs⟩

theorem inside_note (current : Nat) :
    (st.note (readAnswer lib p current)).Inside p.eob ↔ st.Inside p.eob :=
  Iff.trans (@Filling.inside_iff st p.eob _ [] _ (List.append_nil _).symm rfl)
    (and_iff_left ⟨nofun, reads_of_readAnswer current⟩)

theorem Filling.Inside.of_fill {a : Answer} {eob : Nat} (inside : (st.fill a).Inside eob) : st.Inside eob := by
  have named : ∀ {st : Filling} {t : Text}, (st.nameHost t).Inside eob → st.Inside eob := fun inside =>
    (Filling.inside_nameHost _).mp inside |>.1
  cases a with
  | A owner query_class data addr =>
    unfold Filling.fill at inside
    dsimp only at inside
    split_ifs at inside
    · exact Filling.Inside.of_more (named inside) rfl rfl
    · exact inside
  | PTR target => exact named inside
  | CNAME owner =>
    unfold Filling.fill at inside
    dsimp only at inside
    split_ifs at inside
    · exact Filling.Inside.of_more inside rfl (List.append_nil _).symm
    · exact inside
  | other => exact inside

theorem inside_of_answerLoop {ancount current : Nat}
    (inside : (answerLoop lib p ancount current st).2.Inside p.eob) : st.Inside p.eob := by
  induction ancount generalizing current st with
  | zero => exact inside
  | succ ancount ih =>
    unfold answerLoop at inside
    split at inside
    · dsimp only at inside
      split at inside
      · exact (inside_note current).mp inside
      · exact (inside_note current).mp inside
      · exact (inside_note current).mp (ih inside).of_fill
    · exact inside

/-- **The loop stays within the buffer and the reply exactly if the records find room.** -/
theorem answerLoop_inside_iff (good : st.Good) (ancount current : Nat) :
    (answerLoop lib p ancount current st).2.Inside p.eob ↔
      st.Inside p.eob ∧ Roomy p.eob (answersFrom lib p ancount current) st.room := by
  induction ancount generalizing current st with
  | zero => exact (and_iff_left trivial).symm
  | succ ancount ih =>
    unfold answerLoop answersFrom
    by_cases more : current < p.eob
    · by_cases open_ : st.name < MAXGETHOSTLEN
      · rw [if_pos ⟨more, open_⟩, if_pos more]
        dsimp only
        cases read : (readAnswer lib p current).outcome with
        | broken => exact (inside_note current).trans (and_iff_left trivial).symm
        | ended => exact (inside_note current).trans (and_iff_left trivial).symm
        | answer a next =>
          dsimp only
          have strings := strings_of_readAnswer read
          have filled : ((st.note (readAnswer lib p current)).fill a).Inside p.eob ↔ _ :=
            (good.note (readAnswer lib p current)).inside_fill a open_
          rw [inside_note] at filled
          by_cases takes : st.room.Takes p.eob a
          · have fill := (good.note (readAnswer lib p current)).fill strings open_ takes
            rw [ih fill.1, filled, fill.2, roomy_cons]
            constructor
            · exact fun both => ⟨both.1.1, fun _ => ⟨takes, both.2⟩⟩
            · exact fun both => ⟨⟨both.1, takes⟩, (both.2 open_).2⟩
          · refine iff_of_false (fun inside => takes ?_) fun both => takes (both.2 open_).1
            exact (filled.mp (inside_of_answerLoop inside)).2
      · rw [if_neg fun both => open_ both.2, if_pos more]
        refine (and_iff_left ?_).symm
        split
        · exact fun full => absurd full open_
        · trivial
    · rw [if_neg fun both => more both.1, if_neg more]
      exact (and_iff_left trivial).symm

/-- **What a reply leaves is laid as it should be**, where its records find room. -/
theorem Filling.Good.answerLoop (good : st.Good) {ancount current : Nat}
    (roomy : Roomy p.eob (answersFrom lib p ancount current) st.room) :
    (answerLoop lib p ancount current st).2.Good := by
  induction ancount generalizing current st with
  | zero => exact good
  | succ ancount ih =>
    unfold PtlinkIrcd.answerLoop
    unfold answersFrom at roomy
    split
    · rename_i both
      rw [if_pos both.1] at roomy
      dsimp only
      cases read : (readAnswer lib p current).outcome with
      | broken => exact good.note _
      | ended => exact good.note _
      | answer a next =>
        rw [read] at roomy
        have fill := (good.note (readAnswer lib p current)).fill (strings_of_readAnswer read) both.2
          (roomy both.2).1
        exact ih fill.1 (fill.2 ▸ (roomy both.2).2)
    · exact good

theorem HostBuf.Laid.begin (laid : he.Laid) (ttl : Nat) : (Filling.begin he ttl).Good := by
  have first : NAMES_OFFSET ≤ MAXGETHOSTLEN := by decide
  have place : NAMES_OFFSET ≤ he.start ∧ he.start ≤ MAXGETHOSTLEN + 1 := by
    have behind : ∀ i, NAMES_OFFSET ≤ i ∧ i ≤ MAXGETHOSTLEN →
        NAMES_OFFSET ≤ he.behind i ∧ he.behind i ≤ MAXGETHOSTLEN + 1 := by
      intro i inside
      refine ⟨?_, HostBuf.behind_le laid.ends inside.2⟩
      unfold HostBuf.behind
      omega
    unfold HostBuf.start
    split
    · rename_i i last
      exact behind i (laid.placed i (List.mem_of_getLast? last))
    · split
      · rename_i i known
        exact behind i (laid.name i known)
      · omega
  refine ⟨laid, place.1, place.2, fun i member => ?_, ?_, ?_⟩
  · -- all but the last alias lie before it
    show he.behind i ≤ he.start
    obtain ⟨front, last, parts⟩ := List.eq_nil_or_concat he.h_aliases |>.resolve_left (List.ne_nil_of_mem member)
    rw [List.concat_eq_append] at parts
    have start : he.start = he.behind last := by
      unfold HostBuf.start
      rw [parts, List.getLast?_concat]
    rw [start]
    have apart := laid.apart
    replace member : i ∈ he.h_aliases := member
    rw [parts] at member apart
    rcases List.mem_append.mp member with old | same
    · have before := (List.pairwise_append.mp apart).2.2 i old last List.mem_cons_self
      refine before.trans ?_
      unfold HostBuf.behind
      omega
    · rw [List.mem_singleton.mp same]
  · show he.h_aliases.length = min he.h_aliases.length _
    have short := laid.aliases
    omega
  · show he.h_addr_list.length = min he.h_addr_list.length _
    have short := laid.addrs
    omega

theorem HostBuf.alloc_laid (garbage : Nat → Char) : (HostBuf.alloc garbage).Laid where
  ends := by simp [HostBuf.alloc]
  aliases := Nat.succ_pos _
  addrs := Nat.succ_pos _
  name _ member := nomatch member
  placed _ member := absurd member List.not_mem_nil
  apart := .nil

end

/-! ### Runs -/

/-- **The reply fits**: its records find room in the buffer of the request. -/
def FitsBuffer (lib : Resolv) (p : DnsPacket) (garbage : Nat → Char) (he : Option HostBuf) : Prop :=
  Roomy p.eob (answersOf lib p) (Filling.begin (he.getD (.alloc garbage)) 0).room

/-- The buffers that replies leave which fit, from a request without a buffer on. A forward lookup goes on with
the buffer of the request before it. -/
inductive HostRun (lib : Resolv) : Option HostBuf → Prop
  | start : HostRun lib none
  | reply {he : Option HostBuf} (run : HostRun lib he) (p : DnsPacket) (garbage : Nat → Char) (ttl : Nat)
    (fits : FitsBuffer lib p garbage he) : HostRun lib (some (proc_answer lib p garbage he ttl).2.he)

/-- **A reply is decoded within bounds**: what is written lies in the buffer, what is read of the records lies
in the reply, and the lists have room for their ends. -/
structure InBounds (p : DnsPacket) (st : Filling) : Prop where
  inside : st.Inside p.eob
  aliases : st.he.h_aliases.length + 1 ≤ RES_MAXALIASES
  addrs : st.he.h_addr_list.length + 1 ≤ RES_MAXADDRS

section

variable {lib : Resolv} {he : Option HostBuf}

theorem HostRun.laid (run : HostRun lib he) (garbage : Nat → Char) : (he.getD (.alloc garbage)).Laid := by
  induction run generalizing garbage with
  | start => exact HostBuf.alloc_laid garbage
  | reply run p other ttl fits ih => exact (((ih other).begin ttl).answerLoop fits).laid

/-- **In every run of replies that fit, a reply is decoded within bounds exactly if it fits, too.** -/
theorem proc_answer_iff (run : HostRun lib he) (p : DnsPacket) (garbage : Nat → Char) (ttl : Nat) :
    InBounds p (proc_answer lib p garbage he ttl).2 ↔ FitsBuffer lib p garbage he := by
  have good := (run.laid garbage).begin ttl
  have nothing : (Filling.begin (he.getD (.alloc garbage)) ttl).Inside p.eob :=
    ⟨fun w none_ => absurd none_ List.not_mem_nil, fun r none_ => absurd none_ List.not_mem_nil⟩
  have settled : (proc_answer lib p garbage he ttl).2.Inside p.eob ↔ _ :=
    answerLoop_inside_iff good p.ancount (skipQueries lib p p.qdcount sizeof_HEADER)
  rw [and_iff_right nothing] at settled
  constructor
  · exact fun bounds => settled.mp bounds.inside
  · intro fits
    have laid := (good.answerLoop fits).laid
    exact ⟨settled.mpr fits, laid.aliases, laid.addrs⟩

end

/-- The labels of a name without pointers, and the place behind it. -/
def labelsFrom (p : DnsPacket) : Nat → Nat → Option (Nat × Text)
  | 0, _ => none
  | fuel + 1, i =>
    if p.eob ≤ i ∨ 64 ≤ p.at_ i then none
    else if p.at_ i = 0 then some (i + 1, [])
    else
      let label := (List.range (p.at_ i)).map fun k => Char.ofNat (p.at_ (i + 1 + k))
      (labelsFrom p fuel (i + 1 + p.at_ i)).map fun r =>
        (r.1, label ++ if r.2 = [] then [] else '.' :: r.2)

theorem NUL_notMem_nil : NUL ∉ ([] : Text) := List.not_mem_nil

def sampleResolv : Resolv where
  dn_expand p i :=
    match labelsFrom p p.eob i with
    | none => (-1, ⟨[], NUL_notMem_nil⟩)
    | some r => ((r.1 - i : Int), ⟨r.2.filter (· ≠ NUL), by simp [NUL]⟩)
  dn_skipname p i :=
    match labelsFrom p p.eob i with
    | none => -1
    | some r => r.1 - i

/-- A reply with so many records in so many bytes, behind the header. -/
def samplePacket (ancount : Nat) (records : List UInt8) (small : records.length ≤ MAXPACKET) : DnsPacket where
  byte i := (List.replicate 12 0 ++ records).getD i 0
  eob := 12 + records.length
  qdcount := 0
  ancount := ancount
  small := Nat.add_le_add_left small 12

/-- An address of the host a, and one whose last three bytes are missing. -/
def sampleAddress : DnsPacket :=
  samplePacket 1 [1, 97, 0, 0, 1, 0, 1, 0, 0, 0, 60, 0, 4, 127, 0, 0, 1] (by decide)
def sampleCut : DnsPacket := samplePacket 1 [1, 97, 0, 0, 1, 0, 1, 0, 0, 0, 60, 0, 4, 127] (by decide)

/-- A reply with one address. -/
theorem proc_answer_iff_address :
    InBounds sampleAddress (proc_answer sampleResolv sampleAddress (fun _ => NUL) none 0).2 ↔
      FitsBuffer sampleResolv sampleAddress (fun _ => NUL) none :=
  proc_answer_iff .start sampleAddress (fun _ => NUL) 0

/-- **An address that is cut off** is read beyond the reply. -/
theorem not_proc_answer_in_bounds : ¬ ∀ (lib : Resolv) (p : DnsPacket) (garbage : Nat → Char) (ttl : Nat),
    InBounds p (proc_answer lib p garbage none ttl).2 := by
  intro all
  have inside := (all sampleResolv sampleCut (fun _ => NUL) 0).inside.2
  have beyond : ∃ r ∈ (proc_answer sampleResolv sampleCut (fun _ => NUL) none 0).2.reads,
      ¬ r.Before sampleCut.eob := by decide +kernel
  obtain ⟨r, member, far⟩ := beyond
  exact far (inside r member)

end PtlinkIrcd
