/-
**Automatic connections.**

`try_connections` of `s_serv.c`, up to its call of `connect_server`: one pass over the lines of the
configuration for the line to connect, the times until which they are on hold and the time of the next
call, and the move of the line to the end of the list.

* `tryConf`, `tryLoop` — the body of the pass, and the pass over the list in memory.
* `try_connections` — the whole function.
* `Candidate`, `Chosen` — the lines that may be connected, and the first of them in the highest class.
* `tryLoop_spec` — the pass chooses that line and leaves the times of `LinkConf.tried`.
* `try_connections_spec` — **the line, the times and the order of the list**.
-/

import Mathlib.Order.Bounds.Defs
import PtlinkIrcd.Channel.Runs
import PtlinkIrcd.Conf.ConfLine
import PtlinkIrcd.Lib.Rotation
import PtlinkIrcd.Model.Parse

namespace PtlinkIrcd

open Lib

/-! ### The function -/

def CONNECTFREQUENCY : Int := 600

def MIN_CONN_FREQ : Int := 300

def CONF_CONNECT_SERVER : Flags := 0x0004

/-- What is read of a `struct Class`. -/
structure LinkClass where
  type : Int
  conFreq : Int
  maxLinks : Int
  links : Int

def get_con_freq : Option LinkClass → Int
  | some clptr => clptr.conFreq
  | none => CONNECTFREQUENCY

/-- What is read of a `struct ConfItem`. -/
structure LinkConf where
  status : Flags
  flags : Flags
  name : Text
  port : Int
  hold : Int
  c_class : Option LinkClass
  /-- `initconf` gives class 0 to a line without a class. -/
  classed : status.has CONF_CONNECT_SERVER = true → c_class.isSome = true

/-- The variables of the pass. -/
structure Trying where
  connecting : Bool
  next : Int
  con_conf : Option Nat
  con_class : Int

def Trying.start : Trying := ⟨false, 0, none, 0⟩

/-- The time of the next call, after a line that is on hold until `hold`. -/
def earlier (next hold : Int) : Int := if next > hold ∨ next = 0 then hold else next

/-- The body of the pass, for the line `aconf` at the place `a`; a class that is read must be there. -/
def tryConf (s : Ircd) (currenttime : Int) (a : Nat) (aconf : LinkConf) (v : Trying) :
    Option (LinkConf × Trying) :=
  if !aconf.status.has CONF_CONNECT_SERVER || aconf.port ≤ 0 then some (aconf, v)
  else if aconf.hold > currenttime then some (aconf, { v with next := earlier v.next aconf.hold })
  else
    let confrq := get_con_freq aconf.c_class
    let confrq := if confrq < MIN_CONN_FREQ then MIN_CONN_FREQ else confrq
    let aconf := { aconf with hold := currenttime + confrq }
    match s.find_server aconf.name with
    | some _ => some (aconf, { v with next := earlier v.next aconf.hold })
    | none =>
      match aconf.c_class with
      | none => none
      | some cltmp =>
        let v :=
          if cltmp.links < cltmp.maxLinks ∧ (v.connecting = false ∨ cltmp.type > v.con_class) then
            { v with con_class := cltmp.type, con_conf := some a, connecting := true }
          else v
        some (aconf, { v with next := earlier v.next aconf.hold })

/-- The pass over the lines from a pointer on. -/
def tryLoop (s : Ircd) (currenttime : Int) :
    Nat → Option Nat → Memory LinkConf → Trying → Option (Memory LinkConf × Trying)
  | _, none, m, v => some (m, v)
  | 0, some _, _, _ => none
  | fuel + 1, some a, m, v => do
    let cell ← m a
    let (aconf, v) ← tryConf s currenttime a cell.item v
    tryLoop s currenttime fuel cell.next (m.setItem a fun _ => aconf) v

/-- What `try_connections` returns and leaves, with the line that it gives to `connect_server`. -/
structure Tried where
  next : Int
  con_conf : Option Nat
  connects : Bool
  ConfigItemList : Headed LinkConf

/-- `try_connections`, with `NEG_PORT` as it is defined in `config.h`. -/
def try_connections (s : Ircd) (fuel : Nat) (ConfigItemList : Headed LinkConf) (currenttime : Int) :
    Option Tried := do
  let (m, v) ← tryLoop s currenttime fuel ConfigItemList.head ConfigItemList.memory .start
  let l : Headed LinkConf := ⟨m, ConfigItemList.head⟩
  match v.con_conf with
  | none => some ⟨v.next, none, false, l⟩
  | some con_conf =>
    let cell ← m con_conf
    -- a line that is the last one stays
    let l ← match cell.next with
      | none => some l
      | some _ => l.rotate con_conf fuel
    some ⟨v.next, some con_conf, cell.item.flags.has CONF_FLAGS_ALLOW_AUTO_CONN, l⟩

/-! ### What it is for -/

namespace LinkConf

def Ported (conf : LinkConf) : Prop := conf.status.has CONF_CONNECT_SERVER = true ∧ 0 < conf.port

instance (conf : LinkConf) : Decidable conf.Ported := inferInstanceAs (Decidable (_ ∧ _))

/-- A C-line with a port that is not on hold. -/
def Due (now : Int) (conf : LinkConf) : Prop := conf.Ported ∧ conf.hold ≤ now

instance (now : Int) (conf : LinkConf) : Decidable (conf.Due now) := inferInstanceAs (Decidable (_ ∧ _))

/-- **A line that may be connected now**: its server is not linked, and its class has room. -/
structure Candidate (s : Ircd) (now : Int) (conf : LinkConf) (cl : LinkClass) : Prop where
  due : conf.Due now
  away : s.find_server conf.name = none
  c_class : conf.c_class = some cl
  room : cl.links < cl.maxLinks

/-- The line after a pass: a line that was due is on hold. -/
def tried (now : Int) (conf : LinkConf) : LinkConf :=
  if conf.Due now then { conf with hold := now + max (get_con_freq conf.c_class) MIN_CONN_FREQ } else conf

end LinkConf

/-- **The first candidate in the highest class**, with its place and its class, if there is a candidate. -/
inductive Chosen (s : Ircd) (now : Int) : List (Nat × LinkConf) → Option (Nat × LinkClass) → Prop
  | nobody {items : List (Nat × LinkConf)} (away : ∀ i ∈ items, ∀ cl, ¬ i.2.Candidate s now cl) :
      Chosen s now items none
  | line {before after : List (Nat × LinkConf)} {a : Nat} {conf : LinkConf} {cl : LinkClass}
      (candidate : conf.Candidate s now cl)
      (first : ∀ i ∈ before, ∀ cl', i.2.Candidate s now cl' → cl'.type < cl.type)
      (highest : ∀ i ∈ after, ∀ cl', i.2.Candidate s now cl' → cl'.type ≤ cl.type) :
      Chosen s now (before ++ (a, conf) :: after) (some (a, cl))

/-- **The earliest time of the C-lines with a port**, or zero without any. -/
def Earliest (confs : List LinkConf) (next : Int) : Prop :=
  IsLeast {h | ∃ conf ∈ confs, conf.Ported ∧ conf.hold = h} next ∨ (∀ conf ∈ confs, ¬ conf.Ported) ∧ next = 0

/-! ### One line -/

section

variable {s : Ircd} {now : Int} {a : Nat} {conf : LinkConf} {v : Trying}

@[simp] theorem tried_status : (conf.tried now).status = conf.status := by
  unfold LinkConf.tried
  split <;> rfl

@[simp] theorem tried_port : (conf.tried now).port = conf.port := by
  unfold LinkConf.tried
  split <;> rfl

theorem tried_ported : (conf.tried now).Ported ↔ conf.Ported := by
  unfold LinkConf.Ported
  rw [tried_status, tried_port]

theorem tried_hold (due : conf.Due now) : now + MIN_CONN_FREQ ≤ (conf.tried now).hold := by
  unfold LinkConf.tried
  rw [if_pos due]
  exact Int.add_le_add_left (le_max_right _ _) now

/-- With a clock that counts from zero, a line with a port is on hold until a positive time. -/
theorem tried_hold_pos (clock : 0 ≤ now) (ported : conf.Ported) : 0 < (conf.tried now).hold := by
  by_cases due : conf.Due now
  · have later := tried_hold due
    unfold MIN_CONN_FREQ at later
    omega
  · have held : ¬ conf.hold ≤ now := fun over_ => due ⟨ported, over_⟩
    unfold LinkConf.tried
    rw [if_neg due]
    omega

/-! ### The choice -/

namespace Chosen

variable {items : List (Nat × LinkConf)} {pick : Option (Nat × LinkClass)} {cl : LinkClass}

theorem le (chosen : Chosen s now items pick) {i : Nat × LinkConf} (member : i ∈ items)
    (candidate : i.2.Candidate s now cl) : ∃ p ∈ pick, cl.type ≤ p.2.type := by
  cases chosen with
  | nobody away => exact absurd candidate (away i member cl)
  | line chosen first highest =>
    refine ⟨_, rfl, ?_⟩
    rcases List.mem_append.mp member with earlier_ | later
    · exact (first i earlier_ cl candidate).le
    · rcases List.mem_cons.mp later with rfl | later
      · obtain rfl := Option.some.inj (candidate.c_class.symm.trans chosen.c_class)
        exact le_refl _
      · exact highest i later cl candidate

theorem pass (chosen : Chosen s now items pick)
    (lower : ∀ cl, conf.Candidate s now cl → ∃ p ∈ pick, cl.type ≤ p.2.type) :
    Chosen s now (items ++ [(a, conf)]) pick := by
  cases chosen with
  | nobody away =>
    refine .nobody fun i member cl candidate => ?_
    rcases List.mem_append.mp member with before | last
    · exact away i before cl candidate
    · obtain rfl := List.mem_singleton.mp last
      obtain ⟨p, none_, -⟩ := lower cl candidate
      exact nomatch none_
  | @line before after b conf' cl' chosen first highest =>
    rw [List.append_assoc, List.cons_append]
    refine .line chosen first fun i member cl candidate => ?_
    rcases List.mem_append.mp member with inside | last
    · exact highest i inside cl candidate
    · obtain rfl := List.mem_singleton.mp last
      obtain ⟨p, same, low⟩ := lower cl candidate
      obtain rfl := Option.some.inj same
      exact low

theorem better (chosen : Chosen s now items pick) (candidate : conf.Candidate s now cl)
    (higher : ∀ p ∈ pick, p.2.type < cl.type) : Chosen s now (items ++ [(a, conf)]) (some (a, cl)) :=
  .line candidate (fun i member cl' other => by
    obtain ⟨p, same, low⟩ := chosen.le member other
    exact low.trans_lt (higher p same)) fun i member => nomatch member

end Chosen

/-! ### The time of the next call -/

theorem Earliest.add {confs : List LinkConf} {next : Int} (earliest : Earliest confs next)
    (positive : ∀ conf ∈ confs, conf.Ported → 0 < conf.hold) (ported : conf.Ported) :
    Earliest (confs ++ [conf]) (earlier next conf.hold) := by
  left
  rcases earliest with ⟨⟨least, inside, isPorted, same⟩, bound⟩ | ⟨none_, rfl⟩
  · have nonzero : next ≠ 0 := same ▸ (positive least inside isPorted).ne'
    unfold earlier
    by_cases later : next > conf.hold
    · rw [if_pos (.inl later)]
      refine ⟨⟨conf, by simp, ported, rfl⟩, ?_⟩
      rintro h ⟨other, member, otherPorted, rfl⟩
      rcases List.mem_append.mp member with before | last
      · exact later.le.trans (bound ⟨other, before, otherPorted, rfl⟩)
      · exact (List.mem_singleton.mp last) ▸ le_refl _
    · rw [if_neg (not_or.mpr ⟨later, nonzero⟩)]
      refine ⟨⟨least, List.mem_append_left _ inside, isPorted, same⟩, ?_⟩
      rintro h ⟨other, member, otherPorted, rfl⟩
      rcases List.mem_append.mp member with before | last
      · exact bound ⟨other, before, otherPorted, rfl⟩
      · exact (List.mem_singleton.mp last) ▸ not_lt.mp later
  · unfold earlier
    rw [if_pos (.inr rfl)]
    refine ⟨⟨conf, by simp, ported, rfl⟩, ?_⟩
    rintro h ⟨other, member, otherPorted, rfl⟩
    rcases List.mem_append.mp member with before | last
    · exact absurd otherPorted (none_ other before)
    · exact (List.mem_singleton.mp last) ▸ le_refl _

theorem Earliest.pass {confs : List LinkConf} {next : Int} (earliest : Earliest confs next)
    (other : ¬ conf.Ported) : Earliest (confs ++ [conf]) next := by
  have same : ∀ c, (c ∈ confs ++ [conf] ∧ c.Ported) ↔ (c ∈ confs ∧ c.Ported) := by
    intro c
    rw [List.mem_append, List.mem_singleton]
    constructor
    · rintro ⟨before | rfl, ported⟩
      · exact ⟨before, ported⟩
      · exact absurd ported other
    · exact fun both => ⟨.inl both.1, both.2⟩
  rcases earliest with ⟨⟨least, inside, isPorted, hold⟩, bound⟩ | ⟨none_, zero⟩
  · refine .inl ⟨⟨least, List.mem_append_left _ inside, isPorted, hold⟩, ?_⟩
    rintro h ⟨c, member, ported, rfl⟩
    exact bound ⟨c, ((same c).mp ⟨member, ported⟩).1, ported, rfl⟩
  · exact .inr ⟨fun c member ported => none_ c ((same c).mp ⟨member, ported⟩).1 ported, zero⟩

/-! ### The pass -/

/-- **What the pass keeps**: the choice among the lines before, and the earliest of their times. -/
structure Trying.Kept (s : Ircd) (now : Int) (v : Trying) (before : List (Nat × LinkConf))
    (pick : Option (Nat × LinkClass)) : Prop where
  chosen : Chosen s now before pick
  con_conf : v.con_conf = pick.map Prod.fst
  connecting : v.connecting = pick.isSome
  con_class : ∀ p ∈ pick, v.con_class = p.2.type
  earliest : Earliest (before.map fun i => i.2.tried now) v.next

theorem tryConf_spec (s : Ircd) (now : Int) (a : Nat) (conf : LinkConf) (v : Trying) :
    ∃ v', tryConf s now a conf v = some (conf.tried now, v') ∧
      v'.next = (if conf.Ported then earlier v.next (conf.tried now).hold else v.next) ∧
      ((∃ cl, conf.Candidate s now cl ∧ (v.connecting = false ∨ v.con_class < cl.type) ∧
          v'.con_conf = some a ∧ v'.connecting = true ∧ v'.con_class = cl.type) ∨
        ((∀ cl, conf.Candidate s now cl → v.connecting = true ∧ cl.type ≤ v.con_class) ∧
          v'.con_conf = v.con_conf ∧ v'.connecting = v.connecting ∧ v'.con_class = v.con_class)) := by
  by_cases ported : conf.Ported
  · have skip : (!conf.status.has CONF_CONNECT_SERVER || decide (conf.port ≤ 0)) = false := by
      have positive : ¬ conf.port ≤ 0 := not_le.mpr ported.2
      simp [ported.1, positive]
    by_cases held : conf.hold > now
    · have notDue : ¬ conf.Due now := fun due => absurd due.2 (not_le.mpr held)
      have same : conf.tried now = conf := if_neg notDue
      refine ⟨{ v with next := earlier v.next conf.hold }, ?_, ?_, .inr ⟨?_, rfl, rfl, rfl⟩⟩
      · simp [tryConf, skip, held, same]
      · rw [if_pos ported, same]
      · exact fun cl candidate => absurd candidate.due notDue
    · have due : conf.Due now := ⟨ported, not_lt.mp held⟩
      have freq : (if get_con_freq conf.c_class < MIN_CONN_FREQ then MIN_CONN_FREQ
          else get_con_freq conf.c_class) = max (get_con_freq conf.c_class) MIN_CONN_FREQ := by
        rw [max_def]
        split_ifs <;> omega
      have after : conf.tried now =
          { conf with hold := now + max (get_con_freq conf.c_class) MIN_CONN_FREQ } := if_pos due
      cases away : s.find_server conf.name with
      | some acptr =>
        refine ⟨{ v with next := earlier v.next (conf.tried now).hold }, ?_, if_pos ported ▸ rfl,
          .inr ⟨?_, rfl, rfl, rfl⟩⟩
        · simp [tryConf, skip, held, freq, after, away]
        · exact fun cl candidate => nomatch away.symm.trans candidate.away
      | none =>
        obtain ⟨cl, c_class⟩ := Option.isSome_iff_exists.mp (conf.classed ported.1)
        rw [c_class] at freq
        by_cases takes : cl.links < cl.maxLinks ∧ (v.connecting = false ∨ cl.type > v.con_class)
        · refine ⟨⟨true, earlier v.next (conf.tried now).hold, some a, cl.type⟩, ?_, if_pos ported ▸ rfl,
            .inl ⟨cl, ⟨due, away, c_class, takes.1⟩, takes.2, rfl, rfl, rfl⟩⟩
          simp [tryConf, skip, held, freq, after, away, c_class, takes]
        · refine ⟨{ v with next := earlier v.next (conf.tried now).hold }, ?_, if_pos ported ▸ rfl,
            .inr ⟨?_, rfl, rfl, rfl⟩⟩
          · simp [tryConf, skip, held, freq, after, away, c_class, takes]
          · intro cl' candidate
            obtain rfl := Option.some.inj (c_class.symm.trans candidate.c_class)
            have stays := not_or.mp fun any => takes ⟨candidate.room, any⟩
            exact ⟨Bool.eq_true_of_not_eq_false stays.1, not_lt.mp stays.2⟩
  · have skip : (!conf.status.has CONF_CONNECT_SERVER || decide (conf.port ≤ 0)) = true := by
      rcases not_and_or.mp ported with other | low
      · simp [other]
      · simp [not_lt.mp low]
    have notDue : ¬ conf.Due now := fun due => ported due.1
    have same : conf.tried now = conf := if_neg notDue
    refine ⟨v, ?_, if_neg ported ▸ rfl, .inr ⟨?_, rfl, rfl, rfl⟩⟩
    · simp [tryConf, skip, same]
    · exact fun cl candidate => absurd candidate.due notDue

theorem Trying.Kept.step {v v' : Trying} {before : List (Nat × LinkConf)}
    {pick : Option (Nat × LinkClass)} (kept : v.Kept s now before pick) (clock : 0 ≤ now)
    (run : tryConf s now a conf v = some (conf.tried now, v')) :
    ∃ pick', v'.Kept s now (before ++ [(a, conf)]) pick' := by
  obtain ⟨v₁, run₁, next, choice⟩ := tryConf_spec s now a conf v
  obtain ⟨-, rfl⟩ := Prod.mk.inj (Option.some.inj (run.symm.trans run₁))
  have positive : ∀ c ∈ before.map (fun i => i.2.tried now), c.Ported → 0 < c.hold := by
    intro c member ported
    obtain ⟨i, -, rfl⟩ := List.mem_map.mp member
    exact tried_hold_pos clock (tried_ported.mp ported)
  have earliest : Earliest ((before ++ [(a, conf)]).map fun i => i.2.tried now) v'.next := by
    rw [List.map_append, next]
    by_cases ported : conf.Ported
    · rw [if_pos ported]
      exact kept.earliest.add positive (tried_ported.mpr ported)
    · rw [if_neg ported]
      exact kept.earliest.pass (mt tried_ported.mp ported)
  rcases choice with ⟨cl, candidate, takes, place, connecting, type⟩ | ⟨lower, place, connecting, type⟩
  · refine ⟨some (a, cl), kept.chosen.better candidate fun p same => ?_, place, connecting, ?_, earliest⟩
    · rw [← kept.con_class p same]
      refine takes.resolve_left fun none_ => ?_
      rw [kept.connecting, same] at none_
      exact nomatch none_
    · rintro p ⟨⟩
      exact type
  · refine ⟨pick, kept.chosen.pass fun cl candidate => ?_, place.trans kept.con_conf,
      connecting.trans kept.connecting, fun p same => type.trans (kept.con_class p same), earliest⟩
    obtain ⟨some_, low⟩ := lower cl candidate
    rw [kept.connecting] at some_
    obtain ⟨p, same⟩ := Option.isSome_iff_exists.mp some_
    exact ⟨p, same, kept.con_class p same ▸ low⟩

end

def triedAll (now : Int) (items : List (Nat × LinkConf)) : List (Nat × LinkConf) :=
  items.map fun i => (i.1, i.2.tried now)

section

variable {s : Ircd} {now : Int}

/-- **The pass chooses a line and puts those that are due on hold.** -/
theorem tryLoop_spec (clock : 0 ≤ now) {before rest : List (Nat × LinkConf)} {m : Memory LinkConf}
    {p : Option Nat} {v : Trying} {pick : Option (Nat × LinkClass)} {fuel : Nat}
    (ahead : Memory.Segment m p rest none) (kept : v.Kept s now before pick) (enough : rest.length ≤ fuel) :
    ∃ m' v' pick', tryLoop s now fuel p m v = some (m', v') ∧ v'.Kept s now (before ++ rest) pick' ∧
      Memory.Segment m' p (triedAll now rest) none ∧ ∀ b, b ∉ rest.map Prod.fst → m' b = m b := by
  induction rest generalizing before m p v pick fuel with
  | nil =>
    obtain rfl : p = none := ahead
    exact ⟨m, v, pick, by cases fuel <;> rfl, (List.append_nil before).symm ▸ kept, rfl, fun _ _ => rfl⟩
  | cons i rest ih =>
    obtain ⟨fuel, rfl⟩ := Nat.exists_eq_succ_of_ne_zero (Nat.ne_of_gt (Nat.zero_lt_of_lt enough))
    obtain ⟨a, conf⟩ := i
    have once := Headed.segment_nodup ahead
    rw [List.map_cons, List.nodup_cons] at once
    obtain ⟨rfl, next, cell, tail⟩ := id ahead
    obtain ⟨v₁, run, -⟩ := tryConf_spec s now a conf v
    obtain ⟨pick₁, kept₁⟩ := kept.step clock run
    have others : ∀ b, b ≠ a → m.setItem a (fun _ => conf.tried now) b = m b :=
      fun b other => Function.update_of_ne other ..
    have tail₁ : Memory.Segment (m.setItem a fun _ => conf.tried now) next rest none :=
      tail.congr fun i member => others i.1 fun same =>
        once.1 (List.mem_map.mpr ⟨i, member, same⟩)
    obtain ⟨m', v', pick', loop, kept', segment, frame⟩ := ih tail₁ kept₁ (Nat.le_of_succ_le_succ enough)
    refine ⟨m', v', pick', ?_, by simpa using kept', ⟨rfl, next, ?_, segment⟩, ?_⟩
    · rw [← loop]
      simp [tryLoop, cell, run]
    · rw [frame a once.1]
      show Function.update m a _ a = _
      rw [Function.update_self, cell]
      rfl
    · intro b out
      rw [List.map_cons, List.mem_cons, not_or] at out
      exact (frame b out.2).trans (others b out.1)

/-! ### The whole function -/

/-- The list with the line at a place moved to the end. -/
def movedLast (place : Option Nat) (items : List (Nat × LinkConf)) : List (Nat × LinkConf) :=
  items.filter (fun i => some i.1 ≠ place) ++ items.filter fun i => some i.1 = place

theorem movedLast_perm (place : Option Nat) (items : List (Nat × LinkConf)) :
    (movedLast place items).Perm items := by
  refine List.perm_append_comm.trans ?_
  simpa using List.filter_append_perm (fun i => decide (some i.1 = place)) items

theorem movedLast_none (items : List (Nat × LinkConf)) : movedLast none items = items := by
  simp [movedLast]

theorem movedLast_some {before after : List (Nat × LinkConf)} {a : Nat} {conf : LinkConf}
    (once : ((before ++ (a, conf) :: after).map Prod.fst).Nodup) :
    movedLast (some a) (before ++ (a, conf) :: after) = before ++ after ++ [(a, conf)] := by
  rw [List.map_append, List.map_cons, List.nodup_middle, List.nodup_cons, ← List.map_append] at once
  have others : ∀ i ∈ before ++ after, i.1 ≠ a := fun i member same =>
    once.1 (List.mem_map.mpr ⟨i, member, same⟩)
  have outBefore : ∀ i ∈ before, i.1 ≠ a := fun i member => others i (List.mem_append_left _ member)
  have outAfter : ∀ i ∈ after, i.1 ≠ a := fun i member => others i (List.mem_append_right _ member)
  have keepBefore : before.filter (fun i => some i.1 ≠ some a) = before :=
    List.filter_eq_self.mpr fun i member => by simpa using outBefore i member
  have keepAfter : after.filter (fun i => some i.1 ≠ some a) = after :=
    List.filter_eq_self.mpr fun i member => by simpa using outAfter i member
  have dropBefore : before.filter (fun i => some i.1 = some a) = [] :=
    List.filter_eq_nil_iff.mpr fun i member => by simpa using outBefore i member
  have dropAfter : after.filter (fun i => some i.1 = some a) = [] :=
    List.filter_eq_nil_iff.mpr fun i member => by simpa using outAfter i member
  unfold movedLast
  rw [List.filter_append, List.filter_append, keepBefore, dropBefore]
  simp only [List.filter_cons, ne_eq, not_true_eq_false, decide_false, decide_true, if_true,
    Bool.false_eq_true, if_false, dropAfter]
  rw [keepAfter, List.nil_append]

/-- **What `try_connections` is to do** with the lines `items`. -/
structure Connects (s : Ircd) (now : Int) (items : List (Nat × LinkConf)) (r : Tried) : Prop where
  /-- The first candidate in the highest class is picked. -/
  picked : ∃ pick, Chosen s now items pick ∧ r.con_conf = pick.map Prod.fst
  /-- It is the last one then, and the others keep their order. -/
  order : r.ConfigItemList.Leads (movedLast r.con_conf (triedAll now items)) none
  perm : (movedLast r.con_conf (triedAll now items)).Perm (triedAll now items)
  /-- Each line that was due is on hold. -/
  held : ∀ i ∈ items, i.2.Due now → now + MIN_CONN_FREQ ≤ (i.2.tried now).hold
  /-- The others stay what they were. -/
  kept : ∀ i ∈ items, ¬ i.2.Due now → i.2.tried now = i.2
  earliest : Earliest ((triedAll now items).map Prod.snd) r.next

/-- **`try_connections` picks the line, puts on hold the lines that were due, tells the earliest time and
moves the line to the end.** -/
theorem try_connections_spec (s : Ircd) (clock : 0 ≤ now) {l : Headed LinkConf}
    {items : List (Nat × LinkConf)} (list : l.Leads items none) {fuel : Nat} (enough : items.length < fuel) :
    ∃ r, try_connections s fuel l now = some r ∧ Connects s now items r := by
  have start : Trying.start.Kept s now [] none :=
    ⟨.nobody nofun, rfl, rfl, nofun, .inr ⟨nofun, rfl⟩⟩
  obtain ⟨m, v, pick, loop, kept, segment, -⟩ := tryLoop_spec clock list start enough.le
  rw [List.nil_append] at kept
  have earliest : Earliest ((triedAll now items).map Prod.snd) v.next := by
    have same : (triedAll now items).map Prod.snd = items.map fun i => i.2.tried now := by
      simp [triedAll]
    exact same ▸ kept.earliest
  have held : ∀ i ∈ items, i.2.Due now → now + MIN_CONN_FREQ ≤ (i.2.tried now).hold :=
    fun _ _ => tried_hold
  have others : ∀ i ∈ items, ¬ i.2.Due now → i.2.tried now = i.2 := fun _ _ waits => if_neg waits
  have once := Headed.segment_nodup segment
  have chosen := kept.chosen
  have con_conf := kept.con_conf
  cases id chosen with
  | nobody away =>
    refine ⟨⟨v.next, none, false, ⟨m, l.head⟩⟩, ?_, ⟨none, chosen, rfl⟩, ?_, movedLast_perm .., held, others,
      earliest⟩
    · simp [try_connections, loop, show v.con_conf = none from con_conf]
    · rw [movedLast_none]
      exact segment
  | @line before after a conf cl candidate first highest =>
    have place : v.con_conf = some a := con_conf
    have split : triedAll now (before ++ (a, conf) :: after) =
        triedAll now before ++ (a, conf.tried now) :: triedAll now after := by simp [triedAll]
    rw [split] at segment once
    have moved : movedLast (some a) (triedAll now (before ++ (a, conf) :: after)) =
        triedAll now before ++ triedAll now after ++ [(a, conf.tried now)] := by
      rw [split, movedLast_some once]
    obtain ⟨mid, front, rfl, next, cell, tail⟩ := Memory.Segment.append.mp segment
    obtain ⟨l', rotated, leads⟩ : ∃ l', (match next with
        | none => some ⟨m, l.head⟩
        | some _ => (⟨m, l.head⟩ : Headed LinkConf).rotate a fuel) = some l' ∧
        l'.Leads (triedAll now before ++ triedAll now after ++ [(a, conf.tried now)]) none := by
      cases after with
      | nil =>
        obtain rfl : next = none := tail
        exact ⟨⟨m, l.head⟩, rfl, by simpa [Headed.Leads, triedAll] using segment⟩
      | cons i after =>
        obtain ⟨rfl, -⟩ := id tail
        exact Headed.rotate_spec segment (List.cons_ne_nil _ _) (by simpa [triedAll] using enough)
    refine ⟨⟨v.next, some a, conf.flags.has CONF_FLAGS_ALLOW_AUTO_CONN, l'⟩, ?_, ⟨some (a, cl), chosen, rfl⟩, ?_,
      movedLast_perm .., held, others, earliest⟩
    · have flags : (conf.tried now).flags = conf.flags := by
        unfold LinkConf.tried
        split <;> rfl
      cases next with
      | none =>
        obtain rfl := Option.some.inj rotated
        simp [try_connections, loop, place, cell, flags]
      | some b => simp [try_connections, loop, place, cell, flags, show _ = some l' from rotated]
    · rw [moved]
      exact leads

end

def sampleConn (name : String) (type : Int) : LinkConf where
  status := CONF_CONNECT_SERVER
  flags := CONF_FLAGS_ALLOW_AUTO_CONN
  name := name.toList
  port := 4400
  hold := 0
  c_class := some ⟨type, 60, 1, 0⟩
  classed _ := rfl

/-- Three C-lines, the second and the third in one class. -/
def sampleConnList : Headed LinkConf where
  head := some 0
  memory
    | 0 => some ⟨sampleConn "hub.one" 1, some 1⟩
    | 1 => some ⟨sampleConn "hub.two" 2, some 2⟩
    | 2 => some ⟨sampleConn "hub.three" 2, none⟩
    | _ => none

theorem sampleConnList_leads : sampleConnList.Leads
    [(0, sampleConn "hub.one" 1), (1, sampleConn "hub.two" 2), (2, sampleConn "hub.three" 2)] none :=
  ⟨rfl, some 1, rfl, rfl, some 2, rfl, rfl, none, rfl, rfl⟩

/-- A call for them. -/
theorem try_connections_spec_sample :
    ∃ r, try_connections (.blank Ircd.sampleConf 0 "home".toList) 4 sampleConnList 1000 = some r ∧
      Connects (.blank Ircd.sampleConf 0 "home".toList) 1000
        [(0, sampleConn "hub.one" 1), (1, sampleConn "hub.two" 2), (2, sampleConn "hub.three" 2)] r :=
  try_connections_spec _ (by decide) sampleConnList_leads (by decide)

end PtlinkIrcd
