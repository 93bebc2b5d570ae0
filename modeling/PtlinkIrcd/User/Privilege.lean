/-
**What a user's own MODE does to its privileges.**

`user_mode` for a local client that names itself. The letters refuse some modes, and `keptModes`
takes the modes of operators from who is none.

* `userModeLetter_own` — **what one letter of the user itself does.**
* `ModePrivilege` — no mode of an operator comes, the marks that only
  the server sets stay, and the privileges end with the operator status.
* `user_mode_privileges` — **the three hold exactly when no `v` mark is there to be lost and no
  operator that ends itself may use DIE or REHASH.**
-/

import PtlinkIrcd.User.Stealth
import PtlinkIrcd.Channel.Runs

namespace PtlinkIrcd

/-! ### One letter -/

/-- The modes that a user sets and clears. -/
def freeModes : List Flags :=
  [UMODE_REGMSG, UMODE_HIDEOPER, UMODE_INVISIBLE, UMODE_PRIVATE, UMODE_WALLOP, UMODE_SPY]

def grantedModes : List Flags :=
  [UMODE_STEALTH, UMODE_NETADMIN, UMODE_TECHADMIN, UMODE_HELPER, UMODE_ADMIN, UMODE_SADMIN]

/-- **What one letter of the user itself does**: nothing, the end of its operator status, or a change
of a mode that is its own to change. -/
inductive OwnLetter (m : UserModeState) (c : Char) : UserModeState → Prop
  | same {other : UserModeState} (umodes : other.umodes = m.umodes) (flags2 : other.flags2 = m.flags2)
      (apart : m.add = false → c = 'o' ∨ c = 'O' → m.umodes.has (UMODE_OPER ||| UMODE_LOCOP) = false) :
      OwnLetter m c other
  | deoper (letter : c = 'o' ∨ c = 'O') (del : m.add = false)
      (oper : m.umodes.has (UMODE_OPER ||| UMODE_LOCOP) = true) :
      OwnLetter m c (m.deoper true (m.umodes &&& USER_UMODES))
  | change {other : UserModeState} {flag : Flags}
      (umodes : other.umodes = m.umodes.change m.add flag) (flags2 : other.flags2 = m.flags2)
      (own : flag ∈ freeModes ∨ m.add = false ∧ flag ∈ grantedModes) (apart : c ≠ 'o' ∧ c ≠ 'O') :
      OwnLetter m c other

theorem own_default (m : UserModeState) (c : Char)
    (own : ∀ flag, userModeBits.lookup c = some flag →
      flag ∈ freeModes ∨ m.add = false ∧ flag ∈ grantedModes) (apart : c ≠ 'o' ∧ c ≠ 'O') :
    OwnLetter m c (userModeDefault m c) := by
  have none_ : m.add = false → c = 'o' ∨ c = 'O' →
      m.umodes.has (UMODE_OPER ||| UMODE_LOCOP) = false := fun _ letter =>
    absurd letter (not_or.mpr apart)
  unfold userModeDefault user_modes_from_c_to_bitmask
  cases found : userModeBits.lookup c with
  | none => exact .same rfl rfl none_
  | some flag =>
    split
    · exact .change rfl rfl (own flag found) apart
    · exact .same rfl rfl none_

theorem userModeLetter_own (refuseR : Bool) (m : UserModeState) (c : Char) :
    OwnLetter m c (userModeLetter false refuseR true m c) := by
  have skip : c ≠ 'o' ∧ c ≠ 'O' → ∀ other : UserModeState, other.umodes = m.umodes →
      other.flags2 = m.flags2 → OwnLetter m c other := fun apart _ umodes flags2 =>
    .same umodes flags2 fun _ letter => absurd letter (not_or.mpr apart)
  unfold userModeLetter
  refine iteInduction (fun letter => skip (by rw [letter]; decide) _ rfl rfl) fun _ => ?_
  refine iteInduction (fun letter => skip (by rw [letter]; decide) _ rfl rfl) fun _ => ?_
  refine iteInduction (fun letter => ?_) fun notOper => ?_
  · -- a user is never made an operator by its own letters
    cases turn : m.add with
    | true =>
      exact .same rfl rfl fun del => absurd (turn.symm.trans del) (by simp)
    | false =>
      simp only [Bool.false_eq_true, if_false]
      cases oper : m.umodes.has (UMODE_OPER ||| UMODE_LOCOP) with
      | true => exact .deoper letter.symm turn oper
      | false => exact .same rfl rfl fun _ _ => oper
  have apart : c ≠ 'o' ∧ c ≠ 'O' := (not_or.mp notOper).symm
  refine iteInduction (fun _ => skip apart _ rfl rfl) fun _ => ?_
  refine iteInduction (fun _ => ?_) fun notR => ?_
  · refine iteInduction (fun _ => skip apart _ rfl rfl) fun _ => ?_
    exact .change rfl rfl (.inl (by decide)) apart
  refine iteInduction (fun _ => skip apart _ rfl rfl) fun notSf => ?_
  refine iteInduction (fun _ => skip apart _ rfl rfl) fun notMark => ?_
  refine iteInduction (fun granted => ?_) fun notGranted => ?_
  · cases turn : m.add with
    | true => exact skip apart _ rfl rfl
    | false =>
      refine own_default m c (fun flag found => .inr ⟨turn, ?_⟩) apart
      have table : ∀ p ∈ userModeBits, p.1 ∈ ['S', 'N', 'T', 'h', 'A', 'a'] → p.2 ∈ grantedModes := by
        decide
      exact table (c, flag) (mem_of_lookup found) granted
  · refine own_default m c (fun flag found => .inl ?_) apart
    have table : ∀ p ∈ userModeBits, p.1 ≠ 'o' → p.1 ≠ 'O' → ¬ (p.1 = 's' ∨ p.1 = 'f') →
        p.1 ∉ ['v', 'z', 'r', 'B'] → p.1 ∉ ['S', 'N', 'T', 'h', 'A', 'a'] → p.2 ∈ freeModes := by
      decide
    exact table (c, flag) (mem_of_lookup found) apart.1 apart.2 notSf notMark notGranted

/-! ### Who is no operator -/

/-- The marks that only the server sets and clears. -/
def markModes : List Flags :=
  [UMODE_IDENTIFIED, UMODE_SSL, UMODE_FLOODEX, UMODE_BOT, UMODE_ZOMBIE, UMODE_NODCC]

/-- No operator, no mode that was not granted before, and the same marks. -/
structure Plain (before : Flags) (m : UserModeState) : Prop where
  oper : m.umodes.has (UMODE_OPER ||| UMODE_LOCOP) = false
  granted : ∀ flag ∈ grantedModes, m.umodes.has flag = true → before.has flag = true
  marks : ∀ flag ∈ markModes, m.umodes.has flag = before.has flag

theorem own_apart {m : UserModeState} {flag : Flags}
    (own : flag ∈ freeModes ∨ m.add = false ∧ flag ∈ grantedModes) :
    flag &&& (UMODE_OPER ||| UMODE_LOCOP) = 0#32 ∧ ∀ mark ∈ markModes, flag &&& mark = 0#32 := by
  have member : flag ∈ freeModes ++ grantedModes := List.mem_append.mpr (own.imp_right And.right)
  have oper : Flags.apart (freeModes ++ grantedModes) [UMODE_OPER ||| UMODE_LOCOP] = true := rfl
  have marks : Flags.apart (freeModes ++ grantedModes) markModes = true := rfl
  exact ⟨Flags.and_eq_zero_of_apart oper member List.mem_cons_self, fun mark mem =>
    Flags.and_eq_zero_of_apart marks member mem⟩

theorem Plain.letter {before : Flags} {m : UserModeState} (plain : Plain before m) (refuseR : Bool)
    (c : Char) : Plain before (userModeLetter false refuseR true m c) := by
  have own := userModeLetter_own refuseR m c
  generalize userModeLetter false refuseR true m c = other at own ⊢
  cases own with
  | same umodes _ _ => exact ⟨umodes ▸ plain.oper, umodes ▸ plain.granted, umodes ▸ plain.marks⟩
  | deoper _ _ oper => exact absurd (plain.oper.symm.trans oper) Bool.false_ne_true
  | @change other flag umodes _ own _ =>
    obtain ⟨oper, marks⟩ := own_apart own
    refine ⟨?_, fun granted member set => ?_, fun mark member => ?_⟩
    · rw [umodes, Flags.change_has_of_disjoint oper, plain.oper]
    · rw [umodes] at set
      refine plain.granted granted member ?_
      rcases own with free | ⟨del, _⟩
      · have table : Flags.apart freeModes grantedModes = true := rfl
        rwa [Flags.change_has_of_disjoint (Flags.and_eq_zero_of_apart table free member)] at set
      · rw [del] at set
        exact Flags.has_of_and set
    · rw [umodes, Flags.change_has_of_disjoint (marks mark member), plain.marks mark member]

/-- **The letters of a user that is no operator.** -/
theorem Plain.letters {before : Flags} (refuseR : Bool) (t : Text) {m : UserModeState}
    (plain : Plain before m) : Plain before (t.foldl (userModeLetter false refuseR true) m) := by
  induction t generalizing m with
  | nil => exact plain
  | cons c t ih => exact ih (plain.letter refuseR c)

/-! ### An operator -/

/-- Whether a text ends the status of an operator. -/
def endsOper : Bool → Text → Bool
  | _, [] => false
  | add, c :: t =>
    if c = '+' then endsOper true t
    else if c = '-' then endsOper false t
    else (!add && (c = 'o' || c = 'O')) || endsOper add t

theorem lost_letters (refuseR : Bool) (t : Text) {m : UserModeState}
    (lost : m.umodes.has (UMODE_OPER ||| UMODE_LOCOP) = false) :
    let after := t.foldl (userModeLetter false refuseR true) m
    after.umodes.has (UMODE_OPER ||| UMODE_LOCOP) = false ∧ after.flags2 = m.flags2 := by
  induction t generalizing m with
  | nil => exact ⟨lost, rfl⟩
  | cons c t ih =>
    rw [List.foldl_cons]
    have own := userModeLetter_own refuseR m c
    generalize userModeLetter false refuseR true m c = other at own ⊢
    cases own with
    | same umodes flags2 _ =>
      obtain ⟨oper, privileges⟩ := ih (m := other) (by rw [umodes, lost])
      exact ⟨oper, privileges.trans flags2⟩
    | deoper _ _ oper => exact absurd (lost.symm.trans oper) Bool.false_ne_true
    | change umodes flags2 own _ =>
      obtain ⟨oper, privileges⟩ :=
        ih (m := other) (by rw [umodes, Flags.change_has_of_disjoint (own_apart own).1, lost])
      exact ⟨oper, privileges.trans flags2⟩

/-- **The letters of an operator**: the status ends with the first letter that ends it, and takes
the privileges that `endedPrivileges` names. -/
theorem oper_letters (refuseR : Bool) (t : Text) {m : UserModeState}
    (oper : m.umodes.has (UMODE_OPER ||| UMODE_LOCOP) = true) :
    let after := t.foldl (userModeLetter false refuseR true) m
    after.umodes.has (UMODE_OPER ||| UMODE_LOCOP) = !endsOper m.add t ∧
      after.flags2 = if endsOper m.add t then m.flags2 &&& ~~~endedPrivileges else m.flags2 := by
  induction t generalizing m with
  | nil => exact ⟨oper, rfl⟩
  | cons c t ih =>
    have sign := userModeLetter_add false refuseR true m c
    have step : endsOper m.add (c :: t) =
        ((!m.add && (decide (c = 'o') || decide (c = 'O')) && !decide (c = '+') && !decide (c = '-'))
          || endsOper (userModeLetter false refuseR true m c).add t) := by
      rw [sign, endsOper]
      by_cases plus : c = '+'
      · simp [plus]
      · by_cases minus : c = '-'
        · simp [minus]
        · simp [plus, minus]
    rw [List.foldl_cons, step]
    have own := userModeLetter_own refuseR m c
    generalize userModeLetter false refuseR true m c = other at own ⊢
    cases own with
    | same umodes flags2 apart =>
      have stays : (!m.add && (decide (c = 'o') || decide (c = 'O'))) = false := by
        by_contra ends
        rw [Bool.not_eq_false, Bool.and_eq_true, Bool.not_eq_true', Bool.or_eq_true,
          decide_eq_true_eq, decide_eq_true_eq] at ends
        exact absurd ((apart ends.1 ends.2).symm.trans oper) Bool.false_ne_true
      rw [stays, Bool.false_and, Bool.false_and, Bool.false_or, ← flags2]
      exact ih (by rw [umodes, oper])
    | deoper letter del _ =>
      have lost : (m.deoper true (m.umodes &&& USER_UMODES)).umodes.has
          (UMODE_OPER ||| UMODE_LOCOP) = false := Flags.and_has_of_disjoint (by decide) m.umodes
      obtain ⟨oper, privileges⟩ := lost_letters refuseR t lost
      have ends : (!m.add && (decide (c = 'o') || decide (c = 'O')) && !decide (c = '+') &&
          !decide (c = '-')) = true := by
        rw [del]
        rcases letter with rfl | rfl <;> decide
      rw [ends, Bool.true_or, if_pos rfl]
      exact ⟨oper, privileges⟩
    | change umodes flags2 own apart =>
      rw [decide_eq_false apart.1, decide_eq_false apart.2, Bool.or_false, Bool.and_false,
        Bool.false_and, Bool.false_and, Bool.false_or, ← flags2]
      exact ih (by rw [umodes, Flags.change_has_of_disjoint (own_apart own).1, oper])

/-! ### The whole command -/

namespace Ircd

def operModes : List Flags :=
  [UMODE_OPER, UMODE_LOCOP, UMODE_ADMIN, UMODE_TECHADMIN, UMODE_NETADMIN, UMODE_HELPER,
    UMODE_STEALTH, UMODE_HIDEOPER, UMODE_SPY]

def FLAGS2_OPER_FLAGS : Flags :=
  FLAGS2_OPER_GLOBAL_KILL ||| FLAGS2_OPER_REMOTE ||| FLAGS2_OPER_UNKLINE ||| FLAGS2_OPER_GLINE |||
    FLAGS2_OPER_K ||| FLAGS2_OPER_DIE ||| FLAGS2_OPER_REHASH

/-- No mode that comes with rights is added. -/
def NoEscalation (x y : Client) : Prop :=
  ∀ flag ∈ operModes, y.umodes.has flag = true → x.umodes.has flag = true

/-- The marks of the server stay as they were. -/
def KeepsMarks (x y : Client) : Prop :=
  ∀ flag ∈ markModes, y.umodes.has flag = x.umodes.has flag

/-- **User mode privilege.** What a user that is no operator may not do with its own MODE, and what
an operator that stops to be one may not keep. -/
def ModePrivilege (x y : Client) : Prop :=
  (x.isAnOper = false → NoEscalation x y ∧ KeepsMarks x y) ∧
    (x.isAnOper = true → y.isAnOper = false → y.flags2.has FLAGS2_OPER_FLAGS = false)

/-- **Nothing is there to be lost or to be kept by mistake**: a user that is no operator is not
blocked from DCC, and an operator that ends itself may not use DIE or REHASH. -/
def NothingAtStake (x : Client) (t : Text) : Prop :=
  (x.isAnOper = false → x.umodes.has UMODE_NODCC = false) ∧
    (x.isAnOper = true → endsOper true t = true →
      x.flags2.has (FLAGS2_OPER_DIE ||| FLAGS2_OPER_REHASH) = false)

section Own

variable {s : Ircd} {u : ClientId} {parv : List Text}

theorem keptModes_plain {umodes : Flags} (plain : umodes.has (UMODE_OPER ||| UMODE_LOCOP) = false) :
    keptModes umodes = umodes &&& (USER_UMODES ||| UMODE_ZOMBIE) := by
  unfold keptModes
  rw [plain]
  rfl

/-- The mask that cuts the modes of who is no operator takes those that were not granted. -/
theorem operModes_masked {flag : Flags} (member : flag ∈ operModes) :
    flag ∈ grantedModes ∨ (USER_UMODES ||| UMODE_ZOMBIE) &&& flag = 0#32 := by
  have table : (operModes.all fun flag => grantedModes.contains flag ||
      (USER_UMODES ||| UMODE_ZOMBIE) &&& flag == 0#32) = true := rfl
  have row := List.all_eq_true.mp table flag member
  rwa [Bool.or_eq_true, List.contains_iff_mem, beq_iff_eq] at row

theorem markModes_masked {flag : Flags} (member : flag ∈ markModes) (ne : flag ≠ UMODE_NODCC) :
    (USER_UMODES ||| UMODE_ZOMBIE) &&& flag = flag := by
  have table : (markModes.all fun flag => flag == UMODE_NODCC ||
      (USER_UMODES ||| UMODE_ZOMBIE) &&& flag == flag) = true := rfl
  have row := List.all_eq_true.mp table flag member
  rw [Bool.or_eq_true, beq_iff_eq, beq_iff_eq] at row
  exact row.resolve_left ne

theorem plain_privilege {x y : Client} {m : UserModeState} (plain : Plain x.umodes m)
    (umodes : y.umodes = keptModes m.umodes) :
    NoEscalation x y ∧ (KeepsMarks x y ↔ x.umodes.has UMODE_NODCC = false) := by
  rw [keptModes_plain plain.oper] at umodes
  have nodcc : y.umodes.has UMODE_NODCC = false := by
    rw [umodes]
    exact Flags.and_has_of_disjoint (by decide) m.umodes
  refine ⟨fun flag member set => ?_, fun keeps => ?_, fun unblocked flag member => ?_⟩
  · rw [umodes] at set
    rcases operModes_masked member with granted | cut
    · exact plain.granted flag granted (Flags.has_of_and set)
    · exact absurd ((Flags.and_has_of_disjoint cut _).symm.trans set) Bool.false_ne_true
  · exact (keeps UMODE_NODCC (by decide)).symm.trans nodcc
  · by_cases blocked : flag = UMODE_NODCC
    · rw [blocked, nodcc, unblocked]
    · rw [umodes, Flags.and_has (markModes_masked member blocked), plain.marks flag member]

theorem ended_privileges (flags2 : Flags) : Flags.has (flags2 &&& ~~~endedPrivileges) FLAGS2_OPER_FLAGS =
    flags2.has (FLAGS2_OPER_DIE ||| FLAGS2_OPER_REHASH) := by
  unfold Flags.has
  rw [BitVec.and_assoc]
  rfl

/-- **User mode privilege holds exactly when nothing is at stake**, for every command of a local
client that gets as far as writing its modes. -/
theorem user_mode_privileges (s : Ircd) (u : ClientId) (parv : List Text)
    (mine : (s.client u).myClient = true) :
    ModePrivilege (s.client u) ((s.user_mode u u parv).client u) ↔
      (s.RewritesModes u parv → NothingAtStake (s.client u) (parv.drop 2).flatten) := by
  by_cases written : s.RewritesModes u parv
  · have server := Client.not_isServer_of_myClient mine
    obtain ⟨umodes, flags2⟩ := user_mode_written u written server
    have connected : (s.client u).myConnect = true := (Bool.and_eq_true _ _ ▸ mine).1
    unfold userModeLetters at umodes flags2
    simp only [server, connected] at umodes flags2
    generalize ((s.client u).myClient && !(s.client u).isIdentified) = refuseR at umodes flags2
    generalize (s.user_mode u u parv).client u = y at umodes flags2 ⊢
    generalize (parv.drop 2).flatten = t at umodes flags2 ⊢
    generalize s.client u = x at umodes flags2 ⊢
    cases oper : x.isAnOper with
    | false =>
      have start : Plain x.umodes ⟨true, x.umodes, false, s.count.oper, x.flags2⟩ :=
        ⟨oper, fun _ _ => id, fun _ _ => rfl⟩
      obtain ⟨noEscalation, marks⟩ := plain_privilege (start.letters refuseR t) umodes
      refine ⟨fun privilege _ => ⟨fun _ => marks.mp (privilege.1 oper).2, fun isOper => ?_⟩,
        fun stake => ⟨fun _ => ⟨noEscalation, marks.mpr ((stake written).1 oper)⟩, fun isOper => ?_⟩⟩
      · exact absurd (oper.symm.trans isOper) Bool.false_ne_true
      · exact absurd (oper.symm.trans isOper) Bool.false_ne_true
    | true =>
      obtain ⟨after, privileges⟩ :=
        oper_letters (m := ⟨true, x.umodes, false, s.count.oper, x.flags2⟩) refuseR t oper
      have still : y.isAnOper = !endsOper true t := by
        unfold Client.isAnOper
        rw [umodes, ← after]
        unfold keptModes
        split
        · rfl
        · rename_i none_
          rw [Flags.and_has_of_disjoint (by decide)]
          exact (Bool.eq_false_iff.mpr none_).symm
      rw [← flags2] at privileges
      have left : endsOper true t = true → y.flags2.has FLAGS2_OPER_FLAGS =
          x.flags2.has (FLAGS2_OPER_DIE ||| FLAGS2_OPER_REHASH) := by
        intro ends
        rw [privileges, if_pos ends, ended_privileges]
      refine ⟨fun privilege _ => ⟨fun notOper => ?_, fun _ ends => ?_⟩,
        fun stake => ⟨fun notOper => ?_, fun _ lost => ?_⟩⟩
      · exact absurd (notOper.symm.trans oper) Bool.false_ne_true
      · rw [← left ends]
        exact privilege.2 oper (by rw [still, ends]; rfl)
      · exact absurd (notOper.symm.trans oper) Bool.false_ne_true
      · have ends : endsOper true t = true := by simpa [still] using lost
        rw [left ends]
        exact (stake written).2 oper ends
  · obtain ⟨sent, same⟩ := user_mode_unwritten u written
    rw [same]
    refine ⟨fun _ writes => absurd writes written, fun _ => ⟨fun _ => ?_, fun oper notOper => ?_⟩⟩
    · exact ⟨fun _ _ => id, fun _ _ => rfl⟩
    · exact absurd (oper.symm.trans notOper) Bool.true_eq_false.mp

end Own

/-- A user of this server that may not use DCC. -/
def sampleMarked : Ircd :=
  (boot sampleConf 1000 "home").after (.introduce 3 { sampleLocal with umodes := UMODE_NODCC })

def sampleOper : Ircd :=
  (boot sampleConf 1000 "home").after
    (.introduce 3 { sampleLocal with umodes := UMODE_OPER, flags2 := FLAGS2_OPER_FLAGS })

/-- A local user asks for everything. -/
theorem user_mode_privileges_everything :
    ModePrivilege (sampleCrowd.client 3)
      ((sampleCrowd.user_mode 3 3 ["bob", "bob", "+oOAaTNhSHyrsfBzv"]).client 3) := by
  refine (user_mode_privileges sampleCrowd 3 _ (by decide +kernel)).mpr fun _ =>
    ⟨fun _ => by decide +kernel, fun oper => ?_⟩
  exact absurd oper (by decide +kernel)

/-- A user that may not use DCC turns a mode on, and an operator who may use DIE ends itself. -/
theorem not_user_mode_privileges :
    ¬ ModePrivilege (sampleMarked.client 3)
        ((sampleMarked.user_mode 3 3 ["bob", "bob", "+i"]).client 3) ∧
      ¬ ModePrivilege (sampleOper.client 3)
        ((sampleOper.user_mode 3 3 ["bob", "bob", "-o"]).client 3) := by
  refine ⟨fun privilege => ?_, fun privilege => ?_⟩
  · have marks := (privilege.1 (by decide +kernel)).2 UMODE_NODCC (by decide)
    exact absurd marks (by decide +kernel)
  · exact absurd (privilege.2 (by decide +kernel) (by decide +kernel)) (by decide +kernel)

end Ircd

end PtlinkIrcd
