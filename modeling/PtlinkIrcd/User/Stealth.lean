/-
**User modes and the count of stealth members.**

A channel counts its stealth members when they come and go, and never when the mode of one of them
changes.

* `stealthSigns` — the signs under which a mode text names `S`.
* `userMode_stealth`, `svsMode_stealth` — the last of them decides.
* `KeepsStealth` — no member of a channel gains or loses the mode.
* `KeepsIf` — a step that keeps the invariants, and the count of stealth members if it spares them;
  `KeepsIf.user_mode` and `KeepsIf.m_svsmode`.
-/

import PtlinkIrcd.Client.Release
import PtlinkIrcd.User.UserMode

set_option linter.unusedSectionVars false

namespace PtlinkIrcd

/-! ### The letter S -/

/-- The signs under which a text names `S`; `takesAdd` is whether adding it is let through. -/
def stealthSigns (takesAdd : Bool) : Bool → Text → List Bool
  | _, [] => []
  | add, c :: t =>
    if c = '+' then stealthSigns takesAdd true t
    else if c = '-' then stealthSigns takesAdd false t
    else if c = 'S' ∧ (takesAdd || !add) then add :: stealthSigns takesAdd add t
    else stealthSigns takesAdd add t

def stealthAfter (takesAdd : Bool) (t : Text) (before : Bool) : Bool :=
  ((stealthSigns takesAdd true t).getLast?).getD before

theorem bitmask_stealth {c : Char} (other : c ≠ 'S') :
    user_modes_from_c_to_bitmask c &&& UMODE_STEALTH = 0#32 :=
  bitmask_off (P := fun c => c ≠ 'S') (by decide) other

theorem getLast_cons_getD (b : Bool) (signs : List Bool) (before : Bool) :
    ((b :: signs).getLast?).getD before = (signs.getLast?).getD b := by
  cases signs <;> simp [List.getLast?_cons]

/-- **A letter table in which only `S` touches the stealth mode**: the last sign decides. -/
theorem foldl_stealth (takesAdd : Bool) (letter : UserModeState → Char → UserModeState)
    (sign : ∀ m c, (letter m c).add = if c = '+' then true else if c = '-' then false else m.add)
    (stealth : ∀ m c, (letter m c).umodes.has UMODE_STEALTH =
      if c = 'S' ∧ (takesAdd || !m.add) then m.add else m.umodes.has UMODE_STEALTH)
    (t : Text) (m : UserModeState) :
    (t.foldl letter m).umodes.has UMODE_STEALTH =
      ((stealthSigns takesAdd m.add t).getLast?).getD (m.umodes.has UMODE_STEALTH) := by
  induction t generalizing m with
  | nil => rfl
  | cons c t ih =>
    have signs : stealthSigns takesAdd m.add (c :: t) =
        if c = '+' then stealthSigns takesAdd true t
        else if c = '-' then stealthSigns takesAdd false t
        else if c = 'S' ∧ (takesAdd || !m.add) then m.add :: stealthSigns takesAdd m.add t
        else stealthSigns takesAdd m.add t := rfl
    rw [List.foldl_cons, ih, sign, stealth, signs]
    by_cases plus : c = '+'
    · subst plus
      rfl
    · rw [if_neg plus, if_neg plus]
      by_cases minus : c = '-'
      · subst minus
        rfl
      · rw [if_neg minus, if_neg minus]
        by_cases counts : c = 'S' ∧ (takesAdd || !m.add)
        · rw [if_pos counts, if_pos counts, getLast_cons_getD]
        · rw [if_neg counts, if_neg counts]

theorem userModeDefault_add (m : UserModeState) (c : Char) : (userModeDefault m c).add = m.add := by
  unfold userModeDefault
  split <;> rfl

theorem userModeDefault_stealth {c : Char} (other : c ≠ 'S') (m : UserModeState) :
    (userModeDefault m c).umodes.has UMODE_STEALTH = m.umodes.has UMODE_STEALTH := by
  unfold userModeDefault
  split
  · exact Flags.change_has_of_disjoint (bitmask_stealth other) m.umodes m.add
  · rfl

theorem userModeLetter_add (server refuseR mine : Bool) (m : UserModeState) (c : Char) :
    (userModeLetter server refuseR mine m c).add =
      if c = '+' then true else if c = '-' then false else m.add := by
  have default := userModeDefault_add m c
  unfold userModeLetter
  split
  · rfl
  · split
    · rfl
    · generalize userModeDefault m c = d at default ⊢
      repeat' split
      all_goals first | rfl | exact default

theorem userModeLetter_stealth (server refuseR mine : Bool) (m : UserModeState) (c : Char) :
    (userModeLetter server refuseR mine m c).umodes.has UMODE_STEALTH =
      if c = 'S' ∧ (server || !m.add) then m.add else m.umodes.has UMODE_STEALTH := by
  by_cases stealth : c = 'S'
  · subst stealth
    obtain ⟨add, umodes, badflag, _, _⟩ := m
    have set := Flags.change_has_self (show UMODE_STEALTH ≠ 0#32 by decide) umodes
    cases server with
    | true => cases add with
      | true => exact set true
      | false => exact set false
    | false => cases add with
      | true => rfl
      | false => exact set false
  · rw [if_neg fun counts => stealth counts.1]
    have default := userModeDefault_stealth stealth m
    have kept := Flags.and_has
      (show USER_UMODES &&& UMODE_STEALTH = UMODE_STEALTH by decide) m.umodes
    have registered := Flags.change_has_of_disjoint
      (show UMODE_REGMSG &&& UMODE_STEALTH = 0#32 by decide) m.umodes m.add
    have oper : ∀ flag : Flags, flag &&& UMODE_STEALTH = 0#32 →
        Flags.has (m.umodes ||| flag) UMODE_STEALTH = m.umodes.has UMODE_STEALTH := fun flag apart =>
      Flags.change_has_of_disjoint apart m.umodes true
    unfold userModeLetter
    generalize userModeDefault m c = d at default ⊢
    repeat' split
    all_goals first
      | rfl
      | exact default
      | exact kept
      | exact registered
      | exact oper _ (by decide)

theorem svsModeLetter_add (m : UserModeState) (c : Char) :
    (svsModeLetter m c).add = if c = '+' then true else if c = '-' then false else m.add := by
  unfold svsModeLetter
  split
  · rfl
  · split
    · rfl
    · repeat' split
      all_goals rfl

theorem svsModeLetter_stealth (m : UserModeState) (c : Char) :
    (svsModeLetter m c).umodes.has UMODE_STEALTH =
      if c = 'S' ∧ (true || !m.add) then m.add else m.umodes.has UMODE_STEALTH := by
  by_cases stealth : c = 'S'
  · subst stealth
    obtain ⟨add, umodes, badflag, _, _⟩ := m
    exact Flags.change_has_self (show UMODE_STEALTH ≠ 0#32 by decide) umodes add
  · rw [if_neg fun counts => stealth counts.1]
    have changed := Flags.change_has_of_disjoint (bitmask_stealth stealth) m.umodes m.add
    have oper := Flags.change_has_of_disjoint
      (show UMODE_OPER &&& UMODE_STEALTH = 0#32 by decide) m.umodes true
    have deoper := Flags.change_has_of_disjoint
      (show (UMODE_OPER ||| UMODE_LOCOP) &&& UMODE_STEALTH = 0#32 by decide) m.umodes false
    unfold svsModeLetter
    repeat' split
    all_goals first
      | rfl
      | exact changed
      | exact oper
      | exact deoper

/-- **The stealth mode after the letters of a `user_mode`.** -/
theorem userMode_stealth (server refuseR mine : Bool) (t : Text) (m : UserModeState)
    (start : m.add = true) :
    (t.foldl (userModeLetter server refuseR mine) m).umodes.has UMODE_STEALTH =
      stealthAfter server t (m.umodes.has UMODE_STEALTH) := by
  have last := foldl_stealth server _ (userModeLetter_add server refuseR mine)
    (userModeLetter_stealth server refuseR mine) t m
  rw [start] at last
  exact last

/-- **The stealth mode after the letters of an SVSMODE.** -/
theorem svsMode_stealth (t : Text) (m : UserModeState) (start : m.add = true) :
    (t.foldl svsModeLetter m).umodes.has UMODE_STEALTH =
      stealthAfter true t (m.umodes.has UMODE_STEALTH) := by
  have last := foldl_stealth true _ svsModeLetter_add svsModeLetter_stealth t m
  rw [start] at last
  exact last

theorem keptModes_has {flag : Flags} (inside : (USER_UMODES ||| UMODE_ZOMBIE) &&& flag = flag)
    (umodes : Flags) : (keptModes umodes).has flag = umodes.has flag := by
  unfold keptModes
  split
  · rfl
  · exact Flags.and_has inside umodes

namespace Ircd

/-! ### The commands -/

/-- A user that is on no channel, or whose stealth mode a text leaves as it is. -/
def KeepsStealth (s : Ircd) (u : ClientId) (takesAdd : Bool) (t : Text) : Prop :=
  (s.client u).channels = [] ∨ stealthAfter takesAdd t (s.client u).isStealth =
    (s.client u).isStealth

/-- **A step that keeps the invariants**, the count of stealth members only if it spares them. -/
structure KeepsIf (spares : Prop) (s other : Ircd) : Prop where
  sound : ∀ {counted : Prop}, (counted → spares) → s.Sound counted → other.Sound counted
  noGhost : s.Sound False → s.NoGhost → other.NoGhost

namespace KeepsIf

variable {spares : Prop} {s other third : Ircd}

theorem always (keeps : Keeps s other) : KeepsIf spares s other :=
  ⟨fun _ sound => keeps.sound sound, keeps.noGhost⟩

theorem still (still : Still s other) : KeepsIf spares s other := always (.still still)

theorem trans (first : KeepsIf spares s other) (second : Keeps other third) :
    KeepsIf spares s third where
  sound counts sound := second.sound (first.sound counts sound)
  noGhost sound noGhost :=
    second.noGhost (first.sound False.elim sound) (first.noGhost sound noGhost)

end KeepsIf

section Modes

variable {s : Ircd} {u : ClientId} {x : Client}

theorem SameMembership.setClient (user : x.user = (s.client u).user) :
    SameMembership s (s.setClient u x) := by
  refine ⟨fun v => ?_, fun v => ?_, fun _ => rfl, fun _ => rfl⟩
  all_goals
    by_cases self : v = u
    · rw [self, setClient_client_self]
      first | unfold Client.channels | unfold Client.joined
      rw [user]
    · rw [setClient_client_of_ne s x self]

theorem Sound.setUncounted {counted : Prop} (sound : s.Sound counted) (uncounted : ¬ counted)
    (user : x.user = (s.client u).user) (status : x.status = (s.client u).status)
    (name : x.name = (s.client u).name) : (s.setClient u x).Sound counted := by
  refine ⟨(SameMembership.setClient user).enrolled (fun counts => absurd counts uncounted)
    (fun counts => absurd counts uncounted) sound.enrolled, ⟨sound.listed.nodup, sound.listed.table,
      sound.listed.count, sound.listed.below, sound.listed.outside⟩, fun v has => ?_⟩
  by_cases self : v = u
  · rw [self, setClient_client_self, user] at has
    rw [self, setClient_client_self, name]
    unfold Client.isClient
    rw [status]
    exact sound.named u has
  · rw [setClient_client_of_ne s x self] at has ⊢
    exact sound.named v has

/-- **Writing the modes of a user.** Away from channels any modes will do. -/
theorem KeepsIf.setModes {spares : Prop} {takesAdd : Bool} {t : Text}
    (keeps : spares → s.KeepsStealth u takesAdd t) (user : x.user = (s.client u).user)
    (status : x.status = (s.client u).status) (name : x.name = (s.client u).name)
    (after : x.isStealth = stealthAfter takesAdd t (s.client u).isStealth) :
    KeepsIf spares s (s.setClient u x) := by
  refine ⟨fun {counted} spared sound => ?_, fun _ noGhost => noGhost⟩
  by_cases counts : counted
  · rcases keeps (spared counts) with off | same
    · have fresh : x.isFresh = true := by
        unfold Client.isFresh
        cases has : x.user with
        | none => rfl
        | some block =>
          have has' : (s.client u).user = some block := by rw [← user, has]
          obtain ⟨registered, named⟩ := sound.named u (by rw [has']; rfl)
          have channel : block.channel = [] := by rw [← channels_eq has', off]
          have joined : block.joined = 0 := by
            rw [← joined_eq has', sound.enrolled.joined, off]
            rfl
          unfold Client.isClient at registered ⊢
          rw [status]
          simp [channel, joined, name, named, registered]
      exact sound.setFresh off fresh
    · exact sound.quiet (Still.setClient user status (after.trans same) name).toQuiet
  · exact sound.setUncounted counts user status name

theorem still_send_umode_out (s : Ircd) (cptr sptr : ClientId) (old : Flags) :
    Still s (s.send_umode_out cptr sptr old) := by
  unfold send_umode_out
  simp only []
  exact (Still.sendIf ..).trans (.sendIf ..)

theorem still_setCountOper (s : Ircd) (oper : Int) : Still s (s.setCountOper oper) :=
  .same rfl rfl rfl rfl rfl rfl rfl

theorem still_countInvisible (s : Ircd) (old new : Flags) : Still s (s.countInvisible old new) :=
  .same rfl rfl rfl rfl rfl rfl rfl

/-- **MODE on a user.** -/
theorem KeepsIf.user_mode (s : Ircd) (cptr sptr : ClientId) (parv : List Text) :
    KeepsIf (s.find_person (parv.getD 1 []) = some sptr →
      s.KeepsStealth sptr (s.client cptr).isServer (parv.drop 2).flatten) s
      (s.user_mode cptr sptr parv) := by
  unfold Ircd.user_mode
  simp only []
  split
  · exact .still (.send ..)
  · split
    · exact .still (.sendIf ..)
    · rename_i acptr found
      split
      · split
        · exact .still (.send ..)
        · exact .still (.send ..)
      · rename_i accepted
        split
        · exact .still (.send ..)
        · rename_i params
          have self : sptr = acptr := by
            by_contra other
            refine accepted ?_
            unfold userModeForeign
            have long : 2 < parv.length := by omega
            simp [other, long]
          refine KeepsIf.trans ?_ (.still ((Still.sendIf ..).trans
            ((still_countInvisible ..).trans (still_send_umode_out ..))))
          unfold setUserMode
          refine KeepsIf.trans ?_ (.still (still_setCountOper ..))
          refine KeepsIf.setModes (fun keeps => keeps (self ▸ found)) rfl rfl rfl ?_
          exact (keptModes_has (by decide) _).trans (userMode_stealth _ _ _ _ _ rfl)

/-- **SVSMODE.** -/
theorem KeepsIf.m_svsmode (s : Ircd) (cptr sptr : ClientId) (parv : List Text) :
    KeepsIf ((s.client cptr).isServer → (s.client sptr).isService →
      ∀ u, s.find_person ((svsParams parv).getD 1 []) = some u → (s.client u).myClient →
        (atol ((svsParams parv).getD 2 []) = 0 ∨
          atol ((svsParams parv).getD 2 []) = (s.client u).tsinfo) →
        s.KeepsStealth u true ((svsParams parv).getD 3 [])) s (s.m_svsmode cptr sptr parv) := by
  unfold Ircd.m_svsmode
  simp only []
  split
  · exact .still (.sendIf ..)
  · rename_i services
    rw [Bool.or_eq_true, not_or, Bool.not_eq_true', Bool.not_eq_true', Bool.not_eq_false,
      Bool.not_eq_false] at services
    split
    · exact .still (.refl s)
    · split
      · exact .still (.refl s)
      · rename_i acptr found
        split
        · rename_i mine
          split
          · exact .still (.send ..)
          · rename_i meant
            refine KeepsIf.trans ?_ (.still ((still_setCountOper ..).trans (still_send_umode_out ..)))
            refine KeepsIf.setModes
              (fun keeps => keeps services.1 services.2 acptr found mine ?_) rfl rfl rfl
              (svsMode_stealth _ _ rfl)
            rw [Bool.and_eq_true, not_and, decide_eq_true_eq, decide_eq_true_eq, not_not] at meant
            exact or_iff_not_imp_left.mpr meant
        · exact .still (.sendIf ..)

end Modes

end Ircd

end PtlinkIrcd
