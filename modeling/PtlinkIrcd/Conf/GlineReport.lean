/-
**The list of G-lines for an operator.**

`report_glines` prints the mask of each entry to one array and its reason, with who set it and when it
ends, to another. Before that it writes a zero, the digit, at place 200 of a longer reason.

* `report_glines` — the loop; an array that is too short has no result.
* `GlineReportable` — a reason that stays as it is, and fits.
* `report_glines_iff` — **the arrays hold and only expired entries go exactly when every entry that is
  listed is reportable**.
-/

import PtlinkIrcd.Conf.Gline

namespace PtlinkIrcd

/-- `ircsprintf` to an array of `size` characters. -/
def sprintfTo (size : Nat) (text : Text) : Option Text := if text.length < size then some text else none

def Gline.mask (kill : Gline) : Text := kill.user ++ '@' :: kill.host

/-- The reason of an entry as it is printed; `date` is what `smalldate` makes of its end. -/
def Gline.reason (kill : Gline) (date : Text) : Text :=
  "\x02[\x02".toList ++ kill.passwd ++ "\x02]\x02 from \x02".toList ++ kill.name ++
    "\x02 expiring on \x02".toList ++ date ++ "\x02".toList

/-- `passwd[200]='0'`, when there is more than that. -/
def Gline.cut (kill : Gline) : Gline :=
  if 200 < kill.passwd.length then { kill with passwd := kill.passwd.set 200 '0' } else kill

/-- An entry that is listed: it has not expired, and the mask of the request is for it. -/
def GlineListed (now : Seconds) (mask : Option Text) (kill : Gline) : Prop :=
  now.toInt < kill.hold.toInt ∧ ∀ m ∈ mask, ircMatch m kill.mask = true

instance (now : Seconds) (mask : Option Text) (kill : Gline) : Decidable (GlineListed now mask kill) :=
  inferInstanceAs (Decidable (_ ∧ _))

/-- `report_glines`: the list that it leaves, and the mask and the reason of each line. -/
def report_glines (smalldate : Seconds → Text) (now : Seconds) (mask : Option Text) :
    List Gline → Option (List Gline × List (Text × Text))
  | [] => some ([], [])
  | kill :: rest =>
    if kill.hold.toInt ≤ now.toInt then report_glines smalldate now mask rest
    else do
      let s ← sprintfTo (HOSTLEN + USERLEN + 3) kill.mask
      if GlineListed now mask kill then
        let reason ← sprintfTo 512 (kill.cut.reason (smalldate kill.hold))
        let after ← report_glines smalldate now mask rest
        some (kill.cut :: after.1, (s, reason) :: after.2)
      else
        let after ← report_glines smalldate now mask rest
        some (kill :: after.1, after.2)

/-! ### What fits -/

/-- The mask of an entry as `m_gline` cuts it. -/
structure Gline.Stored (kill : Gline) : Prop where
  user_le : kill.user.length ≤ USERLEN + 1
  host_le : kill.host.length ≤ HOSTLEN

/-- The reason of an entry is not changed, and fits with the rest of the line about it. -/
structure GlineReportable (smalldate : Seconds → Text) (kill : Gline) : Prop where
  same : kill.passwd.length ≤ 200 ∨ kill.passwd[200]? = some '0'
  fits : kill.passwd.length + kill.name.length + (smalldate kill.hold).length ≤ 482

section

variable {smalldate : Seconds → Text} {now : Seconds} {mask : Option Text} {kill : Gline} {m : GlineMessage}

theorem GlineMessage.stored (entry : m.entry now = some kill) : kill.Stored := by
  unfold GlineMessage.entry at entry
  dsimp only at entry
  generalize (if (m.mask.dropWhile (· ≠ '@')).tail = [] then ['*'] else
    (m.mask.dropWhile (· ≠ '@')).tail) = host at entry
  obtain ⟨-, same⟩ := Option.ite_none_left_eq_some.mp entry
  obtain rfl := Option.some.inj same
  constructor
  · rw [List.length_take]
    exact Nat.min_le_left _ _
  · rw [List.length_take]
    exact Nat.min_le_left _ _

/-- **The mask of an entry fits.** -/
theorem Gline.Stored.fits (stored : kill.Stored) :
    sprintfTo (HOSTLEN + USERLEN + 3) kill.mask = some kill.mask := by
  have user := stored.user_le
  have host := stored.host_le
  refine if_pos ?_
  rw [Gline.mask, List.length_append, List.length_cons]
  omega

theorem Gline.cut_eq_iff : kill.cut = kill ↔ kill.passwd.length ≤ 200 ∨ kill.passwd[200]? = some '0' := by
  unfold Gline.cut
  by_cases long : 200 < kill.passwd.length
  · rw [if_pos long, or_iff_right (Nat.not_le.mpr long)]
    constructor
    · intro same
      have here := congrArg (fun kill : Gline => kill.passwd[200]?) same
      rwa [List.getElem?_set_self long, eq_comm] at here
    · intro zero
      obtain ⟨_, here⟩ := List.getElem?_eq_some_iff.mp zero
      rw [← here, List.set_getElem_self]
  · rw [if_neg long]
    exact iff_of_true rfl (.inl (Nat.not_lt.mp long))

theorem Gline.length_cut (kill : Gline) : kill.cut.passwd.length = kill.passwd.length := by
  unfold Gline.cut
  split_ifs
  · exact List.length_set
  · rfl

theorem Gline.length_reason (kill : Gline) (date : Text) :
    (kill.cut.reason date).length = kill.passwd.length + kill.name.length + date.length + 29 := by
  have name : kill.cut.name = kill.name := by
    unfold Gline.cut
    split_ifs <;> rfl
  have opening : "\x02[\x02".toList.length = 3 := rfl
  have setter : "\x02]\x02 from \x02".toList.length = 10 := rfl
  have ends : "\x02 expiring on \x02".toList.length = 15 := rfl
  have closing : "\x02".toList.length = 1 := rfl
  unfold Gline.reason
  simp only [List.length_append, opening, setter, ends, closing, name, Gline.length_cut]
  omega

/-- **What an entry must be for its line.** -/
theorem glineReportable_iff : GlineReportable smalldate kill ↔
    kill.cut = kill ∧ (kill.cut.reason (smalldate kill.hold)).length < 512 := by
  rw [Gline.cut_eq_iff, Gline.length_reason]
  constructor
  · intro reportable
    have := reportable.fits
    exact ⟨reportable.same, by omega⟩
  · rintro ⟨same, short⟩
    exact ⟨same, by omega⟩

/-! ### The list -/

def unexpired (now : Seconds) (glines : List Gline) : List Gline :=
  glines.filter fun kill => now.toInt < kill.hold.toInt

/-- The mask and the reason of an entry that is listed. -/
def Gline.line (smalldate : Seconds → Text) (kill : Gline) : Text × Text :=
  (kill.mask, kill.cut.reason (smalldate kill.hold))

section Run

variable {glines : List Gline}

theorem report_glines_cons (stored : kill.Stored) (glines : List Gline) :
    (kill.hold.toInt ≤ now.toInt ∧
      report_glines smalldate now mask (kill :: glines) = report_glines smalldate now mask glines) ∨
    (now.toInt < kill.hold.toInt ∧ ¬ GlineListed now mask kill ∧
      report_glines smalldate now mask (kill :: glines) =
        (report_glines smalldate now mask glines).map fun after => (kill :: after.1, after.2)) ∨
    (now.toInt < kill.hold.toInt ∧ GlineListed now mask kill ∧
      report_glines smalldate now mask (kill :: glines) =
        if (kill.cut.reason (smalldate kill.hold)).length < 512 then
          (report_glines smalldate now mask glines).map fun after =>
            (kill.cut :: after.1, kill.line smalldate :: after.2)
        else none) := by
  by_cases ended : kill.hold.toInt ≤ now.toInt
  · exact .inl ⟨ended, if_pos ended⟩
  · have lasts : now.toInt < kill.hold.toInt := Int.not_le.mp ended
    have fits := stored.fits
    by_cases listed : GlineListed now mask kill
    · refine .inr (.inr ⟨lasts, listed, ?_⟩)
      rw [report_glines, if_neg ended, fits, Option.bind_eq_bind, Option.bind_some, if_pos listed]
      unfold sprintfTo
      split_ifs with short
      · rw [Option.bind_some]
        cases report_glines smalldate now mask glines <;> rfl
      · rfl
    · refine .inr (.inl ⟨lasts, listed, ?_⟩)
      rw [report_glines, if_neg ended, fits, Option.bind_eq_bind, Option.bind_some, if_neg listed]
      cases report_glines smalldate now mask glines <;> rfl

/-- **The arrays hold and no entry changes, but for those that have expired and go, exactly when every
entry that is listed has a reason that stays as it is and fits.** -/
theorem report_glines_iff (smalldate : Seconds → Text) (now : Seconds) (mask : Option Text)
    (glines : List Gline) (stored : ∀ kill ∈ glines, kill.Stored) :
    (∃ lines, report_glines smalldate now mask glines = some (unexpired now glines, lines)) ↔
      ∀ kill ∈ glines, GlineListed now mask kill → GlineReportable smalldate kill := by
  induction glines with
  | nil => exact iff_of_true ⟨[], rfl⟩ fun _ member => absurd member List.not_mem_nil
  | cons kill glines ih =>
    have rest := ih fun other member => stored other (List.mem_cons_of_mem _ member)
    have split : (∀ other ∈ kill :: glines, GlineListed now mask other → GlineReportable smalldate other) ↔
        (GlineListed now mask kill → GlineReportable smalldate kill) ∧
          ∀ other ∈ glines, GlineListed now mask other → GlineReportable smalldate other :=
      List.forall_mem_cons
    rw [split, ← rest]
    rcases @report_glines_cons smalldate now mask kill (stored kill List.mem_cons_self) glines with
      ⟨ended, same⟩ | ⟨lasts, apart, same⟩ | ⟨lasts, listed, same⟩
    · have gone : unexpired now (kill :: glines) = unexpired now glines :=
        List.filter_cons_of_neg (by simpa using ended)
      have apart : ¬ GlineListed now mask kill := fun listed => absurd listed.1 (Int.not_lt.mpr ended)
      rw [gone, same]
      exact ⟨fun left => ⟨fun listed => absurd listed apart, left⟩, fun both => both.2⟩
    · have kept : unexpired now (kill :: glines) = kill :: unexpired now glines :=
        List.filter_cons_of_pos (by simpa using lasts)
      rw [kept, same]
      constructor
      · rintro ⟨lines, left⟩
        obtain ⟨after, run, pair⟩ := Option.map_eq_some_iff.mp left
        refine ⟨fun listed => absurd listed apart, after.2, ?_⟩
        rw [run, ← (List.cons.inj (congrArg Prod.fst pair)).2]
      · rintro ⟨-, lines, run⟩
        exact ⟨lines, by rw [run]; rfl⟩
    · have kept : unexpired now (kill :: glines) = kill :: unexpired now glines :=
        List.filter_cons_of_pos (by simpa using lasts)
      rw [kept, same, glineReportable_iff]
      constructor
      · rintro ⟨lines, left⟩
        obtain ⟨short, left⟩ := Option.ite_none_right_eq_some.mp left
        obtain ⟨after, run, pair⟩ := Option.map_eq_some_iff.mp left
        obtain ⟨stays, tail⟩ := List.cons.inj (congrArg Prod.fst pair)
        refine ⟨fun _ => ⟨stays, short⟩, after.2, ?_⟩
        rw [run, ← tail]
      · rintro ⟨reportable, lines, run⟩
        obtain ⟨stays, short⟩ := reportable listed
        refine ⟨kill.line smalldate :: lines, ?_⟩
        rw [if_pos short, run, Option.map_some, stays]

theorem stored_of_mem_glinesAfter {events : List (Seconds × GlineEvent)}
    (stored : ∀ kill ∈ glines, kill.Stored) : ∀ kill ∈ glinesAfter glines events, kill.Stored := by
  induction events generalizing glines with
  | nil => exact stored
  | cons event events ih =>
    apply ih
    intro kill member
    obtain ⟨now, event⟩ := event
    cases event with
    | find_is_glined host username ip => exact stored kill (Lib.Refusals.mem_of_mem_look member)
    | gline m =>
      change kill ∈ m_gline now glines m at member
      cases asked : m.entry now with
      | none =>
        rw [m_gline_of_none asked] at member
        exact stored kill member
      | some aconf =>
        rw [m_gline_of_some asked] at member
        rcases Lib.Refusals.mem_of_mem_submit member with rfl | member
        · exact GlineMessage.stored asked
        · exact stored kill member

end Run

end

/-- The date that `smalldate` makes of the first hour of 1970. -/
def sampleDate : Seconds → Text := fun _ => "1970/01/01 01.00".toList

/-- A short G-line is listed as it is. -/
theorem report_glines_iff_short :
    (∃ lines, report_glines sampleDate 0 none
        [⟨"bob".toList, "*.example".toList, "spam".toList, "oper".toList, 3600⟩] =
      some (unexpired 0 [⟨"bob".toList, "*.example".toList, "spam".toList, "oper".toList, 3600⟩], lines)) ↔
      ∀ kill ∈ [⟨"bob".toList, "*.example".toList, "spam".toList, "oper".toList, 3600⟩],
        GlineListed 0 none kill → GlineReportable sampleDate kill := by
  apply report_glines_iff
  intro kill member
  obtain rfl := List.mem_singleton.mp member
  exact ⟨by decide, by decide⟩

/-- A `GLINE` with a reason of 201 characters. -/
def sampleLongGline : GlineMessage :=
  ⟨"bob@*.example".toList, by decide, "3600".toList, "oper".toList, some (List.replicate 201 'x')⟩

/-- **The list changes a reason of 201 characters.** -/
theorem not_report_glines : ¬ ∀ (smalldate : Seconds → Text) (now : Seconds) (mask : Option Text)
    (events : List (Seconds × GlineEvent)),
    ∃ lines, report_glines smalldate now mask (glinesAfter [] events) =
      some (unexpired now (glinesAfter [] events), lines) := by
  intro claim
  obtain ⟨lines, same⟩ := claim sampleDate 0 none [(0, .gline sampleLongGline)]
  have reasons := congrArg (Option.map fun after => after.1.map Gline.passwd) same
  have changed : (report_glines sampleDate 0 none (glinesAfter [] [(0, .gline sampleLongGline)])).map
      (fun after => after.1.map Gline.passwd) ≠
        some ((unexpired 0 (glinesAfter [] [(0, .gline sampleLongGline)])).map Gline.passwd) := by
    decide +kernel
  exact changed reasons

end PtlinkIrcd
