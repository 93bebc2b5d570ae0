/-
**Messages to a channel.**

PRIVMSG and NOTICE to a channel at one server: `m_message` of `m_message.c` and the two routines of
`send.c` that it calls.

* `Serials` — the serial number of the last message sent to a channel, and for every descriptor that of
  the last one written to it.
* `Ircd.sendLoop` — the loop over the members: one line to every local member, one to every link.
  `sendto_channel_butone` and `sendto_channel_type` are instances of it.
* `Ircd.reach` — the members that get a line; by `sendLoop_snd` the marks do not matter for it.
* `Ircd.m_message` — the branches for a channel and for a channel with a status before its name.

The settings of `can_send`, the target limit and the SVLINEs are left open (`Filters`); a message to
a nick is left out.
-/

import PtlinkIrcd.Channel.Membership
import PtlinkIrcd.Model.Parse

namespace PtlinkIrcd

def ERR_CANNOTSENDTOCHAN : Nat := 404
def ERR_NORECIPIENT : Nat := 411
def ERR_NOTEXTTOSEND : Nat := 412
def MAX_JOIN_LEAVE_COUNT : Int := 5

/-! ### Control codes -/

/-- The loop of `strip_control_codes` and of `strip_control_codes_lower`: `col` is set after a color
code, `nc` counts the digits of the color. -/
def stripLoop (shown : Char → Text) (col : Bool) (nc : Nat) : Text → Text
  | [] => []
  | c :: text =>
    if col && ((c.isDigit && nc < 2) || (c = ',' && nc < 3)) then
      stripLoop shown col (if c = ',' then 0 else nc + 1) text
    else
      match c.toNat with
      | 3 => stripLoop shown true 0 text
      | 2 | 31 | 22 | 15 => stripLoop shown false nc text
      | _ => shown c ++ stripLoop shown false nc text

def strip_control_codes (text : Text) : Text := stripLoop (fun c => [c]) false 0 text

/-- `strip_control_codes_lower`: blanks and tabs go too. -/
def strip_control_codes_lower (text : Text) : Text :=
  stripLoop (fun c => if c = ' ' ∨ c = '\t' then [] else [toLower c]) false 0 text

/-! ### What is written -/

/-- The arguments of a line `:par cmd target :text`. -/
structure Utterance where
  par : Text
  cmd : Text
  target : Text
  text : Text
  deriving DecidableEq

/-- The most that a line holds in front of its end. -/
def LINELEN : Nat := 510

namespace Utterance

/-- The place of the target, and the place of the text; a line without a target has no blank for it. -/
def targetAt (l : Utterance) : Nat := 1 + l.par.length + 1 + l.cmd.length + 1

def textAt (l : Utterance) : Nat :=
  (if l.target = [] then l.targetAt else l.targetAt + l.target.length + 1) + 1

/-- What is left of the arguments when a line is cut to size. -/
def cut (l : Utterance) : Utterance where
  par := l.par.take (LINELEN - 1)
  cmd := l.cmd.take (LINELEN - (1 + l.par.length + 1))
  target := l.target.take (LINELEN - l.targetAt)
  text := l.text.take (LINELEN - l.textAt)

def line (l : Utterance) : Text :=
  [':'] ++ l.par ++ [' '] ++ l.cmd ++ [' '] ++ (if l.target = [] then [] else l.target ++ [' ']) ++
    [':'] ++ l.text

theorem length_line (l : Utterance) : l.line.length = l.textAt + l.text.length := by
  unfold line textAt targetAt
  split <;> simp <;> omega

/-- **A cut that leaves some of the text takes from nothing else.** -/
theorem cut_eq {l : Utterance} (left : l.textAt ≤ LINELEN) :
    l.cut = { l with text := l.text.take (LINELEN - l.textAt) } := by
  have target : l.targetAt + l.target.length ≤ LINELEN := by
    unfold textAt at left
    split at left
    · rename_i none_
      rw [none_]
      simp only [List.length_nil]
      omega
    · omega
  have front : 1 + l.par.length + 1 + l.cmd.length + 1 ≤ LINELEN := Nat.le_of_add_right_le target
  unfold cut
  rw [List.take_of_length_le (show l.par.length ≤ LINELEN - 1 by omega),
    List.take_of_length_le (show l.cmd.length ≤ LINELEN - (1 + l.par.length + 1) by omega),
    List.take_of_length_le (show l.target.length ≤ LINELEN - l.targetAt by omega)]

/-- **The cut is that of the line.** -/
theorem line_cut {l : Utterance} (left : l.textAt ≤ LINELEN) : l.cut.line = l.line.take LINELEN := by
  have front : l.line = { l with text := [] }.line ++ l.text := by
    unfold line
    rw [List.append_nil]
  have length : ({ l with text := [] } : Utterance).line.length = l.textAt := by
    rw [length_line]
    rfl
  have same : l.cut.line = { l with text := [] }.line ++ l.text.take (LINELEN - l.textAt) := by
    rw [cut_eq left]
    unfold line
    rw [List.append_nil]
  rw [same, front, List.take_append, length, List.take_of_length_le (length.trans_le left)]

theorem cut_cut {l : Utterance} (left : l.textAt ≤ LINELEN) : l.cut.cut = l.cut := by
  have same : l.cut.textAt = l.textAt := by
    rw [cut_eq left]
    rfl
  rw [cut_eq (same.trans_le left), same]
  rw [cut_eq left, List.take_take, Nat.min_self]

/-- **A line that was cut and whose source is then written in full** is the line with the source in full,
cut once. -/
theorem cut_par {l : Utterance} (left : l.textAt ≤ LINELEN) {par : Text}
    (longer : l.par.length ≤ par.length) :
    ({ l.cut with par := par } : Utterance).cut = ({ l with par := par } : Utterance).cut := by
  have later : l.textAt ≤ ({ l with par := par } : Utterance).textAt := by
    unfold textAt targetAt
    split <;> simp only <;> omega
  rw [cut_eq left]
  unfold cut
  have text : (l.text.take (LINELEN - l.textAt)).take
      (LINELEN - ({ l with par := par } : Utterance).textAt) =
        l.text.take (LINELEN - ({ l with par := par } : Utterance).textAt) := by
    rw [List.take_take, Nat.min_eq_left (Nat.sub_le_sub_left later LINELEN)]
  exact congrArg (Utterance.mk _ _ _) text

theorem textAt_lt_of_cut {l : Utterance} (left : l.cut.text ≠ []) : l.textAt < LINELEN := by
  by_contra full
  refine left ?_
  show l.text.take (LINELEN - l.textAt) = []
  rw [Nat.sub_eq_zero_of_le (Nat.le_of_not_lt full), List.take_zero]

end Utterance

/-- What the handling of a message writes. -/
inductive Written
  /-- A line to a client, written to the connection it is behind. -/
  | line (acptr : ClientId) (l : Utterance)
  /-- A line from a server to a user behind the same link: dropped. -/
  | fakeDirection (acptr : ClientId)
  /-- A line from a user to one behind the same link: the latter is killed. -/
  | ghosted (acptr : ClientId)
  | reply (acptr : ClientId) (numeric : Nat) (args : List Text)
  | notice (acptr : ClientId) (text : Text)
  /-- The message is not for a channel. -/
  | elsewhere (nick : Text)
  /-- `parse` knows no such source, or not behind this link. -/
  | unknownSource (sender : Text)
  deriving DecidableEq

/-- The static variables of `send.c`; the serial number is one without the bounds of an `unsigned
long`. -/
structure Serials where
  sentalong : Nat → Nat
  current_serial : Nat
  le_serial : ∀ index, sentalong index ≤ current_serial

namespace Serials

def zero : Serials := ⟨fun _ => 0, 0, fun _ => Nat.le_refl 0⟩

def next (marks : Serials) : Serials :=
  ⟨marks.sentalong, marks.current_serial + 1, fun index => Nat.le_succ_of_le (marks.le_serial index)⟩

def mark (marks : Serials) (index : Nat) : Serials where
  sentalong := Function.update marks.sentalong index marks.current_serial
  current_serial := marks.current_serial
  le_serial i := by
    rw [Function.update_apply]
    split
    · exact Nat.le_refl _
    · exact marks.le_serial i

def marked (marks : Serials) (index : Nat) : Bool := marks.sentalong index = marks.current_serial

@[simp] theorem marked_mark (marks : Serials) (index i : Nat) :
    (marks.mark index).marked i = (decide (i = index) || marks.marked i) := by
  show decide (Function.update marks.sentalong index marks.current_serial i =
    marks.current_serial) = (_ || decide (marks.sentalong i = marks.current_serial))
  by_cases same : i = index
  · rw [same, Function.update_self, decide_eq_true rfl, decide_eq_true rfl, Bool.true_or]
  · rw [Function.update_of_ne same, decide_eq_false same, Bool.false_or]

@[simp] theorem marked_next (marks : Serials) (i : Nat) : marks.next.marked i = false := by
  refine decide_eq_false fun same => ?_
  have bound := marks.le_serial i
  have same' : marks.sentalong i = marks.current_serial + 1 := same
  omega

end Serials

/-! ### One line to every member -/

/-- `nick!user@host`, as a local user sees the source of a line. -/
def Client.prefixMask (y : Client) : Text :=
  y.name ++ (if y.username = [] then [] else '!' :: y.username) ++
    (if y.host = [] then [] else '@' :: y.host)

namespace Ircd

/-- `acptr->from->fd`. -/
def index (s : Ircd) (fd : ClientId → Nat) (acptr : ClientId) : Nat :=
  match (s.client acptr).link with
  | none => 0
  | some source => fd source

/-- `MyConnect(acptr) && IsRegisteredUser(acptr)`. -/
def isLocal (s : Ircd) (acptr : ClientId) : Bool := (s.client acptr).myClient

/-- `vsendto_prefix_one`, with the line cut to size. Its arguments are values, the same for every receiver. -/
def vsendto_prefix_one (s : Ircd) (acptr source : ClientId) (l : Utterance) : Written :=
  let x := s.client acptr
  let y := s.client source
  if !y.myClient && x.isPerson && x.link = y.link then
    if y.isServer then .fakeDirection acptr else .ghosted acptr
  else if x.myClient && y.isPerson && irccmp l.par y.name = 0 then
    .line acptr { l with par := y.prefixMask }.cut
  else .line acptr l.cut

/-- The loop over the members: those that `keep` asks for and that are not behind `one`. A local
member gets its line, and with `markLocal` its descriptor is marked; of the members behind a link the
first one does. -/
def sendLoop (s : Ircd) (fd : ClientId → Nat) (one : Option ClientId) (keep : Member → Bool)
    (markLocal : Bool) (write : Bool → ClientId → Written) :
    List Member → Serials → Serials × List Written
  | [], marks => (marks, [])
  | lp :: rest, marks =>
    if !keep lp || (s.client lp.cptr).link = one then
      s.sendLoop fd one keep markLocal write rest marks
    else if s.isLocal lp.cptr then
      let marks := if markLocal then marks.mark (s.index fd lp.cptr) else marks
      let (marks, written) := s.sendLoop fd one keep markLocal write rest marks
      (marks, write true lp.cptr :: written)
    else if marks.marked (s.index fd lp.cptr) then
      s.sendLoop fd one keep markLocal write rest marks
    else
      let marks := marks.mark (s.index fd lp.cptr)
      let (marks, written) := s.sendLoop fd one keep markLocal write rest marks
      (marks, write false lp.cptr :: written)

def sendto_channel_butone (s : Ircd) (fd : ClientId → Nat) (one : Option ClientId)
    (source : ClientId) (chptr : ChannelId) (l : Utterance) (marks : Serials) :
    Serials × List Written :=
  s.sendLoop fd one (fun _ => true) true (fun _ acptr => s.vsendto_prefix_one acptr source l)
    (s.chan chptr).members marks.next

def sendto_channel_type (s : Ircd) (fd : ClientId → Nat) (one : Option ClientId)
    (source : ClientId) (chptr : ChannelId) (type : Flags) (nick cmd message : Text)
    (marks : Serials) : Serials × List Written :=
  let char_type := if type.has MODE_CHANOP then '@' else '+'
  s.sendLoop fd one (fun lp => lp.flags.has type) false
    (fun here acptr => s.vsendto_prefix_one acptr source
      ⟨(s.client source).name, if here then cmd else "NOTICE", char_type :: nick, message⟩)
    (s.chan chptr).members marks.next

/-! ### Whom the loop reaches -/

/-- The members that get a line, where `seen` lists the descriptors that are marked. -/
def reach (s : Ircd) (fd : ClientId → Nat) (one : Option ClientId) (keep : Member → Bool)
    (markLocal : Bool) : List Nat → List Member → List Member
  | _, [] => []
  | seen, lp :: rest =>
    if !keep lp || (s.client lp.cptr).link = one then s.reach fd one keep markLocal seen rest
    else if s.isLocal lp.cptr then
      lp :: s.reach fd one keep markLocal
        (if markLocal then s.index fd lp.cptr :: seen else seen) rest
    else if s.index fd lp.cptr ∈ seen then s.reach fd one keep markLocal seen rest
    else lp :: s.reach fd one keep markLocal (s.index fd lp.cptr :: seen) rest

section Reach

variable (s : Ircd) (fd : ClientId → Nat) (one : Option ClientId) (keep : Member → Bool)
  (markLocal : Bool)

theorem sendLoop_snd_seen (write : Bool → ClientId → Written) (members : List Member)
    {seen : List Nat} {marks : Serials} (same : ∀ i, marks.marked i = decide (i ∈ seen)) :
    (s.sendLoop fd one keep markLocal write members marks).2 =
      (s.reach fd one keep markLocal seen members).map fun lp =>
        write (s.isLocal lp.cptr) lp.cptr := by
  have mark : ∀ {seen : List Nat} {marks : Serials} (index : Nat),
      (∀ i, marks.marked i = decide (i ∈ seen)) →
      ∀ i, (marks.mark index).marked i = decide (i ∈ index :: seen) := by
    intro seen marks index same i
    rw [Serials.marked_mark, same]
    simp only [List.mem_cons, Bool.decide_or]
  induction members generalizing seen marks with
  | nil => rfl
  | cons lp rest ih =>
    unfold sendLoop reach
    by_cases skip : (!keep lp || decide ((s.client lp.cptr).link = one)) = true
    · rw [if_pos skip, if_pos skip]
      exact ih same
    · rw [if_neg skip, if_neg skip]
      by_cases here : s.isLocal lp.cptr = true
      · rw [if_pos here, if_pos here, List.map_cons, here]
        cases markLocal with
        | true => exact congrArg _ (ih (mark _ same))
        | false => exact congrArg _ (ih same)
      · rw [if_neg here, if_neg here, same]
        by_cases known : s.index fd lp.cptr ∈ seen
        · rw [if_pos (decide_eq_true known), if_pos known]
          exact ih same
        · rw [if_neg (by simpa using known), if_neg known, List.map_cons,
            Bool.eq_false_iff.mpr here]
          exact congrArg _ (ih (mark _ same))

theorem sendLoop_snd (write : Bool → ClientId → Written) (members : List Member) (marks : Serials) :
    (s.sendLoop fd one keep markLocal write members marks.next).2 =
      (s.reach fd one keep markLocal [] members).map fun lp =>
        write (s.isLocal lp.cptr) lp.cptr :=
  s.sendLoop_snd_seen fd one keep markLocal write members fun i => by
    rw [Serials.marked_next]
    rfl

theorem mem_reach {seen : List Nat} {members : List Member} {lp : Member}
    (reached : lp ∈ s.reach fd one keep markLocal seen members) :
    lp ∈ members ∧ keep lp = true ∧ (s.client lp.cptr).link ≠ one ∧
      (s.isLocal lp.cptr = false → s.index fd lp.cptr ∉ seen) := by
  induction members generalizing seen with
  | nil => exact absurd reached List.not_mem_nil
  | cons head rest ih =>
    have deeper : ∀ {seen' : List Nat}, seen ⊆ seen' →
        lp ∈ s.reach fd one keep markLocal seen' rest →
        lp ∈ head :: rest ∧ keep lp = true ∧ (s.client lp.cptr).link ≠ one ∧
          (s.isLocal lp.cptr = false → s.index fd lp.cptr ∉ seen) := by
      intro seen' sub reached
      obtain ⟨member, kept, apart, new⟩ := ih reached
      exact ⟨List.mem_cons_of_mem _ member, kept, apart, fun away old => new away (sub old)⟩
    unfold reach at reached
    by_cases skip : (!keep head || decide ((s.client head.cptr).link = one)) = true
    · rw [if_pos skip] at reached
      exact deeper (List.Subset.refl _) reached
    · rw [if_neg skip] at reached
      simp only [Bool.or_eq_true, Bool.not_eq_true', decide_eq_true_eq, not_or,
        Bool.not_eq_false] at skip
      by_cases here : s.isLocal head.cptr = true
      · rw [if_pos here] at reached
        rcases List.mem_cons.mp reached with rfl | reached
        · exact ⟨List.mem_cons_self, skip.1, skip.2, fun away => by rw [here] at away; cases away⟩
        · refine deeper ?_ reached
          cases markLocal with
          | true => exact List.subset_cons_self _ _
          | false => exact List.Subset.refl _
      · rw [if_neg here] at reached
        by_cases known : s.index fd head.cptr ∈ seen
        · rw [if_pos known] at reached
          exact deeper (List.Subset.refl _) reached
        · rw [if_neg known] at reached
          rcases List.mem_cons.mp reached with rfl | reached
          · exact ⟨List.mem_cons_self, skip.1, skip.2, fun _ => known⟩
          · exact deeper (List.subset_cons_self _ _) reached

theorem filter_reach_local (seen : List Nat) (members : List Member) :
    (s.reach fd one keep markLocal seen members).filter (fun lp => s.isLocal lp.cptr) =
      members.filter fun lp =>
        s.isLocal lp.cptr && (keep lp && decide ((s.client lp.cptr).link ≠ one)) := by
  induction members generalizing seen with
  | nil => rfl
  | cons head rest ih =>
    unfold reach
    rw [List.filter_cons]
    by_cases skip : (!keep head || decide ((s.client head.cptr).link = one)) = true
    · have out : (keep head && decide ((s.client head.cptr).link ≠ one)) = false := by
        rw [Bool.or_eq_true, Bool.not_eq_true', decide_eq_true_eq] at skip
        rcases skip with dropped | same
        · rw [dropped, Bool.false_and]
        · rw [decide_eq_false (not_not.mpr same), Bool.and_false]
      rw [if_pos skip, out, Bool.and_false, if_neg Bool.false_ne_true]
      exact ih seen
    · have into : (keep head && decide ((s.client head.cptr).link ≠ one)) = true := by
        simpa using skip
      rw [if_neg skip, into, Bool.and_true]
      by_cases here : s.isLocal head.cptr = true
      · rw [if_pos here, if_pos here, List.filter_cons, if_pos here, ih]
      · rw [if_neg here, if_neg here]
        by_cases known : s.index fd head.cptr ∈ seen
        · rw [if_pos known]
          exact ih seen
        · rw [if_neg known, List.filter_cons, if_neg here]
          exact ih _

/-- The members behind a link that are reached are reached by different descriptors. -/
theorem reach_nodup (seen : List Nat) (members : List Member) :
    (((s.reach fd one keep markLocal seen members).filter fun lp => !s.isLocal lp.cptr).map
      fun lp => s.index fd lp.cptr).Nodup := by
  induction members generalizing seen with
  | nil => exact List.nodup_nil
  | cons head rest ih =>
    unfold reach
    split
    · exact ih seen
    · split
      · rename_i here
        rw [List.filter_cons, here]
        exact ih _
      · split
        · exact ih seen
        · rename_i away _
          rw [List.filter_cons, Bool.eq_false_iff.mpr away]
          refine List.nodup_cons.mpr ⟨fun again => ?_, ih _⟩
          obtain ⟨lp, there, same⟩ := List.mem_map.mp again
          obtain ⟨reached, remote⟩ := List.mem_filter.mp there
          refine (s.mem_reach fd one keep markLocal reached).2.2.2 (by simpa using remote) ?_
          rw [same]
          exact List.mem_cons_self

/-- A member behind a link is reached, or another one by the same descriptor. -/
theorem exists_reach {seen : List Nat} {members : List Member} {lp : Member} (member : lp ∈ members)
    (kept : keep lp = true) (apart : (s.client lp.cptr).link ≠ one)
    (away : s.isLocal lp.cptr = false) (new : s.index fd lp.cptr ∉ seen)
    (alone : ∀ other ∈ members, s.isLocal other.cptr = true →
      s.index fd other.cptr ≠ s.index fd lp.cptr) :
    ∃ other ∈ s.reach fd one keep markLocal seen members, s.isLocal other.cptr = false ∧
      s.index fd other.cptr = s.index fd lp.cptr := by
  induction members generalizing seen with
  | nil => exact absurd member List.not_mem_nil
  | cons head rest ih =>
    have deeper : ∀ {seen' : List Nat}, lp ∈ rest → s.index fd lp.cptr ∉ seen' →
        ∃ other ∈ s.reach fd one keep markLocal seen' rest, s.isLocal other.cptr = false ∧
          s.index fd other.cptr = s.index fd lp.cptr := fun there new' =>
      ih there new' fun other member' => alone other (List.mem_cons_of_mem _ member')
    unfold reach
    by_cases skip : (!keep head || decide ((s.client head.cptr).link = one)) = true
    · rw [if_pos skip]
      rcases List.mem_cons.mp member with rfl | there
      · simp only [Bool.or_eq_true, Bool.not_eq_true', decide_eq_true_eq] at skip
        rcases skip with dropped | same
        · rw [kept] at dropped
          cases dropped
        · exact absurd same apart
      · exact deeper there new
    · rw [if_neg skip]
      by_cases here : s.isLocal head.cptr = true
      · rw [if_pos here]
        have other := alone head List.mem_cons_self here
        have new' : s.index fd lp.cptr ∉
            if markLocal = true then s.index fd head.cptr :: seen else seen := by
          split
          · exact fun old => (List.mem_cons.mp old).elim (fun same => other same.symm) new
          · exact new
        rcases List.mem_cons.mp member with rfl | there
        · rw [away] at here
          cases here
        · obtain ⟨found, reached, far, same⟩ := deeper there new'
          exact ⟨found, List.mem_cons_of_mem _ reached, far, same⟩
      · rw [if_neg here]
        by_cases known : s.index fd head.cptr ∈ seen
        · rw [if_pos known]
          rcases List.mem_cons.mp member with rfl | there
          · exact absurd known new
          · exact deeper there new
        · rw [if_neg known]
          by_cases same : s.index fd lp.cptr = s.index fd head.cptr
          · exact ⟨head, List.mem_cons_self, Bool.eq_false_iff.mpr here, same.symm⟩
          · rcases List.mem_cons.mp member with rfl | there
            · exact absurd rfl same
            · obtain ⟨found, reached, far, same'⟩ := deeper there fun old =>
                (List.mem_cons.mp old).elim same new
              exact ⟨found, List.mem_cons_of_mem _ reached, far, same'⟩

end Reach

/-! ### PRIVMSG and NOTICE -/

end Ircd

/-- `cmd`: MSG_NOTICE or MSG_PRIVATE. -/
def cmdOf (notice : Bool) : Text := if notice then "NOTICE" else "PRIVMSG"

theorem cmdOf_eq_notice (notice : Bool) : decide (cmdOf notice = "NOTICE") = notice := by
  cases notice <;> decide

/-- What other parts of the server say about a message. -/
structure Filters where
  /-- `can_send`, zero if the message may pass. -/
  can_send : ClientId → ChannelId → Text → Flags
  /-- `CheckTargetLimit && check_target_limit`. -/
  check_target_limit : ClientId → ChannelId → Text → Bool
  /-- `is_msgvlined`, with the text for the user. -/
  is_msgvlined : Text → Option Text
  NoCTCP_Msg : Text
  Moderated_Msg : Text
  NoExternal_Msg : Text
  Banned_Msg : Text
  NoSpam_Msg : Text
  NoFlood_Msg : Text

def MODE_BAN : Flags := 0x0400

/-- The reason that goes with a value of `can_send`. -/
def Filters.reason (f : Filters) (cantsendtype : Flags) : Text :=
  if cantsendtype = MODE_MODERATED then f.Moderated_Msg
  else if cantsendtype = MODE_NOPRIVMSGS then f.NoExternal_Msg
  else if cantsendtype = MODE_BAN then f.Banned_Msg
  else if cantsendtype = MODE_NOSPAM then f.NoSpam_Msg
  else if cantsendtype = MODE_NOFLOOD then f.NoFlood_Msg
  else f.NoCTCP_Msg

def Client.isZombie (x : Client) : Bool := x.umodes.has UMODE_ZOMBIE

def isChanPrefix (nick : Text) : Bool := nick.head? = some '#' || nick.head? = some '&'

/-- The statuses that `@` or `+` stands for. -/
def prefixType (c : Char) : Flags := if c = '@' then MODE_CHANOP else MODE_CHANOP ||| MODE_VOICE

theorem prefixType_has_chanop (c : Char) : (prefixType c).has MODE_CHANOP = true := by
  unfold prefixType
  split <;> decide

/-- The statuses that the letter before a channel name stands for, and the name with one letter
before it: a second letter replaces the first one and stands for all statuses. -/
def statusType (nick : Text) : Option (Flags × Text) :=
  match nick with
  | c :: rest =>
    if c = '@' ∨ c = '+' then
      match rest with
      | d :: chname =>
        if d = '@' ∨ d = '+' then some (MODE_CHANOP ||| MODE_VOICE, '@' :: chname)
        else some (prefixType c, nick)
      | [] => some (prefixType c, nick)
    else none
  | [] => none

namespace Ircd

variable (s : Ircd) (f : Filters) (fd : ClientId → Nat)

/-- What keeps a message of a local user from being looked at further, with the answer to the user. -/
def held (sptr : ClientId) (text : Text) : Option (List Written) :=
  let x := s.client sptr
  if x.isZombie || x.isStealth then some []
  else if x.myConnect then
    match if x.isOper then none else f.is_msgvlined (strip_control_codes_lower text) with
    | some passwd => some [.notice sptr passwd]
    | none => if MAX_JOIN_LEAVE_COUNT ≤ x.join_leave_count then some [] else none
  else none

/-- The branch of `m_message` for a channel. -/
def messageChannel (cptr sptr : ClientId) (source nick text : Text) (notice : Bool)
    (chptr : ChannelId) (marks : Serials) : Serials × List Written :=
  let x := s.client sptr
  let cmd := cmdOf notice
  let cantsendtype := f.can_send sptr chptr text
  if cantsendtype = 0 then
    if x.myClient && f.check_target_limit sptr chptr text then (marks, [])
    else
      let text :=
        if x.myClient && (s.chan chptr).mode.mode.has MODE_NOCOLORS then strip_control_codes text
        else text
      s.sendto_channel_butone fd (some cptr) sptr chptr ⟨source, cmd, nick, text⟩ marks
  else if !notice && cantsendtype ≠ MODE_FLOODLIMIT then
    (marks, [.reply sptr ERR_CANNOTSENDTOCHAN [nick, f.reason cantsendtype]])
  else (marks, [])

/-- The branch of `m_message` for a channel with a status before its name. -/
def messageStatus (cptr sptr : ClientId) (type : Flags) (nick text : Text) (notice : Bool)
    (marks : Serials) : Serials × List Written :=
  let cmd := cmdOf notice
  match s.hash_find_channel nick.tail with
  | none => (marks, [.reply sptr ERR_NOSUCHNICK [nick]])
  | some chptr =>
    if (s.client cptr).myClient && !(s.client sptr).isService && !(s.chan chptr).is_chan_op sptr then
      (marks, if notice then [] else [.reply sptr ERR_CANNOTSENDTOCHAN [nick]])
    else s.sendto_channel_type fd (some cptr) sptr chptr type nick.tail cmd text marks

/-- `m_message`. One receiver is looked at, `MAX_MULTI_MESSAGES` being 1. -/
def m_message (cptr sptr : ClientId) (parv : List Text) (notice : Bool) (marks : Serials) :
    Serials × List Written :=
  let cmd := cmdOf notice
  let receivers := parv.getD 1 []
  let text := parv.getD 2 []
  if receivers = [] then (marks, [.reply sptr ERR_NORECIPIENT [cmd]])
  else if text = [] then (marks, [.reply sptr ERR_NOTEXTTOSEND []])
  else
    match s.held f sptr text with
    | some answer => (marks, answer)
    | none =>
      let nick := (strtoken ',' receivers).headD receivers
      match if isChanPrefix nick && (s.client sptr).isPerson then s.hash_find_channel nick
        else none with
      | some chptr => s.messageChannel f fd cptr sptr (parv.getD 0 []) nick text notice chptr marks
      | none =>
        match statusType nick with
        | some (type, nick) => s.messageStatus fd cptr sptr type nick text notice marks
        | none => (marks, [.elsewhere nick])

/-- A line from a server link: the source by its name, as `parse` finds it, then `m_message`. -/
def receive (cptr : ClientId) (l : Utterance) (marks : Serials) : Serials × List Written :=
  match s.prefixed l.par with
  | none => (marks, [.unknownSource l.par])
  | some sptr =>
    if (s.client sptr).link ≠ some cptr then (marks, [.unknownSource l.par])
    else s.m_message f fd cptr sptr [l.par, l.target, l.text] (l.cmd = "NOTICE") marks

variable {s f fd}

theorem receiver_eq {nick : Text} (some_ : nick ≠ []) (single : ',' ∉ nick) :
    (strtoken ',' nick).headD nick = nick := by
  unfold strtoken
  rw [Lib.words_word ⟨some_, fun c member => ?_⟩, List.headD_cons]
  refine beq_eq_false_iff_ne.mpr fun comma => single ?_
  rw [← comma]
  exact member

theorem m_message_channel {cptr sptr : ClientId} {source nick text : Text} {notice : Bool}
    {chptr : ChannelId} {marks : Serials} (isChannel : isChanPrefix nick = true)
    (single : ',' ∉ nick) (some_ : text ≠ []) (passes : s.held f sptr text = none)
    (person : (s.client sptr).isPerson = true) (found : s.hash_find_channel nick = some chptr)
    (may : f.can_send sptr chptr text = 0)
    (few : ((s.client sptr).myClient && f.check_target_limit sptr chptr text) = false) :
    s.m_message f fd cptr sptr [source, nick, text] notice marks =
      s.sendto_channel_butone fd (some cptr) sptr chptr
        ⟨source, cmdOf notice, nick,
          if (s.client sptr).myClient && (s.chan chptr).mode.mode.has MODE_NOCOLORS then
            strip_control_codes text
          else text⟩ marks := by
  have named : nick ≠ [] := by
    rintro rfl
    cases isChannel
  unfold m_message
  simp only [List.getD_cons_succ, List.getD_cons_zero, named, some_, if_false, passes,
    receiver_eq named single, isChannel, person, Bool.and_true, if_true, found]
  unfold messageChannel
  rw [if_pos may, few]
  rfl

/-- The statuses and the name that a message to `@chname` or `+chname` is for. -/
theorem statusType_cons {c : Char} (status : c = '@' ∨ c = '+') {chname : Text}
    (isChannel : isChanPrefix chname = true) :
    statusType (c :: chname) = some (prefixType c, c :: chname) := by
  cases chname with
  | nil => cases isChannel
  | cons d rest =>
    have plain : ¬ (d = '@' ∨ d = '+') := by
      rintro (rfl | rfl) <;> exact Bool.false_ne_true isChannel
    simp only [statusType, if_pos status, if_neg plain]

theorem m_message_status {cptr sptr : ClientId} {source chname text : Text} {notice : Bool}
    {c : Char} (status : c = '@' ∨ c = '+') {chptr : ChannelId} {marks : Serials}
    (isChannel : isChanPrefix chname = true) (single : ',' ∉ chname) (some_ : text ≠ [])
    (passes : s.held f sptr text = none) (found : s.hash_find_channel chname = some chptr)
    (may : ((s.client cptr).myClient && !(s.client sptr).isService &&
      !(s.chan chptr).is_chan_op sptr) = false) :
    s.m_message f fd cptr sptr [source, c :: chname, text] notice marks =
      s.sendto_channel_type fd (some cptr) sptr chptr (prefixType c) chname (cmdOf notice) text
        marks := by
  have notComma : ',' ∉ c :: chname := by
    rw [List.mem_cons, not_or]
    refine ⟨?_, single⟩
    rcases status with rfl | rfl <;> decide
  have noPrefix : isChanPrefix (c :: chname) = false := by
    rcases status with rfl | rfl <;> rfl
  unfold m_message
  simp only [List.getD_cons_succ, List.getD_cons_zero, reduceCtorEq, some_, if_false, passes,
    receiver_eq (List.cons_ne_nil c chname) notComma, noPrefix, Bool.false_and,
    Bool.false_eq_true, statusType_cons status isChannel]
  unfold messageStatus
  rw [List.tail_cons, found]
  simp only [may, Bool.false_eq_true, if_false]

end Ircd

end PtlinkIrcd
