/-
**G-lines.**

`m_gline` as a server receives it, `find_is_glined`, `add_gline` and `send_all_glines` of
`m_gline.c`.

* `Gline`, `GlineMessage` — an entry of `glines`, and the message that servers send for one.
* `find_is_glined`, `m_gline` — a search that frees expired entries, and the arrival of a G-line,
  which an entry that matches its mask refuses; both are instances of `Refusals`.
* `GlineBan` — an entry bans a user at a time.
* `find_is_glined_order` — **the order of arrival does not change a verdict**, if a G-line that bans
  is refused only by G-lines that ban.
* `send_all_glines_syncs` — **a burst gives the other server the same verdicts**, on the same terms.
* `not_find_is_glined_order`, `not_send_all_glines_syncs` — a broad G-line of a minute keeps a narrow
  one of an hour out.
-/

import PtlinkIrcd.Lib.Refusals
import PtlinkIrcd.Model.State
import Mathlib.Data.List.Perm.Basic

set_option linter.unusedSectionVars false

namespace PtlinkIrcd

open Lib.Refusals (look submit Served Wants)

/-! ### Entries and messages -/

def NONWILDCHARS : Nat := 4

def IsKWildChar (c : Char) : Bool := c ∈ ['!', '*', '.', '?', '@']

/-- A time, or a number of seconds, in a `time_t` or an `unsigned long`: as many bits as `atol` reads. -/
abbrev Seconds := BitVec 64

/-- An entry of `glines`. -/
structure Gline where
  user : Text
  host : Text
  passwd : Text
  name : Text
  hold : Seconds
deriving DecidableEq

/-- A `GLINE` from a server: servers write `user@host` in each. -/
structure GlineMessage where
  mask : Text
  explicit : '@' ∈ mask
  time : Text
  who : Text
  reason : Option Text

def secondsOf (timestr : Text) : Seconds :=
  let value := BitVec.ofInt 64 (atol timestr)
  match timestr.getLast? with
  | some 'm' => value * 60
  | some 'h' => value * 3600
  | some 'd' => value * 3600 * 24
  | _ => value

/-- The characters of a mask that are no wild cards, over user and host. -/
def nonwild (user host : Text) : Nat := (user ++ host).countP fun c => !IsKWildChar c

/-- The entry that a message asks for, at most `USERLEN + 1` and `HOSTLEN` characters of its mask.
There is none when the mask has too few characters that are no wild cards. -/
def GlineMessage.entry (m : GlineMessage) (now : Seconds) : Option Gline :=
  let user := m.mask.takeWhile (· ≠ '@')
  let host := (m.mask.dropWhile (· ≠ '@')).tail
  let host := if host = [] then ['*'] else host
  let user := user.take (USERLEN + 1)
  let host := host.take HOSTLEN
  if nonwild user host < NONWILDCHARS then none
  else
    some
      { user := user
        host := host
        passwd := m.reason.getD "No reason".toList
        name := m.who
        hold := now + secondsOf m.time }

/-! ### The list -/

def Gline.ends (kill : Gline) : Int := kill.hold.toInt

/-- What `find_is_glined` looks for. -/
def Gline.hits (host username ip : Option Text) (kill : Gline) : Bool :=
  (match username with
    | none => true
    | some name => ircMatch kill.user name) &&
  ((match ip with
      | none => false
      | some ip => ircMatch kill.host ip) ||
    match host with
    | none => true
    | some host => ircMatch kill.host host)

/-- `find_is_glined`: the list without the expired entries that it passed, and the entry. -/
def find_is_glined (now : Seconds) (glines : List Gline) (host username ip : Option Text) :
    List Gline × Option Gline :=
  look Gline.ends now.toInt (Gline.hits host username ip) glines

/-- `m_gline` on a message of a server. -/
def m_gline (now : Seconds) (glines : List Gline) (m : GlineMessage) : List Gline :=
  match m.entry now with
  | none => glines
  | some aconf =>
    let found := find_is_glined now glines (some aconf.host) (some aconf.user) none
    if found.2.isSome then found.1 else aconf :: found.1

/-- The message of `send_all_glines` for an entry. -/
def Gline.message (now : Seconds) (aconf : Gline) : GlineMessage where
  mask := aconf.user ++ '@' :: aconf.host
  explicit := List.mem_append_right _ List.mem_cons_self
  time := printLu (aconf.hold - now).toNat
  who := aconf.name
  reason := some aconf.passwd

def send_all_glines (now : Seconds) (glines : List Gline) : List GlineMessage :=
  glines.map (Gline.message now)

/-- An entry refuses another: it matches the text of the mask. -/
def Gline.refuses (kill aconf : Gline) : Bool := kill.hits (some aconf.host) (some aconf.user) none

theorem m_gline_of_none {now : Seconds} {glines : List Gline} {m : GlineMessage}
    (none_ : m.entry now = none) : m_gline now glines m = glines := by
  rw [m_gline, none_]

theorem m_gline_of_some {now : Seconds} {glines : List Gline} {m : GlineMessage} {aconf : Gline}
    (some_ : m.entry now = some aconf) :
    m_gline now glines m = submit Gline.ends Gline.refuses now.toInt glines aconf := by
  rw [m_gline, some_]
  rfl

/-! ### Arrivals -/

/-- What happens to the list of a server: a G-line comes from a server, or a search. -/
inductive GlineEvent where
  | gline (m : GlineMessage)
  | find_is_glined (host username ip : Option Text)

def glinesChanged (glines : List Gline) (at_ : Seconds × GlineEvent) : List Gline :=
  match at_.2 with
  | .gline m => m_gline at_.1 glines m
  | .find_is_glined host username ip => (find_is_glined at_.1 glines host username ip).1

def glinesAfter (glines : List Gline) (events : List (Seconds × GlineEvent)) : List Gline :=
  events.foldl glinesChanged glines

def messages (events : List (Seconds × GlineEvent)) : List (Seconds × GlineMessage) :=
  events.filterMap fun event =>
    match event.2 with
    | .gline m => some (event.1, m)
    | .find_is_glined .. => none

def asked (sent : List (Seconds × GlineMessage)) : List Gline :=
  sent.filterMap fun message => message.2.entry message.1

def GlineBan (t : Seconds) (host username ip : Option Text) (kill : Gline) : Prop :=
  t.toInt < kill.hold.toInt ∧ kill.hits host username ip = true

instance (t : Seconds) (host username ip : Option Text) (kill : Gline) :
    Decidable (GlineBan t host username ip kill) :=
  inferInstanceAs (Decidable (_ ∧ _))

section Arrivals

variable {glines sent : List Gline} {now t : Seconds}

/-- The list serves what was asked for, the last first. -/
abbrev GlinesServed (t : Seconds) (sent glines : List Gline) : Prop :=
  Served Gline.ends Gline.refuses t.toInt sent glines

/-- **The arrival of a message.** -/
theorem GlinesServed.m_gline (served : GlinesServed t sent glines) (later : now.toInt ≤ t.toInt)
    (m : GlineMessage) :
    GlinesServed t ((m.entry now).toList ++ sent) (m_gline now glines m) := by
  cases asked : m.entry now with
  | none =>
    rw [m_gline_of_none asked]
    exact served
  | some aconf =>
    rw [m_gline_of_some asked]
    exact served.submit later aconf

/-- **Events keep the list in service of what was asked for.** -/
theorem GlinesServed.after {events : List (Seconds × GlineEvent)}
    (served : GlinesServed t sent glines) (timely : ∀ e ∈ events, e.1.toInt ≤ t.toInt) :
    GlinesServed t ((asked (messages events)).reverse ++ sent) (glinesAfter glines events) := by
  induction events generalizing sent glines with
  | nil => exact served
  | cons event events ih =>
    obtain ⟨now, event⟩ := event
    have later : now.toInt ≤ t.toInt := timely _ List.mem_cons_self
    have rest := fun e member => timely e (List.mem_cons_of_mem _ member)
    cases event with
    | find_is_glined host username ip =>
      exact ih (served.look later (Gline.hits host username ip)) rest
    | gline m =>
      have after := ih (served.m_gline later m) rest
      have order : (asked (messages ((now, .gline m) :: events))).reverse ++ sent =
          (asked (messages events)).reverse ++ ((m.entry now).toList ++ sent) := by
        show (asked ((now, m) :: messages events)).reverse ++ sent = _
        unfold asked
        rw [List.filterMap_cons]
        cases m.entry now with
        | none => rfl
        | some aconf => simp
      rw [order]
      exact after

/-- **A search of a list that serves what was asked for.** -/
theorem GlinesServed.verdict (served : GlinesServed t sent glines) (host username ip : Option Text)
    (clear : (∃ aconf ∈ sent, GlineBan t host username ip aconf) →
      ∃ aconf ∈ sent, GlineBan t host username ip aconf ∧
        ∀ kill, [aconf, kill].Sublist sent → kill.refuses aconf = true →
          GlineBan t host username ip kill) :
    (find_is_glined t glines host username ip).2.isSome = true ↔
      ∃ aconf ∈ sent, GlineBan t host username ip aconf :=
  Served.found_iff served (Gline.hits host username ip) clear

end Arrivals

/-! ### The order of arrival -/

/-- **The order in which G-lines arrive does not change a verdict**: if G-lines ban a user at a time,
and one of them is refused only by G-lines that ban the user then too, every server that got them
finds one. -/
theorem find_is_glined_order {events other : List (Seconds × GlineEvent)} {t : Seconds}
    (same : (messages events).Perm (messages other))
    (timely : ∀ e ∈ events, e.1.toInt ≤ t.toInt) (timely' : ∀ e ∈ other, e.1.toInt ≤ t.toInt)
    {host username ip : Option Text}
    (clear : (∃ aconf ∈ asked (messages events), GlineBan t host username ip aconf) →
      ∃ aconf ∈ asked (messages events), GlineBan t host username ip aconf ∧
        ∀ kill ∈ asked (messages events), kill.refuses aconf = true →
          GlineBan t host username ip kill) :
    (find_is_glined t (glinesAfter [] events) host username ip).2.isSome =
      (find_is_glined t (glinesAfter [] other) host username ip).2.isSome := by
  have mem_iff : ∀ aconf, aconf ∈ asked (messages events) ↔ aconf ∈ asked (messages other) :=
    fun aconf => (same.filterMap _).mem_iff
  have served := GlinesServed.after (Served.nil (t := t.toInt)) timely
  have served' := GlinesServed.after (Served.nil (t := t.toInt)) timely'
  rw [List.append_nil] at served served'
  have first := served.verdict host username ip ?_
  have second := served'.verdict host username ip ?_
  · rw [Bool.eq_iff_iff, first, second]
    simp only [List.mem_reverse, mem_iff]
  · simp only [List.mem_reverse, ← mem_iff]
    intro some_
    obtain ⟨aconf, member, bans, only⟩ := clear some_
    refine ⟨aconf, member, bans, fun kill order refused => only kill ?_ refused⟩
    exact (mem_iff kill).mpr (List.mem_reverse.mp (order.mem (by simp)))
  · simp only [List.mem_reverse]
    intro some_
    obtain ⟨aconf, member, bans, only⟩ := clear some_
    refine ⟨aconf, member, bans, fun kill order refused => only kill ?_ refused⟩
    exact List.mem_reverse.mp (order.mem (by simp))

/-- A G-line on all hosts of a domain for a minute. -/
def sampleBroadGline : GlineMessage := ⟨"*@*.abcd".toList, by decide, ['6', '0'], ['o'], none⟩

/-- A G-line on one of these hosts for an hour. -/
def sampleNarrowGline : GlineMessage := ⟨"*@x.abcd".toList, by decide, ['1', 'h'], ['o'], none⟩

/-- Both orders, while both G-lines last. -/
theorem find_is_glined_order_sample :
    (find_is_glined 30 (glinesAfter [] [(0, .gline sampleNarrowGline), (0, .gline sampleBroadGline)])
        (some "x.abcd".toList) (some ['u']) none).2.isSome =
      (find_is_glined 30 (glinesAfter [] [(0, .gline sampleBroadGline), (0, .find_is_glined none none none),
        (0, .gline sampleNarrowGline)]) (some "x.abcd".toList) (some ['u']) none).2.isSome :=
  find_is_glined_order (by exact .swap ..) (by decide) (by decide) fun _ =>
    ⟨⟨['*'], "*.abcd".toList, "No reason".toList, ['o'], 60⟩, by decide +kernel, by decide +kernel,
      by decide +kernel⟩

/-- **The broad G-line keeps the narrow one out** when it arrives first, and ends long before it. -/
theorem not_find_is_glined_order : ¬ ∀ (events other : List (Seconds × GlineEvent)) (t : Seconds)
    (host username ip : Option Text), (messages events).Perm (messages other) →
    events.Pairwise (fun a b => a.1.toInt ≤ b.1.toInt) →
    other.Pairwise (fun a b => a.1.toInt ≤ b.1.toInt) →
    (∀ e ∈ events, e.1.toInt ≤ t.toInt) → (∀ e ∈ other, e.1.toInt ≤ t.toInt) →
    (find_is_glined t (glinesAfter [] events) host username ip).2.isSome =
      (find_is_glined t (glinesAfter [] other) host username ip).2.isSome := by
  intro claim
  have same := claim [(0, .gline sampleBroadGline), (0, .gline sampleNarrowGline)]
    [(0, .gline sampleNarrowGline), (0, .gline sampleBroadGline)] 100 (some "x.abcd".toList)
    (some ['u']) none (.swap ..) (by decide) (by decide) (by decide) (by decide)
  exact absurd same (by decide +kernel)

/-! ### The burst -/

/-- An entry as `m_gline` makes them. -/
structure Gline.Plain (aconf : Gline) : Prop where
  user_at : '@' ∉ aconf.user
  user_le : aconf.user.length ≤ USERLEN + 1
  host_ne : aconf.host ≠ []
  host_le : aconf.host.length ≤ HOSTLEN
  enough : NONWILDCHARS ≤ nonwild aconf.user aconf.host

section Burst

variable {glines sent held : List Gline} {now t : Seconds} {aconf : Gline}

theorem secondsOf_printLu {left : Seconds} (soon : left.toNat < 10 ^ 10) :
    secondsOf (printLu left.toNat) = left := by
  have value : BitVec.ofInt 64 (atol (printLu left.toNat)) = left := by
    rw [atol_printLu soon, BitVec.ofInt_natCast, BitVec.ofNat_toNat, BitVec.setWidth_eq]
  have digit : ∀ c, (printLu left.toNat).getLast? = some c → c.isDigit = true := fun c last =>
    (printLu_digits soon).1 c (List.mem_of_getLast? last)
  unfold secondsOf
  rw [value]
  split
  · exact absurd (digit _ ‹_›) (by decide)
  · exact absurd (digit _ ‹_›) (by decide)
  · exact absurd (digit _ ‹_›) (by decide)
  · rfl

/-- **The other server reads the entry back** from the message. -/
theorem Gline.Plain.entry_message (plain : aconf.Plain)
    (soon : (aconf.hold - now).toNat < 10 ^ 10) : (aconf.message now).entry now = some aconf := by
  have user : (aconf.user ++ '@' :: aconf.host).takeWhile (· ≠ '@') = aconf.user := by
    rw [List.takeWhile_append_of_pos fun c member => decide_eq_true (ne_of_mem_of_not_mem member plain.user_at),
      List.takeWhile_cons_of_neg (by decide), List.append_nil]
  have host : ((aconf.user ++ '@' :: aconf.host).dropWhile (· ≠ '@')).tail = aconf.host := by
    rw [List.dropWhile_append_of_pos fun c member => decide_eq_true (ne_of_mem_of_not_mem member plain.user_at),
      List.dropWhile_cons_of_neg (by decide), List.tail_cons]
  unfold GlineMessage.entry Gline.message
  simp only [user, host]
  rw [if_neg plain.host_ne, List.take_of_length_le plain.user_le, List.take_of_length_le plain.host_le,
    if_neg (by have enough := plain.enough; omega), secondsOf_printLu soon, BitVec.add_comm,
    BitVec.sub_add_cancel]
  rfl

theorem GlinesServed.burst (served : GlinesServed t sent held) (later : now.toInt ≤ t.toInt)
    (plain : ∀ aconf ∈ glines, aconf.Plain)
    (soon : ∀ aconf ∈ glines, (aconf.hold - now).toNat < 10 ^ 10) :
    GlinesServed t (glines.reverse ++ sent)
      ((send_all_glines now glines).foldl (PtlinkIrcd.m_gline now) held) := by
  induction glines generalizing sent held with
  | nil => exact served
  | cons aconf glines ih =>
    have entry : (aconf.message now).entry now = some aconf :=
      (plain aconf List.mem_cons_self).entry_message (soon aconf List.mem_cons_self)
    have first := served.m_gline later (aconf.message now)
    rw [entry] at first
    rw [List.reverse_cons, List.append_assoc]
    exact ih first (fun aconf member => plain aconf (List.mem_cons_of_mem _ member))
      fun aconf member => soon aconf (List.mem_cons_of_mem _ member)

/-- **A burst gives the other server the same verdicts**: for G-lines as `m_gline` makes them with
less than `10 ^ 10` seconds left, if one of those that ban a user at a time is refused only by newer
ones that ban the user then too. -/
theorem send_all_glines_syncs (plain : ∀ aconf ∈ glines, aconf.Plain)
    (soon : ∀ aconf ∈ glines, (aconf.hold - now).toNat < 10 ^ 10) (later : now.toInt ≤ t.toInt)
    {host username ip : Option Text}
    (clear : (∃ aconf ∈ glines, GlineBan t host username ip aconf) →
      ∃ aconf ∈ glines, GlineBan t host username ip aconf ∧
        ∀ kill, [kill, aconf].Sublist glines → kill.refuses aconf = true →
          GlineBan t host username ip kill) :
    (find_is_glined t ((send_all_glines now glines).foldl (m_gline now) []) host username ip).2.isSome =
      (find_is_glined t glines host username ip).2.isSome := by
  have served := GlinesServed.burst (Served.nil (t := t.toInt)) later plain soon
  rw [List.append_nil] at served
  have there := served.verdict host username ip ?_
  · have here : (find_is_glined t glines host username ip).2.isSome = true ↔
        ∃ aconf ∈ glines, GlineBan t host username ip aconf := Lib.Refusals.look_isSome
    rw [Bool.eq_iff_iff, there, here]
    simp only [List.mem_reverse]
  · simp only [List.mem_reverse]
    intro some_
    obtain ⟨aconf, member, bans, only⟩ := clear some_
    exact ⟨aconf, member, bans, fun kill order refused =>
      only kill (List.reverse_sublist.mp (by simpa using order)) refused⟩

end Burst

/-- The entries of the two messages, with their times to end. -/
def sampleGlines (broad narrow : Seconds) : List Gline :=
  [⟨['*'], "*.abcd".toList, [], ['o'], broad⟩, ⟨['*'], "x.abcd".toList, [], ['o'], narrow⟩]

/-- The broad G-line outlasts the narrow one. -/
theorem send_all_glines_syncs_sample :
    (find_is_glined 30 ((send_all_glines 0 (sampleGlines 3600 60)).foldl (m_gline 0) [])
        (some "x.abcd".toList) (some ['u']) none).2.isSome =
      (find_is_glined 30 (sampleGlines 3600 60) (some "x.abcd".toList) (some ['u']) none).2.isSome := by
  refine send_all_glines_syncs ?_ (by decide) (by decide) fun _ =>
    ⟨⟨['*'], "*.abcd".toList, [], ['o'], 3600⟩, by decide, by decide +kernel, ?_⟩
  · intro aconf member
    rcases List.mem_pair.mp member with rfl | rfl
    · exact ⟨by decide, by decide, by decide, by decide, by decide⟩
    · exact ⟨by decide, by decide, by decide, by decide, by decide⟩
  · intro kill order _
    have member : kill ∈ sampleGlines 3600 60 := order.mem List.mem_cons_self
    rcases List.mem_pair.mp member with rfl | rfl
    · decide +kernel
    · decide +kernel

/-- **A newer broad G-line of a minute keeps an older narrow one of an hour out.** -/
theorem not_send_all_glines_syncs : ¬ ∀ (glines : List Gline) (now t : Seconds)
    (host username ip : Option Text), now.toInt ≤ t.toInt →
    (find_is_glined t ((send_all_glines now glines).foldl (m_gline now) []) host username ip).2.isSome =
      (find_is_glined t glines host username ip).2.isSome := by
  intro claim
  have same := claim (sampleGlines 60 3600) 0 100 (some "x.abcd".toList) (some ['u']) none (by decide)
  exact absurd same (by decide +kernel)

end PtlinkIrcd
