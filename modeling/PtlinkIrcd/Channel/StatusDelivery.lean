/-
**A message to the operators of a channel, or to them and the voiced.**

PRIVMSG or NOTICE to `@#chan` or `+#chan`, through all servers. The server of the sender goes by the
mask of the statuses; what it writes to a link is always a NOTICE to `@#chan`.

* `StatusNetwork` — a network whose servers agree on the flags of the members as well.
* `StatusNetwork.Sends.floods` — the servers flood the tree, to wherever operators are.
* `StatusNetwork.Sends.receipts_eq` — what each member gets.
* `StatusNetwork.status_run_iff` — **all members with such a status, and no others, get the message
  once with its command, exactly if no operator elsewhere should have got a PRIVMSG and no voiced
  member elsewhere should have got the message without being an operator.**
-/

import PtlinkIrcd.Channel.Delivery

set_option linter.unusedSectionVars false

namespace PtlinkIrcd

open Lib

/-- A network whose servers agree on the members of a channel and on their flags. -/
structure StatusNetwork (V U : Type) extends Network V U where
  flags : U → Flags
  flags_eq : ∀ {v lp u}, lp ∈ ((ircd v).chan (chptr v)).members → lp.cptr = id v u →
    lp.flags = flags u

namespace StatusNetwork

variable {V U : Type} [DecidableEq V] (net : StatusNetwork V U) (sender : U) (c : Char)
  (notice : Bool) (text : Text)

/-! ### The message -/

def said : Utterance := ⟨net.nick sender, cmdOf notice, c :: net.chname, text⟩

def told : Utterance := ⟨net.nick sender, cmdOf notice, '@' :: net.chname, text⟩

def letterAt (v : V) : Char := if v = net.home sender then c else '@'

def noticeAt (v : V) : Bool := if v = net.home sender then notice else true

/-- The line that goes over the links, cut to size. -/
def linked : Utterance := (net.told sender true text).cut

def textAt (v : V) : Text := if v = net.home sender then text else (net.linked sender text).text

/-- An operator sends the message, and no server refuses it before it looks at the receiver; a line has
room for some of the text behind the longer command and the mask of the sender. -/
structure Sends : Prop where
  status : c = '@' ∨ c = '+'
  text_ne : text ≠ []
  room : ∀ v, ({ net.told sender false text with
    par := ((net.ircd v).client (net.id v sender)).prefixMask } : Utterance).textAt < LINELEN
  member : sender ∈ net.members
  operator : (net.flags sender).has CHFL_CHANOP = true
  passes : ∀ v, (net.ircd v).held (net.filters v) (net.id v sender) (net.textAt sender text v) = none

def Fits (_ _ : V) (l : Utterance) : Prop := l = net.linked sender text

/-- The lines that a server writes when the message comes to it. -/
def shared (v : V) : List Written :=
  net.spoken v (net.oncoming sender v)
    (fun lp => lp.flags.has (prefixType (net.letterAt sender c v))) false fun here =>
      if here then net.heard sender v (net.told sender (net.noticeAt sender notice v) text)
      else net.linked sender text

variable {net} {sender} {c} {notice} {text}

theorem length_cmdOf (notice : Bool) : (cmdOf notice).length ≤ (cmdOf false).length := by
  cases notice <;> decide

theorem Sends.room_told (sends : net.Sends sender c text) :
    (net.told sender true text).textAt < LINELEN := by
  refine lt_of_le_of_lt ?_ (sends.room (net.home sender))
  have longer : (net.nick sender).length ≤
      ((net.ircd (net.home sender)).client (net.id (net.home sender) sender)).prefixMask.length := by
    rw [← net.name (net.home sender) sender]
    unfold Client.prefixMask
    simp only [List.length_append]
    omega
  have command := length_cmdOf true
  unfold told Utterance.textAt Utterance.targetAt
  simp only [reduceCtorEq, if_false]
  omega

theorem Sends.heard_cmd (sends : net.Sends sender c text) (notice : Bool) (v : V) :
    (net.heard sender v (net.told sender notice text)).cmd = cmdOf notice := by
  unfold Network.heard
  rw [Utterance.cut_eq]
  · rfl
  · refine le_trans ?_ (sends.room v).le
    have command := length_cmdOf notice
    unfold told Utterance.textAt Utterance.targetAt
    simp only [reduceCtorEq, if_false]
    omega

theorem Sends.linked_eq (sends : net.Sends sender c text) :
    net.linked sender text = net.told sender true (net.linked sender text).text :=
  Utterance.cut_eq sends.room_told.le

theorem Sends.textAt_ne (sends : net.Sends sender c text) (v : V) :
    net.textAt sender text v ≠ [] := by
  unfold textAt
  split
  · exact sends.text_ne
  · intro none_
    have short : (text.take (LINELEN - (net.told sender true text).textAt)).length = 0 :=
      List.length_eq_zero_iff.mpr none_
    rw [List.length_take] at short
    have some_ := List.length_pos_iff.mpr sends.text_ne
    have room := sends.room_told
    omega

theorem is_chan_op_of_flags (member : sender ∈ net.members)
    (operator : (net.flags sender).has CHFL_CHANOP = true) (v : V) :
    ((net.ircd v).chan (net.chptr v)).is_chan_op (net.id v sender) = true := by
  unfold Channel.is_chan_op Channel.user_channel_mode find_user_link
  cases found : ((net.ircd v).chan (net.chptr v)).members.find? fun l => l.cptr = net.id v sender with
  | none =>
    obtain ⟨lp, there, same⟩ := Network.exists_link member v
    exact absurd (decide_eq_true same) (List.find?_eq_none.mp found lp there)
  | some lp =>
    have test := List.find?_some found
    have same : lp.cptr = net.id v sender := of_decide_eq_true test
    rw [Option.map_some, Option.getD_some, net.flags_eq (List.mem_of_find?_eq_some found) same]
    exact operator

theorem Sends.m_message_eq (sends : net.Sends sender c text) {d : Char} (status : d = '@' ∨ d = '+')
    (notice : Bool) (v : V) {cptr : ClientId} (source : net.oncoming sender v = some cptr)
    (marks : Serials) :
    ((net.ircd v).m_message (net.filters v) (net.fd v) cptr (net.id v sender)
      [net.nick sender, d :: net.chname, net.textAt sender text v] notice marks).2 =
    net.spoken v (net.oncoming sender v) (fun lp => lp.flags.has (prefixType d)) false fun here =>
      if here then net.heard sender v (net.told sender notice (net.textAt sender text v))
      else (net.told sender true (net.textAt sender text v)).cut := by
  rw [Ircd.m_message_status status net.isChannel net.single (sends.textAt_ne v) (sends.passes v)
    (net.channel v) (by rw [is_chan_op_of_flags sends.member sends.operator]; exact Bool.and_false _),
    ← source]
  unfold Ircd.sendto_channel_type
  rw [prefixType_has_chanop, if_pos rfl, net.name]
  exact Network.sendLoop_eq_spoken v (fun lp => lp.flags.has (prefixType d)) false
    (fun here => ⟨net.nick sender, if here then cmdOf notice else "NOTICE", '@' :: net.chname,
      net.textAt sender text v⟩)
    (fun _ => rfl) marks

theorem Sends.m_message_home (sends : net.Sends sender c text) (notice : Bool) (marks : Serials) :
    ((net.ircd (net.home sender)).m_message (net.filters (net.home sender))
      (net.fd (net.home sender)) (net.id (net.home sender) sender)
      (net.id (net.home sender) sender) [net.nick sender, c :: net.chname, text] notice marks).2 =
    net.shared sender c notice text (net.home sender) := by
  have written := sends.m_message_eq sends.status notice (net.home sender) Network.oncoming_home marks
  have same : net.textAt sender text (net.home sender) = text := if_pos rfl
  rw [same] at written
  unfold shared letterAt noticeAt
  rw [written, if_pos rfl, if_pos rfl]
  rfl

/-- The others have what was left of it when the line was cut, and cut no more. -/
theorem Sends.m_message_away (sends : net.Sends sender c text) (notice : Bool) {v : V}
    (elsewhere : v ≠ net.home sender) {cptr : ClientId}
    (source : net.oncoming sender v = some cptr) (marks : Serials) :
    ((net.ircd v).m_message (net.filters v) (net.fd v) cptr (net.id v sender)
      [net.nick sender, '@' :: net.chname, (net.linked sender text).text] true marks).2 =
    net.shared sender c notice text v := by
  have written := sends.m_message_eq (.inl rfl) true v source marks
  have same : net.textAt sender text v = (net.linked sender text).text := if_neg elsewhere
  have reads : net.heard sender v (net.linked sender text) =
      net.heard sender v (net.told sender true text) := Network.heard_cut rfl sends.room_told.le v
  have again : (net.linked sender text).cut = net.linked sender text :=
    Utterance.cut_cut sends.room_told.le
  rw [same, ← sends.linked_eq, reads, again] at written
  unfold shared letterAt noticeAt
  rw [written, if_neg elsewhere, if_neg elsewhere]

/-- A message that arrives as it should is handled as above, whatever the marks are. -/
theorem Sends.react_eq (sends : net.Sends sender c text) {v : V} {marks : Serials}
    {arrival : Option V} {l : Utterance}
    (arrives : Arrives net.graph (net.home sender) (net.said sender c notice text)
      (net.Fits sender text) v arrival l) :
    (net.react sender v marks arrival l).sends =
        (net.shared sender c notice text v).filterMap (net.carry v) ∧
      (net.react sender v marks arrival l).outputs =
        (net.shared sender c notice text v).filter fun event => (net.carry v event).isNone := by
  cases arrives with
  | first =>
    rw [← sends.m_message_home notice marks]
    unfold Network.react said
    simp only [net.name, cmdOf_eq_notice]
    exact ⟨trivial, trivial⟩
  | @next a _ _ adj away fits =>
    obtain rfl := fits
    have elsewhere : v ≠ net.home sender := by
      rintro rfl
      rw [net.graph.dist_self] at away
      exact Nat.not_lt_zero _ away
    have source : net.oncoming sender v = some (net.conn v a) := Network.oncoming_away adj away
    rw [← sends.m_message_away notice elsewhere source marks, sends.linked_eq]
    unfold Network.oncoming at source
    unfold Network.react Ircd.receive told
    simp only [net.knows, source, ne_eq, not_true_eq_false, if_false, cmdOf_eq_notice]
    exact ⟨trivial, trivial⟩

/-- The servers flood the tree with the message, to wherever operators are. -/
theorem Sends.floods (sends : net.Sends sender c text) (notice : Bool) :
    Floods net.graph (net.react sender) (net.home sender) (net.said sender c notice text)
      (net.Fits sender text)
      fun t => ∃ u ∈ net.members, (net.flags u).has CHFL_CHANOP = true ∧ net.home u = t where
  tree := net.tree
  nodup arrives := by
    rw [(sends.react_eq arrives).1]
    exact Network.sends_nodup ..
  onward arrives sent := by
    rw [(sends.react_eq arrives).1] at sent
    obtain ⟨adj, apart, line, -⟩ := Network.mem_sends _ _ _ _ sent
    exact ⟨adj, fun back => apart ((Network.oncoming_eq_iff arrives adj).mpr back), line⟩
  reaches {v _ _ _ _ _} arrives want ne adj closer back := by
    obtain ⟨u, member, operator, rfl⟩ := want
    rw [(sends.react_eq arrives).1]
    obtain ⟨lp, there, same⟩ := Network.exists_link member v
    refine Network.exists_sends _ _ _ _ there same ?_ adj closer
      fun same => back ((Network.oncoming_eq_iff arrives adj).mp same)
    rw [net.flags_eq there same]
    unfold prefixType
    split
    · exact operator
    · rw [Flags.has_or]
      exact Bool.or_eq_true_iff.mpr (.inl operator)

/-! ### What the members get -/

variable (net) (sender) (c) (notice) (text)

/-- The user sends the message; the servers have any marks from earlier messages. -/
def begins (marks : V → Serials) : Flood V Serials Utterance Written :=
  Flood.start (net.react sender) marks (net.home sender) (net.said sender c notice text)

def receipts (st : Flood V Serials Utterance Written) (u : U) : List Written :=
  (st.outputs.filter (net.isFor u)).map Prod.snd

def read (u : U) : Written :=
  .line (net.id (net.home u) u) (net.heard sender (net.home u)
    (net.told sender (net.noticeAt sender notice (net.home u)) text))

variable {net} {sender} {c} {notice} {text}

theorem Sends.logs (sends : net.Sends sender c text) (notice : Bool) (marks : V → Serials)
    (moves : List (Move V Serials)) :
    ((net.begins sender c notice text marks).run (net.react sender) moves).Logs fun v _ _ =>
      (net.shared sender c notice text v).filter fun event => (net.carry v event).isNone := by
  have first : (net.begins sender c notice text marks).Logs fun v _ _ =>
      (net.shared sender c notice text v).filter fun event => (net.carry v event).isNone :=
    logs_handle rfl (sends.react_eq .first).2
  exact (sends.floods notice).logs_run (fun arrives => (sends.react_eq arrives).2)
    ((sends.floods notice).spread_start marks) first moves

theorem mem_receipts {st : Flood V Serials Utterance Written}
    (logs : st.Logs fun v _ _ =>
      (net.shared sender c notice text v).filter fun event => (net.carry v event).isNone)
    {u : U} {d : V × Written} (put : d ∈ st.outputs) (isFor : net.isFor u d = true) :
    d.2 = net.read sender notice text u ∧
      (net.flags u).has (prefixType (net.letterAt sender c (net.home u))) = true := by
  have logged : st.outputs = _ := logs
  rw [logged] at put
  obtain ⟨h, -, written⟩ := List.mem_flatMap.mp put
  obtain ⟨event, local_, rfl⟩ := List.mem_map.mp written
  obtain ⟨u', -, -, here, rfl, lp, there, same, asked⟩ := Network.mem_outputs local_
  simp only [Network.isFor, Bool.and_eq_true, decide_eq_true_eq] at isFor
  obtain ⟨home, is⟩ := isFor
  rw [home] at is here there same asked ⊢
  obtain rfl := net.id_inj _ is
  rw [net.flags_eq there same] at asked
  exact ⟨rfl, asked⟩

/-- Wherever somebody is asked for there is an operator, the sender if nobody else. -/
theorem Sends.exists_operator (sends : net.Sends sender c text) {u : U} (member : u ∈ net.members)
    (asked : (net.flags u).has (prefixType (net.letterAt sender c (net.home u))) = true) :
    ∃ op ∈ net.members, (net.flags op).has CHFL_CHANOP = true ∧ net.home op = net.home u := by
  by_cases together : net.home u = net.home sender
  · exact ⟨sender, sends.member, sends.operator, together.symm⟩
  · unfold letterAt at asked
    rw [if_neg together] at asked
    exact ⟨u, member, asked, rfl⟩

/-- A member gets the message once if it has a status that its server is told of: one that was asked
for at the server of the sender, that of an operator elsewhere. -/
theorem Sends.receipts_eq (sends : net.Sends sender c text) (notice : Bool) (marks : V → Serials)
    (moves : List (Move V Serials))
    (drained : ((net.begins sender c notice text marks).run (net.react sender) moves).travelling = [])
    {u : U} (member : u ∈ net.members) (other : u ≠ sender) :
    net.receipts ((net.begins sender c notice text marks).run (net.react sender) moves) u =
      if (net.flags u).has (prefixType (net.letterAt sender c (net.home u))) then
        [net.read sender notice text u]
      else [] := by
  have floods := sends.floods notice
  have spread := floods.spread_run (floods.spread_start marks) moves
  have logs := sends.logs notice marks moves
  unfold receipts
  split
  · rename_i asked
    have each : ∀ {v arrival l}, Arrives net.graph (net.home sender)
        (net.said sender c notice text) (net.Fits sender text) v arrival l →
        (((net.shared sender c notice text v).filter
          fun event => (net.carry v event).isNone).countP fun event => net.isFor u (v, event)) =
          if v = net.home u then 1 else 0 := by
      intro v _ _ _
      unfold shared
      rw [Network.countP_isFor member other v fun lp there same =>
        congrArg (fun flags : Flags => flags.has _) (net.flags_eq there same)]
      split
      · rename_i here
        rw [here, asked, Bool.toNat_true]
      · rfl
    have once := (spread.countP_outputs logs each).trans
      (spread.handled_eq drained (sends.exists_operator member asked))
    rw [List.countP_eq_length_filter] at once
    obtain ⟨d, only⟩ := List.length_eq_one_iff.mp once
    have mine : d ∈ (((net.begins sender c notice text marks).run (net.react sender)
        moves).outputs.filter (net.isFor u)) := by
      rw [begins, only]
      exact List.mem_singleton_self d
    obtain ⟨put, isFor⟩ := List.mem_filter.mp mine
    rw [begins, only, List.map_singleton, (mem_receipts logs put isFor).1]
  · rename_i notAsked
    refine List.map_eq_nil_iff.mpr (List.filter_eq_nil_iff.mpr fun d put isFor => notAsked ?_)
    exact (mem_receipts logs put isFor).2

/-! ### When all get what they should -/

variable (net) (sender) (c) (notice) (text)

/-- Once nothing is on the way, every member but the sender with one of the statuses asked for got the
message once, with the command of the sender, and no other member got it. -/
def Reaches : Prop :=
  ∀ (marks : V → Serials) (moves : List (Move V Serials)),
    ((net.begins sender c notice text marks).run (net.react sender) moves).travelling = [] →
    ∀ u ∈ net.members, u ≠ sender →
      let lines :=
        net.receipts ((net.begins sender c notice text marks).run (net.react sender) moves) u
      if (net.flags u).has (prefixType c) then
        ∃ l, lines = [.line (net.id (net.home u) u) l] ∧ l.cmd = cmdOf notice
      else lines = []

/-- What may not be: an operator elsewhere who should get a PRIVMSG, and a voiced member elsewhere who
should get the message without being an operator. -/
def Faithful : Prop :=
  ∀ u ∈ net.members, net.home u ≠ net.home sender →
    ((net.flags u).has CHFL_CHANOP = true → notice = true) ∧
    (c = '+' → (net.flags u).has CHFL_VOICE = true → (net.flags u).has CHFL_CHANOP = true)

variable {net} {sender} {c} {notice} {text}

theorem has_prefixType_iff (status : c = '@' ∨ c = '+') (flags : Flags) :
    flags.has (prefixType c) = true ↔
      flags.has CHFL_CHANOP = true ∨ c = '+' ∧ flags.has CHFL_VOICE = true := by
  rcases status with rfl | rfl
  · exact ⟨.inl, fun has => has.elim id fun plus => absurd plus.1 (by decide)⟩
  · have both : prefixType '+' = CHFL_CHANOP ||| CHFL_VOICE := rfl
    rw [both, Flags.has_or, Bool.or_eq_true]
    exact ⟨Or.imp_right fun voice => ⟨rfl, voice⟩, Or.imp_right And.right⟩

theorem letterAt_home {u : U} (together : net.home u = net.home sender) :
    net.letterAt sender c (net.home u) = c := if_pos together

theorem noticeAt_home {u : U} (together : net.home u = net.home sender) :
    net.noticeAt sender notice (net.home u) = notice := if_pos together

theorem letterAt_away {u : U} (apart : net.home u ≠ net.home sender) :
    net.letterAt sender c (net.home u) = '@' := if_neg apart

theorem noticeAt_away {u : U} (apart : net.home u ≠ net.home sender) :
    net.noticeAt sender notice (net.home u) = true := if_neg apart

/-- **Exactly in these cases every member with a status asked for, and no other member, gets the
message once with the command of the sender.** -/
theorem status_run_iff [Fintype V] (sends : net.Sends sender c text) :
    net.Reaches sender c notice text ↔ net.Faithful sender c notice := by
  constructor
  · intro reaches u member apart
    have floods := sends.floods notice
    obtain ⟨moves, drained⟩ := floods.drains (floods.spread_start fun _ => .zero)
    have other : u ≠ sender := fun same => apart (same ▸ rfl)
    have got := reaches _ moves drained u member other
    rw [sends.receipts_eq notice _ moves drained member other, letterAt_away apart] at got
    have asked : ∀ status, (net.flags u).has status = true → status = CHFL_CHANOP ∨
        c = '+' ∧ status = CHFL_VOICE → (net.flags u).has (prefixType c) = true := by
      rintro status has (rfl | ⟨plus, rfl⟩)
      · exact (has_prefixType_iff sends.status _).mpr (.inl has)
      · exact (has_prefixType_iff sends.status _).mpr (.inr ⟨plus, has⟩)
    refine ⟨fun operator => ?_, fun plus voice => ?_⟩
    · rw [if_pos (asked _ operator (.inl rfl))] at got
      have told_ : (net.flags u).has (prefixType '@') = true := operator
      rw [if_pos told_] at got
      obtain ⟨l, line, command⟩ := got
      obtain ⟨⟨-, rfl⟩, -⟩ := List.cons.inj line |>.imp_left Written.line.inj
      rw [sends.heard_cmd, noticeAt_away apart] at command
      cases notice with
      | true => rfl
      | false => exact absurd command (by decide)
    · rw [if_pos (asked _ voice (.inr ⟨plus, rfl⟩))] at got
      obtain ⟨l, line, -⟩ := got
      by_contra noOperator
      have untold : ¬ (net.flags u).has (prefixType '@') = true := noOperator
      rw [if_neg untold] at line
      cases line
  · intro faithful marks moves drained u member other
    show if _ then _ else _
    rw [sends.receipts_eq notice marks moves drained member other]
    by_cases together : net.home u = net.home sender
    · rw [letterAt_home together]
      split
      · refine ⟨_, rfl, ?_⟩
        rw [sends.heard_cmd, noticeAt_home together]
      · rfl
    · obtain ⟨command, voiced⟩ := faithful u member together
      rw [letterAt_away together]
      split
      · rename_i asked
        have operator : (net.flags u).has CHFL_CHANOP = true :=
          ((has_prefixType_iff sends.status _).mp asked).elim id fun voice => voiced voice.1 voice.2
        have told_ : (net.flags u).has (prefixType '@') = true := operator
        rw [if_pos told_]
        refine ⟨_, rfl, ?_⟩
        rw [sends.heard_cmd, noticeAt_away together, command operator]
      · rename_i notAsked
        refine if_neg fun operator => notAsked ?_
        exact (has_prefixType_iff sends.status _).mpr (.inl operator)

/-! ### Two servers -/

/-- The sample network; ann is operator, and so is cat on the other server. -/
def sample : StatusNetwork Bool (Fin 3) where
  toNetwork := sampleNetwork 0 fun u => if u.val = 1 then 0 else CHFL_CHANOP
  flags u := if u.val = 1 then 0 else CHFL_CHANOP
  flags_eq {v lp u} there same := by
    have known : lp = ⟨2, CHFL_CHANOP⟩ ∨ lp = ⟨3, 0⟩ ∨ lp = ⟨4, CHFL_CHANOP⟩ := by
      simpa [sampleNetwork] using there
    cases v <;> rcases known with rfl | rfl | rfl <;> fin_cases u <;>
      first | rfl | exact absurd same (by decide)

theorem sample_sends : sample.Sends 0 '@' ['h', 'i'] :=
  ⟨.inl rfl, by decide, by decide, by decide, by decide, by decide +kernel⟩

/-- A NOTICE to the operators reaches them. -/
theorem status_run_iff_sample : sample.Reaches 0 '@' true ['h', 'i'] :=
  (status_run_iff sample_sends).mpr fun _ _ _ => ⟨fun _ => rfl, fun plus => absurd plus (by decide)⟩

/-- A PRIVMSG to the operators comes to cat as a NOTICE. -/
theorem not_status_run : ¬ ∀ (net : StatusNetwork Bool (Fin 3)) (sender : Fin 3) (c : Char)
    (notice : Bool) (text : Text), net.Sends sender c text → net.Reaches sender c notice text := by
  intro all
  have got := all sample 0 '@' false _ sample_sends (fun _ => .zero) [.deliver 0]
    (List.isEmpty_iff.mp (by decide +kernel)) 2 (by decide) (by decide)
  have lines : sample.receipts ((sample.begins 0 '@' false ['h', 'i'] fun _ => .zero).run
      (sample.react 0) [.deliver 0]) 2 =
      [.line 4 ⟨"ann!b@b.org", "NOTICE", "@#c", "hi"⟩] := by decide +kernel
  rw [if_pos (by decide), lines] at got
  obtain ⟨l, line, command⟩ := got
  obtain rfl := (Written.line.inj (List.cons.inj line).1).2
  exact absurd command (by decide)

end StatusNetwork

end PtlinkIrcd
