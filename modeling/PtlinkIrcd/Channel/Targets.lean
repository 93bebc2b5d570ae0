/-
**The targets of one message.**

The loop of `m_message` over the comma-separated targets, with the branches for nicks, masks and
users at a server. What other parts of the server decide about a message to a nick is left open
(`NickFilters`).

* `Carried` — what one round of the loop leaves to the next.
* `Ircd.messageTarget` — one round; `Ircd.messages` — the command.
* `Ircd.messageTarget_marks` — what a round writes does not depend on the marks.
* `Ircd.messages_eq_of_transparent` — **targets do not interfere** when every one but the last
  leaves the loop as it found it, whatever the bound on their number.
* `Ircd.transparent_iff` — which targets do that.
* `Ircd.not_independent_of_stop` — one that ends the loop does not.
* `Ircd.messages_independent` — **the bound of the server is the largest one with which targets never
  interfere.**
* `Ircd.messages_eq_m_message` — for one channel this is the `m_message` of the networks.
-/

import PtlinkIrcd.Channel.Delivery

set_option linter.unusedSectionVars false

namespace PtlinkIrcd

def MAX_MULTI_MESSAGES : Nat := 1

/-! ### The environment -/

/-- What other parts of the server say about a message to a nick, a mask or a user at a server. -/
structure NickFilters where
  is_silenced : ClientId → ClientId → Bool
  /-- `CheckTargetLimit && check_target_limit`. -/
  check_target_limit : ClientId → ClientId → Text → Bool
  ForceServicesAlias : Bool
  /-- `m_nickserv` and the like. -/
  services : ClientId → Text → List Written
  /-- The refusal of a file, if it is refused. -/
  dccDenied : ClientId → Text → Option (List Written)
  /-- `check_for_ctcp && check_for_flud`. -/
  check_for_flud : ClientId → ClientId → Text → Bool
  /-- Whether the drone protection of a user stops the message, with its notices. -/
  drone : ClientId → ClientId → Bool × List Written
  away : ClientId → Option Text
  sendto_match_butone : ClientId → ClientId → Utterance → List Written
  sendto_realops : Text → List Written
  find_server : Text → Option ClientId
  find_userhost : Text → Option Text → Option ClientId × Nat

/-- The services with an alias, and how much of the name counts. -/
def serviceNames : List Text :=
  ["NickServ", "ChanServ", "MemoServ", "NewsServ", "OperServ", "StatServ", "BotServ"].map
    String.toList

/-- `!strncasecmp(acptr->name, service, strlen(service))` for one of them. -/
def isServiceName (name : Text) : Bool :=
  serviceNames.any fun service =>
    (name.take service.length).map lowerLetter = service.map lowerLetter

/-- A CTCP that sends or resumes a file. -/
def isDccSend (text : Text) : Bool :=
  text.head? = some (Char.ofNat 1) && 11 < text.length &&
    ["DCC SEND", "DCC RESUME"].any fun word =>
      (text.tail.take word.length).map lowerLetter = word.toList.map lowerLetter

/-- What a round of the loop leaves to the next: `type`, `parv[2]` and the marks of `send.c`. -/
structure Carried where
  type : Flags
  text : Text
  marks : Serials

/-- The outcome of a round: what it writes, and whether the loop goes on. -/
structure Round where
  carried : Carried
  written : List Written
  goesOn : Bool

namespace Ircd

variable (s : Ircd) (f : Filters) (p : NickFilters) (fd : ClientId → Nat)

/-! ### The branches -/

/-- The branch for a user at a server: it always goes on. -/
def messageAt (sptr : ClientId) (source nick text : Text) (notice : Bool) : List Written :=
  let l : Utterance := ⟨source, cmdOf notice, nick, text⟩
  let unknown := [.reply sptr ERR_NOSUCHNICK [nick]]
  let at_ := nick.dropWhile (· ≠ '@')
  match if at_ = [] then none else p.find_server at_.tail with
  | none => unknown
  | some acptr =>
    let name := nick.takeWhile (· ≠ '@')
    if '%' ∈ nick ∧ !(s.client sptr).isAnOper then unknown
    else if !(s.client acptr).isMe then [.line acptr l.cut]
    else if irccmp name "opers".toList = 0 ∧ (s.client sptr).isAnOper then p.sendto_realops text
    else
      let host := name.dropWhile (· ≠ '%')
      match p.find_userhost (name.takeWhile (· ≠ '%'))
        (if host = [] then none else some host.tail) with
      | (none, _) => unknown
      | (some acptr, count) =>
        if count = 1 then [s.vsendto_prefix_one acptr sptr l]
        else if notice then []
        else [.reply sptr ERR_TOOMANYTARGETS [nick]]

/-- The branch for a nick: what is written, and whether the loop goes on. -/
def messageNick (sptr acptr : ClientId) (source nick text : Text) (notice : Bool) :
    List Written × Bool :=
  let x := s.client sptr
  let y := s.client acptr
  if !x.isService && !x.isIdentified && (y.umodes.has UMODE_REGMSG || s.secure_mode) then
    ([], false)
  else if p.is_silenced sptr acptr then ([], false)
  else if x.myClient && p.check_target_limit sptr acptr text then ([], false)
  else if x.myClient && isServiceName y.name then
    if p.ForceServicesAlias && text.head? ≠ some (Char.ofNat 1) then
      ([.notice sptr ("For this service please use /".toList ++ y.name)], false)
    else (p.services acptr text, false)
  else
    match if !notice && x.myClient && isDccSend text then p.dccDenied sptr text else none with
    | some refusal => (refusal, false)
    | none =>
      if !notice && y.myConnect && p.check_for_flud sptr acptr text then ([], false)
      else
        let drone := if y.myConnect && x.isClient && !x.isService && !x.isAnOper then
          p.drone sptr acptr else (false, [])
        if drone.1 then (drone.2, false)
        else
          let away := if !notice && x.myConnect then p.away acptr else none
          (drone.2 ++ away.toList.map (fun text => .reply sptr RPL_AWAY [y.name, text]) ++
            [s.vsendto_prefix_one acptr sptr ⟨source, cmdOf notice, nick, text⟩], true)

/-- `type` and the target after the test for a status letter. -/
def statusOf (type : Flags) (nick : Text) : Flags × Text :=
  let type :=
    if nick.head? = some '@' then MODE_CHANOP
    else if nick.head? = some '+' then MODE_CHANOP ||| MODE_VOICE
    else type
  if type ≠ 0 ∧ (nick.tail.head? = some '@' ∨ nick.tail.head? = some '+') then
    (MODE_CHANOP ||| MODE_VOICE, '@' :: nick.tail.tail)
  else (type, nick)

/-- The branch for a status of a channel goes on when it refuses. -/
def statusGoesOn (cptr sptr : ClientId) (nick : Text) : Bool :=
  match s.hash_find_channel nick.tail with
  | none => true
  | some chptr => (s.client cptr).myClient && !(s.client sptr).isService &&
      !(s.chan chptr).is_chan_op sptr

/-- The branches for what is no channel, with the text and the marks as they are. -/
def messageOther (cptr sptr : ClientId) (source : Text) (notice : Bool) (nick text : Text) :
    List Written × Bool :=
  let nick := nick.dropWhile fun c => c = '.' || c = '@' || c = '+'
  match s.find_person nick with
  | some acptr => s.messageNick p sptr acptr source nick text notice
  | none =>
    if nick.head? = some '$' ∨ nick.head? = some '#' then
      if !(s.client sptr).isAnOper && !(s.client sptr).isService then
        ([.reply sptr ERR_NOSUCHNICK [nick]], false)
      else (p.sendto_match_butone cptr sptr ⟨source, cmdOf notice, nick, text⟩, true)
    else (s.messageAt p sptr source nick text notice, true)

def messageTarget (cptr sptr : ClientId) (source : Text) (notice : Bool) (c : Carried)
    (nick : Text) : Round :=
  match if isChanPrefix nick && (s.client sptr).isPerson then s.hash_find_channel nick
    else none with
  | some chptr =>
    let x := s.client sptr
    let result := s.messageChannel f fd cptr sptr source nick c.text notice chptr c.marks
    let passes := f.can_send sptr chptr c.text = 0
    let limited := passes ∧ (x.myClient && f.check_target_limit sptr chptr c.text) = true
    let text :=
      if passes ∧ ¬ limited ∧ (x.myClient && (s.chan chptr).mode.mode.has MODE_NOCOLORS) = true then
        strip_control_codes c.text
      else c.text
    ⟨⟨c.type, text, result.1⟩, result.2, !limited⟩
  | none =>
    let status := statusOf c.type nick
    if status.1 ≠ 0 then
      let result := s.messageStatus fd cptr sptr status.1 status.2 c.text notice c.marks
      ⟨⟨status.1, c.text, result.1⟩, result.2, s.statusGoesOn cptr sptr status.2⟩
    else
      let result := s.messageOther p cptr sptr source notice nick c.text
      ⟨c, result.1, result.2⟩

/-- The loop, with the number of rounds left: at its end the targets not looked at, if the command
goes on then. -/
def messageRounds (cptr sptr : ClientId) (source : Text) (notice : Bool) :
    Nat → List Text → Carried → List Written × Serials × Option (List Text)
  | 0, rest, c => ([], c.marks, some rest)
  | _ + 1, [], c => ([], c.marks, some [])
  | left + 1, nick :: rest, c =>
    let round := s.messageTarget f p fd cptr sptr source notice c nick
    if round.goesOn then
      let later := messageRounds cptr sptr source notice left rest round.carried
      (round.written ++ later.1, later.2)
    else (round.written, round.carried.marks, none)

end Ircd

/-- The targets that `canonize` leaves: the first of those that are equal up to case. -/
def canonize : List Text → List Text
  | [] => []
  | target :: rest => target :: (canonize rest).filter fun other => irccmp other target ≠ 0

namespace Ircd

variable (s : Ircd) (f : Filters) (p : NickFilters) (fd : ClientId → Nat)

def targetsOf (sptr : ClientId) (receivers : Text) : List Text :=
  let tokens := strtoken ',' receivers
  let tokens :=
    if (s.client sptr).myConnect && receivers.contains ',' then canonize tokens else tokens
  if tokens = [] then [receivers] else tokens

/-- `m_message`, with `most` for `MAX_MULTI_MESSAGES`. -/
def messages (most : Nat) (cptr sptr : ClientId) (parv : List Text) (notice : Bool)
    (marks : Serials) : Serials × List Written :=
  let receivers := parv.getD 1 []
  let text := parv.getD 2 []
  if receivers = [] then (marks, [.reply sptr ERR_NORECIPIENT [cmdOf notice]])
  else if text = [] then (marks, [.reply sptr ERR_NOTEXTTOSEND []])
  else
    match s.held f sptr text with
    | some answer => (marks, answer)
    | none =>
      let rounds := s.messageRounds f p fd cptr sptr (parv.getD 0 []) notice most
        (s.targetsOf sptr receivers) ⟨0, text, marks⟩
      let many :=
        if notice && rounds.2.2.any (· ≠ []) then
          [.notice sptr "Too many targets on NOTICE".toList]
        else []
      (rounds.2.1, rounds.1 ++ many)

/-! ### What a round writes -/

/-- The lines among what is written: who gets which text. -/
def lines (written : List Written) : List (ClientId × Utterance) :=
  written.filterMap fun w =>
    match w with
    | .line acptr l => some (acptr, l)
    | _ => none

/-- The same messages one by one, each target in a message of its own. -/
def separately (most : Nat) (cptr sptr : ClientId) (source text : Text) (notice : Bool) :
    List Text → Serials → List Written
  | [], _ => []
  | target :: rest, marks =>
    let message := s.messages f p fd most cptr sptr [source, target, text] notice marks
    message.2 ++ separately most cptr sptr source text notice rest message.1

section Rounds

variable {s f p fd} {cptr sptr : ClientId} {source text nick : Text} {notice : Bool}

theorem sendto_channel_butone_marks (one : Option ClientId) (chptr : ChannelId) (l : Utterance)
    (marks other : Serials) : (s.sendto_channel_butone fd one sptr chptr l marks).2 =
      (s.sendto_channel_butone fd one sptr chptr l other).2 := by
  unfold sendto_channel_butone
  rw [sendLoop_snd, sendLoop_snd]

theorem messageChannel_marks (chptr : ChannelId) (marks other : Serials) :
    (s.messageChannel f fd cptr sptr source nick text notice chptr marks).2 =
      (s.messageChannel f fd cptr sptr source nick text notice chptr other).2 := by
  unfold messageChannel
  dsimp only
  split
  · split
    · rfl
    · exact sendto_channel_butone_marks ..
  · split <;> rfl

theorem messageStatus_marks (type : Flags) (marks other : Serials) :
    (s.messageStatus fd cptr sptr type nick text notice marks).2 =
      (s.messageStatus fd cptr sptr type nick text notice other).2 := by
  unfold messageStatus
  dsimp only
  split
  · rfl
  · split
    · rfl
    · unfold sendto_channel_type
      rw [sendLoop_snd, sendLoop_snd]

/-- **The marks change nothing** about what a round writes, whether the loop goes on and with which
type and text. -/
theorem messageTarget_marks (s : Ircd) (f : Filters) (p : NickFilters) (fd : ClientId → Nat)
    (cptr sptr : ClientId) (source text nick : Text) (notice : Bool) (type : Flags)
    (marks other : Serials) :
    let round := s.messageTarget f p fd cptr sptr source notice ⟨type, text, marks⟩ nick
    let round' := s.messageTarget f p fd cptr sptr source notice ⟨type, text, other⟩ nick
    round.written = round'.written ∧ round.goesOn = round'.goesOn ∧
      round.carried.type = round'.carried.type ∧ round.carried.text = round'.carried.text := by
  intro round round'
  unfold round round' messageTarget
  split
  · exact ⟨messageChannel_marks .., rfl, rfl, rfl⟩
  · dsimp only
    split
    · exact ⟨messageStatus_marks .., rfl, rfl, rfl⟩
    · exact ⟨rfl, rfl, rfl, rfl⟩

/-- A target leaves the loop as it found it: no type, and the text that was sent. -/
structure Transparent (s : Ircd) (f : Filters) (p : NickFilters) (fd : ClientId → Nat)
    (cptr sptr : ClientId) (source text : Text) (notice : Bool) (nick : Text) : Prop where
  goesOn : ∀ marks,
    (s.messageTarget f p fd cptr sptr source notice ⟨0, text, marks⟩ nick).goesOn = true
  type : ∀ marks,
    (s.messageTarget f p fd cptr sptr source notice ⟨0, text, marks⟩ nick).carried.type = 0
  text : ∀ marks,
    (s.messageTarget f p fd cptr sptr source notice ⟨0, text, marks⟩ nick).carried.text = text

def targetWrites (s : Ircd) (f : Filters) (p : NickFilters) (fd : ClientId → Nat)
    (cptr sptr : ClientId) (source text : Text) (notice : Bool) (nick : Text) : List Written :=
  (s.messageTarget f p fd cptr sptr source notice ⟨0, text, Serials.zero⟩ nick).written

/-- **A loop over targets that leave it as they found it**, up to the last one, writes what each
target by itself gets. -/
theorem messageRounds_written (left : Nat) {targets : List Text} (few : targets.length ≤ left)
    (transparent : ∀ target ∈ targets.dropLast,
      Transparent s f p fd cptr sptr source text notice target) (marks : Serials) :
    (s.messageRounds f p fd cptr sptr source notice left targets ⟨0, text, marks⟩).1 =
      targets.flatMap (targetWrites s f p fd cptr sptr source text notice) := by
  induction targets generalizing left marks with
  | nil => cases left <;> rfl
  | cons target rest ih =>
    obtain ⟨left, rfl⟩ : ∃ n, left = n + 1 := ⟨left - 1, by simp at few; omega⟩
    have few : rest.length ≤ left := by simpa using few
    have own := (messageTarget_marks s f p fd cptr sptr source text target notice 0 marks
      Serials.zero).1
    rw [List.flatMap_cons]
    unfold messageRounds
    dsimp only
    cases rest with
    | nil =>
      split
      · have none_ : ∀ c, (s.messageRounds f p fd cptr sptr source notice left [] c).1 = [] := by
          intro c
          cases left <;> rfl
        rw [none_]
        exact congrArg (· ++ []) own
      · rw [List.flatMap_nil, List.append_nil]
        exact own
    | cons next rest =>
      have first := transparent target (by simp)
      rw [if_pos (first.goesOn marks)]
      have carried :
          (s.messageTarget f p fd cptr sptr source notice ⟨0, text, marks⟩ target).carried =
          ⟨0, text, (s.messageTarget f p fd cptr sptr source notice ⟨0, text, marks⟩
            target).carried.marks⟩ := by
        have type := first.type marks
        have text' := first.text marks
        generalize
          (s.messageTarget f p fd cptr sptr source notice ⟨0, text, marks⟩ target).carried = c
          at type text'
        obtain ⟨_, _, _⟩ := c
        obtain rfl := type
        obtain rfl := text'
        rfl
      rw [carried, ih left few fun target member => transparent target (by
        rw [List.dropLast_cons_of_ne_nil (by simp)]
        exact List.mem_cons_of_mem _ member)]
      exact congrArg (· ++ _) own

end Rounds

/-! ### One message and many -/

theorem lines_append (written more : List Written) :
    lines (written ++ more) = lines written ++ lines more :=
  List.filterMap_append ..

theorem lines_held {s : Ircd} {f : Filters} {sptr : ClientId} {text : Text} {answer : List Written}
    (held : s.held f sptr text = some answer) : lines answer = [] := by
  unfold Ircd.held at held
  dsimp only at held
  split at held
  · cases held
    rfl
  · split at held
    · split at held
      · cases held
        rfl
      · split at held
        · cases held
          rfl
        · cases held
    · cases held

end Ircd

/-- A target: not empty, and without a comma. -/
def IsTarget (target : Text) : Prop := Lib.IsWord (· == ',') target

theorem canonize_of_distinct {targets : List Text}
    (distinct : targets.Pairwise fun a b => irccmp b a ≠ 0) : canonize targets = targets := by
  induction targets with
  | nil => rfl
  | cons target rest ih =>
    obtain ⟨apart, distinct⟩ := List.pairwise_cons.mp distinct
    rw [canonize, ih distinct, List.filter_eq_self.mpr fun other member =>
      decide_eq_true (apart other member)]

namespace Ircd

section Whole

variable {s : Ircd} {f : Filters} {p : NickFilters} {fd : ClientId → Nat}
variable {cptr sptr : ClientId} {source text : Text} {notice : Bool} {targets : List Text}

/-- **The targets of a message are those that it lists.** -/
theorem targetsOf_intercalate (some_ : targets ≠ []) (words : ∀ target ∈ targets, IsTarget target)
    (distinct : targets.Pairwise fun a b => irccmp b a ≠ 0) :
    s.targetsOf sptr ([','].intercalate targets) = targets := by
  unfold targetsOf
  have tokens : strtoken ',' ([','].intercalate targets) = targets :=
    Lib.words_intercalate rfl words
  simp only [tokens, canonize_of_distinct distinct, ite_self, if_neg some_]

/-- What a message writes to others, when nothing holds it back before its targets are looked at. -/
theorem lines_messages (p : NickFilters) (fd : ClientId → Nat) (cptr : ClientId) (source : Text)
    (notice : Bool) (most : Nat) (passes : s.held f sptr text = none) (text_ne : text ≠ [])
    (words : ∀ target ∈ targets, IsTarget target)
    (distinct : targets.Pairwise fun a b => irccmp b a ≠ 0) (few : targets.length ≤ most)
    (transparent : ∀ target ∈ targets.dropLast,
      Transparent s f p fd cptr sptr source text notice target) (marks : Serials) :
    lines (s.messages f p fd most cptr sptr [source, [','].intercalate targets, text] notice
        marks).2 =
      targets.flatMap fun target =>
        lines (targetWrites s f p fd cptr sptr source text notice target) := by
  unfold messages
  by_cases none_ : targets = []
  · subst none_
    rfl
  have receivers : [','].intercalate targets ≠ [] := by
    intro empty
    have tokens : strtoken ',' ([','].intercalate targets) = targets :=
      Lib.words_intercalate rfl words
    rw [empty, strtoken, Lib.words_nil] at tokens
    exact none_ tokens.symm
  simp only [List.getD_cons_succ, List.getD_cons_zero, if_neg receivers, if_neg text_ne, passes,
    targetsOf_intercalate none_ words distinct]
  have quiet : ∀ b : Bool, lines (if b = true then
      [.notice sptr "Too many targets on NOTICE".toList] else []) = [] := by
    intro b
    cases b <;> rfl
  rw [lines_append, quiet, List.append_nil, messageRounds_written most few transparent]
  unfold lines
  rw [List.filterMap_flatMap]

/-- A message that is held back, or has no text, writes to nobody else. -/
theorem lines_messages_of_held (most : Nat) (receivers : Text) (marks : Serials)
    (held : text = [] ∨ s.held f sptr text ≠ none) :
    lines (s.messages f p fd most cptr sptr [source, receivers, text] notice marks).2 = [] := by
  unfold messages
  simp only [List.getD_cons_succ, List.getD_cons_zero]
  split
  · rfl
  · split
    · rfl
    · rename_i text_ne
      obtain ⟨answer, held⟩ := Option.ne_none_iff_exists'.mp (held.resolve_left text_ne)
      simp only [held]
      exact lines_held held

/-- **Targets do not interfere**, whatever the bound on their number, when each of them but the last
leaves the loop as it found it. -/
theorem messages_eq_of_transparent (most : Nat) (words : ∀ target ∈ targets, IsTarget target)
    (distinct : targets.Pairwise fun a b => irccmp b a ≠ 0) (few : targets.length ≤ most)
    (transparent : ∀ target ∈ targets.dropLast,
      Transparent s f p fd cptr sptr source text notice target) (marks : Serials) :
    lines (s.messages f p fd most cptr sptr [source, [','].intercalate targets, text] notice
        marks).2 =
      lines (s.separately f p fd most cptr sptr source text notice targets marks) := by
  by_cases held : text = [] ∨ s.held f sptr text ≠ none
  · rw [lines_messages_of_held most _ marks held]
    clear words distinct few transparent
    induction targets generalizing marks with
    | nil => rfl
    | cons target rest ih =>
      unfold separately
      rw [lines_append, lines_messages_of_held most _ marks held, ← ih]
      rfl
  · rw [not_or, not_not] at held
    rw [lines_messages p fd cptr source notice most held.2 held.1 words distinct few transparent]
    clear distinct transparent
    induction targets generalizing marks with
    | nil => rfl
    | cons target rest ih =>
      have positive : 1 ≤ most := by
        rw [List.length_cons] at few
        omega
      have own := lines_messages p fd cptr source notice most held.2 held.1
        (fun other member => words other (by
          rw [List.mem_singleton.mp member]
          exact List.mem_cons_self))
        (List.pairwise_singleton _ _) positive nofun marks
      rw [List.intercalate_singleton, List.flatMap_singleton] at own
      unfold separately
      rw [List.flatMap_cons, lines_append, own,
        ih (fun other member => words other (List.mem_cons_of_mem _ member)) (by
          rw [List.length_cons] at few
          omega)]

/-! ### The branches for channels -/

theorem chanop_ne_zero : MODE_CHANOP ≠ 0 := by decide

theorem chanop_voice_ne_zero : MODE_CHANOP ||| MODE_VOICE ≠ 0 := by decide

theorem statusType_ne_zero {nick name : Text} {type : Flags}
    (status : statusType nick = some (type, name)) : type ≠ 0 := by
  have single : ∀ c, prefixType c ≠ 0 := fun c => by
    unfold prefixType
    split
    · exact chanop_ne_zero
    · exact chanop_voice_ne_zero
  unfold statusType at status
  split at status
  · split at status
    · split at status
      · split at status
        · cases status
          exact chanop_voice_ne_zero
        · cases status
          exact single _
      · cases status
        exact single _
    · cases status
  · cases status

/-- The status letters of a target that no target before it left a type for. -/
theorem statusOf_zero (nick : Text) : statusOf 0 nick = (statusType nick).getD (0, nick) := by
  unfold statusOf statusType prefixType
  cases nick with
  | nil => rfl
  | cons c rest =>
    cases rest with
    | nil =>
      by_cases chanop : c = '@'
      · subst chanop
        rfl
      · by_cases voice : c = '+'
        · subst voice
          rfl
        · simp [chanop, voice]
    | cons d chname =>
      by_cases chanop : c = '@'
      · subst chanop
        by_cases second : d = '@' ∨ d = '+'
        · simp [second]
          exact chanop_ne_zero
        · simp [second]
      · by_cases voice : c = '+'
        · subst voice
          by_cases second : d = '@' ∨ d = '+'
          · simp [second]
            decide
          · simp [second]
        · simp [chanop, voice]

theorem messageRounds_one (c : Carried) (nick : Text) :
    s.messageRounds f p fd cptr sptr source notice MAX_MULTI_MESSAGES [nick] c =
      ((s.messageTarget f p fd cptr sptr source notice c nick).written,
        (s.messageTarget f p fd cptr sptr source notice c nick).carried.marks,
        if (s.messageTarget f p fd cptr sptr source notice c nick).goesOn then some []
        else none) := by
  show (if (s.messageTarget f p fd cptr sptr source notice c nick).goesOn = true then
    ((s.messageTarget f p fd cptr sptr source notice c nick).written ++ [], _, some []) else _) = _
  split
  · rw [List.append_nil]
  · rfl

/-- **For a channel**, with or without a status, a message to one target is as `m_message` has it. -/
theorem messages_eq_m_message {parv : List Text} {marks : Serials}
    (single : ',' ∉ parv.getD 1 [])
    (here : ∀ nick, .elsewhere nick ∉ (s.m_message f fd cptr sptr parv notice marks).2) :
    s.messages f p fd MAX_MULTI_MESSAGES cptr sptr parv notice marks =
      s.m_message f fd cptr sptr parv notice marks := by
  unfold m_message at here ⊢
  unfold messages
  dsimp only at here ⊢
  by_cases receivers : parv.getD 1 [] = []
  · rw [if_pos receivers, if_pos receivers]
  rw [if_neg receivers] at here
  rw [if_neg receivers, if_neg receivers]
  by_cases text_ne : parv.getD 2 [] = []
  · rw [if_pos text_ne, if_pos text_ne]
  rw [if_neg text_ne] at here
  rw [if_neg text_ne, if_neg text_ne]
  cases held : s.held f sptr (parv.getD 2 []) with
  | some answer => rfl
  | none =>
    rw [held] at here
    have word : IsTarget (parv.getD 1 []) := ⟨receivers, fun c member =>
      beq_eq_false_iff_ne.mpr fun comma => single (comma ▸ member)⟩
    have tokens : s.targetsOf sptr ([','].intercalate [parv.getD 1 []]) = [parv.getD 1 []] :=
      targetsOf_intercalate (List.cons_ne_nil _ _)
        (fun target member => by rw [List.mem_singleton.mp member]; exact word)
        (List.pairwise_singleton _ _)
    rw [List.intercalate_singleton] at tokens
    dsimp only at here ⊢
    rw [receiver_eq receivers single] at here ⊢
    rw [tokens, messageRounds_one]
    have few : ∀ b : Bool, (notice && (if b = true then some ([] : List Text) else none).any
        (· ≠ [])) = false := by
      intro b
      cases b <;> simp
    rw [few, if_neg Bool.false_ne_true, List.append_nil]
    unfold messageTarget
    cases channel : (if isChanPrefix (parv.getD 1 []) && (s.client sptr).isPerson then
      s.hash_find_channel (parv.getD 1 []) else none) with
    | some chptr => rfl
    | none =>
      rw [channel] at here
      rw [statusOf_zero]
      cases status : statusType (parv.getD 1 []) with
      | none =>
        rw [status] at here
        exact absurd List.mem_cons_self (here _)
      | some result =>
        obtain ⟨type, nick⟩ := result
        dsimp only [Option.getD_some]
        rw [if_pos (statusType_ne_zero status)]

/-! ### Which targets are no obstacle -/

def nickStops (s : Ircd) (p : NickFilters) (sptr acptr : ClientId) (text : Text) (notice : Bool) :
    Bool :=
  let x := s.client sptr
  let y := s.client acptr
  !x.isService && !x.isIdentified && (y.umodes.has UMODE_REGMSG || s.secure_mode) ||
  p.is_silenced sptr acptr ||
  x.myClient && p.check_target_limit sptr acptr text ||
  x.myClient && isServiceName y.name ||
  !notice && x.myClient && isDccSend text && (p.dccDenied sptr text).isSome ||
  !notice && y.myConnect && p.check_for_flud sptr acptr text ||
  y.myConnect && x.isClient && !x.isService && !x.isAnOper && (p.drone sptr acptr).1

theorem messageNick_goesOn (acptr : ClientId) :
    (s.messageNick p sptr acptr source nick text notice).2 =
      !s.nickStops p sptr acptr text notice := by
  unfold messageNick nickStops
  dsimp only
  generalize (!(s.client sptr).isService && !(s.client sptr).isIdentified &&
    ((s.client acptr).umodes.has UMODE_REGMSG || s.secure_mode)) = unknown
  cases unknown with
  | true => rfl
  | false =>
    cases p.is_silenced sptr acptr with
    | true => rfl
    | false =>
      generalize ((s.client sptr).myClient && p.check_target_limit sptr acptr text) = limited
      cases limited with
      | true => rfl
      | false =>
        cases service : ((s.client sptr).myClient && isServiceName (s.client acptr).name) with
        | true =>
          simp only [Bool.false_or, Bool.true_or, Bool.false_eq_true, if_false, if_true]
          split <;> rfl
        | false =>
          simp only [Bool.false_or, Bool.false_eq_true, if_false]
          generalize (!notice && (s.client sptr).myClient && isDccSend text) = file
          generalize (!notice && (s.client acptr).myConnect &&
            p.check_for_flud sptr acptr text) = flood
          generalize ((s.client acptr).myConnect && (s.client sptr).isClient &&
            !(s.client sptr).isService && !(s.client sptr).isAnOper) = guarded
          obtain ⟨stops, notices⟩ := p.drone sptr acptr
          cases file <;> cases p.dccDenied sptr text <;> cases flood <;> cases guarded <;>
            cases stops <;> rfl

/-- A target that the targets after it take no notice of: a channel, if the limit of the sender does not
stop the message and nothing is stripped from it; or what is no channel, has no status before it, and is
neither a nick that ends the loop nor a mask that the sender may not use. -/
def Harmless (s : Ircd) (f : Filters) (p : NickFilters) (sptr : ClientId) (text : Text)
    (notice : Bool) (nick : Text) : Prop :=
  match if isChanPrefix nick && (s.client sptr).isPerson then s.hash_find_channel nick
    else none with
  | some chptr => f.can_send sptr chptr text = 0 → (s.client sptr).myClient = true →
      f.check_target_limit sptr chptr text = false ∧
        ((s.chan chptr).mode.mode.has MODE_NOCOLORS = true → strip_control_codes text = text)
  | none =>
    let name := nick.dropWhile fun c => c = '.' || c = '@' || c = '+'
    statusType nick = none ∧
      match s.find_person name with
      | some acptr => s.nickStops p sptr acptr text notice = false
      | none => name.head? = some '$' ∨ name.head? = some '#' →
          (s.client sptr).isAnOper = true ∨ (s.client sptr).isService = true

theorem messageOther_goesOn (name nick : Text)
    (same : (nick.dropWhile fun c => c = '.' || c = '@' || c = '+') = name) :
    (s.messageOther p cptr sptr source notice nick text).2 = true ↔
      match s.find_person name with
      | some acptr => s.nickStops p sptr acptr text notice = false
      | none => name.head? = some '$' ∨ name.head? = some '#' →
          (s.client sptr).isAnOper = true ∨ (s.client sptr).isService = true := by
  unfold messageOther
  dsimp only
  rw [same]
  cases s.find_person name with
  | some acptr =>
    dsimp only
    rw [messageNick_goesOn, Bool.not_eq_true']
  | none =>
    dsimp only
    split
    · rename_i mask
      split
      · rename_i plain
        simp_all
      · rename_i may
        refine iff_of_true rfl fun _ => ?_
        simpa [Classical.or_iff_not_imp_left] using may
    · rename_i plain
      exact iff_of_true rfl fun mask => absurd mask plain

theorem messageTarget_keeps_iff (marks : Serials) :
    ((s.messageTarget f p fd cptr sptr source notice ⟨0, text, marks⟩ nick).goesOn = true ∧
      (s.messageTarget f p fd cptr sptr source notice ⟨0, text, marks⟩ nick).carried.type = 0 ∧
      (s.messageTarget f p fd cptr sptr source notice ⟨0, text, marks⟩ nick).carried.text = text) ↔
      Harmless s f p sptr text notice nick := by
  unfold messageTarget Harmless
  cases (if isChanPrefix nick && (s.client sptr).isPerson then s.hash_find_channel nick
    else none) with
  | some chptr =>
    by_cases passes : f.can_send sptr chptr text = 0
    · cases mine : (s.client sptr).myClient <;>
        cases limited : f.check_target_limit sptr chptr text <;> simp [passes, mine, limited]
    · simp only [passes, false_and, decide_false, Bool.not_false, if_false, and_self,
        false_implies]
  | none =>
    dsimp only
    rw [statusOf_zero]
    cases status : statusType nick with
    | some result =>
      rw [Option.getD_some, if_pos (statusType_ne_zero status)]
      exact iff_of_false (fun all => statusType_ne_zero status all.2.1) fun all => nomatch all.1
    | none =>
      rw [Option.getD_none]
      simp only [ne_eq, not_true_eq_false, if_false, and_true, true_and]
      exact messageOther_goesOn _ nick rfl

/-- **The harmless targets are those that leave the loop as they found it.** -/
theorem transparent_iff :
    Transparent s f p fd cptr sptr source text notice nick ↔
      Harmless s f p sptr text notice nick := by
  constructor
  · intro all
    exact (messageTarget_keeps_iff Serials.zero).mp
      ⟨all.goesOn Serials.zero, all.type Serials.zero, all.text Serials.zero⟩
  · intro harmless
    exact ⟨fun marks => ((messageTarget_keeps_iff marks).mpr harmless).1,
      fun marks => ((messageTarget_keeps_iff marks).mpr harmless).2.1,
      fun marks => ((messageTarget_keeps_iff marks).mpr harmless).2.2⟩

/-! ### The bound on their number -/

/-- Targets that a message with at most `most` of them may list: no two of them are the same. -/
structure TargetList (most : Nat) (targets : List Text) : Prop where
  words : ∀ target ∈ targets, IsTarget target
  distinct : targets.Pairwise fun a b => irccmp b a ≠ 0
  few : targets.length ≤ most

/-- A message to the list brings the same texts to the same clients as the messages to each target. -/
def Independent (s : Ircd) (f : Filters) (p : NickFilters) (fd : ClientId → Nat) (most : Nat)
    (cptr sptr : ClientId) (source text : Text) (notice : Bool) (targets : List Text) : Prop :=
  ∀ marks, lines (s.messages f p fd most cptr sptr [source, [','].intercalate targets, text] notice
      marks).2 =
    lines (s.separately f p fd most cptr sptr source text notice targets marks)

/-- A target that ends the loop takes the message from the ones behind it. -/
theorem not_independent_of_stop {most : Nat} {other : Text} (list : TargetList most [nick, other])
    (passes : s.held f sptr text = none) (text_ne : text ≠ [])
    (stops : (s.messageTarget f p fd cptr sptr source notice ⟨0, text, Serials.zero⟩ nick).goesOn =
      false)
    (gets : lines (targetWrites s f p fd cptr sptr source text notice other) ≠ []) :
    ¬ Independent s f p fd most cptr sptr source text notice [nick, other] := by
  intro independent
  obtain ⟨left, rfl⟩ : ∃ n, most = n + 1 := ⟨most - 1, by
    have few := list.few
    rw [List.length_cons] at few
    omega⟩
  have alone : ∀ {target marks}, target ∈ [nick, other] →
      lines (s.messages f p fd (left + 1) cptr sptr [source, target, text] notice marks).2 =
        lines (targetWrites s f p fd cptr sptr source text notice target) := by
    intro target marks member
    have own := lines_messages p fd cptr source notice (left + 1) passes text_ne
      (fun other there => list.words other (List.mem_singleton.mp there ▸ member))
      (List.pairwise_singleton _ _) (Nat.le_add_left 1 left) nofun marks
    rwa [List.intercalate_singleton, List.flatMap_singleton] at own
  have receivers : [','].intercalate [nick, other] ≠ [] := by
    simp [List.intercalate, List.intersperse]
  have together : lines (s.messages f p fd (left + 1) cptr sptr
      [source, [','].intercalate [nick, other], text] notice Serials.zero).2 =
      lines (targetWrites s f p fd cptr sptr source text notice nick) := by
    unfold messages messageRounds
    simp only [List.getD_cons_succ, List.getD_cons_zero, if_neg receivers, if_neg text_ne, passes,
      targetsOf_intercalate (List.cons_ne_nil _ _) list.words list.distinct, stops,
      Bool.false_eq_true, if_false, Option.any_none, Bool.and_false, List.append_nil]
    rfl
  have same := independent Serials.zero
  unfold separately at same
  rw [together, lines_append, alone List.mem_cons_self, List.self_eq_append_right] at same
  unfold separately at same
  rw [lines_append, alone (List.mem_cons_of_mem _ List.mem_cons_self)] at same
  exact gets (List.append_eq_nil_iff.mp same).1

end Whole

def sampleNickFilters : NickFilters where
  is_silenced _ _ := false
  check_target_limit _ _ _ := false
  ForceServicesAlias := false
  services _ _ := []
  dccDenied _ _ := none
  check_for_flud _ _ _ := false
  drone _ _ := (false, [])
  away _ := none
  sendto_match_butone _ _ _ := []
  sendto_realops _ := []
  find_server _ := none
  find_userhost _ _ := (none, 0)

theorem sampleTargets {most : Nat} (two : 2 ≤ most) :
    TargetList most ["@#c".toList, "bob".toList] where
  words target member := by
    rcases List.mem_pair.mp member with rfl | rfl <;> exact ⟨by decide, by simp⟩
  distinct := by decide
  few := two

/-- A message of ann to the operators of her channel and to bob does not come to bob. -/
theorem not_independent_sample {most : Nat} (two : 2 ≤ most) :
    ¬ Independent ((sampleNetwork 0 fun u => if u = 0 then CHFL_CHANOP else 0).ircd false)
      sampleFilters sampleNickFilters (fun c => c) most 2 2 "ann".toList ['h', 'i'] false
      ["@#c".toList, "bob".toList] :=
  not_independent_of_stop (sampleTargets two) (by decide +kernel) (by decide) (by decide +kernel)
    (by decide +kernel)

/-- **Targets do not interfere**, whatever the bound on their number, when each of them but the last is
harmless; and they never do exactly if the bound is not above `MAX_MULTI_MESSAGES`: then a message to
a list brings the same texts to the same clients as the messages to each of its targets. -/
theorem messages_independent (most : Nat) :
    (∀ (s : Ircd) (f : Filters) (p : NickFilters) (fd : ClientId → Nat) (cptr sptr : ClientId)
      (source text : Text) (notice : Bool) (targets : List Text), TargetList most targets →
      (∀ target ∈ targets.dropLast, Harmless s f p sptr text notice target) →
      Independent s f p fd most cptr sptr source text notice targets) ∧
    ((∀ (s : Ircd) (f : Filters) (p : NickFilters) (fd : ClientId → Nat) (cptr sptr : ClientId)
      (source text : Text) (notice : Bool) (targets : List Text), TargetList most targets →
      Independent s f p fd most cptr sptr source text notice targets) ↔
        most ≤ MAX_MULTI_MESSAGES) := by
  have harmless : ∀ (s : Ircd) (f : Filters) (p : NickFilters) (fd : ClientId → Nat)
      (cptr sptr : ClientId) (source text : Text) (notice : Bool) (targets : List Text),
      TargetList most targets →
      (∀ target ∈ targets.dropLast, Harmless s f p sptr text notice target) →
      Independent s f p fd most cptr sptr source text notice targets :=
    fun s f p fd cptr sptr source text notice targets list harmless =>
      messages_eq_of_transparent most list.words list.distinct list.few fun target member =>
        transparent_iff.mpr (harmless target member)
  refine ⟨harmless, fun all => ?_, fun bound s f p fd cptr sptr source text notice targets list => ?_⟩
  · by_contra above
    have two : 2 ≤ most := Nat.lt_of_not_le above
    exact not_independent_sample two (all _ _ _ _ _ _ _ _ _ _ (sampleTargets two))
  · -- one target has none before it
    have alone : targets.dropLast = [] := by
      rw [← List.length_eq_zero_iff, List.length_dropLast]
      have few := list.few
      unfold MAX_MULTI_MESSAGES at bound
      omega
    exact harmless s f p fd cptr sptr source text notice targets list (by rw [alone]; nofun)

/-- A message of ann to bob. -/
theorem messages_independent_sample :
    Independent (sampleSite false) sampleFilters sampleNickFilters (fun c => c) MAX_MULTI_MESSAGES
      2 2 "ann".toList ['h', 'i'] false ["bob".toList] := by
  have bob : IsTarget "bob".toList := ⟨by decide, by simp⟩
  exact (messages_independent MAX_MULTI_MESSAGES).2.mpr le_rfl _ _ _ _ _ _ _ _ _ _
    ⟨by simpa using bob, List.pairwise_singleton _ _, le_rfl⟩

end Ircd

end PtlinkIrcd
