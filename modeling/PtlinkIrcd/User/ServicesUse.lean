/-
**How often the services may be used.**

The commands of `s_services.c`, and the messages to nicks of services that `m_message` hands to them. Each
use is counted at a client by `exceed_services_usage`.

* `services_alias` — what the commands have in common; `m_nickserv` and so on.
* `redirected` — the command that a message to a nick is handed to, with the client of that nick as the
  source.
* `ServicesEvent.step` — a command or a message, and what it leaves of the counters.
* `step_written` — the messages are those of `messageNick`.
* `services_limit` — **the limit counts the uses of each user for itself, in every run in which no message
  is counted at another client**.
-/

import PtlinkIrcd.Channel.Targets
import PtlinkIrcd.Lib.Streaks

namespace PtlinkIrcd

open Lib

def ERR_SERVICESDOWN : Nat := 440

/-! ### The counters -/

/-- The settings for the services. -/
structure ServicesConf where
  ServicesServer : Text
  ServicesInterval : Int
  ServicesUseCount : Int

/-- `last_services_use` and `number_of_services_use` of a client. -/
structure ServicesUse where
  last_services_use : Int
  number_of_services_use : Int
deriving DecidableEq

/-- `exceed_services_usage`, for a client that is an operator or not. -/
def exceed_services_usage (c : ServicesConf) (CurrentTime : Int) (oper : Bool) (sptr : ServicesUse) :
    ServicesUse × Bool :=
  if oper then (sptr, false)
  else
    let number :=
      if sptr.last_services_use + c.ServicesInterval < CurrentTime then 0 else sptr.number_of_services_use
    (⟨CurrentTime, number + 1⟩, c.ServicesUseCount < number + 1)

/-! ### The commands -/

/-- What comes of a command. -/
inductive ServicesOutcome
  | zombie
  | noPrivileges
  | excessive
  | noText
  | passed (acptr : ClientId) (l : Utterance)
  | down (service : Text)
  /-- The counters of a client of another server would lie behind its block. -/
  | beyond
  /-- A message that no service gets. -/
  | message (written : List Written)
deriving DecidableEq

/-- The text goes to the server of the services. -/
def ServicesOutcome.isPassed : ServicesOutcome → Bool
  | .passed _ _ => true
  | _ => false

def excessText (ServicesInterval : Int) : Text :=
  "*** Notice -- Excessive services usage, wait ".toList ++ (toString ServicesInterval).toList ++
    " seconds before using services again.".toList

/-- The counters that a command leaves, the client that it takes for its source, and the outcome. -/
structure Handled where
  uses : ClientId → ServicesUse
  sptr : ClientId
  outcome : ServicesOutcome

def Handled.written (c : ServicesConf) (h : Handled) : List Written :=
  match h.outcome with
  | .zombie => []
  | .noPrivileges => [.reply h.sptr ERR_NOPRIVILEGES []]
  | .excessive => [.notice h.sptr (excessText c.ServicesInterval)]
  | .noText => [.reply h.sptr ERR_NOTEXTTOSEND []]
  | .passed acptr l => [.line acptr l]
  | .down service => [.reply h.sptr ERR_SERVICESDOWN [service]]
  | .beyond => []
  | .message written => written

section

variable (c : ServicesConf) (s : Ircd) (uses : ClientId → ServicesUse) (cptr sptr : ClientId)
  (sender : Text) (parv1 : Option Text)

/-- What the commands have in common: `service` is the nick, and `word` stands before the text. -/
def services_alias (service word : Text) : Handled :=
  let x := s.client sptr
  if x.isZombie then ⟨uses, sptr, .zombie⟩
  else if !x.isAnOper && !x.myConnect then ⟨uses, sptr, .beyond⟩
  else
    let used := exceed_services_usage c s.now x.isAnOper (uses sptr)
    let uses := Function.update uses sptr used.1
    if used.2 then ⟨uses, sptr, .excessive⟩
    else
      match parv1 with
      | none | some [] => ⟨uses, sptr, .noText⟩
      | some text =>
        match if s.services_on then s.find_server c.ServicesServer else none with
        | some acptr =>
          ⟨uses, sptr, .passed acptr
            ⟨sender, "PRIVMSG".toList, service ++ '@' :: c.ServicesServer, word ++ text⟩⟩
        | none => ⟨uses, sptr, .down service⟩

def m_nickserv : Handled := services_alias c s uses sptr sender parv1 "NickServ".toList []

def m_chanserv : Handled := services_alias c s uses sptr sender parv1 "ChanServ".toList []

def m_statserv : Handled := services_alias c s uses sptr sender parv1 "StatServ".toList []

def m_memoserv : Handled := services_alias c s uses sptr sender parv1 "MemoServ".toList []

def m_newsserv : Handled := services_alias c s uses sptr sender parv1 "NewsServ".toList []

def m_botserv : Handled := services_alias c s uses sptr sender parv1 "BotServ".toList []

def m_helpserv : Handled := services_alias c s uses sptr sender parv1 "HelpServ".toList []

def m_identify : Handled := services_alias c s uses sptr sender parv1 "NickServ".toList "IDENTIFY ".toList

/-- `m_operserv`: the connection must be privileged. -/
def m_operserv : Handled :=
  if !((s.client cptr).isAnOper || (s.client cptr).isServer) then ⟨uses, sptr, .noPrivileges⟩
  else services_alias c s uses sptr sender parv1 "OperServ".toList []

end

/-- The commands. -/
inductive ServicesCommand
  | nickserv
  | chanserv
  | statserv
  | memoserv
  | newsserv
  | operserv
  | botserv
  | helpserv
  | identify
deriving DecidableEq

def ServicesCommand.handler (c : ServicesConf) (s : Ircd) (uses : ClientId → ServicesUse)
    (cptr sptr : ClientId) (sender : Text) (parv1 : Option Text) : ServicesCommand → Handled
  | .nickserv => m_nickserv c s uses sptr sender parv1
  | .chanserv => m_chanserv c s uses sptr sender parv1
  | .statserv => m_statserv c s uses sptr sender parv1
  | .memoserv => m_memoserv c s uses sptr sender parv1
  | .newsserv => m_newsserv c s uses sptr sender parv1
  | .operserv => m_operserv c s uses cptr sptr sender parv1
  | .botserv => m_botserv c s uses sptr sender parv1
  | .helpserv => m_helpserv c s uses sptr sender parv1
  | .identify => m_identify c s uses sptr sender parv1

def MayUse (s : Ircd) (cptr : ClientId) (cmd : ServicesCommand) : Prop :=
  cmd = .operserv → (s.client cptr).isAnOper = true ∨ (s.client cptr).isServer = true

instance (s : Ircd) (cptr : ClientId) (cmd : ServicesCommand) : Decidable (MayUse s cptr cmd) :=
  inferInstanceAs (Decidable (_ → _))

/-! ### Messages to nicks of services -/

/-- The commands that `m_message` looks for, in its order. -/
def redirects : List (Text × ServicesCommand) :=
  [("NickServ".toList, .nickserv), ("ChanServ".toList, .chanserv), ("MemoServ".toList, .memoserv),
    ("NewsServ".toList, .newsserv), ("OperServ".toList, .operserv), ("StatServ".toList, .statserv),
    ("BotServ".toList, .botserv)]

/-- The command for a nick: `strncasecmp` with as many characters as the name of the service has. -/
def redirectOf (name : Text) : Option ServicesCommand :=
  (redirects.find? fun r =>
    decide ((name.take r.1.length).map lowerLetter = r.1.map lowerLetter)).map Prod.snd

/-- The command that a message to the nick of `acptr` is handed to. -/
def redirected (s : Ircd) (p : NickFilters) (sptr acptr : ClientId) (text : Text) : Option ServicesCommand :=
  let x := s.client sptr
  let y := s.client acptr
  if x.isZombie || x.isStealth then none
  else if !x.isService && !x.isIdentified && (y.umodes.has UMODE_REGMSG || s.secure_mode) then none
  else if p.is_silenced sptr acptr then none
  else if x.myClient && p.check_target_limit sptr acptr text then none
  else if x.myClient then
    if p.ForceServicesAlias && text.head? ≠ some (Char.ofNat 1) then none else redirectOf y.name
  else none

/-! ### Runs -/

/-- What a client sends: a command with its first parameter, or a message for the nick of a client that
has come past the lines for spam. -/
inductive ServicesCall
  | command (cmd : ServicesCommand) (parv1 : Option Text)
  | message (acptr : ClientId) (nick text : Text) (notice : Bool)

/-- A call of a client, and the rest of the server at that time. -/
structure ServicesEvent where
  s : Ircd
  p : NickFilters
  user : ClientId
  call : ServicesCall

namespace ServicesEvent

/-- The command that a call runs, with the client that is its source and the parameter: a message that is
handed on has the client of the nick for its source. -/
def runs (e : ServicesEvent) : Option (ServicesCommand × ClientId × Option Text) :=
  match e.call with
  | .command cmd parv1 => some (cmd, e.user, parv1)
  | .message acptr _ text _ => (redirected e.s e.p e.user acptr text).map fun cmd => (cmd, acptr, some text)

/-- What is written for a message that no command gets. -/
def others (e : ServicesEvent) : List Written :=
  match e.call with
  | .command _ _ => []
  | .message acptr nick text notice =>
    let x := e.s.client e.user
    if x.isZombie || x.isStealth then []
    else (e.s.messageNick e.p e.user acptr x.name nick text notice).1

def step (c : ServicesConf) (uses : ClientId → ServicesUse) (e : ServicesEvent) : Handled :=
  match e.runs with
  | some r => r.1.handler c e.s uses e.user r.2.1 (e.s.client e.user).name r.2.2
  | none => ⟨uses, e.user, .message e.others⟩

def after (c : ServicesConf) (uses : ClientId → ServicesUse) (es : List ServicesEvent) :
    ClientId → ServicesUse :=
  es.foldl (fun uses e => (e.step c uses).uses) uses

/-- **A use of the services**: a call that runs a command which the user may use. -/
def used (e : ServicesEvent) : Bool :=
  !(e.s.client e.user).isZombie && e.runs.any fun r => MayUse e.s e.user r.1

/-- **No other client is charged**: the source of the command is the user, unless both are operators. -/
def Charged (e : ServicesEvent) : Prop :=
  ∀ r ∈ e.runs, r.2.1 = e.user ∨
    (e.s.client e.user).isAnOper = true ∧ (e.s.client r.2.1).isAnOper = true

/-- The times of the uses of a user, the latest first. -/
def usesOf (u : ClientId) (es : List ServicesEvent) : List Int :=
  (es.filter fun e => e.user = u && e.used).reverse.map fun e => e.s.now

def number (c : ServicesConf) (u : ClientId) (es : List ServicesEvent) : Nat :=
  Streaks.streak (c.ServicesInterval + 1) (usesOf u es)

/-- A local client that is no operator. -/
structure Plain (e : ServicesEvent) (u : ClientId) : Prop where
  mine : (e.s.client u).myClient = true
  unprivileged : (e.s.client u).isAnOper = false

end ServicesEvent

/-! ### Counting -/

section

variable {c : ServicesConf}

/-- The counter of a client with a history of uses. -/
def Counts (c : ServicesConf) (x : ServicesUse) : List Int → Prop
  | [] => x.number_of_services_use = 0
  | t :: earlier => x.last_services_use = t ∧
      x.number_of_services_use = Streaks.streak (c.ServicesInterval + 1) (t :: earlier)

/-- **One more use** adds to the streak or starts a new one. -/
theorem Counts.use {x : ServicesUse} {history : List Int} (counts : Counts c x history) (now : Int) :
    Counts c (exceed_services_usage c now false x).1 (now :: history) := by
  cases history with
  | nil =>
    have zero : x.number_of_services_use = 0 := counts
    refine ⟨rfl, ?_⟩
    simp [exceed_services_usage, Streaks.streak, zero]
  | cons t earlier =>
    obtain ⟨last, number⟩ := counts
    refine ⟨rfl, ?_⟩
    have gap : x.last_services_use + c.ServicesInterval < now ↔
        ¬ Streaks.Soon (c.ServicesInterval + 1) now t := by
      unfold Streaks.Soon
      omega
    by_cases soon : Streaks.Soon (c.ServicesInterval + 1) now t
    · have no_gap : ¬ x.last_services_use + c.ServicesInterval < now := mt gap.mp (not_not.mpr soon)
      rw [Streaks.streak, if_pos soon]
      simp [exceed_services_usage, no_gap, number]
    · rw [Streaks.streak, if_neg soon]
      simp [exceed_services_usage, gap.mpr soon]

theorem exceed_iff {x : ServicesUse} {history : List Int} (counts : Counts c x history) (now : Int) :
    (exceed_services_usage c now false x).2 = true ↔
      c.ServicesUseCount < Streaks.streak (c.ServicesInterval + 1) (now :: history) := by
  have number := (counts.use now).2
  rw [← number]
  simp [exceed_services_usage]

/-! ### One command -/

variable {s : Ircd} {uses : ClientId → ServicesUse} {cptr sptr : ClientId} {sender service word : Text}
  {parv1 : Option Text}

/-- The command does nothing but count the use of its source. -/
structure CountsOnly (c : ServicesConf) (s : Ircd) (uses : ClientId → ServicesUse) (sptr : ClientId)
    (h : Handled) : Prop where
  counted : h.uses = Function.update uses sptr
    (exceed_services_usage c s.now (s.client sptr).isAnOper (uses sptr)).1
  refused : h.outcome = .excessive ↔
    (exceed_services_usage c s.now (s.client sptr).isAnOper (uses sptr)).2 = true
  passed : h.outcome.isPassed = true →
    (exceed_services_usage c s.now (s.client sptr).isAnOper (uses sptr)).2 = false
  inside : h.outcome ≠ .beyond

/-- The command does nothing at all. -/
structure Idle (uses : ClientId → ServicesUse) (h : Handled) : Prop where
  kept : h.uses = uses
  refused : h.outcome ≠ .excessive

theorem services_alias_counts (free : (s.client sptr).isZombie = false)
    (counted : (s.client sptr).isAnOper = true ∨ (s.client sptr).myConnect = true) :
    CountsOnly c s uses sptr (services_alias c s uses sptr sender parv1 service word) := by
  have own : (!(s.client sptr).isAnOper && !(s.client sptr).myConnect) = false := by
    rcases counted with oper | mine
    · simp [oper]
    · simp [mine]
  unfold services_alias
  dsimp only
  rw [free, own]
  simp only [Bool.false_eq_true, if_false]
  by_cases refused : (exceed_services_usage c s.now (s.client sptr).isAnOper (uses sptr)).2 = true
  · rw [if_pos refused]
    exact ⟨rfl, iff_of_true rfl refused, nofun, nofun⟩
  · rw [if_neg refused]
    have accepted := Bool.eq_false_iff.mpr refused
    split
    · exact ⟨rfl, iff_of_false nofun refused, fun _ => accepted, nofun⟩
    · exact ⟨rfl, iff_of_false nofun refused, fun _ => accepted, nofun⟩
    · split
      · exact ⟨rfl, iff_of_false nofun refused, fun _ => accepted, nofun⟩
      · exact ⟨rfl, iff_of_false nofun refused, fun _ => accepted, nofun⟩

theorem services_alias_zombie (zombie : (s.client sptr).isZombie = true) :
    Idle uses (services_alias c s uses sptr sender parv1 service word) := by
  unfold services_alias
  rw [if_pos zombie]
  exact ⟨rfl, nofun⟩

/-- **A command counts the use of its source.** -/
theorem handler_counts (cmd : ServicesCommand) (may : MayUse s cptr cmd)
    (free : (s.client sptr).isZombie = false)
    (counted : (s.client sptr).isAnOper = true ∨ (s.client sptr).myConnect = true) :
    CountsOnly c s uses sptr (cmd.handler c s uses cptr sptr sender parv1) := by
  cases cmd with
  | operserv =>
    have privileged : (!((s.client cptr).isAnOper || (s.client cptr).isServer)) = false := by
      rcases may rfl with oper | server
      · simp [oper]
      · simp [server]
    show CountsOnly c s uses sptr (m_operserv c s uses cptr sptr sender parv1)
    unfold m_operserv
    rw [privileged]
    exact services_alias_counts free counted
  | _ => exact services_alias_counts free counted

theorem handler_idle (cmd : ServicesCommand)
    (idle : ¬ MayUse s cptr cmd ∨ (s.client sptr).isZombie = true) :
    Idle uses (cmd.handler c s uses cptr sptr sender parv1) := by
  have unprivileged : ∀ h, ¬ MayUse s cptr .operserv →
      (if !((s.client cptr).isAnOper || (s.client cptr).isServer) then ⟨uses, sptr, .noPrivileges⟩ else h) =
        (⟨uses, sptr, .noPrivileges⟩ : Handled) := by
    intro h may
    rw [if_pos]
    by_contra privileged
    rw [Bool.not_eq_true', Bool.not_eq_false] at privileged
    exact may fun _ => Bool.or_eq_true_iff.mp privileged
  by_cases oper : cmd = .operserv
  · subst oper
    show Idle uses (m_operserv c s uses cptr sptr sender parv1)
    unfold m_operserv
    by_cases may : MayUse s cptr .operserv
    · split
      · exact ⟨rfl, nofun⟩
      · exact services_alias_zombie (idle.resolve_left (not_not.mpr may))
    · rw [unprivileged _ may]
      exact ⟨rfl, nofun⟩
  · have zombie : (s.client sptr).isZombie = true :=
      idle.resolve_left fun may => may fun same => absurd same oper
    cases cmd with
    | operserv => exact absurd rfl oper
    | _ => exact services_alias_zombie zombie

theorem handler_frame (cmd : ServicesCommand) {b : ClientId} (other : b ≠ sptr) :
    (cmd.handler c s uses cptr sptr sender parv1).uses b = uses b := by
  by_cases idle : ¬ MayUse s cptr cmd ∨ (s.client sptr).isZombie = true
  · rw [(handler_idle cmd idle).kept]
  · rw [not_or, not_not, Bool.not_eq_true] at idle
    by_cases counted : (s.client sptr).isAnOper = true ∨ (s.client sptr).myConnect = true
    · rw [(handler_counts cmd idle.1 idle.2 counted).counted]
      exact Function.update_of_ne other ..
    · have stays : ∀ service word, (services_alias c s uses sptr sender parv1 service word).uses = uses := by
        intro service word
        unfold services_alias
        dsimp only
        rw [not_or, Bool.not_eq_true, Bool.not_eq_true] at counted
        rw [idle.2, counted.1, counted.2]
        rfl
      cases cmd with
      | operserv =>
        show (m_operserv c s uses cptr sptr sender parv1).uses b = uses b
        unfold m_operserv
        split
        · rfl
        · rw [stays]
      | _ => exact congrFun (stays _ _) b

end

/-! ### One call -/

namespace ServicesEvent

variable {c : ServicesConf} {e : ServicesEvent} {u : ClientId} {uses : ClientId → ServicesUse}
  {history : List Int}

theorem runs_source (plain : e.Plain e.user) (charged : e.Charged) {r : ServicesCommand × ClientId × Option Text}
    (runs : r ∈ e.runs) : r.2.1 = e.user := by
  refine (charged r runs).resolve_right fun opers => ?_
  rw [plain.unprivileged] at opers
  exact Bool.false_ne_true opers.1

/-- **A use is counted at the user.** -/
theorem step_used (plain : e.Plain e.user) (charged : e.Charged) (used : e.used = true) :
    CountsOnly c e.s uses e.user (e.step c uses) := by
  rw [ServicesEvent.used, Bool.and_eq_true, Bool.not_eq_true', Option.any_eq_true] at used
  obtain ⟨free, r, runs, may⟩ := used
  have source := runs_source plain charged runs
  have mine : (e.s.client e.user).myConnect = true := (Bool.and_eq_true _ _ ▸ plain.mine).1
  unfold step
  rw [runs]
  show CountsOnly c e.s uses e.user (r.1.handler c e.s uses e.user r.2.1 (e.s.client e.user).name r.2.2)
  rw [source]
  exact handler_counts r.1 (of_decide_eq_true may) free (.inr mine)

/-- **Any other call leaves the counter of a user.** -/
theorem step_other (plain : e.Plain u) (charged : e.Charged) (other : ¬ (e.user = u ∧ e.used = true)) :
    (e.step c uses).uses u = uses u := by
  unfold step
  cases runs : e.runs with
  | none => rfl
  | some r =>
    show (r.1.handler c e.s uses e.user r.2.1 (e.s.client e.user).name r.2.2).uses u = uses u
    by_cases own : r.2.1 = u
    · have source : e.user = u := by
        rcases charged r runs with same | opers
        · rw [← same, own]
        · rw [own, plain.unprivileged] at opers
          exact absurd opers.2 Bool.false_ne_true
      have unused : ¬ e.used = true := fun used => other ⟨source, used⟩
      have idle : ¬ MayUse e.s e.user r.1 ∨ (e.s.client r.2.1).isZombie = true := by
        by_contra active
        rw [not_or, not_not, Bool.not_eq_true, own, ← source] at active
        exact unused (by simp [used, active.2, runs, active.1])
      rw [(handler_idle r.1 idle).kept]
    · exact handler_frame r.1 (Ne.symm own)

/-! ### Runs -/

theorem usesOf_append (u : ClientId) (es : List ServicesEvent) (e : ServicesEvent) :
    usesOf u (es ++ [e]) = if e.user = u ∧ e.used = true then e.s.now :: usesOf u es else usesOf u es := by
  unfold usesOf
  rw [List.filter_append, List.reverse_append, List.map_append]
  by_cases use : e.user = u ∧ e.used = true
  · rw [if_pos use]
    simp [use.1, use.2]
  · rw [if_neg use]
    have dropped : (decide (e.user = u) && e.used) = false := by
      by_contra kept
      rw [Bool.not_eq_false, Bool.and_eq_true, decide_eq_true_eq] at kept
      exact use kept
    simp [dropped]

theorem after_append (uses : ClientId → ServicesUse) (es : List ServicesEvent) (e : ServicesEvent) :
    after c uses (es ++ [e]) = (e.step c (after c uses es)).uses := by
  simp [after]

/-- **In a run in which no other client is charged, the counter of a user counts its uses.** -/
theorem after_counts (fresh : (uses u).number_of_services_use = 0) (es : List ServicesEvent)
    (plain : ∀ e ∈ es, e.Plain u) (charged : ∀ e ∈ es, e.Charged) :
    Counts c (after c uses es u) (usesOf u es) := by
  induction es using List.reverseRecOn with
  | nil => exact fresh
  | append_singleton es e ih =>
    have counts := ih (fun e' member => plain e' (List.mem_append_left _ member))
      fun e' member => charged e' (List.mem_append_left _ member)
    have plainLast := plain e (by simp)
    have chargedLast := charged e (by simp)
    rw [after_append, usesOf_append]
    by_cases use : e.user = u ∧ e.used = true
    · rw [if_pos use]
      obtain ⟨rfl, used⟩ := use
      rw [(step_used plainLast chargedLast used).counted, Function.update_self, plainLast.unprivileged]
      exact counts.use e.s.now
    · rw [if_neg use, step_other plainLast chargedLast use]
      exact counts

theorem usesOf_own (u : ClientId) (es : List ServicesEvent) :
    usesOf u (es.filter fun e => e.user = u) = usesOf u es := by
  unfold usesOf
  rw [List.filter_filter]
  congr 2
  refine List.filter_congr fun e _ => ?_
  by_cases own : e.user = u <;> simp [own]

/-- **The limit for a use of a user**, with the calls before it. -/
structure Limited (c : ServicesConf) (uses : ClientId → ServicesUse) (before : List ServicesEvent)
    (e : ServicesEvent) : Prop where
  /-- It is passed on to the services only if there were not too many since the last gap. -/
  passed : (e.step c (after c uses before)).outcome.isPassed = true →
    number c e.user (before ++ [e]) ≤ c.ServicesUseCount
  /-- It is not refused before. -/
  kept : number c e.user (before ++ [e]) ≤ c.ServicesUseCount →
    (e.step c (after c uses before)).outcome ≠ .excessive
  /-- The calls of other users do not matter for the refusal. -/
  own : (e.step c (after c uses before)).outcome = .excessive ↔
    (e.step c (after c uses (before.filter fun e' => e'.user = e.user))).outcome = .excessive

theorem refused_iff (fresh : (uses e.user).number_of_services_use = 0) {before : List ServicesEvent}
    (plain : ∀ e' ∈ before ++ [e], e'.Plain e.user) (charged : ∀ e' ∈ before ++ [e], e'.Charged)
    (used : e.used = true) : (e.step c (after c uses before)).outcome = .excessive ↔
      c.ServicesUseCount < number c e.user (before ++ [e]) := by
  have counts := @after_counts c e.user uses fresh before
    (fun e' member => plain e' (List.mem_append_left _ member))
    fun e' member => charged e' (List.mem_append_left _ member)
  have plainLast := plain e (by simp)
  rw [(step_used plainLast (charged e (by simp)) used).refused, plainLast.unprivileged, exceed_iff counts,
    number, usesOf_append, if_pos ⟨rfl, used⟩]

/-- **The services usage limit is per user**, in a run in which no other client is charged. -/
theorem services_limit (c : ServicesConf) {uses : ClientId → ServicesUse} {e : ServicesEvent}
    (fresh : (uses e.user).number_of_services_use = 0) {before : List ServicesEvent}
    (plain : ∀ e' ∈ before ++ [e], e'.Plain e.user) (charged : ∀ e' ∈ before ++ [e], e'.Charged)
    (used : e.used = true) : Limited c uses before e := by
  have refused := @refused_iff c e uses fresh before plain charged used
  have ownPlain : ∀ e' ∈ (before.filter fun e' => e'.user = e.user) ++ [e], e'.Plain e.user := by
    intro e' member
    rcases List.mem_append.mp member with inside | last
    · exact plain e' (List.mem_append_left _ (List.mem_of_mem_filter inside))
    · exact plain e' (List.mem_append_right _ last)
  have ownCharged : ∀ e' ∈ (before.filter fun e' => e'.user = e.user) ++ [e], e'.Charged := by
    intro e' member
    rcases List.mem_append.mp member with inside | last
    · exact charged e' (List.mem_append_left _ (List.mem_of_mem_filter inside))
    · exact charged e' (List.mem_append_right _ last)
  have ownRefused := @refused_iff c e uses fresh _ ownPlain ownCharged used
  have sameNumber : number c e.user ((before.filter fun e' => e'.user = e.user) ++ [e]) =
      number c e.user (before ++ [e]) := by
    unfold number
    rw [usesOf_append, usesOf_append, usesOf_own]
  refine ⟨fun passed => ?_, fun few => ?_, ?_⟩
  · have accepted := (step_used (plain e (by simp)) (charged e (by simp)) used).passed passed
    have unrefused : ¬ (e.step c (after c uses before)).outcome = .excessive := by
      rw [(step_used (plain e (by simp)) (charged e (by simp)) used).refused, accepted]
      exact Bool.false_ne_true
    exact not_lt.mp (mt refused.mpr unrefused)
  · exact mt refused.mp (not_lt.mpr few)
  · rw [refused, ownRefused, sameNumber]

/-- A server with ann, and with a nick of the services on another server. -/
def sampleServices : Ircd :=
  { sampleSite false with
    services_on := true
    client := fun c =>
      match c with
      | 1 => { Ircd.sampleServer with name := "services".toList }
      | 2 => { Ircd.sampleLocal with name := "ann".toList, link := some 2 }
      | 3 =>
        { Ircd.sampleLocal with
          name := "NickServ".toList, link := some 1, local_flag := false, umodes := UMODE_OPER }
      | _ => .zero
    clientTable := Lib.ChainTable.empty.add (hashNickName "services".toList) 1 }

def sampleServicesConf : ServicesConf := ⟨"services".toList, 60, 1⟩

def sampleCommand : ServicesEvent :=
  ⟨sampleServices, Ircd.sampleNickFilters, 2, .command .nickserv (some "HELP".toList)⟩

def sampleToNick : ServicesEvent :=
  ⟨sampleServices, Ircd.sampleNickFilters, 2, .message 3 "NickServ".toList "HELP".toList false⟩

theorem sample_plain (call : ServicesCall) : Plain ⟨sampleServices, Ircd.sampleNickFilters, 2, call⟩ 2 := by
  have mine : (sampleServices.client 2).myClient = true := rfl
  have unprivileged : (sampleServices.client 2).isAnOper = false := by decide
  exact ⟨mine, unprivileged⟩

/-- A second command is refused. -/
theorem services_limit_sample : (sampleCommand.step sampleServicesConf
      (after sampleServicesConf (fun _ => ⟨0, 0⟩) [sampleCommand])).outcome = .excessive ∧
    Limited sampleServicesConf (fun _ => ⟨0, 0⟩) [sampleCommand] sampleCommand := by
  refine ⟨by decide +kernel, services_limit _ rfl ?_ ?_ (by decide)⟩
  · intro e member
    obtain rfl : e = sampleCommand := by simpa using member
    exact sample_plain _
  · intro e member
    obtain rfl : e = sampleCommand := by simpa using member
    rintro r ⟨⟩
    exact .inl rfl

/-- **Two messages to an operator of the services**: the second one is passed on. -/
theorem not_services_limit : ¬ ∀ (c : ServicesConf) (uses : ClientId → ServicesUse)
    (before : List ServicesEvent) (e : ServicesEvent), (uses e.user).number_of_services_use = 0 →
      (∀ e' ∈ before ++ [e], e'.Plain e.user) → e.used = true → Limited c uses before e := by
  intro all
  have plain : ∀ e ∈ [sampleToNick] ++ [sampleToNick], e.Plain sampleToNick.user := by
    intro e member
    obtain rfl : e = sampleToNick := by simpa using member
    exact sample_plain _
  have limited := all sampleServicesConf (fun _ => ⟨0, 0⟩) [sampleToNick] sampleToNick rfl plain
    (by decide +kernel)
  have few := limited.passed (by decide +kernel)
  exact absurd few (by decide +kernel)

end ServicesEvent

/-! ### The messages to the client -/

/-- The hook of `messageNick` for the services: the command for the nick. -/
def servicesHook (c : ServicesConf) (s : Ircd) (uses : ClientId → ServicesUse) (user acptr : ClientId)
    (text : Text) : List Written :=
  match redirectOf (s.client acptr).name with
  | some cmd => (cmd.handler c s uses user acptr (s.client user).name (some text)).written c
  | none => []

theorem isServiceName_eq (name : Text) : isServiceName name = (redirectOf name).isSome := by
  have names : serviceNames = redirects.map Prod.fst := rfl
  rw [isServiceName, names, List.any_map, redirectOf, Option.isSome_map, Bool.eq_iff_iff, List.find?_isSome,
    List.any_eq_true]
  rfl

section

variable (s : Ircd) (p : NickFilters) {user acptr : ClientId} (source nick : Text) {text : Text} (notice : Bool)

theorem messageNick_handed {cmd : ServicesCommand} (handed : redirected s p user acptr text = some cmd) :
    (s.messageNick p user acptr source nick text notice).1 = p.services acptr text ∧
      redirectOf (s.client acptr).name = some cmd := by
  unfold redirected at handed
  dsimp only at handed
  split_ifs at handed with _ restricted silenced limited mine forced
  have named : isServiceName (s.client acptr).name = true := by
    rw [isServiceName_eq, handed]
    rfl
  refine ⟨?_, handed⟩
  unfold Ircd.messageNick
  dsimp only
  rw [if_neg restricted, if_neg silenced, if_neg limited, if_pos (by rw [mine, named]; rfl), if_neg forced]

theorem messageNick_others (free : (s.client user).isZombie = false)
    (seen : (s.client user).isStealth = false) (handed : redirected s p user acptr text = none)
    (services : ClientId → Text → List Written) :
    s.messageNick { p with services := services } user acptr source nick text notice =
      s.messageNick p user acptr source nick text notice := by
  unfold redirected at handed
  simp only [free, seen, Bool.or_false, Bool.false_eq_true, if_false] at handed
  unfold Ircd.messageNick
  dsimp only
  split_ifs at handed ⊢ with restricted silenced limited named forced
  all_goals first | rfl | exfalso
  · rw [Bool.and_eq_true, isServiceName_eq, handed] at named
    exact Bool.false_ne_true named.2
  · rename_i foreign
    exact foreign (Bool.and_eq_true _ _ ▸ named).1

end

/-- **A call writes what `messageNick` does**, where its hook for the services runs the command for the
nick. -/
theorem step_written (c : ServicesConf) (uses : ClientId → ServicesUse) (s : Ircd) (p : NickFilters)
    {user acptr : ClientId} (nick text : Text) (notice : Bool) (free : (s.client user).isZombie = false)
    (seen : (s.client user).isStealth = false) :
    (ServicesEvent.step c uses ⟨s, p, user, .message acptr nick text notice⟩).written c =
      (s.messageNick { p with services := servicesHook c s uses user } user acptr (s.client user).name nick
        text notice).1 := by
  cases handed : redirected s p user acptr text with
  | some cmd =>
    obtain ⟨written, named⟩ := messageNick_handed s { p with services := servicesHook c s uses user }
      (s.client user).name nick notice (show redirected s { p with services := _ } user acptr text = _ from handed)
    rw [written]
    simp [ServicesEvent.step, ServicesEvent.runs, handed, servicesHook, named]
  | none =>
    rw [messageNick_others s p (s.client user).name nick notice free seen handed]
    simp [ServicesEvent.step, ServicesEvent.runs, handed, ServicesEvent.others, free, seen, Handled.written]

end PtlinkIrcd
