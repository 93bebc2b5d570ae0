/-
**The human verification code.**

A local user that registers while the verification is on gets a code, and may use no command that
needs a registration before it has sent the code with LOGIN.

* `msgtab` — the commands, with what they may be used for.
* `Visitor.parse` — a line of such a user, up to its handler.
* `m_login` — the handler that clears the code.
* `Verified.after` — **a line keeps the gate**, unless it is a LOGIN with another code.
* `run_gated` — so does every run of such lines.
-/

import PtlinkIrcd.Model.Parse

namespace PtlinkIrcd

/-! ### The commands -/

/-- `struct Message`, without its statistics. -/
structure Message where
  cmd : Text
  parameters : Nat
  allow_unregistered_use : Bool
  deriving DecidableEq

def msgtab : List Message :=
  [⟨"PRIVMSG", MAXPARA, false⟩, ⟨"NICK", MAXPARA, true⟩, ⟨"SNICK", MAXPARA, true⟩,
    ⟨"NNICK", MAXPARA, true⟩, ⟨"NOTICE", MAXPARA, false⟩, ⟨"JOIN", MAXPARA, false⟩,
    ⟨"MODE", MAXPARA, false⟩, ⟨"SAMODE", MAXPARA, false⟩, ⟨"QUIT", MAXPARA, true⟩,
    ⟨"PART", MAXPARA, false⟩, ⟨"KNOCK", MAXPARA, false⟩, ⟨"TOPIC", MAXPARA, false⟩,
    ⟨"INVITE", MAXPARA, false⟩, ⟨"KICK", MAXPARA, false⟩, ⟨"WALLOPS", MAXPARA, false⟩,
    ⟨"POST", MAXPARA, true⟩, ⟨"GLOBOPS", 1, false⟩, ⟨"LOCOPS", 1, false⟩, ⟨"LWALLOPS", 1, false⟩,
    ⟨"PONG", MAXPARA, false⟩, ⟨"PING", MAXPARA, false⟩, ⟨"UNDLINE", MAXPARA, false⟩,
    ⟨"ERROR", MAXPARA, true⟩, ⟨"KILL", MAXPARA, false⟩, ⟨"FLOODEX", MAXPARA, false⟩,
    ⟨"USER", MAXPARA, true⟩, ⟨"AWAY", MAXPARA, false⟩, ⟨"ISON", 1, false⟩,
    ⟨"SERVER", MAXPARA, true⟩, ⟨"SQUIT", MAXPARA, false⟩, ⟨"WHOIS", MAXPARA, false⟩,
    ⟨"WHO", MAXPARA, false⟩, ⟨"WHOWAS", MAXPARA, false⟩, ⟨"LIST", MAXPARA, false⟩,
    ⟨"NAMES", MAXPARA, false⟩, ⟨"USERHOST", 1, false⟩, ⟨"TRACE", MAXPARA, false⟩,
    ⟨"LTRACE", MAXPARA, false⟩, ⟨"PASS", MAXPARA, true⟩, ⟨"LUSERS", MAXPARA, false⟩,
    ⟨"TIME", MAXPARA, false⟩, ⟨"OPER", MAXPARA, false⟩, ⟨"CONNECT", MAXPARA, false⟩,
    ⟨"VERSION", MAXPARA, false⟩, ⟨"STATS", MAXPARA, false⟩, ⟨"LINKS", MAXPARA, false⟩,
    ⟨"ADMIN", MAXPARA, true⟩, ⟨"USERS", MAXPARA, false⟩, ⟨"HELP", MAXPARA, false⟩,
    ⟨"HELPSYS", MAXPARA, false⟩, ⟨"INFO", MAXPARA, false⟩, ⟨"MOTD", MAXPARA, false⟩,
    ⟨"SVINFO", MAXPARA, true⟩, ⟨"SJOIN", MAXPARA, false⟩, ⟨"NJOIN", MAXPARA, false⟩,
    ⟨"CAPAB", MAXPARA, true⟩, ⟨"CLOSE", MAXPARA, false⟩, ⟨"KLINE", MAXPARA, false⟩,
    ⟨"UNKLINE", MAXPARA, false⟩, ⟨"DLINE", MAXPARA, false⟩, ⟨"GLINE", MAXPARA, false⟩,
    ⟨"UNGLINE", MAXPARA, false⟩, ⟨"SXLINE", MAXPARA, false⟩, ⟨"UNSXLINE", MAXPARA, false⟩,
    ⟨"SVLINE", MAXPARA, false⟩, ⟨"UNSVLINE", MAXPARA, false⟩, ⟨"ZLINE", MAXPARA, false⟩,
    ⟨"UNZLINE", MAXPARA, false⟩, ⟨"SQLINE", MAXPARA, false⟩, ⟨"UNSQLINE", MAXPARA, false⟩,
    ⟨"SILENCE", MAXPARA, false⟩, ⟨"WATCH", 1, false⟩, ⟨"REHASH", MAXPARA, false⟩,
    ⟨"RESTART", MAXPARA, false⟩, ⟨"DIE", MAXPARA, false⟩, ⟨"HTM", MAXPARA, false⟩,
    ⟨"SET", MAXPARA, false⟩, ⟨"SVSINFO", MAXPARA, false⟩, ⟨"SVSJOIN", MAXPARA, false⟩,
    ⟨"SVSPART", MAXPARA, false⟩, ⟨"SVSMODE", MAXPARA, false⟩, ⟨"SVSNICK", MAXPARA, false⟩,
    ⟨"SVSGUEST", MAXPARA, false⟩, ⟨"NICKSERV", 1, false⟩, ⟨"NS", 1, false⟩, ⟨"CHANSERV", 1, false⟩,
    ⟨"CS", 1, false⟩, ⟨"MEMOSERV", 1, false⟩, ⟨"MS", 1, false⟩, ⟨"NEWSSERV", 1, false⟩,
    ⟨"NWS", 1, false⟩, ⟨"OPERSERV", 1, false⟩, ⟨"OS", 1, false⟩, ⟨"HELPSERV", 1, false⟩,
    ⟨"HS", 1, false⟩, ⟨"STATSERV", 1, false⟩, ⟨"BOTSERV", 1, false⟩, ⟨"BS", 1, false⟩,
    ⟨"IDENTIFY", 1, false⟩, ⟨"DCONF", 4, false⟩, ⟨"SANOTICE", MAXPARA, false⟩,
    ⟨"NEWMASK", MAXPARA, false⟩, ⟨"MAP", MAXPARA, false⟩, ⟨"IRCOPS", MAXPARA, false⟩,
    ⟨"NEWS", MAXPARA, false⟩, ⟨"ZOMBIE", MAXPARA, false⟩, ⟨"UNZOMBIE", MAXPARA, false⟩,
    ⟨"DCCDENY", MAXPARA, false⟩, ⟨"DCCALLOW", MAXPARA, false⟩, ⟨"SVSADMIN", MAXPARA, false⟩,
    ⟨"CMSG", MAXPARA, false⟩, ⟨"CPRIVMSG", MAXPARA, false⟩, ⟨"CNOTICE", MAXPARA, false⟩,
    ⟨"REDIRECT", MAXPARA, false⟩, ⟨"LNOTICE", 1, false⟩, ⟨"RNOTICE", 3, false⟩,
    ⟨"CODEPAGE", MAXPARA, false⟩, ⟨"VLINK", MAXPARA, false⟩, ⟨"LOST", MAXPARA, false⟩,
    ⟨"IMODE", MAXPARA, false⟩, ⟨"BOTS", MAXPARA, false⟩, ⟨"ZOMBIES", MAXPARA, false⟩,
    ⟨"DCCDENYS", MAXPARA, false⟩, ⟨"HELPERS", MAXPARA, false⟩, ⟨"SETNAME", MAXPARA, false⟩,
    ⟨"CHGHOST", MAXPARA, false⟩, ⟨"LOGIN", MAXPARA, true⟩, ⟨"HVC", MAXPARA, false⟩]

/-- `tree_parse`: the entry of a command, up to case. -/
def tree_parse (cmd : Text) : Option Message := msgtab.find? (·.cmd = cmd.map toUpper)

/-- The parameters of a command; the last one that it takes is the rest of the line. -/
def parv (msg : Message) (name rest : Text) : List Text :=
  name :: params (max 1 (min msg.parameters MAXPARA - 1)) rest

/-- The command of a line that comes from a user, and its parameters. A prefix is skipped; numerics,
empty lines and unknown commands have no handler. -/
def readLine (name pbuffer : Text) : Option (Message × List Text) :=
  let ch := match pbuffer.dropWhile (· = ' ') with
    | [] => []
    | c :: ch => if c = ':' then (ch.dropWhile (· ≠ ' ')).dropWhile (· = ' ') else c :: ch
  if ch = [] || isNumeric ch then none
  else (tree_parse (ch.takeWhile (· ≠ ' '))).map fun msg =>
    (msg, parv msg name (ch.dropWhile (· ≠ ' ')))

/-! ### One user -/

/-- A local user, as far as its verification goes. -/
structure Visitor where
  status : Status
  hvc : Int
  /-- The connection is closed. -/
  exited : Bool
  /-- The calls of handlers. -/
  dispatched : List (Message × List Text)

/-- The code that `register_user` takes out of `random()`. -/
def code (random : Nat) : Int := (random % 998 : Nat) + 1

namespace Visitor

def register_user (hvc_enabled : Bool) (random : Nat) : Visitor :=
  ⟨.client, if hvc_enabled then code random else 0, false, []⟩

def m_login (hvc_enabled : Bool) (x : Visitor) (parv : List Text) : Visitor :=
  if !hvc_enabled || x.hvc = 0 || parv.length < 2 then x
  else
    let inum := (atoi (parv.getD 1 [])).toInt
    let x := if x.hvc = inum then { x with status := .client } else x
    -- `cptr->hvc == 0` in the branch above has no effect; this is reached for every code
    { x with hvc := 0 }

/-- `m_server`: a user is told that there is no such command. Of the rest, the write to `hvc`. -/
def m_server (x : Visitor) : Visitor := if x.status = .client then x else { x with hvc := 0 }

/-- The handlers. No other one writes `hvc`, and who is registered is not registered again. -/
def dispatch (hvc_enabled : Bool) (x : Visitor) (msg : Message) (parv : List Text) : Visitor :=
  let x := { x with dispatched := x.dispatched ++ [(msg, parv)] }
  if msg.cmd = "LOGIN" then x.m_login hvc_enabled parv
  else if msg.cmd = "SERVER" then x.m_server
  else if msg.cmd = "QUIT" then { x with exited := true }
  else x

def isRegistered (x : Visitor) : Bool := x.status = .server || x.status = .client

def parse (hvc_enabled : Bool) (x : Visitor) (name pbuffer : Text) : Visitor :=
  match readLine name pbuffer with
  | none => x
  | some (msg, parv) =>
    if (!x.isRegistered || (hvc_enabled && x.hvc ≠ 0)) && !msg.allow_unregistered_use then x
    else x.dispatch hvc_enabled msg parv

end Visitor

/-- What happens to a user: a line under its present name, or the end of its connection. -/
inductive GateEvent
  | line (name pbuffer : Text)
  | closed

namespace Visitor

/-- The user after an event, while the verification is on. -/
def after (x : Visitor) : GateEvent → Visitor
  | .line name pbuffer => if x.exited then x else x.parse true name pbuffer
  | .closed => { x with exited := true }

def IsRightLogin (code : Int) (call : Message × List Text) : Prop :=
  call.1.cmd = "LOGIN" ∧ 2 ≤ call.2.length ∧ (atoi (call.2.getD 1 [])).toInt = code

/-- **The gate**: before a LOGIN with the code, only commands for everybody are handled. -/
def Gated (code : Int) (x : Visitor) : Prop :=
  ∀ before call after, x.dispatched = before ++ call :: after →
    call.1.allow_unregistered_use = false → ∃ login ∈ before, IsRightLogin code login

/-- A LOGIN that has a parameter, while a code is awaited, names the code. Of a closed connection no line is
read. -/
def NamesCode (x : Visitor) : GateEvent → Prop
  | .line name pbuffer => x.exited = false → ∀ msg parv, readLine name pbuffer = some (msg, parv) →
      msg.cmd = "LOGIN" → 2 ≤ parv.length → x.hvc = 0 ∨ (atoi (parv.getD 1 [])).toInt = x.hvc
  | .closed => True

/-- **The users reached by events that are allowed where they happen.** -/
inductive GateRun (allowed : Visitor → GateEvent → Prop) (random : Nat) : Visitor → Prop
  | start : GateRun allowed random (register_user true random)
  | step {x : Visitor} (run : GateRun allowed random x) {event : GateEvent} (ok : allowed x event) :
      GateRun allowed random (x.after event)

/-! ### Runs -/

variable {x : Visitor} {n : Int} {event : GateEvent}

/-- The gate is kept, and stands until the code has come. -/
structure Verified (n : Int) (x : Visitor) : Prop where
  client : x.status = .client
  gated : x.Gated n
  pending : x.hvc = n ∨ ∃ login ∈ x.dispatched, IsRightLogin n login

theorem code_ne_zero (random : Nat) : code random ≠ 0 := by
  unfold code
  omega

theorem Gated.concat (gated : x.Gated n) {call : Message × List Text}
    (ok : call.1.allow_unregistered_use = false → ∃ login ∈ x.dispatched, IsRightLogin n login)
    {y : Visitor} (log : y.dispatched = x.dispatched ++ [call]) : y.Gated n := by
  intro before other after same restricted
  rw [log] at same
  rcases List.eq_nil_or_concat after with rfl | ⟨more, last, rfl⟩
  · obtain ⟨front, end_⟩ := List.append_inj' same rfl
    obtain rfl : call = other := List.cons.inj end_ |>.1
    exact front ▸ ok restricted
  · have parts : x.dispatched ++ [call] = (before ++ other :: more) ++ [last] := by
      refine same.trans ?_
      simp
    exact gated before other more (List.append_inj' parts rfl).1 restricted

theorem m_login_eq (x : Visitor) (parv : List Text) (client : x.status = .client) :
    (x.m_login true parv).status = .client ∧ (x.m_login true parv).dispatched = x.dispatched ∧
      (x.hvc ≠ 0 → parv.length < 2 → (x.m_login true parv).hvc = x.hvc) := by
  unfold m_login
  split
  · exact ⟨client, rfl, fun _ _ => rfl⟩
  · rename_i go
    refine ⟨?_, ?_, fun pending short => absurd ?_ go⟩
    · simp only []
      split
      · rfl
      · exact client
    · simp only []
      split <;> rfl
    · simp [short]

theorem Verified.dispatch (verified : Verified n x) (some_ : n ≠ 0) {msg : Message}
    {parv : List Text} (allowed : msg.allow_unregistered_use = false → x.hvc = 0)
    (names : msg.cmd = "LOGIN" → 2 ≤ parv.length →
      x.hvc = 0 ∨ (atoi (parv.getD 1 [])).toInt = x.hvc) :
    Verified n (x.dispatch true msg parv) := by
  obtain ⟨client, gated, pending⟩ := verified
  have before : x.hvc = 0 → ∃ login ∈ x.dispatched, IsRightLogin n login := fun zero =>
    pending.resolve_left fun same => some_ (same.symm.trans zero)
  have later : (∃ login ∈ x.dispatched, IsRightLogin n login) →
      ∃ login ∈ x.dispatched ++ [(msg, parv)], IsRightLogin n login := fun ⟨login, member, right⟩ =>
    ⟨login, List.mem_append_left _ member, right⟩
  have held : ∀ y : Visitor, y.dispatched = x.dispatched ++ [(msg, parv)] → y.Gated n :=
    fun y log => gated.concat (fun restricted => before (allowed restricted)) log
  have kept : Verified n { x with dispatched := x.dispatched ++ [(msg, parv)] } :=
    ⟨client, held _ rfl, pending.imp_right later⟩
  unfold Visitor.dispatch
  simp only []
  split
  · rename_i login
    obtain ⟨client', log, short⟩ := m_login_eq
      { x with dispatched := x.dispatched ++ [(msg, parv)] } parv client
    refine ⟨client', held _ log, ?_⟩
    rw [log]
    by_cases zero : x.hvc = 0
    · exact .inr (later (before zero))
    · by_cases long : 2 ≤ parv.length
      · have named := (names login long).resolve_left zero
        refine .inr (pending.elim (fun same => ?_) later)
        exact ⟨(msg, parv), List.mem_append_right _ List.mem_cons_self, login, long,
          named.trans same⟩
      · rw [short zero (Nat.lt_of_not_le long)]
        exact kept.pending
  · split
    · unfold m_server
      rw [if_pos client]
      exact kept
    · split
      · exact ⟨client, held _ rfl, kept.pending⟩
      · exact kept

/-- **One event keeps the gate**, unless it is a LOGIN with another code. -/
theorem Verified.after (verified : Verified n x) (some_ : n ≠ 0) (ok : x.NamesCode event) :
    Verified n (x.after event) := by
  cases event with
  | closed => exact ⟨verified.client, verified.gated, verified.pending⟩
  | line name pbuffer =>
    unfold Visitor.after Visitor.parse
    simp only []
    split
    · exact verified
    · rename_i connected
      cases read : readLine name pbuffer with
      | none => exact verified
      | some call =>
        obtain ⟨msg, parv⟩ := call
        simp only []
        split
        · exact verified
        · rename_i passes
          refine verified.dispatch some_ (fun restricted => ?_)
            (ok (Bool.eq_false_iff.mpr connected) msg parv read)
          by_contra pending
          refine passes ?_
          rw [restricted]
          simp [pending]

/-- **The gate holds in every run without a LOGIN with another code.** -/
theorem run_gated {random : Nat} (run : GateRun NamesCode random x) : x.Gated (code random) := by
  refine Verified.gated ?_
  induction run with
  | start =>
    refine ⟨rfl, fun before call after same => ?_, .inl rfl⟩
    exact absurd same.symm (by simp [register_user])
  | step _ ok verified => exact verified.after (code_ne_zero random) ok

/-- A user whose code is 1 sends it and joins a channel. -/
theorem run_gated_login : (((register_user true 0).after (.line "ann" "LOGIN 1")).after
    (.line "ann" "JOIN #c")).Gated (code 0) := by
  refine run_gated (.step (.step .start ?_) ?_)
  · intro connected msg parv read login long
    have found : readLine "ann" "LOGIN 1" =
        some ((⟨"LOGIN", MAXPARA, true⟩ : Message), (["ann", "1"] : List Text)) := by decide
    rw [found] at read
    cases read
    exact .inr (by decide)
  · intro connected msg parv read login long
    exact .inl (by decide)

/-- **Any number opens the gate**: LOGIN 0 does, and JOIN is handled before the code has come. -/
theorem not_run_gated : ¬ ∀ (random : Nat) (x : Visitor),
    GateRun (fun _ _ => True) random x → x.Gated (code random) := by
  intro all
  have opened : GateRun (fun _ _ => True) 0
      ((register_user true 0).after (.line "ann" "LOGIN 0")) := .step .start trivial
  have joined : GateRun (fun _ _ => True) 0
      (((register_user true 0).after (.line "ann" "LOGIN 0")).after (.line "ann" "JOIN #c")) :=
    .step opened trivial
  obtain ⟨login, member, right⟩ := all 0 _ joined [(⟨"LOGIN", MAXPARA, true⟩, ["ann", "0"])]
    (⟨"JOIN", MAXPARA, false⟩, ["ann", "#c"]) [] (by decide) rfl
  rw [List.mem_singleton.mp member] at right
  exact absurd right.2.2 (by decide)

end Visitor

end PtlinkIrcd
