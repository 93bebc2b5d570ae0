/-
**G-lines and the users who are here already.**

`apply_gline` takes a new G-line to the local clients, `find_gkill` a new client to the G-lines. Both
look at the visible host, the real host and the address, and at the name of the user.

* `apply_gline`, `find_gkill` — the two functions.
* `exit_mem_apply_gline` — whom the first one disconnects; `find_gkill_isSome` — whom the second refuses.
* `apply_gline_iff` — **they agree on a user exactly when the name counts alike with and without its
  mark**, and the G-line has not expired.
-/

import PtlinkIrcd.Conf.Gline

namespace PtlinkIrcd

/-- What both functions look at in a local client; `ip` is its address as `inetntoa` writes it, and
`name` what `get_client_name` returns. -/
structure GlineClient where
  name : Text
  username : Text
  host : Text
  realhost : Text
  ip : Text
  isServer : Bool
  elined : Bool
  exemptGline : Bool
deriving DecidableEq

/-! ### The functions -/

/-- What `apply_gline` does: a notice to the operators, the reply `ERR_YOUREBANNEDCREEP`, and
`exit_client`, of the client in a slot of `local`. -/
inductive GlineAct
  | realops (text : Text)
  | banned (fd : Nat) (reason : Text)
  | exit (fd : Nat) (reason : Text)
deriving DecidableEq

/-- The notice about a client that is to go, the `gcount`th so far. -/
def glineNotice (gcount : Nat) (acptr : GlineClient) : List GlineAct :=
  if gcount < 20 then [.realops ("G-line active for ".toList ++ acptr.name)]
  else if gcount = 20 then [.realops "Aborting gline target oper notice as flood prevention".toList]
  else []

/-- Whether the masks of `apply_gline` are for a client. -/
def glineMatches (host user : Option Text) (acptr : GlineClient) : Bool :=
  (match user with
    | none => true
    | some user => ircMatch user acptr.username) &&
  match host with
  | none => true
  | some host => ircMatch host acptr.host || ircMatch host acptr.realhost || ircMatch host acptr.ip

/-- The loop of `apply_gline` from slot `i` on: what it does and how many clients go. -/
def glineLoop (others : Option Text) (host user : Option Text) (reason : Text) :
    Nat → List (Option GlineClient) → Nat → List GlineAct × Nat
  | _, [], gcount => ([], gcount)
  | i, none :: rest, gcount => glineLoop others host user reason (i + 1) rest gcount
  | i, some acptr :: rest, gcount =>
    if acptr.isServer || !glineMatches host user acptr then
      glineLoop others host user reason (i + 1) rest gcount
    else if acptr.elined || acptr.exemptGline then
      let after := glineLoop others host user reason (i + 1) rest gcount
      (.realops ("G-line exemption for ".toList ++ acptr.name) :: after.1, after.2)
    else
      let after := glineLoop others host user reason (i + 1) rest (gcount + 1)
      (glineNotice gcount acptr ++ .banned i reason :: .exit i (others.getD reason) :: after.1, after.2)

/-- `apply_gline`, where `others` is `GLineOthersReason` and the slots of `local` go up to
`highest_fd`. -/
def apply_gline (others : Option Text) (slots : List (Option GlineClient)) (host user : Option Text)
    (reason : Text) : List GlineAct × Nat :=
  glineLoop others host user reason 0 slots 0

/-- A user name without the mark of a user who was not identified. -/
def withoutMark (username : Text) : Text := if username.head? = some '~' then username.tail else username

/-- `find_gkill`: the list after the searches, and the entry. -/
def find_gkill (now : Seconds) (glines : List Gline) (cptr : GlineClient) (username : Text) :
    List Gline × Option Gline :=
  if cptr.elined || cptr.exemptGline then (glines, none)
  else
    let found := find_is_glined now glines (some cptr.realhost) (some (withoutMark username)) (some cptr.ip)
    match found.2 with
    | some kill => (found.1, some kill)
    | none => find_is_glined now found.1 (some cptr.host) (some (withoutMark username)) none

/-! ### Whom they are for -/

section

variable {others host user : Option Text} {reason text : Text} {slots : List (Option GlineClient)}
  {fd i gcount : Nat} {acptr : GlineClient} {now : Seconds} {kill : Gline}

/-- A client that `apply_gline` disconnects. -/
def Glined (host user : Option Text) (acptr : GlineClient) : Prop :=
  acptr.isServer = false ∧ glineMatches host user acptr = true ∧ acptr.elined = false ∧
    acptr.exemptGline = false

theorem exit_notMem_glineNotice : .exit fd text ∉ glineNotice gcount acptr := by
  unfold glineNotice
  split_ifs <;> simp

/-- The client in a slot, counted from `i`, if it is one of some kind. -/
def InSlot (P : GlineClient → Prop) (fd i : Nat) (slots : List (Option GlineClient)) : Prop :=
  ∃ k acptr, fd = i + k ∧ slots[k]? = some (some acptr) ∧ P acptr

theorem inSlot_cons {P : GlineClient → Prop} {slot : Option GlineClient} :
    InSlot P fd i (slot :: slots) ↔
      (fd = i ∧ ∃ acptr, slot = some acptr ∧ P acptr) ∨ InSlot P fd (i + 1) slots := by
  constructor
  · rintro ⟨k, acptr, rfl, there, fits⟩
    cases k with
    | zero => exact .inl ⟨rfl, acptr, Option.some.inj there, fits⟩
    | succ k => exact .inr ⟨k, acptr, by omega, there, fits⟩
  · rintro (⟨rfl, acptr, rfl, fits⟩ | ⟨k, acptr, rfl, there, fits⟩)
    · exact ⟨0, acptr, rfl, rfl, fits⟩
    · exact ⟨k + 1, acptr, by omega, there, fits⟩

/-- **The loop disconnects the clients that it is for.** -/
theorem exit_mem_glineLoop (others : Option Text) (reason : Text) :
    (∃ text, .exit fd text ∈ (glineLoop others host user reason i slots gcount).1) ↔
      InSlot (Glined host user) fd i slots := by
  induction slots generalizing i gcount with
  | nil => simp [glineLoop, InSlot]
  | cons slot rest ih =>
    rw [inSlot_cons]
    cases slot with
    | none =>
      rw [glineLoop, ih]
      simp
    | some acptr =>
      have self : (∃ c, some acptr = some c ∧ Glined host user c) ↔ Glined host user acptr :=
        ⟨fun ⟨c, same, fits⟩ => Option.some.inj same ▸ fits, fun fits => ⟨acptr, rfl, fits⟩⟩
      rw [glineLoop, self]
      by_cases apart : (acptr.isServer || !glineMatches host user acptr) = true
      · have other : ¬ Glined host user acptr := fun fits => by
          rw [fits.1, fits.2.1] at apart
          exact absurd apart (by decide)
        rw [if_pos apart, ih]
        simp [other]
      · rw [if_neg apart]
        simp only [Bool.or_eq_true, Bool.not_eq_true', not_or, Bool.not_eq_false] at apart
        by_cases exempt : (acptr.elined || acptr.exemptGline) = true
        · have other : ¬ Glined host user acptr := fun fits => by
            rw [fits.2.2.1, fits.2.2.2] at exempt
            exact absurd exempt (by decide)
          rw [if_pos exempt]
          simp only [List.mem_cons, reduceCtorEq, false_or, ih, other, and_false]
        · rw [if_neg exempt]
          simp only [Bool.or_eq_true, not_or, Bool.not_eq_true] at exempt apart
          have fits : Glined host user acptr := ⟨apart.1, apart.2, exempt.1, exempt.2⟩
          simp only [List.mem_append, List.mem_cons, reduceCtorEq, false_or, GlineAct.exit.injEq,
            exit_notMem_glineNotice, fits, and_true]
          rw [← @ih (i + 1) (gcount + 1)]
          constructor
          · rintro ⟨text, ⟨here, -⟩ | later⟩
            · exact .inl here
            · exact .inr ⟨text, later⟩
          · rintro (here | ⟨text, later⟩)
            · exact ⟨others.getD reason, .inl ⟨here, rfl⟩⟩
            · exact ⟨text, .inr later⟩

/-- A G-line that is for a client under a user name: it has not expired. -/
def Kills (now : Seconds) (acptr : GlineClient) (username : Text) (kill : Gline) : Prop :=
  now.toInt < kill.hold.toInt ∧ ircMatch kill.user (withoutMark username) = true ∧
    (ircMatch kill.host acptr.host || ircMatch kill.host acptr.realhost || ircMatch kill.host acptr.ip) = true

/-- **Whom `find_gkill` refuses.** -/
theorem find_gkill_isSome {glines : List Gline}
    (subject : acptr.elined = false ∧ acptr.exemptGline = false) (username : Text) :
    (find_gkill now glines acptr username).2.isSome = true ↔
      ∃ kill ∈ glines, Kills now acptr username kill := by
  have search (list : List Gline) (host : Text) (ip : Option Text) :
      (find_is_glined now list (some host) (some (withoutMark username)) ip).2.isSome = true ↔
        ∃ kill ∈ list, GlineBan now (some host) (some (withoutMark username)) ip kill :=
    Lib.Refusals.look_isSome
  have outer (kill : Gline) :
      GlineBan now (some acptr.realhost) (some (withoutMark username)) (some acptr.ip) kill ↔
        now.toInt < kill.hold.toInt ∧ ircMatch kill.user (withoutMark username) = true ∧
          (ircMatch kill.host acptr.ip = true ∨ ircMatch kill.host acptr.realhost = true) := by
    simp [GlineBan, Gline.hits]
  have inner (kill : Gline) : GlineBan now (some acptr.host) (some (withoutMark username)) none kill ↔
      now.toInt < kill.hold.toInt ∧ ircMatch kill.user (withoutMark username) = true ∧
        ircMatch kill.host acptr.host = true := by
    simp [GlineBan, Gline.hits]
  have whole (kill : Gline) : Kills now acptr username kill ↔
      GlineBan now (some acptr.realhost) (some (withoutMark username)) (some acptr.ip) kill ∨
        GlineBan now (some acptr.host) (some (withoutMark username)) none kill := by
    rw [outer, inner, Kills, Bool.or_eq_true, Bool.or_eq_true]
    tauto
  have first := search glines acptr.realhost (some acptr.ip)
  unfold find_gkill
  rw [subject.1, subject.2, Bool.or_self, if_neg Bool.false_ne_true]
  simp only [whole]
  cases found : (find_is_glined now glines (some acptr.realhost) (some (withoutMark username))
    (some acptr.ip)).2 with
  | some kill =>
    rw [found] at first
    obtain ⟨kill', member, bans⟩ := first.mp rfl
    exact iff_of_true rfl ⟨kill', member, .inl bans⟩
  | none =>
    rw [found] at first
    dsimp only
    rw [search]
    constructor
    · rintro ⟨kill, member, bans⟩
      exact ⟨kill, Lib.Refusals.mem_of_mem_look member, .inr bans⟩
    · rintro ⟨kill, member, bans | bans⟩
      · exact absurd (first.mpr ⟨kill, member, bans⟩) Bool.false_ne_true
      · exact ⟨kill, Lib.Refusals.mem_look member bans.1, bans⟩

/-- The user mask of a G-line takes a name with and without the mark of an unidentified user alike. -/
def MarkBlind (kill : Gline) (username : Text) : Prop :=
  ircMatch kill.user username = ircMatch kill.user (withoutMark username)

/-- No host of the user is one of the G-line; or it has not expired and takes the user name with and
without its mark alike; or it has expired and does not take the user name. -/
def GlineAgrees (now : Seconds) (kill : Gline) (acptr : GlineClient) : Prop :=
  (ircMatch kill.host acptr.host || ircMatch kill.host acptr.realhost ||
    ircMatch kill.host acptr.ip) = false ∨
  (now.toInt < kill.hold.toInt ∧ MarkBlind kill acptr.username) ∨
  (kill.hold.toInt ≤ now.toInt ∧ ircMatch kill.user acptr.username = false)

/-- **A new G-line disconnects a user exactly when it would refuse the user** if and only if it takes
the name with and without the mark of an unidentified user alike, and has not expired, unless it is not
for the user anyway. -/
theorem apply_gline_iff (now : Seconds) (kill : Gline) (others : Option Text) (reason : Text)
    (slots : List (Option GlineClient)) (fd : Nat) (acptr : GlineClient)
    (there : slots[fd]? = some (some acptr)) (user : acptr.isServer = false)
    (subject : acptr.elined = false ∧ acptr.exemptGline = false) :
    ((∃ text, .exit fd text ∈ (apply_gline others slots (some kill.host) (some kill.user) reason).1) ↔
      (find_gkill now [kill] acptr acptr.username).2.isSome = true) ↔ GlineAgrees now kill acptr := by
  have goes : (∃ text, .exit fd text ∈ (apply_gline others slots (some kill.host) (some kill.user) reason).1) ↔
      Glined (some kill.host) (some kill.user) acptr := by
    rw [apply_gline, exit_mem_glineLoop]
    constructor
    · rintro ⟨k, acptr', same, there', fits⟩
      rw [Nat.zero_add] at same
      obtain rfl := Option.some.inj (Option.some.inj (there.symm.trans (same ▸ there')))
      exact fits
    · exact fun fits => ⟨fd, acptr, (Nat.zero_add fd).symm, there, fits⟩
  have refused : (find_gkill now [kill] acptr acptr.username).2.isSome = true ↔
      Kills now acptr acptr.username kill := by
    rw [find_gkill_isSome subject]
    simp only [List.mem_singleton, exists_eq_left]
  rw [goes, refused]
  unfold Glined Kills GlineAgrees MarkBlind glineMatches
  rw [user, subject.1, subject.2]
  dsimp only
  generalize (ircMatch kill.host acptr.host || ircMatch kill.host acptr.realhost ||
    ircMatch kill.host acptr.ip) = hosts
  generalize ircMatch kill.user acptr.username = marked, ircMatch kill.user (withoutMark acptr.username) = plain
  cases hosts with
  | false => simp
  | true =>
    by_cases early : now.toInt < kill.hold.toInt
    · have late : ¬ kill.hold.toInt ≤ now.toInt := Int.not_le.mpr early
      simp [early, late]
    · have late : kill.hold.toInt ≤ now.toInt := Int.not_lt.mp early
      simp [early, late]

end

def sampleUserGline : Gline := ⟨"bob".toList, "*.example".toList, "spam".toList, "oper".toList, 3600⟩

/-- A user of that name who was not identified. -/
def sampleUnidentified : GlineClient :=
  ⟨"bob".toList, "~bob".toList, "h.example".toList, "h.example".toList, "10.0.0.1".toList, false, false, false⟩

/-- The same user, identified. -/
theorem apply_gline_iff_identified :
    ((∃ text, .exit 0 text ∈ (apply_gline none [some { sampleUnidentified with username := "bob".toList }]
        (some sampleUserGline.host) (some sampleUserGline.user) "spam".toList).1) ↔
      (find_gkill 0 [sampleUserGline] { sampleUnidentified with username := "bob".toList }
        "bob".toList).2.isSome = true) ↔
      GlineAgrees 0 sampleUserGline { sampleUnidentified with username := "bob".toList } :=
  apply_gline_iff 0 sampleUserGline none "spam".toList _ 0 { sampleUnidentified with username := "bob".toList }
    rfl rfl ⟨rfl, rfl⟩

/-- **An unidentified user stays, but could not come in again.** -/
theorem not_apply_gline : ¬ ∀ (now : Seconds) (kill : Gline) (others : Option Text) (reason : Text)
    (slots : List (Option GlineClient)) (fd : Nat) (acptr : GlineClient),
    slots[fd]? = some (some acptr) → acptr.isServer = false →
    (acptr.elined = false ∧ acptr.exemptGline = false) →
    ((∃ text, .exit fd text ∈ (apply_gline others slots (some kill.host) (some kill.user) reason).1) ↔
      (find_gkill now [kill] acptr acptr.username).2.isSome = true) := by
  intro agrees
  obtain ⟨text, goes⟩ := (agrees 0 sampleUserGline none "spam".toList [some sampleUnidentified] 0
    sampleUnidentified rfl rfl ⟨rfl, rfl⟩).mpr (by decide +kernel)
  have stays : (apply_gline none [some sampleUnidentified] (some sampleUserGline.host)
      (some sampleUserGline.user) "spam".toList).1 = [] := by decide +kernel
  rw [stays] at goes
  exact absurd goes List.not_mem_nil

end PtlinkIrcd
