/-
**Where a command for a server goes.**

`hunt_server` of `s_serv.c` sends a command on to the server, or to the client, that one of its parameters
names.

* `next_client`, `huntMasks` — the search of the list of all clients for a name that the parameter
  matches.
* `hunt_server` — the function: what it returns, the parameters that it leaves, and what it sends.
* `Hunted.Right` — what it is to do.
* `huntMasks_spec` — the search skips whoever is reached through the link of the request.
* `hunt_server_iff` — **it is right exactly if the client that the parameter names is not on that link,
  apart from clients of this server and from masks**.
-/

import Mathlib.Data.List.Infix
import PtlinkIrcd.Channel.Runs
import PtlinkIrcd.Model.Match
import PtlinkIrcd.Table.ServerNames

namespace PtlinkIrcd

def ERR_NOSUCHSERVER : Nat := 402

/-! ### The function -/

/-- `HUNTED_NOSUCH`, `HUNTED_ISME` and `HUNTED_PASS`. -/
inductive Hunted
  | NOSUCH
  | ISME
  | PASS
deriving DecidableEq

/-- What is sent: a numeric, or the command with its parameters. -/
inductive HuntSent
  | numeric (acptr : ClientId) (numeric : Nat) (arg : Text)
  | command (acptr : ClientId) (parv : List Text)
deriving DecidableEq

/-- What `hunt_server` returns, the parameters that it leaves, and what it sends. -/
structure Hunt where
  verdict : Hunted
  parv : List Text
  sent : List HuntSent
deriving DecidableEq

def wilds (ch : Text) : Bool := '?' ∈ ch || '*' ∈ ch

namespace Ircd

variable (s : Ircd)

def nextOf (acptr : ClientId) : Option ClientId := (s.GlobalClientList.dropWhile (· ≠ acptr)).tail.head?

def prevOf (acptr : ClientId) : Option ClientId := (s.GlobalClientList.takeWhile (· ≠ acptr)).getLast?

def next_client (tmp : Option ClientId) (ch : Text) : Option ClientId :=
  let next := (s.find_client ch).or tmp
  if tmp.isSome && tmp.bind s.prevOf = next then none
  else if next ≠ tmp then next
  else next.bind fun next =>
    (s.GlobalClientList.dropWhile (· ≠ next)).find? fun x => ircMatch ch (s.client x).name

/-- `acptr->from == sptr->from && !MyConnect(acptr)`. -/
def wrongWay (sptr acptr : ClientId) : Bool :=
  (s.client acptr).link = (s.client sptr).link && !(s.client acptr).myConnect

def registered (acptr : ClientId) : Bool := (s.client acptr).isServer || (s.client acptr).isClient

/-- The search of the list for a name that the mask matches, from a client on. -/
def huntMasks (cptr sptr : ClientId) (ch : Text) : Nat → Option ClientId → Option (Option ClientId)
  | 0, _ => none
  | fuel + 1, acptr =>
    match s.next_client acptr ch with
    | none => some none
    | some acptr =>
      if s.wrongWay sptr acptr then huntMasks cptr sptr ch fuel (s.nextOf acptr)
      else if s.registered acptr && acptr ≠ cptr then some (some acptr)
      else huntMasks cptr sptr ch fuel (s.nextOf acptr)

/-- The first two lookups, without a client that would be the wrong way. -/
def huntDirect (sptr : ClientId) (p : Text) : Option ClientId :=
  ((s.find_client p).filter fun x => !s.wrongWay sptr x).or
    ((s.find_server p).filter fun x => !s.wrongWay sptr x)

/-- `IsMe(acptr) || MyClient(acptr)`. -/
def ours (acptr : ClientId) : Bool := (s.client acptr).isMe || (s.client acptr).myClient

/-- What is done with the client that was found; `p` is the collapsed parameter. -/
def huntFound (sptr : ClientId) (server : Nat) (parv : List Text) (p : Text) : Option ClientId → Hunt
  | none => ⟨.NOSUCH, parv, [.numeric sptr ERR_NOSUCHSERVER p]⟩
  | some acptr =>
    if s.ours acptr then ⟨.ISME, parv, []⟩
    else
      let name := (s.client acptr).name
      let parv := if !ircMatch name p then parv.set server name else parv
      ⟨.PASS, parv, [.command acptr parv]⟩

/-- `hunt_server`; the search of the list may not end. -/
def hunt_server (fuel : Nat) (cptr sptr : ClientId) (server : Nat) (parv : List Text) : Option Hunt :=
  let p := parv.getD server []
  if p = [] ∨ ircMatch (s.client me).name p = true ∨ ircMatch p (s.client me).name = true then
    some ⟨.ISME, parv, []⟩
  else
    let direct := s.huntDirect sptr p
    let p := collapse p
    let parv := parv.set server p
    let found :=
      match direct with
      | some acptr => some (some acptr)
      | none =>
        if !wilds p then some (s.find_server p)
        else s.huntMasks cptr sptr p fuel s.GlobalClientList.head?
    found.map (s.huntFound sptr server parv p)

/-! ### What it is to do -/

/-- A parameter and a name stand for each other: one of them, as a mask, matches the other. -/
def Matches (p name : Text) : Prop := MaskMatches p name ∨ MaskMatches name p

/-- The parameter stands for this server or for one of its clients. -/
def ForUs (p : Text) : Prop :=
  Matches p (s.client me).name ∨ ∃ x, s.ours x = true ∧ Matches p (s.client x).name

end Ircd

/-- **The command goes to one client that the parameter stands for, away from the link of the request, with
a parameter that stands for it.** -/
structure Hunt.Right (s : Ircd) (sptr : ClientId) (server : Nat) (parv : List Text) (r : Hunt) : Prop where
  pass : r.verdict = .PASS → ∃ acptr q, r.parv = parv.set server q ∧ r.sent = [.command acptr r.parv] ∧
    Ircd.Matches (parv.getD server []) (s.client acptr).name ∧
    (s.client acptr).link ≠ (s.client sptr).link ∧
    (q = (s.client acptr).name ∨ Ircd.Matches q (s.client acptr).name)
  isMe : r.verdict = .ISME → parv.getD server [] = [] ∨ s.ForUs (parv.getD server [])

namespace Ircd

/-- What is read of the network: names are strings, a connection is its own link, and the source of a
command is behind the connection that it came from. -/
structure Hunting (s : Ircd) (cptr sptr : ClientId) : Prop where
  name : ∀ x, NUL ∉ (s.client x).name
  direct : ∀ x, (s.client x).myConnect = true → (s.client x).link = some x
  source : (s.client sptr).link = some cptr

/-- The client that the parameter names: that of `find_client`, unless it is the wrong way, or the server
of `find_server`. -/
def named (s : Ircd) (sptr : ClientId) (p : Text) : Option ClientId :=
  ((s.find_client p).filter fun x => !s.wrongWay sptr x).or (s.find_server p)

/-- **The parameter leads astray**: it has no wild cards and names a client that is the wrong way, or the
client that it names stands for something else or is the link of the request. -/
def Astray (s : Ircd) (sptr : ClientId) (p : Text) : Prop :=
  ∃ x ∈ s.named sptr p, ¬ (s.wrongWay sptr x = true ∧ wilds (collapse p) = true) ∧
    if s.ours x then ¬ s.ForUs p
    else (s.client x).link = (s.client sptr).link ∨ ¬ Matches p (s.client x).name

/-! ### Names that are found -/

section

variable {s : Ircd} {p q name : Text} {x : ClientId}

theorem find_client_name (found : s.find_client p = some x) : irccmp p (s.client x).name = 0 :=
  of_decide_eq_true (Lib.ChainTable.find_some found).2

theorem matches_of_find_client (names : ∀ x, NUL ∉ (s.client x).name) (string : NUL ∉ p)
    (found : s.find_client p = some x) : MaskMatches p (s.client x).name :=
  maskMatches_of_fold ((irccmp_eq_zero_iff string (names x)).mp (find_client_name found))

end

/-! ### The search of the list -/

section

variable {s : Ircd} {cptr sptr x : ClientId} {ch p : Text} {fuel : Nat} {tmp : Option ClientId}

theorem next_client_name (found : s.next_client tmp ch = some x) :
    s.find_client ch = some x ∨ ircMatch ch (s.client x).name = true := by
  unfold next_client at found
  dsimp only at found
  split_ifs at found with last other
  · left
    rcases Option.or_eq_some_iff.mp found with exact_ | ⟨-, same⟩
    · exact exact_
    · exact absurd (found.trans same.symm) other
  · right
    obtain ⟨next, -, hit⟩ := Option.bind_eq_some_iff.mp found
    exact List.find?_some (p := fun x => ircMatch ch (s.client x).name) hit

/-- **The search skips whoever is the wrong way, and the connection of the request.** -/
theorem huntMasks_spec (found : s.huntMasks cptr sptr ch fuel tmp = some (some x)) :
    s.wrongWay sptr x = false ∧ x ≠ cptr ∧
      (s.find_client ch = some x ∨ ircMatch ch (s.client x).name = true) := by
  induction fuel generalizing tmp with
  | zero => exact nomatch found
  | succ fuel ih =>
    unfold huntMasks at found
    split at found
    · exact nomatch found
    · rename_i acptr next
      split_ifs at found with wrong takes
      · exact ih found
      · obtain rfl := Option.some.inj (Option.some.inj found)
        rw [Bool.and_eq_true, decide_eq_true_eq] at takes
        exact ⟨Bool.eq_false_iff.mpr wrong, takes.2, next_client_name next⟩
      · exact ih found

/-- A client that the search finds is away from the link, and the parameter stands for it. -/
theorem huntMasks_right (hunting : s.Hunting cptr sptr) (string : NUL ∉ p)
    (found : s.huntMasks cptr sptr (collapse p) fuel tmp = some (some x)) :
    (s.client x).link ≠ (s.client sptr).link ∧ Matches p (s.client x).name := by
  obtain ⟨right, other, name⟩ := huntMasks_spec found
  constructor
  · intro same
    have mine : (s.client x).myConnect = true := by
      by_contra foreign
      rw [Bool.not_eq_true] at foreign
      simp [wrongWay, same, foreign] at right
    exact other (Option.some.inj ((hunting.direct x mine).symm.trans (same.trans hunting.source)))
  · left
    rw [← collapse_matches]
    rcases name with exact_ | hit
    · exact matches_of_find_client hunting.name
        (fun inside => string ((collapse_sublist p).subset inside)) exact_
    · exact matches_of_ircMatch hit

end

/-! ### The client that was found -/

section

variable {s : Ircd} {cptr sptr x : ClientId} {server : Nat} {parv : List Text}

theorem right_none (q : Text) (parv' : List Text) :
    (s.huntFound sptr server parv' q none).Right s sptr server parv := ⟨nofun, nofun⟩

/-- **Whether it is right to go to a client.** -/
theorem right_found_iff {p : Text} (param : parv.getD server [] = p) (some_ : p ≠ []) :
    (s.huntFound sptr server (parv.set server (collapse p)) (collapse p) (some x)).Right s sptr server parv ↔
      if s.ours x then s.ForUs p
      else (s.client x).link ≠ (s.client sptr).link ∧ Matches p (s.client x).name := by
  by_cases ours : s.ours x = true
  · rw [if_pos ours]
    have verdict : s.huntFound sptr server (parv.set server (collapse p)) (collapse p) (some x) =
        ⟨.ISME, parv.set server (collapse p), []⟩ := if_pos ours
    rw [verdict]
    constructor
    · exact fun right => param ▸ (right.isMe rfl).resolve_left (param.symm ▸ some_)
    · exact fun forUs => ⟨nofun, fun _ => .inr (param.symm ▸ forUs)⟩
  · rw [if_neg ours]
    obtain ⟨q, verdict, rewritten⟩ : ∃ q, s.huntFound sptr server (parv.set server (collapse p)) (collapse p)
          (some x) = ⟨.PASS, parv.set server q, [.command x (parv.set server q)]⟩ ∧
        (q = (s.client x).name ∨ Matches q (s.client x).name) := by
      by_cases names : ircMatch (s.client x).name (collapse p) = true
      · exact ⟨collapse p, by simp [huntFound, ours, names], .inr (.inr (matches_of_ircMatch names))⟩
      · exact ⟨(s.client x).name, by simp [huntFound, ours, names], .inl rfl⟩
    rw [verdict]
    constructor
    · intro right
      obtain ⟨acptr, q', -, sent, stands, away, -⟩ := right.pass rfl
      obtain ⟨rfl, -⟩ := HuntSent.command.inj (List.cons.inj sent).1
      exact ⟨away, param ▸ stands⟩
    · rintro ⟨away, stands⟩
      exact ⟨fun _ => ⟨x, q, rfl, rfl, param.symm ▸ stands, away, rewritten⟩, nofun⟩

theorem collapse_of_plain {p : Text} (plain : wilds (collapse p) = false) : collapse p = p := by
  have noStar : '*' ∉ collapse p := by
    intro star
    simp [wilds, star] at plain
  clear plain
  fun_induction collapse p with
  | case1 => rfl
  | case2 => rfl
  | case3 c d rest stars ih =>
    refine absurd ?_ noStar
    have head := head?_collapse (d :: rest)
    rw [stars.2, List.head?_cons] at head
    rw [stars.2]
    exact List.mem_of_head? head
  | case4 c d rest apart ih => rw [ih fun star => noStar (List.mem_cons_of_mem _ star)]

/-! ### The whole function -/

/-- The first two lookups give the client that the parameter names, unless it is the wrong way. -/
theorem huntDirect_eq (sptr : ClientId) (p : Text) :
    s.huntDirect sptr p = (s.named sptr p).filter fun x => !s.wrongWay sptr x := by
  unfold huntDirect named
  cases client : (s.find_client p).filter fun x => !s.wrongWay sptr x with
  | none => rfl
  | some x =>
    have right : (!s.wrongWay sptr x) = true := (Option.filter_eq_some_iff.mp client).2
    simp [Option.filter, right]

/-- A client that the parameter names and that is the wrong way is that of `find_server`. -/
theorem find_server_of_wrongWay {p : Text} (named : s.named sptr p = some x)
    (wrong : s.wrongWay sptr x = true) : s.find_server p = some x := by
  rcases Option.or_eq_some_iff.mp named with client | ⟨-, server⟩
  · have right := (Option.filter_eq_some_iff.mp client).2
    rw [wrong] at right
    exact absurd right (by decide)
  · exact server

/-- **`hunt_server` is right exactly if the parameter does not lead astray**, where it is not this server
that it names at once. -/
theorem hunt_server_iff (hunting : s.Hunting cptr sptr) {p : Text} (param : parv.getD server [] = p)
    (string : NUL ∉ p) :
    (∀ fuel r, s.hunt_server fuel cptr sptr server parv = some r → r.Right s sptr server parv) ↔
      (p = [] ∨ ircMatch (s.client me).name p = true ∨ ircMatch p (s.client me).name = true) ∨
        ¬ s.Astray sptr p := by
  by_cases here : p = [] ∨ ircMatch (s.client me).name p = true ∨ ircMatch p (s.client me).name = true
  · refine iff_of_true (fun fuel r run => ?_) (.inl here)
    have verdict : s.hunt_server fuel cptr sptr server parv = some ⟨.ISME, parv, []⟩ := by
      simp only [hunt_server, param]
      exact if_pos here
    obtain rfl := Option.some.inj (verdict.symm.trans run)
    refine ⟨nofun, fun _ => ?_⟩
    rw [param]
    rcases here with empty | mine | mine
    · exact .inl empty
    · exact .inr (.inl (.inr (matches_of_ircMatch mine)))
    · exact .inr (.inl (.inl (matches_of_ircMatch mine)))
  · rw [or_iff_right here]
    have some_ : p ≠ [] := fun empty => here (.inl empty)
    have body : ∀ fuel, s.hunt_server fuel cptr sptr server parv =
        (match s.huntDirect sptr p with
          | some acptr => some (some acptr)
          | none =>
            if !wilds (collapse p) then some (s.find_server (collapse p))
            else s.huntMasks cptr sptr (collapse p) fuel s.GlobalClientList.head?).map
          (s.huntFound sptr server (parv.set server (collapse p)) (collapse p)) := by
      intro fuel
      simp only [hunt_server, param]
      exact if_neg here
    -- a search of the list is right in any case
    have masks : ∀ fuel r, (s.huntMasks cptr sptr (collapse p) fuel s.GlobalClientList.head?).map
        (s.huntFound sptr server (parv.set server (collapse p)) (collapse p)) = some r →
          r.Right s sptr server parv := by
      intro fuel r run
      obtain ⟨found, search, rfl⟩ := Option.map_eq_some_iff.mp run
      cases found with
      | none => exact right_none ..
      | some x =>
        obtain ⟨away, stands⟩ := huntMasks_right hunting string search
        refine (right_found_iff param some_).mpr ?_
        split
        · exact .inr ⟨x, ‹_›, stands⟩
        · exact ⟨away, stands⟩
    have settled : ∀ x, (if s.ours x then s.ForUs p
        else (s.client x).link ≠ (s.client sptr).link ∧ Matches p (s.client x).name) ↔
          ¬ if s.ours x then ¬ s.ForUs p
            else (s.client x).link = (s.client sptr).link ∨ ¬ Matches p (s.client x).name := by
      intro x
      split
      · exact not_not.symm
      · rw [not_or, not_not]
    -- a client that is gone to decides
    have decided : ∀ x, s.named sptr p = some x → ¬ (s.wrongWay sptr x = true ∧ wilds (collapse p) = true) →
        (∀ fuel, s.hunt_server fuel cptr sptr server parv =
          some (s.huntFound sptr server (parv.set server (collapse p)) (collapse p) (some x))) →
        ((∀ fuel r, s.hunt_server fuel cptr sptr server parv = some r → r.Right s sptr server parv) ↔
          ¬ s.Astray sptr p) := by
      intro x named apart run
      have astray : s.Astray sptr p ↔ if s.ours x then ¬ s.ForUs p
          else (s.client x).link = (s.client sptr).link ∨ ¬ Matches p (s.client x).name := by
        constructor
        · rintro ⟨y, member, -, bad⟩
          obtain rfl := Option.some.inj (named.symm.trans member)
          exact bad
        · exact fun bad => ⟨x, named, apart, bad⟩
      rw [astray, ← settled, ← right_found_iff param some_]
      constructor
      · exact fun right => right 0 _ (run 0)
      · intro right fuel r made
        obtain rfl := Option.some.inj ((run fuel).symm.trans made)
        exact right
    cases named : s.named sptr p with
    | none =>
      have direct : s.huntDirect sptr p = none := by rw [huntDirect_eq, named]; rfl
      refine iff_of_true (fun fuel r run => ?_) fun ⟨x, member, _⟩ => by simp [named] at member
      rw [body, direct] at run
      dsimp only at run
      split at run
      · rename_i plain
        rw [Bool.not_eq_true'] at plain
        have server_ : s.find_server (collapse p) = none := by
          rw [collapse_of_plain plain]
          exact (Option.or_eq_none_iff.mp named).2
        rw [server_] at run
        obtain rfl := Option.some.inj run
        exact right_none ..
      · exact masks fuel r run
    | some x =>
      by_cases wrong : s.wrongWay sptr x = true
      · have direct : s.huntDirect sptr p = none := by
          rw [huntDirect_eq, named]
          simp [Option.filter, wrong]
        by_cases wild : wilds (collapse p) = true
        · refine iff_of_true (fun fuel r run => ?_) ?_
          · rw [body, direct] at run
            dsimp only at run
            rw [if_neg (by simp [wild])] at run
            exact masks fuel r run
          · rintro ⟨y, member, apart, -⟩
            obtain rfl := Option.some.inj (named.symm.trans member)
            exact apart ⟨wrong, wild⟩
        · have plain : wilds (collapse p) = false := Bool.eq_false_iff.mpr wild
          have run : ∀ fuel, s.hunt_server fuel cptr sptr server parv =
              some (s.huntFound sptr server (parv.set server (collapse p)) (collapse p) (some x)) := by
            intro fuel
            rw [body, direct]
            dsimp only
            rw [if_pos (by simp [plain]), collapse_of_plain plain, find_server_of_wrongWay named wrong]
            rfl
          exact decided x named (fun both => wild both.2) run
      · have direct : s.huntDirect sptr p = some x := by
          rw [huntDirect_eq, named]
          simp [Option.filter, wrong]
        refine decided x named (fun both => wrong both.1) fun fuel => ?_
        rw [body, direct]
        rfl

end

/-- Two servers with a link, one behind the first of them, and there ann. -/
def sampleHunt : Ircd :=
  { Ircd.blank Ircd.sampleConf 1000 "home".toList with
    client := fun c =>
      match c with
      | 0 => bootClient "home".toList
      | 1 => Ircd.sampleServer
      | 2 => { Ircd.sampleServer with name := "leaf".toList, local_flag := false }
      | 3 => Ircd.sampleUser
      | 4 => { Ircd.sampleServer with name := "far".toList, link := some 4 }
      | _ => .zero
    clientTable := (((Lib.ChainTable.empty.add (hashNickName "hub".toList) 1).add
      (hashNickName "leaf".toList) 2).add (hashNickName "ann".toList) 3).add (hashNickName "far".toList) 4
    GlobalClientList := [4, 3, 2, 1, 0] }

theorem sampleHunt_hunting : sampleHunt.Hunting 1 3 where
  name x := by
    match x with
    | 0 | 1 | 2 | 3 | 4 => decide
    | _ + 5 => exact List.not_mem_nil
  direct x mine := by
    match x with
    | 0 | 2 | 3 => exact absurd mine (by decide)
    | 1 | 4 => rfl
    | _ + 5 => exact absurd mine Bool.false_ne_true
  source := rfl

/-- A command for the server with the other link. -/
theorem hunt_server_iff_far :
    (∀ fuel r, sampleHunt.hunt_server fuel 1 3 1 ["ann".toList, "far".toList] = some r →
        r.Right sampleHunt 3 1 ["ann".toList, "far".toList]) ↔
      ("far".toList = [] ∨ ircMatch (sampleHunt.client me).name "far".toList = true ∨
          ircMatch "far".toList (sampleHunt.client me).name = true) ∨
        ¬ sampleHunt.Astray 3 "far".toList :=
  hunt_server_iff sampleHunt_hunting rfl (by decide)

/-- **A command for a server behind the same link** goes back to where it came from. -/
theorem not_hunt_server : ¬ ∀ (s : Ircd) (cptr sptr : ClientId) (server : Nat) (parv : List Text),
    s.Hunting cptr sptr → NUL ∉ parv.getD server [] →
      ∀ fuel r, s.hunt_server fuel cptr sptr server parv = some r → r.Right s sptr server parv := by
  intro all
  have run : sampleHunt.hunt_server 0 1 3 1 ["ann".toList, "leaf".toList] =
      some ⟨.PASS, ["ann".toList, "leaf".toList], [.command 2 ["ann".toList, "leaf".toList]]⟩ := by
    decide +kernel
  obtain ⟨acptr, q, -, sent, -, away, -⟩ :=
    (all sampleHunt 1 3 1 _ sampleHunt_hunting (by decide) 0 _ run).pass rfl
  obtain ⟨rfl, -⟩ := HuntSent.command.inj (List.cons.inj sent).1
  exact away rfl

end Ircd

end PtlinkIrcd
