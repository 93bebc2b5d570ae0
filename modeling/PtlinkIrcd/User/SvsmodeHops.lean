/-
**SVSMODE from server to server.**

`m_svsmode` of `m_svsmode.c` with the news mask and the language that it sets, and the line with which a
server passes it on to that of its target.

* `SvsServer.m_svsmode` — `Ircd.m_svsmode` with the two fields of the user.
* `svsLetters_eq` — the letters `n` and `l` take the extra parameters from the last one on.
* `SvsRoute` — the parameters with which a message comes to a server, over any number of others.
* `SvsRoute.cases` — **one word of modes goes over any number of servers with the first extra parameter**.
* `svsmode_hops_iff` — where the modes are one word and the line is not cut, the change is the same over
  any servers exactly if the extra that counts is the first one.
-/

import PtlinkIrcd.Channel.Runs
import PtlinkIrcd.Lib.Writes
import PtlinkIrcd.Model.Names
import PtlinkIrcd.User.UserMode

namespace PtlinkIrcd

open Lib

/-! ### The extra parameters -/

def MAX_LANGS : Int32 := 10

def digitOf (c : Char) : Nat :=
  if c.isDigit then c.toNat - '0'.toNat else (toUpper c).toNat - 'A'.toNat + 10

def isHexDigit (c : Char) : Bool :=
  c.isDigit || 'A'.toNat ≤ (toUpper c).toNat && (toUpper c).toNat ≤ 'F'.toNat

/-- The base that `strtoul` finds, with the digits. -/
def strtoulBase (t : Text) : Nat × Text :=
  match t with
  | '0' :: x :: c :: rest =>
    if (x = 'x' ∨ x = 'X') ∧ isHexDigit c then (16, c :: rest) else (8, t)
  | '0' :: _ => (8, t)
  | _ => (10, t)

/-- `strtoul(t, NULL, 0)`, stored in an `unsigned int`. -/
def strtoul (t : Text) : BitVec 32 :=
  let t := t.dropWhile isSpace
  let (negative, t) : Bool × Text :=
    match t with
    | '-' :: rest => (true, rest)
    | '+' :: rest => (false, rest)
    | _ => (false, t)
  let (base, t) := strtoulBase t
  let value := (t.takeWhile fun c => isHexDigit c && digitOf c < base).foldl
    (fun n c => base * n + digitOf c) 0
  if 2 ^ 64 ≤ value then BitVec.ofNat 32 (2 ^ 64 - 1)
  else if negative then -BitVec.ofNat 32 value else BitVec.ofNat 32 value

def svsLang (t : Text) : Int32 :=
  let lang := atoi t
  if MAX_LANGS < lang ∨ lang < 0 then 0 else lang

/-- The fields of a user that the extra parameters are for. -/
structure SvsUser where
  news_mask : BitVec 32
  lang : Int32

/-- A letter of the modes, with the number of extra parameters that are left. -/
def svsExtraLetter (parv : List Text) (m : SvsUser × Nat) (c : Char) : SvsUser × Nat :=
  if c = 'n' then
    if 0 < m.2 then ({ m.1 with news_mask := strtoul (parv.getD (3 + m.2) []) }, m.2 - 1) else m
  else if c = 'l' then
    if 0 < m.2 then ({ m.1 with lang := svsLang (parv.getD (3 + m.2) []) }, m.2 - 1) else m
  else m

/-- The local user of a nickname, if it is the one that has come at that time. -/
def Ircd.svsTarget (s : Ircd) (nick ts : Text) : Option ClientId :=
  (s.find_person nick).filter fun acptr =>
    (s.client acptr).myClient && !(atol ts ≠ 0 && atol ts ≠ (s.client acptr).tsinfo)

/-- The client whose modes a message changes. -/
def Ircd.svsChanged (s : Ircd) (cptr sptr : ClientId) (parv : List Text) : Option ClientId :=
  if !(s.client cptr).isServer || !(s.client sptr).isService then none
  else
    let parv := Ircd.svsParams parv
    if parv.length < 4 then none else s.svsTarget (parv.getD 1 []) (parv.getD 2 [])

/-- A server with these fields of its users. -/
structure SvsServer where
  ircd : Ircd
  user : ClientId → SvsUser

def SvsServer.m_svsmode (s : SvsServer) (cptr sptr : ClientId) (parv : List Text) : SvsServer where
  ircd := s.ircd.m_svsmode cptr sptr parv
  user :=
    match s.ircd.svsChanged cptr sptr parv with
    | none => s.user
    | some acptr =>
      let parv := Ircd.svsParams parv
      Function.update s.user acptr
        ((parv.getD 3 []).foldl (svsExtraLetter parv) (s.user acptr, parv.length - 4)).1

/-! ### Servers on the way -/

/-- The line with which a message is passed on. -/
def svsRelay (parv : List Text) : Text :=
  let parv := Ircd.svsParams parv
  line [":", parv.getD 0 [], " SVSMODE ", parv.getD 1 [], " ", parv.getD 2 [], " ",
    parv.getD 3 [], " :", parv.getD 4 []]

/-- A message of services comes over a server. -/
def FromServices (s : Ircd) (cptr sptr : ClientId) : Prop :=
  (s.client cptr).isServer = true ∧ (s.client sptr).isService = true

/-- **The parameters with which a message comes**: directly, or with what the next server reads of the
line that one with the target behind another link has sent. -/
inductive SvsRoute (parv : List Text) : List Text → Prop
  | direct : SvsRoute parv parv
  | relayed {before after : List Text} {s t : Ircd} {cptr sptr acptr link source : ClientId} {text : Text}
      (route : SvsRoute parv before) (services : FromServices s cptr sptr)
      (sent : (s.m_svsmode cptr sptr before).sent = s.sent ++ [.one acptr text])
      (behind : (s.client acptr).myClient = false) (server : (t.client link).isServer = true)
      (read : t.parse link (wire text) = .message source "SVSMODE".toList after) : SvsRoute parv after

/-- **The change is the same over any servers**: the modes, the news mask and the language of every
client of the last server. -/
def HopIndependent (parv : List Text) : Prop :=
  ∀ after, SvsRoute parv after →
    ∀ (s : SvsServer) (cptr sptr cptr' sptr' : ClientId), FromServices s.ircd cptr sptr →
      FromServices s.ircd cptr' sptr' → ∀ acptr,
        let direct := s.m_svsmode cptr sptr parv
        let relayed := s.m_svsmode cptr' sptr' after
        (relayed.ircd.client acptr).umodes = (direct.ircd.client acptr).umodes ∧
          relayed.user acptr = direct.user acptr

/-! ### The letters and the extra parameters -/

/-- The letters that take an extra parameter. -/
def svsLetters (modes : Text) : List Char := modes.filter fun c => c = 'n' || c = 'l'

def svsValue (c : Char) (t : Text) : BitVec 32 := if c = 'n' then strtoul t else (svsLang t).toBitVec

/-- The two fields as a store: the news mask, and the language. -/
def SvsUser.read (u : SvsUser) : Bool → BitVec 32
  | true => u.news_mask
  | false => u.lang.toBitVec

/-- The writes of the letters: each takes the last parameter that is left. -/
def svsWrites (letters : List Char) (extras : List Text) : List (Bool × BitVec 32) :=
  (letters.zip extras.reverse).map fun w => (w.1 == 'n', svsValue w.1 w.2)

theorem SvsUser.read_injective : Function.Injective SvsUser.read := by
  intro u v same
  have news := congrFun same true
  have lang := congrFun same false
  cases u
  cases v
  exact SvsUser.mk.injEq .. ▸ ⟨news, Int32.toBitVec_inj.mp lang⟩

theorem SvsUser.read_surjective (f : Bool → BitVec 32) : ∃ u : SvsUser, u.read = f :=
  ⟨⟨f true, ⟨⟨f false⟩⟩⟩, by funext news; cases news <;> rfl⟩

theorem svsLetters_cons (c : Char) (modes : Text) :
    svsLetters (c :: modes) =
      if c = 'n' ∨ c = 'l' then c :: svsLetters modes else svsLetters modes := by
  unfold svsLetters
  rw [List.filter_cons]
  simp only [Bool.or_eq_true, decide_eq_true_eq]

theorem svsExtraLetter_takes {parv : List Text} {c : Char} (letter : c = 'n' ∨ c = 'l') (u : SvsUser)
    (left : Nat) : ∃ v, svsExtraLetter parv (u, left + 1) c = (v, left) ∧
      v.read = Function.update u.read (c == 'n') (svsValue c (parv.getD (4 + left) [])) := by
  have place : 3 + (left + 1) = 4 + left := by omega
  unfold svsExtraLetter
  dsimp only
  rw [place]
  rcases letter with rfl | rfl
  · refine ⟨{ u with news_mask := strtoul (parv.getD (4 + left) []) }, ?_, ?_⟩
    · simp
    · funext news
      cases news <;> simp [SvsUser.read, svsValue]
  · refine ⟨{ u with lang := svsLang (parv.getD (4 + left) []) }, ?_, ?_⟩
    · simp
    · funext news
      cases news <;> simp [SvsUser.read, svsValue]

/-- **The loop over the modes writes what the letters take.** -/
theorem svsLetters_eq {parv extras : List Text} (parts : parv.drop 4 = extras) (modes : Text)
    (u : SvsUser) (k : Nat) (inside : k ≤ extras.length) :
    (modes.foldl (svsExtraLetter parv) (u, k)).1.read =
      writeAll (svsWrites (svsLetters modes) (extras.take k)) u.read := by
  induction modes generalizing u k with
  | nil => rfl
  | cons c modes ih =>
    rw [List.foldl_cons, svsLetters_cons]
    by_cases letter : c = 'n' ∨ c = 'l'
    · rw [if_pos letter]
      cases k with
      | zero =>
        have stays : svsExtraLetter parv (u, 0) c = (u, 0) := by
          unfold svsExtraLetter
          split_ifs <;> first | rfl | omega
        rw [stays, ih u 0 (Nat.zero_le _)]
        simp [svsWrites]
      | succ left =>
        obtain ⟨v, taken, read⟩ := @svsExtraLetter_takes parv c letter u left
        have last : (extras.take (left + 1)).reverse =
            parv.getD (4 + left) [] :: (extras.take left).reverse := by
          have some_ : extras[left]? = some (parv.getD (4 + left) []) := by
            rw [← parts, List.getElem?_drop, List.getD_eq_getElem?_getD]
            rw [← parts, List.length_drop] at inside
            rw [List.getElem?_eq_getElem (by omega)]
            rfl
          rw [List.take_add_one, some_, Option.toList_some, List.reverse_append]
          rfl
        rw [taken, ih v left (by omega), read, svsWrites, svsWrites, last]
        rfl
    · rw [if_neg letter]
      rw [not_or] at letter
      have stays : svsExtraLetter parv (u, k) c = (u, k) := by
        rw [svsExtraLetter, if_neg letter.1, if_neg letter.2]
      rw [stays, ih u k inside]

/-- **The extra that counts is the first one**: no letter takes one, or all that do are the same and what
the last of them takes has the value of the first. -/
def SvsFair (letters : List Char) (extras : List Text) : Prop :=
  letters = [] ∨ ∃ c first last, letters.head? = some c ∧ extras.head? = some first ∧
    (∀ d ∈ letters.take extras.length, d = c) ∧
    (letters.zip extras.reverse).getLast?.map Prod.snd = some last ∧ svsValue c last = svsValue c first

theorem map_fst_svsWrites (letters : List Char) (extras : List Text) :
    (svsWrites letters extras).map Prod.fst = (letters.take extras.length).map (· == 'n') := by
  have firsts : (letters.zip extras.reverse).map Prod.fst = letters.take extras.length := by
    rw [List.zip_eq_zip_take_min, List.length_reverse, List.map_fst_zip (by simp), List.take_eq_take_iff]
    omega
  rw [svsWrites, List.map_map, ← firsts, List.map_map]
  rfl

/-- **The letters do the same with the first parameter alone.** -/
theorem svsFair_iff {letters : List Char} (kinds : ∀ c ∈ letters, c = 'n' ∨ c = 'l')
    (extras : List Text) :
    (∀ f, writeAll (svsWrites letters extras) f = writeAll (svsWrites letters [extras.headD []]) f) ↔
      SvsFair letters extras := by
  have : Nontrivial (BitVec 32) := ⟨0, 1, by decide⟩
  rw [writeAll_eq_iff]
  cases letters with
  | nil => exact iff_of_true (fun _ => rfl) (.inl rfl)
  | cons c rest =>
    -- the first parameter alone goes to the first letter
    have alone : svsWrites (c :: rest) [extras.headD []] =
        [(c == 'n', svsValue c (extras.headD []))] := by
      simp [svsWrites]
    have keys := map_fst_svsWrites (c :: rest) extras
    have all_iff : (∀ d ∈ (c :: rest).take extras.length, d = c) ↔
        ∀ w ∈ svsWrites (c :: rest) extras, w.1 = (c == 'n') := by
      have same : ∀ d ∈ c :: rest, d = c ↔ (d == 'n') = (c == 'n') := by
        intro d inside
        rcases kinds d inside with rfl | rfl <;> rcases kinds c List.mem_cons_self with rfl | rfl <;>
          simp
      have mapped : (∀ w ∈ svsWrites (c :: rest) extras, w.1 = (c == 'n')) ↔
          ∀ k ∈ (svsWrites (c :: rest) extras).map Prod.fst, k = (c == 'n') := by
        rw [List.forall_mem_map]
      rw [mapped, keys, List.forall_mem_map]
      exact forall₂_congr fun d inside => same d (List.mem_of_mem_take inside)
    have last_iff : (svsWrites (c :: rest) extras).getLast?.map Prod.snd =
        ((c :: rest).zip extras.reverse).getLast?.map fun w => svsValue w.1 w.2 := by
      rw [svsWrites, List.getLast?_map, Option.map_map]
      rfl
    rw [alone]
    constructor
    · intro same
      have all : ∀ w ∈ svsWrites (c :: rest) extras, w.1 = (c == 'n') := by
        have none_ := lastWrite_eq_none.mp ((same (!(c == 'n'))).trans (by simp [lastWrite]))
        intro w inside
        have := none_ w inside
        revert this
        cases w.1 <;> cases (c == 'n') <;> simp
      have last := same (c == 'n')
      rw [lastWrite_of_all all, last_iff, lastWrite, if_pos rfl] at last
      obtain ⟨⟨d, last_⟩, taken, value⟩ := Option.map_eq_some_iff.mp last
      obtain ⟨inLetters, inExtras⟩ := List.of_mem_zip (List.mem_of_getLast? taken)
      have here : d = c := by
        have member : (d == 'n', svsValue d last_) ∈ svsWrites (c :: rest) extras :=
          List.mem_map_of_mem (List.mem_of_getLast? taken)
        have key := all _ member
        dsimp only at key
        rcases kinds d inLetters with rfl | rfl <;> rcases kinds c List.mem_cons_self with rfl | rfl <;>
          simp at key <;> rfl
      cases extras with
      | nil => simp at inExtras
      | cons first more =>
        exact .inr ⟨c, first, last_, rfl, rfl, all_iff.mpr all, by rw [taken]; rfl, here ▸ value⟩
    · rintro (none_ | ⟨c', first, last, start, first_, all, last_, value⟩) news
      · cases none_
      · obtain rfl : c = c' := Option.some.inj start
        have keys_ := all_iff.mp all
        by_cases here : (c == 'n') = news
        · subst here
          rw [lastWrite_of_all keys_, last_iff, lastWrite, if_pos rfl]
          obtain ⟨⟨d, _⟩, taken, rfl⟩ := Option.map_eq_some_iff.mp last_
          have member : (d == 'n') ∈ (svsWrites (c :: rest) extras).map Prod.fst :=
            List.mem_map_of_mem (List.mem_map_of_mem (List.mem_of_getLast? taken))
          rw [keys] at member
          obtain ⟨e, inside, key⟩ := List.mem_map.mp member
          have same : svsValue d = svsValue c := by
            rw [all e inside] at key
            funext t
            unfold svsValue
            rw [← Bool.coe_iff_coe, beq_iff_eq, beq_iff_eq] at key
            simp only [key]
          have head : extras.headD [] = first := by rw [List.headD_eq_head?_getD, first_]; rfl
          rw [taken, Option.map_some, same, value, head]
          rfl
        · rw [lastWrite_eq_none.mpr fun w inside => keys_ w inside ▸ here]
          simp [lastWrite, here]

/-! ### The line that is passed on -/

section Relay

variable {sender nick ts modes e text : Text} {parv extras : List Text}

theorem svsParams_of_digit (digit : (ts.head?.map Char.isDigit).getD false = true) :
    Ircd.svsParams (sender :: nick :: ts :: modes :: extras) =
      sender :: nick :: ts :: modes :: extras := by
  unfold Ircd.svsParams
  rw [if_neg]
  rintro (few | bad)
  · simp only [List.length_cons] at few
    omega
  · exact absurd (digit.symm.trans bad) nofun

/-- **The parameters of a message that is not ignored**: the nickname and the time stamp are words, and so
are modes with something behind them. -/
theorem svsParams_read (read : ∃ text, parv = sender :: params (MAXPARA - 1) text)
    (enough : 4 ≤ (Ircd.svsParams parv).length) :
    ∃ nick ts modes extras, Ircd.svsParams parv = sender :: nick :: ts :: modes :: extras ∧
      IsMiddle nick ∧ IsMiddle ts ∧ (ts.head?.map Char.isDigit).getD false = true ∧
        (extras ≠ [] → IsMiddle modes) := by
  obtain ⟨text, rfl⟩ := read
  have followed : ∀ p rest, p :: rest <:+ params (MAXPARA - 1) text → rest ≠ [] → IsMiddle p :=
    fun p rest inside some_ => (params_followed inside some_).1
  have zero : IsMiddle "0".toList := ⟨by decide, by decide, by decide⟩
  generalize params (MAXPARA - 1) text = ps at followed enough ⊢
  unfold Ircd.svsParams at enough ⊢
  split_ifs at enough ⊢ with missing
  · -- the nickname and the modes, with a time stamp put between them
    match ps, followed, enough with
    | [], _, enough => simp at enough
    | [_], _, enough => simp at enough
    | nick :: modes :: extras, followed, _ =>
      exact ⟨nick, "0".toList, modes, extras, rfl, followed nick _ (List.suffix_refl _) nofun, zero,
        by decide, followed modes extras ⟨[nick], rfl⟩⟩
  · rw [not_or, not_lt, Bool.not_eq_false] at missing
    match ps, followed, missing with
    | [], _, missing => simp at missing
    | [_], _, missing => simp at missing
    | [_, _], _, missing => simp at missing
    | nick :: ts :: modes :: extras, followed, missing =>
      exact ⟨nick, ts, modes, extras, rfl, followed nick _ (List.suffix_refl _) nofun,
        followed ts _ ⟨[nick], rfl⟩ nofun, missing.2, followed modes extras ⟨[nick, ts], rfl⟩⟩

theorem svsRelay_eq (parts : Ircd.svsParams parv = sender :: nick :: ts :: modes :: extras) :
    svsRelay parv = ':' :: (sender ++ ' ' :: ("SVSMODE".toList ++ ' ' ::
      (nick ++ ' ' :: (ts ++ ' ' :: (modes ++ ' ' :: ':' :: extras.headD []))))) := by
  have head : (sender :: nick :: ts :: modes :: extras).getD 4 [] = extras.headD [] := by
    cases extras <;> rfl
  unfold svsRelay line
  dsimp only
  rw [parts, head]
  simp only [List.getD_cons_zero, List.getD_cons_succ, List.flatten_cons, List.flatten_nil]
  simp

theorem isCommand_svsmode : IsCommand "SVSMODE".toList :=
  ⟨by decide, by decide, by rintro c ⟨⟩; decide, by decide⟩

/-- What the next server has: one extra parameter, if there are modes. -/
def svsHop (parv : List Text) : List Text :=
  let parv := Ircd.svsParams parv
  parv.take 3 ++ (if parv.getD 3 [] = [] then [[]] else [parv.getD 3 [], parv.getD 4 []])

theorem params_svs (nick_ : IsMiddle nick) (ts_ : IsMiddle ts) (word : modes = [] ∨ IsMiddle modes) :
    params (MAXPARA - 1) (' ' :: (nick ++ ' ' :: (ts ++ ' ' :: (modes ++ ' ' :: ':' :: e)))) =
      nick :: ts :: (if modes = [] then [e] else [modes, e]) := by
  rw [show MAXPARA - 1 = 12 + 2 from rfl, params_middle nick_, show 12 + 1 = 11 + 2 from rfl,
    params_middle ts_]
  rcases word with rfl | middle
  · rw [if_pos rfl, List.nil_append]
    -- two blanks are like one
    have twice : params 12 (' ' :: ' ' :: ':' :: e) = params 12 (' ' :: ':' :: e) := rfl
    rw [twice, params_colon]
  · rw [if_neg middle.ne_nil, show 11 + 1 = 10 + 2 from rfl, params_middle middle, params_colon]

theorem svsHop_eq (parts : Ircd.svsParams parv = sender :: nick :: ts :: modes :: extras) :
    svsHop parv = sender :: nick :: ts :: (if modes = [] then [[]] else [modes, extras.headD []]) := by
  have head : (sender :: nick :: ts :: modes :: extras).getD 4 [] = extras.headD [] := by
    cases extras <;> rfl
  unfold svsHop
  dsimp only
  rw [parts, head]
  rfl

theorem svsParams_svsHop (parts : Ircd.svsParams parv = sender :: nick :: ts :: modes :: extras)
    (digit : (ts.head?.map Char.isDigit).getD false = true) :
    Ircd.svsParams (svsHop parv) =
      sender :: nick :: ts :: modes :: (if modes = [] then [] else [extras.headD []]) := by
  rw [svsHop_eq parts]
  by_cases empty : modes = []
  · rw [if_pos empty, if_pos empty, empty, svsParams_of_digit digit]
  · rw [if_neg empty, if_neg empty, svsParams_of_digit digit]

variable {t : Ircd} {link source : ClientId}

/-- **What the next server reads.** -/
theorem read_svsRelay (parts : Ircd.svsParams parv = sender :: nick :: ts :: modes :: extras)
    (nick_ : IsMiddle nick) (ts_ : IsMiddle ts) (word : modes = [] ∨ IsMiddle modes)
    (bare : modes = [] → extras = []) :
    sender :: params (MAXPARA - 1) (' ' :: (nick ++ ' ' :: (ts ++ ' ' ::
      (modes ++ ' ' :: ':' :: extras.headD [])))) = svsHop parv := by
  rw [params_svs nick_ ts_ word, svsHop_eq parts]
  by_cases empty : modes = []
  · rw [if_pos empty, if_pos empty, bare empty]
    rfl
  · rw [if_neg empty, if_neg empty]

end Relay

/-! ### What a message does -/

section Deed

variable {s : Ircd} {cptr sptr : ClientId} {sender nick ts modes text : Text} {parv extras : List Text}

theorem FromServices.passes (services : FromServices s cptr sptr) :
    (!(s.client cptr).isServer || !(s.client sptr).isService) = false := by
  rw [services.1, services.2]
  rfl

/-- **Only the relay is a line to a client of another server.** -/
theorem svsRelay_of_sent {acptr : ClientId} (services : FromServices s cptr sptr)
    (sent : (s.m_svsmode cptr sptr parv).sent = s.sent ++ [.one acptr text])
    (behind : (s.client acptr).myClient = false) :
    text = svsRelay parv ∧ 4 ≤ (Ircd.svsParams parv).length := by
  have silent : ¬ s.sent = s.sent ++ [.one acptr text] := by simp
  unfold Ircd.m_svsmode at sent
  rw [services.passes, if_neg Bool.false_ne_true] at sent
  dsimp only at sent
  split_ifs at sent with few
  · exact absurd sent silent
  · refine ⟨?_, not_lt.mp few⟩
    split at sent
    · exact absurd sent silent
    · rename_i found _
      split_ifs at sent with mine unmatched
      · exact absurd (List.append_cancel_left sent) (by simp)
      · unfold Ircd.send_umode_out at sent
        dsimp only at sent
        rw [Ircd.sendIf_sent, Ircd.sendIf_sent, List.append_assoc] at sent
        have last := List.append_cancel_left sent
        split_ifs at last
        · simp at last
        · simp at last
        · simp at last
          rw [last.1, behind] at mine
          exact absurd mine nofun
        · simp at last
      · rw [Ircd.sendIf_sent] at sent
        have last := List.append_cancel_left sent
        split_ifs at last
        · simp at last
          exact last.2.symm

theorem svsChanged_eq (services : FromServices s cptr sptr)
    (parts : Ircd.svsParams parv = sender :: nick :: ts :: modes :: extras) :
    s.svsChanged cptr sptr parv = s.svsTarget nick ts := by
  unfold Ircd.svsChanged
  rw [services.passes, if_neg Bool.false_ne_true, parts]
  exact if_neg (by simp)

/-- **The modes after a message**, of every client. -/
theorem m_svsmode_umodes (services : FromServices s cptr sptr)
    (parts : Ircd.svsParams parv = sender :: nick :: ts :: modes :: extras) (c : ClientId) :
    ((s.m_svsmode cptr sptr parv).client c).umodes =
      if s.svsTarget nick ts = some c then
        (modes.foldl svsModeLetter
          ⟨true, (s.client c).umodes, false, s.count.oper, (s.client c).flags2⟩).umodes
      else (s.client c).umodes := by
  unfold Ircd.m_svsmode Ircd.svsTarget
  rw [services.passes, if_neg Bool.false_ne_true, parts]
  simp only [List.getD_cons_zero, List.getD_cons_succ]
  rw [if_neg (by simp)]
  cases s.find_person nick with
  | none => simp
  | some acptr =>
    dsimp only
    rw [Option.filter_some]
    by_cases mine : (s.client acptr).myClient = true
    · rw [if_pos mine, mine, Bool.true_and]
      by_cases unmatched : (decide (atol ts ≠ 0) && decide (atol ts ≠ (s.client acptr).tsinfo)) = true
      · rw [if_pos unmatched, unmatched]
        simp
      · rw [Bool.not_eq_true] at unmatched
        rw [unmatched, if_neg Bool.false_ne_true, Bool.not_false, if_pos rfl]
        obtain ⟨sent, same⟩ := Ircd.send_umode_out_eq ((s.setClient acptr { s.client acptr with
          umodes := (modes.foldl svsModeLetter ⟨true, (s.client acptr).umodes, false, s.count.oper,
            (s.client acptr).flags2⟩).umodes
          flags2 := (modes.foldl svsModeLetter ⟨true, (s.client acptr).umodes, false, s.count.oper,
            (s.client acptr).flags2⟩).flags2 }).setCountOper (modes.foldl svsModeLetter
              ⟨true, (s.client acptr).umodes, false, s.count.oper, (s.client acptr).flags2⟩).oper)
            acptr acptr (s.client acptr).umodes
        rw [same]
        by_cases self : acptr = c
        · subst self
          rw [if_pos rfl]
          show ((s.setClient acptr _).client acptr).umodes = _
          rw [Ircd.setClient_client_self]
        · rw [if_neg fun other => self (Option.some.inj other)]
          show ((s.setClient acptr _).client c).umodes = _
          rw [Ircd.setClient_client_of_ne s _ (Ne.symm self)]
    · rw [if_neg mine]
      rw [Bool.not_eq_true] at mine
      rw [mine, Bool.false_and]
      obtain ⟨sent, same⟩ := s.sendIf_eq ((s.client acptr).link ≠ some cptr) (.one acptr
        (line [":", sender, " SVSMODE ", nick, " ", ts, " ", modes, " :", extras.getD 0 []]))
      rw [same]
      simp

end Deed

/-- **The news mask and the language after a message**, of every client. -/
theorem SvsServer.m_svsmode_user {s : SvsServer} {cptr sptr : ClientId} {sender nick ts modes : Text}
    {parv extras : List Text} (services : FromServices s.ircd cptr sptr)
    (parts : Ircd.svsParams parv = sender :: nick :: ts :: modes :: extras) (c : ClientId) :
    ((s.m_svsmode cptr sptr parv).user c).read =
      if s.ircd.svsTarget nick ts = some c then
        writeAll (svsWrites (svsLetters modes) extras) (s.user c).read
      else (s.user c).read := by
  unfold SvsServer.m_svsmode
  dsimp only
  rw [svsChanged_eq services parts]
  cases s.ircd.svsTarget nick ts with
  | none => rw [if_neg nofun]
  | some acptr =>
    dsimp only
    rw [parts]
    by_cases self : acptr = c
    · subst self
      have letters := @svsLetters_eq (sender :: nick :: ts :: modes :: extras) extras rfl modes
        (s.user acptr) extras.length le_rfl
      rw [if_pos rfl, Function.update_self, ← List.take_length (l := extras), ← letters]
      simp
    · rw [if_neg fun other => self (Option.some.inj other), Function.update_of_ne (Ne.symm self)]

/-! ### Any number of servers -/

section Hops

variable {sender nick ts modes : Text} {parv extras : List Text}

/-- **A message goes over any number of servers with the first extra parameter**, where the modes are one
word and the line is not cut. -/
theorem SvsRoute.cases {after : List Text} (route : SvsRoute parv after)
    (read : ∃ text, parv = sender :: params (MAXPARA - 1) text) (name : IsName sender)
    (word : (Ircd.svsParams parv).getD 3 [] = [] ∨ IsMiddle ((Ircd.svsParams parv).getD 3 []))
    (fits : (svsRelay parv).length ≤ BUFSIZE - 2) :
    after = parv ∨ 4 ≤ (Ircd.svsParams parv).length ∧ after = svsHop parv := by
  induction route with
  | direct => exact .inl rfl
  | @relayed before after s t cptr sptr acptr link source text route services sent behind server heard ih =>
    obtain ⟨rfl, enough⟩ := svsRelay_of_sent services sent behind
    have whole : 4 ≤ (Ircd.svsParams parv).length := by
      rcases ih with rfl | ⟨whole, -⟩
      · exact enough
      · exact whole
    obtain ⟨nick, ts, modes, extras, parts, nick_, ts_, digit, middle⟩ := svsParams_read read whole
    rw [parts] at word
    have bare : modes = [] → extras = [] := fun empty =>
      by_contra fun some_ => (middle some_).ne_nil empty
    -- the next server passes on the line that it got
    have line : svsRelay before = svsRelay parv := by
      rcases ih with rfl | ⟨-, rfl⟩
      · rfl
      · rw [svsRelay_eq (svsParams_svsHop parts digit), svsRelay_eq parts]
        by_cases empty : modes = []
        · rw [if_pos empty, bare empty]
        · rw [if_neg empty]
          rfl
    rw [line, wire, List.take_of_length_le fits, svsRelay_eq parts] at heard
    rw [parv_of_parse_relayed server name isCommand_svsmode _ heard]
    exact .inr ⟨whole, read_svsRelay parts nick_ ts_ word bare⟩

/-- The first server on the way, which has the target behind another link, or the one after it. -/
def svsStage (sender nick ts : Text) (mine : Bool) (found : ClientId) : Ircd :=
  { Ircd.blank Ircd.sampleConf 0 [] with
    client := fun c =>
      if c = 1 then
        { Client.zero with name := sender, status := .server, link := some 1, service := true }
      else
        { Client.zero with
          name := nick, status := .client, user := some .zero, local_flag := mine, tsinfo := atol ts }
    clientTable := fun _ => [found] }

theorem fromServices_svsStage (sender nick ts : Text) (mine : Bool) (found : ClientId) :
    FromServices (svsStage sender nick ts mine found) 1 1 := ⟨rfl, rfl⟩

theorem svsStage_find_client {sender nick ts name : Text} {mine : Bool} {found : ClientId}
    (named : ((svsStage sender nick ts mine found).client found).name = name) :
    (svsStage sender nick ts mine found).find_client name = some found := by
  unfold Ircd.find_client Lib.ChainTable.find
  refine List.find?_cons_of_pos (decide_eq_true ?_)
  rw [named, irccmp_self]

theorem svsStage_find_person (sender nick ts : Text) (mine : Bool) :
    (svsStage sender nick ts mine 2).find_person nick = some 2 := by
  have found : (svsStage sender nick ts mine 2).find_client nick = some 2 := svsStage_find_client rfl
  unfold Ircd.find_person
  rw [found]
  rfl

theorem knows_svsStage (sender nick ts : Text) (mine : Bool) :
    Knows (svsStage sender nick ts mine 1) 1 sender 1 := by
  have server : (svsStage sender nick ts mine 1).find_server sender = some 1 := by
    have found : (svsStage sender nick ts mine 1).clientTable.find (hashNickName sender)
        (fun cptr => (((svsStage sender nick ts mine 1).client cptr).isServer ||
          ((svsStage sender nick ts mine 1).client cptr).isMe) &&
            irccmp sender ((svsStage sender nick ts mine 1).client cptr).name = 0) = some 1 := by
      refine List.find?_cons_of_pos ?_
      show (true && decide (irccmp sender sender = 0)) = true
      rw [irccmp_self]
      rfl
    unfold Ircd.find_server
    rw [found]
    rfl
  have found : (svsStage sender nick ts mine 1).find_client sender = some 1 := svsStage_find_client rfl
  refine ⟨rfl, ?_, rfl⟩
  unfold Ircd.prefixed
  rw [found]
  dsimp only
  split
  · rfl
  · exact server

theorem svsRoute_svsHop (parts : Ircd.svsParams parv = sender :: nick :: ts :: modes :: extras)
    (name : IsName sender) (nick_ : IsMiddle nick) (ts_ : IsMiddle ts)
    (word : modes = [] ∨ IsMiddle modes) (bare : modes = [] → extras = [])
    (fits : (svsRelay parv).length ≤ BUFSIZE - 2) : SvsRoute parv (svsHop parv) := by
  have sent : ((svsStage sender nick ts false 2).m_svsmode 1 1 parv).sent =
      (svsStage sender nick ts false 2).sent ++ [.one 2 (svsRelay parv)] := by
    unfold Ircd.m_svsmode svsRelay
    rw [(fromServices_svsStage sender nick ts false 2).passes, if_neg Bool.false_ne_true, parts]
    simp only [List.getD_cons_zero, List.getD_cons_succ]
    rw [if_neg (by simp), svsStage_find_person]
    rfl
  have read : (svsStage sender nick ts false 1).parse 1 (wire (svsRelay parv)) =
      .message 1 "SVSMODE".toList (svsHop parv) := by
    rw [wire, List.take_of_length_le fits, svsRelay_eq parts,
      (knows_svsStage sender nick ts false).parse name isCommand_svsmode,
      read_svsRelay parts nick_ ts_ word bare]
  exact .relayed .direct (fromServices_svsStage ..) sent rfl rfl read

theorem svsLetters_kinds (modes : Text) : ∀ c ∈ svsLetters modes, c = 'n' ∨ c = 'l' := by
  intro c member
  simpa using (List.mem_filter.mp member).2

/-- **Where the first extra parameter counts, all servers make the same change.** -/
theorem hopIndependent_of_fair (read : ∃ text, parv = sender :: params (MAXPARA - 1) text)
    (name : IsName sender)
    (word : (Ircd.svsParams parv).getD 3 [] = [] ∨ IsMiddle ((Ircd.svsParams parv).getD 3 []))
    (fits : (svsRelay parv).length ≤ BUFSIZE - 2)
    (fair : SvsFair (svsLetters ((Ircd.svsParams parv).getD 3 [])) ((Ircd.svsParams parv).drop 4)) :
    HopIndependent parv := by
  intro after route s cptr sptr cptr' sptr' services services' acptr
  dsimp only
  by_cases enough : 4 ≤ (Ircd.svsParams parv).length
  · obtain ⟨nick, ts, modes, extras, parts, -, -, digit, -⟩ := svsParams_read read enough
    have same : ∃ extras', Ircd.svsParams after = sender :: nick :: ts :: modes :: extras' ∧
        ∀ f, writeAll (svsWrites (svsLetters modes) extras') f =
          writeAll (svsWrites (svsLetters modes) extras) f := by
      rcases route.cases read name word fits with rfl | ⟨-, rfl⟩
      · exact ⟨extras, parts, fun f => rfl⟩
      · refine ⟨_, svsParams_svsHop parts digit, fun f => ?_⟩
        rw [parts] at fair
        by_cases empty : modes = []
        · rw [empty]
          rfl
        · rw [if_neg empty]
          exact ((svsFair_iff (svsLetters_kinds modes) extras).mpr fair f).symm
    obtain ⟨extras', parts', writes⟩ := same
    refine ⟨?_, SvsUser.read_injective ?_⟩
    · exact (m_svsmode_umodes services' parts' acptr).trans (m_svsmode_umodes services parts acptr).symm
    · rw [SvsServer.m_svsmode_user services parts, SvsServer.m_svsmode_user services' parts', writes]
  · -- a message with too few parameters is ignored, and goes nowhere
    rcases route.cases read name word fits with rfl | ⟨whole, -⟩
    · have ignored : ∀ {c d : ClientId}, FromServices s.ircd c d →
          s.m_svsmode c d after = ⟨s.ircd, s.user⟩ := by
        intro c d services
        unfold SvsServer.m_svsmode Ircd.m_svsmode Ircd.svsChanged
        rw [services.passes, if_neg Bool.false_ne_true, if_neg Bool.false_ne_true]
        dsimp only
        rw [if_pos (not_le.mp enough), if_pos (not_le.mp enough)]
      rw [ignored services, ignored services']
      exact ⟨rfl, rfl⟩
    · exact absurd whole enough

/-- **Where all servers make the same change, the first extra parameter counts.** -/
theorem fair_of_hopIndependent (read : ∃ text, parv = sender :: params (MAXPARA - 1) text)
    (name : IsName sender)
    (word : (Ircd.svsParams parv).getD 3 [] = [] ∨ IsMiddle ((Ircd.svsParams parv).getD 3 []))
    (fits : (svsRelay parv).length ≤ BUFSIZE - 2) (independent : HopIndependent parv) :
    SvsFair (svsLetters ((Ircd.svsParams parv).getD 3 [])) ((Ircd.svsParams parv).drop 4) := by
  by_cases enough : 4 ≤ (Ircd.svsParams parv).length
  · obtain ⟨nick, ts, modes, extras, parts, nick_, ts_, digit, middle⟩ := svsParams_read read enough
    rw [parts] at word ⊢
    have bare : modes = [] → extras = [] := fun empty =>
      by_contra fun some_ => (middle some_).ne_nil empty
    by_cases empty : modes = []
    · exact .inl (by rw [List.getD_cons_succ, List.getD_cons_succ, List.getD_cons_succ,
        List.getD_cons_zero, empty]; rfl)
    · refine (svsFair_iff (svsLetters_kinds modes) extras).mp fun f => ?_
      obtain ⟨u, rfl⟩ := SvsUser.read_surjective f
      -- a user with these fields, at the last server
      have target : (svsStage sender nick ts true 2).svsTarget nick ts = some 2 := by
        unfold Ircd.svsTarget
        rw [svsStage_find_person]
        have mine : ((svsStage sender nick ts true 2).client 2).myClient = true := rfl
        have born : ((svsStage sender nick ts true 2).client 2).tsinfo = atol ts := rfl
        rw [Option.filter_some, mine, born]
        simp
      have services := fromServices_svsStage sender nick ts true 2
      have same := (independent _ (svsRoute_svsHop parts name nick_ ts_ word bare fits)
        ⟨svsStage sender nick ts true 2, fun _ => u⟩ 1 1 1 1 services services 2).2
      have hop := svsParams_svsHop parts digit
      rw [if_neg empty] at hop
      have read := congrArg SvsUser.read same
      rw [SvsServer.m_svsmode_user services parts, SvsServer.m_svsmode_user services hop,
        if_pos target, if_pos target] at read
      exact read.symm
  · have none_ : (Ircd.svsParams parv).getD 3 [] = [] := by
      rw [List.getD_eq_getElem?_getD, List.getElem?_eq_none (by omega)]
      rfl
    rw [none_]
    exact .inl rfl

/-- **SVSMODE is the same over any servers exactly where the first extra parameter is the one that
counts**, for modes of one word in a line that is not cut. -/
theorem svsmode_hops_iff (read : ∃ text, parv = sender :: params (MAXPARA - 1) text)
    (name : IsName sender)
    (word : (Ircd.svsParams parv).getD 3 [] = [] ∨ IsMiddle ((Ircd.svsParams parv).getD 3 []))
    (fits : (svsRelay parv).length ≤ BUFSIZE - 2) :
    HopIndependent parv ↔
      SvsFair (svsLetters ((Ircd.svsParams parv).getD 3 [])) ((Ircd.svsParams parv).drop 4) :=
  ⟨fair_of_hopIndependent read name word fits, hopIndependent_of_fair read name word fits⟩

end Hops

theorem isName_services : IsName "services".toList := ⟨⟨by decide, by decide, by decide⟩, by decide⟩

/-- A message of services with that behind the nickname. -/
def sampleSvsmode (extras : List Text) : List Text := "services" :: "ann" :: "+n" :: extras

/-- A news mask goes over any number of servers. -/
theorem svsmode_hops_iff_sample : HopIndependent (sampleSvsmode ["3"]) := by
  refine (svsmode_hops_iff ⟨" ann +n 3", by decide +kernel⟩ isName_services (.inr ?_)
    (by decide +kernel)).mpr ?_
  · exact ⟨by decide, by decide, by decide⟩
  · have taken : (svsLetters ((Ircd.svsParams (sampleSvsmode ["3"])).getD 3 [])).take
        ((Ircd.svsParams (sampleSvsmode ["3"])).drop 4).length = ['n'] := by decide
    refine .inr ⟨'n', "3", "3", by decide, by decide, fun d member => ?_, by decide, rfl⟩
    rw [taken] at member
    exact List.mem_singleton.mp member

/-- **A letter without an extra parameter gets an empty one from a server on the way.** -/
theorem not_svsmode_hops : ¬ ∀ sender parv, (∃ text, parv = sender :: params (MAXPARA - 1) text) →
    IsName sender → HopIndependent parv := by
  intro claim
  have read : ∃ text, sampleSvsmode [] = "services".toList :: params (MAXPARA - 1) text :=
    ⟨" ann +n", by decide +kernel⟩
  have fair := fair_of_hopIndependent read isName_services
    (.inr ⟨by decide, by decide, by decide⟩) (by decide +kernel) (claim "services" _ read isName_services)
  obtain none_ | ⟨c, first, last, -, some_, -⟩ := fair
  · exact absurd none_ (by decide)
  · cases some_

end PtlinkIrcd
