/-
**Hosts that hide an address.**

`spoof.c` makes a host for a user from the last labels of the real one and from hashes of it, in arrays of
a fixed size; an access outside of them has no result.

* `z`, `maskme` — the hash, and the host by method 0.
* `maskme_myCrypt` — the host by method 1.
* `maskText` — what `maskme` prints, by the labels that are left of the host.
* `maskme_safe_iff` — when `maskme` stays inside of its arrays and gives a string that fits.
* `maskme_myCrypt_eq_none` — with a `HostPrefix`, `maskme_myCrypt` writes behind its salt.
* `cloak_safe_iff` — both.
-/

import PtlinkIrcd.Model.Memory
import PtlinkIrcd.Model.State

namespace PtlinkIrcd

open Lib

def MAXVIRTSIZE : Nat := 3 + 5 + 1
def HASHVAL_TOTAL : UInt32 := 30011
def HASHVAL_PARTIAL : UInt32 := 211

/-! ### Method 0 -/

def signedChar (c : Char) : Int32 := Int32.ofInt (if c.toNat < 128 then c.toNat else (c.toNat : Int) - 256)

/-- The loop of `Maskchecksum`, at the place `i`. -/
def checksumFrom (i : Nat) (j : Int32) : Text → Int32
  | [] => j
  | c :: data =>
    checksumFrom (i + 1)
      (j + signedChar c * Int32.ofNat (if i < 16 then (i + 1) * (i + 1) else i * (i - 15))) data

def Maskchecksum (data : Text) : Int32 := (checksumFrom 0 0 data + 1000) % 0xffff

def z (s : Text) : UInt32 := (Maskchecksum s).toUInt32

def printU (v : UInt32) : Text := Nat.toDigits 10 v.toNat

/-- `ircsprintf` to an array. -/
def sprintfAt (out text : Text) : Option Text :=
  if text.length < out.length then some (splice out 0 (text ++ [NUL])) else none

/-- The settings, and what the arrays hold before a call: `mask`, `hexa`, `ret`, `salt` and `pass` are static,
and `destroy` holds anything. -/
structure CloakEnv where
  HostPrefix : Option CString
  CryptKey : Option CString
  my_svsinfo_ts_S : CString
  mask : Text
  mask_size : mask.length = HOSTLEN + 1
  mask_end : mask[HOSTLEN]? = some NUL
  destroy : Text
  destroy_size : destroy.length = HOSTLEN + 1
  hexa : Text
  hexa_size : hexa.length = HOSTLEN + 1
  ret : Text
  ret_size : ret.length = HOSTLEN + 1
  salt : Text
  salt_size : salt.length = 2
  pass : Text
  pass_size : pass.length = 8
  /-- `crypt`, of a key and a salt. -/
  crypt : Text → Text → Text

/-- `parv[parc - k]`. -/
def parvBack (parv : List Text) (k : Nat) : Option Text :=
  if k ≤ parv.length then parv[parv.length - k]? else none

/-- What is hashed: `curr[0] % 1` is zero. -/
def crcText (env : CloakEnv) (curr : Text) : Text :=
  match env.CryptKey with
  | some key => key.1 ++ curr
  | none => curr ++ env.my_svsinfo_ts_S.1

/-- The end of `maskme`, with the labels in `parv`. -/
def maskLabels (mask : Text) (hostPrefix : Text) (charmask : Char) (hash_total : UInt32) (parv : List Text) :
    Option Text := do
  let address ←
    if parv.length = 4 then do
      let p3 ← parv[3]?
      let c ← p3.getLast?
      some c.isDigit
    else some false
  if address then do
    let p0 ← parv[0]?
    let p1 ← parv[1]?
    let p2 ← parv[2]?
    let hash_partial := (z p0 + z p1 + z p2) % HASHVAL_PARTIAL
    sprintfAt mask (p0 ++ charmask :: (p1 ++ charmask :: (printU hash_partial ++ charmask ::
      (hostPrefix ++ '-' :: printU hash_total))))
  else do
    -- the branches for two labels and for a last one of two characters print the same
    let p2 ← parvBack parv 2
    let p1 ← parvBack parv 1
    sprintfAt mask (hostPrefix ++ '-' :: (printU hash_total ++ charmask :: (p2 ++ charmask :: p1)))

def charmaskOf (curr : Text) : Char := if '.' ∈ curr then '.' else ':'

/-- `maskme`: the array of the result. -/
def maskme (env : CloakEnv) (curr : Text) : Option Text :=
  match env.HostPrefix with
  | none => strncpy env.mask (curr ++ [NUL]) HOSTLEN
  | some hostPrefix => do
    let crcstring ← sprintfAt (List.replicate (HOSTLEN + 34) NUL) (crcText env curr)
    let hash_total := z (stringOf crcstring) % HASHVAL_TOTAL
    let destroy ← strncpy env.destroy (curr ++ [NUL]) HOSTLEN
    let whole ← readString destroy 0
    let ptr := if HOSTLEN < whole.length + MAXVIRTSIZE then whole.length + MAXVIRTSIZE - HOSTLEN else 0
    if '.' ∉ curr ∧ ':' ∉ curr then strncpy env.mask (curr ++ [NUL]) HOSTLEN
    else do
      let cut ← readString destroy ptr
      maskLabels env.mask hostPrefix.1 (charmaskOf curr) hash_total (words (· == charmaskOf curr) cut)

/-! ### Method 1 -/

/-- `remove_dots_and_slashes`, of the string in an array. -/
def remove_dots_and_slashes (msg : Text) : Option Text := do
  let temp ← readString msg 0
  if HOSTLEN < temp.length then none
  else
    sprintfAt msg (temp.flatMap fun c => if c = '.' then ['p', 'p'] else if c = '/' then ['b', 'b'] else [c])

/-- The loop that mixes `pass` with the printed address. -/
def mixPass (pass : Text) : Nat → Nat → Text → Option Text
  | 0, _, hexa => some hexa
  | rounds + 1, i, hexa => do
    let p ← pass[i]?
    if p = NUL then some hexa
    else do
      let h ← hexa[i]?
      let hexa ← store hexa i (if p = h then h else Char.ofNat (p.toNat ^^^ h.toNat))
      mixPass pass rounds (i + 1) hexa

/-- `strcat` to a string in an array. -/
def strcat (out text : Text) : Option Text := do
  let string ← readString out 0
  strcpy out string.length (text ++ [NUL])

/-- The salt and the password, with what a prefix makes of them. -/
def saltAndPass (env : CloakEnv) : Option (Text × Text) :=
  match env.HostPrefix with
  | none => some (env.salt, env.pass)
  | some hostPrefix => do
    let c0 ← (hostPrefix.1 ++ [NUL])[0]?
    let salt ← store env.salt 0 c0
    let c1 ← (hostPrefix.1 ++ [NUL])[1]?
    let salt ← store salt 1 c1
    let salt ← store salt 2 NUL
    let pass ← strncpy env.pass ((hostPrefix.1 ++ [NUL]).drop 2) 8
    let pass ← store pass 8 NUL
    some (salt, pass)

/-- `maskme_myCrypt`, of an address in the order of the host: the array of the result. The last loop starts
with what is `behind` the end of the host. -/
def maskme_myCrypt (env : CloakEnv) (host behind : Text) (IP : UInt32) : Option Text := do
  let ret ← store env.ret 0 NUL
  let (salt, pass) ← saltAndPass env
  let hexa ← sprintfAt env.hexa ((Nat.toDigits 16 IP.toNat).map Char.toUpper)
  let hexa ← mixPass pass 8 0 hexa
  let key ← readString hexa 0
  let hexa ← strcpy hexa 0 (env.crypt key salt ++ [NUL])
  let hexa ← remove_dots_and_slashes hexa
  let code ← readString hexa 2
  let last ← host.getLast?
  let ret ← strcpy ret 0 (code ++ [NUL])
  if last.isDigit = false then
    let i := (host.takeWhile (· ≠ '.')).length
    if i < host.length then
      let res : Int := (HOSTLEN : Int) - (host.length - i) - code.length
      let i := if res < 0 then i + res.natAbs else i
      if i ≤ host.length then strcat ret (host.drop i) else none
    else some ret
  else do
    let ret ← strcat ret ['.']
    let ret ← strcat ret host
    let c ← behind.head?
    let i :=
      if c = '.' then host.length + 1
      else host.length - (host.reverse.takeWhile (· ≠ '.')).length - 1
    let ret ← store ret (code.length + i + 1) NUL
    strcat ret ['.', 'O']

/-! ### What `maskme` prints -/

/-- The labels that are left when a long host is cut from the left. -/
def cutLabels (curr : Text) : List Text :=
  words (· == charmaskOf curr) (curr.drop (curr.length + MAXVIRTSIZE - HOSTLEN))

/-- Four labels, and the last ends in a digit. -/
def isAddress (parv : List Text) : Bool :=
  parv.length = 4 && ((parv.getD 3 []).getLast?.map Char.isDigit).getD false

/-- The text that is printed, for at least two labels. -/
def labelText (hostPrefix : Text) (charmask : Char) (hash_total : UInt32) (parv : List Text) : Text :=
  if isAddress parv then
    parv.getD 0 [] ++ charmask :: (parv.getD 1 [] ++ charmask ::
      (printU ((z (parv.getD 0 []) + z (parv.getD 1 []) + z (parv.getD 2 [])) % HASHVAL_PARTIAL) ++ charmask ::
        (hostPrefix ++ '-' :: printU hash_total)))
  else
    hostPrefix ++ '-' :: (printU hash_total ++ charmask ::
      (parv.getD (parv.length - 2) [] ++ charmask :: parv.getD (parv.length - 1) []))

/-- What `maskme` prints. -/
def maskText (env : CloakEnv) (hostPrefix : CString) (curr : Text) : Text :=
  labelText hostPrefix.1 (charmaskOf curr) (z (crcText env curr) % HASHVAL_TOTAL) (cutLabels curr)

theorem parvBack_eq {parv : List Text} {k : Nat} (enough : k ≤ parv.length) (positive : 0 < k) :
    parvBack parv k = some (parv.getD (parv.length - k) []) := by
  rw [parvBack, if_pos enough, List.getD_eq_getElem?_getD, List.getElem?_eq_getElem (by omega),
    Option.getD_some]

/-- **Two labels are printed**, and of less than two one is read that is not there. -/
theorem maskLabels_eq (mask hostPrefix : Text) (charmask : Char) (hash_total : UInt32) {parv : List Text}
    (some_ : ∀ p ∈ parv, p ≠ []) :
    maskLabels mask hostPrefix charmask hash_total parv =
      if 2 ≤ parv.length then sprintfAt mask (labelText hostPrefix charmask hash_total parv) else none := by
  unfold maskLabels labelText isAddress
  by_cases four : parv.length = 4
  · obtain ⟨p0, p1, p2, p3, rfl⟩ : ∃ p0 p1 p2 p3, parv = [p0, p1, p2, p3] := List.length_eq_four.mp four
    obtain ⟨c, last⟩ : ∃ c, p3.getLast? = some c :=
      ⟨_, List.getLast?_eq_some_getLast (some_ p3 (by simp))⟩
    cases digit : c.isDigit <;> simp [last, digit, parvBack]
  · rw [if_neg four, decide_eq_false four, Bool.false_and]
    simp only [Option.bind_eq_bind, Option.bind_some, Bool.false_eq_true, if_false]
    split_ifs with two
    · rw [parvBack_eq two two_pos, parvBack_eq (by omega) one_pos]
      rfl
    · rw [parvBack, if_neg two]
      rfl

/-! ### The arrays -/

section

variable {out text : Text}

theorem sprintfAt_eq (room : text.length < out.length) :
    ∃ after, sprintfAt out text = some (text ++ NUL :: after) := by
  refine ⟨out.drop (0 + (text ++ [NUL]).length), ?_⟩
  rw [sprintfAt, if_pos room, splice, List.take_zero, List.nil_append, List.append_assoc]
  rfl

theorem sprintfAt_none (full : ¬ text.length < out.length) : sprintfAt out text = none := if_neg full

theorem length_stringOf_le (text after : Text) : (stringOf (text ++ NUL :: after)).length ≤ text.length := by
  have ends : (NUL :: after).takeWhile (fun c => decide (c ≠ NUL)) = [] :=
    List.takeWhile_cons_of_neg (by simp)
  rw [stringOf, List.takeWhile_append, ends, List.append_nil]
  split_ifs
  · exact le_rfl
  · exact (List.takeWhile_sublist _).length_le

/-- **The array of a result** holds a string of at most `HOSTLEN` characters. -/
def HoldsHost (result : Option Text) : Prop :=
  ∃ mask, result = some mask ∧ ∃ s, readString mask 0 = some s ∧ s.length ≤ HOSTLEN

theorem holdsHost_sprintfAt_iff (size : out.length = HOSTLEN + 1) :
    HoldsHost (sprintfAt out text) ↔ text.length ≤ HOSTLEN := by
  constructor
  · rintro ⟨mask, printed, -⟩
    by_contra long
    rw [sprintfAt_none (by omega)] at printed
    cases printed
  · intro short
    obtain ⟨after, printed⟩ := @sprintfAt_eq out text (by omega)
    refine ⟨_, printed, _, if_pos (List.mem_append_right _ List.mem_cons_self), ?_⟩
    exact (length_stringOf_le text after).trans short

/-- **A copy of a host**, which may have no end. -/
theorem strncpy_host {curr : CString} (fits : curr.1.length ≤ HOSTLEN) (size : out.length = HOSTLEN + 1) :
    ∃ rest, strncpy out (curr.1 ++ [NUL]) HOSTLEN = some (curr.1 ++ rest) ∧
      ((curr.1.length < HOSTLEN ∨ out[HOSTLEN]? = some NUL) ∧ (∃ after, rest = NUL :: after) ∨
        ¬ (curr.1.length < HOSTLEN ∨ out[HOSTLEN]? = some NUL) ∧ NUL ∉ rest) := by
  have string : stringOf (curr.1 ++ [NUL]) = curr.1 := stringOf_append curr.2
  have length : (curr.1 ++ List.replicate (HOSTLEN - curr.1.length) NUL).length = HOSTLEN := by
    rw [List.length_append, List.length_replicate]
    omega
  refine ⟨List.replicate (HOSTLEN - curr.1.length) NUL ++ out.drop HOSTLEN, ?_, ?_⟩
  · unfold strncpy
    dsimp only
    rw [string, if_pos (by omega), List.take_of_length_le fits, splice, List.take_zero, List.nil_append,
      Nat.zero_add, length, List.append_assoc]
  · obtain ⟨c, last⟩ : ∃ c, out[HOSTLEN]? = some c := ⟨_, List.getElem?_eq_getElem (by omega)⟩
    have left : out.drop HOSTLEN = [c] := by
      obtain ⟨inside, same⟩ := List.getElem?_eq_some_iff.mp last
      rw [List.drop_eq_getElem_cons inside, same, List.drop_of_length_le (by omega)]
    rw [left, last]
    rcases Nat.lt_or_ge curr.1.length HOSTLEN with less | full
    · obtain ⟨k, more⟩ := Nat.exists_eq_succ_of_ne_zero (Nat.sub_pos_of_lt less).ne'
      refine .inl ⟨.inl less, List.replicate k NUL ++ [c], ?_⟩
      rw [more, List.replicate_succ, List.cons_append]
    · rw [Nat.sub_eq_zero_of_le full, List.replicate_zero, List.nil_append]
      by_cases ended : c = NUL
      · exact .inl ⟨.inr (congrArg some ended), [], by rw [ended]⟩
      · refine .inr ⟨?_, fun member => ended (List.mem_singleton.mp member).symm⟩
        rintro (less | same)
        exacts [absurd less (Nat.not_lt.mpr full), ended (Option.some.inj same)]

end

/-! ### The results -/

section

variable {env : CloakEnv} {hostPrefix curr : CString}

/-- When the arrays of `maskme` hold what is written to them, and its labels are there. -/
def MaskFits (env : CloakEnv) (hostPrefix : CString) (curr : Text) : Prop :=
  (crcText env curr).length < HOSTLEN + 34 ∧
    (curr.length < HOSTLEN ∨ env.destroy[HOSTLEN]? = some NUL) ∧
      (('.' ∉ curr ∧ ':' ∉ curr) ∨
        (2 ≤ (cutLabels curr).length ∧ (maskText env hostPrefix curr).length ≤ HOSTLEN))

theorem proper_crcText (env : CloakEnv) (curr : CString) : NUL ∉ crcText env curr.1 := by
  unfold crcText
  cases env.CryptKey with
  | none => exact fun member => (List.mem_append.mp member).elim curr.2 env.my_svsinfo_ts_S.2
  | some key => exact fun member => (List.mem_append.mp member).elim key.2 curr.2

theorem holdsHost_strncpy (env : CloakEnv) (fits : curr.1.length ≤ HOSTLEN) :
    HoldsHost (strncpy env.mask (curr.1 ++ [NUL]) HOSTLEN) := by
  obtain ⟨rest, copied, ⟨-, after, rfl⟩ | ⟨open_, -⟩⟩ := strncpy_host fits env.mask_size
  · exact ⟨_, copied, curr.1, readString_eq [] curr.2, fits⟩
  · exact absurd (.inr env.mask_end) open_

/-- **When the host by method 0 is safe.** -/
theorem maskme_safe_iff (set : env.HostPrefix = some hostPrefix) (fits : curr.1.length ≤ HOSTLEN) :
    HoldsHost (maskme env curr.1) ↔ MaskFits env hostPrefix curr.1 := by
  have nothing : ¬ HoldsHost none := by
    rintro ⟨mask, none_, -⟩
    cases none_
  unfold maskme MaskFits
  rw [set]
  dsimp only
  by_cases room : (crcText env curr.1).length < HOSTLEN + 34
  · obtain ⟨after, printed⟩ := @sprintfAt_eq (List.replicate (HOSTLEN + 34) NUL) (crcText env curr.1)
      (by rwa [List.length_replicate])
    obtain ⟨rest, copied, ends⟩ := strncpy_host fits env.destroy_size
    rw [printed, Option.bind_eq_bind, Option.bind_some, stringOf_append (proper_crcText env curr), copied,
      Option.bind_some, and_iff_right room]
    rcases ends with ⟨ended, after, rfl⟩ | ⟨open_, string⟩
    · have start : readString (curr.1 ++ NUL :: after) 0 = some curr.1 := readString_eq [] curr.2
      rw [and_iff_right ended, start, Option.bind_some]
      by_cases bare : '.' ∉ curr.1 ∧ ':' ∉ curr.1
      · rw [if_pos bare]
        exact iff_of_true (holdsHost_strncpy env fits) (.inl bare)
      · have ptr : (if HOSTLEN < curr.1.length + MAXVIRTSIZE then curr.1.length + MAXVIRTSIZE - HOSTLEN else 0) =
            curr.1.length + MAXVIRTSIZE - HOSTLEN := by
          split_ifs <;> omega
        have inside : curr.1.length + MAXVIRTSIZE - HOSTLEN ≤ curr.1.length := by
          unfold MAXVIRTSIZE HOSTLEN
          omega
        have cut : readString (curr.1 ++ NUL :: after) (curr.1.length + MAXVIRTSIZE - HOSTLEN) =
            some (curr.1.drop (curr.1.length + MAXVIRTSIZE - HOSTLEN)) := by
          have read := @readString_eq (curr.1.drop (curr.1.length + MAXVIRTSIZE - HOSTLEN)) after
            (curr.1.take (curr.1.length + MAXVIRTSIZE - HOSTLEN)) fun member => curr.2 (List.mem_of_mem_drop member)
          rwa [← List.append_assoc, List.take_append_drop, List.length_take, Nat.min_eq_left inside] at read
        rw [if_neg bare, ptr, cut, Option.bind_some, or_iff_right bare,
          maskLabels_eq _ _ _ _ fun p member => by simpa using (List.mem_filter.mp member).2]
        show HoldsHost (if 2 ≤ (cutLabels curr.1).length then
          sprintfAt env.mask (maskText env hostPrefix curr.1) else none) ↔ _
        split_ifs with two
        · rw [holdsHost_sprintfAt_iff env.mask_size, and_iff_right two]
        · exact iff_of_false nothing fun h => two h.1
    · have whole : NUL ∉ curr.1 ++ rest := by
        rw [List.mem_append]
        rintro (member | member)
        exacts [curr.2 member, string member]
      rw [readString, if_neg (by rwa [List.drop_zero])]
      exact iff_of_false nothing fun h => open_ h.1
  · rw [sprintfAt_none (by rwa [List.length_replicate])]
    exact iff_of_false nothing fun h => room h.1

theorem length_of_store {out out' : Text} {i : Nat} {c : Char} (stored : store out i c = some out') :
    out'.length = out.length := by
  unfold store at stored
  split_ifs at stored
  rw [← Option.some.inj stored, List.length_set]

/-- **With a prefix, method 1 writes behind its salt.** -/
theorem maskme_myCrypt_eq_none (set : env.HostPrefix = some hostPrefix) (host behind : Text) (IP : UInt32) :
    maskme_myCrypt env host behind IP = none := by
  have third : ∀ salt : Text, salt.length = 2 → store salt 2 NUL = none := fun salt two =>
    if_neg (by rw [two]; exact lt_irrefl 2)
  have salted : saltAndPass env = none := by
    unfold saltAndPass
    rw [set]
    refine Option.bind_eq_none_iff.mpr fun c0 _ => Option.bind_eq_none_iff.mpr fun salt0 stored0 =>
      Option.bind_eq_none_iff.mpr fun c1 _ => Option.bind_eq_none_iff.mpr fun salt1 stored1 => ?_
    rw [third salt1 (by rw [length_of_store stored1, length_of_store stored0, env.salt_size])]
    rfl
  unfold maskme_myCrypt
  rw [salted]
  exact Option.bind_eq_none_iff.mpr fun ret _ => rfl

/-- **Both methods are in bounds.** -/
def CloakSafe (env : CloakEnv) (host behind : Text) (IP : UInt32) : Prop :=
  HoldsHost (maskme env host) ∧ HoldsHost (maskme_myCrypt env host behind IP)

/-- **Hosts are never made in bounds by both methods** with a prefix: the second one writes behind its salt; the
first one alone is exactly when its arrays hold what is written and its labels are there. -/
theorem cloak_safe_iff (set : env.HostPrefix = some hostPrefix) (fits : curr.1.length ≤ HOSTLEN)
    (behind : Text) (IP : UInt32) :
    ¬ CloakSafe env curr.1 behind IP ∧ (HoldsHost (maskme env curr.1) ↔ MaskFits env hostPrefix curr.1) := by
  refine ⟨?_, maskme_safe_iff set fits⟩
  rintro ⟨-, mask, made, -⟩
  rw [maskme_myCrypt_eq_none set] at made
  cases made

end

def sampleCloak : CloakEnv where
  HostPrefix := some ⟨"PT".toList, by decide⟩
  CryptKey := none
  my_svsinfo_ts_S := ⟨"0".toList, by decide⟩
  mask := List.replicate (HOSTLEN + 1) NUL
  mask_size := List.length_replicate
  mask_end := rfl
  destroy := List.replicate (HOSTLEN + 1) NUL
  destroy_size := List.length_replicate
  hexa := List.replicate (HOSTLEN + 1) NUL
  hexa_size := List.length_replicate
  ret := List.replicate (HOSTLEN + 1) NUL
  ret_size := List.length_replicate
  salt := "br".toList
  salt_size := rfl
  pass := "87654312".toList
  pass_size := rfl
  crypt := fun _ salt => salt ++ "xxxxxxxxxxx".toList

/-- A host of four labels. -/
theorem cloak_safe_iff_sample :
    let curr : CString := ⟨"192.168.1.20".toList, by decide⟩
    ¬ CloakSafe sampleCloak curr.1 [] 0xc0a80114 ∧ HoldsHost (maskme sampleCloak curr.1) := by
  intro curr
  obtain ⟨unsafe_, safe⟩ := @cloak_safe_iff sampleCloak ⟨"PT".toList, by decide⟩ curr rfl (by decide) []
    0xc0a80114
  exact ⟨unsafe_, safe.mpr ⟨by decide, .inl (by decide), .inr ⟨by decide, by decide +kernel⟩⟩⟩

/-- The prefix `PT` ends behind the salt. -/
theorem not_cloak_safe : ¬ ∀ (env : CloakEnv) (hostPrefix curr : CString), env.HostPrefix = some hostPrefix →
    hostPrefix.1.length ≤ MAXVIRTSIZE - 6 → curr.1.length ≤ HOSTLEN → ∀ behind IP,
      CloakSafe env curr.1 behind IP := by
  intro all
  obtain ⟨-, mask, made, -⟩ := all sampleCloak ⟨"PT".toList, by decide⟩ ⟨"a.b".toList, by decide⟩ rfl
    (by decide)
    (by decide) [] 0
  exact absurd made (by rw [show maskme_myCrypt sampleCloak "a.b".toList [] 0 = none from rfl]; exact nofun)

end PtlinkIrcd
