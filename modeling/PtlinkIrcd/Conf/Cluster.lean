/-
**The mask that a K line by nick gets.**

`cluster` of `m_kline.c` in the memory of its two arrays, of which `result` is left from earlier calls and
`temphost` is not initialised.

* `scanNumber`, `findStart` — its two loops over `temphost`; `clusterIn` — the function, and `mask_eq_cluster`:
  on zeros its mask is that of `cluster` of `Conf/Kline`.
* `MaskCovers` — what a K line by nick needs of the mask.
* `Coverable` — the host names for which the mask is right whatever the memory holds.
* `cluster_covers_iff` — **the mask covers the host whatever the memory holds exactly if the host is
  coverable**.
-/

import PtlinkIrcd.Conf.AddressText
import PtlinkIrcd.Model.Match
import PtlinkIrcd.Model.Memory

namespace PtlinkIrcd

open Lib

/-! ### The function -/

/-- `is_ip_number`, `number_of_dots` and `zap_point` behind the first loop. -/
structure NumberScan where
  is_ip_number : Bool
  number_of_dots : Nat
  zap_point : Option Nat
deriving DecidableEq

/-- The first loop, over the memory from `ipp` on. -/
def scanNumber : Text → Nat → Nat → Option Nat → Option NumberScan
  | [], _, _, _ => none
  | c :: rest, ipp, number_of_dots, zap_point =>
    if c = NUL then some ⟨true, number_of_dots, zap_point⟩
    else if c = '.' then
      -- `ipp` moves on here and at the end of the loop
      match rest with
      | [] => none
      | _ :: rest =>
        scanNumber rest (ipp + 2) (number_of_dots + 1) (if number_of_dots + 1 = 3 then some ipp else zap_point)
    else if c.isDigit then scanNumber rest (ipp + 1) number_of_dots zap_point
    else some ⟨false, number_of_dots, zap_point⟩

def lastPlace (c : Char) : Text → Option Nat
  | [] => none
  | d :: t =>
    match lastPlace c t with
    | some i => some (i + 1)
    | none => if d = c then some 0 else none

def strrchr (memory : Text) (c : Char) : Option (Option Nat) := (readString memory 0).map (lastPlace c)

/-- The second loop, from `host_mask` on down: where it has looked, and the start of the mask. -/
def findStart (memory : Text) : Nat → Nat → Option (List Nat × Nat)
  | 0, _ => some ([], 0)
  | host_mask + 1, number_of_dots => do
    let c ← memory[host_mask + 1]?
    let number_of_dots := if c = '.' then number_of_dots - 1 else number_of_dots
    if number_of_dots = 0 then some ([host_mask + 1], host_mask + 1)
    else
      let (looked, start) ← findStart memory host_mask number_of_dots
      some ((host_mask + 1) :: looked, start)

/-- A mask, and where the second loop has looked. -/
structure Clustered where
  mask : Text
  looked : List Nat
deriving DecidableEq

/-- A string is copied to the place `i` of `result`, which is then ended. -/
def copyResult (result : Text) (i : Nat) (source : Text) : Option Text := do
  let result ← copyThrough (· == NUL) (HOSTLEN - i) source i result
  store result HOSTLEN NUL

/-- The mask for a number, with a star for its last part. -/
def zapMask (result temphost : Text) (zap_point : Option Nat) : Option Clustered := do
  let zap_point ← zap_point
  let temphost ← store temphost (zap_point + 1) '*'
  let temphost ← store temphost (zap_point + 2) NUL
  let result ← copyResult result 0 temphost
  let mask ← readString result 0
  some ⟨mask, []⟩

/-- The mask for a name, with a star for its first labels. -/
def tldMask (result temphost : Text) : Option Clustered := do
  match ← strrchr temphost '.' with
  | none =>
    let result ← copyResult result 0 temphost
    let mask ← readString result 0
    some ⟨mask, []⟩
  | some tld =>
    let third ← temphost[tld + 3]?
    let number_of_dots := if third ≠ NUL then 1 else 2
    let (looked, host_mask) ← findStart temphost (if tld ≠ 0 then tld - 1 else tld) number_of_dots
    let result ← store result 0 '*'
    let result ← copyResult result 1 (temphost.drop host_mask)
    let mask ← readString result 0
    some ⟨mask, looked⟩

/-- `cluster` in its memory. -/
def clusterIn (result temphost : Text) (hostname : CString) : Option Clustered := do
  if '@' ∈ hostname.1 then
    let result ← copyResult result 0 (hostname.1 ++ [NUL])
    let mask ← readString result 0
    some ⟨mask, []⟩
  else
    let temphost ← copyResult temphost 0 (hostname.1 ++ [NUL])
    let scan ← scanNumber temphost 0 0 none
    if scan.is_ip_number = true ∧ scan.number_of_dots = 3 then zapMask result temphost scan.zap_point
    else tldMask result temphost

/-! ### What is to be shown -/

/-- **The mask covers the host**: it matches it, and the address if the name is one; it is a host name by its
length, and the search for its start has not left the name. -/
structure MaskCovers (w : Nat) (host : Text) (c : Clustered) : Prop where
  glob : MaskMatches c.mask host
  address : ∀ {i j k l : Text}, Numeral 255 i → Numeral 255 j → Numeral 255 k → Numeral 255 l →
    host = i ++ '.' :: (j ++ '.' :: (k ++ '.' :: l)) → ∃ block, blockOf w c.mask = some block ∧
      quad w (decimal i) (decimal j) (decimal k) (decimal l) &&& block.2 = block.1
  length : c.mask.length ≤ HOSTLEN
  scan : ∀ i ∈ c.looked, i < host.length

/-- **The mask begins at a dot, or has room for the whole name**, and the third character of the last label lies
in the array. -/
def TldFits (host : Text) : Prop :=
  ∃ front tld, host = front ++ '.' :: tld ∧ '.' ∉ tld ∧ front.length + 3 ≤ HOSTLEN ∧
    (host.length < HOSTLEN ∨ (if tld.length = 2 then 2 else 1) ≤ front.tail.count '.')

/-- The first loop steps over the end of a name: a dot that it counts is the last character. -/
def StepsOver (host : Text) (places : List Nat) : Prop := host.length ∈ places.map (· + 1)

/-- **The host names for which the mask is right.** -/
def Coverable (host : Text) : Prop :=
  '.' ∉ host ∨
    match dotPlaces 0 host with
    | none => TldFits host
    | some places =>
      (places.length = 3 ∧ (StepsOver host places → host.length + 1 = HOSTLEN)) ∨
        (TldFits host ∧ ¬ StepsOver host places)

/-! ### Copies -/

section

variable {out s rest : Text} {i : Nat}

/-- **A string is copied as far as there is room, and ended**; what the array ends in is kept up to its last
character. -/
theorem copyResult_eq (size : out.length = HOSTLEN + 1) (place : i ≤ HOSTLEN) (string : NUL ∉ s) :
    copyResult out i (s ++ NUL :: rest) = some (out.take i ++ (s.take (HOSTLEN - i) ++ NUL ::
      if s.length < HOSTLEN - i then
        (out.drop (i + s.length + 1)).take (HOSTLEN - i - s.length - 1) ++ [NUL] else [])) := by
  have plain : ∀ c ∈ s, (c == NUL) = false := fun c member =>
    beq_false_of_ne fun same => string (same ▸ member)
  have copied : copyThrough (· == NUL) (HOSTLEN - i) (s ++ NUL :: rest) i out =
      some (splice out i ((s ++ [NUL]).take (HOSTLEN - i))) :=
    copyThrough_eq plain (beq_self_eq_true NUL) (by omega) rest
  -- the last character of the array is overwritten
  have ended : ∀ (front : Text) (last : Text), front.length = HOSTLEN → last.length = 1 →
      store (front ++ last) HOSTLEN NUL = some (front ++ [NUL]) := by
    intro front last length single
    obtain ⟨c, rfl⟩ := List.length_eq_one_iff.mp single
    rw [← length]
    exact store_length_append front [] c
  unfold copyResult
  rw [copied]
  show store _ HOSTLEN NUL = _
  unfold splice
  have front : (out.take i).length = i := List.length_take_of_le (by omega)
  split
  · rename_i short
    have whole : (s ++ [NUL]).take (HOSTLEN - i) = s ++ [NUL] :=
      List.take_of_length_le (by rw [List.length_append, List.length_singleton]; omega)
    have text : s.take (HOSTLEN - i) = s := List.take_of_length_le short.le
    have parts := List.take_append_drop (HOSTLEN - i - s.length - 1) (out.drop (i + s.length + 1))
    rw [whole, text, List.length_append, List.length_singleton, ← Nat.add_assoc, ← parts, ← List.append_assoc,
      ended]
    · rw [parts]
      simp
    · simp only [List.length_append, List.length_singleton, List.length_take, List.length_drop]
      omega
    · simp only [List.length_drop]
      omega
  · rename_i long
    rw [List.take_append_of_le_length (by omega), ended]
    · simp
    · simp only [List.length_append, List.length_take]
      omega
    · simp only [List.length_drop, List.length_take]
      omega

end

/-- What `temphost` holds behind a name that was copied to it. -/
def behindName (temphost : Text) (length : Nat) : Text :=
  if length < HOSTLEN then (temphost.drop (length + 1)).take (HOSTLEN - length - 1) ++ [NUL] else []

section

variable {out s rest host behind temphost : Text} {i ipp number_of_dots : Nat} {zap_point : Option Nat}
  {places : List Nat}

theorem copyResult_read (size : out.length = HOSTLEN + 1) (place : i ≤ HOSTLEN) (string : NUL ∉ s)
    (before : NUL ∉ out.take i) : (copyResult out i (s ++ NUL :: rest)).bind (readString · 0) =
      some (out.take i ++ s.take (HOSTLEN - i)) := by
  have word : NUL ∉ out.take i ++ s.take (HOSTLEN - i) := by
    rw [List.mem_append, not_or]
    exact ⟨before, fun inside => string (List.mem_of_mem_take inside)⟩
  rw [copyResult_eq size place string, Option.bind_some, ← List.append_assoc]
  exact readString_eq [] word

theorem copyResult_whole (size : out.length = HOSTLEN + 1) (string : NUL ∉ s) (short : s.length ≤ HOSTLEN) :
    (copyResult out 0 (s ++ NUL :: rest)).bind (readString · 0) = some s := by
  rw [copyResult_read size (Nat.zero_le _) string List.not_mem_nil, Nat.sub_zero, List.take_of_length_le short]
  rfl

theorem copyResult_temphost (size : temphost.length = HOSTLEN + 1) (short : host.length ≤ HOSTLEN)
    (string : NUL ∉ host) :
    copyResult temphost 0 (host ++ [NUL]) = some (host ++ NUL :: behindName temphost host.length) := by
  rw [copyResult_eq size (Nat.zero_le _) string, Nat.sub_zero, List.take_of_length_le short, List.take_zero,
    List.nil_append, Nat.zero_add]
  rfl

theorem length_behindName (size : temphost.length = HOSTLEN + 1) (short : host.length ≤ HOSTLEN) :
    (host ++ NUL :: behindName temphost host.length).length = HOSTLEN + 1 := by
  unfold behindName
  rw [List.length_append, List.length_cons]
  split
  · rw [List.length_append, List.length_take, List.length_drop, List.length_singleton]
    omega
  · rw [List.length_nil]
    omega

/-! ### The first loop -/

/-- `zap_point` behind some dots. -/
def zapPoint : Nat → List Nat → Option Nat → Option Nat
  | _, [], zap_point => zap_point
  | number_of_dots, ipp :: places, zap_point =>
    zapPoint (number_of_dots + 1) places (if number_of_dots + 1 = 3 then some ipp else zap_point)

theorem scanNumber_nul :
    scanNumber (NUL :: behind) ipp number_of_dots zap_point = some ⟨true, number_of_dots, zap_point⟩ := by
  unfold scanNumber
  exact if_pos rfl

theorem scanNumber_letter (string : NUL ∉ host) (letter : dotPlaces ipp host = none) :
    ∃ dots zap, scanNumber (host ++ NUL :: behind) ipp number_of_dots zap_point = some ⟨false, dots, zap⟩ := by
  fun_induction dotPlaces ipp host generalizing number_of_dots zap_point with
  | case1 => cases letter
  | case2 => cases letter
  | case3 => cases letter
  | case4 place c dot digit =>
    refine ⟨number_of_dots, zap_point, ?_⟩
    rw [List.singleton_append, scanNumber, if_neg (Ne.symm (List.ne_of_not_mem_cons string)), if_neg dot,
      if_neg digit]
  | case5 place d rest ih =>
    rw [List.mem_cons, List.mem_cons, not_or, not_or] at string
    rw [Option.map_eq_none_iff] at letter
    rw [List.cons_append, List.cons_append, scanNumber, if_neg (by decide), if_pos rfl]
    exact ih string.2.2 letter
  | case6 place c d rest dot digit ih =>
    rw [List.mem_cons, not_or] at string
    rw [List.cons_append, List.cons_append, scanNumber, if_neg (Ne.symm string.1), if_neg dot, if_pos digit]
    exact ih string.2 letter
  | case7 place c d rest dot digit =>
    refine ⟨number_of_dots, zap_point, ?_⟩
    rw [List.mem_cons, not_or] at string
    rw [List.cons_append, List.cons_append, scanNumber, if_neg (Ne.symm string.1), if_neg dot, if_neg digit]

/-- **Digits and dots are counted up to the end**, and beyond it where the loop steps over it. -/
theorem scanNumber_number (string : NUL ∉ host) (number : dotPlaces ipp host = some places) :
    scanNumber (host ++ NUL :: behind) ipp number_of_dots zap_point =
      if ipp + host.length ∈ places.map (· + 1) then
        scanNumber behind (ipp + host.length + 1) (number_of_dots + places.length)
          (zapPoint number_of_dots places zap_point)
      else some ⟨true, number_of_dots + places.length, zapPoint number_of_dots places zap_point⟩ := by
  fun_induction dotPlaces ipp host generalizing number_of_dots zap_point places with
  | case1 place =>
    obtain rfl := Option.some.inj number
    rw [List.nil_append, scanNumber_nul, List.map_nil, if_neg List.not_mem_nil]
    rfl
  | case2 place =>
    -- the dot is the last character
    obtain rfl := Option.some.inj number
    rw [List.singleton_append, scanNumber, if_neg (by decide), if_pos rfl, List.map_singleton,
      if_pos (show place + ['.'].length ∈ [place + 1] from List.mem_cons_self)]
    rfl
  | case3 place c dot digit =>
    obtain rfl := Option.some.inj number
    rw [List.singleton_append, scanNumber, if_neg (Ne.symm (List.ne_of_not_mem_cons string)), if_neg dot,
      if_pos digit, scanNumber_nul, List.map_nil, if_neg List.not_mem_nil]
    rfl
  | case4 => cases number
  | case5 place d rest ih =>
    rw [List.mem_cons, List.mem_cons, not_or, not_or] at string
    obtain ⟨more, found, rfl⟩ := Option.map_eq_some_iff.mp number
    rw [List.cons_append, List.cons_append, scanNumber, if_neg (by decide), if_pos rfl, ih string.2.2 found]
    have length : place + ('.' :: d :: rest).length = place + 2 + rest.length := by
      rw [List.length_cons, List.length_cons]
      omega
    have earlier : place + 1 ≠ place + 2 + rest.length := by omega
    have dots : number_of_dots + (place :: more).length = number_of_dots + 1 + more.length := by
      rw [List.length_cons]
      omega
    simp only [length, dots, List.map_cons, List.mem_cons, or_iff_right (Ne.symm earlier), zapPoint]
  | case6 place c d rest dot digit ih =>
    rw [List.mem_cons, not_or] at string
    have length : place + (c :: d :: rest).length = place + 1 + (d :: rest).length := by
      show place + ((d :: rest).length + 1) = _
      omega
    rw [List.cons_append, List.cons_append, scanNumber, if_neg (Ne.symm string.1), if_neg dot, if_pos digit,
      length]
    exact ih string.2 number
  | case7 => cases number

theorem dot_of_mem_dotPlaces {p : Nat} (number : dotPlaces ipp host = some places) (member : p ∈ places) :
    ∃ front back, host = front ++ '.' :: back ∧ p = ipp + front.length := by
  fun_induction dotPlaces ipp host generalizing places with
  | case1 =>
    obtain rfl := Option.some.inj number
    cases member
  | case2 place =>
    obtain rfl := Option.some.inj number
    exact ⟨[], [], rfl, List.mem_singleton.mp member⟩
  | case3 =>
    obtain rfl := Option.some.inj number
    cases member
  | case4 => cases number
  | case5 place d rest ih =>
    obtain ⟨more, found, rfl⟩ := Option.map_eq_some_iff.mp number
    rcases List.mem_cons.mp member with rfl | later
    · exact ⟨[], d :: rest, rfl, rfl⟩
    · obtain ⟨front, back, rfl, rfl⟩ := ih found later
      exact ⟨'.' :: d :: front, back, rfl, by rw [List.length_cons, List.length_cons]; omega⟩
  | case6 place c d rest dot digit ih =>
    obtain ⟨front, back, parts, rfl⟩ := ih number member
    exact ⟨c :: front, back, by rw [parts]; rfl, by rw [List.length_cons]; omega⟩
  | case7 => cases number

/-- Behind zeros and a dot at the end of the array the first loop leaves it. -/
theorem scanNumber_leaves (zeros : Nat) :
    scanNumber (List.replicate zeros '0' ++ ['.', NUL]) ipp number_of_dots zap_point = none := by
  induction zeros generalizing ipp with
  | zero => rfl
  | succ zeros ih =>
    rw [List.replicate_succ, List.cons_append]
    unfold scanNumber
    exact ih

/-! ### The second loop -/

theorem lastPlace_none {c : Char} (apart : c ∉ s) : lastPlace c s = none := by
  induction s with
  | nil => rfl
  | cons d s ih =>
    rw [List.mem_cons, not_or] at apart
    rw [lastPlace, ih apart.2]
    exact if_neg (Ne.symm apart.1)

theorem lastPlace_append {c : Char} (front : Text) (apart : c ∉ s) :
    lastPlace c (front ++ c :: s) = some front.length := by
  induction front with
  | nil =>
    rw [List.nil_append, lastPlace, lastPlace_none apart]
    exact if_pos rfl
  | cons d front ih => rw [List.cons_append, lastPlace, ih, List.length_cons]

theorem strrchr_eq (string : NUL ∉ host) (c : Char) :
    strrchr (host ++ NUL :: behind) c = some (lastPlace c host) :=
  congrArg (Option.map (lastPlace c)) (@readString_eq host behind [] string)

/-- **The second loop stays below the place that it starts from**, and does not come to the start of the name
exactly if there are dots enough behind it. -/
theorem findStart_spec {memory : Text} {host_mask n : Nat} (inside : host_mask < memory.length) (some_ : n ≠ 0) :
    ∃ looked start, findStart memory host_mask n = some (looked, start) ∧ (∀ i ∈ looked, i ≤ host_mask) ∧
      start ≤ host_mask ∧ (start ≠ 0 ↔ n ≤ ((memory.drop 1).take host_mask).count '.') := by
  induction host_mask generalizing n with
  | zero =>
    refine ⟨[], 0, rfl, nofun, le_rfl, iff_of_false (fun other => other rfl) ?_⟩
    rw [List.take_zero, List.count_nil]
    omega
  | succ host_mask ih =>
    have there : (memory.drop 1)[host_mask]? = some (memory.get ⟨host_mask + 1, inside⟩) := by
      rw [List.getElem?_drop, Nat.add_comm, List.getElem?_eq_getElem inside]
      rfl
    have counted : ((memory.drop 1).take (host_mask + 1)).count '.' = ((memory.drop 1).take host_mask).count '.' +
        if memory.get ⟨host_mask + 1, inside⟩ = '.' then 1 else 0 := by
      rw [List.take_add_one, there, List.count_append, Option.toList_some, List.count_singleton]
      simp
    have read : memory[host_mask + 1]? = some (memory.get ⟨host_mask + 1, inside⟩) :=
      List.getElem?_eq_getElem inside
    rw [counted]
    unfold findStart
    rw [read]
    simp only [Option.bind_eq_bind, Option.bind_some]
    generalize memory.get ⟨host_mask + 1, inside⟩ = c
    by_cases done : (if c = '.' then n - 1 else n) = 0
    · rw [if_pos done]
      have dot : c = '.' := by
        by_contra other
        exact some_ (by simpa [other] using done)
      rw [if_pos dot] at done ⊢
      exact ⟨_, _, rfl, fun i member => (List.mem_singleton.mp member).le, le_rfl,
        iff_of_true (Nat.succ_ne_zero _) (by omega)⟩
    · rw [if_neg done]
      obtain ⟨looked, start, found, below, least, enough⟩ := ih (Nat.lt_of_succ_lt inside) done
      refine ⟨(host_mask + 1) :: looked, start, by rw [found]; rfl, fun i member => ?_, by omega, ?_⟩
      · rcases List.mem_cons.mp member with rfl | later
        · exact le_rfl
        · exact (below i later).trans (Nat.le_succ _)
      · refine enough.trans ?_
        split <;> omega

end

/-! ### Masks -/

section

variable {front back host mask name : Text} {places : List Nat}

theorem maskMatches_self (t : Text) : MaskMatches t t := maskMatches_of_fold rfl

theorem maskMatches_end (front back : Text) : MaskMatches ('*' :: back) (front ++ back) :=
  maskMatches_star.mpr ⟨back, List.suffix_append .., maskMatches_self back⟩

theorem maskMatches_start (front back : Text) : MaskMatches (front ++ ['*']) (front ++ back) :=
  glob_append.mpr ⟨front, back, rfl, maskMatches_self front, maskMatches_star.mpr ⟨[], List.nil_suffix, rfl⟩⟩

theorem map_toLower_of_plain (plain : '*' ∉ mask ∧ '?' ∉ mask) (found : MaskMatches mask name) :
    mask.map toLower = name.map toLower := by
  induction mask generalizing name with
  | nil =>
    obtain rfl : name = [] := found
    rfl
  | cons m mask ih =>
    rw [List.mem_cons, List.mem_cons, not_or, not_or] at plain
    cases name with
    | nil => exact absurd found (not_glob_nil (Ne.symm plain.1.1))
    | cons c name =>
      obtain ⟨fit, found⟩ := (maskMatches_cons (Ne.symm plain.1.1)).mp found
      rw [List.map_cons, List.map_cons, fit.resolve_left (Ne.symm plain.2.1), ih ⟨plain.1.2, plain.2.2⟩ found]

theorem toLower_dot {c : Char} (same : toLower '.' = toLower c) : c = '.' := by
  have number := congrArg Char.toNat same
  rw [toLower_toNat, toLower_toNat] at number
  have dot : '.'.toNat = 46 := rfl
  apply Char.toNat_inj.mp
  split_ifs at number <;> omega

/-- **A star in front of a name that has lost its last character** does not match it, unless its last label is a
dot. -/
theorem not_maskMatches_cut {tld : Text} (plain : '*' ∉ host ∧ '?' ∉ host) (parts : host = front ++ '.' :: tld)
    (some_ : tld ≠ []) (apart : '.' ∉ tld) : ¬ MaskMatches ('*' :: host.dropLast) host := by
  intro found
  obtain ⟨rest, suffix, found⟩ := maskMatches_star.mp found
  have same := map_toLower_of_plain
    ⟨fun inside => plain.1 (List.mem_of_mem_dropLast inside),
      fun inside => plain.2 (List.mem_of_mem_dropLast inside)⟩ found
  obtain ⟨d, tld, rfl⟩ := List.exists_cons_of_ne_nil some_
  -- at the last dot the name has a dot, and what the star leaves has the character behind it
  have there := congrArg (fun t => t[front.length]?) same
  have dot : (host.dropLast.map toLower)[front.length]? = some (toLower '.') := by
    rw [parts, List.dropLast_append_of_ne_nil (List.cons_ne_nil _ _), List.map_append, List.getElem?_append_right
      (by rw [List.length_map]), List.length_map, Nat.sub_self]
    rfl
  have next : (rest.map toLower)[front.length]? = some (toLower d) := by
    obtain ⟨skipped, split⟩ := suffix
    have one : skipped.length = 1 := by
      have lengths := congrArg List.length same
      have total := congrArg List.length split
      have long := congrArg List.length parts
      rw [List.length_map, List.length_map, List.length_dropLast] at lengths
      rw [List.length_append] at total
      rw [List.length_append, List.length_cons, List.length_cons] at long
      omega
    have behind : rest[front.length]? = host[front.length + 1]? := by
      rw [← split, List.getElem?_append_right (by omega), one, Nat.add_sub_cancel]
    rw [List.getElem?_map, behind, parts, List.getElem?_append_right (Nat.le_succ _), Nat.succ_sub le_rfl,
      Nat.sub_self]
    rfl
  have equal := dot.symm.trans (there.trans next)
  exact apart (toLower_dot (Option.some.inj equal) ▸ List.mem_cons_self)

end

/-! ### Addresses -/

section

variable {w : Nat} {i j k l rest : Text} {ipp : Nat}

theorem and_upper {n d : Nat} (small : d < 2 ^ 8) (upper : Nat) :
    (n * 2 ^ 8 + d) &&& (upper * 2 ^ 8) = (n * 2 ^ 8 + 0) &&& (upper * 2 ^ 8) := by
  refine Nat.eq_of_testBit_eq fun bit => ?_
  rw [Nat.testBit_and, Nat.testBit_and, Nat.mul_comm n, Nat.mul_comm upper, Nat.testBit_two_pow_mul_add n small,
    Nat.testBit_two_pow_mul_add n (Nat.two_pow_pos 8), Nat.testBit_two_pow_mul]
  by_cases low : bit < 8
  · rw [decide_eq_false (show ¬ bit ≥ 8 by omega), Bool.false_and, Bool.and_false, Bool.and_false]
  · rw [if_neg low, if_neg low]

theorem quad_block {a b c d : Nat} (small : d ≤ 255) :
    quad w a b c d &&& prefixMask w 24 = quad w a b c 0 &&& prefixMask w 24 := by
  unfold quad prefixMask
  rw [← BitVec.ofNat_and, ← BitVec.ofNat_and]
  exact congrArg (BitVec.ofNat w) (and_upper (Nat.lt_succ_of_le small) (2 ^ 24 - 1))

theorem dotPlaces_digit {c : Char} (digit : c.isDigit = true) :
    dotPlaces ipp (c :: rest) = dotPlaces (ipp + 1) rest := by
  have plain : c ≠ '.' := by
    rintro rfl
    exact absurd digit (by decide)
  cases rest with
  | nil =>
    have single : dotPlaces ipp [c] = some [] := by rw [dotPlaces, if_neg plain, if_pos digit]
    rw [single, dotPlaces]
  | cons d rest => rw [dotPlaces, if_neg plain, if_pos digit]

theorem dotPlaces_digits (digits : Digits i) : dotPlaces ipp (i ++ rest) = dotPlaces (ipp + i.length) rest := by
  induction i generalizing ipp with
  | nil => rfl
  | cons c i ih =>
    obtain ⟨digit, digits⟩ := List.forall_mem_cons.mp digits
    rw [List.cons_append, dotPlaces_digit digit, ih digits, List.length_cons, Nat.add_assoc, Nat.add_comm 1]

theorem dotPlaces_dot (c : Char) :
    dotPlaces ipp ('.' :: c :: rest) = (dotPlaces (ipp + 2) rest).map (ipp :: ·) := by
  rw [dotPlaces, if_pos rfl]

/-- **The dots of an address** are counted. -/
theorem dotPlaces_quad (first : Numeral 255 i) (second : Numeral 255 j) (third : Numeral 255 k)
    (fourth : Numeral 255 l) : dotPlaces 0 (i ++ '.' :: (j ++ '.' :: (k ++ '.' :: l))) =
      some [i.length, i.length + 1 + j.length, i.length + 1 + j.length + 1 + k.length] := by
  have digits := And.intro second.digits (And.intro third.digits fourth.digits)
  obtain ⟨c, j, rfl⟩ := List.exists_cons_of_ne_nil second.some_
  obtain ⟨d, k, rfl⟩ := List.exists_cons_of_ne_nil third.some_
  obtain ⟨e, l, rfl⟩ := List.exists_cons_of_ne_nil fourth.some_
  have last : ∀ place, dotPlaces place l = some [] := fun place => by
    have whole := @dotPlaces_digits l [] place (List.forall_mem_cons.mp digits.2.2).2
    rw [List.append_nil] at whole
    exact whole
  rw [dotPlaces_digits first.digits, List.cons_append, dotPlaces_dot,
    dotPlaces_digits (List.forall_mem_cons.mp digits.1).2, List.cons_append, dotPlaces_dot,
    dotPlaces_digits (List.forall_mem_cons.mp digits.2.1).2, dotPlaces_dot, last]
  simp only [Option.map_some, List.length_cons, Option.some.injEq, List.cons.injEq, and_true]
  omega

end

/-! ### The masks that are made -/

section

variable {result temphost memory front back tld host behind : Text} {x y : Char}

/-- **A number** gets a star for its last part. -/
theorem zapMask_eq (size : result.length = HOSTLEN + 1) (string : NUL ∉ front)
    (short : front.length + 2 ≤ HOSTLEN) :
    zapMask result (front ++ '.' :: x :: y :: back) (some front.length) = some ⟨front ++ ['.', '*'], []⟩ := by
  have first : store (front ++ '.' :: x :: y :: back) (front.length + 1) '*' =
      some (front ++ '.' :: '*' :: y :: back) := by
    have stored := @store_length_append Char '*' (front ++ ['.']) (y :: back) x
    simpa using stored
  have second : store (front ++ '.' :: '*' :: y :: back) (front.length + 2) NUL =
      some ((front ++ ['.', '*']) ++ NUL :: back) := by
    have stored := @store_length_append Char NUL (front ++ ['.', '*']) back y
    simpa using stored
  have word : NUL ∉ front ++ ['.', '*'] := by
    rw [List.mem_append, not_or]
    exact ⟨string, by decide⟩
  have read : (copyResult result 0 (front ++ ['.', '*'] ++ NUL :: back)).bind (readString · 0) =
      some (front ++ ['.', '*']) :=
    copyResult_whole size word (by rw [List.length_append]; exact short)
  unfold zapMask
  simp only [Option.bind_eq_bind, Option.bind_some, first, second]
  rw [← Option.bind_assoc, read]
  rfl

/-- **The star is written in the array.** -/
theorem zapMask_name (sized : result.length = HOSTLEN + 1) (string : NUL ∉ host)
    (parts : host = front ++ '.' :: back) (room : front.length + 2 ≤ HOSTLEN)
    (size : (host ++ NUL :: behind).length = HOSTLEN + 1) : zapMask result (host ++ NUL :: behind) (some front.length) = some ⟨front ++ ['.', '*'], []⟩ := by
  have word : NUL ∉ front := fun inside => string (by rw [parts]; exact List.mem_append_left _ inside)
  have whole : host ++ NUL :: behind = front ++ '.' :: (back ++ NUL :: behind) := by
    rw [parts, List.append_assoc, List.cons_append]
  rw [whole, List.length_append, List.length_cons] at size
  rw [whole]
  match cells : back ++ NUL :: behind with
  | [] => rw [cells, List.length_nil] at size; omega
  | [_] => rw [cells, List.length_singleton] at size; omega
  | x :: y :: rest => exact zapMask_eq sized word room

/-- **A name without a dot** is its mask. -/
theorem tldMask_none (size : result.length = HOSTLEN + 1) (string : NUL ∉ host) (short : host.length ≤ HOSTLEN)
    (apart : '.' ∉ host) : tldMask result (host ++ NUL :: behind) = some ⟨host, []⟩ := by
  have read : (copyResult result 0 (host ++ NUL :: behind)).bind (readString · 0) = some host :=
    copyResult_whole size string short
  unfold tldMask
  rw [strrchr_eq string, lastPlace_none apart]
  simp only [Option.bind_eq_bind, Option.bind_some]
  rw [← Option.bind_assoc, read]
  rfl

theorem tldMask_far (string : NUL ∉ host) (parts : host = front ++ '.' :: tld) (apart : '.' ∉ tld)
    (size : (host ++ NUL :: behind).length = HOSTLEN + 1) (far : HOSTLEN < front.length + 3) :
    tldMask result (host ++ NUL :: behind) = none := by
  have beyond : (host ++ NUL :: behind)[front.length + 3]? = none := List.getElem?_eq_none (by omega)
  have last : lastPlace '.' host = some front.length := by
    rw [parts]
    exact lastPlace_append front apart
  unfold tldMask
  rw [strrchr_eq string, last]
  simp only [Option.bind_eq_bind, Option.bind_some, beyond, Option.bind_none]

/-- **A name with a dot** gets a star in front of a dot, or of the whole name. -/
theorem tldMask_eq (sized : result.length = HOSTLEN + 1) (string : NUL ∉ host)
    (parts : host = front ++ '.' :: tld) (apart : '.' ∉ tld)
    (size : (host ++ NUL :: behind).length = HOSTLEN + 1) (near : front.length + 3 ≤ HOSTLEN) :
    ∃ third looked start, (host ++ NUL :: behind)[front.length + 3]? = some third ∧
      findStart (host ++ NUL :: behind) (front.length - 1) (if third ≠ NUL then 1 else 2) = some (looked, start) ∧
      tldMask result (host ++ NUL :: behind) = some ⟨'*' :: (host.drop start).take (HOSTLEN - 1), looked⟩ ∧
      (∀ i ∈ looked, i < host.length) ∧ start ≤ host.length ∧
      (start ≠ 0 ↔ (if third ≠ NUL then 1 else 2) ≤ front.tail.count '.') := by
  have inside : front.length + 3 < (host ++ NUL :: behind).length := by omega
  have third : (host ++ NUL :: behind)[front.length + 3]? = some _ := List.getElem?_eq_getElem inside
  have last : lastPlace '.' host = some front.length := by
    rw [parts]
    exact lastPlace_append front apart
  have length : front.length < host.length := by
    rw [parts, List.length_append, List.length_cons]
    omega
  have from_ : (if front.length ≠ 0 then front.length - 1 else front.length) = front.length - 1 := by
    split <;> omega
  generalize (host ++ NUL :: behind)[front.length + 3] = c at third
  have dots : (if c ≠ NUL then 1 else 2) ≠ 0 := by split <;> decide
  obtain ⟨looked, start, found, below, least, enough⟩ :=
    @findStart_spec (host ++ NUL :: behind) (front.length - 1) _ (by omega) dots
  have counted : ((host ++ NUL :: behind).drop 1).take (front.length - 1) = front.tail := by
    rw [parts]
    cases front with
    | nil => rfl
    | cons d front => simp
  rw [counted] at enough
  have starred : ∃ out, store result 0 '*' = some out ∧ out.length = HOSTLEN + 1 ∧ out.take 1 = ['*'] := by
    obtain ⟨d, rest, rfl⟩ := List.exists_cons_of_length_eq_add_one sized
    exact ⟨'*' :: rest, rfl, sized, rfl⟩
  obtain ⟨out, stored, sized, star⟩ := starred
  have read : (copyResult out 1 ((host ++ NUL :: behind).drop start)).bind (readString · 0) =
      some ('*' :: (host.drop start).take (HOSTLEN - 1)) := by
    have word : NUL ∉ host.drop start := fun inside => string (List.mem_of_mem_drop inside)
    rw [List.drop_append_of_le_length (by omega), copyResult_read sized (by decide) word (by rw [star]; decide),
      star]
    rfl
  refine ⟨c, looked, start, third, found, ?_, fun i member => ?_, by omega, enough⟩
  · unfold tldMask
    rw [strrchr_eq string, last]
    simp only [Option.bind_eq_bind, Option.bind_some, third, from_, found, stored]
    rw [← Option.bind_assoc, read]
    rfl
  · have low := below i member
    omega

end

/-! ### The masks that cover the host -/

section

variable {w : Nat} {host front back : Text} {p q start : Nat} {looked : List Nat}

theorem not_quad (other : ∀ places, dotPlaces 0 host = some places → places.length ≠ 3) {i j k l : Text}
    (first : Numeral 255 i) (second : Numeral 255 j) (third : Numeral 255 k) (fourth : Numeral 255 l) :
    host ≠ i ++ '.' :: (j ++ '.' :: (k ++ '.' :: l)) := by
  rintro rfl
  exact other _ (dotPlaces_quad first second third fourth) rfl

/-- **The mask of a number covers it**, and the address that it may be. -/
theorem covers_zap (wide : 32 ≤ w) (parts : host = front ++ '.' :: back) (short : front.length + 2 ≤ HOSTLEN)
    (number : dotPlaces 0 host = some [p, q, front.length]) : MaskCovers w host ⟨front ++ ['.', '*'], []⟩ := by
  refine ⟨?_, ?_, ?_, nofun⟩
  · have found := maskMatches_start (front ++ ['.']) back
    rw [List.append_assoc, List.append_assoc] at found
    rw [parts]
    exact found
  · intro i j k l first second third fourth quad_
    have places := number
    rw [quad_, dotPlaces_quad first second third fourth] at places
    have last : i.length + 1 + j.length + 1 + k.length = front.length := by
      have list := Option.some.inj places
      simp only [List.cons.injEq] at list
      exact list.2.2.1
    have length : front.length = (i ++ '.' :: (j ++ '.' :: k)).length := by
      rw [← last]
      simp only [List.length_append, List.length_cons]
      omega
    have whole : front ++ '.' :: back = (i ++ '.' :: (j ++ '.' :: k)) ++ '.' :: l := by
      rw [← parts, quad_]
      simp
    have same : front = i ++ '.' :: (j ++ '.' :: k) := (List.append_inj whole length).1
    have mask : front ++ ['.', '*'] = i ++ '.' :: (j ++ '.' :: (k ++ '.' :: ['*'])) := by
      rw [same]
      simp
    have read := is_address_of_mask wide (AddressMask.star (w := w) first second third)
    refine ⟨(quad w (decimal i) (decimal j) (decimal k) 0 &&& prefixMask w 24, prefixMask w 24), ?_,
      quad_block fourth.small⟩
    show blockOf w (front ++ ['.', '*']) = _
    rw [mask, blockOf, read]
    rfl
  · rw [List.length_append]
    exact short

/-- **The mask of a name covers it**, if nothing of the name is cut off. -/
theorem covers_tld (other : ∀ places, dotPlaces 0 host = some places → places.length ≠ 3)
    (below : ∀ i ∈ looked, i < host.length) (room : (host.drop start).length ≤ HOSTLEN - 1) :
    MaskCovers w host ⟨'*' :: (host.drop start).take (HOSTLEN - 1), looked⟩ := by
  rw [List.take_of_length_le room]
  refine ⟨?_, fun first second third fourth quad_ => absurd quad_ (not_quad other first second third fourth), ?_,
    below⟩
  · have found := maskMatches_end (host.take start) (host.drop start)
    rw [List.take_append_drop] at found
    exact found
  · rw [List.length_cons]
    exact Nat.succ_le_succ room

end

/-! ### All memories -/

/-- **The mask of a host covers it**, whatever the two arrays hold. -/
def ClusterCovers (w : Nat) (host : CString) : Prop :=
  ∀ result temphost : Text, result.length = HOSTLEN + 1 → temphost.length = HOSTLEN + 1 →
    ∃ c, clusterIn result temphost host = some c ∧ MaskCovers w host.1 c

section

variable {w : Nat} {host : CString} {result temphost behind : Text}

theorem clusterIn_eq (plain : '@' ∉ host.1) (size : temphost.length = HOSTLEN + 1)
    (short : host.1.length ≤ HOSTLEN) : clusterIn result temphost host =
      (scanNumber (host.1 ++ NUL :: behindName temphost host.1.length) 0 0 none).bind fun scan =>
        if scan.is_ip_number = true ∧ scan.number_of_dots = 3 then
          zapMask result (host.1 ++ NUL :: behindName temphost host.1.length) scan.zap_point
        else tldMask result (host.1 ++ NUL :: behindName temphost host.1.length) := by
  unfold clusterIn
  rw [if_neg plain, copyResult_temphost size short host.2]
  rfl

/-- A name that is no number with three dots, and is not stepped over, is none for the first loop. -/
theorem scanNumber_other (other : ∀ places, dotPlaces 0 host.1 = some places →
    places.length ≠ 3 ∧ ¬ StepsOver host.1 places) :
    ∃ scan, scanNumber (host.1 ++ NUL :: behind) 0 0 none = some scan ∧
      ¬ (scan.is_ip_number = true ∧ scan.number_of_dots = 3) := by
  cases number : dotPlaces 0 host.1 with
  | none =>
    obtain ⟨dots, zap, scanned⟩ := @scanNumber_letter host.1 behind 0 0 none host.2 number
    exact ⟨_, scanned, fun both => absurd both.1 Bool.false_ne_true⟩
  | some places =>
    obtain ⟨few, inside⟩ := other places number
    refine ⟨_, (scanNumber_number host.2 number).trans (if_neg ?_), fun both => few ?_⟩
    · rw [Nat.zero_add]
      exact inside
    · rw [← both.2, Nat.zero_add]

/-- **A number with three dots** is one for the first loop, whatever is behind it. -/
theorem scanNumber_three {places : List Nat} (number : dotPlaces 0 host.1 = some places)
    (three : places.length = 3) (passed : StepsOver host.1 places → behind.head? = some NUL) :
    scanNumber (host.1 ++ NUL :: behind) 0 0 none = some ⟨true, 3, places[2]?⟩ := by
  obtain ⟨p, q, z, rfl⟩ := List.length_eq_three.mp three
  refine (scanNumber_number host.2 number).trans ?_
  split
  · rename_i steps
    rw [Nat.zero_add] at steps
    obtain ⟨rest, rfl⟩ := List.head?_eq_some_iff.mp (passed steps)
    exact scanNumber_nul
  · rfl

/-- What is behind a name in `temphost` begins with a terminator where one character is left. -/
theorem head_behindName {length : Nat} (one : length + 1 = HOSTLEN) : behindName temphost length = [NUL] := by
  unfold behindName
  rw [if_pos (by omega), show HOSTLEN - length - 1 = 0 by omega, List.take_zero, List.nil_append]

/-- The third character of the last label of a name that fills the array is its end exactly if it has two. -/
theorem third_eq {front tld : Text} {third : Char} (parts : host.1 = front ++ '.' :: tld)
    (full : host.1.length = HOSTLEN) (near : front.length + 3 ≤ HOSTLEN)
    (read : (host.1 ++ NUL :: behind)[front.length + 3]? = some third) :
    (if third ≠ NUL then 1 else 2) = if tld.length = 2 then 2 else 1 := by
  have length := congrArg List.length parts
  rw [List.length_append, List.length_cons] at length
  by_cases two : tld.length = 2
  · rw [List.getElem?_append_right (by omega), show front.length + 3 - host.1.length = 0 by omega] at read
    obtain rfl : NUL = third := Option.some.inj read
    rw [if_neg (fun other => other rfl), if_pos two]
  · rw [List.getElem?_append_left (by omega)] at read
    have member : third ∈ host.1 := List.mem_of_getElem? read
    have some_ : third ≠ NUL := fun same => host.2 (show NUL ∈ host.1 from same ▸ member)
    rw [if_pos some_, if_neg two]

/-- **A coverable host is covered.** -/
theorem Coverable.covers (wide : 32 ≤ w) (short : host.1.length ≤ HOSTLEN) (plain : '@' ∉ host.1)
    (coverable : Coverable host.1) : ClusterCovers w host := by
  intro result temphost sized size
  have memory := length_behindName size short
  rw [clusterIn_eq plain size short]
  -- the mask of a name that is no number with three dots
  have named : (∀ places, dotPlaces 0 host.1 = some places → places.length ≠ 3 ∧ ¬ StepsOver host.1 places) →
      ('.' ∈ host.1 → TldFits host.1) → ∃ c,
        ((scanNumber (host.1 ++ NUL :: behindName temphost host.1.length) 0 0 none).bind fun scan =>
          if scan.is_ip_number = true ∧ scan.number_of_dots = 3 then
            zapMask result (host.1 ++ NUL :: behindName temphost host.1.length) scan.zap_point
          else tldMask result (host.1 ++ NUL :: behindName temphost host.1.length)) = some c ∧
        MaskCovers w host.1 c := by
    intro other fits
    obtain ⟨scan, scanned, number⟩ := @scanNumber_other host (behindName temphost host.1.length) other
    have few := fun places found => (other places found).1
    rw [scanned, Option.bind_some, if_neg number]
    by_cases dot : '.' ∈ host.1
    · obtain ⟨front, tld, parts, apart, near, room⟩ := fits dot
      obtain ⟨third, looked, start, read, -, made, below, least, enough⟩ :=
        tldMask_eq sized host.2 parts apart memory near
      refine ⟨_, made, covers_tld few below ?_⟩
      rw [List.length_drop]
      by_cases begun : start = 0
      · -- the whole name has room
        by_cases full : host.1.length = HOSTLEN
        · rw [third_eq parts full near read] at enough
          exact absurd begun (enough.mpr (room.resolve_left (by omega)))
        · omega
      · omega
    · refine ⟨_, tldMask_none sized host.2 short dot, maskMatches_self _, ?_, short, nofun⟩
      exact fun first second third fourth quad_ => absurd quad_ (not_quad few first second third fourth)
  unfold Coverable at coverable
  cases number : dotPlaces 0 host.1 with
  | none =>
    rw [number] at coverable
    exact named (by rw [number]; nofun) fun dot => coverable.resolve_left fun none_ => none_ dot
  | some places =>
    rw [number] at coverable
    have dotted : ∀ p ∈ places, '.' ∈ host.1 := fun p member => by
      obtain ⟨front, back, parts, -⟩ := dot_of_mem_dotPlaces number member
      rw [parts]
      exact List.mem_append_right _ List.mem_cons_self
    by_cases three : places.length = 3
    · obtain ⟨p, q, z, rfl⟩ := List.length_eq_three.mp three
      have some_ : '.' ∈ host.1 := dotted p List.mem_cons_self
      have passed : StepsOver host.1 [p, q, z] → host.1.length + 1 = HOSTLEN := by
        rcases coverable with none_ | both | both
        · exact absurd some_ none_
        · exact both.2
        · exact fun steps => absurd steps both.2
      obtain ⟨front, back, parts, place⟩ := dot_of_mem_dotPlaces number
        (show z ∈ [p, q, z] from List.mem_cons_of_mem _ (List.mem_cons_of_mem _ List.mem_cons_self))
      rw [Nat.zero_add] at place
      have length := congrArg List.length parts
      rw [List.length_append, List.length_cons] at length
      have room : front.length + 2 ≤ HOSTLEN := by
        cases back with
        | nil =>
          have steps : StepsOver host.1 [p, q, z] := by
            show host.1.length ∈ [p + 1, q + 1, z + 1]
            rw [length, place]
            simp
          have one := passed steps
          rw [List.length_nil] at length
          omega
        | cons d back =>
          rw [List.length_cons] at length
          omega
      have scanned := @scanNumber_three host (behindName temphost host.1.length) _ number three fun steps => by
        rw [head_behindName (passed steps)]
        rfl
      rw [scanned, Option.bind_some, if_pos ⟨rfl, rfl⟩]
      refine ⟨_, ?_, covers_zap wide parts room (place ▸ number)⟩
      show zapMask result _ (some z) = _
      rw [place]
      exact zapMask_name sized host.2 parts room memory
    · refine named (fun other found => ?_) fun dot => ?_
      · obtain rfl := Option.some.inj (number.symm.trans found)
        refine ⟨three, ?_⟩
        rcases coverable with none_ | both | both
        · intro steps
          obtain ⟨p, member, -⟩ := List.mem_map.mp steps
          exact none_ (dotted p member)
        · exact absurd both.1 three
        · exact both.2
      · rcases coverable with none_ | both | both
        · exact absurd dot none_
        · exact absurd both.1 three
        · exact both.1

def zeroed : Text := List.replicate (HOSTLEN + 1) NUL

theorem exists_last_dot {t : Text} (dot : '.' ∈ t) : ∃ front tld, t = front ++ '.' :: tld ∧ '.' ∉ tld := by
  obtain ⟨tld, front, parts, apart⟩ := List.eq_append_cons_of_mem (List.mem_reverse.mpr dot)
  refine ⟨front.reverse, tld.reverse, ?_, fun inside => apart (List.mem_reverse.mp inside)⟩
  have whole := congrArg List.reverse parts
  rw [List.reverse_reverse, List.reverse_append, List.reverse_cons, List.append_assoc] at whole
  exact whole

/-- **A name whose mask covers it fits**, if it is no number. -/
theorem tldFits_of_covers (short : host.1.length ≤ HOSTLEN) (plain : '@' ∉ host.1 ∧ '*' ∉ host.1 ∧ '?' ∉ host.1)
    (dot : '.' ∈ host.1) (other : ∀ places, dotPlaces 0 host.1 = some places →
      places.length ≠ 3 ∧ ¬ StepsOver host.1 places) (covers : ClusterCovers w host) : TldFits host.1 := by
  obtain ⟨front, tld, parts, apart⟩ := exists_last_dot dot
  have size : zeroed.length = HOSTLEN + 1 := List.length_replicate
  have memory := length_behindName size short
  obtain ⟨scan, scanned, number⟩ := @scanNumber_other host (behindName zeroed host.1.length) other
  obtain ⟨c, made, covered⟩ := covers zeroed zeroed size size
  rw [clusterIn_eq plain.1 size short, scanned, Option.bind_some, if_neg number] at made
  refine ⟨front, tld, parts, apart, ?_⟩
  by_cases near : front.length + 3 ≤ HOSTLEN
  · refine ⟨near, or_iff_not_imp_left.mpr fun full => ?_⟩
    replace full : host.1.length = HOSTLEN := by omega
    obtain ⟨third, looked, start, read, -, masked, below, least, enough⟩ :=
      tldMask_eq size host.2 parts apart memory near
    rw [third_eq parts full near read] at enough
    refine enough.mp fun begun => ?_
    -- the last character is cut off
    obtain rfl := Option.some.inj (masked.symm.trans made)
    have glob := covered.glob
    dsimp only at glob
    rw [begun, List.drop_zero, ← full, ← List.dropLast_eq_take] at glob
    refine not_maskMatches_cut plain.2 parts ?_ apart glob
    rintro rfl
    have length := congrArg List.length parts
    rw [List.length_append, List.length_singleton] at length
    omega
  · rw [tldMask_far host.2 parts apart memory (Nat.lt_of_not_le near)] at made
    exact absurd made (Option.some_ne_none _).symm

/-- **A name that is stepped over is covered only if it has three dots and one character is left.** -/
theorem three_of_covers {places : List Nat} (short : host.1.length ≤ HOSTLEN) (plain : '@' ∉ host.1)
    (number : dotPlaces 0 host.1 = some places) (passed : StepsOver host.1 places) (covers : ClusterCovers w host) :
    places.length = 3 ∧ host.1.length + 1 = HOSTLEN := by
  have size : zeroed.length = HOSTLEN + 1 := List.length_replicate
  have stepped : ∀ behind, scanNumber (host.1 ++ NUL :: behind) 0 0 none =
      scanNumber behind (host.1.length + 1) places.length (zapPoint 0 places none) := fun behind => by
    rw [scanNumber_number host.2 number, if_pos (by rw [Nat.zero_add]; exact passed), Nat.zero_add, Nat.zero_add]
  rcases Nat.lt_trichotomy (host.1.length + 1) HOSTLEN with less | one | full
  · -- what is in the array leads on to a dot at its end
    let tail : Text := List.replicate (HOSTLEN - host.1.length - 2) '0' ++ ['.', NUL]
    have tail_length : tail.length = HOSTLEN - host.1.length := by
      rw [List.length_append, List.length_replicate, List.length_cons, List.length_singleton]
      omega
    have filled : (host.1 ++ NUL :: tail).length = HOSTLEN + 1 := by
      rw [List.length_append, List.length_cons, tail_length]
      omega
    have behind : behindName (host.1 ++ NUL :: tail) host.1.length = tail := by
      have dropped : (host.1 ++ NUL :: tail).drop (host.1.length + 1) = tail := by
        rw [List.drop_append, List.drop_of_length_le (Nat.le_succ _), Nat.add_sub_cancel_left]
        rfl
      have parts : tail = (List.replicate (HOSTLEN - host.1.length - 2) '0' ++ ['.']) ++ [NUL] := by simp [tail]
      unfold behindName
      rw [if_pos (by omega), dropped]
      conv_lhs => rw [parts]
      rw [List.take_append_of_le_length, List.take_of_length_le, ← parts]
      · rw [List.length_append, List.length_replicate, List.length_singleton]
        omega
      · rw [List.length_append, List.length_replicate, List.length_singleton]
        omega
    obtain ⟨c, made, -⟩ := covers zeroed (host.1 ++ NUL :: tail) size filled
    rw [clusterIn_eq plain filled short, behind, stepped, scanNumber_leaves] at made
    exact absurd made (Option.some_ne_none _).symm
  · refine ⟨?_, one⟩
    by_contra few
    obtain ⟨p, member, last⟩ := List.mem_map.mp passed
    obtain ⟨front, back, parts, place⟩ := dot_of_mem_dotPlaces number member
    have length := congrArg List.length parts
    rw [List.length_append, List.length_cons] at length
    obtain rfl : back = [] := List.eq_nil_of_length_eq_zero (by omega)
    have memory := length_behindName size short
    obtain ⟨c, made, -⟩ := covers zeroed zeroed size size
    rw [clusterIn_eq plain size short, head_behindName one, stepped, scanNumber_nul, Option.bind_some,
      if_neg (fun both => few both.2)] at made
    rw [head_behindName one] at memory
    rw [tldMask_far host.2 parts List.not_mem_nil memory (by omega)] at made
    exact absurd made (Option.some_ne_none _).symm
  · obtain ⟨c, made, -⟩ := covers zeroed zeroed size size
    have nothing : behindName zeroed host.1.length = [] := if_neg (by omega)
    rw [clusterIn_eq plain size short, nothing, stepped] at made
    exact absurd made (Option.some_ne_none _).symm

/-- **A host that is covered is coverable.** -/
theorem coverable_of_covers (short : host.1.length ≤ HOSTLEN)
    (plain : '@' ∉ host.1 ∧ '*' ∉ host.1 ∧ '?' ∉ host.1) (covers : ClusterCovers w host) : Coverable host.1 := by
  refine or_iff_not_imp_left.mpr fun dot => ?_
  rw [not_not] at dot
  cases number : dotPlaces 0 host.1 with
  | none => exact tldFits_of_covers short plain dot (by rw [number]; nofun) covers
  | some places =>
    show _ ∨ _
    by_cases passed : StepsOver host.1 places
    · have three := three_of_covers short plain.1 number passed covers
      exact .inl ⟨three.1, fun _ => three.2⟩
    · by_cases three : places.length = 3
      · exact .inl ⟨three, fun steps => absurd steps passed⟩
      · refine .inr ⟨tldFits_of_covers short plain dot (fun other found => ?_) covers, passed⟩
        obtain rfl := Option.some.inj (number.symm.trans found)
        exact ⟨three, passed⟩

/-- **The mask of a host covers it, whatever the two arrays hold, exactly if the host is coverable.** -/
theorem cluster_covers_iff (wide : 32 ≤ w) (host : CString) (short : host.1.length ≤ HOSTLEN)
    (plain : '@' ∉ host.1 ∧ '*' ∉ host.1 ∧ '?' ∉ host.1) : ClusterCovers w host ↔ Coverable host.1 :=
  ⟨coverable_of_covers short plain, fun coverable => coverable.covers wide short plain.1⟩

end

/-- A name that fills the array, with one dot. -/
def sampleFull : CString := ⟨'h' :: (List.replicate 58 'a' ++ ".com".toList), by decide⟩

/-- The host `irc.example.org`. -/
theorem cluster_covers_iff_example :
    ClusterCovers 64 ⟨"irc.example.org".toList, by decide⟩ ↔ Coverable "irc.example.org".toList :=
  cluster_covers_iff (by decide) ⟨"irc.example.org".toList, by decide⟩ (by decide) (by decide)

/-- **The last character of a name that fills the array** is cut off. -/
theorem not_cluster_covers : ¬ ∀ (w : Nat), 32 ≤ w → ∀ host : CString, host.1.length ≤ HOSTLEN →
    '@' ∉ host.1 ∧ '*' ∉ host.1 ∧ '?' ∉ host.1 → ClusterCovers w host := by
  intro all
  obtain ⟨c, made, covered⟩ := all 64 (by decide) sampleFull (by decide) (by decide) zeroed zeroed rfl rfl
  have mask : (clusterIn zeroed zeroed sampleFull).map Clustered.mask =
      some ('*' :: 'h' :: (List.replicate 58 'a' ++ ".co".toList)) := by decide +kernel
  rw [made] at mask
  have glob := covered.glob
  rw [show c.mask = _ from Option.some.inj mask] at glob
  exact absurd glob (by decide +kernel)

/-! ### The mask of the command -/

section

variable {host : CString} {result : Text} {c : Clustered}

/-- **The second loop finds the rest of the host** that is found on texts. -/
theorem hostPortion_findStart {n : Nat} {behind before memory rest : Text}
    (cells : memory = before.reverse ++ (behind ++ rest)) :
    ∃ looked start, findStart memory (before.length - 1) n = some (looked, start) ∧ start ≤ before.length ∧
      hostPortion n behind before = if start = 0 then none else some ((before.reverse ++ behind).drop start) := by
  have shift : ∀ d e (before behind : Text),
      (d :: e :: before).reverse ++ behind = (e :: before).reverse ++ d :: behind := fun d e before behind => by
    simp
  have there : ∀ d e (before behind : Text), memory = (d :: e :: before).reverse ++ (behind ++ rest) →
      memory[before.length + 1]? = some d := by
    rintro d e before behind rfl
    have read := getElem?_length_append (e :: before).reverse (d :: (behind ++ rest))
    rw [List.length_reverse] at read
    rw [shift]
    exact read
  fun_induction hostPortion n behind before with
  | case1 => exact ⟨[], 0, rfl, le_rfl, rfl⟩
  | case2 => exact ⟨[], 0, rfl, Nat.zero_le _, rfl⟩
  | case3 n behind d e before left done =>
    refine ⟨[before.length + 1], before.length + 1, ?_, Nat.le_succ _, ?_⟩
    · show findStart memory (before.length + 1) n = _
      unfold findStart
      rw [there d e before behind cells]
      exact if_pos done
    · rw [if_neg (Nat.succ_ne_zero _), shift]
      have dropped := @List.drop_left _ (e :: before).reverse (d :: behind)
      rw [List.length_reverse] at dropped
      exact congrArg some dropped.symm
  | case4 n behind d e before left more ih =>
    obtain ⟨looked, start, found, least, portion⟩ := ih (cells.trans (shift d e before (behind ++ rest)))
    refine ⟨(before.length + 1) :: looked, start, ?_, least.trans (Nat.le_succ _), ?_⟩
    · show findStart memory (before.length + 1) n = _
      unfold findStart
      rw [there d e before behind cells]
      simp only [Option.bind_eq_bind, Option.bind_some]
      rw [if_neg more]
      rw [show findStart memory before.length (if d = '.' then n - 1 else n) = some (looked, start) from found]
      rfl
    · rw [portion, shift]

theorem eq_nul_of_mem_behindName {length : Nat} {d : Char} (member : d ∈ behindName zeroed length) : d = NUL := by
  unfold behindName at member
  split at member
  · rcases List.mem_append.mp member with old | new
    · exact List.eq_of_mem_replicate (List.mem_of_mem_drop (List.mem_of_mem_take old))
    · exact List.mem_singleton.mp new
  · exact absurd member List.not_mem_nil

/-- **The mask of a name** on zeros. -/
theorem tldMask_zeroed (size : result.length = HOSTLEN + 1) (short : host.1.length ≤ HOSTLEN)
    (plain : '@' ∉ host.1) (few : ∀ places, dotPlaces 0 host.1 = some places → places.length ≠ 3)
    (made : tldMask result (host.1 ++ NUL :: behindName zeroed host.1.length) = some c) :
    c.mask = cluster host.1 := by
  have memory : (host.1 ++ NUL :: behindName zeroed host.1.length).length = HOSTLEN + 1 :=
    length_behindName List.length_replicate short
  unfold cluster
  rw [List.take_of_length_le short, if_neg plain]
  dsimp only
  split
  · rename_i places
    exact absurd rfl (few _ places)
  · by_cases dot : '.' ∈ host.1
    · rw [if_pos dot]
      obtain ⟨front, tld, parts, apart⟩ := exists_last_dot dot
      have length := congrArg List.length parts
      rw [List.length_append, List.length_cons] at length
      have near : front.length + 3 ≤ HOSTLEN := by
        by_contra far
        rw [tldMask_far host.2 parts apart memory (Nat.lt_of_not_le far)] at made
        exact absurd made (Option.some_ne_none _).symm
      have label : (host.1.reverse.takeWhile (· ≠ '.')).reverse = tld := by
        have cut := congrArg Prod.fst (field_append_cons (fun inside => apart (List.mem_reverse.mp inside))
          front.reverse)
        rw [parts, List.reverse_append, List.reverse_cons, List.append_assoc]
        exact (congrArg List.reverse cut).trans (List.reverse_reverse tld)
      have labels : host.1.take (host.1.length - tld.length - 1) = front := by
        rw [show host.1.length - tld.length - 1 = front.length by omega, parts, List.take_left]
      obtain ⟨third, looked, start, read, found, masked, -, -, -⟩ :=
        tldMask_eq size host.2 parts apart memory near
      obtain rfl := Option.some.inj (masked.symm.trans made)
      have dots : (if third ≠ NUL then 1 else 2) = if 2 < tld.length then 1 else 2 := by
        by_cases long : 2 < tld.length
        · rw [List.getElem?_append_left (by omega)] at read
          have some_ : third ≠ NUL := fun same =>
            host.2 (show NUL ∈ host.1 from same ▸ List.mem_of_getElem? read)
          rw [if_pos some_, if_pos long]
        · rw [List.getElem?_append_right (by omega)] at read
          have nul : third = NUL :=
            (List.mem_cons.mp (List.mem_of_getElem? read)).elim id eq_nul_of_mem_behindName
          rw [if_neg (fun other => other nul), if_neg long]
      obtain ⟨looked', start', found', least, portion⟩ := @hostPortion_findStart (if 2 < tld.length then 1 else 2)
        ('.' :: tld) front.reverse (host.1 ++ NUL :: behindName zeroed host.1.length)
        (NUL :: behindName zeroed host.1.length) (by
          rw [List.reverse_reverse, ← List.append_assoc, ← parts])
      rw [List.length_reverse, ← dots, found] at found'
      obtain ⟨rfl, rfl⟩ := Prod.mk.inj (Option.some.inj found')
      rw [label, labels, portion, List.reverse_reverse, ← parts]
      by_cases begun : start = 0
      · rw [if_pos begun, begun]
        rfl
      · rw [if_neg begun]
    · rw [if_neg dot]
      rw [tldMask_none size host.2 short dot] at made
      obtain rfl := Option.some.inj made
      rfl

/-- **On zeros the mask is the one of the model on texts**, where the function returns. -/
theorem mask_eq_cluster (size : result.length = HOSTLEN + 1) (short : host.1.length ≤ HOSTLEN)
    (made : clusterIn result zeroed host = some c) : c.mask = cluster host.1 := by
  by_cases plain : '@' ∈ host.1
  · have read := @copyResult_whole result host.1 [] size host.2 short
    unfold clusterIn at made
    rw [if_pos plain] at made
    simp only [Option.bind_eq_bind] at made
    rw [← Option.bind_assoc, read] at made
    obtain rfl := Option.some.inj made
    unfold cluster
    rw [List.take_of_length_le short, if_pos plain]
  have zeros : zeroed.length = HOSTLEN + 1 := List.length_replicate
  have memory := length_behindName zeros short
  rw [clusterIn_eq plain zeros short] at made
  cases number : dotPlaces 0 host.1 with
  | none =>
    obtain ⟨dots, zap, scanned⟩ :=
      @scanNumber_letter host.1 (behindName zeroed host.1.length) 0 0 none host.2 number
    rw [scanned, Option.bind_some, if_neg fun both => absurd both.1 Bool.false_ne_true] at made
    exact tldMask_zeroed size short plain (by rw [number]; nofun) made
  | some places =>
    -- the first loop ends at the name, or at the zero behind the one that it steps over
    have scan := @scanNumber_number host.1 (behindName zeroed host.1.length) 0 0 none places host.2 number
    rw [Nat.zero_add, Nat.zero_add] at scan
    have ends : (host.1.length = HOSTLEN → ¬ StepsOver host.1 places) ∧
        scanNumber (host.1 ++ NUL :: behindName zeroed host.1.length) 0 0 none =
          some ⟨true, places.length, zapPoint 0 places none⟩ := by
      by_cases passed : StepsOver host.1 places
      · replace scan := scan.trans (if_pos passed)
        cases behind : behindName zeroed host.1.length with
        | nil =>
          rw [behind] at scan
          rw [behind, scan] at made
          exact absurd made (Option.some_ne_none _).symm
        | cons d rest =>
          have nul : d = NUL := @eq_nul_of_mem_behindName host.1.length d (behind ▸ List.mem_cons_self)
          rw [behind, nul] at scan
          refine ⟨fun full => ?_, ?_⟩
          · have nothing : behindName zeroed host.1.length = [] := if_neg (by omega)
            rw [nothing] at behind
            exact nomatch behind
          · rw [nul]
            exact scan.trans scanNumber_nul
      · exact ⟨fun _ => passed, scan.trans (if_neg passed)⟩
    rw [ends.2, Option.bind_some] at made
    by_cases three : places.length = 3
    · rw [if_pos ⟨rfl, three⟩] at made
      obtain ⟨p, q, z, rfl⟩ := List.length_eq_three.mp three
      obtain ⟨front, back, parts, place⟩ := dot_of_mem_dotPlaces number
        (show z ∈ [p, q, z] from List.mem_cons_of_mem _ (List.mem_cons_of_mem _ List.mem_cons_self))
      rw [Nat.zero_add] at place
      have length := congrArg List.length parts
      rw [List.length_append, List.length_cons] at length
      have room : front.length + 2 ≤ HOSTLEN := by
        by_contra far
        have full : host.1.length = HOSTLEN := by omega
        refine ends.1 full ?_
        show host.1.length ∈ [p + 1, q + 1, z + 1]
        rw [show host.1.length = z + 1 by omega]
        simp
      replace made : zapMask result _ (some z) = some c := made
      rw [place, zapMask_name size host.2 parts room memory] at made
      obtain rfl := Option.some.inj made
      unfold cluster
      rw [List.take_of_length_le short, if_neg plain, number]
      dsimp only
      have taken : host.1.take (z + 1) = front ++ ['.'] := by
        rw [place, parts, List.take_length_add_append]
        rfl
      rw [taken, List.append_assoc, List.take_of_length_le (by rw [List.length_append]; exact room)]
      rfl
    · rw [if_neg fun both => three both.2] at made
      refine tldMask_zeroed size short plain (fun other found => ?_) made
      obtain rfl := Option.some.inj (number.symm.trans found)
      exact three

end

end PtlinkIrcd
