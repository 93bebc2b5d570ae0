/-
**The command `KLINE`.**

`m_kline` of `m_kline.c` up to the entry that it makes, with `is_address` of `s_conf.c`. An
`unsigned long` has `w` bits.

* `is_address` — the address and the mask of a text, if it is one.
* `blockOf` — the addresses that such a text is for.
* `cluster` — the host mask for a host.
* `m_kline` — the K-line that a command asks for.
-/

import PtlinkIrcd.Conf.Gline
import PtlinkIrcd.Lib.Fields

namespace PtlinkIrcd

/-! ### Addresses -/

/-- Where the walk of `is_address` is: the number so far, its last part, the address before a slash,
the dots and the character before. -/
structure AddressState (w : Nat) where
  current_ip : BitVec w
  octet : BitVec 32
  ip_ptr : Option (BitVec w)
  dot_count : Nat
  last : Option Char

def cidr_to_bitmask (w length : Nat) : BitVec w := BitVec.ofNat w (2 ^ 32 - 2 ^ (32 - length))

def AddressState.whole {w : Nat} (s : AddressState w) : BitVec w :=
  (s.current_ip <<< 8) + s.octet.setWidth w

/-- The walk of `is_address`. -/
def addressLoop {w : Nat} : Text → AddressState w → Option (BitVec w × BitVec w)
  | [], s =>
    match s.ip_ptr with
    | some ip =>
      if 32 < s.whole.toNat then none else some (ip, cidr_to_bitmask w s.whole.toNat)
    | none => some (s.whole, BitVec.ofNat w 0xFFFFFFFF)
  | c :: rest, s =>
    if c.isDigit then
      addressLoop rest
        { s with octet := s.octet * 10 + BitVec.ofNat 32 (c.toNat &&& 0xF), last := some c }
    else if c = '.' then
      if 255 < s.octet.toNat then none
      else
        addressLoop rest
          { s with
            current_ip := s.whole
            octet := 0
            dot_count := s.dot_count + 1
            last := some c }
    else if c = '/' then
      if 255 < s.octet.toNat then none
      else
        addressLoop rest
          { s with current_ip := 0, octet := 0, ip_ptr := some s.whole, last := some c }
    else if c = '*' then
      if s.dot_count = 3 ∧ rest = [] ∧ s.last = some '.' then
        some (s.current_ip <<< 8, BitVec.ofNat w 0xFFFFFF00)
      else none
    else none

/-- `is_address`: the address and the mask. -/
def is_address (w : Nat) (host : Text) : Option (BitVec w × BitVec w) :=
  addressLoop host ⟨0, 0, none, 0, none⟩

/-- The addresses that a text is for: the masked address, and the mask. -/
def blockOf (w : Nat) (host : Text) : Option (BitVec w × BitVec w) :=
  (is_address w host).map fun found => (found.1 &&& found.2, found.2)

/-- The form of an address in which `m_kline` keeps it: its first characters, with a star written
as a block of addresses. -/
def cidrForm (host : Text) : Text :=
  let cidr_form_host := host.take 32
  if '*' ∈ cidr_form_host then cidr_form_host.takeWhile (· ≠ '*') ++ "0/24".toList
  else cidr_form_host

section Addresses

variable {w : Nat} {host : Text} {s : AddressState w} {found : BitVec w × BitVec w} {c : Char}

def IsAddressChar (c : Char) : Prop := c.isDigit = true ∨ c = '.' ∨ c = '/' ∨ c = '*'

theorem isAddressChar_of_addressLoop (address : addressLoop host s = some found) (member : c ∈ host) :
    IsAddressChar c := by
  induction host generalizing s with
  | nil => cases member
  | cons d rest ih =>
    unfold addressLoop at address
    have here : IsAddressChar d := by
      unfold IsAddressChar
      split_ifs at address <;> simp_all
    rcases List.mem_cons.mp member with rfl | later
    · exact here
    · split_ifs at address with _ _ _ _ _ _ star
      · exact ih address later
      · exact ih address later
      · exact ih address later
      · rw [star.2.1] at later
        cases later

end Addresses

/-! ### Masks for a nick -/

/-- The dots that `cluster` counts in a number: behind each it skips a character. There are none when
it finds another character than a digit. -/
def dotPlaces : Nat → Text → Option (List Nat)
  | _, [] => some []
  | place, [c] => if c = '.' then some [place] else if c.isDigit then some [] else none
  | place, c :: d :: rest =>
    if c = '.' then (dotPlaces (place + 2) rest).map (place :: ·)
    else if c.isDigit then dotPlaces (place + 1) (d :: rest)
    else none

/-- The walk of `cluster` from the last dot of a host to the front: the rest of the host from the
dot where the count ends. -/
def hostPortion : Nat → Text → Text → Option Text
  | _, _, [] => none
  | _, _, [_] => none
  | number_of_dots, behind, c :: d :: before =>
    let left := if c = '.' then number_of_dots - 1 else number_of_dots
    if left = 0 then some (c :: behind) else hostPortion left (c :: behind) (d :: before)

def cluster (hostname : Text) : Text :=
  let temphost := hostname.take HOSTLEN
  if '@' ∈ hostname then temphost
  else
    match dotPlaces 0 temphost with
    | some [_, _, zap_point] => (temphost.take (zap_point + 1) ++ ['*']).take HOSTLEN
    | _ =>
      if '.' ∈ temphost then
        let tld := (temphost.reverse.takeWhile (· ≠ '.')).reverse
        let front := temphost.take (temphost.length - tld.length - 1)
        let number_of_dots := if 2 < tld.length then 1 else 2
        match hostPortion number_of_dots ('.' :: tld) front.reverse with
        | some host_mask => '*' :: host_mask.take (HOSTLEN - 1)
        | none => '*' :: temphost.take (HOSTLEN - 1)
      else temphost

/-! ### The command -/

/-- `isnumber`: zero for what is no number, one for the number zero. -/
def isnumber (p : Text) : Int32 :=
  if p.all Char.isDigit then
    let result : Int32 := p.foldl (fun result c => result * 10 + Int32.ofNat (c.toNat &&& 0xF)) 0
    if result = 0 then 1 else result
  else 0

def OneLine (t : Text) : Prop := '\n' ∉ t ∧ '\r' ∉ t

/-- What `m_kline` looks at in a client that it finds under a nick. -/
structure Chased where
  user : Bool
  server : Bool
  elined : Bool
  realhost : Text
  realhost_line : OneLine realhost

/-- What the rest of the server says to `m_kline`. -/
structure KlineEnv (w : Nat) where
  find_chasing : Text → Option Chased
  /-- Whether `is_klined` finds a K-line for a host, a user and an address. -/
  is_klined : Text → Text → BitVec w → Bool

/-- What `m_kline` looks at in its sender. -/
structure Klining where
  name : Text
  username : Text
  realhost : Text
  myClient : Bool
  isAnOper : Bool
  isSetOperK : Bool
  name_short : name.length ≤ HOSTLEN
  username_short : username.length ≤ USERLEN
  realhost_short : realhost.length ≤ HOSTLEN
  lines : OneLine name ∧ OneLine username ∧ OneLine realhost

/-- The K-line of a command: its `user` and `host`, for an address `ip` and `ip_mask`, the reason as
it was given, and the minutes of a temporary one. -/
structure Kline (w : Nat) where
  minutes : Option Int32
  user : Text
  host : Text
  address : Option (BitVec w × BitVec w)
  reason : Option Text
deriving DecidableEq

/-- The user and the host that a command is about. -/
def KlineEnv.maskOf {w : Nat} (env : KlineEnv w) (argv : Text) : Option (Text × Text) :=
  if '@' ∈ argv ∨ argv.head? = some '*' then
    let user := if '@' ∈ argv then argv.takeWhile (· ≠ '@') else ['*']
    let host := if '@' ∈ argv then (argv.dropWhile (· ≠ '@')).tail else argv
    let host := if host = [] then ['*'] else host
    some (user.take (USERLEN + 1), host.take HOSTLEN)
  else
    match env.find_chasing argv with
    | none => none
    | some acptr =>
      if !acptr.user || acptr.server || acptr.elined then none
      else some (['*'], cluster acptr.realhost)

/-- `m_kline` for a mask and a reason. -/
def KlineEnv.lineOf {w : Nat} (env : KlineEnv w) (minutes : Option Int32) (user host : Text)
    (comment : Option Text) : Option (Kline w) :=
  let refused := comment.any fun argv => ':' ∈ argv ∨ '#' ∈ argv
  if refused || '#' ∈ host || '#' ∈ user then none
  else if nonwild user host < NONWILDCHARS then none
  else
    let address := is_address w host
    let host := if address.isSome then cidrForm host else host
    if env.is_klined host user ((address.map Prod.fst).getD 0) then none
    else
      some
        { minutes := minutes
          user := user
          host := host
          address := address
          reason := comment.filter (· ≠ []) }

/-- `m_kline`: the K-line that a command adds, if it adds one. -/
def m_kline {w : Nat} (env : KlineEnv w) (sptr : Klining) (parv : List Text) : Option (Kline w) :=
  if !sptr.myClient || !sptr.isAnOper || !sptr.isSetOperK then none
  else
    let temporary_kline_time := isnumber (parv.getD 1 [])
    let temporary := temporary_kline_time ≠ 0
    let minutes := if temporary then some (min temporary_kline_time (24 * 60)) else none
    let parv := if temporary then parv.tail else parv
    if parv.length < 2 then none
    else
      match env.maskOf (parv.getD 1 []) with
      | none => none
      | some (user, host) => env.lineOf minutes user host parv[2]?

/-! ### What is accepted -/

namespace OneLine

variable {t u : Text}

theorem mono (line : OneLine t) (part : ∀ c ∈ u, c ∈ t) : OneLine u :=
  ⟨fun member => line.1 (part _ member), fun member => line.2 (part _ member)⟩

theorem append (first : OneLine t) (second : OneLine u) : OneLine (t ++ u) := by
  simp only [OneLine, List.mem_append, not_or] at first second ⊢
  exact ⟨⟨first.1, second.1⟩, first.2, second.2⟩

theorem take (line : OneLine t) (n : Nat) : OneLine (t.take n) := line.mono fun _ => List.mem_of_mem_take

theorem cons {c : Char} (plain : c ≠ '\n' ∧ c ≠ '\r') (line : OneLine t) : OneLine (c :: t) := by
  simp only [OneLine, List.mem_cons, not_or] at line ⊢
  exact ⟨⟨Ne.symm plain.1, line.1⟩, Ne.symm plain.2, line.2⟩

end OneLine

theorem mem_hostPortion {n : Nat} {behind before host_mask : Text} {c : Char}
    (found : hostPortion n behind before = some host_mask) (member : c ∈ host_mask) :
    c ∈ behind ∨ c ∈ before := by
  fun_induction hostPortion n behind before with
  | case1 => cases found
  | case2 => cases found
  | case3 n behind d e before =>
    obtain rfl := Option.some.inj found
    rcases List.mem_cons.mp member with rfl | later
    · exact .inr List.mem_cons_self
    · exact .inl later
  | case4 n behind d e before _ _ ih =>
    rcases ih found with here | later
    · rcases List.mem_cons.mp here with rfl | earlier
      · exact .inr List.mem_cons_self
      · exact .inl earlier
    · exact .inr (List.mem_cons_of_mem _ later)

theorem mem_cluster {hostname : Text} {c : Char} (member : c ∈ cluster hostname) :
    c = '*' ∨ c ∈ hostname := by
  have part : ∀ {d}, d ∈ hostname.take HOSTLEN → d ∈ hostname := List.mem_of_mem_take
  unfold cluster at member
  dsimp only at member
  split at member
  · exact .inr (part member)
  split at member
  · rcases List.mem_append.mp (List.mem_of_mem_take member) with here | star
    · exact .inr (part (List.mem_of_mem_take here))
    · exact .inl (List.mem_singleton.mp star)
  split at member
  · rename_i dotted
    split at member
    · rename_i host_mask found
      rcases List.mem_cons.mp member with star | later
      · exact .inl star
      · refine .inr (part ?_)
        rcases mem_hostPortion found (List.mem_of_mem_take later) with here | earlier
        · rcases List.mem_cons.mp here with rfl | tld
          · exact dotted
          · exact List.mem_reverse.mp ((List.takeWhile_sublist _).subset (List.mem_reverse.mp tld))
        · exact List.mem_of_mem_take (List.mem_reverse.mp earlier)
    · rcases List.mem_cons.mp member with star | later
      · exact .inl star
      · exact .inr (part (List.mem_of_mem_take later))
  · exact .inr (part member)

theorem length_cluster (hostname : Text) : (cluster hostname).length ≤ HOSTLEN := by
  have mask : ∀ t : Text, ('*' :: t.take (HOSTLEN - 1)).length ≤ HOSTLEN := fun t => by
    rw [List.length_cons, List.length_take]
    unfold HOSTLEN
    omega
  unfold cluster
  dsimp only
  split
  · exact List.length_take_le ..
  split
  · exact List.length_take_le ..
  split
  · split
    · exact mask _
    · exact mask _
  · exact List.length_take_le ..

theorem length_cidrForm (host : Text) : (cidrForm host).length ≤ HOSTLEN := by
  have short := List.length_take_le 32 host
  have front := (List.takeWhile_sublist (p := (· ≠ '*')) (l := host.take 32)).length_le
  unfold cidrForm HOSTLEN
  dsimp only
  split
  · rw [List.length_append]
    exact (Nat.add_le_add (front.trans short) le_rfl).trans (by decide)
  · omega

theorem isAddressChar_of_mem_cidrForm {w : Nat} {host : Text} {c : Char}
    (address : (is_address w host).isSome) (member : c ∈ cidrForm host) : IsAddressChar c := by
  obtain ⟨found, address⟩ := Option.isSome_iff_exists.mp address
  have own : ∀ {d}, d ∈ host.take 32 → IsAddressChar d := fun here =>
    isAddressChar_of_addressLoop address (List.mem_of_mem_take here)
  unfold cidrForm at member
  dsimp only at member
  split at member
  · rcases List.mem_append.mp member with here | block
    · exact own ((List.takeWhile_sublist _).subset here)
    · unfold IsAddressChar
      simp at block
      rcases block with rfl | rfl | rfl | rfl <;> simp
  · exact own member

/-- What `m_kline` makes sure of, and what it relies on for the lengths. -/
structure Kline.Accepted {w : Nat} (k : Kline w) : Prop where
  user_short : k.user.length ≤ USERLEN + 1
  host_short : k.host.length ≤ HOSTLEN
  uncut : '#' ∉ k.user ∧ '#' ∉ k.host ∧ ∀ reason ∈ k.reason, '#' ∉ reason
  comment : ∀ reason ∈ k.reason, ':' ∉ reason
  lines : OneLine k.user ∧ OneLine k.host ∧ ∀ reason ∈ k.reason, OneLine reason
  /-- The host of an address is in the form in which it is kept. -/
  address : (k.address = none ∧ is_address w k.host = none) ∨
    ∃ host, k.host = cidrForm host ∧ is_address w host = k.address ∧ k.address.isSome

section Accepted

variable {w : Nat} {env : KlineEnv w} {sptr : Klining} {parv : List Text} {k : Kline w}
variable {user host argv : Text} {minutes : Option Int32} {comment : Option Text}

/-- The masks that `m_kline` looks up are within the lengths of their fields. -/
theorem maskOf_some (line : OneLine argv) (found : env.maskOf argv = some (user, host)) :
    (user.length ≤ USERLEN + 1 ∧ host.length ≤ HOSTLEN) ∧ OneLine user ∧ OneLine host := by
  have star : OneLine ['*'] := ⟨by decide, by decide⟩
  unfold KlineEnv.maskOf at found
  split at found
  · obtain ⟨rfl, rfl⟩ := Prod.mk.inj (Option.some.inj found)
    refine ⟨⟨List.length_take_le .., List.length_take_le ..⟩, OneLine.take ?_ _, OneLine.take ?_ _⟩
    · split
      · exact line.mono fun _ member => (List.takeWhile_sublist _).subset member
      · exact star
    · have given : OneLine (if '@' ∈ argv then (argv.dropWhile (· ≠ '@')).tail else argv) := by
        split
        · exact line.mono fun _ member =>
            (List.dropWhile_sublist _).subset (List.mem_of_mem_tail member)
        · exact line
      by_cases empty : (if '@' ∈ argv then (argv.dropWhile (· ≠ '@')).tail else argv) = []
      · rw [if_pos empty]
        exact star
      · rw [if_neg empty]
        exact given
  · split at found
    · cases found
    · rename_i acptr _
      split at found
      · cases found
      · obtain ⟨rfl, rfl⟩ := Prod.mk.inj (Option.some.inj found)
        refine ⟨⟨by decide, length_cluster _⟩, star, ?_⟩
        refine (OneLine.append star acptr.realhost_line).mono fun c member => ?_
        rw [List.mem_append, List.mem_singleton]
        exact mem_cluster member

theorem accepted_of_lineOf (short : user.length ≤ USERLEN + 1 ∧ host.length ≤ HOSTLEN)
    (userLine : OneLine user) (hostLine : OneLine host) (lines : ∀ c ∈ comment, OneLine c)
    (added : env.lineOf minutes user host comment = some k) : k.Accepted := by
  unfold KlineEnv.lineOf at added
  dsimp only at added
  split_ifs at added with refused _ address _ _
  all_goals
    obtain rfl := Option.some.inj added
    simp only [Bool.or_eq_true, decide_eq_true_eq, not_or, Bool.not_eq_true] at refused
    obtain ⟨⟨clean, uncutHost⟩, uncutUser⟩ := refused
    have reasons : ∀ reason ∈ comment.filter fun argv => decide (argv ≠ []),
        (':' ∉ reason ∧ '#' ∉ reason) ∧ OneLine reason := by
      intro reason member
      cases comment with
      | none => cases member
      | some argv =>
        simp only [Option.any_some, decide_eq_false_iff_not, not_or] at clean
        obtain rfl : argv = reason := by
          simp only [Option.filter_some, Option.mem_def] at member
          split at member
          · exact Option.some.inj member
          · cases member
        exact ⟨clean, lines _ rfl⟩
  · have plain : ∀ {c : Char}, ¬ IsAddressChar c → c ∉ cidrForm host := fun other member =>
      other (isAddressChar_of_mem_cidrForm address member)
    exact
      { user_short := short.1
        host_short := length_cidrForm host
        uncut := ⟨uncutUser, plain (by simp [IsAddressChar]), fun r m => (reasons r m).1.2⟩
        comment := fun r m => (reasons r m).1.1
        lines := ⟨userLine, ⟨plain (by simp [IsAddressChar]), plain (by simp [IsAddressChar])⟩,
          fun r m => (reasons r m).2⟩
        address := .inr ⟨host, rfl, rfl, address⟩ }
  · exact
      { user_short := short.1
        host_short := short.2
        uncut := ⟨uncutUser, uncutHost, fun r m => (reasons r m).1.2⟩
        comment := fun r m => (reasons r m).1.1
        lines := ⟨userLine, hostLine, fun r m => (reasons r m).2⟩
        address := .inl ⟨Option.not_isSome_iff_eq_none.mp address,
          Option.not_isSome_iff_eq_none.mp address⟩ }

/-- **What `m_kline` accepts.** -/
theorem accepted_of_m_kline (lines : ∀ p ∈ parv, OneLine p) (added : m_kline env sptr parv = some k) :
    k.Accepted := by
  have none_ : OneLine [] := ⟨nofun, nofun⟩
  have each : ∀ {l : List Text}, (∀ p ∈ l, OneLine p) → OneLine (l.getD 1 []) := fun {l} all => by
    rw [List.getD_eq_getElem?_getD]
    cases found : l[1]? with
    | none => exact none_
    | some p => exact all p (List.mem_of_getElem? found)
  have left : ∀ p ∈ if isnumber (parv.getD 1 []) ≠ 0 then parv.tail else parv, OneLine p := by
    intro p member
    split at member
    · exact lines p (List.mem_of_mem_tail member)
    · exact lines p member
  unfold m_kline at added
  dsimp only at added
  split at added
  · cases added
  generalize (if isnumber (parv.getD 1 []) ≠ 0 then parv.tail else parv) = rest at left added
  by_cases few : rest.length < 2
  · rw [if_pos few] at added
    cases added
  rw [if_neg few] at added
  split at added
  · cases added
  · rename_i user host found
    obtain ⟨short, userLine, hostLine⟩ := maskOf_some (each left) found
    exact accepted_of_lineOf short userLine hostLine
      (fun c member => left c (List.mem_of_getElem? member)) added

end Accepted

/-- What `localtime` gives, as far as `smalldate` reads it. -/
structure Tm where
  tm_year : Int32
  tm_mon : Nat
  tm_mday : Nat
  tm_hour : Nat
  tm_min : Nat

def smalldate (lt : Tm) : Text :=
  printD (lt.tm_year + 1900) ++ '/' :: Lib.zeroPadded 2 (lt.tm_mon + 1) ++
    '/' :: Lib.zeroPadded 2 lt.tm_mday ++ ' ' :: Lib.zeroPadded 2 lt.tm_hour ++
    '.' :: Lib.zeroPadded 2 lt.tm_min

theorem mem_smalldate {lt : Tm} {c : Char} (member : c ∈ smalldate lt) :
    c.isDigit = true ∨ c ∈ ['-', '/', ' ', '.'] := by
  have number : ∀ {n}, c ∈ Lib.zeroPadded 2 n → c.isDigit = true := Lib.isDigit_of_mem_zeroPadded
  simp only [smalldate, List.mem_append, List.mem_cons] at member
  rcases member with (((year | slash | month) | slash | day) | blank | hour) | dot | minute
  · exact (mem_printD year).imp_right fun minus => by simp [minus]
  · exact .inr (by simp [slash])
  · exact .inl (number month)
  · exact .inr (by simp [slash])
  · exact .inl (number day)
  · exact .inr (by simp [blank])
  · exact .inl (number hour)
  · exact .inr (by simp [dot])
  · exact .inl (number minute)

end PtlinkIrcd
