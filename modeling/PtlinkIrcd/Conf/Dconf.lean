/-
**The settings of a server.**

`dconf.c` keeps a table of settings, and every change goes through `conf_change_item`: from a file that
`dconf_read` reads, or from `DCONF SET`.

* `DconfItem`, `conf_items` — an entry of the table, and the table of a fresh server.
* `DconfItem.change`, `conf_change_item` — a new value for an entry, and for a name.
* `dconf_read`, `m_dconf_set` — where the changes come from; `m_dconf_save` writes a file.
* `Reachable` — the tables that there are.
* `Reachable.sound` — **what is defined has a value that was accepted**, and the rest is as in the fresh
  table.
-/

import PtlinkIrcd.Lib.Chunks
import PtlinkIrcd.Model.Text
import Mathlib.Data.List.Forall2
import Mathlib.Data.List.TakeWhile

namespace PtlinkIrcd

def UNKNOWN_ITEM : Int := -1
def LOCKED_ITEM : Int := -2
def INV_SET_ITEM : Int := -3
def INV_TIME_ITEM : Int := -4

/-! ### The table -/

/-- The variable of a setting, by its type. -/
inductive ConfValue
  | desc
  | string (v : Option Text)
  | time (v : Int32)
  | set (v : Int32)
  | int (v : Int32)
deriving DecidableEq

/-- The type of a setting: `CT_DESC`, `CT_STRING`, `CT_TIME`, `CT_SET`, `CT_INT`. -/
def ConfValue.type : ConfValue → Nat
  | .desc => 0
  | .string _ => 1
  | .time _ => 2
  | .set _ => 3
  | .int _ => 4

/-- An entry of the table with its flags `CF_REQ`, `CF_LOCKED` and `CF_DEFINED`. -/
structure DconfItem where
  name : Text
  value : ConfValue
  req : Bool
  locked : Bool
  defined : Bool
deriving DecidableEq

def DCONF_DESC (name : String) : DconfItem := ⟨name.toList, .desc, false, false, false⟩

def DCONF_STRING (name : String) (req locked : Bool) : DconfItem :=
  ⟨name.toList, .string none, req, locked, false⟩

def DCONF_INT (name : String) (v : Int32) (req locked : Bool) : DconfItem :=
  ⟨name.toList, .int v, req, locked, false⟩

def DCONF_SET (name : String) (v : Int32) (req locked : Bool) : DconfItem :=
  ⟨name.toList, .set v, req, locked, false⟩

def DCONF_TIME (name : String) (v : Int32) (req locked : Bool) : DconfItem :=
  ⟨name.toList, .time v, req, locked, false⟩

/-- The table of a fresh server, with what the variables are at the start. -/
def conf_items : List DconfItem :=
  [DCONF_DESC "Network Configuration",
    DCONF_STRING "NetworkAUP" false false,
    DCONF_STRING "HelpChan" true false,
    DCONF_STRING "NetworkName" true false,
    DCONF_STRING "RandomHost" false false,
    DCONF_STRING "NetworkDesc" false false,
    DCONF_STRING "OverrideNetsplitMessage" false false,
    DCONF_SET "HideServerOnWhois" 0 false false,
    DCONF_SET "HostSpoofing" 1 true false,
    DCONF_INT "SpoofMethod" 0 false false,
    DCONF_STRING "CryptKey" false false,
    DCONF_STRING "HostPrefix" true false,
    DCONF_STRING "TechAdminMask" false false,
    DCONF_STRING "NetAdminMask" false false,
    DCONF_STRING "SAdminMask" false false,
    DCONF_STRING "AdminMask" false false,
    DCONF_STRING "OperMask" false false,
    DCONF_STRING "LocopMask" false false,
    DCONF_STRING "HelperMask" false false,
    DCONF_SET "AdminWithDot" 1 false true,
    DCONF_STRING "SpamWords" true true,
    DCONF_SET "IRCopsForAll" 0 false false,
    DCONF_STRING "AntiSpamExitMsg" false false,
    DCONF_TIME "AntiSpamExitTime" 0 false false,
    DCONF_STRING "NoSpamExitMsg" false false,
    DCONF_STRING "NoColorsQuitMsg" false false,
    DCONF_STRING "QuitPrefix" false false,
    DCONF_STRING "NoQuitMsg" false false,
    DCONF_STRING "ZombieQuitMsg" false false,
    DCONF_SET "IPIdentifyMode" 0 false false,
    DCONF_SET "LockNickChange" 0 false false,
    DCONF_SET "RestrictedChans" 0 false false,
    DCONF_STRING "RestrictedChansMsg" false false,
    DCONF_SET "SecureModes" 0 false false,
    DCONF_STRING "DefaultChanMode" false false,
    DCONF_DESC "Cannot send messages",
    DCONF_STRING "NoCTCP_Msg" true false,
    DCONF_STRING "Moderated_Msg" true false,
    DCONF_STRING "NoExternal_Msg" true false,
    DCONF_STRING "Banned_Msg" true false,
    DCONF_STRING "NoSpam_Msg" true false,
    DCONF_STRING "NoFlood_Msg" true false,
    DCONF_STRING "NoDCCSend_Msg" true false,
    DCONF_STRING "FloodLimit_Msg" true false,
    DCONF_STRING "QModeMsg" false false,
    DCONF_DESC "Oper Privileges",
    DCONF_SET "OnlyRegisteredOper" 1 false false,
    DCONF_SET "OperCanAlwaysJoin" 0 false false,
    DCONF_SET "OperCanUseNewMask" 0 false false,
    DCONF_SET "OperCanAlwaysSend" 0 false false,
    DCONF_SET "OperKickProtection" 0 false false,
    DCONF_STRING "OperByPass" false false,
    DCONF_SET "EnableSelfKill" 0 false false,
    DCONF_TIME "MaxOperIdleTime" 0 false false,
    DCONF_STRING "GLineOthersReason" false false,
    DCONF_STRING "KLineOthersReason" false false,
    DCONF_TIME "DefaultGLineTime" 0 false false,
    DCONF_STRING "DefaultGLineReason" false false,
    DCONF_DESC "Services configuration",
    DCONF_STRING "ServicesServer" true false,
    DCONF_SET "ForceServicesAlias" 1 false false,
    DCONF_INT "ServicesUseCount" 0 false false,
    DCONF_TIME "ServicesInterval" 0 false false,
    DCONF_DESC "Server configuration",
    DCONF_SET "ReverseLookup" 1 false false,
    DCONF_SET "CheckIdentd" 0 false false,
    DCONF_SET "AllowChanCTCP" 0 false false,
    DCONF_TIME "ChanFloodTime" 0 true false,
    DCONF_STRING "TimeZone" false false,
    DCONF_SET "CheckClones" 0 false false,
    DCONF_INT "CheckClonesLimit" 0 false false,
    DCONF_TIME "CheckClonesPeriod" 0 false false,
    DCONF_TIME "CheckClonesDelay" 0 false false,
    DCONF_SET "CheckTargetLimit" 0 false false,
    DCONF_SET "CheckSpamOnTarget" 0 false false,
    DCONF_SET "HideServicesServer" 0 false false,
    DCONF_TIME "GLineOnExcessFlood" 0 false false,
    DCONF_TIME "GLineOnSVline" 0 false false,
    DCONF_SET "AllowSetNameToEveryone" 0 false false,
    DCONF_SET "DisableLinksForUsers" 0 false false,
    DCONF_SET "WhoisExtension" 0 false false,
    DCONF_TIME "AutoAwayIdleTime" 0 false false,
    DCONF_SET "HideConnectInfo" 0 false false,
    DCONF_INT "MaxChansPerUser" 5 false true,
    DCONF_INT "MaxChansPerRegUser" 20 false true,
    DCONF_SET "UseIRCNTP" 0 false false,
    DCONF_STRING "CodePagePath" true true,
    DCONF_STRING "CodePages" true true,
    DCONF_STRING "AutoJoinChan" false true,
    DCONF_DESC "Help files",
    DCONF_STRING "UserHelpFile" true true,
    DCONF_STRING "OperHelpFile" true true,
    DCONF_STRING "AdminHelpFile" true true,
    DCONF_DESC "Misc",
    DCONF_STRING "WebPass" false false,
    DCONF_SET "AutoEnableHVC" 0 false false]

def conf_find_item (items : List DconfItem) (name : Text) : Option Nat :=
  items.findIdx? fun item => strcasecmp item.name name = 0

/-! ### A new value -/

def strtolEnd (t : Text) : Text :=
  let u := t.dropWhile isSpace
  let u := if u.head? = some '-' ∨ u.head? = some '+' then u.tail else u
  if u.takeWhile Char.isDigit = [] then t else u.dropWhile Char.isDigit

def time_str (s : Text) : Int32 :=
  let amount := Int32.ofInt (strtol s)
  match strtolEnd s with
  | [] => amount
  | 's' :: _ => amount
  | 'm' :: _ => amount * 60
  | 'h' :: _ => amount * 3600
  | 'd' :: _ => amount * 86400
  | _ :: _ => -1

/-- A quote in front of a value goes, and one at its end. -/
def dropQuotes (value : Text) : Text :=
  let value := if value.head? = some '"' then value.tail else value
  if value.getLast? = some '"' then value.dropLast else value

/-- The `switch` of `conf_change_item`: the variable and `CF_DEFINED`, or what is returned for an error. -/
def ConfValue.switch (type : ConfValue) (value : Text) : Except Int (ConfValue × Bool) :=
  match type with
  | .desc => .ok (.desc, true)
  | .string _ =>
    let value := dropQuotes value
    if value = [] then .ok (.string none, false) else .ok (.string (some value), true)
  | .set _ =>
    if strcasecmp value "yes".toList = 0 then .ok (.set (-1), true)
    else if strcasecmp value "no".toList = 0 then .ok (.set 0, true)
    else .error INV_SET_ITEM
  | .time _ =>
    let tmpval := time_str value
    if tmpval ≤ 0 then .error INV_TIME_ITEM else .ok (.time tmpval, true)
  | .int _ => .ok (.int (atoi value), true)

/-- What `conf_change_item` does to the entry, and what it returns. -/
def DconfItem.change (item : DconfItem) (value : Text) (rehashing : Nat) : DconfItem × Int :=
  let value := dropQuotes (value.dropWhile isSpace)
  if rehashing < 2 ∧ item.req = true ∧ value = [] then (item, LOCKED_ITEM)
  else if item.defined = true ∧ rehashing = 1 ∧ item.locked = true then (item, LOCKED_ITEM)
  else if item.defined = true ∧ rehashing = 0 then (item, 0)
  else
    match item.value.switch value with
    | .error res => (item, res)
    | .ok (v, defined) => ({ item with value := v, defined }, 1)

def conf_change_item (items : List DconfItem) (name value : Text) (rehashing : Nat) : List DconfItem × Int :=
  match conf_find_item items name with
  | none => (items, UNKNOWN_ITEM)
  | some i =>
    match items[i]? with
    | none => (items, UNKNOWN_ITEM)
    | some item => (items.set i (item.change value rehashing).1, (item.change value rehashing).2)

/-! ### Files -/

/-- `strtok`: the token, and what is behind the character that ends it. -/
def strtok (delim : Char → Bool) (t : Text) : Option (Text × Text) :=
  let t := t.dropWhile delim
  if t = [] then none else some (t.takeWhile (!delim ·), (t.dropWhile (!delim ·)).tail)

/-- A directive and its value, of a line. -/
def directiveOf (line : Text) : Option (Text × Text) := do
  let (directive, rest) ← strtok (fun c => c = '\t' || c = '\n' || c = ' ') (line.dropWhile isSpace)
  if directive.head? = some '#' then none
  else
    let (value, _) ← strtok (fun c => c = '\r' || c = '\n') rest
    some (directive, value.dropWhile isSpace)

/-- One line; `include` reads another file. -/
def dconfLine (include_ : Text → List DconfItem → List DconfItem) (rehashing : Nat)
    (state : List DconfItem × Int) (line : Text) : List DconfItem × Int :=
  match directiveOf (line.takeWhile (· ≠ NUL)) with
  | none => state
  | some (directive, value) =>
    if directive = ".include".toList then (include_ value state.1, state.2)
    else
      let (items, i) := conf_change_item state.1 directive value rehashing
      (items, if i < 0 then state.2 + 1 else state.2)

/-- `dconf_read`, with as many files open at a time as there may be: the settings, and the number of errors,
or `-1` for a file that is not opened. -/
def dconf_read (files : Text → Option Text) (rehashing : Nat) :
    Nat → Text → List DconfItem → List DconfItem × Int
  | 0, _, items => (items, -1)
  | depth + 1, fn, items =>
    match files fn with
    | none => (items, -1)
    | some text =>
      (Lib.chunks '\n' 511 [] text).foldl
        (dconfLine (fun fn items => (dconf_read files rehashing depth fn items).1) rehashing) (items, 0)

/-- The `switch` of `conf_item_str`; it is not called for a heading. -/
def ConfValue.str : ConfValue → Text
  | .desc => []
  | .string v => '"' :: (v.getD [] ++ ['"'])
  | .set v => if v = -1 then "Yes".toList else "No".toList
  | .time v => if 59 < v then printD (v / 60) ++ ['m'] else printD v ++ ['s']
  | .int v => printD v

def conf_item_str (item : DconfItem) : Text :=
  if item.defined = false then "Undefined".toList else item.value.str

/-- What `DCONF SAVE` writes for an entry. -/
def savedItem (item : DconfItem) : Text :=
  if item.value = .desc then "\n# ".toList ++ (item.name ++ ['\n'])
  else if item.defined = true then item.name ++ ("\t ".toList ++ (conf_item_str item ++ ['\n']))
  else []

def m_dconf_save (items : List DconfItem) : Text :=
  items.flatMap savedItem ++ "# End of save.dconf\n".toList

def m_dconf_set (items : List DconfItem) (item newval : Text) : List DconfItem × Int :=
  conf_change_item items (item.take 100) (newval.take 100) 1

def dconf_check (items : List DconfItem) : Bool := items.all fun item => !item.req || item.defined

/-! ### Quotes -/

section

variable {value u : Text}

theorem dropQuotes_sublist (value : Text) : (dropQuotes value).Sublist value := by
  have front : (if value.head? = some '"' then value.tail else value).Sublist value := by
    split_ifs
    exacts [List.tail_sublist value, List.Sublist.refl value]
  unfold dropQuotes
  dsimp only
  split_ifs at front ⊢
  exacts [(List.dropLast_sublist _).trans front, front, (List.dropLast_sublist _).trans front, front]

theorem of_dropQuotes_eq (same : dropQuotes value = u) :
    value = u ∨ value = '"' :: u ∨ value = u ++ ['"'] ∨ value = '"' :: (u ++ ['"']) := by
  have ends : ∀ {t : Text}, (if t.getLast? = some '"' then t.dropLast else t) = u →
      t = u ∨ t = u ++ ['"'] := by
    intro t same
    split_ifs at same with closed
    · refine .inr ?_
      rw [← same]
      exact (List.dropLast_append_getLast? '"' closed).symm
    · exact .inl same
  unfold dropQuotes at same
  dsimp only at same
  by_cases opened : value.head? = some '"'
  · rw [if_pos opened] at same
    have whole : value = '"' :: value.tail := by
      cases value with
      | nil => cases opened
      | cons c t => rw [Option.some.inj opened, List.tail_cons]
    rcases ends same with tail | tail
    · exact .inr (.inl (tail ▸ whole))
    · exact .inr (.inr (.inr (tail ▸ whole)))
  · rw [if_neg opened] at same
    rcases ends same with tail | tail
    exacts [.inl tail, .inr (.inr (.inl tail))]

theorem dropQuotes_opened (t : Text) :
    dropQuotes ('"' :: t) = if t.getLast? = some '"' then t.dropLast else t := by
  unfold dropQuotes
  dsimp only
  rw [List.head?_cons, if_pos rfl, List.tail_cons]

theorem dropQuotes_quoted (u : Text) : dropQuotes ('"' :: (u ++ ['"'])) = u := by
  rw [dropQuotes_opened, List.getLast?_concat, if_pos rfl, List.dropLast_concat]

theorem dropQuotes_eq_self_iff :
    dropQuotes value = value ↔ value.head? ≠ some '"' ∧ value.getLast? ≠ some '"' := by
  constructor
  · intro same
    constructor
    · intro opened
      have shorter := (dropQuotes_sublist value.tail).length_le
      cases value with
      | nil => cases opened
      | cons c t =>
        have lengths := congrArg List.length same
        unfold dropQuotes at lengths
        dsimp only at lengths
        rw [if_pos opened, List.tail_cons] at lengths
        split_ifs at lengths
        · rw [List.length_dropLast, List.length_cons] at lengths
          omega
        · rw [List.length_cons] at lengths
          omega
    · intro closed
      have some_ : value ≠ [] := fun empty => by rw [empty] at closed; cases closed
      have positive := List.length_pos_of_ne_nil some_
      have lengths := congrArg List.length same
      unfold dropQuotes at lengths
      dsimp only at lengths
      split_ifs at lengths
      · rw [List.length_dropLast, List.length_tail] at lengths
        omega
      · rw [List.length_tail] at lengths
        omega
      · rw [List.length_dropLast] at lengths
        omega
  · rintro ⟨open_, unclosed⟩
    unfold dropQuotes
    dsimp only
    rw [if_neg open_, if_neg unclosed]

/-- **What is no longer empty before the quotes go for the second time.** -/
theorem dropQuotes_dropQuotes_eq_nil_iff :
    (dropQuotes value ≠ [] ∧ dropQuotes (dropQuotes value) = []) ↔
      value = List.replicate 3 '"' ∨ value = List.replicate 4 '"' := by
  constructor
  · rintro ⟨some_, none_⟩
    rcases of_dropQuotes_eq none_ with same | same | same | same
    · exact absurd same some_
    all_goals
      rcases of_dropQuotes_eq same with rfl | rfl | rfl | rfl <;> revert same <;> decide
  · rintro (rfl | rfl) <;> decide

end

/-! ### One change -/

section

variable {items : List DconfItem} {item : DconfItem} {name value : Text} {rehashing i : Nat}

theorem conf_change_item_eq (found : conf_find_item items name = some i) (there : items[i]? = some item) :
    conf_change_item items name value rehashing =
      (items.set i (item.change value rehashing).1, (item.change value rehashing).2) := by
  unfold conf_change_item
  rw [found]
  dsimp only
  rw [there]

theorem conf_change_item_cases (items : List DconfItem) (name value : Text) (rehashing : Nat) :
    conf_change_item items name value rehashing = (items, UNKNOWN_ITEM) ∨
      ∃ i item, conf_find_item items name = some i ∧ items[i]? = some item ∧ strcasecmp item.name name = 0 ∧
        conf_change_item items name value rehashing =
          (items.set i (item.change value rehashing).1, (item.change value rehashing).2) := by
  cases found : conf_find_item items name with
  | none => exact .inl (by rw [conf_change_item, found])
  | some i =>
    obtain ⟨inside, named, -⟩ := List.findIdx?_eq_some_iff_getElem.mp found
    have there : items[i]? = some items[i] := List.getElem?_eq_getElem inside
    exact .inr ⟨i, items[i], rfl, there, of_decide_eq_true named, conf_change_item_eq found there⟩

/-- **An entry stays as it is, or takes the value.** -/
theorem DconfItem.change_cases (item : DconfItem) (value : Text) (rehashing : Nat) :
    (item.change value rehashing).1 = item ∨
      ∃ v defined, item.value.switch (dropQuotes (value.dropWhile isSpace)) = .ok (v, defined) ∧
        item.change value rehashing = ({ item with value := v, defined }, 1) ∧
          (rehashing < 2 → item.req = true → dropQuotes (value.dropWhile isSpace) ≠ []) ∧
            (item.defined = true → rehashing = 1 → item.locked = false) := by
  unfold DconfItem.change
  dsimp only
  split_ifs with empty locked
  · exact .inl rfl
  · exact .inl rfl
  · exact .inl rfl
  · cases item.value.switch (dropQuotes (value.dropWhile isSpace)) with
    | error res => exact .inl rfl
    | ok taken =>
      exact .inr ⟨taken.1, taken.2, rfl, rfl, fun early req none_ => empty ⟨early, req, none_⟩,
        fun defined now => Bool.eq_false_iff.mpr fun held => locked ⟨defined, now, held⟩⟩

/-- **An entry that is refused stays as it is.** -/
theorem DconfItem.change_of_neg (refused : (item.change value rehashing).2 < 0) :
    (item.change value rehashing).1 = item := by
  rcases item.change_cases value rehashing with same | ⟨v, defined, -, taken, -⟩
  · exact same
  · rw [taken] at refused
    exact absurd refused (show ¬ (1 : Int) < 0 by decide)

/-- **A change that is refused changes nothing.** -/
theorem conf_change_item_of_neg (refused : (conf_change_item items name value rehashing).2 < 0) :
    (conf_change_item items name value rehashing).1 = items := by
  rcases conf_change_item_cases items name value rehashing with same | ⟨i, item, -, there, -, same⟩
  · rw [same]
  · rw [same] at refused ⊢
    obtain ⟨inside, rfl⟩ := List.getElem?_eq_some_iff.mp there
    rw [DconfItem.change_of_neg refused, List.set_getElem_self]

end

/-! ### What is defined -/

/-- A value that was accepted: a string has a line with its name. -/
def Accepted (name : Text) : ConfValue → Prop
  | .desc => True
  | .string v => ∃ w, v = some w ∧ w ≠ [] ∧ (∀ c ∈ w, c ≠ NUL ∧ c ≠ '\r' ∧ c ≠ '\n') ∧
      name.length + w.length ≤ 510
  | .time v => 0 < v
  | .set v => v = -1 ∨ v = 0
  | .int _ => True

/-- **An entry of a server**, by the one of the fresh table. -/
structure DconfItem.Sound (fresh item : DconfItem) : Prop where
  name : item.name = fresh.name
  req : item.req = fresh.req
  locked : item.locked = fresh.locked
  type : item.value.type = fresh.value.type
  kept : item.defined = false → item.value = fresh.value
  accepted : item.defined = true → Accepted item.name item.value

/-- The tables that reading files and `DCONF SET` lead to. -/
inductive Reachable : List DconfItem → Prop
  | fresh : Reachable conf_items
  | read {items : List DconfItem} (files : Text → Option Text) (rehashing depth : Nat) (fn : Text)
      (before : Reachable items) : Reachable (dconf_read files rehashing depth fn items).1
  | set {items : List DconfItem} (item newval : Text)
      (line : ∀ c ∈ newval, c ≠ NUL ∧ c ≠ '\r' ∧ c ≠ '\n') (before : Reachable items) :
      Reachable (m_dconf_set items item newval).1

section

variable {fresh item : DconfItem} {value : Text} {rehashing : Nat}

/-- An entry of the fresh table: strings are not set, nothing is defined, and only a heading has blanks in
its name. -/
def DconfItem.Fresh (item : DconfItem) : Prop :=
  item.defined = false ∧ (item.value.type = 1 → item.value = .string none) ∧
    (item.name.all fun c => c.isAlphanum || c = '_' || (c = ' ' && item.value = .desc)) = true ∧
      4 ≤ item.name.length ∧ item.name.length ≤ 30

instance (item : DconfItem) : Decidable item.Fresh := inferInstanceAs (Decidable (_ ∧ _))

/-- **The names of the fresh table** differ in more than the case of their letters. -/
theorem fresh_conf_items : (∀ item ∈ conf_items, item.Fresh) ∧
    (conf_items.map fun item => item.name.map lowerLetter).Nodup := by decide +kernel

theorem DconfItem.Fresh.name (new : item.Fresh) :
    ∀ c ∈ item.name, c.isAlphanum = true ∨ c = '_' ∨ c = ' ' ∧ item.value = .desc := by
  intro c member
  simpa [or_assoc] using List.all_eq_true.mp new.2.2.1 c member

theorem line_of_all {t : Text} (each : (t.all fun c => c ≠ NUL && c ≠ '\r' && c ≠ '\n') = true) :
    ∀ c ∈ t, c ≠ NUL ∧ c ≠ '\r' ∧ c ≠ '\n' := by
  intro c member
  simpa [and_assoc] using List.all_eq_true.mp each c member

theorem ConfValue.switch_eq_ok {old v : ConfValue} {defined : Bool} {name : Text}
    (taken : old.switch value = .ok (v, defined))
    (line : ∀ c ∈ value, c ≠ NUL ∧ c ≠ '\r' ∧ c ≠ '\n') (short : name.length + value.length ≤ 510) :
    v.type = old.type ∧ (defined = false → v = .string none) ∧ (defined = true → Accepted name v) := by
  cases old with
  | desc =>
    cases taken
    exact ⟨rfl, nofun, fun _ => trivial⟩
  | string _ =>
    unfold switch at taken
    dsimp only at taken
    split_ifs at taken with empty
    · cases taken
      exact ⟨rfl, fun _ => rfl, nofun⟩
    · cases taken
      have inner := dropQuotes_sublist value
      refine ⟨rfl, nofun, fun _ => ⟨_, rfl, empty, fun c member => line c (inner.subset member), ?_⟩⟩
      have length := inner.length_le
      omega
  | time _ =>
    unfold switch at taken
    dsimp only at taken
    split_ifs at taken with positive
    cases taken
    exact ⟨rfl, nofun, fun _ => Int32.not_le.mp positive⟩
  | set _ =>
    unfold switch at taken
    dsimp only at taken
    split_ifs at taken
    · cases taken
      exact ⟨rfl, nofun, fun _ => .inl rfl⟩
    · cases taken
      exact ⟨rfl, nofun, fun _ => .inr rfl⟩
  | int _ =>
    cases taken
    exact ⟨rfl, nofun, fun _ => trivial⟩

/-- **A change keeps an entry sound.** -/
theorem DconfItem.Sound.change (sound : Sound fresh item) (new : fresh.Fresh)
    (line : ∀ c ∈ value, c ≠ NUL ∧ c ≠ '\r' ∧ c ≠ '\n')
    (short : item.name.length + value.length ≤ 510) (rehashing : Nat) :
    Sound fresh (item.change value rehashing).1 := by
  rcases item.change_cases value rehashing with same | ⟨v, defined, taken, same, -⟩
  · rwa [same]
  · rw [same]
    have inner := (dropQuotes_sublist (value.dropWhile isSpace)).trans (List.dropWhile_sublist _)
    obtain ⟨type, none_, accepted⟩ := @ConfValue.switch_eq_ok _ _ _ _ item.name taken
      (fun c member => line c (inner.subset member)) (by have length := inner.length_le; omega)
    refine ⟨sound.name, sound.req, sound.locked, type.trans sound.type, fun undefined => ?_, accepted⟩
    have string := none_ undefined
    rw [string] at type ⊢
    exact (new.2.1 (sound.type.symm.trans type.symm)).symm

theorem exists_fresh {items : List DconfItem} (sound : List.Forall₂ DconfItem.Sound conf_items items)
    (member : item ∈ items) : ∃ fresh ∈ conf_items, DconfItem.Sound fresh item := by
  obtain ⟨length, each⟩ := List.forall₂_iff_get.mp sound
  obtain ⟨i, inside, rfl⟩ := List.getElem_of_mem member
  exact ⟨conf_items[i], List.getElem_mem _, each i (by omega) inside⟩

/-- **A change keeps a table sound**, with a value that has room beside the name. -/
theorem sound_conf_change_item {items : List DconfItem} {name : Text}
    (sound : List.Forall₂ DconfItem.Sound conf_items items)
    (line : ∀ c ∈ value, c ≠ NUL ∧ c ≠ '\r' ∧ c ≠ '\n')
    (short : ∀ item ∈ items, strcasecmp item.name name = 0 → item.name.length + value.length ≤ 510)
    (rehashing : Nat) :
    List.Forall₂ DconfItem.Sound conf_items (conf_change_item items name value rehashing).1 := by
  rcases conf_change_item_cases items name value rehashing with same | ⟨i, item, -, there, named, same⟩
  · rwa [same]
  · rw [same]
    rw [List.forall₂_iff_get] at sound ⊢
    obtain ⟨length, each⟩ := sound
    refine ⟨by rw [List.length_set]; exact length, fun j before after => ?_⟩
    rw [List.length_set] at after
    have there' := List.getElem?_eq_some_iff.mp there
    simp only [List.get_eq_getElem, List.getElem_set]
    split_ifs with here
    · subst here
      have old := each i before after
      simp only [List.get_eq_getElem, there'.2] at old
      exact old.change (fresh_conf_items.1 _ (List.getElem_mem _)) line
        (short item (List.mem_of_getElem? there) named) rehashing
    · exact each j before after

/-! ### The files -/

theorem strtok_eq {delim : Char → Bool} {t token rest : Text} (found : strtok delim t = some (token, rest)) :
    (∀ c ∈ token, delim c = false) ∧ token.Sublist t ∧ token.length + rest.length ≤ t.length ∧
      (rest ≠ [] → token.length + 1 + rest.length ≤ t.length) ∧ rest.Sublist t := by
  have dropped := List.dropWhile_sublist (l := t) delim
  unfold strtok at found
  dsimp only at found
  split_ifs at found
  rw [Option.some.injEq, Prod.mk.injEq] at found
  obtain ⟨rfl, rfl⟩ := found
  have parts := congrArg List.length
    (List.takeWhile_append_dropWhile (p := (!delim ·)) (l := t.dropWhile delim))
  have length := dropped.length_le
  rw [List.length_append] at parts
  refine ⟨fun c member => by simpa using List.mem_takeWhile_imp member,
    (List.takeWhile_sublist _).trans dropped, ?_, fun some_ => ?_,
    ((List.tail_sublist _).trans (List.dropWhile_sublist _)).trans dropped⟩
  · rw [List.length_tail]
    omega
  · have behind := List.length_pos_of_ne_nil some_
    rw [List.length_tail] at behind ⊢
    omega

/-- **A directive and its value fit in the line** with what is between them. -/
theorem directiveOf_eq {line directive : Text} (found : directiveOf line = some (directive, value)) :
    directive.length + 1 + value.length ≤ line.length ∧ (∀ c ∈ value, c ≠ '\r' ∧ c ≠ '\n' ∧ c ∈ line) := by
  unfold directiveOf at found
  obtain ⟨⟨directive', rest⟩, first, found⟩ := Option.bind_eq_some_iff.mp found
  dsimp only at found
  split_ifs at found
  obtain ⟨⟨value', rest'⟩, second, found⟩ := Option.bind_eq_some_iff.mp found
  dsimp only at found
  rw [Option.some.injEq, Prod.mk.injEq] at found
  obtain ⟨rfl, rfl⟩ := found
  obtain ⟨-, -, -, apart, inside⟩ := strtok_eq first
  obtain ⟨plain, part, short, -, -⟩ := strtok_eq second
  have started := List.dropWhile_sublist (l := line) isSpace
  have cut := List.dropWhile_sublist (l := value') isSpace
  have some_ : rest ≠ [] := by
    rintro rfl
    cases second
  have room := apart some_
  have l1 := started.length_le
  have l2 := cut.length_le
  have l3 := part.length_le
  refine ⟨by omega, fun c member => ?_⟩
  have there := cut.subset member
  have kind := plain c there
  rw [Bool.or_eq_false_iff, decide_eq_false_iff_not, decide_eq_false_iff_not] at kind
  exact ⟨kind.1, kind.2, started.subset (inside.subset (part.subset there))⟩

/-- **A line keeps a table sound.** -/
theorem sound_dconfLine {include_ : Text → List DconfItem → List DconfItem} {state : List DconfItem × Int}
    {line : Text} (sound : List.Forall₂ DconfItem.Sound conf_items state.1) (short : line.length ≤ 511)
    (inner : ∀ fn items, List.Forall₂ DconfItem.Sound conf_items items →
      List.Forall₂ DconfItem.Sound conf_items (include_ fn items)) :
    List.Forall₂ DconfItem.Sound conf_items (dconfLine include_ rehashing state line).1 := by
  unfold dconfLine
  cases found : directiveOf (line.takeWhile (· ≠ NUL)) with
  | none => exact sound
  | some parts =>
    obtain ⟨directive, value⟩ := parts
    dsimp only
    by_cases nested : directive = ".include".toList
    · rw [if_pos nested]
      exact inner _ _ sound
    · rw [if_neg nested]
      obtain ⟨room, plain⟩ := directiveOf_eq found
      have length := (List.takeWhile_sublist (l := line) (· ≠ NUL)).length_le
      refine sound_conf_change_item sound (fun c member => ?_) (fun item _ named => ?_) rehashing
      · obtain ⟨cr, lf, inside⟩ := plain c member
        exact ⟨by simpa using List.mem_takeWhile_imp inside, cr, lf⟩
      · have same := congrArg List.length (strcasecmp_eq_zero_iff.mp named)
        rw [List.length_map, List.length_map] at same
        omega

/-- **A file keeps a table sound.** -/
theorem sound_dconf_read (files : Text → Option Text) (depth : Nat) (fn : Text) {items : List DconfItem}
    (sound : List.Forall₂ DconfItem.Sound conf_items items) :
    List.Forall₂ DconfItem.Sound conf_items (dconf_read files rehashing depth fn items).1 := by
  induction depth generalizing fn items with
  | zero => exact sound
  | succ depth ih =>
    unfold dconf_read
    cases files fn with
    | none => exact sound
    | some text =>
      dsimp only
      have each : ∀ line ∈ Lib.chunks '\n' 511 [] text, line.length ≤ 511 := fun line member =>
        Lib.length_chunk_le (by decide) member
      generalize Lib.chunks '\n' 511 [] text = lines at each
      have start : List.Forall₂ DconfItem.Sound conf_items ((items, 0) : List DconfItem × Int).1 := sound
      generalize ((items, 0) : List DconfItem × Int) = state at start
      induction lines generalizing state with
      | nil => exact start
      | cons line lines again =>
        rw [List.forall_mem_cons] at each
        exact again each.2 _ (sound_dconfLine start each.1 fun fn items before => ih fn before)

/-- **Every table of a server is sound.** -/
theorem Reachable.sound {items : List DconfItem} (reached : Reachable items) :
    List.Forall₂ DconfItem.Sound conf_items items := by
  induction reached with
  | fresh =>
    rw [List.forall₂_same]
    intro item member
    have undefined := (fresh_conf_items.1 item member).1
    exact ⟨rfl, rfl, rfl, rfl, fun _ => rfl, fun defined => absurd (undefined.symm.trans defined) nofun⟩
  | read files rehashing depth fn _ ih => exact sound_dconf_read files depth fn ih
  | set item newval line _ ih =>
    refine sound_conf_change_item ih (fun c member => line c (List.mem_of_mem_take member))
      (fun item member _ => ?_) 1
    have length := List.length_take_le 100 newval
    obtain ⟨fresh, there, sound⟩ := exists_fresh ih member
    have short := (fresh_conf_items.1 fresh there).2.2.2.2
    rw [sound.name]
    omega

end

end PtlinkIrcd
