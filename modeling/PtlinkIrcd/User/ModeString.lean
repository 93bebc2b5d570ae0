/-
**User modes on their way to another server.**

The user's own server writes a change of its modes as letters with signs (`send_umode`), and a peer
reads them with `user_mode`; at the introduction `nickkilldone` reads them.

* `relayed_umodes` — what the peer has after the letters of a change.
* `Relayable` — the changes that arrive as they were made.
* `introduced_umodes` — **an introduction always arrives as it was sent.**
* `umode_propagation` — **a change arrives exactly when it is none or `Relayable`.**
-/

import PtlinkIrcd.User.Stealth
import PtlinkIrcd.Channel.Runs

namespace PtlinkIrcd

/-! ### Writing and reading a line of letters -/

/-- What a letter from a server makes of the modes of a user that is not connected here. -/
def peerLetter (add : Bool) (c : Char) (umodes : Flags) : Flags :=
  (userModeLetter true false false ⟨add, umodes, false, 0, 0⟩ c).umodes

theorem userModeLetter_umodes (mine : Bool) (m : UserModeState) (c : Char) :
    (userModeLetter true false mine m c).umodes = peerLetter m.add c m.umodes := by
  unfold peerLetter userModeLetter UserModeState.deoper userModeDefault
  simp only [apply_ite UserModeState.umodes]

def Signed (b : ModeLine) (m : UserModeState) : Prop :=
  ∀ sign, b.what = some sign → m.add = decide (sign = '+')

/-- **A letter that was written is read under its sign.** -/
theorem read_letter {b : ModeLine} {start : UserModeState} {mine : Bool} {sign c : Char}
    (isSign : sign = '+' ∨ sign = '-') (letter : c ≠ '+' ∧ c ≠ '-')
    (signed : Signed b (b.mbuf.foldl (userModeLetter true false mine) start)) :
    let read := fun b : ModeLine => b.mbuf.foldl (userModeLetter true false mine) start
    (read (b.letter sign c)).umodes = peerLetter (decide (sign = '+')) c (read b).umodes ∧
      Signed (b.letter sign c) (read (b.letter sign c)) := by
  simp only [ModeLine.letter]
  rw [List.foldl_append, List.foldl_append]
  generalize b.mbuf.foldl (userModeLetter true false mine) start = m at signed ⊢
  have after : ∃ m', (if b.what = some sign then [] else [sign]).foldl
      (userModeLetter true false mine) m = m' ∧ m'.umodes = m.umodes ∧
        m'.add = decide (sign = '+') := by
    by_cases same : b.what = some sign
    · rw [if_pos same]
      exact ⟨m, rfl, rfl, signed sign same⟩
    · rw [if_neg same]
      rcases isSign with rfl | rfl
      · exact ⟨_, rfl, rfl, rfl⟩
      · exact ⟨_, rfl, rfl, rfl⟩
  obtain ⟨m', same, umodes, add⟩ := after
  rw [same]
  refine ⟨?_, fun other known => ?_⟩
  · show (userModeLetter true false mine m' c).umodes = _
    rw [userModeLetter_umodes, umodes, add]
  · show (userModeLetter true false mine m' c).add = _
    rw [userModeLetter_add, if_neg letter.1, if_neg letter.2, add, Option.some.inj known]

def umodeChanged (old new flag : Flags) : Bool := old.has flag != new.has flag

/-- What the peer makes of one entry of the table. -/
def relayEntry (old new umodes : Flags) (f : Flags × Char) : Flags :=
  if umodeChanged old new f.1 then peerLetter (new.has f.1) f.2 umodes else umodes

/-- **The peer reads the table entry by entry.** -/
theorem read_send_umode (x : Client) (old mask : Flags) (start : UserModeState) (mine : Bool) :
    ((Ircd.send_umode x old mask).foldl (userModeLetter true false mine) start).umodes =
      (user_modes.filter fun f => !x.myClient || f.1.has mask).foldl (relayEntry old x.umodes)
        start.umodes := by
  have letters : ∀ f ∈ user_modes.filter fun f => !x.myClient || f.1.has mask,
      f.2 ≠ '+' ∧ f.2 ≠ '-' := by
    intro f member
    have table : ∀ f ∈ user_modes, f.2 ≠ '+' ∧ f.2 ≠ '-' := by decide
    exact table f (List.mem_of_mem_filter member)
  unfold Ircd.send_umode
  generalize user_modes.filter (fun f => !x.myClient || f.1.has mask) = table at letters ⊢
  suffices loop : ∀ b : ModeLine,
      Signed b (b.mbuf.foldl (userModeLetter true false mine) start) →
      ((table.foldl (fun b f =>
        (b.letterIf (old.has f.1 && !x.umodes.has f.1) '-' f.2).letterIf
          (!old.has f.1 && x.umodes.has f.1) '+' f.2) b).mbuf.foldl
            (userModeLetter true false mine) start).umodes =
      table.foldl (relayEntry old x.umodes)
        (b.mbuf.foldl (userModeLetter true false mine) start).umodes from
    loop .empty fun _ known => absurd known (by simp [ModeLine.empty])
  induction table with
  | nil => exact fun _ _ => rfl
  | cons f table ih =>
    intro b signed
    have rest := ih fun g member => letters g (List.mem_cons_of_mem _ member)
    have letter := letters f List.mem_cons_self
    rw [List.foldl_cons, List.foldl_cons]
    have entry : ∀ umodes, relayEntry old x.umodes umodes f =
        if old.has f.1 != x.umodes.has f.1 then peerLetter (x.umodes.has f.1) f.2 umodes
        else umodes := fun _ => rfl
    rw [entry]
    cases was : old.has f.1 <;> cases is_ : x.umodes.has f.1
    · exact rest b signed
    · obtain ⟨umodes, signed⟩ := read_letter (.inl rfl) letter signed
      exact (rest _ signed).trans (congrArg (table.foldl (relayEntry old x.umodes)) umodes)
    · obtain ⟨umodes, signed⟩ := read_letter (.inr rfl) letter signed
      exact (rest _ signed).trans (congrArg (table.foldl (relayEntry old x.umodes)) umodes)
    · exact rest b signed

/-! ### One change -/

/-- An entry whose letter the peer obeys. -/
def Heard (f : Flags × Char) : Prop :=
  ∀ add umodes, peerLetter add f.2 umodes = Flags.change umodes add f.1

/-- An entry whose letter the peer ignores. -/
def Deaf (f : Flags × Char) : Prop := ∀ add umodes, peerLetter add f.2 umodes = umodes

section Entries

variable {old new : Flags}

theorem relayEntry_other {f : Flags × Char} (read : Heard f ∨ Deaf f) {flag : Flags}
    (apart : f.1 &&& flag = 0#32) (umodes : Flags) :
    (relayEntry old new umodes f).has flag = umodes.has flag := by
  unfold relayEntry
  split
  · rcases read with heard | deaf
    · rw [heard]
      exact Flags.change_has_of_disjoint apart umodes _
    · rw [deaf]
  · rfl

theorem relayEntry_heard {f : Flags × Char} (heard : Heard f) (some_ : f.1 ≠ 0#32)
    (umodes : Flags) : (relayEntry old new umodes f).has f.1 =
      if umodeChanged old new f.1 then new.has f.1 else umodes.has f.1 := by
  unfold relayEntry
  split
  · rw [heard]
    exact Flags.change_has_self some_ umodes _
  · rfl

theorem relayEntry_deaf {f : Flags × Char} (deaf : Deaf f) (umodes : Flags) :
    relayEntry old new umodes f = umodes := by
  unfold relayEntry
  rw [deaf, ite_self]

theorem relay_other {table : List (Flags × Char)} (read : ∀ f ∈ table, Heard f ∨ Deaf f)
    {flag : Flags} (apart : ∀ f ∈ table, f.1 &&& flag = 0#32) (umodes : Flags) :
    (table.foldl (relayEntry old new) umodes).has flag = umodes.has flag := by
  induction table generalizing umodes with
  | nil => rfl
  | cons f table ih =>
    have rest := ih (fun g member => read g (List.mem_cons_of_mem _ member))
      (fun g member => apart g (List.mem_cons_of_mem _ member)) (relayEntry old new umodes f)
    rw [List.foldl_cons, rest]
    exact relayEntry_other (read f List.mem_cons_self) (apart f List.mem_cons_self) umodes

/-- **A mode in a part of the table** becomes what it is at the user's server when that changed it
and the peer obeys. -/
theorem relay_has (old new : Flags) {table : List (Flags × Char)}
    (read : ∀ f ∈ table, Heard f ∨ Deaf f)
    (some_ : ∀ f ∈ table, f.1 ≠ 0#32) (apart : table.Pairwise fun f g => f.1 &&& g.1 = 0#32)
    {f : Flags × Char} (member : f ∈ table) (umodes : Flags) :
    (Heard f → (table.foldl (relayEntry old new) umodes).has f.1 =
      if umodeChanged old new f.1 then new.has f.1 else umodes.has f.1) ∧
    (Deaf f → (table.foldl (relayEntry old new) umodes).has f.1 = umodes.has f.1) := by
  induction table generalizing umodes with
  | nil => exact absurd member List.not_mem_nil
  | cons g table ih =>
    have readRest : ∀ h ∈ table, Heard h ∨ Deaf h := fun h inside =>
      read h (List.mem_cons_of_mem _ inside)
    obtain ⟨headApart, restApart⟩ := List.pairwise_cons.mp apart
    rw [List.foldl_cons]
    rcases List.mem_cons.mp member with rfl | inside
    · have apartRest : ∀ h ∈ table, h.1 &&& f.1 = 0#32 := fun h inside => by
        rw [BitVec.and_comm]
        exact headApart h inside
      rw [relay_other readRest apartRest]
      exact ⟨fun heard => relayEntry_heard heard (some_ f List.mem_cons_self) umodes,
        fun deaf => by rw [relayEntry_deaf deaf]⟩
    · have rest := ih readRest (fun h inside => some_ h (List.mem_cons_of_mem _ inside)) restApart
        inside (relayEntry old new umodes g)
      rw [relayEntry_other (read g List.mem_cons_self) (headApart f inside) umodes] at rest
      exact rest

end Entries

/-! ### The parts of the table -/

/-- The entries before `o` and `O`. -/
def headEntries : List (Flags × Char) :=
  [(UMODE_SADMIN, 'a'), (UMODE_ADMIN, 'A'), (UMODE_BOT, 'B'), (UMODE_FLOODEX, 'f'),
    (UMODE_HELPER, 'h'), (UMODE_HIDEOPER, 'H'), (UMODE_INVISIBLE, 'i'), (UMODE_NETADMIN, 'N')]

/-- The entries after them, without `v`. -/
def tailEntries : List (Flags × Char) :=
  [(UMODE_PRIVATE, 'p'), (UMODE_IDENTIFIED, 'r'), (UMODE_REGMSG, 'R'), (UMODE_SSL, 's'),
    (UMODE_STEALTH, 'S'), (UMODE_TECHADMIN, 'T'), (UMODE_WALLOP, 'w'), (UMODE_SPY, 'y'),
    (UMODE_ZOMBIE, 'z')]

theorem user_modes_sent {x : Client} (own : x.myClient = true) :
    (user_modes.filter fun f => !x.myClient || f.1.has ALL_UMODES) =
      headEntries ++ (UMODE_OPER, 'o') :: (UMODE_LOCOP, 'O') :: tailEntries := by
  rw [own]
  rfl

/-- The entries whose letters the peer ignores. -/
def deafEntries : List (Flags × Char) := [(UMODE_FLOODEX, 'f'), (UMODE_SSL, 's')]

theorem peerLetter_default {c : Char}
    (plain : c ∉ ['+', '-', 'O', 'o', ' ', '\n', '\r', '\t', 's', 'f'])
    (bit : user_modes_from_c_to_bitmask c ≠ 0) (add : Bool) (umodes : Flags) :
    peerLetter add c umodes = umodes.change add (user_modes_from_c_to_bitmask c) := by
  unfold peerLetter userModeLetter userModeDefault
  simp only [List.mem_cons, not_or] at plain
  simp only [plain, if_false, or_self, apply_ite UserModeState.umodes]
  by_cases r : c = 'R'
  · subst r
    simp
    rfl
  · simp only [r]
    simp
    exact fun zero => absurd zero bit

theorem entry_deaf {f : Flags × Char} (deaf : f ∈ deafEntries) : Deaf f := by
  intro add umodes
  rcases List.mem_cons.mp deaf with rfl | deaf
  · rfl
  · rw [List.mem_singleton.mp deaf]
    rfl

theorem entry_heard {f : Flags × Char} (member : f ∈ headEntries ++ tailEntries)
    (heard : f ∉ deafEntries) : Heard f := by
  have table : ∀ f ∈ headEntries ++ tailEntries, f ∉ deafEntries →
      f.2 ∉ ['+', '-', 'O', 'o', ' ', '\n', '\r', '\t', 's', 'f'] ∧
        user_modes_from_c_to_bitmask f.2 = f.1 ∧ f.1 ≠ 0 := by decide
  obtain ⟨plain, bit, some_⟩ := table f member heard
  intro add umodes
  rw [peerLetter_default plain (bit ▸ some_), bit]

theorem entry_read {f : Flags × Char} (member : f ∈ headEntries ++ tailEntries) :
    Heard f ∨ Deaf f := by
  by_cases deaf : f ∈ deafEntries
  · exact .inr (entry_deaf deaf)
  · exact .inl (entry_heard member deaf)

theorem entries_apart :
    (headEntries ++ tailEntries).Pairwise fun f g => f.1 &&& g.1 = 0#32 := by decide

/-! ### The letters of operators -/

section Opers

variable (old new umodes : Flags)

/-- Whether the operator status is lost. -/
def lostOper : Bool := old.has UMODE_OPER && !new.has UMODE_OPER

/-- Whether the status of a local operator is lost. -/
def lostLocop : Bool := old.has UMODE_LOCOP && !new.has UMODE_LOCOP

/-- What the peer makes of `o` and `O`. -/
def relayOpers : Flags :=
  relayEntry old new (relayEntry old new umodes (UMODE_OPER, 'o')) (UMODE_LOCOP, 'O')

theorem peerLetter_addOper {c : Char} (letter : c = 'O' ∨ c = 'o') :
    peerLetter true c umodes = if umodes.has UMODE_OPER then umodes
      else umodes ||| if c = 'o' then UMODE_OPER else UMODE_LOCOP := by
  rcases letter with rfl | rfl
  · unfold peerLetter userModeLetter
    cases set : umodes.has UMODE_OPER <;> simp
  · unfold peerLetter userModeLetter
    cases set : umodes.has UMODE_OPER <;> simp

theorem peerLetter_delOper {c : Char} (letter : c = 'O' ∨ c = 'o') :
    peerLetter false c umodes =
      if umodes.has (UMODE_OPER ||| UMODE_LOCOP) then umodes &&& USER_UMODES else umodes := by
  rcases letter with rfl | rfl
  · unfold peerLetter userModeLetter UserModeState.deoper
    cases set : umodes.has (UMODE_OPER ||| UMODE_LOCOP) <;> simp
  · unfold peerLetter userModeLetter UserModeState.deoper
    cases set : umodes.has (UMODE_OPER ||| UMODE_LOCOP) <;> simp

variable {old new umodes}

/-- **The status after `o` and `O`.** -/
theorem relayOpers_status (oper : umodes.has UMODE_OPER = old.has UMODE_OPER)
    (locop : umodes.has UMODE_LOCOP = old.has UMODE_LOCOP) :
    (relayOpers old new umodes).has UMODE_OPER = (new.has UMODE_OPER && !lostLocop old new) ∧
    (relayOpers old new umodes).has UMODE_LOCOP = (if old.has UMODE_LOCOP then
      new.has UMODE_LOCOP && !lostOper old new else new.has UMODE_LOCOP && !new.has UMODE_OPER) := by
  have operCut : USER_UMODES &&& UMODE_OPER = 0#32 := by decide
  have locopCut : USER_UMODES &&& UMODE_LOCOP = 0#32 := by decide
  have self : Flags.has UMODE_OPER UMODE_OPER = true ∧ Flags.has UMODE_LOCOP UMODE_LOCOP = true ∧
      Flags.has UMODE_OPER UMODE_LOCOP = false ∧ Flags.has UMODE_LOCOP UMODE_OPER = false := by decide
  unfold relayOpers relayEntry umodeChanged lostOper lostLocop
  cases oldOper : old.has UMODE_OPER <;> cases newOper : new.has UMODE_OPER <;>
    cases oldLocop : old.has UMODE_LOCOP <;> cases newLocop : new.has UMODE_LOCOP <;>
    rw [oldOper] at oper <;> rw [oldLocop] at locop <;>
    simp [peerLetter_addOper, peerLetter_delOper, Flags.has_or, Flags.or_has, oper, locop, self,
      Flags.and_has_of_disjoint operCut, Flags.and_has_of_disjoint locopCut]

theorem relayOpers_has (old new umodes : Flags) (oper : umodes.has UMODE_OPER = old.has UMODE_OPER)
    (locop : umodes.has UMODE_LOCOP = old.has UMODE_LOCOP) {flag : Flags}
    (apart : (UMODE_OPER ||| UMODE_LOCOP) &&& flag = 0#32) :
    (relayOpers old new umodes).has flag =
      if lostOper old new || lostLocop old new then Flags.has (umodes &&& USER_UMODES) flag
      else umodes.has flag := by
  have operCut : USER_UMODES &&& UMODE_OPER = 0#32 := by decide
  have locopCut : USER_UMODES &&& UMODE_LOCOP = 0#32 := by decide
  have gained : (umodes ||| UMODE_OPER) &&& USER_UMODES = umodes &&& USER_UMODES := by
    rw [BitVec.and_or_distrib_right, BitVec.and_comm UMODE_OPER, operCut, BitVec.or_zero]
  have self : Flags.has UMODE_OPER UMODE_OPER = true := by decide
  have none_ := Flags.has_of_disjoint apart
  rw [Flags.or_has, Bool.or_eq_false_iff] at none_
  unfold relayOpers relayEntry umodeChanged lostOper lostLocop
  cases oldOper : old.has UMODE_OPER <;> cases newOper : new.has UMODE_OPER <;>
    cases oldLocop : old.has UMODE_LOCOP <;> cases newLocop : new.has UMODE_LOCOP <;>
    rw [oldOper] at oper <;> rw [oldLocop] at locop <;>
    simp [peerLetter_addOper, peerLetter_delOper, Flags.has_or, Flags.or_has, oper, locop, self, gained,
      none_, Flags.and_has_of_disjoint operCut, Flags.and_has_of_disjoint locopCut]

/-- **The other modes after `o` and `O`**: a lost status takes those that not every user has. -/
theorem relayOpers_other (old new umodes : Flags) (oper : umodes.has UMODE_OPER = old.has UMODE_OPER)
    (locop : umodes.has UMODE_LOCOP = old.has UMODE_LOCOP) {flag : Flags}
    (apart : (UMODE_OPER ||| UMODE_LOCOP) &&& flag = 0#32) :
    (USER_UMODES &&& flag = flag → (relayOpers old new umodes).has flag = umodes.has flag) ∧
    (USER_UMODES &&& flag = 0#32 → (relayOpers old new umodes).has flag =
      (umodes.has flag && !lostOper old new && !lostLocop old new)) := by
  rw [relayOpers_has old new umodes oper locop apart]
  refine ⟨fun inside => by rw [Flags.and_has inside, ite_self], fun outside => ?_⟩
  rw [Flags.and_has_of_disjoint outside]
  cases lostOper old new <;> cases lostLocop old new <;> simp

end Opers

/-! ### A whole change -/

section Change

variable (old new : Flags)

/-- What the peer has after the letters of a change, before it cuts the modes of operators. -/
def relayed : Flags :=
  tailEntries.foldl (relayEntry old new)
    (relayOpers old new (headEntries.foldl (relayEntry old new) (old &&& ALL_UMODES)))

variable {old new}

theorem old_has {flag : Flags} (sent : ALL_UMODES &&& flag = flag) :
    Flags.has (old &&& ALL_UMODES) flag = old.has flag := Flags.and_has sent old

theorem head_other {flag : Flags} (sent : ALL_UMODES &&& flag = flag)
    (apart : ∀ f ∈ headEntries, f.1 &&& flag = 0#32) :
    (headEntries.foldl (relayEntry old new) (old &&& ALL_UMODES)).has flag = old.has flag := by
  rw [relay_other (fun f member => entry_read (List.mem_append_left _ member)) apart, old_has sent]

theorem head_has {f : Flags × Char} (member : f ∈ headEntries) :
    (headEntries.foldl (relayEntry old new) (old &&& ALL_UMODES)).has f.1 =
      if f ∈ deafEntries then old.has f.1 else new.has f.1 := by
  have sent : ∀ f ∈ headEntries, ALL_UMODES &&& f.1 = f.1 := by decide
  have some_ : ∀ f ∈ headEntries, f.1 ≠ 0#32 := by decide
  have read := relay_has old new
    (fun f member => entry_read (List.mem_append_left _ member)) some_
    (List.pairwise_append.mp entries_apart).1 member (old &&& ALL_UMODES)
  split
  · rename_i deaf
    rw [read.2 (entry_deaf deaf), old_has (sent f member)]
  · rename_i heard
    rw [read.1 (entry_heard (List.mem_append_left _ member) heard), old_has (sent f member)]
    unfold umodeChanged
    cases old.has f.1 <;> cases new.has f.1 <;> rfl

/-- Whether a status was lost, and with it the modes that not every user has. -/
def lostStatus (old new : Flags) : Bool := lostOper old new || lostLocop old new

theorem head_apart {f g : Flags × Char} (head : f ∈ headEntries) (tail : g ∈ tailEntries) :
    f.1 &&& g.1 = 0#32 :=
  (List.pairwise_append.mp entries_apart).2.2 f head g tail

theorem and_entry {mask word : Flags} {f : Flags × Char}
    (clear : mask &&& f.1 = f.1 ∨ mask &&& f.1 = 0#32) :
    Flags.has (word &&& mask) f.1 = (word.has f.1 && mask.has f.1) := by
  rcases clear with inside | outside
  · rw [Flags.and_has inside]
    unfold Flags.has
    rw [inside]
    cases known : word &&& f.1 != 0#32 with
    | false => rfl
    | true =>
      have some_ : f.1 ≠ 0#32 := by
        rintro zero
        rw [zero, BitVec.and_zero] at known
        exact absurd known (by decide)
      exact (bne_iff_ne.mpr some_).symm
  · rw [Flags.and_has_of_disjoint outside, Flags.has_of_disjoint outside, Bool.and_false]

theorem opers_has (old new : Flags) {f : Flags × Char} (member : f ∈ headEntries ++ tailEntries) :
    let before := headEntries.foldl (relayEntry old new) (old &&& ALL_UMODES)
    (relayOpers old new before).has f.1 =
      (before.has f.1 && (USER_UMODES.has f.1 || !lostStatus old new)) := by
  have table : ∀ f ∈ headEntries ++ tailEntries, (UMODE_OPER ||| UMODE_LOCOP) &&& f.1 = 0#32 ∧
      f.1 ≠ 0#32 ∧ (USER_UMODES &&& f.1 = f.1 ∨ USER_UMODES &&& f.1 = 0#32) := by decide
  have apart : ∀ f ∈ headEntries, f.1 &&& UMODE_OPER = 0#32 ∧ f.1 &&& UMODE_LOCOP = 0#32 := by
    decide
  intro before
  obtain ⟨status, some_, side⟩ := table f member
  obtain ⟨inside_, outside_⟩ := relayOpers_other old new before
    (head_other (by decide) fun f head => (apart f head).1)
    (head_other (by decide) fun f head => (apart f head).2) status
  rcases side with inside | outside
  · have user : USER_UMODES.has f.1 = true := by
      unfold Flags.has
      rw [inside]
      exact bne_iff_ne.mpr some_
    rw [inside_ inside, user, Bool.true_or, Bool.and_true]
  · rw [outside_ outside, Flags.has_of_disjoint outside, Bool.false_or, lostStatus, Bool.not_or,
      Bool.and_assoc]

/-- **An entry told before `o` and `O`.** -/
theorem relayed_head {f : Flags × Char} (member : f ∈ headEntries) :
    (relayed old new).has f.1 = ((if f ∈ deafEntries then old.has f.1 else new.has f.1) &&
      (USER_UMODES.has f.1 || !lostStatus old new)) := by
  have apart : ∀ g ∈ tailEntries, g.1 &&& f.1 = 0#32 := fun g tail => by
    rw [BitVec.and_comm]
    exact head_apart member tail
  unfold relayed
  rw [relay_other (fun f member => entry_read (List.mem_append_right _ member)) apart,
    opers_has old new (List.mem_append_left _ member), head_has member]

/-- **An entry told after them.** -/
theorem relayed_tail {f : Flags × Char} (member : f ∈ tailEntries) :
    (relayed old new).has f.1 = if f ∉ deafEntries ∧ umodeChanged old new f.1 then new.has f.1
      else old.has f.1 && (USER_UMODES.has f.1 || !lostStatus old new) := by
  have sent : ∀ f ∈ tailEntries, ALL_UMODES &&& f.1 = f.1 ∧ f.1 ≠ 0#32 := by decide
  have before := opers_has old new (List.mem_append_right headEntries member)
  simp only [head_other (sent f member).1 fun g head => head_apart head member] at before
  have read := relay_has old new
    (fun f member => entry_read (List.mem_append_right _ member)) (fun f member => (sent f member).2)
    (List.pairwise_append.mp entries_apart).2.1 member
    (relayOpers old new (headEntries.foldl (relayEntry old new) (old &&& ALL_UMODES)))
  unfold relayed
  by_cases deaf : f ∈ deafEntries
  · rw [read.2 (entry_deaf deaf), before, if_neg fun both => both.1 deaf]
  · rw [read.1 (entry_heard (List.mem_append_right _ member) deaf), before]
    simp only [deaf, not_false_eq_true, true_and]

theorem relayed_status :
    (relayed old new).has UMODE_OPER = (new.has UMODE_OPER && !lostLocop old new) ∧
    (relayed old new).has UMODE_LOCOP = (if old.has UMODE_LOCOP then
      new.has UMODE_LOCOP && !lostOper old new else new.has UMODE_LOCOP && !new.has UMODE_OPER) := by
  have apart : ∀ f ∈ headEntries, f.1 &&& UMODE_OPER = 0#32 ∧ f.1 &&& UMODE_LOCOP = 0#32 := by
    decide
  have tail : ∀ f ∈ tailEntries, f.1 &&& UMODE_OPER = 0#32 ∧ f.1 &&& UMODE_LOCOP = 0#32 := by
    decide
  have read : ∀ f ∈ tailEntries, Heard f ∨ Deaf f := fun f member =>
    entry_read (List.mem_append_right _ member)
  unfold relayed
  rw [relay_other read fun f member => (tail f member).1,
    relay_other read fun f member => (tail f member).2]
  exact relayOpers_status (head_other (by decide) fun f head => (apart f head).1)
    (head_other (by decide) fun f head => (apart f head).2)

theorem keptModes_entry {f : Flags × Char} (member : f ∈ headEntries ++ tailEntries)
    (umodes : Flags) : (keptModes umodes).has f.1 = (umodes.has f.1 &&
      ((USER_UMODES ||| UMODE_ZOMBIE).has f.1 || umodes.has (UMODE_OPER ||| UMODE_LOCOP))) := by
  have table : ∀ f ∈ headEntries ++ tailEntries,
      (USER_UMODES ||| UMODE_ZOMBIE) &&& f.1 = f.1 ∨ (USER_UMODES ||| UMODE_ZOMBIE) &&& f.1 = 0#32 := by
    decide
  unfold keptModes
  cases oper : umodes.has (UMODE_OPER ||| UMODE_LOCOP) with
  | true => rw [if_pos rfl, Bool.or_true, Bool.and_true]
  | false => rw [if_neg Bool.false_ne_true, and_entry (table f member), Bool.or_false]

theorem keptModes_status (umodes : Flags) :
    (keptModes umodes).has UMODE_OPER = umodes.has UMODE_OPER ∧
      (keptModes umodes).has UMODE_LOCOP = umodes.has UMODE_LOCOP := by
  unfold keptModes
  cases oper : umodes.has (UMODE_OPER ||| UMODE_LOCOP) with
  | true => exact ⟨rfl, rfl⟩
  | false =>
    rw [Flags.has_or, Bool.or_eq_false_iff] at oper
    rw [if_neg Bool.false_ne_true, Flags.and_has_of_disjoint (by decide),
      Flags.and_has_of_disjoint (by decide)]
    exact ⟨oper.1.symm, oper.2.symm⟩

/-- **The changes that arrive as they were made.** -/
structure Relayable (old new : Flags) : Prop where
  /-- The modes of which the peer ignores the letters stay. -/
  deaf : ∀ f ∈ deafEntries, new.has f.1 = old.has f.1
  /-- The status of a local operator is not told of an operator. -/
  oper : new.has UMODE_OPER = true → new.has UMODE_LOCOP = old.has UMODE_LOCOP
  /-- Who was both does not stay a local operator only. -/
  locop : lostOper old new = true → ¬ (old.has UMODE_LOCOP = true ∧ new.has UMODE_LOCOP = true)
  /-- A lost status takes the modes told before, also those that stay. -/
  head : lostStatus old new = true → ∀ f ∈ headEntries, USER_UMODES.has f.1 = false →
    new.has f.1 = false
  /-- It takes of the modes told after only those that stay. -/
  tail : lostStatus old new = true → ∀ f ∈ tailEntries, USER_UMODES.has f.1 = false →
    ¬ (old.has f.1 = true ∧ new.has f.1 = true)
  /-- Who has no status keeps no mode of operators. -/
  kept : new.has (UMODE_OPER ||| UMODE_LOCOP) = false → ∀ f ∈ headEntries ++ tailEntries,
    (USER_UMODES ||| UMODE_ZOMBIE).has f.1 = false → new.has f.1 = false

def StatusArrives (old new : Flags) : Prop :=
  (relayed old new).has UMODE_OPER = new.has UMODE_OPER ∧
    (relayed old new).has UMODE_LOCOP = new.has UMODE_LOCOP

theorem statusArrives_iff : StatusArrives old new ↔
    (new.has UMODE_OPER = true → new.has UMODE_LOCOP = old.has UMODE_LOCOP) ∧
      (lostOper old new = true → ¬ (old.has UMODE_LOCOP = true ∧ new.has UMODE_LOCOP = true)) := by
  unfold StatusArrives
  rw [relayed_status.1, relayed_status.2]
  unfold lostOper lostLocop
  cases old.has UMODE_OPER <;> cases new.has UMODE_OPER <;> cases old.has UMODE_LOCOP <;>
    cases new.has UMODE_LOCOP <;> decide

def EntryArrives (old new : Flags) (f : Flags × Char) : Prop :=
  (keptModes (relayed old new)).has f.1 = new.has f.1

theorem StatusArrives.status (arrives : StatusArrives old new) :
    (relayed old new).has (UMODE_OPER ||| UMODE_LOCOP) = new.has (UMODE_OPER ||| UMODE_LOCOP) := by
  rw [Flags.has_or, Flags.has_or, arrives.1, arrives.2]

theorem deaf_user {f : Flags × Char} (deaf : f ∈ deafEntries) :
    USER_UMODES.has f.1 = true ∧ (USER_UMODES ||| UMODE_ZOMBIE).has f.1 = true := by
  have table : ∀ f ∈ deafEntries,
      USER_UMODES.has f.1 = true ∧ (USER_UMODES ||| UMODE_ZOMBIE).has f.1 = true := by decide
  exact table f deaf

theorem headArrives_iff (status : StatusArrives old new) {f : Flags × Char}
    (member : f ∈ headEntries) : EntryArrives old new f ↔
      (f ∈ deafEntries → new.has f.1 = old.has f.1) ∧
      (lostStatus old new = true → USER_UMODES.has f.1 = false → new.has f.1 = false) ∧
      (new.has (UMODE_OPER ||| UMODE_LOCOP) = false →
        (USER_UMODES ||| UMODE_ZOMBIE).has f.1 = false → new.has f.1 = false) := by
  unfold EntryArrives
  rw [keptModes_entry (List.mem_append_left _ member), status.status, relayed_head member]
  by_cases deaf : f ∈ deafEntries
  · obtain ⟨user, kept⟩ := deaf_user deaf
    rw [if_pos deaf, user, kept, Bool.true_or, Bool.true_or, Bool.and_true, Bool.and_true]
    exact ⟨fun same => ⟨fun _ => same.symm, fun _ no => absurd no.symm Bool.false_ne_true,
      fun _ no => absurd no.symm Bool.false_ne_true⟩, fun conditions => (conditions.1 deaf).symm⟩
  · rw [if_neg deaf]
    cases new.has f.1 <;> cases lostStatus old new <;> cases USER_UMODES.has f.1 <;>
      cases (USER_UMODES ||| UMODE_ZOMBIE).has f.1 <;>
      cases new.has (UMODE_OPER ||| UMODE_LOCOP) <;> simp [deaf]

theorem tailArrives_iff (status : StatusArrives old new) {f : Flags × Char}
    (member : f ∈ tailEntries) : EntryArrives old new f ↔
      (f ∈ deafEntries → new.has f.1 = old.has f.1) ∧
      (lostStatus old new = true → USER_UMODES.has f.1 = false →
        ¬ (old.has f.1 = true ∧ new.has f.1 = true)) ∧
      (new.has (UMODE_OPER ||| UMODE_LOCOP) = false →
        (USER_UMODES ||| UMODE_ZOMBIE).has f.1 = false → new.has f.1 = false) := by
  unfold EntryArrives
  rw [keptModes_entry (List.mem_append_right _ member), status.status, relayed_tail member]
  by_cases deaf : f ∈ deafEntries
  · obtain ⟨user, kept⟩ := deaf_user deaf
    rw [if_neg fun both => both.1 deaf, user, kept, Bool.true_or, Bool.true_or, Bool.and_true,
      Bool.and_true]
    exact ⟨fun same => ⟨fun _ => same.symm, fun _ no => absurd no.symm Bool.false_ne_true,
      fun _ no => absurd no.symm Bool.false_ne_true⟩, fun conditions => (conditions.1 deaf).symm⟩
  · unfold umodeChanged
    cases old.has f.1 <;> cases new.has f.1 <;> cases lostStatus old new <;>
      cases USER_UMODES.has f.1 <;> cases (USER_UMODES ||| UMODE_ZOMBIE).has f.1 <;>
      cases new.has (UMODE_OPER ||| UMODE_LOCOP) <;> simp [deaf]

/-- **All modes arrive exactly when the change is relayable.** -/
theorem relayable_iff : Relayable old new ↔
    StatusArrives old new ∧ ∀ f ∈ headEntries ++ tailEntries, EntryArrives old new f := by
  refine ⟨fun relayable => ?_, fun ⟨status, arrives⟩ => ?_⟩
  · have status := statusArrives_iff.mpr ⟨relayable.oper, relayable.locop⟩
    refine ⟨status, fun f member => ?_⟩
    rcases List.mem_append.mp member with head | tail
    · exact (headArrives_iff status head).mpr ⟨relayable.deaf f,
        fun lost => relayable.head lost f head, fun none_ => relayable.kept none_ f member⟩
    · exact (tailArrives_iff status tail).mpr ⟨relayable.deaf f,
        fun lost => relayable.tail lost f tail, fun none_ => relayable.kept none_ f member⟩
  · obtain ⟨oper, locop⟩ := statusArrives_iff.mp status
    have head := fun f member => (headArrives_iff status (f := f) member).mp
      (arrives f (List.mem_append_left _ member))
    have tail := fun f member => (tailArrives_iff status (f := f) member).mp
      (arrives f (List.mem_append_right _ member))
    refine ⟨fun f deaf => ?_, oper, locop, fun lost f member => (head f member).2.1 lost,
      fun lost f member => (tail f member).2.1 lost, fun none_ f member => ?_⟩
    · rcases List.mem_cons.mp deaf with rfl | other
      · exact (head _ (by decide)).1 (by decide)
      · rw [List.mem_singleton.mp other]
        exact (tail (UMODE_SSL, 's') (by decide)).1 (by decide)
    · rcases List.mem_append.mp member with inHead | inTail
      · exact (head f inHead).2.2 none_
      · exact (tail f inTail).2.2 none_

/-! ### All bits together -/

/-- The entries that a server tells of its own users. -/
def sentEntries : List (Flags × Char) :=
  headEntries ++ (UMODE_OPER, 'o') :: (UMODE_LOCOP, 'O') :: tailEntries

theorem sentEntries_bits : ∀ flag ∈ sentEntries.map Prod.fst, ∃ i, flag = BitVec.twoPow 32 i := by
  have table : sentEntries.map Prod.fst =
      [4, 17, 21, 27, 20, 26, 1, 19, 14, 15, 23, 3, 24, 9, 25, 18, 0, 13, 2].map
        (BitVec.twoPow 32) := rfl
  rw [table]
  intro flag member
  obtain ⟨i, _, same⟩ := List.mem_map.mp member
  exact ⟨i, same.symm⟩

theorem within_foldl {entries : List (Flags × Char)}
    (each : ∀ f ∈ entries, ∀ umodes, Flags.Within ALL_UMODES umodes →
      Flags.Within ALL_UMODES (relayEntry old new umodes f)) {umodes : Flags}
    (within : Flags.Within ALL_UMODES umodes) :
    Flags.Within ALL_UMODES (entries.foldl (relayEntry old new) umodes) := by
  induction entries generalizing umodes with
  | nil => exact within
  | cons f entries ih =>
    exact ih (fun g member => each g (List.mem_cons_of_mem _ member))
      (each f List.mem_cons_self umodes within)

theorem relayEntry_within {f : Flags × Char} (member : f ∈ headEntries ++ tailEntries)
    (umodes : Flags) (within : Flags.Within ALL_UMODES umodes) :
    Flags.Within ALL_UMODES (relayEntry old new umodes f) := by
  have table : ∀ f ∈ headEntries ++ tailEntries, f.1 &&& ALL_UMODES = f.1 := by decide
  unfold relayEntry
  split
  · rcases entry_read member with heard | deaf
    · rw [heard]
      exact within.change (table f member) _
    · rw [deaf]
      exact within
  · exact within

theorem operEntry_within {flag : Flags} {c : Char} (letter : c = 'O' ∨ c = 'o') (umodes : Flags)
    (within : Flags.Within ALL_UMODES umodes) :
    Flags.Within ALL_UMODES (relayEntry old new umodes (flag, c)) := by
  unfold relayEntry
  split
  · cases new.has flag with
    | true =>
      rw [peerLetter_addOper umodes letter]
      have oper : Flags.Within ALL_UMODES (if c = 'o' then UMODE_OPER else UMODE_LOCOP) := by
        split <;> rfl
      split
      · exact within
      · exact within.change oper true
    | false =>
      rw [peerLetter_delOper umodes letter]
      split
      · exact within.and USER_UMODES
      · exact within
  · exact within

theorem relayed_within : Flags.Within ALL_UMODES (keptModes (relayed old new)) := by
  have start : Flags.Within ALL_UMODES (old &&& ALL_UMODES) := by
    unfold Flags.Within
    rw [BitVec.and_assoc, BitVec.and_self]
  have all : Flags.Within ALL_UMODES (relayed old new) := by
    refine within_foldl (fun f member => relayEntry_within (List.mem_append_right _ member)) ?_
    refine operEntry_within (.inl rfl) _ (operEntry_within (.inr rfl) _ ?_)
    exact within_foldl (fun f member => relayEntry_within (List.mem_append_left _ member)) start
  unfold keptModes
  split
  · exact all
  · exact all.and _

/-- **What the peer has is what the user's server has, exactly when the change is relayable.** -/
theorem relayed_umodes :
    keptModes (relayed old new) = new &&& ALL_UMODES ↔ Relayable old new := by
  rw [relayable_iff]
  have mask : Flags.union (sentEntries.map Prod.fst) = ALL_UMODES := rfl
  refine ⟨fun same => ?_, fun ⟨status, arrives⟩ => ?_⟩
  · have bit : ∀ flag, ALL_UMODES &&& flag = flag →
        (keptModes (relayed old new)).has flag = new.has flag := fun flag inside => by
      rw [same, Flags.and_has inside]
    have table : ∀ f ∈ headEntries ++ tailEntries, ALL_UMODES &&& f.1 = f.1 := by decide
    obtain ⟨oper, locop⟩ := keptModes_status (relayed old new)
    refine ⟨⟨?_, ?_⟩, fun f member => bit f.1 (table f member)⟩
    · rw [← oper, bit _ (by decide)]
    · rw [← locop, bit _ (by decide)]
  · rw [← relayed_within, ← mask]
    refine Flags.and_union_eq sentEntries_bits fun flag member => ?_
    obtain ⟨f, inside, rfl⟩ := List.mem_map.mp member
    obtain ⟨oper, locop⟩ := keptModes_status (relayed old new)
    rcases List.mem_append.mp inside with head | rest
    · exact arrives f (List.mem_append_left _ head)
    rcases List.mem_cons.mp rest with rfl | rest
    · exact oper.trans status.1
    rcases List.mem_cons.mp rest with rfl | tail
    · exact locop.trans status.2
    · exact arrives f (List.mem_append_right _ tail)

end Change

/-! ### Introductions -/

theorem letterIf_plus {b : ModeLine} (plus : b.what = some '+') (p : Bool) (c : Char) :
    (b.letterIf p '+' c).what = some '+' ∧
      (b.letterIf p '+' c).mbuf = b.mbuf ++ if p then [c] else [] := by
  unfold ModeLine.letterIf
  cases p with
  | true => simp [ModeLine.letter, plus]
  | false => simp [plus]

def introEntry (x : Client) (b : ModeLine) (f : Flags × Char) : ModeLine :=
  b.letterIf (x.umodes.has f.1) '+' f.2

theorem intro_plus (x : Client) (table : List (Flags × Char)) {b : ModeLine}
    (plus : b.what = some '+') :
    (table.foldl (introEntry x) b).mbuf =
      b.mbuf ++ (table.filter fun f => x.umodes.has f.1).map Prod.snd := by
  induction table generalizing b with
  | nil => rw [List.foldl_nil, List.filter_nil, List.map_nil, List.append_nil]
  | cons f table ih =>
    obtain ⟨what, mbuf⟩ := letterIf_plus plus (x.umodes.has f.1) f.2
    rw [List.foldl_cons, introEntry, ih what, mbuf, List.filter_cons, List.append_assoc]
    cases x.umodes.has f.1 <;> rfl

/-- **An introduction names the modes that are set**, after one sign. -/
theorem intro_letters (x : Client) (mask : Flags) :
    (Ircd.introUmode x mask).drop 1 = ((user_modes.filter fun f => !x.myClient || f.1.has mask).filter
      fun f => x.umodes.has f.1).map Prod.snd := by
  have send : Ircd.send_umode x 0 mask = ((user_modes.filter fun f =>
      !x.myClient || f.1.has mask).foldl (introEntry x) .empty).mbuf := by
    unfold Ircd.send_umode
    congr 2
    funext b f
    show (b.letterIf (Flags.has 0#32 f.1 && !x.umodes.has f.1) '-' f.2).letterIf
      (!Flags.has 0#32 f.1 && x.umodes.has f.1) '+' f.2 = _
    rw [Flags.zero_has]
    rfl
  unfold Ircd.introUmode
  rw [send]
  generalize user_modes.filter (fun f => !x.myClient || f.1.has mask) = table
  induction table with
  | nil => rfl
  | cons f table ih =>
    cases set : x.umodes.has f.1 with
    | false =>
      rw [List.foldl_cons, List.filter_cons, set, introEntry, set]
      exact ih
    | true =>
      have first : introEntry x .empty f = ⟨some '+', ['+', f.2], [], 0⟩ := by
        unfold introEntry ModeLine.letterIf
        rw [set]
        rfl
      rw [List.foldl_cons, first, intro_plus x table rfl, List.filter_cons, set]
      rfl

theorem nickLetters_umodes {entries : List (Flags × Char)} (known : ∀ f ∈ entries, f ∈ user_modes)
    (m : NickModes) : ((entries.map Prod.snd).foldl nickLetter m).umodes =
      m.umodes ||| (Flags.union (entries.map Prod.fst) &&& ALL_UMODES) := by
  induction entries generalizing m with
  | nil =>
    show m.umodes = m.umodes ||| (0#32 &&& ALL_UMODES)
    rw [BitVec.zero_and, BitVec.or_zero]
  | cons f entries ih =>
    have table : ∀ f ∈ user_modes, user_modes_from_c_to_bitmask f.2 = f.1 := by decide
    have letter : (nickLetter m f.2).umodes = m.umodes ||| (f.1 &&& ALL_UMODES) := by
      unfold nickLetter
      rw [table f (known f List.mem_cons_self)]
    rw [List.map_cons, List.foldl_cons, ih fun g member => known g (List.mem_cons_of_mem _ member),
      letter]
    show _ = m.umodes ||| ((f.1 ||| Flags.union (entries.map Prod.fst)) &&& ALL_UMODES)
    rw [BitVec.and_comm (_ ||| _), BitVec.and_or_distrib_left, BitVec.or_assoc,
      BitVec.and_comm ALL_UMODES, BitVec.and_comm ALL_UMODES]

/-- The entries that an introduction may name cover all modes that servers tell. -/
theorem intro_union (x : Client) :
    let entries := user_modes.filter fun f => !x.myClient || f.1.has ALL_UMODES
    (∀ flag ∈ entries.map Prod.fst, ∃ i, flag = BitVec.twoPow 32 i) ∧
      Flags.union (entries.map Prod.fst) &&& ALL_UMODES = ALL_UMODES := by
  intro entries
  cases own : x.myClient with
  | true =>
    have sent : entries = sentEntries := user_modes_sent own
    rw [sent]
    exact ⟨sentEntries_bits, rfl⟩
  | false =>
    have all : entries = user_modes := by
      show user_modes.filter (fun f => !x.myClient || f.1.has ALL_UMODES) = _
      rw [own]
      rfl
    have table : user_modes.map Prod.fst =
        [4, 17, 21, 27, 20, 26, 1, 19, 14, 15, 23, 3, 24, 9, 25, 18, 22, 0, 13, 2].map
          (BitVec.twoPow 32) := rfl
    rw [all]
    refine ⟨fun flag member => ?_, rfl⟩
    rw [table] at member
    obtain ⟨i, _, same⟩ := List.mem_map.mp member
    exact ⟨i, same.symm⟩

/-- **An introduction always arrives as it was sent.** -/
theorem introduced_umodes (x : Client) :
    (nickModes (Ircd.introUmode x ALL_UMODES)).umodes = x.umodes &&& ALL_UMODES := by
  have known : ∀ f ∈ (user_modes.filter fun f => !x.myClient || f.1.has ALL_UMODES).filter
      fun f => x.umodes.has f.1, f ∈ user_modes := fun f member =>
    List.mem_of_mem_filter (List.mem_of_mem_filter member)
  obtain ⟨bits, union⟩ := intro_union x
  unfold nickModes
  rw [intro_letters x ALL_UMODES, nickLetters_umodes known ⟨0, 0, 0⟩]
  generalize user_modes.filter (fun f => !x.myClient || f.1.has ALL_UMODES) = entries at bits union ⊢
  have swap : (entries.filter fun f => x.umodes.has f.1).map Prod.fst =
      (entries.map Prod.fst).filter x.umodes.has := by
    rw [List.filter_map]
    rfl
  rw [swap, ← Flags.and_union bits, BitVec.and_assoc, union]
  exact BitVec.zero_or

/-! ### From server to server -/

namespace Ircd

/-- What a peer makes of the letters of a user's change, when there are any to send. -/
def hear_umode (s : Ircd) (cptr sptr : ClientId) (letters : Text) : Ircd :=
  if letters = [] then s
  else s.user_mode cptr sptr [(s.client sptr).name, (s.client sptr).name, letters]

variable {s : Ircd} {cptr sptr : ClientId}

theorem user_mode_from_server (server : (s.client cptr).isServer = true)
    (known : s.find_person (s.client sptr).name = some sptr) (letters : Text) :
    ((s.user_mode cptr sptr [(s.client sptr).name, (s.client sptr).name, letters]).client
      sptr).umodes = keptModes (letters.foldl
        (userModeLetter true false (s.client sptr).myConnect)
        ⟨true, (s.client sptr).umodes, false, s.count.oper, (s.client sptr).flags2⟩).umodes := by
  have person := (Option.filter_eq_some_iff.mp known).2
  have status : (s.client sptr).status = .client := by
    unfold Client.isPerson Client.isClient at person
    rw [Bool.and_eq_true, decide_eq_true_eq] at person
    exact person.1
  have user : (s.client sptr).isServer = false := by
    unfold Client.isServer
    rw [status]
    rfl
  have link : (s.client cptr).myClient = false := by
    by_contra mine
    have other := Client.not_isServer_of_myClient (Bool.not_eq_false _ ▸ mine)
    exact absurd (server.symm.trans other) Bool.true_eq_false.mp
  have written : s.RewritesModes sptr
      [(s.client sptr).name, (s.client sptr).name, letters] := ⟨Nat.le_refl 3, known⟩
  rw [(user_mode_written cptr written user).1]
  unfold userModeLetters
  rw [server, link]
  have text : ([(s.client sptr).name, (s.client sptr).name, letters].drop 2).flatten = letters :=
    List.flatten_singleton
  rw [text]
  rfl

theorem letterIf_nil (b : ModeLine) (p : Bool) (sign c : Char) :
    (b.letterIf p sign c).mbuf = [] ↔ b.mbuf = [] ∧ p = false := by
  unfold ModeLine.letterIf ModeLine.letter
  cases p <;> simp

theorem send_umode_nil {x : Client} (own : x.myClient = true) (old : Flags) :
    send_umode x old ALL_UMODES = [] ↔ x.umodes &&& ALL_UMODES = old &&& ALL_UMODES := by
  have loop : ∀ (entries : List (Flags × Char)) (b : ModeLine),
      (entries.foldl (fun b f =>
        (b.letterIf (old.has f.1 && !x.umodes.has f.1) '-' f.2).letterIf
          (!old.has f.1 && x.umodes.has f.1) '+' f.2) b).mbuf = [] ↔
      b.mbuf = [] ∧ ∀ f ∈ entries, x.umodes.has f.1 = old.has f.1 := by
    intro entries
    induction entries with
    | nil => simp
    | cons f entries ih =>
      intro b
      rw [List.foldl_cons, ih, letterIf_nil, letterIf_nil, List.forall_mem_cons, and_assoc, and_assoc]
      cases old.has f.1 <;> cases x.umodes.has f.1 <;> simp
  have mask : Flags.union (sentEntries.map Prod.fst) = ALL_UMODES := rfl
  unfold send_umode
  rw [user_modes_sent own, loop]
  refine ⟨fun unchanged => ?_, fun same => ⟨rfl, fun f member => ?_⟩⟩
  · rw [← mask]
    refine Flags.and_union_eq sentEntries_bits fun flag member => ?_
    obtain ⟨f, inside, rfl⟩ := List.mem_map.mp member
    exact unchanged.2 f inside
  · have table : ∀ f ∈ sentEntries, ALL_UMODES &&& f.1 = f.1 := by decide
    exact Flags.has_of_and_eq (table f member) same

/-- **User mode propagation.** The peer's copy of a user follows a change exactly when it is none or
relayable, and an introduction always arrives. -/
theorem umode_propagation (x : Client) (old : Flags) (own : x.myClient = true)
    (server : (s.client cptr).isServer = true)
    (known : s.find_person (s.client sptr).name = some sptr)
    (copy : (s.client sptr).umodes = old &&& ALL_UMODES) :
    (((s.hear_umode cptr sptr (send_umode x old ALL_UMODES)).client sptr).umodes =
        x.umodes &&& ALL_UMODES ∧
      (nickModes (introUmode x ALL_UMODES)).umodes = x.umodes &&& ALL_UMODES) ↔
    (x.umodes &&& ALL_UMODES = old &&& ALL_UMODES ∨ Relayable old x.umodes) := by
  rw [and_iff_left (introduced_umodes x)]
  have read := read_send_umode x old ALL_UMODES
    ⟨true, (s.client sptr).umodes, false, s.count.oper, (s.client sptr).flags2⟩
    (s.client sptr).myConnect
  rw [user_modes_sent own, copy] at read
  unfold hear_umode
  split
  · rename_i none_
    have same := (send_umode_nil own old).mp none_
    exact ⟨fun _ => .inl same, fun _ => copy.trans same.symm⟩
  · rename_i some_
    have word : sentEntries.foldl (relayEntry old x.umodes) (old &&& ALL_UMODES) =
        relayed old x.umodes := by
      unfold sentEntries
      rw [List.foldl_append]
      rfl
    rw [user_mode_from_server server known, copy, read]
    show keptModes (sentEntries.foldl _ _) = _ ↔ _
    rw [word, relayed_umodes]
    exact ⟨.inr, fun cases_ => cases_.resolve_left fun same =>
      some_ ((send_umode_nil own old).mpr same)⟩

/-- A user of another server, as that server has it. -/
def sampleOwn (umodes : Flags) : Client := { sampleLocal with name := "ann", umodes := umodes }

/-- A peer of that server, with a copy of the user. -/
def samplePeer (umodes : Flags) : Ircd :=
  ((boot sampleConf 1000 "home").after (.introduce 1 sampleServer)).after
    (.introduce 2 { sampleUser with umodes := umodes })

/-- A user becomes invisible. -/
theorem umode_propagation_invisible :
    (((samplePeer UMODE_WALLOP).hear_umode 1 2 (send_umode
      (sampleOwn (UMODE_WALLOP ||| UMODE_INVISIBLE)) UMODE_WALLOP ALL_UMODES)).client 2).umodes =
        (UMODE_WALLOP ||| UMODE_INVISIBLE) &&& ALL_UMODES := by
  have relayable : Relayable UMODE_WALLOP (UMODE_WALLOP ||| UMODE_INVISIBLE) := by
    refine ⟨by decide, by decide, by decide, by decide, by decide, by decide⟩
  exact ((umode_propagation (sampleOwn (UMODE_WALLOP ||| UMODE_INVISIBLE)) UMODE_WALLOP
    (by decide) (by decide +kernel) (by decide +kernel) (by decide +kernel)).mpr
      (.inr relayable)).1

/-- The services end the operator status of an administrator, who stays one at its own server. -/
theorem not_umode_propagation :
    ((((boot sampleConf 1000 "home").after (.introduce 1 { sampleServer with service := true })).after
      (.introduce 3 (sampleOwn (UMODE_OPER ||| UMODE_ADMIN)))).after
        (.svsmode 1 1 ["hub", "ann", "0", "-o"])).client 3 = sampleOwn UMODE_ADMIN ∧
    (((samplePeer (UMODE_OPER ||| UMODE_ADMIN)).hear_umode 1 2 (send_umode (sampleOwn UMODE_ADMIN)
      (UMODE_OPER ||| UMODE_ADMIN) ALL_UMODES)).client 2).umodes ≠ UMODE_ADMIN &&& ALL_UMODES := by
  refine ⟨by decide +kernel, by decide +kernel⟩

end Ircd

end PtlinkIrcd
