/-
**Servers under masked names.**

`hash_find_server` of `hash.c` looks for the name of a server and then, in a copy of the name, for the
names that a server may have in its place: `foo.bar.edu` may be known as `*.bar.edu` or `*.edu`.

* `wildcards` — these names, the longest first.
* `hash_find_masked_server_eq` — **the loop looks for exactly these**, inside its copy, for every name
  that starts with neither a star nor a dot.
* `hash_find_server_eq` — the whole lookup, in every table that holds its clients.
-/

import PtlinkIrcd.Model.Memory
import PtlinkIrcd.Model.Parse
import PtlinkIrcd.Table.Names

namespace PtlinkIrcd

open Lib

/-- The names with a star for the first labels, fewer labels first. -/
def wildcards : Text → List Text
  | [] => []
  | c :: rest => if c = '.' then ('*' :: c :: rest) :: wildcards rest else wildcards rest

/-- A name that starts with a star or a dot, which is not looked for under masked names. -/
def Starred (name : Text) : Prop := name.head? = some '*' ∨ name.head? = some '.'

instance (name : Text) : Decidable (Starred name) := inferInstanceAs (Decidable (_ ∨ _))

namespace HashTable

variable {α : Type}

/-- The loop of `hash_find_masked_server` from `p` on, in at most so many rounds. -/
def maskedFrom (t : HashTable α) : Nat → Text → Nat → Option (Option α)
  | 0, _, _ => none
  | rounds + 1, buf, p => do
    match ← strchr buf p '.' with
    | none => some none
    | some s =>
      let buf ← storeBefore buf s '*'
      let name ← readString buf (s - 1)
      match t.hash_find_client name none with
      | some server => some (some server)
      | none => maskedFrom t rounds buf (s + 1)

/-- `hash_find_masked_server`, with the memory from the name on and what is in `buf` before. -/
def hash_find_masked_server (t : HashTable α) (name buf : Text) : Option (Option α) := do
  let c ← name[0]?
  if c = '*' ∨ c = '.' then some none
  else
    let buf ← strncpy_irc buf name HOSTLEN
    let buf ← store buf HOSTLEN NUL
    maskedFrom t buf.length buf 0

/-- `hash_find_server`, with the memory from the name on. -/
def hash_find_server (t : HashTable α) (isServer isMe : α → Bool) (name buf : Text) :
    Option (Option α) := do
  let key ← readString name 0
  match (t.table (hashNickName key)).list.find? fun tmp =>
      (isServer tmp || isMe tmp) && irccmp key (t.name tmp).1 = 0 with
  | some tmp => some (some tmp)
  | none => hash_find_masked_server t name buf

section

variable {t : HashTable α} {w after : Text} {rounds : Nat}

theorem wildcards_append (run : Text) (plain : '.' ∉ run) (rest : Text) :
    wildcards (run ++ rest) = wildcards rest := by
  induction run with
  | nil => rfl
  | cons c run ih =>
    rw [List.mem_cons, not_or] at plain
    rw [List.cons_append, wildcards, if_neg (Ne.symm plain.1), ih plain.2]

/-- **The loop looks for the masked names of what is left**, with something before it for the star. -/
theorem maskedFrom_eq (t : HashTable α) (front : Text) (string : NUL ∉ w) (enough : w.length < rounds)
    (before : front ≠ [] ∨ w.head? ≠ some '.') (after : Text) :
    maskedFrom t rounds (front ++ (w ++ NUL :: after)) front.length =
      some ((wildcards w).findSome? fun name => t.hash_find_client name none) := by
  induction rounds generalizing front w with
  | zero => exact absurd enough (Nat.not_lt_zero _)
  | succ rounds ih =>
    rw [maskedFrom]
    rcases run_cases (· ≠ '.') w with all | ⟨run, c, rest, rfl, plain, dot⟩
    · have apart : '.' ∉ w := fun member => absurd (all '.' member) (by decide)
      have none_ : wildcards w = [] := by
        have cut := wildcards_append w apart []
        rwa [List.append_nil] at cut
      rw [strchr_none string apart (by decide), none_]
      rfl
    · obtain rfl : c = '.' := by simpa using dot
      have apart : '.' ∉ run := fun member => absurd (plain '.' member) (by decide)
      have first : NUL ∉ run := fun member => string (List.mem_append_left _ member)
      have later : NUL ∉ rest := fun member =>
        string (List.mem_append_right _ (List.mem_cons_of_mem _ member))
      -- the character in whose place the star is written
      obtain ⟨pre, x, split⟩ : ∃ pre x, front ++ run = pre ++ [x] := by
        refine (List.eq_nil_or_concat' (front ++ run)).resolve_left fun none_ => ?_
        obtain ⟨noFront, noRun⟩ := List.append_eq_nil_iff.mp none_
        rcases before with some_ | other
        · exact some_ noFront
        · rw [noRun] at other
          exact other rfl
      have masked : NUL ∉ '*' :: '.' :: rest := by
        rw [List.mem_cons, List.mem_cons, not_or, not_or]
        exact ⟨by decide, by decide, later⟩
      have found := strchr_some first apart front (rest ++ NUL :: after)
      have place : (front ++ run).length = pre.length + 1 := by rw [split]; simp
      have memory : front ++ (run ++ '.' :: rest ++ NUL :: after) =
          pre ++ x :: ('.' :: rest ++ NUL :: after) := by
        rw [List.append_assoc, ← List.append_assoc, split]
        simp
      have read : readString (pre ++ '*' :: ('.' :: rest ++ NUL :: after)) pre.length =
          some ('*' :: '.' :: rest) := readString_eq pre masked
      have star := storeBefore_eq pre x '*' ('.' :: rest ++ NUL :: after)
      have text : front ++ (run ++ '.' :: rest ++ NUL :: after) =
          front ++ (run ++ '.' :: (rest ++ NUL :: after)) := by simp
      rw [← text, memory, place] at found
      rw [memory, found, Option.bind_eq_bind, Option.bind_some]
      dsimp only
      rw [star, Option.bind_eq_bind, Option.bind_some, Nat.add_sub_cancel, read,
        Option.bind_some, wildcards_append run apart, wildcards, if_pos rfl, List.findSome?_cons]
      cases server : t.hash_find_client ('*' :: '.' :: rest) none with
      | some server => rfl
      | none =>
        have next : pre ++ '*' :: ('.' :: rest ++ NUL :: after) =
            pre ++ ['*', '.'] ++ (rest ++ NUL :: after) := by simp
        have length : pre.length + 1 + 1 = (pre ++ ['*', '.']).length := by simp
        dsimp only
        rw [next, length]
        refine ih (pre ++ ['*', '.']) later ?_ (.inl (by simp))
        rw [List.length_append, List.length_cons] at enough
        omega

theorem copy_name {name buf : Text} (string : NUL ∉ name) (short : name.length ≤ HOSTLEN) (after : Text)
    (size : buf.length = HOSTLEN + 1) :
    ∃ rest, (strncpy_irc buf (name ++ NUL :: after) HOSTLEN).bind (store · HOSTLEN NUL) =
      some (name ++ NUL :: rest) := by
  have plain : ∀ c ∈ name, (c == NUL) = false := fun c member =>
    beq_false_of_ne fun same => string (same ▸ member)
  unfold strncpy_irc
  rw [copyThrough_eq plain (beq_self_eq_true NUL) (by omega), Option.bind_some]
  by_cases whole : name.length = HOSTLEN
  · obtain ⟨b, last⟩ := List.length_eq_one_iff.mp
      (show (buf.drop name.length).length = 1 by rw [List.length_drop]; omega)
    rw [← whole, List.take_left, splice, List.take_zero, List.nil_append, Nat.zero_add, last,
      store_length_append]
    exact ⟨[], rfl⟩
  · obtain ⟨k, gap⟩ : ∃ k, HOSTLEN = name.length + (k + 1) := ⟨HOSTLEN - name.length - 1, by omega⟩
    rw [List.take_of_length_le (by simp; omega), splice, List.take_zero, List.nil_append, store,
      if_pos (by simp; omega), List.append_assoc, gap, List.set_append_right _ _ (Nat.le_add_right ..),
      Nat.add_sub_cancel_left]
    exact ⟨_, rfl⟩

/-- **The lookup under masked names**, for every name that fits: the first of these names that a
client has, unless the name starts with a star or a dot. -/
theorem hash_find_masked_server_eq (t : HashTable α) {name : Text} (string : NUL ∉ name)
    (short : name.length ≤ HOSTLEN) (after : Text) {buf : Text} (size : buf.length = HOSTLEN + 1) :
    t.hash_find_masked_server (name ++ NUL :: after) buf =
      some (if Starred name then none
        else (wildcards name).findSome? fun name => t.hash_find_client name none) := by
  obtain ⟨rest, copied⟩ := copy_name string short after size
  have walk (before : name.head? ≠ some '.') :
      (strncpy_irc buf (name ++ NUL :: after) HOSTLEN).bind (fun buf =>
        (store buf HOSTLEN NUL).bind fun buf => maskedFrom t buf.length buf 0) =
      some ((wildcards name).findSome? fun name => t.hash_find_client name none) := by
    rw [← Option.bind_assoc, copied, Option.bind_some]
    refine maskedFrom_eq t [] string ?_ (.inr before) rest
    rw [List.length_append, List.length_cons]
    omega
  unfold hash_find_masked_server
  cases name with
  | nil =>
    rw [List.nil_append, List.getElem?_cons_zero, Option.bind_eq_bind, Option.bind_some,
      if_neg (by decide), if_neg (by decide)]
    exact walk nofun
  | cons c name =>
    rw [List.cons_append, List.getElem?_cons_zero, Option.bind_eq_bind, Option.bind_some]
    have starred : Starred (c :: name) ↔ c = '*' ∨ c = '.' := by simp [Starred]
    by_cases special : c = '*' ∨ c = '.'
    · rw [if_pos special, if_pos (starred.mpr special)]
    · rw [if_neg special, if_neg (mt starred.mp special)]
      exact walk fun dot => special (.inr (Option.some.inj dot))

theorem find_congr {l : List α} {p q : α → Bool} (same : ∀ a ∈ l, p a = q a) : l.find? p = l.find? q := by
  induction l with
  | nil => rfl
  | cons a l ih =>
    obtain ⟨first, others⟩ := List.forall_mem_cons.mp same
    rw [List.find?_cons, List.find?_cons, first, ih others]

theorem findSome_congr {β γ : Type} {l : List β} {f g : β → Option γ} (same : ∀ b ∈ l, f b = g b) :
    l.findSome? f = l.findSome? g := by
  induction l with
  | nil => rfl
  | cons b l ih =>
    obtain ⟨first, others⟩ := List.forall_mem_cons.mp same
    rw [List.findSome?_cons, List.findSome?_cons, first, ih others]

theorem wildcards_string {name : Text} (string : NUL ∉ name) : ∀ mask ∈ wildcards name, NUL ∉ mask := by
  induction name with
  | nil => nofun
  | cons c rest ih =>
    have later : NUL ∉ rest := List.not_mem_of_not_mem_cons string
    rw [wildcards]
    split
    · refine List.forall_mem_cons.mpr ⟨?_, ih later⟩
      rw [List.mem_cons, not_or]
      exact ⟨by decide, string⟩
    · exact ih later

theorem Holds.search {present : List α} (holds : Holds hashNickName present t) (among : α → Bool)
    (name : CString) :
    ((t.table (hashNickName name.1)).list.find? fun tmp =>
        among tmp && irccmp name.1 (t.name tmp).1 = 0) =
      present.find? fun tmp => among tmp && irccmp name.1 (t.name tmp).1 = 0 := by
  rw [holds.list, List.find?_filter]
  refine congrArg (present.find? ·) (funext fun tmp => ?_)
  by_cases same : irccmp name.1 (t.name tmp).1 = 0
  · simp [same, hashNickName_eq same]
  · simp [same]

/-- **The lookup of a server**, in every table that holds its clients: the server of that name, or the
first client under a masked name. -/
theorem hash_find_server_eq [DecidableEq α] {present : List α} (holds : Holds hashNickName present t)
    (isServer isMe : α → Bool) (name : CString) (short : name.1.length ≤ HOSTLEN) (after : Text)
    {buf : Text} (size : buf.length = HOSTLEN + 1) :
    t.hash_find_server isServer isMe (name.1 ++ NUL :: after) buf =
      some ((present.find? fun tmp =>
          (isServer tmp || isMe tmp) && irccmp name.1 (t.name tmp).1 = 0).or
        (if Starred name.1 then none
          else (wildcards name.1).findSome? fun mask =>
            present.find? fun tmp => irccmp mask (t.name tmp).1 = 0)) := by
  have read : readString (name.1 ++ NUL :: after) 0 = some name.1 := readString_eq [] name.2
  have masked : (wildcards name.1).findSome? (fun mask => t.hash_find_client mask none) =
      (wildcards name.1).findSome? fun mask => present.find? fun tmp => irccmp mask (t.name tmp).1 = 0 :=
    findSome_congr fun mask member => by
      have found := holds.find hashNickName_eq ⟨mask, wildcards_string name.2 mask member⟩ none
      rwa [Option.or_none] at found
  unfold hash_find_server
  rw [read, Option.bind_eq_bind, Option.bind_some, holds.search (fun tmp => isServer tmp || isMe tmp),
    hash_find_masked_server_eq t name.2 short after size, masked]
  cases present.find? _ <;> rfl

/-! ### Servers only -/

/-- **The server that a name stands for**: the one with an equal name, or the first one under a masked
name. -/
def serverNamed (t : HashTable α) (present : List α) (isServer isMe : α → Bool) (name : Text) :
    Option α :=
  let named (name : Text) := present.find? fun tmp =>
    (isServer tmp || isMe tmp) && irccmp name (t.name tmp).1 = 0
  (named name).or ((wildcards name).findSome? named)

/-- No client but a server has a name that starts with a star. -/
def StarsAreServers (t : HashTable α) (present : List α) (isServer isMe : α → Bool) : Prop :=
  ∀ tmp ∈ present, (t.name tmp).1.head? = some '*' → (isServer tmp || isMe tmp) = true

theorem toUpper_eq_star {c : Char} (star : toUpper '*' = toUpper c) : c = '*' := by
  have code := congrArg Char.toNat star
  rw [show toUpper '*' = '*' from rfl, toUpper_toNat, show '*'.toNat = 42 from rfl] at code
  apply Char.toNat_inj.mp
  rw [show '*'.toNat = 42 from rfl]
  split_ifs at code <;> omega

theorem head?_of_mem_wildcards {name mask : Text} (member : mask ∈ wildcards name) :
    mask.head? = some '*' := by
  induction name with
  | nil => cases member
  | cons c rest ih =>
    rw [wildcards] at member
    split at member
    · rcases List.mem_cons.mp member with rfl | later
      · rfl
      · exact ih later
    · exact ih member

/-- Where only servers have names with a star in front, a masked name is looked for among the servers. -/
theorem find_masked {present : List α} {isServer isMe : α → Bool}
    (stars : StarsAreServers t present isServer isMe) {name mask : Text} (string : NUL ∉ name)
    (member : mask ∈ wildcards name) :
    (present.find? fun tmp => irccmp mask (t.name tmp).1 = 0) =
      present.find? fun tmp => (isServer tmp || isMe tmp) && irccmp mask (t.name tmp).1 = 0 := by
  refine find_congr fun tmp inside => ?_
  by_cases same : irccmp mask (t.name tmp).1 = 0
  · have folded := (irccmp_eq_zero_iff (wildcards_string string mask member) (t.name tmp).2).mp same
    have starred : (t.name tmp).1.head? = some '*' := by
      have heads := congrArg List.head? folded
      rw [List.head?_map, List.head?_map, head?_of_mem_wildcards member] at heads
      cases first : (t.name tmp).1.head? with
      | none => rw [first] at heads; cases heads
      | some c => rw [first] at heads; rw [toUpper_eq_star (Option.some.inj heads)]
    simp [same, stars tmp inside starred]
  · simp [same]

/-- **The lookup of a server**, for every table and every name that fits. A name with a star or a dot in
front is looked for as it is. Any other is looked for under its masked names as well, and where only
servers have names with a star in front that finds the server that the name stands for. -/
theorem hash_find_server_spec [DecidableEq α] {present : List α} (holds : Holds hashNickName present t)
    (isServer isMe : α → Bool) (name : CString) (short : name.1.length ≤ HOSTLEN) (after : Text)
    {buf : Text} (size : buf.length = HOSTLEN + 1) :
    (Starred name.1 → t.hash_find_server isServer isMe (name.1 ++ NUL :: after) buf =
      some (present.find? fun tmp =>
        (isServer tmp || isMe tmp) && irccmp name.1 (t.name tmp).1 = 0)) ∧
    (¬ Starred name.1 → t.hash_find_server isServer isMe (name.1 ++ NUL :: after) buf =
      some ((present.find? fun tmp =>
          (isServer tmp || isMe tmp) && irccmp name.1 (t.name tmp).1 = 0).or
        ((wildcards name.1).findSome? fun mask =>
          present.find? fun tmp => irccmp mask (t.name tmp).1 = 0))) ∧
    (¬ Starred name.1 → StarsAreServers t present isServer isMe →
      t.hash_find_server isServer isMe (name.1 ++ NUL :: after) buf =
        some (t.serverNamed present isServer isMe name.1)) := by
  have found := hash_find_server_eq holds isServer isMe name short after size
  refine ⟨fun starred => ?_, fun other => ?_, fun other stars => ?_⟩
  · rw [found, if_pos starred, Option.or_none]
  · rw [found, if_neg other]
  · rw [found, if_neg other]
    refine congrArg (fun masked => some (Option.or _ masked)) ?_
    exact findSome_congr fun mask member => find_masked stars name.2 member

end

def sampleMasked : HashTable Unit := run hashNickName (fun _ => ⟨"*.c".toList, by decide⟩) [.add ()]

theorem sampleMasked_holds : Holds hashNickName [()] sampleMasked :=
  have added : Obeys [] [TableCall.add ()] := by decide
  holds_run hashNickName _ added

/-- The server `*.c` is found as `a.b.c`. -/
theorem hash_find_server_spec_masked :
    sampleMasked.hash_find_server (fun _ => true) (fun _ => false) ("a.b.c".toList ++ NUL :: [])
      (List.replicate (HOSTLEN + 1) NUL) =
        some (sampleMasked.serverNamed [()] (fun _ => true) (fun _ => false) "a.b.c".toList) :=
  (hash_find_server_spec sampleMasked_holds (fun _ => true) (fun _ => false)
    ⟨"a.b.c".toList, by decide⟩ (by decide) [] (List.length_replicate ..)).2.2 (by unfold Starred; decide)
      (fun _ _ _ => rfl)

/-- **The server `*.c` is not found as `*.b.c`.** -/
theorem not_hash_find_server : ¬ ∀ (t : HashTable Unit) (present : List Unit),
    Holds hashNickName present t → ∀ (isServer isMe : Unit → Bool) (name : CString),
    name.1.length ≤ HOSTLEN → ∀ after buf : Text, buf.length = HOSTLEN + 1 →
      t.hash_find_server isServer isMe (name.1 ++ NUL :: after) buf =
        some (t.serverNamed present isServer isMe name.1) := by
  intro finds
  have size : (List.replicate (HOSTLEN + 1) NUL).length = HOSTLEN + 1 := List.length_replicate ..
  have found := finds sampleMasked [()] sampleMasked_holds (fun _ => true) (fun _ => false)
    ⟨"*.b.c".toList, by decide⟩ (by decide) [] _ size
  rw [hash_find_server_eq sampleMasked_holds (fun _ => true) (fun _ => false)
    ⟨"*.b.c".toList, by decide⟩ (by decide) [] size] at found
  exact absurd found (by decide)

/-- The masked names are the parts of a name from its dots on, each with a star. -/
theorem wildcards_eq (name : Text) :
    wildcards name = (name.tails.filter fun t => t.head? = some '.').map ('*' :: ·) := by
  induction name with
  | nil => rfl
  | cons c rest ih =>
    rw [wildcards, List.tails_cons, List.filter_cons, ih]
    by_cases dot : c = '.' <;> simp [dot]

/-- **A lookup in the table is the lookup of the state** over the same chains and names. -/
theorem find_server_eq {t : HashTable ClientId} {s : Ircd} (chains : t.chains = s.clientTable)
    (names : ∀ cptr, (t.name cptr).1 = (s.client cptr).name) (name : CString)
    (short : name.1.length ≤ HOSTLEN) (after : Text) {buf : Text} (size : buf.length = HOSTLEN + 1) :
    t.hash_find_server (fun cptr => (s.client cptr).isServer) (fun cptr => (s.client cptr).isMe)
      (name.1 ++ NUL :: after) buf = some (s.find_server name.1) := by
  have read : readString (name.1 ++ NUL :: after) 0 = some name.1 := readString_eq [] name.2
  have masked : (if Starred name.1 then none
      else (wildcards name.1).findSome? fun name => t.hash_find_client name none) =
        s.hash_find_masked_server name.1 := by
    unfold Ircd.hash_find_masked_server
    rw [List.take_of_length_le short, wildcards_eq, List.findSome?_map]
    exact if_congr Iff.rfl rfl (findSome_congr fun t' _ => find_client_eq chains names _)
  unfold hash_find_server Ircd.find_server Lib.ChainTable.find
  rw [read, Option.bind_eq_bind, Option.bind_some, hash_find_masked_server_eq t name.2 short after size,
    masked, ← chains]
  simp only [names, HashTable.chains]
  cases List.find? _ _ <;> rfl

end HashTable

end PtlinkIrcd
