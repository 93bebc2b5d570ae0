/-
**The filters of LIST.**

What the options of `LIST` mean by its usage text, and which channels `send_list` shows.

* `ListOption` — an option as the usage text has it; `Asked` — a channel that the options ask for.
* `ListServer.sent` — every channel of the table in the order of `send_list`, and whether it is shown.
* `parse_options` — `m_list` keeps the last bound of each kind, and all masks.
* `masksLeft` — the masks from the first one that matches a name on; `find_str_match_link_eq` — what a
  search leaves is that, so that the masks left for a channel follow from the names before it.
* `ListFault` — a bound that is not what was given, or masks of which the ones that matter are gone.
* `list_filters_iff` — **the channels that are shown are those asked for exactly if none has a fault**.
-/

import Mathlib.Data.List.TakeWhile
import PtlinkIrcd.Channel.ListOptions

namespace PtlinkIrcd

/-! ### Options -/

/-- What a number bounds. -/
inductive ListBound
  /-- `>` -/
  | moreUsers
  /-- `<` -/
  | lessUsers
  /-- `C>` -/
  | createdSince
  /-- `C<` -/
  | createdBefore
  /-- `T>` -/
  | topicBefore
  /-- `T<` -/
  | topicSince
  deriving DecidableEq

/-- An option of the usage text. -/
inductive ListOption
  | bound (kind : ListBound) (number : Text)
  | mask (mask : Text)
  | negated (mask : Text)

namespace ListOption

/-- The option that an element of the parameters is. -/
def ofText : Text → Option ListOption
  | [] => none
  | c :: rest =>
    if c = '>' then some (.bound .moreUsers rest)
    else if c = '<' then some (.bound .lessUsers rest)
    else if c = 't' ∨ c = 'T' then
      match rest with
      | '>' :: number => some (.bound .topicBefore number)
      | '<' :: number => some (.bound .topicSince number)
      | _ => none
    else if c = 'c' ∨ c = 'C' then
      match rest with
      | '>' :: number => some (.bound .createdSince number)
      | '<' :: number => some (.bound .createdBefore number)
      | _ => none
    else if c = '!' then some (.negated rest)
    else if '*' ∈ c :: rest ∨ '?' ∈ c :: rest then some (.mask (c :: rest))
    else none

/-- The options of a `LIST`; without any, the first parameter is missing or empty, and a question mark
alone asks for the usage text. -/
def read (parv : List Text) : Option (List ListOption) :=
  if parv.length = 2 ∧ strcasecmp (parv.getD 1 []) "?" = 0 then none
  else if parv.getD 1 [] = [] then some []
  else ((parv.tail.flatMap (strtoken ',')).mapM ofText).filter (· ≠ [])

def number (kind : ListBound) : ListOption → Option Text
  | .bound kind' number => if kind' = kind then some number else none
  | _ => none

end ListOption

def listMasks (opts : List ListOption) : List Text :=
  opts.filterMap fun o => match o with | .mask mask => some mask | _ => none

def listNegated (opts : List ListOption) : List Text :=
  opts.filterMap fun o => match o with | .negated mask => some mask | _ => none

def lastNumber (kind : ListBound) : List ListOption → Option Text
  | [] => none
  | o :: opts => (lastNumber kind opts).or (o.number kind)

/-! ### What the options ask for -/

def ListedChannel.visible (chptr : ListedChannel) : Int := chptr.users - chptr.iusers

/-- A mask matches the name or the topic. -/
def ListedChannel.matchedBy (chptr : ListedChannel) (mask : Text) : Bool :=
  ircMatch mask chptr.chname || ircMatch mask chptr.topic

/-- A client that is no operator may see a channel. -/
def Lister.sees (cptr : Lister) (chptr : ListedChannel) : Bool :=
  cptr.user && !(chptr.mode.has MODE_SECRET && !cptr.member chptr)

def ListBound.Holds (now : Int) (chptr : ListedChannel) (n : Int) : ListBound → Prop
  | .moreUsers => n < chptr.visible
  | .lessUsers => chptr.visible < n
  | .createdSince => now - 60 * n ≤ chptr.channelts ∧ chptr.channelts ≤ now
  | .createdBefore => chptr.channelts < now - 60 * n
  | .topicBefore => chptr.topic_time ≤ now - 60 * n
  | .topicSince => now - 60 * n ≤ chptr.topic_time

def BoundsHold (now : Int) (opts : List ListOption) (chptr : ListedChannel) : Prop :=
  ∀ kind number, ListOption.bound kind number ∈ opts → kind.Holds now chptr (strtol number)

/-- **The options ask for a channel.** -/
structure Asked (now : Int) (opts : List ListOption) (chptr : ListedChannel) : Prop where
  bounds : BoundsHold now opts chptr
  negated : ∀ mask ∈ listNegated opts, chptr.matchedBy mask = false
  masks : listMasks opts ≠ [] → ∃ mask ∈ listMasks opts, chptr.matchedBy mask = true

/-! ### What is sent -/

/-- The channels of the table, in the order of the loops. -/
def ListServer.channels (me : ListServer) : List ListedChannel :=
  (List.range CH_MAX).flatMap fun i => (me.table i).list

/-- The channels, and whether each is shown. -/
def LOpts.visits (cptr : Lister) : LOpts → List ListedChannel → List (ListedChannel × Bool)
  | _, [] => []
  | l, chptr :: rest =>
    let seen := l.examine cptr chptr
    (chptr, seen.1) :: visits cptr seen.2 rest

namespace ListServer

variable (me : ListServer) (cptr : Lister)

/-- The options with which `m_list` starts a list. -/
def options (parv : List Text) : Option LOpts :=
  if parv.length = 2 ∧ strcasecmp (parv.getD 1 []) "?" = 0 then none
  else if parv.getD 1 [] = [] then some (.all me)
  else
    match ListRequest.parse me cptr parv with
    | .error _ => none
    | .ok r => if r.lists me.CurrentTime then some r.lopt else none

/-- The channels of the table, and whether the client is sent a line for each. -/
def sent (parv : List Text) : List (ListedChannel × Bool) :=
  match me.options cptr parv with
  | none => me.channels.map fun chptr => (chptr, false)
  | some l => l.visits cptr me.channels

/-! ### The bounds in force -/

/-- The least number of users that is too few. -/
def usersFloor (opts : List ListOption) : Int :=
  if opts = [] then (if me.RestrictedChans then 0 else 1)
  else ((lastNumber .moreUsers opts).map fun n => short (strtol n) % 2 ^ 16).getD 0

def timeOf (kind : ListBound) (default : Int) (opts : List ListOption) : Int :=
  ((lastNumber kind opts).map (minutesAgo me.CurrentTime)).getD default

/-- **The bounds in force**: of each kind the last one, with its number as it is stored, and a default
where none is given. A time for `C>` has no effect or lets no channel through. -/
structure InForce (opts : List ListOption) (chptr : ListedChannel) : Prop where
  more : me.usersFloor opts < chptr.visible
  less : ∀ n ∈ lastNumber .lessUsers opts, short (strtol n) ≠ -1 → chptr.visible < short (strtol n)
  createdSince : me.timeOf .createdSince 0 opts < 1
  createdBefore : chptr.channelts < me.timeOf .createdBefore (me.CurrentTime + 86400) opts
  topicSince : me.timeOf .topicSince 0 opts ≤ chptr.topic_time
  topicBefore : chptr.topic_time ≤ me.timeOf .topicBefore (me.CurrentTime + 86400) opts
  lists : opts ≠ [] → me.timeOf .createdSince 0 opts ≤ me.CurrentTime ∧
    me.timeOf .topicSince 0 opts ≤ me.CurrentTime

def optionsOf (opts : List ListOption) : LOpts where
  showall := false
  usermin := (me.usersFloor opts).toNat
  usermax := ((lastNumber .lessUsers opts).map fun n => short (strtol n)).getD (-1)
  chantimemin := me.timeOf .createdSince 0 opts
  chantimemax := me.timeOf .createdBefore (me.CurrentTime + 86400) opts
  topictimemin := me.timeOf .topicSince 0 opts
  topictimemax := me.timeOf .topicBefore (me.CurrentTime + 86400) opts
  yeslist := (listMasks opts).reverse
  nolist := (listNegated opts).reverse

end ListServer

/-! ### The masks that are left -/

/-- The masks from the first one on that matches a name; the last mask if none does. -/
def masksLeft (masks : List Text) (name : Text) : List Text :=
  if masks.any fun mask => ircMatch mask name then masks.dropWhile fun mask => !ircMatch mask name
  else masks.getLast?.toList

/-- One of the masks matches the name, or the last one matches the topic. -/
def ListedChannel.foundBy (chptr : ListedChannel) (masks : List Text) : Bool :=
  (masks.any fun mask => ircMatch mask chptr.chname) ||
    masks.getLast?.any fun mask => ircMatch mask chptr.topic

/-- The names that are searched for among the other masks: those of channels that no negated mask is
found for. -/
def namesSpared : List Text → List ListedChannel → List Text
  | _, [] => []
  | negated, chptr :: rest =>
    (if chptr.foundBy negated then [] else [chptr.chname]) ++
      namesSpared (masksLeft negated chptr.chname) rest

section Left

open Classical in
/-- The channels that are searched for: those that the client sees and that are within the bounds in
force. -/
noncomputable def looked (me : ListServer) (cptr : Lister) (opts : List ListOption)
    (channels : List ListedChannel) : List ListedChannel :=
  channels.filter fun chptr => cptr.sees chptr = true ∧ me.InForce opts chptr

variable (me : ListServer) (cptr : Lister) (opts : List ListOption) (before : List ListedChannel)

noncomputable def negatedLeft : List Text :=
  ((looked me cptr opts before).map ListedChannel.chname).foldl masksLeft (listNegated opts).reverse

noncomputable def yesLeft : List Text :=
  (namesSpared (listNegated opts).reverse (looked me cptr opts before)).foldl masksLeft
    (listMasks opts).reverse

end Left

/-- **What is wrong with how a channel is judged**, where `before` are the channels before it. -/
inductive ListFault (me : ListServer) (cptr : Lister) (opts : List ListOption)
    (before : List ListedChannel) (chptr : ListedChannel) : Prop
  /-- It is asked for, but not within the bounds in force. -/
  | hidden : Asked me.CurrentTime opts chptr → ¬ me.InForce opts chptr → ListFault ..
  /-- It is asked for, but the masks that match it are gone. -/
  | lost : Asked me.CurrentTime opts chptr → listMasks opts ≠ [] →
      chptr.foundBy (yesLeft me cptr opts before) = false → ListFault ..
  /-- It is let through, but not within the bounds that are given. -/
  | unbounded : ¬ BoundsHold me.CurrentTime opts chptr → me.InForce opts chptr →
      chptr.foundBy (negatedLeft me cptr opts before) = false →
      (listMasks opts ≠ [] → chptr.foundBy (yesLeft me cptr opts before) = true) → ListFault ..
  /-- It is let through, but the negated masks that match it are gone. -/
  | escaped {mask : Text} : mask ∈ listNegated opts → chptr.matchedBy mask = true →
      me.InForce opts chptr → chptr.foundBy (negatedLeft me cptr opts before) = false →
      (listMasks opts ≠ [] → chptr.foundBy (yesLeft me cptr opts before) = true) → ListFault ..

/-! ### The parameters -/

/-- What an option does to the variables of `m_list`. -/
def ListRequest.option (now : Int) (r : ListRequest) : ListOption → ListRequest
  | .bound .moreUsers n => { r with showall := true, usermin := short (strtol n) }
  | .bound .lessUsers n => { r with showall := true, usermax := short (strtol n) }
  | .bound .createdSince n => { r with showall := true, chantimemin := minutesAgo now n }
  | .bound .createdBefore n => { r with showall := true, chantimemax := minutesAgo now n }
  | .bound .topicBefore n => { r with showall := true, topictimemax := minutesAgo now n }
  | .bound .topicSince n => { r with showall := true, topictimemin := minutesAgo now n }
  | .mask mask => { r with showall := true, yeslist := mask :: r.yeslist }
  | .negated mask => { r with showall := true, nolist := mask :: r.nolist }

section Parse

variable {me : ListServer} {cptr : Lister} {opts : List ListOption} {parv : List Text}

theorem element_of_ofText {name : Text} {o : ListOption} (is : ListOption.ofText name = some o)
    (r : ListRequest) : ListRequest.element me cptr r name = .ok (r.option me.CurrentTime o) := by
  cases name with
  | nil => cases is
  | cons c rest =>
    unfold ListOption.ofText at is
    dsimp only at is
    split_ifs at is with more less topic created not_ wild
    · cases more
      cases is
      rfl
    · cases less
      cases is
      rfl
    · split at is
      · cases is
        rcases topic with rfl | rfl <;> rfl
      · cases is
        rcases topic with rfl | rfl <;> rfl
      · cases is
    · split at is
      · cases is
        rcases created with rfl | rfl <;> rfl
      · cases is
        rcases created with rfl | rfl <;> rfl
      · cases is
    all_goals
      have head : ListRequest.element me cptr r (c :: rest) = .ok (r.mask me cptr (c :: rest)) := by
        unfold ListRequest.element
        split
        · rename_i start
          exact absurd (List.cons.inj start).1 more
        · rename_i start
          exact absurd (List.cons.inj start).1 less
        · rename_i start
          obtain ⟨rfl, rfl⟩ := List.cons.inj start
          rw [if_neg topic, if_neg created]
        · rename_i start
          cases start
      cases is
      rw [head, ListRequest.mask, List.head?_cons]
    · rw [if_pos (congrArg some not_)]
      rfl
    · rw [if_neg fun start => not_ (Option.some.inj start), if_pos wild]
      rfl

theorem lastNumber_bound (kind kind' : ListBound) (number : Text) (opts : List ListOption) :
    lastNumber kind (.bound kind' number :: opts) =
      (lastNumber kind opts).or (if kind' = kind then some number else none) := rfl

/-- **The last bound of each kind is kept**, and all masks, the last one in front. -/
theorem foldl_option (now : Int) (opts : List ListOption) (r : ListRequest) :
    opts.foldl (ListRequest.option now) r =
      { showall := r.showall || opts ≠ []
        yeslist := (listMasks opts).reverse ++ r.yeslist
        nolist := (listNegated opts).reverse ++ r.nolist
        usermin := ((lastNumber .moreUsers opts).map fun n => short (strtol n)).getD r.usermin
        usermax := ((lastNumber .lessUsers opts).map fun n => short (strtol n)).getD r.usermax
        chantimemin := ((lastNumber .createdSince opts).map (minutesAgo now)).getD r.chantimemin
        chantimemax := ((lastNumber .createdBefore opts).map (minutesAgo now)).getD r.chantimemax
        topictimemin := ((lastNumber .topicSince opts).map (minutesAgo now)).getD r.topictimemin
        topictimemax := ((lastNumber .topicBefore opts).map (minutesAgo now)).getD r.topictimemax
        named := r.named } := by
  induction opts generalizing r with
  | nil => simp [listMasks, listNegated, lastNumber]
  | cons o opts ih =>
    rw [List.foldl_cons, ih]
    cases o with
    | bound kind number =>
      cases kind <;>
        simp [ListRequest.option, lastNumber_bound, listMasks, listNegated]
    | mask mask =>
      simp [ListRequest.option, lastNumber, ListOption.number, listMasks, listNegated]
    | negated mask =>
      simp [ListRequest.option, lastNumber, ListOption.number, listMasks, listNegated]

theorem parse_of_mapM {names : List Text} (read : names.mapM ListOption.ofText = some opts)
    (r : ListRequest) :
    names.foldlM (ListRequest.element me cptr) r =
      .ok (opts.foldl (ListRequest.option me.CurrentTime) r) := by
  induction names generalizing r opts with
  | nil =>
    cases read
    rfl
  | cons name names ih =>
    rw [List.mapM_cons] at read
    obtain ⟨o, is, read⟩ := Option.bind_eq_some_iff.mp read
    obtain ⟨opts', rest, read⟩ := Option.bind_eq_some_iff.mp read
    cases read
    rw [List.foldlM_cons, element_of_ofText is]
    exact ih rest _

/-- **The options with which a list starts.** -/
theorem parse_options (read : ListOption.read parv = some opts) :
    me.options cptr parv =
      if opts ≠ [] → me.timeOf .createdSince 0 opts ≤ me.CurrentTime ∧
        me.timeOf .topicSince 0 opts ≤ me.CurrentTime then some (me.optionsOf opts) else none := by
  unfold ListOption.read at read
  unfold ListServer.options
  split_ifs at read with usage none_
  · cases read
    rw [if_neg usage, if_pos none_, if_pos nofun]
    unfold LOpts.all ListServer.optionsOf ListServer.usersFloor
    rw [if_pos rfl]
    congr 2
    split_ifs <;> rfl
  · obtain ⟨read, some_⟩ := Option.filter_eq_some_iff.mp read
    have some_ : opts ≠ [] := of_decide_eq_true some_
    rw [if_neg usage, if_neg none_, ListRequest.parse, parse_of_mapM read, foldl_option]
    dsimp only
    have lists : ∀ r : ListRequest, r.showall = true → (r.lists me.CurrentTime = true ↔
        r.chantimemin ≤ me.CurrentTime ∧ r.topictimemin ≤ me.CurrentTime) := by
      intro r showall
      simp [ListRequest.lists, showall]
    rw [if_congr (lists _ (by simp [some_])) rfl rfl]
    refine if_congr (by simp [some_, ListServer.timeOf, ListRequest.start]) ?_ rfl
    simp only [ListRequest.lopt, ListServer.optionsOf, ListServer.usersFloor, ListServer.timeOf,
      ListRequest.start, if_neg some_, List.append_nil]
    congr 2
    cases lastNumber .moreUsers opts <;> rfl

end Parse

/-! ### The searches -/

theorem find_str_match_link_suffix (masks : List Text) (str : Text) :
    (find_str_match_link masks str).2 <:+ masks := by
  fun_induction find_str_match_link masks str with
  | case1 => exact List.suffix_refl _
  | case2 => exact List.suffix_refl _
  | case3 => exact List.suffix_refl _
  | case4 mask next rest str miss ih => exact ih.trans (List.suffix_cons mask _)

theorem find_str_match_link_iff (masks : List Text) (str : Text) :
    (find_str_match_link masks str).1 = true ↔ ∃ mask ∈ masks, ircMatch mask str = true := by
  fun_induction find_str_match_link masks str with
  | case1 => exact iff_of_false nofun (by simp)
  | case2 => simp
  | case3 mask next rest str found => exact iff_of_true rfl ⟨mask, List.mem_cons_self, found⟩
  | case4 mask next rest str miss ih =>
    refine ih.trans ?_
    conv_rhs => rw [List.exists_mem_cons_iff, or_iff_right miss]

/-- **What a search does.** -/
theorem find_str_match_link_eq (masks : List Text) (str : Text) :
    find_str_match_link masks str = (masks.any fun mask => ircMatch mask str, masksLeft masks str) := by
  unfold masksLeft
  fun_induction find_str_match_link masks str with
  | case1 => rfl
  | case2 mask str => cases here : ircMatch mask str <;> simp [here]
  | case3 mask next rest str here => simp [here]
  | case4 mask next rest str miss ih =>
    rw [Bool.not_eq_true] at miss
    rw [ih, List.any_cons (a := mask), miss, Bool.false_or,
      List.dropWhile_cons_of_pos (a := mask) (by rw [miss]; rfl), List.getLast?_cons_cons]

theorem findChannel_eq (masks : List Text) (chptr : ListedChannel) :
    findChannel masks chptr = (chptr.foundBy masks, masksLeft masks chptr.chname) := by
  unfold findChannel ListedChannel.foundBy
  dsimp only
  simp only [find_str_match_link_eq]
  cases byName : masks.any fun mask => ircMatch mask chptr.chname with
  | true => rfl
  | false =>
    unfold masksLeft
    simp only [byName, Bool.false_eq_true, if_false, Bool.false_or]
    cases masks.getLast? with
    | none => rfl
    | some last => cases here : ircMatch last chptr.topic <;> simp [here]

theorem masksLeft_subset (masks : List Text) (name : Text) : masksLeft masks name ⊆ masks := by
  unfold masksLeft
  split
  · exact (List.dropWhile_suffix _).subset
  · intro mask member
    exact List.mem_of_getLast? (Option.mem_toList.mp member)

theorem masksLeft_eq_nil {masks : List Text} {name : Text} : masksLeft masks name = [] ↔ masks = [] := by
  unfold masksLeft
  split
  · rename_i found
    obtain ⟨mask, member, here⟩ := List.any_eq_true.mp found
    refine iff_of_false (fun none_ => ?_) (List.ne_nil_of_mem member)
    have gone := List.dropWhile_eq_nil_iff.mp none_ mask member
    rw [here] at gone
    cases gone
  · cases masks <;> simp

theorem foldl_masksLeft_eq_nil (names : List Text) :
    ∀ masks, names.foldl masksLeft masks = [] ↔ masks = [] := by
  induction names with
  | nil => exact fun _ => Iff.rfl
  | cons name names ih => exact fun masks => (ih _).trans masksLeft_eq_nil

theorem foldl_masksLeft_subset (names : List Text) :
    ∀ masks, names.foldl masksLeft masks ⊆ masks := by
  induction names with
  | nil => exact fun _ _ member => member
  | cons name names ih => exact fun masks _ member => masksLeft_subset _ _ (ih _ member)

theorem matched_of_foundBy {masks : List Text} {chptr : ListedChannel}
    (found : chptr.foundBy masks = true) : ∃ mask ∈ masks, chptr.matchedBy mask = true := by
  unfold ListedChannel.foundBy at found
  unfold ListedChannel.matchedBy
  rcases (Bool.or_eq_true _ _).mp found with byName | byTopic
  · obtain ⟨mask, member, here⟩ := List.any_eq_true.mp byName
    exact ⟨mask, member, by rw [here, Bool.true_or]⟩
  · obtain ⟨mask, last, here⟩ := (Option.any_eq_true _ _).mp byTopic
    exact ⟨mask, List.mem_of_getLast? last, by rw [here, Bool.or_true]⟩

/-! ### The channels one after the other -/

section Visits

variable {cptr : Lister}

/-- The options after the searches for some channels. -/
def LOpts.after (cptr : Lister) (l : LOpts) (seen : List ListedChannel) : LOpts :=
  seen.foldl (fun l chptr => (l.examine cptr chptr).2) l

/-- **One look at a channel.** -/
theorem examine_eq (l : LOpts) (chptr : ListedChannel) : l.examine cptr chptr =
    (listable cptr l.toListOptions chptr && !chptr.foundBy l.nolist &&
        (l.yeslist.isEmpty || chptr.foundBy l.yeslist),
      if listable cptr l.toListOptions chptr then
        { l with
          nolist := masksLeft l.nolist chptr.chname
          yeslist := if chptr.foundBy l.nolist then l.yeslist else masksLeft l.yeslist chptr.chname }
      else l) := by
  unfold LOpts.examine
  simp only [findChannel_eq]
  cases listable cptr l.toListOptions chptr with
  | false => rfl
  | true =>
    cases chptr.foundBy l.nolist with
    | true => rfl
    | false =>
      cases none_ : l.yeslist with
      | nil => rfl
      | cons mask rest => simp

/-- **What all the looks leave**: the bounds, and the masks that the names lead to. -/
theorem after_eq (l : LOpts) (seen : List ListedChannel) : l.after cptr seen =
    { l with
      nolist := ((seen.filter (listable cptr l.toListOptions)).map ListedChannel.chname).foldl masksLeft
        l.nolist
      yeslist := (namesSpared l.nolist (seen.filter (listable cptr l.toListOptions))).foldl masksLeft
        l.yeslist } := by
  induction seen generalizing l with
  | nil => rfl
  | cons chptr seen ih =>
    show LOpts.after cptr (l.examine cptr chptr).2 seen = _
    rw [ih, examine_eq]
    cases looked : listable cptr l.toListOptions chptr with
    | false => simp only [Bool.false_eq_true, if_false, List.filter_cons, looked]
    | true =>
      simp only [if_true, List.filter_cons, looked, List.map_cons, List.foldl_cons, namesSpared,
        List.foldl_append]
      cases chptr.foundBy l.nolist <;> rfl

theorem visits_iff (P : ListedChannel → Bool → Prop) (seen : List ListedChannel) (l : LOpts) :
    (∀ v ∈ l.visits cptr seen, P v.1 v.2) ↔ ∀ before chptr rest, seen = before ++ chptr :: rest →
      P chptr ((l.after cptr before).examine cptr chptr).1 := by
  induction seen generalizing l with
  | nil => exact iff_of_true nofun fun before chptr rest parts => by simp at parts
  | cons c seen ih =>
    rw [LOpts.visits, List.forall_mem_cons, ih]
    constructor
    · rintro ⟨first, later⟩ before chptr rest parts
      cases before with
      | nil =>
        obtain ⟨rfl, rfl⟩ := List.cons.inj parts
        exact first
      | cons b before =>
        obtain ⟨rfl, rfl⟩ := List.cons.inj parts
        exact later before chptr rest rfl
    · intro all
      exact ⟨all [] c seen rfl, fun before chptr rest parts =>
        all (c :: before) chptr rest (congrArg (c :: ·) parts)⟩

end Visits

/-! ### The channels that are shown -/

section Filters

variable {me : ListServer} {cptr : Lister} {opts : List ListOption} {parv : List Text}

theorem usersFloor_nonneg (me : ListServer) (opts : List ListOption) : 0 ≤ me.usersFloor opts := by
  unfold ListServer.usersFloor
  split_ifs
  · exact le_rfl
  · exact Int.one_nonneg
  · cases lastNumber .moreUsers opts with
    | none => exact le_rfl
    | some n => exact Int.emod_nonneg _ (by decide)

/-- **What the bounds in force let through.** -/
theorem listable_iff (unprivileged : cptr.oper = false) (chptr : ListedChannel) :
    (opts ≠ [] → me.timeOf .createdSince 0 opts ≤ me.CurrentTime ∧
        me.timeOf .topicSince 0 opts ≤ me.CurrentTime) ∧
      listable cptr (me.optionsOf opts).toListOptions chptr = true ↔
        cptr.sees chptr = true ∧ me.InForce opts chptr := by
  have floor : ((me.usersFloor opts).toNat : Int) = me.usersFloor opts :=
    Int.toNat_of_nonneg (usersFloor_nonneg me opts)
  have ceiling : (((lastNumber .lessUsers opts).map fun n => short (strtol n)).getD (-1) = -1 ∨
      chptr.visible < ((lastNumber .lessUsers opts).map fun n => short (strtol n)).getD (-1)) ↔
        ∀ n ∈ lastNumber .lessUsers opts, short (strtol n) ≠ -1 →
          chptr.visible < short (strtol n) := by
    cases lastNumber .lessUsers opts with
    | none => exact iff_of_true (.inl rfl) nofun
    | some n =>
      simp only [Option.map_some, Option.getD_some, Option.mem_def, Option.some.injEq, forall_eq']
      exact or_iff_not_imp_left
  have shown : listable cptr (me.optionsOf opts).toListOptions chptr = true ↔
      cptr.sees chptr = true ∧ me.usersFloor opts < chptr.visible ∧
        (∀ n ∈ lastNumber .lessUsers opts, short (strtol n) ≠ -1 →
          chptr.visible < short (strtol n)) ∧
          me.timeOf .createdSince 0 opts < 1 ∧ me.timeOf .topicSince 0 opts ≤ chptr.topic_time ∧
            chptr.channelts < me.timeOf .createdBefore (me.CurrentTime + 86400) opts ∧
              chptr.topic_time ≤ me.timeOf .topicBefore (me.CurrentTime + 86400) opts := by
    rw [← ceiling]
    unfold listable ListServer.optionsOf Lister.sees
    dsimp only
    rw [floor, unprivileged, ← ListedChannel.visible]
    simp only [Bool.not_false, Bool.true_and, Bool.and_eq_true, Bool.not_eq_true', Bool.or_eq_false_iff,
      Bool.and_eq_false_iff, decide_eq_false_iff_not, not_le, not_lt, Bool.not_eq_false', and_assoc,
      not_not, ne_eq]
  rw [shown]
  constructor
  · rintro ⟨lists, sees, more, less, createdSince, topicSince, createdBefore, topicBefore⟩
    exact ⟨sees, more, less, createdSince, createdBefore, topicSince, topicBefore, lists⟩
  · rintro ⟨sees, more, less, createdSince, createdBefore, topicSince, topicBefore, lists⟩
    exact ⟨lists, sees, more, less, createdSince, topicSince, createdBefore, topicBefore⟩

/-- **The client gets a line for a channel** that it sees, that is within the bounds in force, and that the
masks which are left let through. -/
theorem sent_iff (unprivileged : cptr.oper = false) (read : ListOption.read parv = some opts)
    (P : ListedChannel → Prop → Prop) :
    (∀ v ∈ me.sent cptr parv, P v.1 (v.2 = true)) ↔
      ∀ before chptr rest, me.channels = before ++ chptr :: rest →
        P chptr ((cptr.sees chptr = true ∧ me.InForce opts chptr) ∧
          chptr.foundBy (negatedLeft me cptr opts before) = false ∧
          (listMasks opts ≠ [] → chptr.foundBy (yesLeft me cptr opts before) = true)) := by
  have shown := @listable_iff me cptr opts unprivileged
  unfold ListServer.sent
  rw [parse_options read]
  split_ifs with lists
  · refine (visits_iff (fun c b => P c (b = true)) _ _).trans ?_
    refine forall₃_congr fun before chptr rest => forall_congr' fun _ => ?_
    classical
    have same : before.filter (listable cptr (me.optionsOf opts).toListOptions) =
        looked me cptr opts before := by
      unfold looked
      refine List.filter_congr fun c _ => ?_
      rw [Bool.eq_iff_iff, decide_eq_true_eq, ← shown c, and_iff_right lists]
    rw [after_eq, same, examine_eq, ← shown chptr, and_iff_right lists]
    dsimp only
    have none_ : (yesLeft me cptr opts before).isEmpty = true ↔ listMasks opts = [] := by
      rw [List.isEmpty_iff, yesLeft, foldl_masksLeft_eq_nil, List.reverse_eq_nil_iff]
    have masks : ((yesLeft me cptr opts before).isEmpty ||
        chptr.foundBy (yesLeft me cptr opts before)) = true ↔
          (listMasks opts ≠ [] → chptr.foundBy (yesLeft me cptr opts before) = true) := by
      rw [Bool.or_eq_true, none_, ne_eq, or_iff_not_imp_left]
    rw [Bool.and_eq_true, Bool.and_eq_true, Bool.not_eq_true', and_assoc, ← masks]
    rfl
  · have never : ∀ chptr, ¬ (cptr.sees chptr = true ∧ me.InForce opts chptr) := fun chptr through =>
      lists ((shown chptr).mpr through).1
    simp only [never, false_and, List.forall_mem_map, Bool.false_eq_true]
    constructor
    · intro all before chptr rest parts
      exact all chptr (parts ▸ List.mem_append_right _ List.mem_cons_self)
    · intro all chptr member
      obtain ⟨before, rest, parts⟩ := List.append_of_mem member
      exact all before chptr rest parts

/-- **The filters mean what the usage text says exactly if no channel that the client may see is judged
by a bound that was not given, or without the mask that matters.** -/
theorem list_filters_iff (me : ListServer) (unprivileged : cptr.oper = false)
    (read : ListOption.read parv = some opts) :
    (∀ v ∈ me.sent cptr parv,
      v.2 = true ↔ cptr.sees v.1 = true ∧ Asked me.CurrentTime opts v.1) ↔
      ∀ before chptr rest, me.channels = before ++ chptr :: rest → cptr.sees chptr = true →
        ¬ ListFault me cptr opts before chptr := by
  rw [sent_iff unprivileged read fun c shown =>
    shown ↔ cptr.sees c = true ∧ Asked me.CurrentTime opts c]
  refine forall₃_congr fun before chptr rest => forall_congr' fun _ => ?_
  -- what is found is matched by a mask that was given
  have given : ∀ {masks : List Text} {names : List Text} {list : List Text},
      names.foldl masksLeft masks = list → chptr.foundBy list = true →
        ∃ mask ∈ masks, chptr.matchedBy mask = true := by
    intro masks names list same found
    obtain ⟨mask, member, here⟩ := matched_of_foundBy found
    exact ⟨mask, foldl_masksLeft_subset names masks (same ▸ member), here⟩
  constructor
  · rintro same sees (⟨asked, out⟩ | ⟨asked, some_, gone⟩ | ⟨out, inForce, spared, found⟩ |
      ⟨member, matches_, inForce, spared, found⟩)
    · exact out (same.mpr ⟨sees, asked⟩).1.2
    · rw [(same.mpr ⟨sees, asked⟩).2.2 some_] at gone
      cases gone
    · exact out (same.mp ⟨⟨sees, inForce⟩, spared, found⟩).2.bounds
    · have free := (same.mp ⟨⟨sees, inForce⟩, spared, found⟩).2.negated _ member
      rw [matches_] at free
      cases free
  · intro sound
    constructor
    · rintro ⟨⟨sees, inForce⟩, spared, found⟩
      refine ⟨sees, ?_, fun mask member => ?_, fun some_ => ?_⟩
      · by_contra out
        exact sound sees (.unbounded out inForce spared found)
      · by_contra matches_
        exact sound sees (.escaped member (Bool.not_eq_false _ ▸ matches_) inForce spared found)
      · obtain ⟨mask, member, here⟩ := given rfl (found some_)
        exact ⟨mask, List.mem_reverse.mp member, here⟩
    · rintro ⟨sees, asked⟩
      refine ⟨⟨sees, ?_⟩, ?_, fun some_ => ?_⟩
      · by_contra out
        exact sound sees (.hidden asked out)
      · by_contra found
        obtain ⟨mask, member, here⟩ := given rfl (Bool.not_eq_false _ ▸ found)
        rw [asked.negated mask (List.mem_reverse.mp member)] at here
        cases here
      · by_contra gone
        exact sound sees (.lost asked some_ (Bool.not_eq_true _ ▸ gone))

end Filters

def sampleListed : ListedChannel := ⟨"#a", "", 0, 2, 0, 996400, 0, ""⟩

def sampleLists : ListServer where
  CurrentTime := 1000000
  lifesux := false
  RestrictedChans := false
  table i := if i = 0 then ⟨[sampleListed], 1, rfl⟩ else ⟨[], 0, rfl⟩

def sampleLister : Lister := ⟨false, false, true, fun _ => false⟩

theorem channels_sampleLists : sampleLists.channels = [sampleListed] := by
  have others : ((List.range (CH_MAX - 1)).map Nat.succ).flatMap
      (fun i => (sampleLists.table i).list) = [] := by
    rw [List.flatMap_eq_nil_iff]
    intro i member
    obtain ⟨j, -, rfl⟩ := List.mem_map.mp member
    rfl
  unfold ListServer.channels
  rw [show CH_MAX = CH_MAX - 1 + 1 from rfl, List.range_succ_eq_map, List.flatMap_cons, others]
  rfl

/-- Masks of both kinds, and a number of users. -/
theorem list_filters_iff_sample :
    sampleLists.channels = [sampleListed] ∧
      ∀ v ∈ sampleLists.sent sampleLister ["ann", "*a*,!*b*,>1"], v.2 = true ↔
        sampleLister.sees v.1 = true ∧
          Asked 1000000 [.mask "*a*", .negated "*b*", .bound .moreUsers "1"] v.1 := by
  have read : ListOption.read ["ann", "*a*,!*b*,>1"] =
      some [.mask "*a*", .negated "*b*", .bound .moreUsers "1"] := by rfl
  have unprivileged : sampleLister.oper = false := rfl
  refine ⟨channels_sampleLists, ?_⟩
  refine (list_filters_iff sampleLists unprivileged read).mpr fun before chptr rest parts sees => ?_
  obtain ⟨rfl, rfl⟩ : before = [] ∧ chptr = sampleListed := by
    rw [channels_sampleLists] at parts
    cases before with
    | nil => exact ⟨rfl, (List.cons.inj parts).1.symm⟩
    | cons b before => simp at parts
  rintro (⟨-, out⟩ | ⟨-, -, gone⟩ | ⟨out, -, -, -⟩ | ⟨member, matches_, -, -, -⟩)
  · exact out ⟨by decide, nofun, by decide, by decide, by decide, by decide, fun _ => by decide⟩
  · exact absurd gone (by decide)
  · refine out fun kind number member => ?_
    obtain ⟨rfl, rfl⟩ : kind = .moreUsers ∧ number = "1".toList := by simpa using member
    show strtol "1".toList < sampleListed.visible
    decide
  · rw [List.mem_singleton.mp member] at matches_
    exact absurd matches_ (by decide)

/-- **A list of the channels of the last hour is empty.** -/
theorem not_list_filters : ¬ ∀ (me : ListServer) (cptr : Lister) (parv : List Text)
    (opts : List ListOption), cptr.oper = false → ListOption.read parv = some opts →
      ∀ v ∈ me.sent cptr parv, v.2 = true ↔ cptr.sees v.1 = true ∧ Asked me.CurrentTime opts v.1 := by
  intro claim
  have read : ListOption.read ["ann", "C>60"] = some [.bound .createdSince "60"] := by rfl
  have unprivileged : sampleLister.oper = false := rfl
  have all := (sent_iff unprivileged read fun c shown =>
    shown ↔ sampleLister.sees c = true ∧ Asked 1000000 [.bound .createdSince "60"] c).mp
      (claim sampleLists sampleLister _ _ rfl read)
  have asked : Asked 1000000 [.bound .createdSince "60"] sampleListed := by
    refine ⟨fun kind number member => ?_, nofun, fun some_ => absurd rfl some_⟩
    obtain ⟨rfl, rfl⟩ : kind = .createdSince ∧ number = "60".toList := by simpa using member
    exact ⟨by decide, by decide⟩
  have shown := ((all [] sampleListed [] channels_sampleLists).mpr ⟨by decide, asked⟩).1.2
  exact absurd shown.createdSince (by decide)

end PtlinkIrcd
