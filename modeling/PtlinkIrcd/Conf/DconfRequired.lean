/-
**Required settings stay defined.**

`conf_change_item` refuses to make a required setting empty while the server runs, but for a string it takes
the quotes away once more behind that test.

* `Required` — every required setting is defined, and a string is there.
* `Empties` — a `DCONF SET` of a required string to three or four quotes.
* `DconfItem.change_required`, `DconfItem.change_empties` — what it does to the entry, and what the others do.
* `required_m_dconf_set_iff` — one `DCONF SET`.
* `dconf_required_iff` — **required settings stay defined for as long as there is no such `DCONF SET`**.
-/

import PtlinkIrcd.Conf.DconfSave
import Mathlib.Data.List.Induction

namespace PtlinkIrcd

/-- What is required of an entry: `CF_DEFINED`, and a string. -/
def DconfItem.There (item : DconfItem) : Prop :=
  item.req = true → item.defined = true ∧ item.value ≠ .string none

/-- **Every required setting is there.** -/
def Required (items : List DconfItem) : Prop := ∀ item ∈ items, item.There

/-- A `DCONF SET`. -/
structure DconfSet where
  item : Text
  newval : Text

/-- A required string that may be changed is set to three or four quotes. -/
def Empties (items : List DconfItem) (set : DconfSet) : Prop :=
  ∃ i item, conf_find_item items (set.item.take 100) = some i ∧ items[i]? = some item ∧
    item.req = true ∧ item.locked = false ∧ item.value.type = 1 ∧
      ((set.newval.take 100).dropWhile isSpace = List.replicate 3 '"' ∨
        (set.newval.take 100).dropWhile isSpace = List.replicate 4 '"')

def afterSets (items : List DconfItem) (sets : List DconfSet) : List DconfItem :=
  sets.foldl (fun items set => (m_dconf_set items set.item set.newval).1) items

/-! ### One entry -/

section

variable {item : DconfItem} {value : Text}

/-- **Three or four quotes** make a required string undefined. -/
theorem DconfItem.change_empties (req : item.req = true) (open_ : item.locked = false)
    (string : item.value.type = 1)
    (quotes : value.dropWhile isSpace = List.replicate 3 '"' ∨
      value.dropWhile isSpace = List.replicate 4 '"') :
    ¬ (item.change value 1).1.There := by
  obtain ⟨some_, none_⟩ := dropQuotes_dropQuotes_eq_nil_iff.mpr quotes
  obtain ⟨v, kind⟩ : ∃ v, item.value = .string v := by
    cases kind : item.value with
    | string v => exact ⟨v, rfl⟩
    | desc | time | set | int => rw [kind] at string; cases string
  have emptied : item.change value 1 = ({ item with value := .string none, defined := false }, 1) := by
    unfold DconfItem.change ConfValue.switch
    dsimp only
    rw [if_neg fun h => some_ h.2.2, if_neg fun h => by rw [open_] at h; exact Bool.noConfusion h.2.2,
      if_neg fun h => absurd h.2 one_ne_zero, kind]
    dsimp only
    rw [if_pos none_]
  rw [emptied]
  intro still
  exact Bool.noConfusion (still req).1

/-- What the `switch` takes is there, unless the second pair of quotes leaves nothing. -/
theorem ConfValue.switch_there {old v : ConfValue} {defined : Bool}
    (taken : old.switch value = .ok (v, defined))
    (some_ : old.type = 1 → dropQuotes value ≠ []) : defined = true ∧ v ≠ .string none := by
  cases old with
  | desc => cases taken; exact ⟨rfl, nofun⟩
  | int _ => cases taken; exact ⟨rfl, nofun⟩
  | string _ =>
    unfold switch at taken
    dsimp only at taken
    rw [if_neg (some_ rfl)] at taken
    cases taken
    exact ⟨rfl, nofun⟩
  | time _ =>
    unfold switch at taken
    dsimp only at taken
    split_ifs at taken
    cases taken
    exact ⟨rfl, nofun⟩
  | set _ =>
    unfold switch at taken
    dsimp only at taken
    split_ifs at taken <;> cases taken <;> exact ⟨rfl, nofun⟩

/-- **Anything else** leaves what is required. -/
theorem DconfItem.change_required (there : item.There)
    (safe : item.req = true → item.locked = false → item.value.type = 1 →
      ¬ (value.dropWhile isSpace = List.replicate 3 '"' ∨ value.dropWhile isSpace = List.replicate 4 '"')) :
    (item.change value 1).1.There := by
  rcases item.change_cases value 1 with same | ⟨v, defined, taken, same, some_, open_⟩
  · rwa [same]
  · rw [same]
    intro req
    refine ConfValue.switch_there taken fun string empty => ?_
    exact safe req (open_ (there req).1 rfl) string
      (dropQuotes_dropQuotes_eq_nil_iff.mp ⟨some_ one_lt_two req, empty⟩)

end

/-! ### The table -/

section

variable {items : List DconfItem}

/-- **A `DCONF SET` leaves what is required exactly when** it does not empty a required string. -/
theorem required_m_dconf_set_iff (required : Required items) (set : DconfSet) :
    Required (m_dconf_set items set.item set.newval).1 ↔ ¬ Empties items set := by
  unfold m_dconf_set
  constructor
  · rintro after ⟨i, item, found, there, req, open_, string, quotes⟩
    rw [conf_change_item_eq found there] at after
    obtain ⟨inside, -⟩ := List.getElem?_eq_some_iff.mp there
    exact item.change_empties req open_ string quotes
      (after _ (List.mem_of_getElem? (List.getElem?_set_self inside)))
  · intro safe
    rcases conf_change_item_cases items (set.item.take 100) (set.newval.take 100) 1 with
      same | ⟨i, item, found, there, -, same⟩
    · rwa [same]
    · rw [same]
      intro other member
      rcases List.mem_or_eq_of_mem_set member with old | rfl
      · exact required other old
      · exact DconfItem.change_required (required item (List.mem_of_getElem? there))
          fun req open_ string quotes => safe ⟨i, item, found, there, req, open_, string, quotes⟩

theorem required_of_check (reached : Reachable items) (checked : dconf_check items = true) :
    Required items := by
  intro item member req
  have defined : item.defined = true := by
    have each := List.all_eq_true.mp checked item member
    rw [req] at each
    exact each
  obtain ⟨fresh, -, sound⟩ := exists_fresh reached.sound member
  refine ⟨defined, fun none_ => ?_⟩
  have accepted := sound.accepted defined
  rw [none_] at accepted
  obtain ⟨w, same, -⟩ := accepted
  cases same

theorem afterSets_append (items : List DconfItem) (done rest : List DconfSet) :
    afterSets items (done ++ rest) = afterSets (afterSets items done) rest := List.foldl_append

/-- **Required settings stay defined in the states of a run exactly as far as** no `DCONF SET` gives a required
string three or four quotes; and one that is refused changes nothing. -/
theorem dconf_required_iff (reached : Reachable items) (checked : dconf_check items = true)
    (sets : List DconfSet) :
    ((∀ done rest, sets = done ++ rest → Required (afterSets items done)) ↔
      ∀ done set rest, sets = done ++ set :: rest → ¬ Empties (afterSets items done) set) ∧
    ∀ done set rest, sets = done ++ set :: rest →
      (m_dconf_set (afterSets items done) set.item set.newval).2 < 0 →
        afterSets items (done ++ [set]) = afterSets items done := by
  refine ⟨⟨fun stays done set rest same => ?_, fun safe done rest same => ?_⟩,
    fun done set rest _ refused => ?_⟩
  · have after := stays (done ++ [set]) rest (by rw [same, List.append_assoc, List.singleton_append])
    rw [afterSets_append] at after
    exact (required_m_dconf_set_iff (stays done _ same) set).mp after
  · induction done using List.reverseRecOn generalizing rest with
    | nil => exact required_of_check reached checked
    | append_singleton done set ih =>
      rw [List.append_assoc, List.singleton_append] at same
      rw [afterSets_append]
      exact (required_m_dconf_set_iff (ih _ same) set).mpr (safe done set rest same)
  · rw [afterSets_append]
    exact conf_change_item_of_neg refused

end

/-! ### A server with its settings -/

def DconfItem.sample (item : DconfItem) : DconfItem :=
  if item.req = true then
    { item with
      value := match item.value with
        | .desc => .desc
        | .string _ => .string (some ['x'])
        | .time _ => .time 10
        | .set _ => .set (-1)
        | .int _ => .int 0
      defined := true }
  else item

/-- The table of a server that has read its required settings, and nothing else. -/
def requiredItems : List DconfItem := conf_items.map DconfItem.sample

theorem sound_sample {item : DconfItem} (new : item.Fresh) : DconfItem.Sound item item.sample := by
  unfold DconfItem.sample
  split_ifs
  · refine ⟨rfl, rfl, rfl, ?_, nofun, fun _ => ?_⟩
    · cases item.value <;> rfl
    · cases item.value with
      | string _ =>
        have short := new.2.2.2.2
        exact ⟨['x'], rfl, by decide, line_of_all (by decide), by simp; omega⟩
      | desc | int _ => trivial
      | time _ => exact (by decide : (0 : Int32) < 10)
      | set _ => exact .inl rfl
  · exact ⟨rfl, rfl, rfl, rfl, fun _ => rfl, fun defined => absurd (new.1.symm.trans defined) nofun⟩

theorem sound_requiredItems : List.Forall₂ DconfItem.Sound conf_items requiredItems := by
  unfold requiredItems
  rw [List.forall₂_map_right_iff, List.forall₂_same]
  exact fun item member => sound_sample (fresh_conf_items.1 item member)

theorem reachable_requiredItems : Reachable requiredItems := by
  have read := @dconf_read_saved requiredItems sound_requiredItems
    (fun _ => some (m_dconf_save requiredItems)) []
    rfl 0
  rw [(zipWith_loaded_eq_iff sound_requiredItems fresh_conf_items.1).mpr (by decide +kernel)] at read
  exact read ▸ .read _ 0 1 [] .fresh

theorem check_requiredItems : dconf_check requiredItems = true := by decide +kernel

/-- A name for the network. -/
theorem dconf_required_iff_name : dconf_check requiredItems = true ∧
    ∀ done rest, [⟨"NetworkName".toList, "Net".toList⟩] = done ++ rest →
      Required (afterSets requiredItems done) := by
  refine ⟨check_requiredItems, ?_⟩
  refine (dconf_required_iff reachable_requiredItems check_requiredItems _).1.mpr fun done set rest same => ?_
  obtain ⟨rfl, rfl⟩ : done = [] ∧ set = ⟨"NetworkName".toList, "Net".toList⟩ := by
    cases done with
    | nil => exact ⟨rfl, (List.cons.inj same).1.symm⟩
    | cons first done => exact absurd (List.cons.inj same).2 (by simp)
  rintro ⟨-, -, -, -, -, -, -, quotes⟩
  revert quotes
  decide

/-- **Three quotes** make a required string undefined. -/
theorem not_dconf_required : ¬ ∀ items, Reachable items → dconf_check items = true → ∀ sets,
    Required (afterSets items sets) := by
  intro all
  have after := all _ reachable_requiredItems check_requiredItems
    [⟨"NetworkName".toList, List.replicate 3 '"'⟩]
  have gone : (afterSets requiredItems [⟨"NetworkName".toList, List.replicate 3 '"'⟩])[3]? =
      some ⟨"NetworkName".toList, .string none, true, false, false⟩ := by decide +kernel
  exact Bool.noConfusion (after _ (List.mem_of_getElem? gone) rfl).1

end PtlinkIrcd
