/-
**Saving the settings and loading them.**

`DCONF SAVE` writes a line for every setting that is defined, and a server that starts reads the file again.

* `strtol_printD`, `time_str_printD` — a number and a time are read as they were printed.
* `DconfItem.Survives` — the settings that are not changed.
* `directiveOf_named`, `dconfLine_named` — a line with a name is one change of the entry with the name.
* `DconfItem.loaded` — what the line of an entry makes of the fresh one.
* `dconf_read_saved` — **the file makes that of every entry**.
* `dconf_round_trip_iff` — when all entries come back.
-/

import PtlinkIrcd.Conf.Dconf

namespace PtlinkIrcd

/-! ### Numbers -/

section

variable {tail : Text} {v : Int32}

theorem strtol_digits_append {ds : Text} (digits : ∀ c ∈ ds, c.isDigit = true) (some_ : ds ≠ [])
    (stop : ∀ c ∈ tail.head?, c.isDigit = false) (small : Nat.ofDigitChars 10 ds 0 < 2 ^ 63) :
    (strtol (ds ++ tail) = Nat.ofDigitChars 10 ds 0 ∧ strtolEnd (ds ++ tail) = tail) ∧
      strtol ('-' :: (ds ++ tail)) = -Nat.ofDigitChars 10 ds 0 ∧ strtolEnd ('-' :: (ds ++ tail)) = tail := by
  have taken := Lib.takeWhile_isDigit_append digits stop
  have left : (ds ++ tail).dropWhile Char.isDigit = tail := by
    have parts := List.takeWhile_append_dropWhile (p := Char.isDigit) (l := ds ++ tail)
    rw [taken] at parts
    exact List.append_cancel_left parts
  have sign : ('-' :: (ds ++ tail)).dropWhile isSpace = '-' :: (ds ++ tail) :=
    List.dropWhile_cons_of_neg (by decide)
  obtain ⟨d, rest, rfl⟩ := List.exists_cons_of_ne_nil some_
  have digit := digits d List.mem_cons_self
  have range := isDigit_range digit
  have plain : (d :: rest ++ tail).dropWhile isSpace = d :: rest ++ tail := by
    rw [List.cons_append]
    exact List.dropWhile_cons_of_neg (by simp [isSpace]; omega)
  have minus : d ≠ '-' := fun same => absurd (same ▸ digit) (by decide)
  have plus : d ≠ '+' := fun same => absurd (same ▸ digit) (by decide)
  refine ⟨⟨?_, ?_⟩, ?_, ?_⟩
  · unfold strtol
    rw [plain]
    dsimp only
    rw [List.cons_append]
    split
    · rename_i eq
      exact absurd (List.cons.inj eq).1 minus
    · rename_i eq
      exact absurd (List.cons.inj eq).1 plus
    · rw [← List.cons_append, taken]
      omega
  · have unsigned : ¬ ((d :: rest ++ tail).head? = some '-' ∨ (d :: rest ++ tail).head? = some '+') := by
      rintro (same | same)
      exacts [minus (Option.some.inj same), plus (Option.some.inj same)]
    unfold strtolEnd
    rw [plain]
    dsimp only
    rw [if_neg unsigned, taken, if_neg some_, left]
  · unfold strtol
    rw [sign]
    show max _ (min ((-1 : Int) *
      (Nat.ofDigitChars 10 ((d :: rest ++ tail).takeWhile Char.isDigit) 0 : Nat)) _) = _
    rw [taken]
    omega
  · unfold strtolEnd
    rw [sign]
    show (if (d :: rest ++ tail).takeWhile Char.isDigit = [] then _
      else (d :: rest ++ tail).dropWhile Char.isDigit) = _
    rw [taken, if_neg some_, left]

/-- **A number is read as it was printed**, up to what follows. -/
theorem strtol_printD (v : Int32) (stop : ∀ c ∈ tail.head?, c.isDigit = false) :
    strtol (printD v ++ tail) = v.toInt ∧ strtolEnd (printD v ++ tail) = tail := by
  have low := v.le_toInt
  have high := v.toInt_lt
  have value : Nat.ofDigitChars 10 (Nat.toDigits 10 v.toInt.natAbs) 0 = v.toInt.natAbs :=
    Nat.ofDigitChars_ten_toDigits
  obtain ⟨⟨plain, left⟩, negated, left'⟩ := @strtol_digits_append tail (Nat.toDigits 10 v.toInt.natAbs)
    (fun c member => Nat.isDigit_of_mem_toDigits (by decide) le_rfl member)
    (List.ne_nil_of_length_pos Nat.length_toDigits_pos) stop (by omega)
  rw [value] at plain negated
  unfold printD
  split_ifs with negative
  · rw [List.cons_append]
    exact ⟨by omega, left'⟩
  · exact ⟨by omega, left⟩

/-- **An `int` comes back.** -/
theorem atoi_printD (v : Int32) : atoi (printD v) = v := by
  have read := (@strtol_printD [] v nofun).1
  rw [List.append_nil] at read
  rw [atoi, read, Int32.ofInt_toInt]

/-- **A time comes back**, in minutes if it is long. -/
theorem time_str_printD (v : Int32) :
    time_str (printD v ++ ['s']) = v ∧ time_str (printD v ++ ['m']) = v * 60 := by
  have second := @strtol_printD ['s'] v (by rintro c ⟨⟩; rfl)
  have minute := @strtol_printD ['m'] v (by rintro c ⟨⟩; rfl)
  unfold time_str
  rw [second.1, second.2, minute.1, minute.2, Int32.ofInt_toInt]
  exact ⟨rfl, rfl⟩

theorem minutes_eq_iff (long : 59 < v) : v / 60 * 60 = v ↔ v.toInt % 60 = 0 := by
  have high := v.toInt_lt
  have positive : 59 < v.toInt := Int32.lt_iff_toInt_lt.mp long
  rw [← Int32.toInt_inj, Int32.toInt_mul, Int32.toInt_div]
  have sixty : (60 : Int32).toInt = 60 := by decide
  rw [sixty, Int.tdiv_eq_ediv_of_nonneg (by omega), Int.bmod_def, Int.bmod_def]
  omega

end

/-! ### A line with a name -/

section

variable {name value ends : Text}

theorem strtok_word {delim : Char → Bool} {w rest : Text} (word : ∀ c ∈ w, delim c = false) (some_ : w ≠ [])
    (ends : ∀ c ∈ rest.head?, delim c = true) : strtok delim (w ++ rest) = some (w, rest.tail) := by
  obtain ⟨c, t, rfl⟩ := List.exists_cons_of_ne_nil some_
  have first := word c List.mem_cons_self
  have kept : (c :: t ++ rest).dropWhile delim = c :: t ++ rest := by
    rw [List.cons_append]
    exact List.dropWhile_cons_of_neg (by rw [first]; exact Bool.false_ne_true)
  have all : ∀ d ∈ c :: t, (!delim d) = true := fun d member => by rw [word d member, Bool.not_false]
  have stop : rest.takeWhile (!delim ·) = [] ∧ rest.dropWhile (!delim ·) = rest := by
    cases rest with
    | nil => exact ⟨rfl, rfl⟩
    | cons d rest =>
      have last : ¬ (!delim d) = true := by rw [ends d rfl]; decide
      exact ⟨List.takeWhile_cons_of_neg last, List.dropWhile_cons_of_neg last⟩
  unfold strtok
  dsimp only
  rw [kept, if_neg (by rw [List.cons_append]; exact List.cons_ne_nil _ _), List.takeWhile_append_of_pos all,
    List.dropWhile_append_of_pos all, stop.1, stop.2, List.append_nil]

/-- The characters of the name of a setting. -/
def PlainName (name : Text) : Prop := ∀ c ∈ name, c.isAlphanum = true ∨ c = '_'

theorem PlainName.not_blank (plain : PlainName name) :
    ∀ c ∈ name, isSpace c = false ∧ c ≠ '#' ∧ c ≠ '.' ∧ c ≠ NUL := by
  intro c member
  rcases plain c member with letter | rfl
  · have other : ∀ d : Char, d.isAlphanum = false → c ≠ d := fun d no same => by
      rw [same, no] at letter
      cases letter
    refine ⟨?_, other '#' (by decide), other '.' (by decide), other NUL (by decide)⟩
    rw [Bool.eq_false_iff]
    intro blank
    rw [isSpace, Bool.or_eq_true, Bool.and_eq_true, decide_eq_true_eq, decide_eq_true_eq, beq_iff_eq] at blank
    have range : (65 ≤ c.toNat ∧ c.toNat ≤ 90 ∨ 97 ≤ c.toNat ∧ c.toNat ≤ 122) ∨
        48 ≤ c.toNat ∧ c.toNat ≤ 57 := by
      change (decide (c.val ≥ 'A'.val ∧ c.val ≤ 'Z'.val) ||
        decide (c.val ≥ 'a'.val) && decide (c.val ≤ 'z'.val) ||
        decide (c.val ≥ '0'.val) && decide (c.val ≤ '9'.val)) = true at letter
      simpa [UInt32.le_iff_toNat_le] using letter
    omega
  · decide

/-- **The line of a setting** has its name for the directive. -/
theorem directiveOf_named (plain : PlainName name) (some_ : name ≠ [])
    (line : ∀ c ∈ value, c ≠ '\r' ∧ c ≠ '\n') (shown : value.dropWhile isSpace = value)
    (ended : ends = [] ∨ ends = ['\n']) :
    directiveOf (name ++ '\t' :: ' ' :: (value ++ ends)) = some (name, value) := by
  obtain ⟨c, t, rfl⟩ := List.exists_cons_of_ne_nil some_
  have first := plain.not_blank c List.mem_cons_self
  have started : (c :: t ++ '\t' :: ' ' :: (value ++ ends)).dropWhile isSpace =
      c :: t ++ '\t' :: ' ' :: (value ++ ends) := by
    rw [List.cons_append]
    exact List.dropWhile_cons_of_neg (by rw [first.1]; exact Bool.false_ne_true)
  have word : ∀ d ∈ c :: t, (d = '\t' || d = '\n' || d = ' ') = false := by
    intro d member
    have blank := (plain.not_blank d member).1
    rw [Bool.eq_false_iff]
    intro same
    simp only [Bool.or_eq_true, decide_eq_true_eq] at same
    rcases same with (rfl | rfl) | rfl <;> exact absurd blank (by decide)
  have token := @strtok_word _ _ ('\t' :: ' ' :: (value ++ ends)) word some_
    (by intro d head; cases head; rfl)
  have second := @strtok_word (fun c => c = '\r' || c = '\n') (' ' :: value) ends
    (by
      intro d member
      rcases List.mem_cons.mp member with rfl | inside
      · decide
      · have other := line d inside
        simp [other.1, other.2])
    (List.cons_ne_nil _ _)
    (by rcases ended with rfl | rfl <;> simp)
  have open_ : (c :: t).head? ≠ some '#' := fun head => first.2.1 (Option.some.inj head)
  unfold directiveOf
  rw [started, token, Option.bind_eq_bind, Option.bind_some]
  dsimp only
  rw [if_neg open_, List.tail_cons, ← List.cons_append, second,
    Option.bind_some]
  dsimp only
  rw [List.dropWhile_cons_of_pos (by decide), shown]

end

/-! ### Finding the entry -/

section

variable {done rest : List DconfItem} {fresh : DconfItem} {include_ : Text → List DconfItem → List DconfItem}

/-- **A change of the entry with the name**, behind entries with other names. -/
theorem conf_change_item_append (others : ∀ d ∈ done, strcasecmp d.name fresh.name ≠ 0) (value : Text)
    (rehashing : Nat) :
    conf_change_item (done ++ fresh :: rest) fresh.name value rehashing =
      (done ++ (fresh.change value rehashing).1 :: rest, (fresh.change value rehashing).2) := by
  have missed : done.findIdx? (fun item => decide (strcasecmp item.name fresh.name = 0)) = none :=
    List.findIdx?_eq_none_iff.mpr fun d member => decide_eq_false (others d member)
  have named : strcasecmp fresh.name fresh.name = 0 := strcasecmp_eq_zero_iff.mpr rfl
  have found : conf_find_item (done ++ fresh :: rest) fresh.name = some done.length := by
    rw [conf_find_item, List.findIdx?_append, missed, List.findIdx?_cons, if_pos (decide_eq_true named),
      Option.map_some, Option.none_or, Nat.zero_add]
  have there : (done ++ fresh :: rest)[done.length]? = some fresh := by
    rw [List.getElem?_append_right le_rfl, Nat.sub_self, List.getElem?_cons_zero]
  rw [conf_change_item_eq found there, List.set_append_right _ _ le_rfl, Nat.sub_self, List.set_cons_zero]

/-- **A line with the name of an entry** changes it. -/
theorem dconfLine_named {line value : Text} (others : ∀ d ∈ done, strcasecmp d.name fresh.name ≠ 0)
    (plain : PlainName fresh.name) (string : NUL ∉ line) (read : directiveOf line = some (fresh.name, value))
    (rehashing : Nat) (errors : Int) :
    ∃ errors', dconfLine include_ rehashing (done ++ fresh :: rest, errors) line =
      (done ++ (fresh.change value rehashing).1 :: rest, errors') := by
  have whole : line.takeWhile (· ≠ NUL) = line :=
    List.takeWhile_eq_self_iff.mpr fun c member => decide_eq_true fun same => string (same ▸ member)
  have other : fresh.name ≠ ".include".toList := fun same =>
    (plain.not_blank '.' (same ▸ by decide)).2.2.1 rfl
  unfold dconfLine
  rw [whole, read]
  dsimp only
  rw [if_neg other, conf_change_item_append others]
  exact ⟨_, rfl⟩

/-- **A short line** is no setting. -/
theorem dconfLine_short {items : List DconfItem} {line : Text} (long : ∀ item ∈ items, 4 ≤ item.name.length)
    (short : line.length ≤ 4) (rehashing : Nat) (errors : Int) :
    ∃ errors', dconfLine include_ rehashing (items, errors) line = (items, errors') := by
  have length := (List.takeWhile_sublist (l := line) (· ≠ NUL)).length_le
  unfold dconfLine
  cases read : directiveOf (line.takeWhile (· ≠ NUL)) with
  | none => exact ⟨_, rfl⟩
  | some parts =>
    obtain ⟨directive, value⟩ := parts
    have room := (directiveOf_eq read).1
    have other : directive ≠ ".include".toList := fun same => by
      rw [same] at room
      exact absurd (room.trans (length.trans short)) (by
        rw [show (".include".toList).length = 8 from rfl]
        omega)
    dsimp only
    rw [if_neg other]
    rcases conf_change_item_cases items directive value rehashing with same | ⟨i, item, -, there, named, -⟩
    · rw [same]
      exact ⟨_, rfl⟩
    · have lengths := congrArg List.length (strcasecmp_eq_zero_iff.mp named)
      rw [List.length_map, List.length_map] at lengths
      have name := long item (List.mem_of_getElem? there)
      omega

end

/-! ### The line of an entry -/

section

variable {fresh item : DconfItem}

theorem conf_item_str_of_defined (defined : item.defined = true) : conf_item_str item = item.value.str :=
  if_neg (by rw [defined]; exact Bool.noConfusion)

/-- **What is written for a value** is a line that starts with what is shown. -/
theorem conf_item_str_line (sound : DconfItem.Sound fresh item) (new : fresh.Fresh)
    (defined : item.defined = true) (setting : item.value ≠ .desc) :
    (∀ c ∈ conf_item_str item, c ≠ NUL ∧ c ≠ '\r' ∧ c ≠ '\n') ∧
      item.name.length + (conf_item_str item).length ≤ 512 ∧
        ∃ d rest, conf_item_str item = d :: rest ∧ isSpace d = false := by
  have accepted := sound.accepted defined
  have name := new.2.2.2.2
  rw [← sound.name] at name
  have number : ∀ v : Int32, ∀ c ∈ printD v, c ≠ NUL ∧ c ≠ '\r' ∧ c ≠ '\n' := by
    intro v c member
    rcases mem_printD member with digit | rfl
    · have range := isDigit_range digit
      refine ⟨?_, ?_, ?_⟩ <;> rintro rfl <;> exact absurd range (by decide)
    · decide
  have starts : ∀ (v : Int32) (t : Text), ∃ d rest, printD v ++ t = d :: rest ∧ isSpace d = false := by
    intro v t
    obtain ⟨d, rest, whole⟩ := List.exists_cons_of_ne_nil (List.ne_nil_of_length_pos (length_printD_pos v))
    refine ⟨d, rest ++ t, by rw [whole, List.cons_append], ?_⟩
    rcases mem_printD (whole ▸ List.mem_cons_self : d ∈ printD v) with digit | rfl
    · have range := isDigit_range digit
      rw [isSpace, Bool.or_eq_false_iff, Bool.and_eq_false_iff, decide_eq_false_iff_not,
        decide_eq_false_iff_not]
      exact ⟨.inr (by omega), beq_false_of_ne (by omega)⟩
    · decide
  rw [conf_item_str_of_defined defined]
  unfold ConfValue.str
  cases kind : item.value with
  | desc => exact absurd kind setting
  | string v =>
    rw [kind] at accepted
    obtain ⟨w, rfl, -, line, short⟩ := accepted
    dsimp only
    rw [Option.getD_some]
    refine ⟨fun c member => ?_, ?_, '"', w ++ ['"'], rfl, by decide⟩
    · rcases List.mem_cons.mp member with rfl | inside
      · decide
      · rcases List.mem_append.mp inside with inside | last
        · exact line c inside
        · rw [List.mem_singleton.mp last]
          decide
    · rw [List.length_cons, List.length_append, List.length_singleton]
      omega
  | time v =>
    dsimp only
    have long := length_printD_le
    split_ifs
    · refine ⟨fun c member => ?_, ?_, starts _ _⟩
      · rcases List.mem_append.mp member with inside | last
        · exact number _ c inside
        · rw [List.mem_singleton.mp last]
          decide
      · have eleven := long (v / 60)
        rw [List.length_append, List.length_singleton]
        omega
    · refine ⟨fun c member => ?_, ?_, starts _ _⟩
      · rcases List.mem_append.mp member with inside | last
        · exact number _ c inside
        · rw [List.mem_singleton.mp last]
          decide
      · have eleven := long v
        rw [List.length_append, List.length_singleton]
        omega
  | set v =>
    dsimp only
    split_ifs
    · have yes : ("Yes".toList).length = 3 := rfl
      exact ⟨line_of_all (by decide), by omega, _, _, rfl, by decide⟩
    · have no : ("No".toList).length = 2 := rfl
      exact ⟨line_of_all (by decide), by omega, _, _, rfl, by decide⟩
  | int v =>
    have eleven := length_printD_le v
    have start := starts v []
    rw [List.append_nil] at start
    exact ⟨number v, by dsimp only; omega, start⟩

/-- What the line of an entry makes of the fresh one: as much of the value counts as the buffer holds. -/
def DconfItem.loaded (fresh item : DconfItem) : DconfItem :=
  if item.value = .desc ∨ item.defined = false then fresh
  else (fresh.change ((conf_item_str item).take (509 - item.name.length)) 0).1

theorem DconfItem.loaded_of_defined {item : DconfItem} (fresh : DconfItem) (defined : item.defined = true)
    (setting : item.value ≠ .desc) : fresh.loaded item =
      (fresh.change ((conf_item_str item).take (509 - item.name.length)) 0).1 := by
  refine if_neg ?_
  rintro (heading | undefined)
  · exact setting heading
  · rw [undefined] at defined
    cases defined

@[simp] theorem DconfItem.name_change (item : DconfItem) (value : Text) (rehashing : Nat) :
    (item.change value rehashing).1.name = item.name := by
  rcases item.change_cases value rehashing with same | ⟨v, defined, -, same, -⟩ <;> rw [same]

@[simp] theorem DconfItem.name_loaded : (fresh.loaded item).name = fresh.name := by
  unfold loaded
  split_ifs
  exacts [rfl, fresh.name_change _ _]

variable {include_ : Text → List DconfItem → List DconfItem} {done rest : List DconfItem}

theorem dconfLine_comment (t : Text) (rehashing : Nat) (state : List DconfItem × Int) :
    dconfLine include_ rehashing state ('#' :: ' ' :: t) = state := by
  have comment : ∀ t : Text, directiveOf ('#' :: ' ' :: t) = none := by
    intro t
    have token := @strtok_word (fun c => c = '\t' || c = '\n' || c = ' ') ['#'] (' ' :: t)
      (fun c member => by rw [List.mem_singleton.mp member]; rfl)
      (List.cons_ne_nil _ _) (by intro c head; cases head; rfl)
    unfold directiveOf
    rw [List.dropWhile_cons_of_neg (by decide)]
    rw [List.singleton_append] at token
    rw [token]
    rfl
  unfold dconfLine
  rw [List.takeWhile_cons_of_pos (by decide), List.takeWhile_cons_of_pos (by decide), comment]

section

variable {value ends : Text}

theorem not_mem_line (plain : PlainName fresh.name) (line : ∀ c ∈ value, c ≠ NUL ∧ c ≠ '\r' ∧ c ≠ '\n') :
    NUL ∉ fresh.name ++ '\t' :: ' ' :: value ∧ '\n' ∉ fresh.name ++ '\t' :: ' ' :: value := by
  constructor
  · rw [List.mem_append, List.mem_cons, List.mem_cons]
    rintro (name | tab | blank | inside)
    exacts [(plain.not_blank _ name).2.2.2 rfl, absurd tab (by decide), absurd blank (by decide),
      (line _ inside).1 rfl]
  · rw [List.mem_append, List.mem_cons, List.mem_cons]
    rintro (name | tab | blank | inside)
    exacts [absurd (plain.not_blank _ name).1 (by decide), absurd tab (by decide), absurd blank (by decide),
      (line _ inside).2.2 rfl]

theorem dconfLine_setting (plain : PlainName fresh.name) (some_ : fresh.name ≠ [])
    (line : ∀ c ∈ value, c ≠ NUL ∧ c ≠ '\r' ∧ c ≠ '\n') (start : value.dropWhile isSpace = value)
    (ended : ends = [] ∨ ends = ['\n']) (others : ∀ d ∈ done, strcasecmp d.name fresh.name ≠ 0)
    (errors : Int) :
    ∃ errors', dconfLine include_ 0 (done ++ fresh :: rest, errors)
        (fresh.name ++ '\t' :: ' ' :: (value ++ ends)) =
      (done ++ (fresh.change value 0).1 :: rest, errors') := by
  have string : NUL ∉ fresh.name ++ '\t' :: ' ' :: (value ++ ends) := by
    have front := (not_mem_line plain line).1
    rcases ended with rfl | rfl
    · rwa [List.append_nil]
    · rw [← List.cons_append, ← List.cons_append, ← List.append_assoc, List.mem_append, List.mem_singleton]
      rintro (inside | last)
      exacts [front inside, absurd last (by decide)]
  exact dconfLine_named others plain string
    (directiveOf_named plain some_ (fun c member => (line c member).2) start ended) 0 errors

/-- **The line of a setting**, read in one piece or in two. -/
theorem foldl_setting (plain : PlainName fresh.name) (named : 4 ≤ fresh.name.length)
    (fits : fresh.name.length ≤ 30) (line : ∀ c ∈ value, c ≠ NUL ∧ c ≠ '\r' ∧ c ≠ '\n')
    (room : fresh.name.length + value.length ≤ 512) (start : ∃ d w, value = d :: w ∧ isSpace d = false)
    (others : ∀ d ∈ done, strcasecmp d.name fresh.name ≠ 0)
    (long : ∀ d ∈ done ++ fresh :: rest, 4 ≤ d.name.length) (t : Text) (errors : Int) :
    ∃ errors', (Lib.chunks '\n' 511 [] (fresh.name ++ '\t' :: ' ' :: (value ++ '\n' :: t))).foldl
        (dconfLine include_ 0) (done ++ fresh :: rest, errors) =
      (Lib.chunks '\n' 511 [] t).foldl (dconfLine include_ 0)
        (done ++ (fresh.change (value.take (509 - fresh.name.length)) 0).1 :: rest, errors') := by
  have some_ : fresh.name ≠ [] := List.ne_nil_of_length_pos (by omega)
  have kept : ∀ k, 0 < k → (value.take k).dropWhile isSpace = value.take k := by
    obtain ⟨d, w, rfl, shown⟩ := start
    intro k positive
    obtain ⟨k, rfl⟩ := Nat.exists_eq_succ_of_ne_zero positive.ne'
    rw [List.take_succ_cons]
    exact List.dropWhile_cons_of_neg (by rw [shown]; exact Bool.false_ne_true)
  have front : ∀ k, ∀ c ∈ value.take k, c ≠ NUL ∧ c ≠ '\r' ∧ c ≠ '\n' := fun k c member =>
    line c (List.mem_of_mem_take member)
  have length : ∀ part : Text, (fresh.name ++ '\t' :: ' ' :: part).length =
      fresh.name.length + 2 + part.length := fun part => by
    rw [List.length_append, List.length_cons, List.length_cons]
    omega
  rcases Nat.lt_or_ge (fresh.name.length + 2 + value.length) 511 with whole | cut
  · have taken : value.take (509 - fresh.name.length) = value := List.take_of_length_le (by omega)
    have piece := @Lib.chunks_line Char _ '\n' 511 _ t (not_mem_line plain line).2 (by rwa [length])
    rw [List.append_assoc, List.append_assoc, List.cons_append, List.cons_append, List.cons_append,
      List.cons_append] at piece
    obtain ⟨errors', changed⟩ := @dconfLine_setting fresh include_ done rest _ _ plain some_
      (taken ▸ front _) (taken ▸ kept _ (by omega)) (.inr rfl) others errors
    exact ⟨errors', by rw [piece, List.foldl_cons, taken, changed]⟩
  · -- what does not fit is at most three characters
    have over_ : (value.drop (509 - fresh.name.length)).length ≤ 3 := by
      rw [List.length_drop]
      omega
    have lf : '\n' ∉ value.drop (509 - fresh.name.length) := fun member =>
      (line _ (List.mem_of_mem_drop member)).2.2 rfl
    have full : (fresh.name ++ '\t' :: ' ' :: value.take (509 - fresh.name.length)).length = 511 := by
      rw [length, List.length_take]
      omega
    have piece := @Lib.chunks_full Char _ '\n' 511 _
      (value.drop (509 - fresh.name.length) ++ '\n' :: t) (not_mem_line plain (front _)).2
      (List.ne_nil_of_length_pos (by rw [full]; decide)) full
    have behind := @Lib.chunks_line Char _ '\n' 511 _ t lf (Nat.lt_of_le_of_lt over_ (by decide))
    have shape : fresh.name ++ '\t' :: ' ' :: (value ++ '\n' :: t) =
        fresh.name ++ '\t' :: ' ' :: value.take (509 - fresh.name.length) ++
          (value.drop (509 - fresh.name.length) ++ '\n' :: t) := by
      rw [List.append_assoc, List.cons_append, List.cons_append, ← List.append_assoc (value.take _),
        List.take_append_drop]
    obtain ⟨errors', changed⟩ := @dconfLine_setting fresh include_ done rest _ [] plain some_
      (front _) (kept (509 - fresh.name.length) (by omega)) (.inl rfl) others errors
    rw [List.append_nil] at changed
    obtain ⟨errors'', ignored⟩ := @dconfLine_short include_
      (done ++ (fresh.change (value.take (509 - fresh.name.length)) 0).1 :: rest)
      (value.drop (509 - fresh.name.length) ++ ['\n']) (by
        intro item member
        rcases List.mem_append.mp member with before | behind
        · exact long item (List.mem_append_left _ before)
        · rcases List.mem_cons.mp behind with rfl | after
          · rw [DconfItem.name_change]
            exact named
          · exact long item (List.mem_append_right _ (List.mem_cons_of_mem _ after)))
      (by rw [List.length_append, List.length_singleton]; omega) 0 errors'
    exact ⟨errors'', by rw [shape, piece, List.foldl_cons, changed, behind, List.foldl_cons, ignored]⟩

end

/-- **What is read of the line of an entry**: the value as far as the buffer holds it, and what is behind that
is no setting. -/
theorem foldl_savedItem (sound : DconfItem.Sound fresh item) (new : fresh.Fresh)
    (others : ∀ d ∈ done, strcasecmp d.name fresh.name ≠ 0)
    (long : ∀ d ∈ done ++ fresh :: rest, 4 ≤ d.name.length) (t : Text) (errors : Int) :
    ∃ errors', (Lib.chunks '\n' 511 [] (savedItem item ++ t)).foldl (dconfLine include_ 0)
        (done ++ fresh :: rest, errors) =
      (Lib.chunks '\n' 511 [] t).foldl (dconfLine include_ 0)
        (done ++ fresh.loaded item :: rest, errors') := by
  have short := new.2.2.2.2
  rw [← sound.name] at short
  unfold savedItem
  by_cases heading : item.value = .desc
  · rw [if_pos heading, DconfItem.loaded, if_pos (.inl heading)]
    have blank : dconfLine include_ 0 (done ++ fresh :: rest, errors) ['\n'] =
        (done ++ fresh :: rest, errors) := rfl
    have apart : '\n' ∉ '#' :: ' ' :: item.name := by
      have lf : '\n' ∉ item.name := by
        rw [sound.name]
        intro member
        rcases new.name '\n' member with letter | other | ⟨other, -⟩
        · exact absurd letter (by decide)
        · exact absurd other (by decide)
        · exact absurd other (by decide)
      simp [lf]
    have first := @Lib.chunks_line Char _ '\n' 511 [] ('#' :: ' ' :: (item.name ++ '\n' :: t))
      List.not_mem_nil
      (by decide)
    have second := @Lib.chunks_line Char _ '\n' 511 ('#' :: ' ' :: item.name) t apart (by
      rw [List.length_cons, List.length_cons]
      omega)
    have shape : "\n# ".toList ++ (item.name ++ ['\n']) ++ t =
        [] ++ '\n' :: ('#' :: ' ' :: (item.name ++ '\n' :: t)) := by
      rw [List.append_assoc, List.append_assoc]
      rfl
    refine ⟨errors, ?_⟩
    rw [shape, first, List.foldl_cons, List.nil_append, blank]
    exact (congrArg _ second).trans (by
      rw [List.foldl_cons, List.cons_append, List.cons_append, dconfLine_comment])
  · rw [if_neg heading]
    by_cases defined : item.defined = true
    · rw [if_pos defined, DconfItem.loaded_of_defined fresh defined heading]
      obtain ⟨line, room, start⟩ := conf_item_str_line sound new defined heading
      have setting : fresh.value ≠ .desc := fun same => by
        have type := sound.type
        rw [same] at type
        cases kind : item.value <;> rw [kind] at type <;> first | exact heading kind | cases type
      have plain : PlainName fresh.name := fun c member =>
        (new.name c member).imp id fun other => other.resolve_right fun blank => setting blank.2
      rw [sound.name] at room ⊢
      have read := @foldl_setting fresh include_ done rest _ plain new.2.2.2.1 new.2.2.2.2 line room start
        others long t errors
      have shape : fresh.name ++ ("\t ".toList ++ (conf_item_str item ++ ['\n'])) ++ t =
          fresh.name ++ '\t' :: ' ' :: (conf_item_str item ++ '\n' :: t) := by
        rw [List.append_assoc, List.append_assoc, List.append_assoc]
        rfl
      rwa [shape]
    · rw [if_neg defined, DconfItem.loaded, if_pos (.inr (Bool.eq_false_iff.mpr defined)),
        List.nil_append]
      exact ⟨errors, rfl⟩

end

/-! ### The file -/

section

variable {include_ : Text → List DconfItem → List DconfItem} {done freshs items : List DconfItem}

/-- **The lines of a table**, one entry after the other. -/
theorem foldl_saved (sound : List.Forall₂ DconfItem.Sound freshs items) (new : ∀ fresh ∈ freshs, fresh.Fresh)
    (names : ((done ++ freshs).map fun item => item.name.map lowerLetter).Nodup)
    (long : ∀ d ∈ done, 4 ≤ d.name.length) (t : Text) (errors : Int) :
    ∃ errors', (Lib.chunks '\n' 511 [] (items.flatMap savedItem ++ t)).foldl (dconfLine include_ 0)
        (done ++ freshs, errors) =
      (Lib.chunks '\n' 511 [] t).foldl (dconfLine include_ 0)
        (done ++ List.zipWith DconfItem.loaded freshs items, errors') := by
  induction sound generalizing done errors with
  | nil => exact ⟨errors, rfl⟩
  | @cons fresh item freshs items head sound ih =>
    obtain ⟨newHead, newRest⟩ := List.forall_mem_cons.mp new
    have others : ∀ d ∈ done, strcasecmp d.name fresh.name ≠ 0 := by
      intro d member same
      rw [List.map_append, List.nodup_append] at names
      exact names.2.2 _ (List.mem_map_of_mem member) _ (List.mem_map_of_mem List.mem_cons_self)
        (strcasecmp_eq_zero_iff.mp same)
    have all : ∀ d ∈ done ++ fresh :: freshs, 4 ≤ d.name.length := by
      intro d member
      rcases List.mem_append.mp member with before | after
      exacts [long d before, (new d after).2.2.2.1]
    obtain ⟨errors', read⟩ := @foldl_savedItem _ _ include_ _ _ head newHead others all
      (items.flatMap savedItem ++ t) errors
    have shift : ∀ tail : List DconfItem,
        done ++ fresh.loaded item :: tail = done ++ [fresh.loaded item] ++ tail :=
      fun tail => by rw [List.append_assoc, List.singleton_append]
    obtain ⟨errors'', rest⟩ := @ih (done ++ [fresh.loaded item]) newRest (by
        rw [← shift]
        rw [List.map_append, List.map_cons] at names ⊢
        rwa [DconfItem.name_loaded])
      (by
        intro d member
        rcases List.mem_append.mp member with before | last
        · exact long d before
        · rw [List.mem_singleton.mp last, DconfItem.name_loaded]
          exact newHead.2.2.2.1)
      errors'
    refine ⟨errors'', ?_⟩
    rw [List.flatMap_cons, List.append_assoc, read, shift, rest, List.zipWith_cons_cons, ← shift]

/-- **What a server that starts reads in the file of `DCONF SAVE`.** -/
theorem dconf_read_saved (sound : List.Forall₂ DconfItem.Sound conf_items items) {files : Text → Option Text}
    {fn : Text} (saved : files fn = some (m_dconf_save items)) (depth : Nat) :
    (dconf_read files 0 (depth + 1) fn conf_items).1 = List.zipWith DconfItem.loaded conf_items items := by
  obtain ⟨errors', read⟩ := @foldl_saved (fun fn items => (dconf_read files 0 depth fn items).1) []
    conf_items items sound fresh_conf_items.1 fresh_conf_items.2 nofun "# End of save.dconf\n".toList 0
  have last := @Lib.chunks_line Char _ '\n' 511 "# End of save.dconf".toList [] (by decide) (by decide)
  have ending : "# End of save.dconf\n".toList = "# End of save.dconf".toList ++ '\n' :: [] := by decide
  unfold dconf_read
  rw [saved]
  dsimp only
  rw [m_dconf_save, ← List.nil_append conf_items, read, ending, last, List.foldl_cons]
  exact congrArg Prod.fst (dconfLine_comment _ 0 _)

end

/-! ### What comes back -/

/-- **The entries that are not changed**: a string has no quotes at its ends and a line that fits, and a time
is short or of whole minutes. -/
def DconfItem.Survives (item : DconfItem) : Prop :=
  match item.value with
  | .desc => item.defined = false
  | .string none => True
  | .string (some w) => item.defined = true →
    w.head? ≠ some '"' ∧ w.getLast? ≠ some '"' ∧ item.name.length + w.length ≤ 508
  | .time v => item.defined = true → v ≤ 59 ∨ v.toInt % 60 = 0
  | .set _ => True
  | .int _ => True

instance (item : DconfItem) : Decidable item.Survives := by
  unfold DconfItem.Survives
  split <;> infer_instance

section

variable {fresh item : DconfItem} {w : Text} {k : Nat}

theorem dropQuotes_cut_iff (positive : 1 ≤ k) (some_ : w ≠ []) :
    dropQuotes (dropQuotes (('"' :: (w ++ ['"'])).take k)) = w ↔
      w.head? ≠ some '"' ∧ w.getLast? ≠ some '"' ∧ w.length + 1 ≤ k := by
  obtain ⟨k, rfl⟩ := Nat.exists_eq_succ_of_ne_zero (Nat.one_le_iff_ne_zero.mp positive)
  rw [List.take_succ_cons]
  rcases Nat.lt_trichotomy k w.length with cut | rfl | whole
  · -- the string itself is cut
    refine iff_of_false (fun same => ?_) (by omega)
    have outer := (dropQuotes_sublist (dropQuotes ('"' :: (w ++ ['"']).take k))).length_le
    have inner : (dropQuotes ('"' :: (w ++ ['"']).take k)).length ≤ k := by
      have taken := List.length_take_le k (w ++ ['"'])
      rw [dropQuotes_opened]
      split_ifs
      · rw [List.length_dropLast]
        omega
      · exact taken
    rw [same] at outer
    omega
  · -- only the last quote is
    rw [List.take_left, dropQuotes_opened]
    split_ifs with closed
    · refine iff_of_false (fun same => ?_) fun h => h.2.1 closed
      have outer := (dropQuotes_sublist w.dropLast).length_le
      have positive := List.length_pos_of_ne_nil some_
      rw [same, List.length_dropLast] at outer
      omega
    · rw [dropQuotes_eq_self_iff]
      exact and_congr_right fun _ => (and_iff_left le_rfl).symm
  · rw [List.take_of_length_le (by rw [List.length_append, List.length_singleton]; omega), dropQuotes_quoted,
      dropQuotes_eq_self_iff]
    exact and_congr_right fun _ => (and_iff_left (Nat.succ_le_succ whole.le)).symm

/-- A fresh entry becomes a defined one when the `switch` takes its value. -/
theorem DconfItem.change_eq_iff (sound : DconfItem.Sound fresh item) (new : fresh.Fresh)
    (defined : item.defined = true) (value : Text) :
    (fresh.change value 0).1 = item ↔
      ¬ (fresh.req = true ∧ dropQuotes (value.dropWhile isSpace) = []) ∧
        fresh.value.switch (dropQuotes (value.dropWhile isSpace)) = .ok (item.value, true) := by
  have whole : item = { fresh with value := item.value, defined := true } := by
    cases item
    cases fresh
    obtain ⟨rfl, rfl, rfl, -, -, -⟩ := sound
    rw [← defined]
  have undefined : ¬ fresh.defined = true := fun same => by rw [new.1] at same; cases same
  have other : fresh ≠ item := fun same => undefined (same ▸ defined)
  unfold DconfItem.change
  dsimp only
  by_cases empty : fresh.req = true ∧ dropQuotes (value.dropWhile isSpace) = []
  · rw [if_pos ⟨two_pos, empty⟩]
    exact iff_of_false other fun h => h.1 empty
  · rw [if_neg fun h => empty h.2, if_neg fun h => undefined h.1, if_neg fun h => undefined h.1,
      and_iff_right empty]
    cases taken : fresh.value.switch (dropQuotes (value.dropWhile isSpace)) with
    | error res => exact iff_of_false other nofun
    | ok pair =>
      obtain ⟨v, defined'⟩ := pair
      dsimp only
      rw [whole]
      constructor
      · intro same
        rw [DconfItem.mk.injEq] at same
        rw [same.2.1, same.2.2.2.2]
      · intro same
        cases same
        rfl

theorem loaded_eq_iff_of_plain (sound : DconfItem.Sound fresh item) (new : fresh.Fresh)
    (defined : item.defined = true) (setting : item.value ≠ .desc)
    (short : (conf_item_str item).length ≤ 400)
    (quotes : (conf_item_str item).head? ≠ some '"' ∧ (conf_item_str item).getLast? ≠ some '"') :
    fresh.loaded item = item ↔ fresh.value.switch (conf_item_str item) = .ok (item.value, true) := by
  obtain ⟨-, -, d, w, start, shown⟩ := conf_item_str_line sound new defined setting
  have name := new.2.2.2.2
  rw [← sound.name] at name
  have kept : (conf_item_str item).dropWhile isSpace = conf_item_str item := by
    rw [start]
    exact List.dropWhile_cons_of_neg (by rw [shown]; exact Bool.false_ne_true)
  rw [DconfItem.loaded_of_defined fresh defined setting, List.take_of_length_le (by omega),
    DconfItem.change_eq_iff sound new defined, kept, dropQuotes_eq_self_iff.mpr quotes]
  exact and_iff_right fun empty => by rw [start] at empty; cases empty.2

theorem ConfValue.switch_congr {a b : ConfValue} (same : a.type = b.type) (value : Text) :
    a.switch value = b.switch value := by
  cases a <;> cases b <;> first | rfl | cases same

theorem quotes_printD (v : Int32) {ends : Text} (apart : '"' ∉ ends) :
    (printD v ++ ends).head? ≠ some '"' ∧ (printD v ++ ends).getLast? ≠ some '"' := by
  have outside : '"' ∉ printD v ++ ends := by
    rw [List.mem_append]
    rintro (member | member)
    · rcases mem_printD member with digit | sign
      exacts [absurd digit (by decide), absurd sign (by decide)]
    · exact apart member
  exact ⟨fun head => outside (List.mem_of_head? head), fun last => outside (List.mem_of_getLast? last)⟩

/-- **When the line of an entry gives the entry back.** -/
theorem loaded_eq_iff (sound : DconfItem.Sound fresh item) (new : fresh.Fresh) :
    fresh.loaded item = item ↔ item.Survives := by
  have type := sound.type
  cases defined : item.defined with
  | false =>
    have same : fresh = item := by
      have kept := sound.kept defined
      cases item
      cases fresh
      obtain ⟨rfl, rfl, rfl, -, -, -⟩ := sound
      rw [← new.1] at defined
      exact DconfItem.mk.injEq .. ▸ ⟨rfl, kept.symm, rfl, rfl, defined.symm⟩
    have survives : item.Survives := by
      unfold DconfItem.Survives
      split <;> first | exact defined | trivial | exact fun now => by rw [defined] at now; cases now
    exact iff_of_true (by rw [DconfItem.loaded, if_pos (.inr defined), same]) survives
  | true =>
    have accepted := sound.accepted defined
    have name := new.2.2.2.2
    rw [← sound.name] at name
    have shown := conf_item_str_of_defined defined
    unfold DconfItem.Survives
    cases kind : item.value with
    | desc =>
      rw [DconfItem.loaded, if_pos (.inl kind)]
      refine iff_of_false (fun same => ?_) (by rw [defined]; exact Bool.noConfusion)
      rw [← same, new.1] at defined
      cases defined
    | string v =>
      rw [kind] at accepted shown
      obtain ⟨w, rfl, some_, -, -⟩ := accepted
      unfold ConfValue.str at shown
      dsimp only at shown ⊢
      rw [Option.getD_some] at shown
      have setting : ¬ (item.value = .desc ∨ item.defined = false) := by
        rintro (same | no)
        · rw [same] at kind; cases kind
        · rw [no] at defined; cases defined
      have positive : 1 ≤ 509 - item.name.length := by omega
      have kept : (('"' :: (w ++ ['"'])).take (509 - item.name.length)).dropWhile isSpace =
          ('"' :: (w ++ ['"'])).take (509 - item.name.length) := by
        obtain ⟨k, more⟩ := Nat.exists_eq_succ_of_ne_zero (Nat.one_le_iff_ne_zero.mp positive)
        rw [more, List.take_succ_cons]
        exact List.dropWhile_cons_of_neg (by decide)
      rw [DconfItem.loaded, if_neg setting, DconfItem.change_eq_iff sound new defined, shown, kept,
        ConfValue.switch_congr type.symm, kind]
      have taken : ∀ u : Text, (¬ (fresh.req = true ∧ u = []) ∧
          (ConfValue.string (some w)).switch u = .ok (.string (some w), true)) ↔ dropQuotes u = w := by
        intro u
        unfold ConfValue.switch
        dsimp only
        split_ifs with empty
        · exact iff_of_false (fun h => by cases h.2) fun same => some_ (same.symm.trans empty)
        · constructor
          · rintro ⟨-, same⟩
            cases same
            rfl
          · intro same
            rw [same]
            exact ⟨fun h => empty (by rw [h.2]; rfl), rfl⟩
      rw [taken, dropQuotes_cut_iff positive some_]
      constructor
      · rintro ⟨open_, unclosed, short⟩ -
        exact ⟨open_, unclosed, by omega⟩
      · intro survives
        obtain ⟨open_, unclosed, short⟩ := survives defined
        exact ⟨open_, unclosed, by omega⟩
    | time v =>
      rw [kind] at accepted shown
      unfold ConfValue.str at shown
      dsimp only at shown ⊢
      have setting : item.value ≠ .desc := fun same => by rw [same] at kind; cases kind
      have positive : ¬ v ≤ 0 := Int32.not_le.mpr accepted
      split_ifs at shown with long
      · have eleven := length_printD_le (v / 60)
        rw [loaded_eq_iff_of_plain sound new defined setting
          (by rw [shown, List.length_append, List.length_singleton]; omega)
          (by rw [shown]; exact quotes_printD _ (by decide)), shown, ConfValue.switch_congr type.symm, kind,
          ConfValue.switch, (time_str_printD _).2]
        have minutes := minutes_eq_iff long
        constructor
        · intro same _
          split_ifs at same
          rw [Except.ok.injEq, Prod.mk.injEq, ConfValue.time.injEq] at same
          exact .inr (minutes.mp same.1)
        · intro survives
          have whole := minutes.mpr ((survives defined).resolve_left (Int32.not_le.mpr long))
          rw [whole, if_neg positive]
      · have eleven := length_printD_le v
        rw [loaded_eq_iff_of_plain sound new defined setting
          (by rw [shown, List.length_append, List.length_singleton]; omega)
          (by rw [shown]; exact quotes_printD _ (by decide)), shown, ConfValue.switch_congr type.symm, kind,
          ConfValue.switch, (time_str_printD _).1, if_neg positive]
        exact iff_of_true rfl fun _ => .inl (Int32.not_lt.mp long)
    | set v =>
      rw [kind] at accepted shown
      unfold ConfValue.str at shown
      dsimp only at shown ⊢
      refine iff_of_true ?_ trivial
      have setting : item.value ≠ .desc := fun same => by rw [same] at kind; cases kind
      rcases accepted with rfl | rfl
      · rw [if_pos rfl] at shown
        rw [loaded_eq_iff_of_plain sound new defined setting (by rw [shown]; decide) (by rw [shown]; decide),
          shown,
          ConfValue.switch_congr type.symm, kind]
        rfl
      · rw [if_neg (by decide)] at shown
        rw [loaded_eq_iff_of_plain sound new defined setting (by rw [shown]; decide) (by rw [shown]; decide),
          shown,
          ConfValue.switch_congr type.symm, kind]
        rfl
    | int v =>
      rw [kind] at shown
      unfold ConfValue.str at shown
      dsimp only at shown ⊢
      refine iff_of_true ?_ trivial
      have setting : item.value ≠ .desc := fun same => by rw [same] at kind; cases kind
      have eleven := length_printD_le v
      have quotes := @quotes_printD v [] List.not_mem_nil
      rw [List.append_nil] at quotes
      rw [loaded_eq_iff_of_plain sound new defined setting (by rw [shown]; omega)
          (by rw [shown]; exact quotes), shown,
        ConfValue.switch_congr type.symm, kind, ConfValue.switch, atoi_printD]

theorem zipWith_loaded_eq_iff {freshs items : List DconfItem}
    (sound : List.Forall₂ DconfItem.Sound freshs items)
    (new : ∀ fresh ∈ freshs, fresh.Fresh) :
    List.zipWith DconfItem.loaded freshs items = items ↔ ∀ item ∈ items, item.Survives := by
  induction sound with
  | nil => exact iff_of_true rfl nofun
  | cons head _ ih =>
    rw [List.forall_mem_cons] at new ⊢
    rw [List.zipWith_cons_cons, List.cons.injEq, loaded_eq_iff head new.1, ih new.2]

/-- **The settings come back from the file of `DCONF SAVE` exactly when** every entry is one that survives. -/
theorem dconf_round_trip_iff {items : List DconfItem} (reached : Reachable items) {files : Text → Option Text}
    {fn : Text} (saved : files fn = some (m_dconf_save items)) (depth : Nat) :
    (dconf_read files 0 (depth + 1) fn conf_items).1 = items ↔ ∀ item ∈ items, item.Survives := by
  rw [dconf_read_saved reached.sound saved]
  exact zipWith_loaded_eq_iff reached.sound fresh_conf_items.1

/-- A name that is set, saved and loaded. -/
theorem dconf_round_trip_name :
    let items := (m_dconf_set conf_items "NetworkName".toList "The \"PTlink\" Net".toList).1
    (dconf_read (fun _ => some (m_dconf_save items)) 0 1 [] conf_items).1 = items := by
  intro items
  exact (dconf_round_trip_iff (.set _ _ (line_of_all (by decide)) .fresh) rfl 0).mpr (by decide +kernel)

/-- A time of ninety seconds comes back as one minute. -/
theorem not_dconf_round_trip : ¬ ∀ items, Reachable items → ∀ (files : Text → Option Text) (fn : Text),
    files fn = some (m_dconf_save items) →
      ∀ depth, (dconf_read files 0 (depth + 1) fn conf_items).1 = items := by
  intro all
  let items := (m_dconf_set conf_items "AntiSpamExitTime".toList "90s".toList).1
  have reached : Reachable items := .set _ _ (line_of_all (by decide)) .fresh
  obtain ⟨files, saved⟩ : ∃ files : Text → Option Text, files [] = some (m_dconf_save items) :=
    ⟨fun _ => some (m_dconf_save items), rfl⟩
  have back := (dconf_read_saved reached.sound saved 0).symm.trans (all items reached files [] saved 0)
  have one := congrArg (fun items : List DconfItem => items[23]?.map DconfItem.value) back
  revert one
  decide +kernel

end

end PtlinkIrcd
