/-
**Services Q-lines.**

The list of `sqline.c` on a server and on one that links to it later.

* `m_sqline`, `m_unsqline`, `find_sqline`, `send_all_sqlines` — the functions, on the list.
* `ircMatch_map_toUpper` — a mask may be folded before it is matched.
* `Alike` — two lists that have the same entries, up to entries that no nick matches.
* `entries_burst_iff` — when a burst brings over all entries.
* `sqlines_converge_iff` — **two lists give the same verdicts after all further messages just when no
  entry of the burst is matched by one before it**; `not_sqlines_converge` — it can be.
-/

import Mathlib.Data.List.Count
import PtlinkIrcd.Model.Text

namespace PtlinkIrcd

/-! ### The functions -/

/-- An entry: the part of `aConfItem` that a Q-line of services uses. -/
structure Sqline where
  name : CString
  passwd : Option CString

/-- A message about Q-lines, with its parameters. -/
inductive SqlineMessage
  | sqline (parv : List CString)
  | unsqline (parv : List CString)

def find_sqline (sqlines : List Sqline) (nick : Text) : Option Sqline :=
  sqlines.find? fun sql => ircMatch sql.name.1 nick

def emptyText : CString := ⟨[], List.not_mem_nil⟩

/-- `parc>2 && *parv[2]`. -/
def sqlineReason : List CString → Option CString
  | [] => none
  | reason :: _ => if reason.1 = [] then none else some reason

/-- `m_sqline`: the list, and the message for the other servers. `services` says that the message is
from a server or a service. -/
def m_sqline (services : Bool) (sqlines : List Sqline) :
    List CString → List Sqline × Option SqlineMessage
  | [] => (sqlines, none)
  | mask :: rest =>
    if !services then (sqlines, none)
    else if (find_sqline sqlines mask.1).isSome then (sqlines, none)
    else (⟨mask, sqlineReason rest⟩ :: sqlines, some (.sqline [mask, rest.headD emptyText]))

def m_unsqline (services : Bool) (sqlines : List Sqline) :
    List CString → List Sqline × Option SqlineMessage
  | [] => (sqlines, none)
  | mask :: _ =>
    if !services then (sqlines, none)
    else (sqlines.eraseP fun sql => irccmp sql.name.1 mask.1 = 0, some (.unsqline [mask]))

def send_all_sqlines (sqlines : List Sqline) : List SqlineMessage :=
  sqlines.map fun sql => .sqline [sql.name, sql.passwd.getD emptyText]

/-! ### Runs -/

/-- What a server does with a message of services. -/
def SqlineMessage.receive (sqlines : List Sqline) : SqlineMessage → List Sqline
  | .sqline parv => (m_sqline true sqlines parv).1
  | .unsqline parv => (m_unsqline true sqlines parv).1

def sqlinesAfter (sqlines : List Sqline) (messages : List SqlineMessage) : List Sqline :=
  messages.foldl SqlineMessage.receive sqlines

/-- The list of a server that had none when it linked to one with `sqlines`. -/
def linkedSqlines (sqlines : List Sqline) : List Sqline := sqlinesAfter [] (send_all_sqlines sqlines)

/-- Both lists have an entry for the same nicks. -/
def SameVerdicts (a b : List Sqline) : Prop :=
  ∀ nick, (find_sqline a nick).isSome = (find_sqline b nick).isSome

/-! ### Folded masks -/

section Folding

variable {d : Char}

theorem toUpper_eq_iff {c : Char} (plain : d.toNat < 65) : toUpper c = d ↔ c = d := by
  rw [← Char.toNat_inj, ← Char.toNat_inj, toUpper_toNat]
  split_ifs <;> omega

theorem toLower_toUpper (c : Char) : toLower (toUpper c) = toLower c := by
  rw [← Char.toNat_inj, toLower_toNat, toLower_toNat, toUpper_toNat]
  split_ifs <;> omega

theorem head?_map_toUpper (plain : d.toNat < 65) (t : Text) :
    (t.map toUpper).head? = some d ↔ t.head? = some d := by
  cases t with
  | nil => rfl
  | cons c t => simpa using toUpper_eq_iff plain

theorem dropWhile_map_toUpper (plain : d.toNat < 65) (t : Text) :
    (t.map toUpper).dropWhile (· = d) = (t.dropWhile (· = d)).map toUpper := by
  rw [List.dropWhile_map]
  congr 2
  funext c
  exact decide_eq_decide.mpr (toUpper_eq_iff plain)

theorem endsInStar_map_toUpper (mask : Text) : endsInStar (mask.map toUpper) = endsInStar mask := by
  unfold endsInStar
  rw [← List.map_tail, ← List.map_reverse, dropWhile_map_toUpper (by decide)]
  exact decide_eq_decide.mpr (head?_map_toUpper (by decide) _)

/-- The pointers of `match` on the folded mask. -/
def MatchState.folded (s : MatchState) : MatchState :=
  { s with m := s.m.map toUpper, ma := s.ma.map toUpper }

theorem compare_folded (s : MatchState) :
    s.folded.compare = s.compare.map MatchState.folded id := by
  have heads : (s.m.map toUpper).head?.map toLower = s.m.head?.map toLower := by
    rw [List.head?_map, Option.map_map]
    exact congrArg (fun f => s.m.head?.map f) (funext toLower_toUpper)
  have question := head?_map_toUpper (d := '?') (by decide) s.m
  have next : s.folded.m.tail = s.m.tail.map toUpper := (List.map_tail ..).symm
  unfold MatchState.compare
  by_cases apart : s.m.head?.map toLower ≠ s.n.head?.map toLower ∧ s.m.head? ≠ some '?'
  · rw [if_pos apart, if_pos ⟨heads ▸ apart.1, fun mark => apart.2 (question.mp mark)⟩]
    cases wild : s.wild
    · rw [if_neg (by simp [MatchState.folded, wild]), if_neg (by simp)]
      rfl
    · rw [if_pos (by simp [MatchState.folded, wild]), if_pos rfl]
      simp [MatchState.folded, wild]
  · rw [if_neg apart, if_neg fun apart' => apart ⟨fun same => apart'.1 (heads.trans same),
      fun mark => apart'.2 (question.mpr mark)⟩, next]
    rfl

theorem star_folded (s : MatchState) :
    (if s.folded.m.head? = some '*' then
      { s.folded with
        m := s.folded.m.dropWhile (· = '*'), wild := true, ma := s.folded.m.dropWhile (· = '*'),
        na := s.folded.n }
      else s.folded) =
    (if s.m.head? = some '*' then
      { s with m := s.m.dropWhile (· = '*'), wild := true, ma := s.m.dropWhile (· = '*'), na := s.n }
      else s).folded := by
  have star : s.folded.m.head? = some '*' ↔ s.m.head? = some '*' :=
    head?_map_toUpper (by decide) s.m
  have skipped : s.folded.m.dropWhile (· = '*') = (s.m.dropWhile (· = '*')).map toUpper :=
    dropWhile_map_toUpper (by decide) s.m
  by_cases here : s.m.head? = some '*'
  · rw [if_pos here, if_pos (star.mpr here)]
    rw [skipped]
    rfl
  · rw [if_neg here, if_neg (mt star.mp here)]

theorem round_folded (mask : Text) (s : MatchState) :
    s.folded.round (mask.map toUpper) = (s.round mask).map MatchState.folded id := by
  unfold MatchState.round
  dsimp only
  rw [star_folded, endsInStar_map_toUpper]
  generalize (if s.m.head? = some '*' then _ else s) = t
  by_cases ended : t.m = []
  · rw [if_pos ended, if_pos (show t.folded.m = [] from List.map_eq_nil_iff.mpr ended)]
    by_cases name : t.n = []
    · rw [if_pos name, if_pos (show t.folded.n = [] from name)]
      rfl
    · rw [if_neg name, if_neg (show t.folded.n ≠ [] from name)]
      cases endsInStar mask
      · cases wild : t.wild
        · simp [MatchState.folded, wild]
        · simp only [MatchState.folded, wild, Bool.false_eq_true, if_false, Bool.not_true]
          exact compare_folded { t with m := t.ma, n := t.na.tail, na := t.na.tail, wild := true }
      · rfl
  · rw [if_neg ended, if_neg (show t.folded.m ≠ [] from mt List.map_eq_nil_iff.mp ended)]
    by_cases name : t.n = []
    · rw [if_pos name, if_pos (show t.folded.n = [] from name)]
      have rest := dropWhile_map_toUpper (d := '*') (by decide) t.m
      exact congrArg Sum.inr (decide_eq_decide.mpr (by
        rw [show t.folded.m = t.m.map toUpper from rfl, rest, List.map_eq_nil_iff]))
    · rw [if_neg name, if_neg (show t.folded.n ≠ [] from name)]
      exact compare_folded t

/-- **A mask may be folded before it is matched.** -/
theorem ircMatch_map_toUpper (mask name : Text) : ircMatch (mask.map toUpper) name = ircMatch mask name := by
  have rounds : ∀ calls s, matchLoop (mask.map toUpper) calls s.folded = matchLoop mask calls s := by
    intro calls
    induction calls with
    | zero => exact fun _ => rfl
    | succ calls ih =>
      intro s
      unfold matchLoop
      rw [round_folded]
      cases s.round mask with
      | inl next => exact ih next
      | inr verdict => rfl
  exact rounds _ ⟨mask, name, mask, name, false⟩

end Folding

/-! ### Alike lists -/

def Sqline.key (sql : Sqline) : Text := sql.name.1.map toUpper

def Alive (key : Text) : Prop := ∃ nick, ircMatch key nick = true

def entries (key : Text) (sqlines : List Sqline) : Nat := sqlines.countP fun sql => sql.key = key

/-- Both lists have the same entries, up to those that no nick matches. -/
def Alike (a b : List Sqline) : Prop := ∀ key, Alive key → entries key a = entries key b

section Runs

variable {a b acc sqlines : List Sqline} {nick key : Text} {mask : CString} {rest : List CString}

theorem entries_cons (key : Text) (sql : Sqline) (sqlines : List Sqline) :
    entries key (sql :: sqlines) = entries key sqlines + if sql.key = key then 1 else 0 := by
  unfold entries
  rw [List.countP_cons]
  simp only [decide_eq_true_eq]

theorem entries_pos : 0 < entries key sqlines ↔ ∃ sql ∈ sqlines, sql.key = key := by
  unfold entries
  simp only [List.countP_pos_iff, decide_eq_true_eq]

theorem entries_append (key : Text) (a b : List Sqline) :
    entries key (a ++ b) = entries key a + entries key b := List.countP_append

theorem entries_filter (other key : Text) (sqlines : List Sqline) :
    entries other (sqlines.filter fun sql => sql.key = key) =
        (if other = key then entries other sqlines else 0) ∧
      entries other (sqlines.filter fun sql => sql.key ≠ key) =
        if other = key then 0 else entries other sqlines := by
  induction sqlines with
  | nil => simp [entries]
  | cons sql sqlines ih =>
    rw [List.filter_cons, List.filter_cons, entries_cons]
    by_cases here : sql.key = key
    · subst here
      by_cases same : other = sql.key
      · subst same
        simp only [decide_true, if_true, entries_cons, ih, ne_eq, not_true, decide_false,
          Bool.false_eq_true, if_false, and_self]
      · have ne : sql.key ≠ other := Ne.symm same
        simp only [decide_true, if_true, entries_cons, ih, ne_eq, not_true, decide_false,
          Bool.false_eq_true, if_false, same, ne, Nat.add_zero, and_self]
    · simp only [here, decide_false, Bool.false_eq_true, if_false, ne_eq, not_false_eq_true, decide_true,
        if_true, entries_cons, ih]
      by_cases same : other = key
      · have ne : sql.key ≠ other := fun eq => here (eq.trans same)
        simp [same, here]
      · simp [same]

theorem find_sqline_isSome :
    (find_sqline sqlines nick).isSome = true ↔ ∃ key, ircMatch key nick = true ∧ 0 < entries key sqlines := by
  unfold find_sqline
  simp only [entries_pos, List.find?_isSome]
  constructor
  · exact fun ⟨sql, member, found⟩ => ⟨sql.key, (ircMatch_map_toUpper ..).trans found, sql, member, rfl⟩
  · rintro ⟨_, found, sql, member, rfl⟩
    exact ⟨sql, member, (ircMatch_map_toUpper ..).symm.trans found⟩

/-- **Alike lists give the same verdicts.** -/
theorem Alike.sameVerdicts (alike : Alike a b) : SameVerdicts a b := by
  intro nick
  refine Bool.eq_iff_iff.mpr (find_sqline_isSome.trans (Iff.trans ?_ find_sqline_isSome.symm))
  refine exists_congr fun key => and_congr_right fun found => ?_
  rw [alike key ⟨nick, found⟩]

theorem entries_sqline (key : Text) (sqlines : List Sqline) (mask : CString) (rest : List CString) :
    entries key (m_sqline true sqlines (mask :: rest)).1 = entries key sqlines +
      if (find_sqline sqlines mask.1).isSome = false ∧ mask.1.map toUpper = key then 1 else 0 := by
  unfold m_sqline
  cases found : (find_sqline sqlines mask.1).isSome
  · simp only [Bool.not_true, Bool.false_eq_true, if_false, found, entries_cons, true_and]
    rfl
  · simp [found]

theorem entries_unsqline (key : Text) (sqlines : List Sqline) (mask : CString) (rest : List CString) :
    entries key (m_unsqline true sqlines (mask :: rest)).1 =
      entries key sqlines - if mask.1.map toUpper = key then 1 else 0 := by
  unfold m_unsqline
  simp only [Bool.not_true, Bool.false_eq_true, if_false]
  induction sqlines with
  | nil => simp [entries]
  | cons sql sqlines ih =>
    have same := irccmp_eq_zero_iff sql.name.2 mask.2
    rw [List.eraseP_cons, entries_cons]
    by_cases here : irccmp sql.name.1 mask.1 = 0
    · have keys : mask.1.map toUpper = sql.key := (same.mp here).symm
      rw [keys]
      simp [here]
    · have keys : sql.key ≠ mask.1.map toUpper := mt same.mpr here
      simp only [here, decide_false, cond_false, entries_cons, ih]
      split_ifs with own other
      · exact absurd (other.trans own.symm) keys
      · rfl
      · rfl
      · rfl

theorem Alike.receive (alike : Alike a b) (message : SqlineMessage) :
    Alike (message.receive a) (message.receive b) := by
  intro key alive
  cases message with
  | sqline parv => cases parv with
    | nil => exact alike key alive
    | cons mask rest =>
      unfold SqlineMessage.receive
      rw [entries_sqline, entries_sqline, alike key alive, alike.sameVerdicts mask.1]
  | unsqline parv => cases parv with
    | nil => exact alike key alive
    | cons mask rest =>
      unfold SqlineMessage.receive
      rw [entries_unsqline, entries_unsqline, alike key alive]

theorem Alike.after (alike : Alike a b) (messages : List SqlineMessage) :
    Alike (sqlinesAfter a messages) (sqlinesAfter b messages) := by
  induction messages generalizing a b with
  | nil => exact alike
  | cons message messages ih => exact ih (alike.receive message)

/-! ### The burst -/

/-- No entry that some nick matches is matched, as a text, by one that the burst has sent before. -/
def BurstKept (sqlines : List Sqline) : Prop :=
  sqlines.Pairwise fun sent later => ircMatch sent.name.1 later.name.1 = true → ¬ Alive later.key

theorem entries_burst_le (key : Text) (acc sqlines : List Sqline) :
    entries key (sqlinesAfter acc (send_all_sqlines sqlines)) ≤ entries key sqlines + entries key acc := by
  induction sqlines generalizing acc with
  | nil => exact (Nat.zero_add _).ge
  | cons sql sqlines ih =>
    refine (ih _).trans ?_
    unfold SqlineMessage.receive
    rw [entries_sqline, entries_cons]
    have own : sql.name.1.map toUpper = sql.key := rfl
    rw [own]
    by_cases here : sql.key = key
    · simp only [here, and_true, if_true]
      split_ifs <;> omega
    · simp only [here, and_false, if_false]
      omega

/-- **When a server takes over all entries of a burst** on top of those it has. -/
theorem entries_burst_iff (acc sqlines : List Sqline) :
    (∀ key, Alive key → entries key (sqlinesAfter acc (send_all_sqlines sqlines)) =
      entries key sqlines + entries key acc) ↔
    BurstKept sqlines ∧ ∀ sent ∈ acc, ∀ later ∈ sqlines,
      ircMatch sent.name.1 later.name.1 = true → ¬ Alive later.key := by
  induction sqlines generalizing acc with
  | nil => simp [BurstKept, sqlinesAfter, send_all_sqlines, entries]
  | cons sql sqlines ih =>
    have split : (∀ later ∈ sqlines, ircMatch sql.name.1 later.name.1 = true → ¬ Alive later.key) ∧
        BurstKept sqlines ↔ BurstKept (sql :: sqlines) := by
      unfold BurstKept
      rw [List.pairwise_cons]
    rw [← split]
    simp only [List.mem_cons, forall_eq_or_imp]
    show (∀ key, Alive key → entries key (sqlinesAfter (SqlineMessage.receive acc (.sqline
      [sql.name, sql.passwd.getD emptyText])) (send_all_sqlines sqlines)) = _) ↔ _
    cases found : (find_sqline acc sql.name.1).isSome with
    | true =>
      have kept : SqlineMessage.receive acc (.sqline [sql.name, sql.passwd.getD emptyText]) = acc := by
        simp [SqlineMessage.receive, m_sqline, found]
      obtain ⟨sent, inside, hit⟩ := List.find?_isSome.mp found
      have quiet : ¬ Alive sql.key → ∀ later ∈ sqlines, ircMatch sql.name.1 later.name.1 = true →
          ¬ Alive later.key := fun dead later _ matched =>
        absurd ⟨_, (ircMatch_map_toUpper ..).trans matched⟩ dead
      rw [kept]
      constructor
      · intro full
        have dead : ¬ Alive sql.key := by
          intro alive
          have own := full _ alive
          have most := entries_burst_le sql.key acc sqlines
          rw [entries_cons, if_pos rfl] at own
          omega
        obtain ⟨rest, early⟩ := (ih acc).mp fun key alive => by
          rw [full key alive, entries_cons, if_neg fun same : sql.key = key => dead (same ▸ alive), Nat.add_zero]
        exact ⟨⟨quiet dead, rest⟩, fun sent inside => ⟨fun _ => dead, early sent inside⟩⟩
      · rintro ⟨⟨-, rest⟩, early⟩ key alive
        have dead := (early sent inside).1 hit
        rw [(ih acc).mpr ⟨rest, fun sent inside => (early sent inside).2⟩ key alive, entries_cons,
          if_neg fun same : sql.key = key => dead (same ▸ alive), Nat.add_zero]
    | false =>
      have added : SqlineMessage.receive acc (.sqline [sql.name, sql.passwd.getD emptyText]) =
          ⟨sql.name, sqlineReason [sql.passwd.getD emptyText]⟩ :: acc := by
        simp [SqlineMessage.receive, m_sqline, found]
      have apart : ∀ sent ∈ acc, ¬ ircMatch sent.name.1 sql.name.1 = true := by
        have absent : find_sqline acc sql.name.1 = none := by simpa using found
        exact fun sent inside => List.find?_eq_none.mp absent sent inside
      rw [added]
      have count : ∀ key, entries key (sql :: sqlines) + entries key acc = entries key sqlines +
          entries key (⟨sql.name, sqlineReason [sql.passwd.getD emptyText]⟩ :: acc) := by
        intro key
        rw [entries_cons, entries_cons]
        show _ + (if sql.key = key then 1 else 0) + _ = _ + (_ + if sql.key = key then 1 else 0)
        omega
      simp only [count]
      rw [ih]
      simp only [List.mem_cons, forall_eq_or_imp]
      constructor
      · rintro ⟨rest, own, early⟩
        exact ⟨⟨own, rest⟩, fun sent inside =>
          ⟨fun matched => absurd matched (apart sent inside), early sent inside⟩⟩
      · rintro ⟨⟨own, rest⟩, early⟩
        exact ⟨rest, own, fun sent inside => (early sent inside).2⟩

/-- **When a server that links takes over all entries.** -/
theorem alike_linked_iff (sqlines : List Sqline) :
    Alike sqlines (linkedSqlines sqlines) ↔ BurstKept sqlines := by
  have full := entries_burst_iff [] sqlines
  simp only [List.not_mem_nil, false_implies, implies_true, and_true] at full
  rw [← full]
  exact forall_congr' fun key => imp_congr_right fun _ => eq_comm

theorem entries_unsqlines (key : Text) (sqlines gone : List Sqline) :
    entries key (sqlinesAfter sqlines (gone.map fun sql => .unsqline [sql.name])) =
      entries key sqlines - entries key gone := by
  induction gone generalizing sqlines with
  | nil => rfl
  | cons sql gone ih =>
    show entries key (sqlinesAfter (SqlineMessage.receive sqlines (.unsqline [sql.name])) _) = _
    rw [ih, entries_cons]
    unfold SqlineMessage.receive
    rw [entries_unsqline]
    show _ - (if sql.key = key then 1 else 0) - _ = _
    omega

/-- Lists of which one has an entry more that some nick matches can be told apart. -/
theorem sameVerdicts_after_unsqlines (fewer : ∀ key, entries key b ≤ entries key a)
    (same : ∀ messages, SameVerdicts (sqlinesAfter a messages) (sqlinesAfter b messages)) : Alike a b := by
  rintro key ⟨nick, found⟩
  by_contra differ
  have more : entries key b < entries key a := lt_of_le_of_ne (fewer key) (Ne.symm differ)
  -- what goes: all other entries of the longer list, and those that the shorter one has
  set gone := a.filter (fun sql => sql.key ≠ key) ++ b.filter fun sql => sql.key = key with gone_eq
  have others : ∀ other, other ≠ key → entries other gone = entries other a := by
    intro other ne
    rw [gone_eq, entries_append, (entries_filter ..).2, (entries_filter ..).1, if_neg ne, if_neg ne,
      Nat.add_zero]
  have own : entries key gone = entries key b := by
    rw [gone_eq, entries_append, (entries_filter ..).2, (entries_filter ..).1, if_pos rfl, if_pos rfl,
      Nat.zero_add]
  have verdict := same (gone.map fun sql => .unsqline [sql.name]) nick
  have left : (find_sqline (sqlinesAfter a (gone.map fun sql => .unsqline [sql.name])) nick).isSome = true :=
    find_sqline_isSome.mpr ⟨key, found, by rw [entries_unsqlines, own]; omega⟩
  rw [left, eq_comm, find_sqline_isSome] at verdict
  obtain ⟨other, -, still⟩ := verdict
  rw [entries_unsqlines] at still
  by_cases here : other = key
  · rw [here, own] at still
    omega
  · rw [others other here] at still
    have less := fewer other
    omega

/-- **When two servers give the same verdicts from a link on**, whatever messages come. -/
theorem sqlines_converge_iff (earlier : List SqlineMessage) :
    (∀ messages, SameVerdicts (sqlinesAfter (sqlinesAfter [] earlier) messages)
      (sqlinesAfter (linkedSqlines (sqlinesAfter [] earlier)) messages)) ↔
    BurstKept (sqlinesAfter [] earlier) := by
  rw [← alike_linked_iff]
  refine ⟨fun same => sameVerdicts_after_unsqlines (fun key => ?_) same,
    fun alike messages => (alike.after messages).sameVerdicts⟩
  exact entries_burst_le key [] _

/-- A mask that the burst loses is missed when the mask that covered it goes. -/
theorem not_sqlines_converge :
    ¬ ∀ earlier messages, SameVerdicts (sqlinesAfter (sqlinesAfter [] earlier) messages)
      (sqlinesAfter (linkedSqlines (sqlinesAfter [] earlier)) messages) := by
  intro converge
  have verdict := converge [.sqline [⟨"bad".toList, by simp⟩], .sqline [⟨"b*".toList, by simp⟩]]
    [.unsqline [⟨"b*".toList, by simp⟩]] "bad".toList
  exact absurd verdict (by decide +kernel)

end Runs

end PtlinkIrcd
