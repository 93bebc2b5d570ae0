/-
**Reading the configuration line by line.**

The loop of `initconf` of `s_conf.c` over the lines of a file, and what a line that it rejects does to
the lines around it.

* `ConfReader.line` — what a line does to the variables of the loop.
* `ConfEnv.read` — the loop; `ConfEnv.calls` — what it does to the rest of the server, for a file.
* `ConfEnv.callsFrom` — what the lines ask for; `ConfEnv.read_iff` says that the loop does this just
  when no line makes it crash.
* `ConfEnv.LeavesNoTrace` — when a rejected line is as if it were not there.
* `kills_calls` — the K-lines of a file are those of `KlineFile`.
* `calls_without_iff` — **it is so just then**; `not_calls_without` — a `T:` line whose file cannot be
  read ends the loop.
-/

import PtlinkIrcd.Conf.ConfLine

namespace PtlinkIrcd

variable {w : Nat}

def MAXCONFLINKS : Nat := 150

/-! ### The loop -/

/-- The `C:` and the `N:` lines so far. -/
structure ConfCounts where
  ccount : Nat
  ncount : Nat
deriving DecidableEq

namespace ConfCounts

def counted (n : ConfCounts) (connect : Bool) : ConfCounts :=
  if connect then { n with ccount := n.ccount + 1 } else { n with ncount := n.ncount + 1 }

def full (n : ConfCounts) : Prop := MAXCONFLINKS < n.ncount ∨ MAXCONFLINKS < n.ccount

instance (n : ConfCounts) : Decidable n.full := inferInstanceAs (Decidable (_ ∨ _))

end ConfCounts

/-- The variables of the loop: what was done so far, the counts, and whether `aconf` points to an entry
that was freed. -/
structure ConfReader (w : Nat) where
  calls : List (ConfCall w)
  counts : ConfCounts
  dangling : Bool
deriving DecidableEq

/-- How the loop goes on. -/
inductive ConfReader.Next (w : Nat) where
  | crash
  | stop (s : ConfReader w)
  | next (s : ConfReader w)

namespace ConfReader

variable (s : ConfReader w)

def start : ConfReader w := ⟨[], ⟨0, 0⟩, false⟩

def called (calls : List (ConfCall w)) : ConfReader w := { s with calls := s.calls ++ calls }

/-- A line in the loop. The entry of an earlier line that `aconf` still points to is freed, before
anything is done with the line. -/
def line : ConfLineKind w → Next w
  | .nothing => .next s
  | .included filename => .next (s.called [.include_list filename])
  | .bad => .next s
  | kind =>
    if s.dangling then .crash
    else
      match kind with
      | .unknown => .next { s with dangling := true }
      | .server connect aconf =>
        let s := { s with counts := s.counts.counted connect }
        match aconf with
        | none => .next s
        | some aconf => if s.counts.full then .next s else .next (s.called [aconf.linked w])
      | .badOper => .next s
      | .noMotd => .stop s
      | .crash => .crash
      | .takes calls => .next (s.called calls)
      | _ => .next s

/-- Behind the loop, the entry that `aconf` still points to is freed. -/
def finish : Option (ConfReader w) := if s.dangling then none else some s

end ConfReader

namespace ConfEnv

variable (env : ConfEnv)

/-- The loop over lines; nothing when it crashes. -/
def read (w : Nat) : List Text → ConfReader w → Option (ConfReader w)
  | [], s => s.finish
  | line :: lines, s =>
    match s.line (confLineKind w env line) with
    | .crash => none
    | .stop s => s.finish
    | .next s => read w lines s

/-- What `initconf` does to the rest of the server, for a file. -/
def calls (w : Nat) (file : Text) : Option (List (ConfCall w)) :=
  (env.read w (fileBuffers file) .start).map ConfReader.calls

end ConfEnv

/-! ### What the lines ask for -/

namespace ConfCounts

variable (n : ConfCounts)

/-- What a line asks for, where so many lines are counted. -/
def asks : ConfLineKind w → List (ConfCall w)
  | .included filename => [.include_list filename]
  | .server connect (some aconf) => if (n.counted connect).full then [] else [aconf.linked w]
  | .takes calls => calls
  | _ => []

def behind : ConfLineKind w → ConfCounts
  | .server connect _ => n.counted connect
  | _ => n

def Rejects : ConfLineKind w → Prop
  | .bad | .unknown | .badOper | .noMotd => True
  | .server connect aconf => aconf = none ∨ (n.counted connect).full
  | _ => False

end ConfCounts

namespace ConfEnv

variable (env : ConfEnv)

/-- What the lines ask for, up to the first `T:` line whose file cannot be read. -/
def callsFrom (w : Nat) : List Text → ConfCounts → List (ConfCall w)
  | [], _ => []
  | line :: lines, n =>
    let kind := confLineKind w env line
    if kind = .noMotd then [] else n.asks kind ++ callsFrom w lines (n.behind kind)

/-- Something holds of each line that the loop comes to, with the counts before it. -/
def Along (Q : ConfCounts → ConfLineKind w → Prop) : List Text → ConfCounts → Prop
  | [], _ => True
  | line :: lines, n =>
    let kind := confLineKind w env line
    Q n kind ∧ (kind = .noMotd ∨ Along Q lines (n.behind kind))

/-- No line makes the loop crash: none has an unknown letter, and the fields that are used are there. -/
def Sound (w : Nat) : List Text → ConfCounts → Prop :=
  env.Along fun (_ : ConfCounts) (kind : ConfLineKind w) => kind ≠ .unknown ∧ kind ≠ .crash

/-- Where the loop is behind some lines, if it goes on there. -/
def after (w : Nat) : List Text → ConfReader w → Option (ConfReader w)
  | [], s => some s
  | line :: lines, s =>
    match s.line (confLineKind w env line) with
    | .next s => after w lines s
    | _ => none

/-- When a rejected line is as if it were not there; `n` are the counts before it. -/
structure LeavesNoTrace (w : Nat) (pre : List Text) (line : Text) (post : List Text) (n : ConfCounts) :
    Prop where
  before : ∀ l ∈ pre, confLineKind w env l ≠ .unknown
  known : confLineKind w env line ≠ .unknown
  sound : env.Sound w post n
  /-- Behind a `T:` line whose file cannot be read nothing is asked for. -/
  motd : confLineKind w env line = .noMotd →
    env.Along (fun n (kind : ConfLineKind w) => n.asks kind = []) post n
  /-- What there is room for behind a `C:` or `N:` line, there is room for with one more such line. -/
  room : ∀ connect aconf, confLineKind w env line = .server connect aconf →
    env.Along (fun n (kind : ConfLineKind w) => ∀ own given, kind = .server own (some given) →
      ¬ (n.counted own).full → ¬ ((n.counted connect).counted own).full) post n

section Reading

variable {env : ConfEnv} {s t : ConfReader w} {pre post lines : List Text} {line : Text}
variable {kind : ConfLineKind w} {n : ConfCounts} {calls : List (ConfCall w)}

theorem read_dangling (dangling : s.dangling = true) : env.read w lines s = none := by
  induction lines generalizing s with
  | nil => exact if_pos dangling
  | cons line lines ih =>
    unfold read
    cases confLineKind w env line with
    | nothing => exact ih dangling
    | included filename => exact ih dangling
    | bad => exact ih dangling
    | _ => simp [ConfReader.line, dangling]

theorem line_next (clean : s.dangling = false) (known : kind ≠ .unknown) (sound : kind ≠ .crash)
    (goes : kind ≠ .noMotd) : s.line kind =
      .next ⟨s.calls ++ s.counts.asks kind, s.counts.behind kind, false⟩ := by
  obtain ⟨calls, counts, dangling⟩ := s
  obtain rfl : dangling = false := clean
  cases kind with
  | unknown => exact absurd rfl known
  | crash => exact absurd rfl sound
  | noMotd => exact absurd rfl goes
  | server connect aconf =>
    cases aconf with
    | none => simp [ConfReader.line, ConfCounts.asks, ConfCounts.behind]
    | some aconf =>
      by_cases full : (counts.counted connect).full
      · simp [ConfReader.line, ConfCounts.asks, ConfCounts.behind, full]
      · simp [ConfReader.line, ConfCounts.asks, ConfCounts.behind, ConfReader.called, full]
  | _ => simp [ConfReader.line, ConfCounts.asks, ConfCounts.behind, ConfReader.called]

/-- **The loop does what the lines ask for just when no line makes it crash.** -/
theorem read_iff (clean : s.dangling = false) : (env.read w lines s).map ConfReader.calls = some calls ↔
    env.Sound w lines s.counts ∧ s.calls ++ env.callsFrom w lines s.counts = calls := by
  induction lines generalizing s with
  | nil =>
    simp [read, ConfReader.finish, clean, Sound, Along, callsFrom]
  | cons line lines ih =>
    unfold read Sound Along callsFrom
    dsimp only
    generalize confLineKind w env line = kind
    by_cases unknown : kind = .unknown
    · subst unknown
      simp [ConfReader.line, clean, read_dangling]
    by_cases crash : kind = .crash
    · subst crash
      simp [ConfReader.line, clean]
    by_cases noMotd : kind = .noMotd
    · subst noMotd
      simp [ConfReader.line, clean, ConfReader.finish]
    · rw [line_next clean unknown crash noMotd, if_neg noMotd]
      dsimp only
      rw [ih rfl, ← List.append_assoc]
      simp [unknown, crash, noMotd, Sound]

theorem after_dangling (dangling : s.dangling = true) (reached : env.after w lines s = some t) :
    t.dangling = true := by
  induction lines generalizing s with
  | nil =>
    obtain rfl := Option.some.inj reached
    exact dangling
  | cons line lines ih =>
    unfold after at reached
    cases kind : confLineKind w env line with
    | nothing =>
      rw [kind] at reached
      exact ih dangling reached
    | included filename =>
      rw [kind] at reached
      have dangling' : (s.called [.include_list filename]).dangling = true := dangling
      exact ih dangling' reached
    | bad =>
      rw [kind] at reached
      exact ih dangling reached
    | _ => simp [kind, ConfReader.line, dangling] at reached

/-- Where the loop comes to, an entry that was freed is pointed to if some line had an unknown letter. -/
theorem after_clean (clean : s.dangling = false) (reached : env.after w pre s = some t) :
    t.dangling = false ↔ ∀ l ∈ pre, confLineKind w env l ≠ .unknown := by
  induction pre generalizing s with
  | nil =>
    obtain rfl := Option.some.inj reached
    exact iff_of_true clean nofun
  | cons line lines ih =>
    unfold after at reached
    rw [List.forall_mem_cons]
    generalize confLineKind w env line = kind at reached
    by_cases unknown : kind = .unknown
    · subst unknown
      simp only [ConfReader.line, clean] at reached
      have dangling := after_dangling rfl reached
      exact iff_of_false (by simp [dangling]) fun known => known.1 rfl
    by_cases crash : kind = .crash
    · subst crash
      simp [ConfReader.line, clean] at reached
    by_cases noMotd : kind = .noMotd
    · subst noMotd
      simp [ConfReader.line, clean] at reached
    · rw [line_next clean unknown crash noMotd] at reached
      rw [and_iff_right unknown]
      exact ih rfl reached

theorem read_append (reached : env.after w pre s = some t) (lines : List Text) :
    env.read w (pre ++ lines) s = env.read w lines t := by
  induction pre generalizing s with
  | nil =>
    obtain rfl := Option.some.inj reached
    rfl
  | cons line pre ih =>
    unfold after at reached
    rw [List.cons_append, read]
    cases next : s.line (confLineKind w env line) with
    | crash => simp [next] at reached
    | stop s' => simp [next] at reached
    | next s' =>
      rw [next] at reached
      exact ih reached

theorem sound_congr (lines : List Text) (n m : ConfCounts) : env.Sound w lines n ↔ env.Sound w lines m := by
  induction lines generalizing n m with
  | nil => exact Iff.rfl
  | cons line lines ih => exact and_congr_right fun _ => or_congr_right (ih _ _)

theorem callsFrom_eq_nil : env.callsFrom w lines n = [] ↔
    env.Along (fun n (kind : ConfLineKind w) => n.asks kind = []) lines n := by
  induction lines generalizing n with
  | nil => exact iff_of_true rfl trivial
  | cons line lines ih =>
    unfold callsFrom Along
    dsimp only
    split_ifs with noMotd
    · rw [noMotd]
      exact iff_of_true rfl ⟨rfl, .inl rfl⟩
    · rw [List.append_eq_nil_iff, ih, or_iff_right noMotd]

/-! ### One more line that is counted -/

theorem counted_comm (n : ConfCounts) (a b : Bool) : (n.counted a).counted b = (n.counted b).counted a := by
  cases a <;> cases b <;> rfl

theorem full_counted (full : n.full) (a : Bool) : (n.counted a).full := by
  unfold ConfCounts.full ConfCounts.counted at *
  cases a
  · exact full.imp_left Nat.lt_succ_of_lt
  · exact full.imp_right Nat.lt_succ_of_lt

theorem behind_counted (n : ConfCounts) (a : Bool) (kind : ConfLineKind w) :
    (n.counted a).behind kind = (n.behind kind).counted a := by
  cases kind with
  | server connect aconf => exact counted_comm n a connect
  | _ => rfl

/-- With one more line counted no more is asked for, and as much just when there is room. -/
theorem asks_counted (n : ConfCounts) (a : Bool) (kind : ConfLineKind w) :
    ((n.counted a).asks kind).length ≤ (n.asks kind).length ∧
      ((n.counted a).asks kind = n.asks kind ↔ ∀ own given, kind = .server own (some given) →
        ¬ (n.counted own).full → ¬ ((n.counted a).counted own).full) := by
  cases kind with
  | server own given =>
    cases given with
    | none => exact ⟨le_rfl, iff_of_true rfl fun _ _ same => by cases same⟩
    | some given =>
      unfold ConfCounts.asks
      dsimp only
      by_cases full : (n.counted own).full
      · have more : ((n.counted a).counted own).full := counted_comm n a own ▸ full_counted full a
        rw [if_pos full, if_pos more]
        refine ⟨le_rfl, iff_of_true rfl fun own' given' same room => ?_⟩
        obtain ⟨rfl, -⟩ := ConfLineKind.server.inj same
        exact absurd full room
      · rw [if_neg full]
        by_cases more : ((n.counted a).counted own).full
        · rw [if_pos more]
          exact ⟨Nat.zero_le _, iff_of_false (by simp) fun room => room own given rfl full more⟩
        · rw [if_neg more]
          refine ⟨le_rfl, iff_of_true rfl fun own' given' same _ => ?_⟩
          obtain ⟨rfl, -⟩ := ConfLineKind.server.inj same
          exact more
  | _ => exact ⟨le_rfl, iff_of_true rfl fun _ _ same => by cases same⟩

/-- **The lines ask for as much with one more line counted** just when there is room for each. -/
theorem callsFrom_counted (a : Bool) :
    (env.callsFrom w lines (n.counted a)).length ≤ (env.callsFrom w lines n).length ∧
      (env.callsFrom w lines (n.counted a) = env.callsFrom w lines n ↔
        env.Along (fun n (kind : ConfLineKind w) => ∀ own given, kind = .server own (some given) →
          ¬ (n.counted own).full → ¬ ((n.counted a).counted own).full) lines n) := by
  induction lines generalizing n with
  | nil => exact ⟨le_rfl, iff_of_true rfl trivial⟩
  | cons line lines ih =>
    unfold callsFrom Along
    dsimp only
    generalize confLineKind w env line = kind
    split_ifs with noMotd
    · subst noMotd
      exact ⟨le_rfl, iff_of_true rfl ⟨(fun _ _ same => by cases same), .inl rfl⟩⟩
    · obtain ⟨fewer, here⟩ := asks_counted n a kind
      obtain ⟨fewerLater, later⟩ := @ih (n.behind kind)
      rw [behind_counted, or_iff_right noMotd, ← here, ← later, List.length_append, List.length_append]
      refine ⟨Nat.add_le_add fewer fewerLater, fun same => ?_, fun same => by rw [same.1, same.2]⟩
      -- neither part can make up for the other
      have lengths := congrArg List.length same
      rw [List.length_append, List.length_append] at lengths
      exact List.append_inj same (by omega)

/-! ### Without a rejected line -/

theorem read_both_iff (clean : s.dangling = false) :
    (∃ calls, (env.read w (line :: post) s).map ConfReader.calls = some calls ∧
        (env.read w post s).map ConfReader.calls = some calls) ↔
      env.Sound w (line :: post) s.counts ∧ env.Sound w post s.counts ∧
        env.callsFrom w (line :: post) s.counts = env.callsFrom w post s.counts := by
  simp only [read_iff clean]
  constructor
  · rintro ⟨calls, ⟨sound, asked⟩, sound', asked'⟩
    exact ⟨sound, sound', List.append_cancel_left (asked.trans asked'.symm)⟩
  · rintro ⟨sound, sound', asked⟩
    exact ⟨_, ⟨sound, rfl⟩, sound', by rw [asked]⟩

/-- **A rejected line leaves no trace** in the loop just when it is such a one. -/
theorem read_without_iff (clean : s.dangling = false) (before : ∀ l ∈ pre, confLineKind w env l ≠ .unknown)
    (rejected : s.counts.Rejects (confLineKind w env line)) :
    (∃ calls, (env.read w (line :: post) s).map ConfReader.calls = some calls ∧
        (env.read w post s).map ConfReader.calls = some calls) ↔
      env.LeavesNoTrace w pre line post s.counts := by
  rw [read_both_iff clean]
  have sound : env.Sound w (line :: post) s.counts ↔
      (confLineKind w env line ≠ .unknown ∧ confLineKind w env line ≠ .crash) ∧
        (confLineKind w env line = .noMotd ∨
          env.Sound w post (s.counts.behind (confLineKind w env line))) := Iff.rfl
  have asked : env.callsFrom w (line :: post) s.counts =
      if confLineKind w env line = .noMotd then []
      else s.counts.asks (confLineKind w env line) ++
        env.callsFrom w post (s.counts.behind (confLineKind w env line)) := rfl
  rw [sound, asked]
  clear sound asked
  cases kind : confLineKind w env line with
  | unknown => exact iff_of_false (fun all => all.1.1.1 rfl) fun without => without.known kind
  | noMotd =>
    have idle : [] = env.callsFrom w post s.counts ↔ _ := eq_comm.trans callsFrom_eq_nil
    rw [if_pos rfl, idle]
    constructor
    · rintro ⟨-, sound, idle⟩
      exact ⟨before, by simp [kind], sound, fun _ => idle, by simp [kind]⟩
    · intro without
      exact ⟨⟨by simp, .inl rfl⟩, without.sound, without.motd kind⟩
  | server connect aconf =>
    have nothing : s.counts.asks (confLineKind w env line) = [] := by
      rw [kind] at rejected ⊢
      cases aconf with
      | none => rfl
      | some aconf => exact if_pos (rejected.resolve_left (by simp))
    rw [kind] at nothing
    have room := (callsFrom_counted connect :
      (env.callsFrom w post (s.counts.counted connect)).length ≤ (env.callsFrom w post s.counts).length ∧
        _).2
    rw [if_neg (by simp), nothing, List.nil_append]
    constructor
    · rintro ⟨-, sound, same⟩
      refine ⟨before, by simp [kind], sound, by simp [kind], fun own given here => ?_⟩
      obtain ⟨rfl, -⟩ := ConfLineKind.server.inj (kind.symm.trans here)
      exact room.mp same
    · intro without
      exact ⟨⟨by simp, .inr ((sound_congr post _ _).mp without.sound)⟩, without.sound,
        room.mpr (without.room connect aconf kind)⟩
  | bad | badOper =>
    rw [if_neg (by simp)]
    constructor
    · rintro ⟨-, sound, -⟩
      exact ⟨before, by simp [kind], sound, by simp [kind], by simp [kind]⟩
    · intro without
      exact ⟨⟨by simp, .inr without.sound⟩, without.sound, rfl⟩
  | _ =>
    rw [kind] at rejected
    exact rejected.elim

end Reading

end ConfEnv

/-- **The configuration that is read is that without the rejected line** just when the line leaves no
trace: its letter is known, no other line makes the loop crash, behind a `T:` line whose file cannot
be read nothing is asked for, and behind a `C:` or `N:` line there is room for one more. -/
theorem calls_without_iff (env : ConfEnv) {file file' : Text} {pre post : List Text} {line : Text}
    {s : ConfReader w} (lines : fileBuffers file = pre ++ line :: post)
    (lines' : fileBuffers file' = pre ++ post) (reached : env.after w pre .start = some s)
    (rejected : s.counts.Rejects (confLineKind w env line)) :
    (∃ calls, env.calls w file = some calls ∧ env.calls w file' = some calls) ↔
      env.LeavesNoTrace w pre line post s.counts := by
  unfold ConfEnv.calls
  rw [lines, lines', ConfEnv.read_append reached, ConfEnv.read_append reached]
  by_cases before : ∀ l ∈ pre, confLineKind w env l ≠ .unknown
  · exact ConfEnv.read_without_iff ((ConfEnv.after_clean rfl reached).mpr before) before rejected
  · have dangling : s.dangling = true := by
      rw [← Bool.not_eq_false]
      exact fun clean => before ((ConfEnv.after_clean rfl reached).mp clean)
    refine iff_of_false ?_ fun without => before without.before
    rintro ⟨calls, read, -⟩
    rw [ConfEnv.read_dangling dangling] at read
    cases read

/-- **The K-lines of a file** are those that its lines are acted on with, when it is read to its end. -/
theorem kills_calls (env : ConfEnv) {file : Text} {calls : List (ConfCall w)}
    (plain : env.use_include = false)
    (noMotd : ∀ line ∈ fileBuffers file, confLineKind w env line ≠ .noMotd)
    (read : env.calls w file = some calls) :
    (initconf w file).filter ConfEntry.isKill = calls.filterMap ConfCall.kill := by
  have asked := ((ConfEnv.read_iff rfl).mp read).2
  rw [← asked]
  show _ = (env.callsFrom w _ ⟨0, 0⟩).filterMap ConfCall.kill
  unfold initconf
  clear read asked
  generalize fileBuffers file = lines at noMotd ⊢
  generalize (⟨0, 0⟩ : ConfCounts) = n
  induction lines generalizing n with
  | nil => rfl
  | cons line lines ih =>
    rw [List.forall_mem_cons] at noMotd
    have here : (n.asks (confLineKind w env line)).filterMap ConfCall.kill =
        (confLineKind w env line).asked.filterMap ConfCall.kill := by
      cases confLineKind w env line with
      | server connect aconf =>
        cases aconf with
        | none => rfl
        | some aconf =>
          unfold ConfCounts.asks
          dsimp only
          split <;> rfl
      | _ => rfl
    rw [List.flatMap_cons, List.filter_append, kills_confLine line plain, ConfEnv.callsFrom,
      if_neg noMotd.1, List.filterMap_append, here, ih noMotd.2]

/-- A server that reads its own configuration, and finds no file for a `T:` line. -/
def sampleConfEnv : ConfEnv := ⟨true, false, fun _ => false⟩

/-- An `N:` line without a password. -/
theorem calls_without_iff_sample :
    ∃ calls : List (ConfCall 64),
      sampleConfEnv.calls 64 "A:a:b:c\nN:hub.example\nX:bad::\n".toList = some calls ∧
        sampleConfEnv.calls 64 "A:a:b:c\nX:bad::\n".toList = some calls := by
  have reached : sampleConfEnv.after 64 ["A:a:b:c\n".toList] .start =
      some ⟨[.ConfigItemList ⟨.admin, 0, some ['a'], some ['b'], some ['c'], none, 0, 0, none, none, none,
        none, 0⟩], ⟨0, 0⟩, false⟩ := by decide +kernel
  have kind : confLineKind 64 sampleConfEnv "N:hub.example\n".toList = .server false none := by
    decide +kernel
  have behind : confLineKind 64 sampleConfEnv "X:bad::\n".toList =
      .takes [.x_conf ⟨.xline, 0, none, some [], none, some "bad".toList, 0, 0, none, none, none, none, 0⟩] := by
    decide +kernel
  have lines : fileBuffers "A:a:b:c\nN:hub.example\nX:bad::\n".toList =
      ["A:a:b:c\n".toList] ++ "N:hub.example\n".toList :: ["X:bad::\n".toList] := by decide +kernel
  have rejected : (⟨0, 0⟩ : ConfCounts).Rejects (confLineKind 64 sampleConfEnv "N:hub.example\n".toList) := by
    rw [kind]
    exact .inl rfl
  refine (calls_without_iff sampleConfEnv lines (by decide +kernel) reached rejected).mpr ?_
  exact
    { before := by decide +kernel
      known := fun unknown => by
        rw [kind] at unknown
        cases unknown
      sound := ⟨by decide +kernel, .inr trivial⟩
      motd := fun noMotd => by
        rw [kind] at noMotd
        cases noMotd
      room := fun connect _ _ => by
        refine ⟨fun own given server => ?_, .inr trivial⟩
        rw [behind] at server
        cases server }

/-- **A `T:` line whose file cannot be read** ends the loop: the `A:` line behind it is not read. -/
theorem not_calls_without :
    (⟨0, 0⟩ : ConfCounts).Rejects (confLineKind 64 sampleConfEnv "T:*:no.motd\n".toList) ∧
      fileBuffers "T:*:no.motd\nA:a:b:c\n".toList = "T:*:no.motd\n".toList :: ["A:a:b:c\n".toList] ∧
        fileBuffers "A:a:b:c\n".toList = ["A:a:b:c\n".toList] ∧
          sampleConfEnv.calls 64 "T:*:no.motd\nA:a:b:c\n".toList = some [] ∧
            sampleConfEnv.calls 64 "A:a:b:c\n".toList =
              some [.ConfigItemList ⟨.admin, 0, some ['a'], some ['b'], some ['c'], none, 0, 0, none, none,
                none, none, 0⟩] ∧
              ¬ ∃ calls : List (ConfCall 64),
                sampleConfEnv.calls 64 "T:*:no.motd\nA:a:b:c\n".toList = some calls ∧
                  sampleConfEnv.calls 64 "A:a:b:c\n".toList = some calls := by
  have kind : confLineKind 64 sampleConfEnv "T:*:no.motd\n".toList = .noMotd := by decide +kernel
  have with_ : sampleConfEnv.calls 64 "T:*:no.motd\nA:a:b:c\n".toList = some [] := by decide +kernel
  have without : sampleConfEnv.calls 64 "A:a:b:c\n".toList =
      some [.ConfigItemList ⟨.admin, 0, some ['a'], some ['b'], some ['c'], none, 0, 0, none, none, none,
        none, 0⟩] := by decide +kernel
  refine ⟨?_, by decide +kernel, by decide +kernel, with_, without, ?_⟩
  · rw [kind]
    exact trivial
  · rintro ⟨calls, same, same'⟩
    obtain rfl := Option.some.inj (with_.symm.trans same)
    exact absurd (without.symm.trans same') (by simp)

end PtlinkIrcd
