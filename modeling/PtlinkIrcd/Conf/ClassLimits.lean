/-
**The class of a client and the limit of its send queue.**

`get_client_class` and `get_sendq` walk over the configuration lines attached to a client. Both compare
the number of each class with `retc`; only the first ever sets it.

* `get_client_class_spec` — the highest number of the classes, or `BAD_CLIENT_CLASS`.
* `get_sendq_eq` — the limit of the last class whose number is above `BAD_CLIENT_CLASS`.
* `get_sendq_iff` — **the limit is that of the client's class exactly when the last class has the same
  limit as the highest one**.
-/

import Mathlib.Data.List.Basic

namespace PtlinkIrcd

def BAD_CLIENT_CLASS : Int32 := -3

def MAXSENDQLENGTH : Int32 := 9000000

/-- What is read of a `struct Class`. -/
structure ConfClass where
  type : Int32
  maxSendq : Int64
deriving DecidableEq

/-- What is read of an attached line of the configuration: `ClassPtr`. -/
structure ClassConf where
  c_class : Option ConfClass
deriving DecidableEq

/-- What is read of a client: whether it is `me`, and `confs`. -/
structure ClassClient where
  isMe : Bool
  confs : List (Option ClassConf)
deriving DecidableEq

namespace ClassClient

def classOf (value : Option ClassConf) : Option ConfClass := value.bind ClassConf.c_class

def client_class_loop : List (Option ClassConf) → Int32 → Int32
  | [], retc => retc
  | value :: confs, retc =>
    match classOf value with
    | none => client_class_loop confs retc
    | some cl => client_class_loop confs (if retc < cl.type then cl.type else retc)

def get_client_class (acptr : ClassClient) : Int32 :=
  if acptr.isMe then BAD_CLIENT_CLASS else client_class_loop acptr.confs BAD_CLIENT_CLASS

/-- The loop of `get_sendq`, where `retc` stays what it is and `sendq` is an `int`. -/
def sendq_loop : List (Option ClassConf) → Int32 → Int32 → Int32
  | [], sendq, _ => sendq
  | value :: confs, sendq, retc =>
    match classOf value with
    | none => sendq_loop confs sendq retc
    | some cl => sendq_loop confs (if retc < cl.type then cl.maxSendq.toInt32 else sendq) retc

def get_sendq (cptr : ClassClient) : Int64 :=
  if cptr.isMe then MAXSENDQLENGTH.toInt64
  else (sendq_loop cptr.confs MAXSENDQLENGTH BAD_CLIENT_CLASS).toInt64

def classes (cptr : ClassClient) : List ConfClass := cptr.confs.filterMap classOf

def Highest (cptr : ClassClient) (top : ConfClass) : Prop :=
  top ∈ cptr.classes ∧ ∀ cl ∈ cptr.classes, cl.type ≤ top.type

/-- The classes that count: those with a number above `BAD_CLIENT_CLASS`. -/
def counted (cptr : ClassClient) : List ConfClass :=
  if cptr.isMe then [] else cptr.classes.filter (BAD_CLIENT_CLASS < ·.type)

/-! ### The class of a client -/

/-- The loop stays at `retc` or goes to the number of a class, and no number is above it. -/
theorem client_class_loop_spec (confs : List (Option ClassConf)) (retc : Int32) :
    retc ≤ client_class_loop confs retc ∧
    (∀ cl ∈ confs.filterMap classOf, cl.type ≤ client_class_loop confs retc) ∧
    (client_class_loop confs retc = retc ∨
      ∃ cl ∈ confs.filterMap classOf, cl.type = client_class_loop confs retc) := by
  induction confs generalizing retc with
  | nil => exact ⟨Int32.le_refl _, fun _ member => absurd member List.not_mem_nil, .inl rfl⟩
  | cons value confs ih =>
    cases class_ : classOf value with
    | none =>
      rw [client_class_loop, class_, List.filterMap_cons_none class_]
      exact ih retc
    | some cl =>
      rw [client_class_loop, class_, List.filterMap_cons_some class_]
      by_cases more : retc < cl.type
      · obtain ⟨above, bound, reached⟩ := ih cl.type
        simp only [if_pos more]
        refine ⟨Int32.le_trans (Int32.le_of_lt more) above,
          List.forall_mem_cons.mpr ⟨above, bound⟩, .inr ?_⟩
        rcases reached with same | ⟨other, member, same⟩
        · exact ⟨cl, List.mem_cons_self, same.symm⟩
        · exact ⟨other, List.mem_cons_of_mem _ member, same⟩
      · obtain ⟨above, bound, reached⟩ := ih retc
        simp only [if_neg more]
        refine ⟨above, List.forall_mem_cons.mpr
          ⟨Int32.le_trans (Int32.not_lt.mp more) above, bound⟩, reached.imp_right ?_⟩
        exact fun ⟨other, member, same⟩ => ⟨other, List.mem_cons_of_mem _ member, same⟩

variable {cptr : ClassClient} {top : ConfClass}

theorem get_client_class_bad (none_ : cptr.counted = []) :
    cptr.get_client_class = BAD_CLIENT_CLASS := by
  unfold get_client_class
  cases me : cptr.isMe with
  | true => rfl
  | false =>
    have low : ∀ cl ∈ cptr.classes, ¬ BAD_CLIENT_CLASS < cl.type := by
      simpa [counted, me] using none_
    rw [if_neg Bool.false_ne_true]
    obtain ⟨above, -, same | ⟨cl, member, same⟩⟩ :=
      client_class_loop_spec cptr.confs BAD_CLIENT_CLASS
    · exact same
    · rw [← same] at above ⊢
      exact Int32.le_antisymm (Int32.not_lt.mp (low cl member)) above

/-- **The class of a client is the highest number**, when some class counts. -/
theorem get_client_class_spec (some_ : cptr.counted ≠ []) :
    cptr.Highest top ↔ top ∈ cptr.classes ∧ top.type = cptr.get_client_class := by
  have plain : cptr.isMe = false := by
    cases me : cptr.isMe with
    | true => exact absurd (by rw [counted, if_pos me]) some_
    | false => rfl
  obtain ⟨cl, counts⟩ := List.exists_mem_of_ne_nil _ some_
  rw [counted, plain, if_neg Bool.false_ne_true, List.mem_filter, decide_eq_true_eq] at counts
  unfold get_client_class
  rw [plain, if_neg Bool.false_ne_true]
  obtain ⟨-, bound, reached⟩ := client_class_loop_spec cptr.confs BAD_CLIENT_CLASS
  obtain ⟨best, member, same⟩ := reached.resolve_left fun low =>
    absurd (low ▸ bound cl counts.1) (Int32.not_le.mpr counts.2)
  rw [← same] at bound ⊢
  refine and_congr_right fun inside => ⟨fun highest => ?_, fun equal cl member => ?_⟩
  · exact Int32.le_antisymm (bound top inside) (highest best member)
  · rw [equal]
    exact bound cl member

/-! ### The limit of the queue -/

/-- The loop takes the limit of the last class with a number above `retc`. -/
theorem sendq_loop_eq (confs : List (Option ClassConf)) (sendq retc : Int32) :
    sendq_loop confs sendq retc = ((((confs.filterMap classOf).filter (retc < ·.type)).getLast?.map
      (·.maxSendq.toInt32)).getD sendq) := by
  induction confs generalizing sendq with
  | nil => rfl
  | cons value confs ih =>
    cases class_ : classOf value with
    | none =>
      rw [sendq_loop, class_, List.filterMap_cons_none class_]
      exact ih sendq
    | some cl =>
      rw [sendq_loop, class_, List.filterMap_cons_some class_]
      simp only [ih]
      by_cases more : retc < cl.type
      · rw [if_pos more, List.filter_cons_of_pos (by simpa using more), List.getLast?_cons]
        cases (((confs.filterMap classOf).filter (retc < ·.type)).getLast?) <;> rfl
      · rw [if_neg more, List.filter_cons_of_neg (by simpa using more)]

/-- **The limit of the queue is that of the last class that counts**, as an `int`. -/
theorem get_sendq_eq (cptr : ClassClient) : cptr.get_sendq =
    ((cptr.counted.getLast?.map (·.maxSendq.toInt32)).getD MAXSENDQLENGTH).toInt64 := by
  unfold get_sendq counted
  split
  · rfl
  · rw [sendq_loop_eq]
    rfl

/-- **The limit of a send queue follows the class of the client.** -/
structure FollowsClass (cptr : ClassClient) (sendq : Int64) : Prop where
  without : cptr.classes = [] → sendq = MAXSENDQLENGTH.toInt64
  ofClass : cptr.classes ≠ [] →
    ∃ top, cptr.Highest top ∧ top.type = cptr.get_client_class ∧ sendq = top.maxSendq

/-- The last class that counts has the limit of a highest class, and that limit is an `int`; if none
counts the limit of the highest class is `MAXSENDQLENGTH`. -/
def LastIsHighest (cptr : ClassClient) : Prop :=
  cptr.classes = [] ∨
  (∃ last top, cptr.counted.getLast? = some last ∧ cptr.Highest top ∧
    last.maxSendq.toInt32.toInt64 = top.maxSendq) ∨
  (cptr.counted = [] ∧ ∃ top, cptr.Highest top ∧ top.type = BAD_CLIENT_CLASS ∧
    MAXSENDQLENGTH.toInt64 = top.maxSendq)

/-- **`get_sendq` returns the limit of the client's class exactly when the last class that counts has
the limit of a highest one.** -/
theorem get_sendq_iff (cptr : ClassClient) :
    cptr.FollowsClass cptr.get_sendq ↔ cptr.LastIsHighest := by
  rw [get_sendq_eq]
  by_cases any : cptr.classes = []
  · have none_ : cptr.counted = [] := by
      rw [counted, any]
      exact ite_self _
    rw [none_]
    exact iff_of_true ⟨fun _ => rfl, absurd any⟩ (.inl any)
  cases last : cptr.counted.getLast? with
  | none =>
    have none_ := List.getLast?_eq_none_iff.mp last
    constructor
    · intro follows
      obtain ⟨top, highest, class_, limit⟩ := follows.ofClass any
      exact .inr (.inr ⟨none_, top, highest, class_.trans (get_client_class_bad none_), limit⟩)
    · rintro (none_ | ⟨cl, top, some_, -⟩ | ⟨-, top, highest, class_, limit⟩)
      · exact absurd none_ any
      · exact absurd (last.symm.trans some_) (Option.some_ne_none cl).symm
      · exact ⟨(absurd · any), fun _ =>
          ⟨top, highest, class_.trans (get_client_class_bad none_).symm, limit⟩⟩
  | some cl =>
    have some_ : cptr.counted ≠ [] := List.ne_nil_of_mem (List.mem_of_getLast? last)
    constructor
    · intro follows
      obtain ⟨top, highest, -, limit⟩ := follows.ofClass any
      exact .inr (.inl ⟨cl, top, last, highest, limit⟩)
    · rintro (none_ | ⟨cl', top, same, highest, limit⟩ | ⟨none_, -⟩)
      · exact absurd none_ any
      · cases last.symm.trans same
        exact ⟨(absurd · any), fun _ =>
          ⟨top, highest, ((get_client_class_spec some_).mp highest).2, limit⟩⟩
      · exact absurd none_ some_

/-- An operator: the line of the operator, of class 10, before the line it came in by, of class 1. -/
def sampleOper : ClassClient := ⟨false, [some ⟨some ⟨10, 6000000⟩⟩, some ⟨some ⟨1, 100000⟩⟩]⟩

/-- **An operator keeps the limit of the class it came in by.** -/
theorem not_get_sendq : ¬ ∀ cptr : ClassClient, cptr.FollowsClass cptr.get_sendq := by
  intro follows
  obtain ⟨top, ⟨member, -⟩, class_, limit⟩ := (follows sampleOper).ofClass (by decide)
  have classes_ : sampleOper.classes = [⟨10, 6000000⟩, ⟨1, 100000⟩] := rfl
  rw [classes_, List.mem_pair] at member
  rcases member with rfl | rfl
  · exact absurd limit (by decide)
  · exact absurd class_ (by decide)

end ClassClient

end PtlinkIrcd
