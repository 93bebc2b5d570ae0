/-
**The arrays that `send_umode` writes to.**

`send_umode` trusts its caller with the size of the array. `send_umode_out` brings `BUFSIZE` bytes,
the introduction of a user to a server 32 and `register_user` twelve, which is what a local user can
need: the mask is not applied to others.

* `UmodeCall` — the calls, each with what it passes.
* `length_send_umode`, `length_intro` — what is written.
* `umode_buffers_fit_iff` — **all arrays hold what is written, but for that of `register_user` when
  another server introduces a user with more than ten modes.**
-/

import PtlinkIrcd.User.ModeString
import PtlinkIrcd.User.Register

namespace PtlinkIrcd

/-! ### The calls -/

/-- A call of `send_umode`: the two of `send_umode_out`, those of `sendnick_TS` and of
`register_user`. -/
inductive UmodeCall
  | send_umode_out
  | own_umode_out
  | sendnick_TS
  | register_user
  deriving DecidableEq

namespace UmodeCall

/-- The old modes: those before a change, or none. -/
def old (umodes : Flags) : UmodeCall → Flags
  | .send_umode_out | .own_umode_out => umodes
  | .sendnick_TS | .register_user => 0

def sendmask : UmodeCall → Flags
  | .send_umode_out | .sendnick_TS => ALL_UMODES
  | .own_umode_out => ALL_UMODES &&& ~~~UMODE_ZOMBIE
  | .register_user => USER_UMODES

def size : UmodeCall → Nat
  | .send_umode_out | .own_umode_out => BUFSIZE
  | .sendnick_TS => 32
  | .register_user => 12

def written (call : UmodeCall) (x : Client) (umodes : Flags) : Text :=
  Ircd.send_umode x (call.old umodes) call.sendmask

def Fits (call : UmodeCall) (x : Client) (umodes : Flags) : Prop :=
  (call.written x umodes).length + 1 ≤ call.size

instance (call : UmodeCall) (x : Client) (umodes : Flags) : Decidable (call.Fits x umodes) :=
  inferInstanceAs (Decidable (_ ≤ _))

end UmodeCall

/-! ### What is written -/

theorem length_letterIf_le (b : ModeLine) (p : Bool) (sign c : Char) :
    (b.letterIf p sign c).mbuf.length ≤ b.mbuf.length + if p then 2 else 0 := by
  unfold ModeLine.letterIf
  cases p with
  | true =>
    unfold ModeLine.letter
    simp only [if_true, List.length_append, List.length_singleton]
    split
    · rw [List.length_nil]
      omega
    · rw [List.length_singleton]
  | false => exact Nat.le_refl _

/-- **Two characters for each entry at most.** -/
theorem length_send_umode (x : Client) (old sendmask : Flags) :
    (Ircd.send_umode x old sendmask).length ≤ 2 * user_modes.length := by
  have run : ∀ (table : List (Flags × Char)) (b : ModeLine),
      (table.foldl (fun b f => (b.letterIf (old.has f.1 && !x.umodes.has f.1) '-' f.2).letterIf
        (!old.has f.1 && x.umodes.has f.1) '+' f.2) b).mbuf.length ≤
        b.mbuf.length + 2 * table.length := by
    intro table
    induction table with
    | nil => exact fun _ => Nat.le_refl _
    | cons f table ih =>
      intro b
      have removed := length_letterIf_le b (old.has f.1 && !x.umodes.has f.1) '-' f.2
      have added := length_letterIf_le (b.letterIf (old.has f.1 && !x.umodes.has f.1) '-' f.2)
        (!old.has f.1 && x.umodes.has f.1) '+' f.2
      rw [List.foldl_cons, List.length_cons]
      refine (ih _).trans ?_
      -- a mode is removed or added, not both
      cases was : old.has f.1 <;> cases is : x.umodes.has f.1 <;>
        simp [was, is] at removed added ⊢ <;> omega
  have few := List.length_filter_le (fun f => !x.myClient || f.1.has sendmask) user_modes
  unfold Ircd.send_umode
  have all := run (user_modes.filter fun f => !x.myClient || f.1.has sendmask) .empty
  change _ ≤ 0 + _ at all
  omega

/-- The entries of the table that a user has. -/
def setModes (umodes : Flags) : List (Flags × Char) := user_modes.filter fun f => umodes.has f.1

/-- The entries that an introduction names. -/
def introModes (x : Client) (sendmask : Flags) : List (Flags × Char) :=
  (user_modes.filter fun f => !x.myClient || f.1.has sendmask).filter fun f => x.umodes.has f.1

/-- **An introduction is a sign and the modes it names.** -/
theorem length_intro (x : Client) (sendmask : Flags) :
    (Ircd.send_umode x 0 sendmask).length ≤ (introModes x sendmask).length + 1 ∧
      (introModes x sendmask ≠ [] →
        (Ircd.send_umode x 0 sendmask).length = (introModes x sendmask).length + 1) := by
  have letters := congrArg List.length (intro_letters x sendmask)
  rw [List.length_drop, List.length_map] at letters
  change _ = (introModes x sendmask).length at letters
  unfold Ircd.introUmode at letters
  split at letters
  · rename_i none_
    rw [none_, List.length_nil]
    rw [List.length_singleton] at letters
    exact ⟨Nat.zero_le _, fun some_ => absurd (List.length_eq_zero_iff.mp letters.symm) some_⟩
  · refine ⟨by omega, fun some_ => ?_⟩
    have positive := List.length_pos_iff.mpr some_
    omega

/-- The entries that the introduction of a user of this server may name. -/
theorem introModes_own {x : Client} (own : x.myClient = true) :
    (introModes x USER_UMODES).length ≤ 10 := by
  unfold introModes
  rw [own]
  exact (List.length_filter_le ..).trans (by decide)

theorem introModes_other {x : Client} (other : x.myClient = false) (sendmask : Flags) :
    introModes x sendmask = setModes x.umodes := by
  have all : (user_modes.filter fun f => !x.myClient || f.1.has sendmask) = user_modes := by
    rw [other]
    exact List.filter_eq_self.mpr fun _ _ => rfl
  unfold introModes
  rw [all]
  rfl

theorem introModes_le (x : Client) (sendmask : Flags) : (introModes x sendmask).length ≤ 20 :=
  (List.length_filter_le ..).trans (List.length_filter_le ..)

/-! ### The arrays -/

namespace Ircd

/-- **When the arrays of the callers hold what `send_umode` writes.** -/
theorem umode_buffers_fit_iff (call : UmodeCall) (x : Client) (umodes : Flags) :
    call.Fits x umodes ↔
      (call = .register_user → x.myClient = false → (setModes x.umodes).length ≤ 10) := by
  have table : user_modes.length = 20 := rfl
  have change := length_send_umode x (call.old umodes) call.sendmask
  rw [table] at change
  unfold UmodeCall.Fits UmodeCall.written
  cases call with
  | send_umode_out | own_umode_out =>
    simp only [reduceCtorEq, false_implies, iff_true]
    exact (Nat.succ_le_succ change).trans (by decide)
  | sendnick_TS =>
    simp only [reduceCtorEq, false_implies, iff_true]
    have intro_ := (length_intro x ALL_UMODES).1
    have few := introModes_le x ALL_UMODES
    change (send_umode x 0 ALL_UMODES).length + 1 ≤ 32
    omega
  | register_user =>
    simp only [true_implies]
    obtain ⟨most, exact_⟩ := length_intro x USER_UMODES
    change (send_umode x 0 USER_UMODES).length + 1 ≤ 12 ↔ _
    cases own : x.myClient with
    | true =>
      have few := introModes_own own
      simp only [Bool.true_eq_false, false_implies, iff_true]
      omega
    | false =>
      rw [introModes_other own] at most exact_
      simp only [true_implies]
      by_cases none_ : setModes x.umodes = []
      · rw [none_, List.length_nil] at most ⊢
        omega
      · rw [exact_ none_]
        omega

/-- A user that the server on block 1 introduces. -/
def sampleIntroduced (modes : Text) : Ircd :=
  ((boot sampleConf 1000 "home").after (.introduce 1 sampleServer)).nickkilldone 1 2 "ann" modes "a"
    "a.org" "a.org" "hub" 900

/-- **A user whom another server introduces with all its modes** is registered, and the modes run
over the array of `register_user`. -/
theorem not_umode_buffers_fit : ((sampleIntroduced "+aABfhHiNoOp").client 2).name = "ann" ∧
    ((sampleIntroduced "+aABfhHiNoOp").client 2).user.isSome = true ∧
    ¬ UmodeCall.register_user.Fits ((sampleIntroduced "+aABfhHiNoOp").client 2) 0 := by
  decide +kernel

end Ircd

end PtlinkIrcd
