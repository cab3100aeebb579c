/-
# No interrupt storm

A line that was asserted stays asserted while its handler is at work.  What keeps a run from
taking the interrupt again and again is the mask: entering either handler disables the ordinary
interrupt, and entering the fast one disables both.  So as long as nobody else touches the
masks, each interrupt can be taken once, and the ordinary one only as the first.

The list `unmasked` of the interrupts that can still be taken says all of it: every move takes
from its front what it enters.

* `Moves.unmasked_sublist`: what one move takes;
* `interrupts_taken_once`: what a whole run takes.
-/
import Handheld.Memory.Ram
import Handheld.Proofs.Core.SavedStatus

namespace Handheld

/-- What may change a mask, or enters a handler of its own accord. -/
def Request.masks {κ σ : Type} : Request κ σ → Bool
  | .setStatus _ | .setMode _ | .setIrqDisable _ | .setFiqDisable _ | .reset => true
  | _ => false

namespace Core

open scoped List

variable {β κ σ : Type}

def Control.masks : Control κ σ → Bool
  | .program (.ask r _) => r.masks
  | .program (.raise _ _) => true
  | _ => false

/-! ## 1. What can still be taken -/

/-- The interrupts that are not masked, in the order in which they can still be taken. -/
def unmasked (c : Core β κ σ) : List Exception :=
  (if c.status.irqDisable then [] else [.irq]) ++ (if c.status.fiqDisable then [] else [.fiq])

theorem unmasked_sublist (c : Core β κ σ) : c.unmasked <+ [.irq, .fiq] := by
  unfold unmasked
  cases c.status.irqDisable <;> cases c.status.fiqDisable <;> decide

/-- No handler starts with the ordinary interrupt enabled. -/
theorem unmasked_enter (c : Core β κ σ) (e : Exception) :
    (c.enter e).unmasked = if e.disablesFiq || c.status.fiqDisable then [] else [.fiq] := by
  rw [enter_eq, unmasked, irqDisable_entryStatus, fiqDisable_entryStatus]
  exact List.nil_append _

/-- Entering the handler of the interrupt that is due takes that one from the list. -/
theorem unmasked_enter_pending {c : Core β κ σ} {e : Exception}
    (he : c.pendingInterrupt? = some e) : e :: (c.enter e).unmasked <+ c.unmasked := by
  rw [unmasked_enter]
  -- the fast interrupt leaves nothing that can be taken, the ordinary one leaves the fast one
  simp only [pendingInterrupt?, Bool.and_eq_true, Bool.not_eq_true'] at he
  split at he
  · rename_i fast
    cases he
    rw [unmasked, fast.2]
    exact List.sublist_append_right _ _
  · split at he
    · rename_i ordinary
      cases he
      rw [unmasked, ordinary.2]
      exact List.Sublist.refl _
    · cases he

theorem unmasked_of_status {c c' : Core β κ σ} (h : c'.status = c.status) :
    c'.unmasked = c.unmasked := by
  rw [unmasked, unmasked, h]

theorem unmasked_setInstructionSet (c : Core β κ σ) (i : InstructionSet) :
    (c.setInstructionSet i).unmasked = c.unmasked := by
  have irq : (c.setInstructionSet i).status.irqDisable = c.status.irqDisable := by
    simp [setInstructionSet, Status.setInstructionSet, Status.irqDisable, Status.flag_setFlag]
  have fiq : (c.setInstructionSet i).status.fiqDisable = c.status.fiqDisable := by
    simp [setInstructionSet, Status.setInstructionSet, Status.fiqDisable, Status.flag_setFlag]
  rw [unmasked, unmasked, irq, fiq]

/-! ## 2. What is taken -/

variable [Bus β]

/-- The exceptions that are entered in the `n` moments from `i` on. -/
def entered (path : Nat → Moment β κ σ) (i n : Nat) : List Exception :=
  (List.range' i n).filterMap fun k => (path k).enters?

theorem entered_succ (path : Nat → Moment β κ σ) (i n : Nat) :
    entered path i (n + 1) = entered path i n ++ (path (i + n)).enters?.toList := by
  rw [entered, entered, List.range'_1_concat, List.filterMap_append]
  cases h : (path (i + n)).enters? <;> simp [h]

variable [Coprocessor κ] {x y : Moment β κ σ}

/-- What one step takes, if nobody touches the masks. -/
theorem Moment.unmasked_step (x : Moment β κ σ) (calm : x.control.masks = false) :
    x.enters?.toList ++ x.step.core.unmasked <+ x.core.unmasked := by
  have untouched : x.enters? = none → x.step.core.unmasked = x.core.unmasked →
      x.enters?.toList ++ x.step.core.unmasked <+ x.core.unmasked := by
    intro enters same
    rw [enters, same]
    exact List.Sublist.refl _
  have kept := fun h => unmasked_of_status (x.step_keeps .status h)
  obtain ⟨c, control, K⟩ := x
  match control with
  | .round s next =>
    rw [core_step_round]
    rcases round_cases c K s next with ⟨e, enters, pending, core⟩ | ⟨enters, clock, asked, core⟩
    · rw [enters, core]
      exact unmasked_enter_pending (c := c.sampled) pending
    · rw [enters, core]
      exact List.Sublist.refl _
  | .program (.ask r next) =>
    cases r with
    | setStatus s | setMode m | setIrqDisable b | setFiqDisable b | reset => cases calm
    | setInstructionSet i => exact untouched rfl (unmasked_setInstructionSet c i)
    | _ => exact untouched rfl (kept (of_decide_eq_false rfl))
  | .program (.raise e next) => cases calm
  | .stopped e | .program (.done n) | .program (.install i hook next)
  | .program (.run limit s next) | .program (.consult next)
  | .program (.update change next) => exact untouched rfl (kept (of_decide_eq_false rfl))

theorem Moves.unmasked_sublist (h : Moves x y) (calm : x.control.masks = false) :
    x.enters?.toList ++ y.core.unmasked <+ x.core.unmasked := by
  cases h with
  | step => exact x.unmasked_step calm
  | resume | recover => exact List.Sublist.refl _

/-! ## 3. Whole runs -/

/-- A run begins at `i`, and is not over in the `n` moments from then on: either its stepper is
at work, or the head of a round comes next. -/
structure RunLasts (path : Nat → Moment β κ σ) (i n : Nat) : Prop where
  begins : ∃ limit s next, (path i).control = .program (.run limit s next)
  lasts : ∀ k, i < k → k < i + n → (path i).stack.length < (path k).stack.length ∨
    ∃ s next, (path k).control = .round s next

variable {path : Nat → Moment β κ σ} {i n : Nat}

/-- By induction on the moves: what was taken and what can still be taken is no more than could
be taken at first. -/
theorem entered_append_unmasked_sublist (hp : Path path)
    (calm : ∀ k, i ≤ k → k < i + n → (path k).control.masks = false) :
    entered path i n ++ (path (i + n)).core.unmasked <+ (path i).core.unmasked := by
  induction n with
  | zero => exact List.Sublist.refl _
  | succ n ih =>
    have before := ih fun k hk hkn => calm k hk (by omega)
    have last := (hp (i + n)).unmasked_sublist (calm (i + n) (by omega) (by omega))
    rw [entered_succ, List.append_assoc]
    exact (last.append_left _).trans before

/-- **There is no interrupt storm.**  As long as the stepper of a run, and whatever it runs in
its turn, touches no mask and raises no exception, the run takes at most one ordinary interrupt
and at most one fast one, and no ordinary one after the fast one -- whatever is done to the
lines. -/
theorem interrupts_taken_once (hp : Path path) (run : RunLasts path i n)
    (calm : ∀ k, i < k → k < i + n → (path i).stack.length < (path k).stack.length →
      (path k).control.masks = false) :
    entered path i n <+ [.irq, .fiq] := by
  obtain ⟨limit, s, next, begins⟩ := run.begins
  -- where the stepper is not at work there is only the run itself, which touches no mask
  have calm_run : ∀ k, i ≤ k → k < i + n → (path k).control.masks = false := by
    intro k hk hkn
    rcases Nat.eq_or_lt_of_le hk with rfl | hlt
    · rw [begins]
      rfl
    · rcases run.lasts k hlt hkn with deeper | ⟨s, next, head⟩
      · exact calm k hlt hkn deeper
      · rw [head]
        rfl
  have taken := entered_append_unmasked_sublist hp calm_run
  exact ((List.sublist_append_left _ _).trans taken).trans (unmasked_sublist _)

/-- A stepper that asserts the ordinary interrupt, and once it is there the fast one, over and
over: both are taken, and neither of them again. -/
theorem interrupts_taken_once_irq_then_fiq :
    ∃ path : Nat → Moment Ram SystemControl Unit, Path path ∧ RunLasts path 0 14 ∧
      (path 13).core.lines.contains .irq = true ∧ (path 13).core.lines.contains .fiq = true ∧
      entered path 0 14 <+ [.irq, .fiq] ∧ entered path 0 14 = [.irq, .fiq] := by
  let s : Program SystemControl Unit := .ask .lines fun l =>
    .ask (.setLine (if l.contains .irq then .fiq else .irq) true) fun _ => .done 1
  let path : Nat → Moment Ram SystemControl Unit := fun i => Moment.step^[i]
    (.start (.new .v5 ⟨#[0], 0⟩ ()) (.run 20 s (.done 0)))
  have moves : Path path := path_iterate _
  have run : RunLasts path 0 14 := by
    refine ⟨⟨20, s, .done 0, rfl⟩, ?_⟩
    intro k hk hk14
    match k, hk, hk14 with
    | 1, _, _ | 5, _, _ | 9, _, _ | 13, _, _ => exact .inr ⟨s, .done 0, rfl⟩
    | 2, _, _ | 3, _, _ | 4, _, _ | 6, _, _ | 7, _, _ | 8, _, _ | 10, _, _ | 11, _, _
    | 12, _, _ => exact .inl (by decide)
  have calm : ∀ k < 14, (path k).control.masks = false := by decide
  have taken := interrupts_taken_once moves run fun k _ hk14 _ => calm k (by omega)
  exact ⟨path, moves, run, by decide, by decide, taken, by decide⟩

end Core
end Handheld
