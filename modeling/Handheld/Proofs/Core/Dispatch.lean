/-
# No enabled interrupt is stepped over

A run looks at the lines once in a round, enters at most one handler, and then calls its
stepper without looking again.  That is enough: entering the fast interrupt disables both
kinds, and the ordinary one is entered only where no fast one is due and disables its own kind.

* `quiet_serviceInterrupts`: what is left when the stepper is called;
* `interrupts_served`: the same at every call of every run, and what happens between two calls.
-/
import Handheld.Memory.Ram
import Handheld.Proofs.Core.Entry
import Handheld.Proofs.Core.Runs

namespace Handheld
namespace Core

variable {β κ σ : Type}

/-! ## 1. The head of a round -/

/-- A fast interrupt is asserted and not masked. -/
def FiqDue (c : Core β κ σ) : Prop :=
  c.lines.contains .fiq = true ∧ c.status.fiqDisable = false

/-- An ordinary interrupt is asserted and not masked. -/
def IrqDue (c : Core β κ σ) : Prop :=
  c.lines.contains .irq = true ∧ c.status.irqDisable = false

/-- Nothing on the lines stands against a step. -/
structure Quiet (c : Core β κ σ) : Prop where
  awake : c.lines.contains .halt = false
  fiq : ¬c.FiqDue
  irq : ¬c.IrqDue

/-- The exceptions that a run takes before it calls its stepper. -/
def due (c : Core β κ σ) : List Exception := c.pendingInterrupt?.toList

theorem serviceInterrupts_eq (c : Core β κ σ) : c.serviceInterrupts = c.due.foldl enter c := by
  rw [serviceInterrupts, due]
  cases c.pendingInterrupt? <;> rfl

theorem length_due_le (c : Core β κ σ) : c.due.length ≤ 1 := by
  rw [due]
  cases c.pendingInterrupt? <;> simp

theorem due_of_fiqDue {c : Core β κ σ} (h : c.FiqDue) : c.due = [.fiq] := by
  obtain ⟨hl, hd⟩ := h
  simp [due, pendingInterrupt?, hl, hd]

/-- The ordinary interrupt has to wait for the fast one. -/
theorem due_of_irqDue {c : Core β κ σ} (hf : ¬c.FiqDue) (h : c.IrqDue) : c.due = [.irq] := by
  obtain ⟨hl, hd⟩ := h
  have no : (c.lines.contains .fiq && !c.status.fiqDisable) = false := by
    simpa [FiqDue] using hf
  simp [due, pendingInterrupt?, hl, hd, no]

theorem due_eq_nil {c : Core β κ σ} (hf : ¬c.FiqDue) (hi : ¬c.IrqDue) : c.due = [] := by
  have nf : (c.lines.contains .fiq && !c.status.fiqDisable) = false := by
    simpa [FiqDue] using hf
  have ni : (c.lines.contains .irq && !c.status.irqDisable) = false := by
    simpa [IrqDue] using hi
  simp [due, pendingInterrupt?, nf, ni]

/-- Entering a handler leaves the lines alone and disables ordinary interrupts, so that only a
fast interrupt could still be due -- if it was, and the exception does not disable it. -/
theorem quiet_enter {c : Core β κ σ} (awake : c.lines.contains .halt = false) {e : Exception}
    (he : e.disablesFiq = true ∨ ¬c.FiqDue) : (c.enter e).Quiet := by
  rw [enter_eq]
  refine ⟨awake, ?_, ?_⟩
  · rintro ⟨hl, hd⟩
    rw [fiqDisable_entryStatus, Bool.or_eq_false_iff] at hd
    rcases he with he | he
    · rw [hd.1] at he
      cases he
    · exact he ⟨hl, hd.2⟩
  · rintro ⟨-, hd⟩
    rw [irqDisable_entryStatus] at hd
    cases hd

/-- **After the lines were looked at nothing stands against a step any more.** -/
theorem quiet_serviceInterrupts {c : Core β κ σ} (awake : c.lines.contains .halt = false) :
    c.serviceInterrupts.Quiet := by
  rw [serviceInterrupts_eq]
  by_cases hf : c.FiqDue
  · rw [due_of_fiqDue hf]
    exact quiet_enter awake (.inl rfl)
  by_cases hi : c.IrqDue
  · rw [due_of_irqDue hf hi]
    exact quiet_enter awake (.inr hf)
  · rw [due_eq_nil hf hi]
    exact ⟨awake, hf, hi⟩

/-! ## 2. Whole runs -/

variable [Bus β] [Coprocessor κ] {path : Nat → Moment β κ σ} {i : Nat} {s next : Program κ σ}

/-- **No enabled interrupt is stepped over.**  Wherever a run calls its stepper, nothing that is
asserted is enabled; and from the return of one call to the next call of the same run nothing
happens but that the clock goes on and at most one exception is taken: the fast interrupt if
it is due when the lines are looked at, and otherwise the ordinary one if that is. -/
theorem interrupts_served (hp : Path path) (hi : CallsAt path i s next) :
    (∃ c, path (i + 1) = ⟨c, .program s, .stepper s next :: (path i).stack⟩ ∧ c.Quiet) ∧
    ∀ j, NextCall path i j →
      ∃ c n es, path (j - 1) = ⟨c, .program (.done n), .stepper s next :: (path i).stack⟩ ∧
        path j = ⟨c.advance n, .round s next, (path i).stack⟩ ∧
        path (j + 1) = ⟨es.foldl enter (c.advance n).sampled, .program s,
          .stepper s next :: (path i).stack⟩ ∧
        es.length ≤ 1 ∧
        ((c.advance n).sampled.FiqDue → es = [.fiq]) ∧
        (¬(c.advance n).sampled.FiqDue → (c.advance n).sampled.IrqDue → es = [.irq]) ∧
        (¬(c.advance n).sampled.FiqDue → ¬(c.advance n).sampled.IrqDue → es = []) := by
  have hcall := (hp i).calls hi
  constructor
  · exact ⟨_, hcall.moves (hp i), quiet_serviceInterrupts hcall.awake⟩
  · intro j hj
    obtain ⟨hcalls, hstack, n, returned, hcore⟩ := hj.returned hp hcall
    have called := hcalls.moves (hp j)
    rw [hcore, hstack, serviceInterrupts_eq] at called
    refine ⟨_, n, _, returned, ?_, called, length_due_le _, due_of_fiqDue, due_of_irqDue,
      due_eq_nil⟩
    rw [← hcore, ← hcalls.control, ← hstack]

/-- A stepper that asserts the fast interrupt is not called again before that was taken. -/
theorem interrupts_served_after_fiq :
    ∃ (path : Nat → Moment Ram SystemControl Unit) (s next : Program SystemControl Unit),
      Path path ∧ CallsAt path 1 s next ∧ NextCall path 1 4 ∧ (path 4).core.sampled.FiqDue ∧
      path 5 = ⟨(path 4).core.sampled.enter .fiq, .program s, [.stepper s next]⟩ := by
  let s : Program SystemControl Unit := .ask (.setLine .fiq true) fun _ => .done 1
  let path : Nat → Moment Ram SystemControl Unit := fun i => Moment.step^[i]
    (.start (.new .v5 ⟨#[0], 0⟩ ()) (.run 10 s (.done 0)))
  have moves : Path path := fun i => by
    simp only [path, Function.iterate_succ_apply']
    exact .step _
  have first : CallsAt path 1 s (.done 0) := rfl
  have second : NextCall path 1 4 := by
    refine ⟨by decide, ?_, by decide, s, .done 0, rfl⟩
    intro l hl hlt
    obtain rfl | rfl : l = 2 ∨ l = 3 := by omega
    · decide
    · decide
  have fiq : (path 4).core.sampled.FiqDue := ⟨by decide, by decide⟩
  obtain ⟨c, n, es, -, head, called, -, taken, -⟩ := (interrupts_served moves first).2 4 second
  rw [head] at fiq
  rw [taken fiq] at called
  refine ⟨path, s, .done 0, moves, first, second, ?_, ?_⟩
  · rw [head]
    exact fiq
  · rw [head, called]
    rfl

end Core
end Handheld
