/-
# Every cycle is accounted for

The clock is moved where an exception is entered, where a hook or a stepper returns, at every
access to the bus, and where a halted run lets the time pass -- and while the callers wait,
hooks and steppers are at work that move it too.  Yet it is a plain sum: each thing that is done
has its price, and nothing else moves the clock but a reset or an assignment.

What spoils the sum on the way is the price of an exception that a hook stands in for.  It is
paid only when the hook returns, and so the hooks at work are what is still owed.

* `Moment.clock_step`, `Moves.clock_eq`: what one move costs;
* `cycles_accounted`: what the moments of a session cost together.
-/
import Handheld.Memory.Ram
import Handheld.Proofs.Core.Hooks
import Handheld.Proofs.Core.SavedStatus
import Mathlib.Algebra.BigOperators.Intervals
import Mathlib.Algebra.BigOperators.Ring.Finset

namespace Handheld
namespace Core

variable {β κ σ : Type}

/-- The clock is neither set nor reset, and nothing is broken off. -/
def Control.metered : Control κ σ → Bool
  | .program (.ask .reset _) | .program (.ask (.setClock _) _) | .stopped _ => false
  | _ => true

/-! ## 1. Prices -/

namespace Moment

/-- How many accesses to the bus come next. -/
def accesses (x : Moment β κ σ) : Int :=
  match x.control with
  | .program (.ask (.read16 _) _) | .program (.ask (.read32 _) _)
  | .program (.ask (.write16 _ _) _) | .program (.ask (.write32 _ _) _) => 1
  | _ => 0

/-- The cycles of a hook that returns next. -/
def hookCycles (x : Moment β κ σ) : Int :=
  match x.control, x.stack with
  | .program (.done n), .hook _ _ _ :: _ => n
  | _, _ => 0

/-- The cycles of a stepper that returns next. -/
def stepperCycles (x : Moment β κ σ) : Int :=
  match x.control, x.stack with
  | .program (.done n), .stepper _ _ :: _ => n
  | _, _ => 0

/-- How far the clock is from the target, if a run that is halted lets that time pass next. -/
def skipped (x : Moment β κ σ) : Int :=
  match x.control with
  | .round _ _ =>
    if x.core.clock < x.core.target ∧ x.core.lines.contains .halt then
      x.core.target - x.core.clock
    else 0
  | _ => 0

/-- What the hooks at work still owe for the exceptions that they stand in for. -/
def owed (x : Moment β κ σ) : Int := entryCycles * x.atWork.length

theorem owed_of_atWork {x y : Moment β κ σ} (h : y.atWork = x.atWork) : y.owed = x.owed := by
  rw [owed, owed, h]

/-- A hook at work owes the price of one exception. -/
theorem owed_of_atWork_cons {x y : Moment β κ σ} {hook : Byte × Program κ σ}
    (h : y.atWork = hook :: x.atWork) : y.owed = x.owed + entryCycles := by
  rw [owed, owed, h, List.length_cons, Int.natCast_succ, Int.mul_add, Int.mul_one]

variable [Bus β]

/-- How many exceptions are raised next: by a program, whether or not a hook stands in for the
handler, or by a run that looks at the lines. -/
def raised (x : Moment β κ σ) : Int :=
  match x.control with
  | .program (.raise _ _) => 1
  | .round _ _ => x.enters?.toList.length
  | _ => 0

/-- The price of the next thing. -/
def charge (x : Moment β κ σ) : Int :=
  entryCycles * x.raised + x.hookCycles + x.stepperCycles + x.core.accessCycles * x.accesses +
    x.skipped

end Moment

/-! ## 2. What a move costs -/

theorem clock_enter (c : Core β κ σ) (e : Exception) :
    (c.enter e).clock = c.clock + entryCycles := by
  rw [enter_eq]

theorem clock_serviceInterrupts (c : Core β κ σ) :
    c.serviceInterrupts.clock = c.clock + entryCycles * c.pendingInterrupt?.toList.length := by
  rw [serviceInterrupts]
  cases c.pendingInterrupt? with
  | none => simp
  | some e => simp [clock_enter]

/-- At most one interrupt is taken. -/
theorem clock_serviceInterrupts_le (c : Core β κ σ) :
    c.clock ≤ c.serviceInterrupts.clock ∧ c.serviceInterrupts.clock ≤ c.clock + 3 := by
  rw [clock_serviceInterrupts, entryCycles]
  cases c.pendingInterrupt? <;> simp

/-- What an access costs is settled when the core is made. -/
theorem preserved_accessCycles (n : Int) :
    Preserved fun c : Core β κ σ => c.accessCycles = n where
  setPc _ _ h := h
  writeRegister _ _ _ _ _ _ h := h
  setStatus c s h := by rw [setStatus]; exact h
  setInstructionSet _ _ h := h
  setIrqDisable _ _ h := h
  setFiqDisable _ _ h := h
  enter c e h := by rw [enter_eq]; exact h
  reset c h := by rw [reset, enter_eq]; exact h
  setLine c l b h := by
    rw [setLine]
    split <;> exact h

namespace Moment

section Steps

variable [Bus β] (c : Core β κ σ) (K : List (Frame κ σ))

theorem clock_round (s next : Program κ σ) :
    c.round.core.clock = c.clock + charge ⟨c, .round s next, K⟩ := by
  have price : charge ⟨c, .round s next, K⟩ =
      entryCycles * (enters? ⟨c, .round s next, K⟩).toList.length +
        skipped ⟨c, .round s next, K⟩ := by
    simp [charge, raised, hookCycles, stepperCycles, accesses]
  rw [price, enters?, skipped]
  by_cases early : c.clock < c.target
  · by_cases halted : c.lines.contains .halt = true
    · rw [round_of_halted early halted]
      simp [Round.core, early, halted]
    · rw [round_of_awake early halted, Round.core, clock_serviceInterrupts]
      simp [early, halted, pendingInterrupt?]
  · rw [round_of_le (Int.not_lt.mp early)]
    simp [Round.core, early]

variable [Coprocessor κ]

/-- What a hook stands in for is owed until it returns, and a handler is paid at once. -/
theorem clock_step_raise (e : Exception) (next : Program κ σ) :
    (step ⟨c, .program (.raise e next), K⟩).core.clock +
        (step ⟨c, .program (.raise e next), K⟩).owed =
      c.clock + owed ⟨c, .program (.raise e next), K⟩ +
        charge ⟨c, .program (.raise e next), K⟩ := by
  have price : charge ⟨c, .program (.raise e next), K⟩ = entryCycles := by
    simp [charge, raised, hookCycles, stepperCycles, accesses, skipped]
  have clock : (c.intercept e).1.clock = c.clock := c.keepsExcept_intercept e .clock (by decide)
  rw [price]
  -- the handler is entered, or a hook is called in its place
  rcases hi : c.intercept e with ⟨c', _ | ⟨i, hook⟩⟩
  · rw [hi] at clock
    have paid : (step ⟨c, .program (.raise e next), K⟩).core.clock = c.clock + entryCycles := by
      simp only [step, hi]
      rw [clock_enter, ← clock]
    have same : (step ⟨c, .program (.raise e next), K⟩).owed =
        owed ⟨c, .program (.raise e next), K⟩ := by
      simp only [step, hi]
      exact owed_of_atWork rfl
    omega
  · rw [hi] at clock
    have unpaid : (step ⟨c, .program (.raise e next), K⟩).core.clock = c.clock := by
      simp only [step, hi]
      exact clock
    have more : (step ⟨c, .program (.raise e next), K⟩).owed =
        owed ⟨c, .program (.raise e next), K⟩ + entryCycles := by
      simp only [step, hi]
      exact owed_of_atWork_cons rfl
    omega

/-- A hook that returns pays what it owes, beside its own cycles. -/
theorem clock_step_done (n : Int) :
    (step ⟨c, .program (.done n), K⟩).core.clock + (step ⟨c, .program (.done n), K⟩).owed =
      c.clock + owed ⟨c, .program (.done n), K⟩ + charge ⟨c, .program (.done n), K⟩ := by
  match K with
  | [] => simp [step, charge, raised, hookCycles, stepperCycles, accesses, skipped]
  | .hook i hook next :: K =>
    have price : charge ⟨c, .program (.done n), .hook i hook next :: K⟩ = n := by
      simp [charge, raised, hookCycles, stepperCycles, accesses, skipped]
    have restored : (c.restoreHook i hook).clock = c.clock :=
      c.keepsExcept_restoreHook i hook .clock (by decide)
    have paid : (step ⟨c, .program (.done n), .hook i hook next :: K⟩).core.clock =
        c.clock + (n + entryCycles) := by
      simp only [step, advance, restored]
    have less : owed ⟨c, .program (.done n), .hook i hook next :: K⟩ =
        (step ⟨c, .program (.done n), .hook i hook next :: K⟩).owed + entryCycles :=
      owed_of_atWork_cons rfl
    omega
  | .stepper s next :: K =>
    have price : charge ⟨c, .program (.done n), .stepper s next :: K⟩ = n := by
      simp [charge, raised, hookCycles, stepperCycles, accesses, skipped]
    have same : (step ⟨c, .program (.done n), .stepper s next :: K⟩).owed =
        owed ⟨c, .program (.done n), .stepper s next :: K⟩ := owed_of_atWork rfl
    have paid : (step ⟨c, .program (.done n), .stepper s next :: K⟩).core.clock = c.clock + n :=
      rfl
    omega

theorem clock_step_ask (r : Request κ σ) (next : r.Reply → Program κ σ)
    (metered : Control.metered (.program (.ask r next)) = true) :
    (step ⟨c, .program (.ask r next), K⟩).core.clock =
      c.clock + charge ⟨c, .program (.ask r next), K⟩ := by
  have price : charge ⟨c, .program (.ask r next), K⟩ =
      c.accessCycles * accesses ⟨c, .program (.ask r next), K⟩ := by
    simp [charge, raised, hookCycles, stepperCycles, skipped]
  have kept := step_keeps ⟨c, .program (.ask r next), K⟩ .clock
  rw [price]
  cases r with
  | reset | setClock n => cases metered
  | read16 a | read32 a | write16 a v | write32 a v =>
    exact (congrArg (c.clock + ·) (Int.mul_one c.accessCycles)).symm
  | _ => exact (kept (of_decide_eq_false rfl)).trans (by simp [accesses])

/-- **What one step costs**, beside what is owed. -/
theorem clock_step (x : Moment β κ σ) (metered : x.control.metered = true) :
    x.step.core.clock + x.step.owed = x.core.clock + x.owed + x.charge := by
  have free : .clock ∉ x.control.parts → x.charge = 0 → x.step.atWork = x.atWork →
      x.step.core.clock + x.step.owed = x.core.clock + x.owed + x.charge := by
    intro untouched price work
    have same : x.step.core.clock = x.core.clock := x.step_keeps .clock untouched
    rw [same, owed_of_atWork work, price, add_zero]
  obtain ⟨c, control, K⟩ := x
  match control with
  | .stopped e => cases metered
  | .round s next =>
    rw [core_step_round, clock_round c K s next, owed_of_atWork (atWork_step_round c K s next)]
    exact Int.add_right_comm _ _ _
  | .program (.done n) => exact clock_step_done c K n
  | .program (.raise e next) => exact clock_step_raise c K e next
  | .program (.ask r next) =>
    rw [clock_step_ask c K r next metered, owed_of_atWork (atWork_step_ask c K r next)]
    exact Int.add_right_comm _ _ _
  | .program (.install i hook next) | .program (.run limit s next) | .program (.consult next)
  | .program (.update change next) =>
    refine free (of_decide_eq_false rfl) ?_ rfl
    simp [charge, raised, hookCycles, stepperCycles, accesses, skipped]

end Steps

end Moment

variable [Bus β] [Coprocessor κ] {x y : Moment β κ σ}

theorem Moves.clock_eq (h : Moves x y) (metered : x.control.metered = true) :
    y.core.clock + y.owed = x.core.clock + x.owed + x.charge := by
  cases h with
  | step => exact x.clock_step metered
  | resume c n p =>
    simp [Moment.ended, Moment.start, Moment.owed, Moment.atWork, Moment.charge, Moment.raised,
      Moment.hookCycles, Moment.stepperCycles, Moment.accesses, Moment.skipped]
  | recover => cases metered

/-! ## 3. Sessions -/

variable {path : Nat → Moment β κ σ} {i j : Nat} {revision : Revision} {bus : β}
  {surroundings : σ} {p : Program κ σ}

theorem accessCycles_eq (hp : Path path)
    (h0 : path 0 = .start (.new revision bus surroundings) p) (i : Nat) :
    (path i).core.accessCycles = (Bus.waitStates bus).toNat + 1 := by
  induction i with
  | zero =>
    rw [h0]
    rfl
  | succ i ih => exact (preserved_accessCycles _).moves (hp i) ih

open Finset in
/-- By induction on the moves, the charges add up. -/
theorem clock_eq_sum (hp : Path path) (hij : i ≤ j)
    (metered : ∀ k, i ≤ k → k < j → (path k).control.metered = true) :
    (path j).core.clock + (path j).owed =
      (path i).core.clock + (path i).owed + ∑ k ∈ Ico i j, (path k).charge := by
  induction j, hij using Nat.le_induction with
  | base => simp
  | succ j hij ih =>
    have before := ih fun k hk hkj => metered k hk (Nat.lt_succ_of_lt hkj)
    have last := (hp j).clock_eq (metered j hij (Nat.lt_succ_self j))
    rw [last, before, sum_Ico_succ_top hij, add_assoc]

open Finset in
/-- **Every cycle is accounted for.**  What an access costs is the wait states of the bus and one
more, throughout.  And from one moment of a session to another with the same callers, if the
clock was not reset or set and no fault came up between them, it has gone on by the price of
every exception that was raised, the cycles that hooks and steppers returned, the price of every
access, and the time that halted runs let pass -- and by nothing else. -/
theorem cycles_accounted (hp : Path path)
    (h0 : path 0 = .start (.new revision bus surroundings) p) :
    (∀ i, (path i).core.accessCycles = (Bus.waitStates bus).toNat + 1) ∧
    ∀ i j, i ≤ j → (∀ k, i ≤ k → k < j → (path k).control.metered = true) →
      (path j).stack = (path i).stack →
      (path j).core.clock - (path i).core.clock =
        entryCycles * ∑ k ∈ Ico i j, (path k).raised +
        ∑ k ∈ Ico i j, (path k).hookCycles + ∑ k ∈ Ico i j, (path k).stepperCycles +
        ((Bus.waitStates bus).toNat + 1) * ∑ k ∈ Ico i j, (path k).accesses +
        ∑ k ∈ Ico i j, (path k).skipped := by
  have price := accessCycles_eq hp h0
  refine ⟨price, ?_⟩
  intro i j hij metered back
  have total := clock_eq_sum hp hij metered
  -- with the same callers as before, as much is owed as before
  have same : (path j).owed = (path i).owed := by
    apply Moment.owed_of_atWork
    rw [Moment.atWork, Moment.atWork, back]
  simp only [Moment.charge, price, sum_add_distrib, ← mul_sum] at total
  omega

open Finset in
/-- A hook that reads from a slow bus, and a run that takes an interrupt before its stepper halts
it: two exceptions, an access, and the time until the target is reached. -/
theorem cycles_accounted_hook_and_halt :
    ∃ path : Nat → Moment Ram SystemControl Unit, Path path ∧
      path 0 = .start (.new .v5 ⟨#[0], 1⟩ ())
        (.install 0 (.ask (.read16 0) fun _ => .done 4) <| .raise .softwareInterrupt <|
          .ask (.setLine .irq true) fun _ =>
            .run 30 (.ask (.setLine .halt true) fun _ => .done 2) (.done 0)) ∧
      (path 10).core.clock - (path 0).core.clock = entryCycles * 2 + 4 + 2 + 2 * 1 + 16 := by
  let path : Nat → Moment Ram SystemControl Unit := fun i => Moment.step^[i]
    (.start (.new .v5 ⟨#[0], 1⟩ ())
      (.install 0 (.ask (.read16 0) fun _ => .done 4) <| .raise .softwareInterrupt <|
        .ask (.setLine .irq true) fun _ =>
          .run 30 (.ask (.setLine .halt true) fun _ => .done 2) (.done 0)))
  have moves : Path path := path_iterate _
  have metered : ∀ k < 10, (path k).control.metered = true := by decide
  have raised : ∑ k ∈ Ico 0 10, (path k).raised = 2 := by decide
  have hooks : ∑ k ∈ Ico 0 10, (path k).hookCycles = 4 := by decide
  have steppers : ∑ k ∈ Ico 0 10, (path k).stepperCycles = 2 := by decide
  have accesses : ∑ k ∈ Ico 0 10, (path k).accesses = 1 := by decide
  have skipped : ∑ k ∈ Ico 0 10, (path k).skipped = 16 := by decide
  have total := (cycles_accounted moves rfl).2 0 10 (by decide)
    (fun k _ hk => metered k hk) rfl
  rw [raised, hooks, steppers, accesses, skipped] at total
  exact ⟨path, moves, rfl, total⟩

end Core
end Handheld
