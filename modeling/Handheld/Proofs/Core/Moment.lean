/-
# The moments of an execution

`Core.perform` tells with which core a program ends, and nothing about the way there: a hook
or a stepper that is at work has been called by a program that is not over yet, and what it
finds in the core is seen by nobody else.  This module spells the way out.  A `Moment` is a
core together with everything that is still to be done on it -- the program at hand, and a
stack of the callers that wait for it -- and `Moment.step` does the next thing.

* `perform_eq_ok_iff`: the steps end exactly where `perform` ends with enough fuel, and in the
  same core.  So a property of all moments is a property of what every program, hook and stepper
  can observe.
* `Moves`, `Reachable`: the moments of whole sessions, which go on after a fault with whatever
  program comes next, at any level of the stack.
* `Preserved.of_reachable`: what every single operation preserves holds at every one of them.
-/
import Handheld.Proofs.Core.Operations
import Mathlib.Logic.Function.Iterate

namespace Handheld
namespace Core

variable {β κ σ α γ : Type}

/-! ## 1. What is done in one go -/

/-- The core in which an exception is raised, with the hook that stands in for the handler
taken out of its slot, and that hook with its number. -/
def intercept [Bus β] (c : Core β κ σ) : Exception → Core β κ σ × Option (Byte × Program κ σ)
  | .softwareInterrupt =>
    let (v, bus) := Bus.read16 c.bus (c.returnAddress .softwareInterrupt - 2)
    let c := { c with bus }
    let n := Bits.byte v 0
    match c.hook? n with
    | some hook => (c.setHook n none, some (n, hook))
    | none => (c, none)
  | _ => (c, none)

/-- The hook in a slot is taken out of it. -/
def takeHook (c : Core β κ σ) (n : Byte) : Core β κ σ × Option (Byte × Program κ σ) :=
  match c.hook? n with
  | some hook => (c.setHook n none, some (n, hook))
  | none => (c, none)

theorem intercept_softwareInterrupt [Bus β] (c : Core β κ σ) :
    c.intercept .softwareInterrupt =
      { c with bus := (Bus.read16 c.bus (c.returnAddress .softwareInterrupt - 2)).2 }.takeHook
        (Bits.byte (Bus.read16 c.bus (c.returnAddress .softwareInterrupt - 2)).1 0) := rfl

theorem hook?_setHook (c : Core β κ σ) (n m : Byte) (hook : Option (Program κ σ)) :
    (c.setHook n hook).hook? m = if n = m then hook else c.hook? m := by
  simp only [hook?, setHook, Vector.getElem_set, BitVec.toNat_inj]

/-- What a run does when the clock is looked at. -/
inductive Round (β κ σ : Type) where
  /-- The run is over. -/
  | leave (core : Core β κ σ)
  /-- The stepper is called. -/
  | call (core : Core β κ σ)

def Round.core : Round β κ σ → Core β κ σ
  | leave c | call c => c

/-- The head of a round: a run whose target is reached is over, a halted one lets the time
pass, and any other takes the interrupt that is due and calls its stepper. -/
def round (c : Core β κ σ) : Round β κ σ :=
  if c.clock < c.target then
    let c := { c with exitRequested := false }
    if c.lines.contains .halt then .leave { c with clock := c.target }
    else .call c.serviceInterrupts
  else .leave c

theorem round_of_le {c : Core β κ σ} (late : c.target ≤ c.clock) : c.round = .leave c :=
  if_neg (Int.not_lt.mpr late)

theorem round_of_halted {c : Core β κ σ} (early : c.clock < c.target)
    (halted : c.lines.contains .halt = true) :
    c.round = .leave { c with clock := c.target, exitRequested := false } :=
  (if_pos early).trans (if_pos halted)

theorem round_of_awake {c : Core β κ σ} (early : c.clock < c.target)
    (awake : ¬c.lines.contains .halt = true) :
    c.round = .call { c with exitRequested := false }.serviceInterrupts :=
  (if_pos early).trans (if_neg awake)

namespace Preserved

variable {I : Core β κ σ → Prop} {c : Core β κ σ}

theorem intercept [Bus β] (h : Preserved I) (e : Exception) (hc : I c) : I (c.intercept e).1 := by
  cases e with
  | softwareInterrupt =>
    simp only [Core.intercept]
    split
    · exact h.setHook _ _ none (h.bus c _ hc)
    · exact h.bus c _ hc
  | _ => exact hc

theorem serviceInterrupts (h : Preserved I) (hc : I c) : I c.serviceInterrupts := by
  simp only [Core.serviceInterrupts]
  split
  · exact h.enter c _ hc
  · exact hc

theorem round (h : Preserved I) (hc : I c) : I c.round.core := by
  simp only [Core.round]
  split
  · split
    · exact h.clock _ _ (h.exitRequested c false hc)
    · exact h.serviceInterrupts (h.exitRequested c false hc)
  · exact hc

end Preserved

/-! ## 2. What raising and running come to -/

section Equations

variable [Bus β]

/-- A hook runs in place of the handler; without one the handler is entered. -/
theorem raiseWith_apply (nested : Nested β κ σ) (e : Exception) (c : Core β κ σ) :
    raiseWith nested e c =
      match c.intercept e with
      | (c', some (i, hook)) =>
        (nested.hook hook >>= fun n =>
          modify fun c'' => (c''.restoreHook i hook).advance (n + entryCycles)) c'
      | (c', none) => .ok () (c'.enter e) := by
  cases e with
  | softwareInterrupt =>
    have hn : interruptNumber c = .ok (Bits.byte (Bus.read16 c.bus
        (c.returnAddress .softwareInterrupt - 2)).1 0)
        { c with bus := (Bus.read16 c.bus (c.returnAddress .softwareInterrupt - 2)).2 } := rfl
    simp only [raiseWith, intercept]
    rw [bind_apply, hn]
    dsimp only
    generalize Bits.byte _ 0 = n
    generalize { c with bus := _ } = c'
    rw [bind_apply, get_apply]
    dsimp only
    cases c'.hook? n <;> rfl
  | _ => rfl

variable [Coprocessor κ]

theorem rounds_succ (fuel : Nat) (s : Program κ σ) (c : Core β κ σ) :
    rounds (fuel + 1) s c =
      match c.round with
      | .leave c' => .ok () c'
      | .call c' =>
        (perform fuel s >>= fun n => modify (·.advance n) >>= fun _ => rounds fuel s) c' := by
  simp only [rounds, bind_apply, get_apply, round]
  split
  · split
    · rfl
    · simp only [bind_apply, set_apply, perform]
  · rfl

end Equations

/-! ## 3. Moments -/

/-- Who waits for the program at hand. -/
inductive Frame (κ σ : Type) where
  /-- The hook in a slot is at work; `next` raised the software interrupt. -/
  | hook (number : Byte) (hook next : Program κ σ)
  /-- The stepper of a run is at work; `next` comes after the run. -/
  | stepper (stepper next : Program κ σ)

/-- What is done next. -/
inductive Control (κ σ : Type) where
  | program (p : Program κ σ)
  /-- The head of a round of a run. -/
  | round (stepper next : Program κ σ)
  | stopped (stop : Stop)

structure Moment (β κ σ : Type) where
  core : Core β κ σ
  control : Control κ σ
  /-- The callers, innermost first. -/
  stack : List (Frame κ σ)

namespace Moment

/-- A program is about to be carried out for nobody. -/
def start (c : Core β κ σ) (p : Program κ σ) : Moment β κ σ := ⟨c, .program p, []⟩

/-- Where a program has ended in favour of the callers on the stack. -/
def ended (K : List (Frame κ σ)) (n : Int) (c : Core β κ σ) : Moment β κ σ :=
  ⟨c, .program (.done n), K⟩

/-- The next thing is done.  Where nothing is left to do, nothing happens. -/
def step [Bus β] [Coprocessor κ] : Moment β κ σ → Moment β κ σ
  | ⟨c, .program (.done n), []⟩ => ⟨c, .program (.done n), []⟩
  | ⟨c, .program (.done n), .hook i hook next :: K⟩ =>
    ⟨(c.restoreHook i hook).advance (n + entryCycles), .program next, K⟩
  | ⟨c, .program (.done n), .stepper s next :: K⟩ => ⟨c.advance n, .round s next, K⟩
  | ⟨c, .program (.ask r next), K⟩ =>
    match answer r c with
    | .ok v c' => ⟨c', .program (next v), K⟩
    | .error e c' => ⟨c', .stopped e, K⟩
  | ⟨c, .program (.install i hook next), K⟩ => ⟨c.setHook i (some hook), .program next, K⟩
  | ⟨c, .program (.raise e next), K⟩ =>
    match c.intercept e with
    | (c', some (i, hook)) => ⟨c', .program hook, .hook i hook next :: K⟩
    | (c', none) => ⟨c'.enter e, .program next, K⟩
  | ⟨c, .program (.run limit s next), K⟩ => ⟨{ c with target := limit }, .round s next, K⟩
  | ⟨c, .program (.consult next), K⟩ => ⟨c, .program (next c.surroundings), K⟩
  | ⟨c, .program (.update change next), K⟩ =>
    ⟨{ c with surroundings := change c.surroundings }, .program next, K⟩
  | ⟨c, .round s next, K⟩ =>
    match c.round with
    | .leave c' => ⟨c', .program next, K⟩
    | .call c' => ⟨c', .program s, .stepper s next :: K⟩
  | ⟨c, .stopped e, K⟩ => ⟨c, .stopped e, K⟩

/-- Nothing is left to do. -/
def Over (x : Moment β κ σ) : Prop :=
  (∃ n, x.control = .program (.done n) ∧ x.stack = []) ∨ ∃ e, x.control = .stopped e

theorem over_ended (n : Int) (c : Core β κ σ) : (ended [] n c : Moment β κ σ).Over :=
  Or.inl ⟨n, rfl, rfl⟩

theorem over_stopped (e : Stop) (c : Core β κ σ) (K : List (Frame κ σ)) :
    (⟨c, .stopped e, K⟩ : Moment β κ σ).Over :=
  Or.inr ⟨e, rfl⟩

variable [Bus β] [Coprocessor κ]

theorem core_step_round (c : Core β κ σ) (s next : Program κ σ) (K : List (Frame κ σ)) :
    (step ⟨c, .round s next, K⟩).core = c.round.core := by
  simp only [step]
  cases c.round <;> rfl

theorem step_eq_self {x : Moment β κ σ} (h : x.Over) : x.step = x := by
  obtain ⟨c, control, K⟩ := x
  rcases h with ⟨n, hc, hk⟩ | ⟨e, hc⟩
  · simp only at hc hk
    subst hc hk
    rfl
  · simp only at hc
    subst hc
    rfl

theorem iterate_step_eq_self {x : Moment β κ σ} (h : x.Over) (n : Nat) : step^[n] x = x :=
  Function.iterate_fixed (step_eq_self h) n

theorem iterate_step_of_le {x : Moment β κ σ} {m n : Nat} (h : m ≤ n)
    (hm : (step^[m] x).Over) : step^[n] x = step^[m] x := by
  obtain ⟨k, rfl⟩ := Nat.exists_eq_add_of_le' h
  rw [Function.iterate_add_apply, iterate_step_eq_self hm]

/-- Executions that are over end in the same moment, however long one waits. -/
theorem iterate_step_eq {x : Moment β κ σ} {m n : Nat} (hm : (step^[m] x).Over)
    (hn : (step^[n] x).Over) : step^[m] x = step^[n] x := by
  rcases Nat.le_total m n with h | h
  · exact (iterate_step_of_le h hm).symm
  · exact iterate_step_of_le h hn

theorem over_of_le {x : Moment β κ σ} {m n : Nat} (h : m ≤ n) (hm : (step^[m] x).Over) :
    (step^[n] x).Over := by
  rw [iterate_step_of_le h hm]
  exact hm

/-! ## 4. The steps come to what `perform` comes to -/

/-- The steps from `x` bear out the result of an action: they come to `goal`, or to the fault,
or go on for as long as the fuel would have lasted. -/
def Confirms (fuel : Nat) (x : Moment β κ σ) (goal : α → Core β κ σ → Moment β κ σ) :
    EStateM.Result Stop (Core β κ σ) α → Prop
  | .ok v c => ∃ n, step^[n] x = goal v c
  | .error (.fault f) c => ∃ n K, step^[n] x = ⟨c, .stopped (.fault f), K⟩
  | .error .outOfFuel _ => ∃ n, fuel ≤ n ∧ ¬ (step^[n] x).Over

theorem Confirms.of_steps {fuel m k : Nat} {x y : Moment β κ σ}
    {goal : α → Core β κ σ → Moment β κ σ} {r : EStateM.Result Stop (Core β κ σ) α}
    (h : Confirms fuel y goal r) (hk : step^[k] x = y) (hm : m ≤ fuel + k) :
    Confirms m x goal r := by
  have shift : ∀ n, step^[n + k] x = step^[n] y := fun n => by
    rw [Function.iterate_add_apply, hk]
  match r, h with
  | .ok v c, ⟨n, hn⟩ => exact ⟨n + k, by rw [shift, hn]⟩
  | .error (.fault f) c, ⟨n, K, hn⟩ => exact ⟨n + k, K, by rw [shift, hn]⟩
  | .error .outOfFuel c, ⟨n, hle, hn⟩ => exact ⟨n + k, by omega, by rw [shift]; exact hn⟩

/-- A result that is passed on to what comes after it. -/
theorem Confirms.bind {fuel m : Nat} {x : Moment β κ σ}
    {goal : α → Core β κ σ → Moment β κ σ} {goal' : γ → Core β κ σ → Moment β κ σ}
    {a : Action β κ σ α} {f : α → Action β κ σ γ} {c : Core β κ σ}
    (h : Confirms fuel x goal (a c)) (hm : m ≤ fuel)
    (hf : ∀ v c', Confirms m (goal v c') goal' (f v c')) :
    Confirms m x goal' ((a >>= f) c) := by
  rw [bind_apply]
  match a c, h with
  | .ok v c', ⟨n, hn⟩ => exact (hf v c').of_steps hn (by omega)
  | .error (.fault f) c', h => exact h
  | .error .outOfFuel c', ⟨n, hle, hn⟩ => exact ⟨n, by omega, hn⟩

/-- What comes after one more step. -/
theorem Confirms.of_step {fuel : Nat} {x y : Moment β κ σ}
    {goal : α → Core β κ σ → Moment β κ σ} {r : EStateM.Result Stop (Core β κ σ) α}
    (h : Confirms fuel y goal r) (hx : x.step = y) : Confirms (fuel + 1) x goal r :=
  h.of_steps (k := 1) hx (Nat.le_refl _)

/-- An answer is one step, and its fault is where the step stops. -/
theorem answer_confirmed (fuel : Nat) (r : Request κ σ) (next : r.Reply → Program κ σ)
    (c : Core β κ σ) (K : List (Frame κ σ)) :
    Confirms fuel ⟨c, .program (.ask r next), K⟩ (fun v c' => ⟨c', .program (next v), K⟩)
      (answer r c) := by
  have settled := Preserved.trivial.answer r (c := c) trivial
  match h : answer r c, settled with
  | .ok v c', _ => exact ⟨1, by simp [step, h]⟩
  | .error (.fault f) c', _ => exact ⟨1, K, by simp [step, h]⟩

/-- A hook that was called with so much fuel; entering it has cost one unit. -/
def HookConfirmed (fuel : Nat) (hook : Program κ σ → Action β κ σ Int) : Prop :=
  ∀ p c F K, Confirms (fuel - 1) ⟨c, .program p, F :: K⟩ (ended (F :: K)) (hook p c)

def RoundsConfirmed (fuel : Nat) (rounds : Program κ σ → Action β κ σ Unit) : Prop :=
  ∀ s c next K, Confirms fuel ⟨c, .round s next, K⟩ (fun _ c' => ⟨c', .program next, K⟩)
    (rounds s c)

theorem raiseWith_confirmed {fuel : Nat} {nested : Nested β κ σ}
    (hh : HookConfirmed fuel nested.hook) (e : Exception) (next : Program κ σ) (c : Core β κ σ)
    (K : List (Frame κ σ)) :
    Confirms fuel ⟨c, .program (.raise e next), K⟩ (fun _ c' => ⟨c', .program next, K⟩)
      (raiseWith nested e c) := by
  rw [raiseWith_apply]
  rcases hi : c.intercept e with ⟨c', _ | ⟨i, hook⟩⟩
  · exact ⟨1, by simp [step, hi]⟩
  · have called : step ⟨c, .program (.raise e next), K⟩ =
        ⟨c', .program hook, .hook i hook next :: K⟩ := by
      simp [step, hi]
    refine ((hh hook c' (.hook i hook next) K).of_step called).bind (by omega) ?_
    intro n c''
    exact ⟨1, rfl⟩

/-- The induction is on the program; hooks and runs are left to the hypotheses. -/
theorem carryOut_confirmed {fuel : Nat} {nested : Nested β κ σ}
    (hh : HookConfirmed fuel nested.hook) (hr : RoundsConfirmed fuel nested.rounds)
    (p : Program κ σ) :
    ∀ c K, Confirms fuel ⟨c, .program p, K⟩ (ended K) (carryOut nested p c) := by
  induction p with
  | done n =>
    intro c K
    exact ⟨0, rfl⟩
  | ask r next ih =>
    intro c K
    rw [carryOut]
    exact (answer_confirmed fuel r next c K).bind (Nat.le_refl _) fun v c' => ih v c' K
  | install i hook next _ ih =>
    intro c K
    rw [carryOut, bind_apply, modify_apply]
    exact (ih _ K).of_steps (k := 1) rfl (by omega)
  | raise e next ih =>
    intro c K
    rw [carryOut]
    exact (raiseWith_confirmed hh e next c K).bind (Nat.le_refl _) fun _ c' => ih c' K
  | run limit s next _ ih =>
    intro c K
    rw [carryOut, bind_apply, modify_apply]
    refine Confirms.of_steps (k := 1) ?_ rfl (Nat.le_succ fuel)
    exact (hr s _ next K).bind (Nat.le_refl _) fun _ c' => ih c' K
  | consult next ih =>
    intro c K
    rw [carryOut, bind_apply, get_apply]
    exact (ih c.surroundings c K).of_steps (k := 1) rfl (by omega)
  | update change next ih =>
    intro c K
    rw [carryOut, bind_apply, modify_apply]
    exact (ih _ K).of_steps (k := 1) rfl (by omega)

/-- The induction is on the fuel; the rounds of a run are followed one by one. -/
theorem nested_confirmed (fuel : Nat) :
    HookConfirmed (β := β) (κ := κ) (σ := σ) fuel (enterHook fuel) ∧
      RoundsConfirmed (β := β) (κ := κ) (σ := σ) fuel (rounds fuel) := by
  induction fuel with
  | zero =>
    constructor
    · intro p c F K
      refine ⟨0, Nat.le_refl _, ?_⟩
      rintro (⟨n, -, hk⟩ | ⟨e, he⟩)
      · cases hk
      · cases he
    · intro s c next K
      refine ⟨0, Nat.le_refl _, ?_⟩
      rintro (⟨n, he, -⟩ | ⟨e, he⟩) <;> cases he
  | succ fuel ih =>
    obtain ⟨hh, hr⟩ := ih
    constructor
    · intro p c F K
      exact carryOut_confirmed hh hr p c (F :: K)
    · intro s c next K
      rw [rounds_succ]
      cases hc : c.round with
      | leave c' => exact ⟨1, by simp [step, hc]⟩
      | call c' =>
        have called : step ⟨c, .round s next, K⟩ = ⟨c', .program s, .stepper s next :: K⟩ := by
          simp [step, hc]
        refine ((carryOut_confirmed hh hr s c' _).of_step called).bind (Nat.le_refl _) ?_
        intro n c''
        -- the stepper has returned; its frame is taken off and the next round begins
        exact (hr s (c''.advance n) next K).of_step rfl

/-- The steps from the start of a program come to what `perform` comes to. -/
theorem perform_confirmed (fuel : Nat) (p : Program κ σ) (c : Core β κ σ) :
    Confirms fuel (start c p) (ended []) (perform fuel p c) :=
  carryOut_confirmed (nested_confirmed fuel).1 (nested_confirmed fuel).2 p c []

/-- If the steps are over after `k` of them, fuel for one more is enough. -/
theorem perform_ne_outOfFuel {p : Program κ σ} {c : Core β κ σ} {k : Nat}
    (hk : (step^[k] (start c p)).Over) (c' : Core β κ σ) :
    perform (k + 1) p c ≠ .error .outOfFuel c' := by
  intro h
  have confirmed := perform_confirmed (k + 1) p c
  rw [h] at confirmed
  obtain ⟨m, hle, hm⟩ := confirmed
  exact hm (over_of_le (by omega) hk)

end Moment

variable [Bus β] [Coprocessor κ]

open Moment in
/-- **A program ends in `c'` with some fuel exactly when its steps come to `c'`.** -/
theorem perform_eq_ok_iff {p : Program κ σ} {c c' : Core β κ σ} {n : Int} :
    (∃ fuel, perform fuel p c = .ok n c') ↔ ∃ k, step^[k] (start c p) = ended [] n c' := by
  constructor
  · rintro ⟨fuel, h⟩
    have confirmed := perform_confirmed fuel p c
    rw [h] at confirmed
    exact confirmed
  · rintro ⟨k, hk⟩
    have finished : (step^[k] (start c p)).Over := hk ▸ over_ended n c'
    have confirmed := perform_confirmed (k + 1) p c
    refine ⟨k + 1, ?_⟩
    match h : perform (k + 1) p c, confirmed with
    | .ok n' d, ⟨m, hm⟩ =>
      have same := iterate_step_eq (hm ▸ over_ended n' d) finished
      rw [hm, hk] at same
      simp only [ended, Moment.mk.injEq, Control.program.injEq, Program.done.injEq] at same
      rw [same.1, same.2.1]
    | .error (.fault f) d, ⟨m, K, hm⟩ =>
      have same := iterate_step_eq (hm ▸ over_stopped _ d K) finished
      rw [hm, hk] at same
      simp [ended] at same
    | .error .outOfFuel d, _ => exact absurd h (perform_ne_outOfFuel finished d)

/-! ## 5. Sessions -/

/-- From one moment of a session to the next: the next thing is done, a program that is over is
followed by any other, or a fault is survived by any of the callers that wait on the stack,
which then goes on as it likes. -/
inductive Moves : Moment β κ σ → Moment β κ σ → Prop where
  | step (x : Moment β κ σ) : Moves x x.step
  | resume (c : Core β κ σ) (n : Int) (p : Program κ σ) : Moves (.ended [] n c) (.start c p)
  | recover (c : Core β κ σ) (e : Stop) (K L : List (Frame κ σ)) (p : Program κ σ) :
    Moves ⟨c, .stopped e, L ++ K⟩ ⟨c, .program p, K⟩

/-- The moments that a new core comes to, whatever is done with it. -/
inductive Reachable : Moment β κ σ → Prop where
  | new (revision : Revision) (bus : β) (surroundings : σ) (p : Program κ σ) :
    Reachable (.start (.new revision bus surroundings) p)
  | moves {x y : Moment β κ σ} : Reachable x → Moves x y → Reachable y

theorem Reachable.iterate {x : Moment β κ σ} (h : Reachable x) (k : Nat) :
    Reachable (Moment.step^[k] x) := by
  induction k with
  | zero => exact h
  | succ k ih =>
    rw [Function.iterate_succ_apply']
    exact ih.moves (.step _)

/-- A program can be begun in every core that a program has ended in. -/
theorem Reachable.perform {c c' : Core β κ σ} {p : Program κ σ} {fuel : Nat} {n : Int}
    (h : Reachable (.start c p)) (hp : Core.perform fuel p c = .ok n c') (q : Program κ σ) :
    Reachable (.start c' q) := by
  obtain ⟨k, hk⟩ := perform_eq_ok_iff.mp ⟨fuel, hp⟩
  have ended : Reachable (.ended [] n c') := hk ▸ h.iterate k
  exact ended.moves (.resume c' n q)

namespace Preserved

variable {I : Core β κ σ → Prop}

theorem step (h : Preserved I) {x : Moment β κ σ} (hx : I x.core) : I x.step.core := by
  obtain ⟨c, control, K⟩ := x
  match control with
  | .stopped e => exact hx
  | .round s next =>
    rw [Moment.core_step_round]
    exact h.round hx
  | .program (.done n) =>
    match K with
    | [] => exact hx
    | .hook i hook next :: K => exact h.clock _ _ (h.restoreHook i hook hx)
    | .stepper s next :: K => exact h.clock _ _ hx
  | .program (.ask r next) =>
    have ha := h.answer r hx
    simp only [Moment.step]
    split
    · rename_i v c' hc
      rw [hc] at ha
      exact ha
    · rename_i e c' hc
      rw [hc] at ha
      cases e with
      | fault f => exact ha
      | outOfFuel => exact absurd ha id
  | .program (.install i hook next) => exact h.setHook _ i _ hx
  | .program (.raise e next) =>
    have hi := h.intercept e hx
    simp only [Moment.step]
    split <;> rename_i hc <;> rw [hc] at hi
    · exact hi
    · exact h.enter _ e hi
  | .program (.run limit s next) => exact h.target _ limit hx
  | .program (.consult next) => exact hx
  | .program (.update change next) => exact h.surroundings _ _ hx

theorem moves (h : Preserved I) {x y : Moment β κ σ} (hxy : Moves x y) (hx : I x.core) :
    I y.core := by
  cases hxy with
  | step => exact h.step hx
  | resume | recover => exact hx

/-- **What every single thing keeps holds at every moment**, if it holds of a new core. -/
theorem of_reachable (h : Preserved I)
    (hn : ∀ revision bus surroundings, I (.new revision bus surroundings))
    {x : Moment β κ σ} (hx : Reachable x) : I x.core := by
  induction hx with
  | new revision bus surroundings p => exact hn revision bus surroundings
  | moves _ hxy ih => exact h.moves hxy ih

end Preserved
end Core
end Handheld
