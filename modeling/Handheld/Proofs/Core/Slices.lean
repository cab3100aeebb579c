/-
# Running in slices

A run to `a` that is followed by a run to `b` stops halfway: at the first round at which the
clock has reached `a`, or, if the core is halted by then, at `a` itself.  That it does is not to
be seen afterwards, unless somebody looks at where the run is going.  The stepper may, and so may
a hook: both can ask for the limit, and both can put another in its place by a run of their own.

* `Sliced.step`: beside a run in one go the first slice does the same, step by step, until it is
  over; what is left to do then is the same;
* `run_in_slices`: so both end in the same core;
* `slices_seen_by_hook`: it takes a hook that looks, for a stepper that does not, to tell them
  apart.
-/
import Handheld.Proofs.Core.Limit
import Handheld.Proofs.Core.Target

namespace Handheld
namespace Core

variable {β κ σ : Type}

/-! ## 1. Rounds -/

theorem round_aim_of_le {c : Core β κ σ} {limit : Int} (late : limit ≤ c.clock) :
    (c.aim limit).round = .leave (c.aim limit) :=
  round_of_le (c := c.aim limit) late

theorem round_aim_of_halted {c : Core β κ σ} {limit : Int} (early : c.clock < limit)
    (halted : c.lines.contains .halt = true) :
    (c.aim limit).round = .leave ({ c with clock := limit, exitRequested := false }.aim limit) :=
  round_of_halted (c := c.aim limit) early halted

theorem round_aim_of_awake {c : Core β κ σ} {limit : Int} (early : c.clock < limit)
    (awake : ¬c.lines.contains .halt = true) :
    (c.aim limit).round =
      .call ({ c with exitRequested := false }.serviceInterrupts.aim limit) := by
  rw [← serviceInterrupts_aim]
  exact round_of_awake (c := c.aim limit) early awake

/-! ## 2. One step -/

def Frame.InStep : Frame κ σ → Prop
  | .stepper _ _ => False
  | .hook _ _ _ => True

namespace Moment

/-- The same, called by the callers in `K`. -/
def onto (x : Moment β κ σ) (K : List (Frame κ σ)) : Moment β κ σ :=
  { x with stack := x.stack ++ K }

/-- Within one step of a run: hooks may be at work, but no other run. -/
structure InStep (x : Moment β κ σ) : Prop where
  control : x.control.InStep
  stack : ∀ F ∈ x.stack, F.InStep

theorem inStep_start (c : Core β κ σ) (p : Program κ σ) : (start c p).InStep :=
  ⟨True.intro, fun _ hF => absurd hF List.not_mem_nil⟩

theorem not_begins_of_not_watches {x : Moment β κ σ} (h : ¬x.control.Watches) (limit : Int) :
    ¬x.Begins limit := by
  rintro ⟨s, next, begins⟩
  exact h (begins ▸ True.intro)

section Steps

variable [Bus β] [Coprocessor κ] {x : Moment β κ σ}

/-- What is within one step of a run stays there until it begins a run of its own. -/
theorem InStep.step (h : x.InStep) (alone : ∀ limit, ¬x.Begins limit) : x.step.InStep := by
  obtain ⟨c, control, K⟩ := x
  obtain ⟨here, hooks⟩ := h
  match control with
  | .stopped e => exact ⟨here, hooks⟩
  | .round s next => exact absurd here id
  | .program (.done n) =>
    cases K with
    | nil => exact ⟨here, hooks⟩
    | cons F K =>
      obtain ⟨caller, others⟩ := List.forall_mem_cons.mp hooks
      cases F with
      | hook i hook next => exact ⟨True.intro, others⟩
      | stepper s next => exact absurd caller id
  | .program (.ask r next) =>
    simp only [Moment.step]
    split
    · exact ⟨True.intro, hooks⟩
    · exact ⟨True.intro, hooks⟩
  | .program (.raise e next) =>
    simp only [Moment.step]
    split
    · exact ⟨True.intro, List.forall_mem_cons.mpr ⟨True.intro, hooks⟩⟩
    · exact ⟨True.intro, hooks⟩
  | .program (.run limit s next) => exact absurd ⟨s, next, rfl⟩ (alone limit)
  | .program (.install i hook next) | .program (.consult next)
  | .program (.update change next) => exact ⟨True.intro, hooks⟩

/-- A step is the same whoever waits, until the program returns to them. -/
theorem step_onto (h : ∀ n, x.control = .program (.done n) → x.stack ≠ [])
    (K : List (Frame κ σ)) : (x.onto K).step = x.step.onto K := by
  obtain ⟨c, control, L⟩ := x
  match control with
  | .stopped e => rfl
  | .round s next =>
    simp only [onto, step]
    cases c.round <;> rfl
  | .program (.done n) =>
    cases L with
    | nil => exact absurd rfl (h n rfl)
    | cons F L => cases F <;> rfl
  | .program (.ask r next) =>
    simp only [onto, step]
    cases answer r c <;> rfl
  | .program (.raise e next) =>
    simp only [onto, step]
    rcases c.intercept e with ⟨c', _ | ⟨i, hook⟩⟩ <;> rfl
  | .program (.run limit s next) => rfl
  | .program (.install i hook next) | .program (.consult next)
  | .program (.update change next) => rfl

end Steps

/-! ## 3. In slices and in one go -/

variable {x y : Moment β κ σ} {a b : Int} {s : Program κ σ}

/-- The first slice of a run beside the whole run: both are at the head of a round, or in the
same step. -/
inductive Sliced (a b : Int) (s : Program κ σ) : Moment β κ σ → Moment β κ σ → Prop where
  | head (c : Core β κ σ) :
    Sliced a b s ⟨c.aim a, .round s (.run b s (.done 0)), []⟩ ⟨c.aim b, .round s (.done 0), []⟩
  | call {z : Moment β κ σ} (h : z.InStep) :
    Sliced a b s ((z.aim a).onto [.stepper s (.run b s (.done 0))])
      ((z.aim b).onto [.stepper s (.done 0)])

theorem Sliced.not_over (h : Sliced a b s x y) (n : Int) (c : Core β κ σ) :
    x ≠ ended [] n c ∧ y ≠ ended [] n c := by
  cases h with
  | head c => exact ⟨nofun, nofun⟩
  | call h =>
    constructor
    · intro finished
      exact absurd (congrArg Moment.stack finished) (List.append_ne_nil_of_right_ne_nil _ nofun)
    · intro finished
      exact absurd (congrArg Moment.stack finished) (List.append_ne_nil_of_right_ne_nil _ nofun)

variable [Bus β] [Coprocessor κ]

/-- Both come to the same moment. -/
def Meets (x y : Moment β κ σ) : Prop := ∃ i j, step^[i] x = step^[j] y

theorem Sliced.step_head (c : Core β κ σ) (h : a ≤ b) :
    Sliced a b s (step ⟨c.aim a, .round s (.run b s (.done 0)), []⟩)
        (step ⟨c.aim b, .round s (.done 0), []⟩) ∨
      Meets ⟨c.aim a, .round s (.run b s (.done 0)), []⟩ ⟨c.aim b, .round s (.done 0), []⟩ := by
  rcases Int.lt_or_le c.clock a with early | late
  · by_cases halted : c.lines.contains .halt = true
    · right
      -- the slice ends at `a`, where the second run finds the core as the first one found it
      have second : Moment.step^[2] ⟨c.aim a, .round s (.run b s (.done 0)), []⟩ =
          ⟨Core.aim { c with clock := a, exitRequested := false } b, .round s (.done 0), []⟩ := by
        show Moment.step (Moment.step _) = _
        simp only [Moment.step, round_aim_of_halted early halted]
        rfl
      refine ⟨3, 1, ?_⟩
      rw [Function.iterate_succ_apply', second, Function.iterate_one]
      simp only [Moment.step, round_aim_of_halted (Int.lt_of_lt_of_le early h) halted]
      rcases Int.lt_or_eq_of_le h with before | rfl
      · rw [round_aim_of_halted (c := { c with clock := a, exitRequested := false }) before halted]
      · rw [round_aim_of_le (c := { c with clock := a, exitRequested := false }) (Int.le_refl a)]
    · left
      have sliced := round_aim_of_awake early halted
      have whole := round_aim_of_awake (Int.lt_of_lt_of_le early h) halted
      simp only [Moment.step, sliced, whole]
      exact .call (inStep_start _ s)
  · right
    refine ⟨2, 0, ?_⟩
    show Moment.step (Moment.step _) = _
    simp only [Moment.step, round_aim_of_le late]
    rfl

theorem Sliced.step_call {z : Moment β κ σ} (h : z.InStep) (unwatched : ¬z.control.Watches) :
    Sliced a b s (step ((z.aim a).onto [.stepper s (.run b s (.done 0))]))
      (step ((z.aim b).onto [.stepper s (.done 0)])) := by
  by_cases returned : ∃ n, z.control = .program (.done n) ∧ z.stack = []
  · obtain ⟨n, ended, empty⟩ := returned
    obtain ⟨c, control, K⟩ := z
    simp only at ended empty
    subst ended empty
    exact .head (c.advance n)
  · have busy : ∀ n, z.control = .program (.done n) → z.stack ≠ [] :=
      fun n ended empty => returned ⟨n, ended, empty⟩
    rw [step_onto (x := z.aim a) busy, step_onto (x := z.aim b) busy, step_aim h.control unwatched,
      step_aim h.control unwatched]
    exact .call (h.step (not_begins_of_not_watches unwatched))

/-- **The run in slices keeps beside the whole run** until it meets it. -/
theorem Sliced.step (h : Sliced a b s x y) (hab : a ≤ b) (unwatched : ¬y.control.Watches) :
    Sliced a b s x.step y.step ∨ Meets x y := by
  cases h with
  | head c => exact step_head c hab
  | call h => exact .inl (step_call h unwatched)

theorem Meets.of_iterate {k l : Nat} (h : Meets (Moment.step^[k] x) (Moment.step^[l] y)) :
    Meets x y := by
  obtain ⟨i, j, h⟩ := h
  refine ⟨i + k, j + l, ?_⟩
  rw [Function.iterate_add_apply, Function.iterate_add_apply, h]

/-- So they keep beside each other, by induction on the steps. -/
theorem Sliced.iterate (h : Sliced a b s x y) (hab : a ≤ b)
    (unwatched : ∀ k, ¬(Moment.step^[k] y).control.Watches) (k : Nat) :
    Sliced a b s (Moment.step^[k] x) (Moment.step^[k] y) ∨ Meets x y := by
  induction k with
  | zero => exact .inl h
  | succ k ih =>
    rw [Function.iterate_succ_apply', Function.iterate_succ_apply']
    rcases ih with sliced | meet
    · exact (sliced.step hab (unwatched k)).imp_right Meets.of_iterate
    · exact .inr meet

/-- Where an execution ends can be told from any of its moments. -/
theorem ends_iterate_iff (x : Moment β κ σ) (m : Nat) (n : Int) (c : Core β κ σ) :
    (∃ k, Moment.step^[k] (Moment.step^[m] x) = ended [] n c) ↔
      ∃ k, Moment.step^[k] x = ended [] n c := by
  constructor
  · rintro ⟨k, hk⟩
    exact ⟨k + m, by rw [Function.iterate_add_apply, hk]⟩
  · rintro ⟨k, hk⟩
    refine ⟨k, ?_⟩
    rw [← Function.iterate_add_apply, Nat.add_comm, Function.iterate_add_apply, hk]
    exact iterate_step_eq_self (over_ended n c) m

/-- Executions that meet end alike. -/
theorem Meets.ends_iff (h : Meets x y) (n : Int) (c : Core β κ σ) :
    (∃ k, Moment.step^[k] x = ended [] n c) ↔ ∃ k, Moment.step^[k] y = ended [] n c := by
  obtain ⟨i, j, h⟩ := h
  rw [← ends_iterate_iff x i, ← ends_iterate_iff y j, h]

/-- While they keep beside each other neither is over; so both end after they have met, or neither
does. -/
theorem Sliced.ends_iff (h : Sliced a b s x y) (hab : a ≤ b)
    (unwatched : ∀ k, ¬(Moment.step^[k] y).control.Watches) (n : Int) (c : Core β κ σ) :
    (∃ k, Moment.step^[k] x = ended [] n c) ↔ ∃ k, Moment.step^[k] y = ended [] n c := by
  by_cases meet : Meets x y
  · exact meet.ends_iff n c
  · have sliced := fun k => (h.iterate hab unwatched k).resolve_right meet
    constructor
    · rintro ⟨k, hk⟩
      exact absurd hk ((sliced k).not_over n c).1
    · rintro ⟨k, hk⟩
      exact absurd hk ((sliced k).not_over n c).2

end Moment

/-! ## 4. Runs -/

section Runs

variable [Bus β] [Coprocessor κ] {a b : Int} {s : Program κ σ} {c : Core β κ σ}

/-- Nobody looks at where the run is going, or sends the core elsewhere, while `s` runs to
`limit`. -/
def Unwatched (c : Core β κ σ) (limit : Int) (s : Program κ σ) : Prop :=
  ∀ k, ¬(Moment.step^[k + 1] (.start c (.run limit s (.done 0)))).control.Watches

/-- Where the stepper and the hooks are blind, nobody looks. -/
theorem unwatched_of_blind (limit : Int) (blind : s.Blind) (hooks : c.HooksBlind) :
    c.Unwatched limit s := by
  have begun : Moment.Blind (Moment.start c (.run limit s (.done 0))).step :=
    ⟨hooks, ⟨blind, True.intro⟩, nofun⟩
  intro k
  rw [Function.iterate_succ_apply]
  exact (begun.iterate k).control.not_watches

theorem run_run_eq_ok_iff {c' : Core β κ σ} :
    (∃ fuel, (run fuel a s >>= fun _ => run fuel b s) c = .ok () c') ↔
      ∃ k, Moment.step^[k] (.start c (.run a s (.run b s (.done 0)))) = .ended [] 0 c' := by
  rw [← perform_eq_ok_iff]
  refine exists_congr fun fuel => ?_
  rw [perform_run, bind_apply, bind_apply]
  cases run fuel a s c with
  | ok v d =>
    simp only [perform_run, bind_apply]
    cases run fuel b s d with
    | ok v d' =>
      show _ ↔ EStateM.Result.ok 0 d' = _
      simp
    | error e d => simp
  | error e d => simp

/-- **A run in slices ends exactly where the run in one go ends**, if nobody looks at where it
is going meanwhile. -/
theorem run_in_slices (h : a ≤ b) (unwatched : c.Unwatched b s) (c' : Core β κ σ) :
    (∃ fuel, (run fuel a s >>= fun _ => run fuel b s) c = .ok () c') ↔
      ∃ fuel, run fuel b s c = .ok () c' := by
  rw [run_run_eq_ok_iff, run_eq_ok_iff]
  have begun : ∀ (limit : Int) (next : Program κ σ),
      Moment.Meets (.start c (.run limit s next)) ⟨c.aim limit, .round s next, []⟩ :=
    fun _ _ => ⟨1, 0, rfl⟩
  rw [(begun a _).ends_iff, (begun b _).ends_iff]
  exact (Moment.Sliced.head c).ends_iff h unwatched 0 c'

end Runs

/-! ## 5. A hook in the way -/

/-- Raises a software interrupt, each time it is called. -/
def interrupting : Program SystemControl Unit := .raise .softwareInterrupt (.done 1)

/-- A new core with a hook for the software interrupt 0, which is all that its memory has. -/
def hooked (hook : Program SystemControl Unit) : Core Ram SystemControl Unit :=
  Core.setHook (.new .v5 ⟨#[0], 0⟩ ()) 0 (some hook)

theorem hooksBlind_hooked {hook : Program SystemControl Unit} (blind : hook.Blind) :
    (hooked hook).HooksBlind :=
  (hooksBlind_new .v5 _ ()).setHook 0 fun _ hp => Option.some.inj hp ▸ blind

theorem reachable_hooked (hook p : Program SystemControl Unit) :
    Reachable (.start (hooked hook) p) := by
  have installed : perform 0 (.install 0 hook (.done 0)) (.new .v5 ⟨#[0], 0⟩ ()) =
      .ok 0 (hooked hook) := rfl
  exact (Reachable.new .v5 ⟨#[0], 0⟩ () _).perform installed p

theorem exists_ok {P : Core β κ σ → Prop} [DecidablePred P]
    {r : EStateM.Result Stop (Core β κ σ) Unit}
    (h : (match r with | .ok _ c => decide (P c) | .error _ _ => false) = true) :
    ∃ c, r = .ok () c ∧ P c := by
  cases r with
  | ok v c => exact ⟨c, rfl, of_decide_eq_true h⟩
  | error e c => cases h

/-- The hook halts the core in the first slice, which ends past its limit; the second lets the
time pass. -/
theorem run_in_slices_past_limit :
    ∃ c' : Core Ram SystemControl Unit,
      (∃ fuel, (run fuel 2 interrupting >>= fun _ => run fuel 9 interrupting)
        (hooked (.ask (.setLine .halt true) fun _ => .done 0)) = .ok () c') ∧
      c'.clock = 9 ∧ c'.lines = .halt := by
  have hooks : (hooked (.ask (.setLine .halt true) fun _ => .done 0)).HooksBlind :=
    hooksBlind_hooked ⟨nofun, fun _ => True.intro⟩
  have unwatched := unwatched_of_blind (s := interrupting) 9 True.intro hooks
  obtain ⟨c', ran, after⟩ := exists_ok (P := fun c => c.clock = 9 ∧ c.lines = .halt)
    (r := run 4 9 interrupting (hooked (.ask (.setLine .halt true) fun _ => .done 0)))
    (by decide +kernel)
  exact ⟨c', (run_in_slices (a := 2) (by decide) unwatched c').mpr ⟨4, ran⟩, after⟩

/-- A hook asks where the run is going and takes as many cycles.  The stepper, which is blind, is
called once, in the first slice and in the whole run alike, but the slice has another limit to tell
the hook. -/
theorem slices_seen_by_hook :
    ∃ c₁ c₂ : Core Ram SystemControl Unit,
      Reachable (.start (hooked (.ask .target .done)) (.run 3 interrupting (.done 0))) ∧
      interrupting.Blind ∧
      (run 4 1 interrupting >>= fun _ => run 4 3 interrupting) (hooked (.ask .target .done)) =
        .ok () c₁ ∧ c₁.clock = 5 ∧
      run 4 3 interrupting (hooked (.ask .target .done)) = .ok () c₂ ∧ c₂.clock = 7 := by
  obtain ⟨c₁, ran₁, clock₁⟩ := exists_ok (P := fun c => c.clock = 5)
    (r := (run 4 1 interrupting >>= fun _ => run 4 3 interrupting) (hooked (.ask .target .done)))
    (by decide +kernel)
  obtain ⟨c₂, ran₂, clock₂⟩ := exists_ok (P := fun c => c.clock = 7)
    (r := run 4 3 interrupting (hooked (.ask .target .done))) (by decide +kernel)
  exact ⟨c₁, c₂, reachable_hooked _ _, True.intro, ran₁, clock₁, ran₂, clock₂⟩

end Core
end Handheld
