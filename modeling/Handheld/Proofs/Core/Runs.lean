/-
# The calls of a run

Between two calls of its stepper a run does nothing but look at the clock and at the lines.  To
say so of the calls of *one* run, runs are told apart by the stack: while the stepper is at
work, its frame is on the stack with the same callers below it, however deep its own hooks and
runs go and wherever a fault is survived, and the first moment at which it is gone is the head
of the next round.

* `Moves.shift`: what one move can do to the stack, from which everything else follows;
* `Moves.calls`: where a stepper is called;
* `frame_kept`, `NextCall.returned`: the way from one call of a run to the next.
-/
import Handheld.Proofs.Core.Moment

namespace Handheld
namespace Core

variable {β κ σ : Type}

/-! ## 1. Moments in a row -/

section LastGiven

variable {α : Type} {given given' : Moment β κ σ → Option α} {path : Nat → Moment β κ σ}

/-- What the moments before `i` gave last, if any of them gave something. -/
def lastGiven (given : Moment β κ σ → Option α) (path : Nat → Moment β κ σ) : Nat → Option α
  | 0 => none
  | i + 1 => (given (path i)).or (lastGiven given path i)

theorem lastGiven_congr {i : Nat} (h : ∀ k < i, given (path k) = given' (path k)) :
    lastGiven given path i = lastGiven given' path i := by
  induction i with
  | zero => rfl
  | succ i ih =>
    rw [lastGiven, lastGiven, h i (Nat.lt_succ_self i), ih fun k hk => h k (Nat.lt_succ_of_lt hk)]

/-- What every move either replaces by what it is given, or leaves as it is. -/
theorem eq_lastGiven (given : Moment β κ σ → Option α) (f : Moment β κ σ → α)
    (move : ∀ i, f (path (i + 1)) = (given (path i)).getD (f (path i))) (i : Nat) :
    f (path i) = (lastGiven given path i).getD (f (path 0)) := by
  induction i with
  | zero => rfl
  | succ i ih =>
    rw [move, ih, lastGiven]
    cases given (path i) <;> rfl

end LastGiven

section Since

variable {begins ends : Moment β κ σ → Prop} {path : Nat → Moment β κ σ}

/-- Something began before `i`, and nothing has ended it since. -/
def Since (begins ends : Moment β κ σ → Prop) (path : Nat → Moment β κ σ) (i : Nat) : Prop :=
  ∃ k < i, begins (path k) ∧ ∀ l, k < l → l < i → ¬ends (path l)

theorem since_succ (i : Nat) :
    Since begins ends path (i + 1) ↔
      begins (path i) ∨ Since begins ends path i ∧ ¬ends (path i) := by
  constructor
  · rintro ⟨k, hk, began, since⟩
    rcases Nat.lt_succ_iff_lt_or_eq.mp hk with hlt | rfl
    · exact .inr ⟨⟨k, hlt, began, fun l hl hli => since l hl (Nat.lt_succ_of_lt hli)⟩,
        since i hlt (Nat.lt_succ_self i)⟩
    · exact .inl began
  · rintro (began | ⟨⟨k, hk, began, since⟩, lasts⟩)
    · exact ⟨i, Nat.lt_succ_self i, began, fun l hl hli => absurd hl (by omega)⟩
    · refine ⟨k, Nat.lt_succ_of_lt hk, began, ?_⟩
      intro l hl hli
      rcases Nat.lt_succ_iff_lt_or_eq.mp hli with hlt | rfl
      · exact since l hl hlt
      · exact lasts

/-- What every move either begins, or ends, or leaves as it is. -/
theorem iff_since (P : Moment β κ σ → Prop) (h0 : ¬P (path 0))
    (move : ∀ i, P (path (i + 1)) ↔ begins (path i) ∨ P (path i) ∧ ¬ends (path i)) (i : Nat) :
    P (path i) ↔ Since begins ends path i := by
  induction i with
  | zero =>
    refine iff_of_false h0 ?_
    rintro ⟨k, hk, -⟩
    exact Nat.not_lt_zero k hk
  | succ i ih => rw [move, since_succ, ih]

end Since

/-! ## 2. Callers come and go -/

/-- The core whose lines a run looks at. -/
def sampled (c : Core β κ σ) : Core β κ σ := { c with exitRequested := false }

/-- The moment is the head of a round that goes on to call the stepper. -/
structure Moment.Calls (x : Moment β κ σ) (s next : Program κ σ) : Prop where
  control : x.control = .round s next
  before : x.core.clock < x.core.target
  awake : x.core.lines.contains .halt = false

variable [Bus β] [Coprocessor κ] {x y : Moment β κ σ} {s next : Program κ σ}

/-- How a run calls its stepper. -/
theorem Moment.Calls.moves (hx : x.Calls s next) (hxy : Moves x y) :
    y = ⟨x.core.sampled.serviceInterrupts, .program s, .stepper s next :: x.stack⟩ := by
  obtain ⟨c, control, K⟩ := x
  obtain ⟨rfl, before, awake⟩ := hx
  have goes : c.round = .call c.sampled.serviceInterrupts := by
    simp only [round, sampled] at *
    simp [before, awake]
  cases hxy with
  | step => simp only [Moment.step, goes]

/-- At the head of a round the lines are looked at, and nothing else comes next. -/
theorem Moves.core_round (h : Moves x y) (hx : x.control = .round s next) :
    y.core = x.core.round.core := by
  obtain ⟨c, control, K⟩ := x
  simp only at hx
  subst hx
  cases h
  exact Moment.core_step_round c s next K

/-- What a move from `x` to `y` can do to the stack. -/
inductive Shift (x y : Moment β κ σ) : Prop where
  /-- No caller is added, and where the head of a round comes next the callers are the same. -/
  | level (fewer : y.stack <:+ x.stack)
    (head : ∀ s next, y.control = .round s next → y.stack = x.stack)
  | hook (i : Byte) (hook next : Program κ σ) (more : y.stack = .hook i hook next :: x.stack)
  | call (s next : Program κ σ) (calls : x.Calls s next)
    (more : y.stack = .stepper s next :: x.stack)
  /-- A stepper ends, and the head of the next round follows. -/
  | returned (n : Int) (s next : Program κ σ) (ended : x.control = .program (.done n))
    (fewer : x.stack = .stepper s next :: y.stack) (head : y.control = .round s next)
    (core : y.core = x.core.advance n)

theorem Moves.shift (h : Moves x y) : Shift x y := by
  have elsewhere : ∀ {q : Program κ σ} {K L : List (Frame κ σ)} (s next : Program κ σ),
      Control.program q = .round s next → K = L := by
    intro q K L s next hq
    cases hq
  have same : ∀ {c c' : Core β κ σ} {control control' : Control κ σ} {K : List (Frame κ σ)},
      Shift ⟨c, control, K⟩ ⟨c', control', K⟩ :=
    .level (List.suffix_refl _) fun _ _ _ => rfl
  cases h with
  | resume c n p => exact same
  | recover c e K L p => exact .level (List.suffix_append L K) elsewhere
  | step =>
    obtain ⟨c, control, K⟩ := x
    cases control with
    | stopped e => exact same
    | round s next =>
      by_cases before : c.clock < c.target
      · cases awake : c.lines.contains .halt with
        | true =>
          simp only [Moment.step, round, before, awake, if_true]
          exact same
        | false =>
          simp only [Moment.step, round, before, awake, if_true]
          exact .call s next ⟨rfl, before, awake⟩ rfl
      · simp only [Moment.step, round, before, if_false]
        exact same
    | program p =>
      cases p with
      | done n =>
        cases K with
        | nil => exact same
        | cons F K =>
          cases F with
          | hook i hook next => exact .level (List.suffix_cons _ K) elsewhere
          | stepper s next => exact .returned n s next rfl rfl rfl rfl
      | ask r next =>
        simp only [Moment.step]
        split <;> exact same
      | raise e next =>
        simp only [Moment.step]
        split
        · exact .hook _ _ next rfl
        · exact same
      | install i hook next => exact same
      | run limit s next => exact same
      | consult next => exact same
      | update change next => exact same

/-- One move puts at most one caller on the stack, and touches none that stays. -/
theorem Moves.stack (h : Moves x y) : y.stack <:+ x.stack ∨ ∃ F, y.stack = F :: x.stack := by
  cases h.shift with
  | level fewer => exact .inl fewer
  | hook i hook next more => exact .inr ⟨_, more⟩
  | call s next calls more => exact .inr ⟨_, more⟩
  | returned n s next ended fewer =>
    rw [fewer]
    exact .inl (List.suffix_cons _ _)

/-- Only the end of a stepper leads back to the head of a round with fewer callers. -/
theorem Moves.returned (h : Moves x y) (hy : y.control = .round s next)
    (hlt : y.stack.length < x.stack.length) :
    ∃ n, x = ⟨x.core, .program (.done n), .stepper s next :: y.stack⟩ ∧
      y.core = x.core.advance n := by
  cases h.shift with
  | level fewer head =>
    rw [head s next hy] at hlt
    exact absurd hlt (Nat.lt_irrefl _)
  | hook i hook next more | call s next calls more =>
    rw [more, List.length_cons] at hlt
    omega
  | returned n s' next' ended fewer head core =>
    obtain ⟨rfl, rfl⟩ := Control.round.inj (head.symm.trans hy)
    refine ⟨n, ?_, core⟩
    rw [← ended, ← fewer]

/-- Only the head of a round calls a stepper, and only if the run is not over and not halted. -/
theorem Moves.calls (h : Moves x y) (hy : y.stack = .stepper s next :: x.stack) :
    x.Calls s next := by
  have longer := congrArg List.length hy
  rw [List.length_cons] at longer
  cases h.shift with
  | level fewer =>
    have := fewer.length_le
    omega
  | hook i hook next' more =>
    rw [more] at hy
    cases hy
  | call s' next' calls more =>
    rw [more, List.cons.injEq, Frame.stepper.injEq] at hy
    obtain ⟨⟨rfl, rfl⟩, -⟩ := hy
    exact calls
  | returned n s' next' ended fewer =>
    rw [fewer, List.length_cons] at longer
    omega

/-! ## 3. From one call to the next -/

/-- The moments of a session, one after the other. -/
def Path (path : Nat → Moment β κ σ) : Prop := ∀ i, Moves (path i) (path (i + 1))

theorem path_iterate (x : Moment β κ σ) : Path fun i => Moment.step^[i] x := by
  intro i
  simp only [Function.iterate_succ_apply']
  exact .step _

/-- The stepper of a run is called: its frame comes on top of the callers of the run. -/
def CallsAt (path : Nat → Moment β κ σ) (i : Nat) (s next : Program κ σ) : Prop :=
  (path (i + 1)).stack = .stepper s next :: (path i).stack

/-- The run that calls its stepper at `i` calls it the next time at `j`: until then there have
always been callers above those of the run. -/
structure NextCall (path : Nat → Moment β κ σ) (i j : Nat) : Prop where
  lt : i < j
  within : ∀ l, i < l → l < j → (path i).stack.length < (path l).stack.length
  back : (path j).stack.length ≤ (path i).stack.length
  calls : ∃ s next, CallsAt path j s next

variable {path : Nat → Moment β κ σ} {i j : Nat}

/-- While the stepper is at work its frame stays where it is, by induction on the moves. -/
theorem frame_kept (hp : Path path) (hi : (path i).Calls s next) {l : Nat} (hl : i < l)
    (within : ∀ k, i < k → k ≤ l → (path i).stack.length < (path k).stack.length) :
    (.stepper s next :: (path i).stack) <:+ (path l).stack := by
  induction hl with
  | refl =>
    have start : (path (i + 1)).stack = .stepper s next :: (path i).stack :=
      congrArg Moment.stack (hi.moves (hp i))
    exact ⟨[], start.symm⟩
  | @step l hl ih =>
    have kept := ih fun k hk hkl => within k hk (Nat.le_succ_of_le hkl)
    have deeper := within (l + 1) (Nat.le_succ_of_le hl) (Nat.le_refl _)
    rcases (hp l).stack with fewer | ⟨F, more⟩
    · exact List.suffix_of_suffix_length_le kept fewer deeper
    · rw [more]
      exact kept.trans (List.suffix_cons F _)

/-- **The next call of a run** comes right after the return from the call before. -/
theorem NextCall.returned (hp : Path path) (hi : (path i).Calls s next) (hj : NextCall path i j) :
    (path j).Calls s next ∧ (path j).stack = (path i).stack ∧
      ∃ n, path (j - 1) = ⟨(path (j - 1)).core, .program (.done n),
          .stepper s next :: (path i).stack⟩ ∧
        (path j).core = (path (j - 1)).core.advance n := by
  obtain ⟨s', next', pushed⟩ := hj.calls
  have hcalls := (hp j).calls pushed
  have hlt := hj.lt
  -- the frame of the call is at least one move old
  have hne : j ≠ i + 1 := by
    rintro rfl
    have hback := hj.back
    rw [hi.moves (hp i)] at hback
    exact absurd hback (Nat.not_succ_le_self _)
  obtain ⟨l, rfl⟩ : ∃ l, j = l + 1 := ⟨j - 1, by omega⟩
  have hl : i < l := by omega
  obtain ⟨L, kept⟩ := frame_kept hp hi hl fun k hk hkl => hj.within k hk (by omega)
  have deeper := hj.within l hl (Nat.lt_succ_self l)
  obtain ⟨n, hx, hcore⟩ := (hp l).returned hcalls.control (Nat.lt_of_le_of_lt hj.back deeper)
  have top : .stepper s' next' :: (path (l + 1)).stack = L ++ .stepper s next :: (path i).stack :=
    (congrArg Moment.stack hx).symm.trans kept.symm
  have alone : L = [] := by
    have hlen := congrArg List.length top
    have hback := hj.back
    simp only [List.length_cons, List.length_append] at hlen
    exact List.length_eq_zero_iff.mp (by omega)
  rw [alone, List.nil_append, List.cons.injEq, Frame.stepper.injEq] at top
  obtain ⟨⟨rfl, rfl⟩, hstack⟩ := top
  rw [hstack] at hx
  exact ⟨hcalls, hstack, n, hx, hcore⟩

end Core
end Handheld
