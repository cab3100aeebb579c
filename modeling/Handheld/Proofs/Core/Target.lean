/-
# How far a run goes

The limit of a run is kept in the core, where a run that is begun inside it -- by its stepper,
or by a hook -- puts its own.  Nothing brings the old one back.  So what a run reaches before it
returns is the limit of the run that was begun last, and its own only if that is as far.

* `target_le_clock_of_rounds`: rounds end when the clock has reached the limit that is kept;
* `run_reaches_last_limit`: whose limit that is, and when it is far enough.
-/
import Handheld.Memory.Ram
import Handheld.Proofs.Core.Parts

namespace Handheld
namespace Core

variable {β κ σ : Type}

/-! ## 1. Runs as programs -/

section Programs

variable [Bus β] [Coprocessor κ] {limit : Int} {s next : Program κ σ} {c c' : Core β κ σ}

theorem perform_run (fuel : Nat) (limit : Int) (s next : Program κ σ) (c : Core β κ σ) :
    perform fuel (.run limit s next) c = (run fuel limit s >>= fun _ => perform fuel next) c := by
  simp only [perform, carryOut, run, bind_apply, modify_apply]

/-- A run returns with some fuel exactly when its steps come to an end. -/
theorem run_eq_ok_iff :
    (∃ fuel, run fuel limit s c = .ok () c') ↔
      ∃ k, Moment.step^[k] (.start c (.run limit s (.done 0))) = .ended [] 0 c' := by
  rw [← perform_eq_ok_iff]
  refine exists_congr fun fuel => ?_
  rw [perform_run, bind_apply]
  cases run fuel limit s c with
  | ok v d =>
    show _ ↔ EStateM.Result.ok 0 d = _
    simp
  | error e d => simp

end Programs

/-! ## 2. The end of the rounds -/

theorem target_le_clock_of_round {c c' : Core β κ σ} (h : c.round = .leave c') :
    c'.target ≤ c'.clock := by
  simp only [round] at h
  split at h
  · split at h
    · cases h
      exact Int.le_refl _
    · cases h
  · cases h
    omega

/-- The next thing is to begin a run to `limit`. -/
def Moment.Begins (x : Moment β κ σ) (limit : Int) : Prop :=
  ∃ s next, x.control = .program (.run limit s next)

theorem Moment.begins_of_touches {x : Moment β κ σ} (h : .target ∈ x.control.parts) :
    ∃ limit, x.Begins limit := by
  obtain ⟨c, control, K⟩ := x
  cases control with
  | stopped e => cases h
  | round s next => exact absurd h (of_decide_eq_false rfl)
  | program p =>
    cases p with
    | run limit s next => exact ⟨limit, s, next, rfl⟩
    | ask r next => cases r <;> exact absurd h (of_decide_eq_false rfl)
    | _ => exact absurd h (of_decide_eq_false rfl)

variable [Bus β] [Coprocessor κ]

/-- **The rounds of a run end when the limit is reached**, by induction on the fuel. -/
theorem target_le_clock_of_rounds {fuel : Nat} {s : Program κ σ} {c c' : Core β κ σ}
    (h : rounds fuel s c = .ok () c') : c'.target ≤ c'.clock := by
  induction fuel generalizing c with
  | zero => cases h
  | succ fuel ih =>
    rw [rounds_succ] at h
    cases hc : c.round with
    | leave d =>
      rw [hc] at h
      cases h
      exact target_le_clock_of_round hc
    | call d =>
      rw [hc] at h
      simp only [bind_apply] at h
      cases hs : perform fuel s d with
      | ok n d' =>
        rw [hs] at h
        exact ih h
      | error e d' =>
        rw [hs] at h
        cases h

/-! ## 3. Whose limit it is -/

theorem Moment.target_step_of_begins {x : Moment β κ σ} {limit : Int} (h : x.Begins limit) :
    x.step.core.target = limit := by
  obtain ⟨c, control, K⟩ := x
  obtain ⟨s, next, hx⟩ := h
  simp only at hx
  subst hx
  rfl

theorem Moment.target_step {x : Moment β κ σ} (h : ∀ limit, ¬x.Begins limit) :
    x.step.core.target = x.core.target :=
  x.step_keeps .target fun hin => (Moment.begins_of_touches hin).elim h

/-- From a moment that begins a run on, the limit that is kept is that of the run begun last, by
induction on the steps. -/
theorem Moment.exists_begun_last {x : Moment β κ σ} {limit : Int} (h : x.Begins limit) (n : Nat) :
    ∃ k ≤ n, (step^[k] x).Begins (step^[n + 1] x).core.target ∧
      ∀ j, k < j → j ≤ n → ∀ l, ¬(step^[j] x).Begins l := by
  induction n with
  | zero =>
    refine ⟨0, Nat.le_refl 0, ?_, fun j hj hj0 => absurd hj (Nat.not_lt.mpr hj0)⟩
    show x.Begins x.step.core.target
    rw [target_step_of_begins h]
    exact h
  | succ n ih =>
    obtain ⟨k, hk, begun, since⟩ := ih
    rw [Function.iterate_succ_apply' step (n + 1)]
    by_cases new : ∃ l, (step^[n + 1] x).Begins l
    · obtain ⟨l, hl⟩ := new
      refine ⟨n + 1, Nat.le_refl _, ?_, fun j hj hjn => absurd hj (Nat.not_lt.mpr hjn)⟩
      rw [target_step_of_begins hl]
      exact hl
    · have none : ∀ l, ¬(step^[n + 1] x).Begins l := fun l hl => new ⟨l, hl⟩
      refine ⟨k, Nat.le_succ_of_le hk, ?_, ?_⟩
      · rw [target_step none]
        exact begun
      · intro j hj hjn
        rcases Nat.le_succ_iff.mp hjn with hle | rfl
        · exact since j hj hle
        · exact none

/-- **A run reaches the limit of the run that was begun last** while it was going on, itself
included; and so its own limit, if no run inside it was begun with a smaller one. -/
theorem run_reaches_last_limit {fuel : Nat} {limit : Int} {s : Program κ σ} {c c' : Core β κ σ}
    (h : run fuel limit s c = .ok () c') :
    (∃ k, (Moment.step^[k] (.start c (.run limit s (.done 0)))).Begins c'.target ∧
      ∀ j > k, ∀ l, ¬(Moment.step^[j] (.start c (.run limit s (.done 0)))).Begins l) ∧
    c'.target ≤ c'.clock ∧
    ((∀ k l, (Moment.step^[k] (.start c (.run limit s (.done 0)))).Begins l → limit ≤ l) →
      limit ≤ c'.clock) := by
  have reached : c'.target ≤ c'.clock := target_le_clock_of_rounds h
  obtain ⟨m, hm⟩ := run_eq_ok_iff.mp ⟨fuel, h⟩
  -- once it is over, the program that has ended begins nothing any more
  have stays : ∀ j ≥ m, Moment.step^[j] (.start c (.run limit s (.done 0))) = .ended [] 0 c' := by
    intro j hj
    obtain ⟨i, rfl⟩ := Nat.exists_eq_add_of_le' hj
    rw [Function.iterate_add_apply, hm]
    exact Moment.iterate_step_eq_self (Moment.over_ended 0 c') i
  obtain ⟨k, hk, begun, since⟩ :=
    Moment.exists_begun_last (x := .start c (.run limit s (.done 0))) ⟨s, .done 0, rfl⟩ m
  rw [stays (m + 1) (Nat.le_succ m)] at begun
  refine ⟨⟨k, begun, ?_⟩, reached, fun far => Int.le_trans (far k _ begun) reached⟩
  intro j hj
  rcases Nat.le_total j m with hle | hge
  · exact since j hj hle
  · rw [stays j hge]
    rintro l ⟨_, _, ended⟩
    cases ended

/-- A run to 2 whose stepper begins a run to 5 goes on to 5. -/
theorem run_reaches_last_limit_beyond :
    ∃ c' : Core Ram SystemControl Unit,
      run 4 2 (.run 5 (.done 3) (.done 1)) (.new .v5 ⟨#[0], 0⟩ ()) = .ok () c' ∧
      c'.target = 5 ∧ 5 ≤ c'.clock := by
  have ran : ∃ c' : Core Ram SystemControl Unit, c'.target = 5 ∧
      run 4 2 (.run 5 (.done 3) (.done 1)) (.new .v5 ⟨#[0], 0⟩ ()) = .ok () c' := ⟨_, rfl, rfl⟩
  obtain ⟨c', last, ran⟩ := ran
  obtain ⟨-, reached, -⟩ := run_reaches_last_limit ran
  rw [last] at reached
  exact ⟨c', ran, last, reached⟩

/-- A run to 2 whose stepper begins a run to 0 returns at 1. -/
theorem run_returns_short_of_limit :
    ∃ c c' : Core Ram SystemControl Unit,
      Reachable (.start c (.run 2 (.run 0 (.done 1) (.done 1)) (.done 0))) ∧
      run 2 2 (.run 0 (.done 1) (.done 1)) c = .ok () c' ∧ c'.clock = 1 :=
  ⟨_, _, .new .v5 ⟨#[0], 0⟩ () _, rfl, rfl⟩

end Core
end Handheld
