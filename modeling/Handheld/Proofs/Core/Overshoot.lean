/-
# How far beyond its limit a run goes

A run looks at the clock between two calls of its stepper and at no other time.  What happens in
between it cannot cut short: an interrupt that is due may be taken first, which takes three
cycles, and then the stepper takes as long as it takes.  Where every call brings the clock
forward, the distance to the limit is a measure of what is left to do, whatever else the stepper
does to the core, and at most the last call goes beyond.

All this is so while no other run puts its limit in place of this one, for nothing puts it back.
That the stepper begins none is not enough, since a hook may.

* `phase_running`: while no other run is begun, a run is at the head of a round, or its stepper is
  at work, or it is over;
* `next_head`: from one head of a round to the next;
* `run_overshoots`: how many calls there are and where the run ends;
* `run_sent_back_by_hook`: a hook that begins a run can end this one short of its limit.
-/
import Handheld.Proofs.Core.Cycles
import Handheld.Proofs.Core.Slices
import Mathlib.Data.Int.Interval

namespace Handheld
namespace Core

variable {β κ σ : Type}

/-! ## 1. The moments of a run -/

/-- The run is at the head of a round, or its stepper is at work, or it is over. -/
inductive Phase (s : Program κ σ) : Moment β κ σ → Prop where
  | head (d : Core β κ σ) : Phase s ⟨d, .round s (.done 0), []⟩
  | call {z : Moment β κ σ} (h : z.InStep) : Phase s (z.onto [.stepper s (.done 0)])
  | finished (d : Core β κ σ) : Phase s (.ended [] 0 d)

variable [Bus β] [Coprocessor κ] {c : Core β κ σ} {limit : Int} {s : Program κ σ}

open Moment in
theorem Phase.step {x : Moment β κ σ} (h : Phase s x) (alone : ∀ l, ¬x.Begins l) :
    Phase s x.step := by
  cases h with
  | head d =>
    simp only [Moment.step]
    cases d.round with
    | leave d' => exact .finished d'
    | call d' => exact .call (inStep_start d' s)
  | @call z h =>
    by_cases returned : ∃ n d, z = ended [] n d
    · obtain ⟨n, d, rfl⟩ := returned
      exact .head (d.advance n)
    · have busy : ∀ n, z.control = .program (.done n) → z.stack ≠ [] := by
        obtain ⟨d, control, K⟩ := z
        rintro n rfl rfl
        exact returned ⟨n, d, rfl⟩
      rw [step_onto busy]
      exact .call (h.step alone)
  | finished d => exact .finished d

/-- A run to `limit`, so many steps after it was begun. -/
def running (c : Core β κ σ) (limit : Int) (s : Program κ σ) (k : Nat) : Moment β κ σ :=
  Moment.step^[k] (.start c (.run limit s (.done 0)))

/-- While the run goes on no other run is begun: not by the stepper, and not by a hook that is
called meanwhile. -/
def Alone (c : Core β κ σ) (limit : Int) (s : Program κ σ) : Prop :=
  ∀ k l, ¬(running c limit s (k + 1)).Begins l

/-- Every call of the stepper returns, and brings the clock forward by one cycle at least and by
`most` at most: by what it does to the clock and by the cycles it returns together. -/
def Steady (c : Core β κ σ) (limit : Int) (s : Program κ σ) (most : Nat) : Prop :=
  ∀ k, (running c limit s k).Calls s (.done 0) →
    ∃ fuel n d, perform fuel s (running c limit s (k + 1)).core = .ok n d ∧
      (running c limit s (k + 1)).core.clock + 1 ≤ d.clock + n ∧
      d.clock + n ≤ (running c limit s (k + 1)).core.clock + most

theorem running_one : running c limit s 1 = ⟨c.aim limit, .round s (.done 0), []⟩ := rfl

theorem running_succ (k : Nat) : running c limit s (k + 1) = (running c limit s k).step :=
  Function.iterate_succ_apply' _ _ _

theorem running_add (k m : Nat) :
    running c limit s (k + m) = Moment.step^[m] (running c limit s k) := by
  rw [running, Nat.add_comm, Function.iterate_add_apply]
  rfl

namespace Alone

variable (alone : Alone c limit s)
include alone

theorem phase_running (k : Nat) : Phase s (running c limit s (k + 1)) := by
  induction k with
  | zero => exact .head _
  | succ k ih =>
    rw [running_succ]
    exact ih.step (alone k)

/-- Nobody puts another limit in place of that of the run. -/
theorem target_running (k : Nat) : (running c limit s (k + 1)).core.target = limit := by
  induction k with
  | zero => rfl
  | succ k ih => rw [running_succ, Moment.target_step (alone k), ih]

/-- The run that is at the head of a round is this one. -/
theorem head_running {k : Nat} {s' next : Program κ σ}
    (h : (running c limit s k).control = .round s' next) :
    running c limit s k = ⟨(running c limit s k).core, .round s (.done 0), []⟩ ∧
      (running c limit s k).core.target = limit := by
  cases k with
  | zero => cases h
  | succ k =>
    refine ⟨?_, alone.target_running k⟩
    have phase := alone.phase_running k
    revert h phase
    generalize running c limit s (k + 1) = x
    rintro h (d | inStep | d)
    · rfl
    · have control : Control.InStep (.round s' next) := h ▸ inStep.control
      exact absurd control id
    · cases h

end Alone

/-! ## 2. From one head of a round to the next -/

/-- What becomes of the head of a round: the stepper is called, or the run is over. -/
theorem head_cases {k : Nat} {d : Core β κ σ}
    (head : running c limit s k = ⟨d, .round s (.done 0), []⟩) (target : d.target = limit) :
    (running c limit s k).Calls s (.done 0) ∨
      (limit ≤ d.clock ∧ running c limit s (k + 1) = .ended [] 0 d) ∨
      (d.clock < limit ∧ d.lines.contains .halt = true ∧
        running c limit s (k + 1) =
          .ended [] 0 { d with clock := limit, exitRequested := false }) := by
  subst target
  rcases Int.lt_or_le d.clock d.target with early | late
  · cases halted : d.lines.contains .halt with
    | false =>
      left
      rw [head]
      exact ⟨rfl, early, halted⟩
    | true =>
      right; right
      refine ⟨early, rfl, ?_⟩
      rw [running_succ, head]
      simp only [Moment.step, round_of_halted early halted]
      rfl
  · right; left
    refine ⟨late, ?_⟩
    rw [running_succ, head]
    simp only [Moment.step, round_of_le late]
    rfl

open Moment in
/-- By induction on the steps: a program that comes to its end does so with callers waiting too,
and has them on the stack until then. -/
theorem iterate_onto {m : Nat} {z : Moment β κ σ} {n : Int} {e : Core β κ σ}
    (ends : Moment.step^[m] z = ended [] n e) (K : List (Frame κ σ)) :
    ∃ l, Moment.step^[l] (z.onto K) = ended K n e ∧
      ∀ j ≤ l, K <:+ (Moment.step^[j] (z.onto K)).stack := by
  have waiting : ∀ x : Moment β κ σ, K <:+ (x.onto K).stack := fun x => List.suffix_append _ _
  induction m generalizing z with
  | zero =>
    rw [Function.iterate_zero, id] at ends
    refine ⟨0, congrArg (·.onto K) ends, fun j hj => ?_⟩
    rw [Nat.le_zero.mp hj]
    exact waiting z
  | succ m ih =>
    by_cases returned : z = ended [] n e
    · exact ih (returned ▸ iterate_step_eq_self (over_ended n e) m)
    · have busy : ∀ n', z.control = .program (.done n') → z.stack ≠ [] := by
        intro n' control empty
        rw [iterate_step_eq_self (.inl ⟨n', control, empty⟩)] at ends
        exact returned ends
      obtain ⟨l, ended, between⟩ := ih ends
      rw [← step_onto busy] at ended between
      refine ⟨l + 1, ended, fun j hj => ?_⟩
      cases j with
      | zero => exact waiting z
      | succ j => exact between j (Nat.le_of_succ_le_succ hj)

variable {most : Nat}

/-- **The next head of a round** comes later than the clock was, and not much later; until then
the stepper waits on the stack. -/
theorem next_head (alone : Alone c limit s) (steady : Steady c limit s most) {k : Nat}
    (calls : (running c limit s k).Calls s (.done 0)) :
    ∃ l d, k < l ∧ running c limit s l = ⟨d, .round s (.done 0), []⟩ ∧
      (running c limit s k).core.clock < d.clock ∧
      d.clock ≤ (running c limit s k).core.clock + 3 + most ∧
      ∀ j, k < j → j < l → (running c limit s j).stack ≠ [] := by
  have stack : (running c limit s k).stack = [] :=
    congrArg Moment.stack (alone.head_running calls.control).1
  obtain ⟨fuel, n, e, performed, least, greatest⟩ := steady k calls
  have called : running c limit s (k + 1) =
      (Moment.start (running c limit s (k + 1)).core s).onto [.stepper s (.done 0)] := by
    have moves := calls.moves (.step (running c limit s k))
    rw [← running_succ, stack] at moves
    rw [moves]
    rfl
  have clock := clock_serviceInterrupts_le (running c limit s k).core.sampled
  have core : (running c limit s (k + 1)).core =
      (running c limit s k).core.sampled.serviceInterrupts := by
    rw [running_succ, calls.moves (.step _)]
  rw [← core] at clock
  obtain ⟨m, ends⟩ := perform_eq_ok_iff.mp ⟨fuel, performed⟩
  obtain ⟨l, returned, between⟩ := iterate_onto ends [.stepper s (.done 0)]
  rw [← called, ← running_add] at returned
  refine ⟨k + 1 + l + 1, e.advance n, by omega, ?_, ?_, ?_, ?_⟩
  · rw [running_succ, returned]
    rfl
  · show (running c limit s k).core.sampled.clock < e.clock + n
    omega
  · show e.clock + n ≤ (running c limit s k).core.sampled.clock + 3 + most
    omega
  · intro j hj hl
    obtain ⟨i, rfl⟩ := Nat.exists_eq_add_of_le hj
    have waits := between i (by omega)
    rw [← called, ← running_add] at waits
    intro empty
    rw [empty] at waits
    exact absurd waits.length_le (Nat.not_succ_le_zero 0)

/-! ## 3. The end -/

/-- **The run comes to an end**, by induction on how far the clock is from the limit. -/
theorem exists_end (alone : Alone c limit s) (steady : Steady c limit s most) {k : Nat}
    {d : Core β κ σ} (head : running c limit s k = ⟨d, .round s (.done 0), []⟩) :
    ∃ m c', running c limit s m = .ended [] 0 c' ∧
      (d.clock < limit → limit ≤ c'.clock ∧ c'.clock ≤ limit - 1 + 3 + most) ∧
      (limit ≤ d.clock → c'.clock = d.clock) := by
  induction left : (limit - d.clock).toNat using Nat.strong_induction_on generalizing k d with
  | _ left' ih =>
    obtain ⟨-, target⟩ := alone.head_running (congrArg Moment.control head)
    rw [head] at target
    rcases head_cases head target with calls | ⟨late, finished⟩ | ⟨early, -, finished⟩
    · obtain ⟨l, e, -, next, forward, bound, -⟩ := next_head alone steady calls
      have early := calls.before
      rw [head] at early forward bound
      dsimp only at early forward bound
      rw [target] at early
      obtain ⟨m, c', ended, before, after⟩ := ih _ (by omega) next rfl
      refine ⟨m, c', ended, fun _ => ?_, fun late => absurd early (Int.not_lt.mpr late)⟩
      rcases Int.lt_or_le e.clock limit with early' | late'
      · exact before early'
      · rw [after late']
        omega
    · exact ⟨k + 1, d, finished, fun early => absurd early (Int.not_lt.mpr late), fun _ => rfl⟩
    · refine ⟨k + 1, _, finished, fun _ => ⟨Int.le_refl limit, ?_⟩,
        fun late => absurd early (Int.not_lt.mpr late)⟩
      show limit ≤ limit - 1 + 3 + most
      omega

/-- When the run is over nothing is called any more. -/
theorem not_calls_of_ended {k m : Nat} {n : Int} {d : Core β κ σ}
    (ended : running c limit s m = .ended [] n d) (h : m ≤ k) :
    running c limit s k = .ended [] n d ∧ ∀ s' next, ¬(running c limit s k).Calls s' next := by
  have finished : (running c limit s m).Over := ended ▸ Moment.over_ended n d
  have same : running c limit s k = .ended [] n d :=
    (Moment.iterate_step_of_le h finished).trans ended
  refine ⟨same, fun s' next calls => ?_⟩
  have control := calls.control
  rw [same] at control
  cases control

/-! ## 4. The calls -/

/-- From one call to a later one the clock goes forward, by induction on the rounds between
them. -/
theorem clock_lt_of_calls (alone : Alone c limit s) (steady : Steady c limit s most) {k l : Nat}
    (hk : (running c limit s k).Calls s (.done 0)) (hl : (running c limit s l).Calls s (.done 0))
    (h : k < l) : (running c limit s k).core.clock < (running c limit s l).core.clock := by
  induction distance : l - k using Nat.strong_induction_on generalizing k with
  | _ distance' ih =>
    obtain ⟨m, d, hm, head, forward, -, between⟩ := next_head alone steady hk
    have here : (running c limit s m).core.clock = d.clock := by rw [head]
    rcases Nat.lt_trichotomy l m with before | rfl | after
    · exact absurd (congrArg Moment.stack (alone.head_running hl.control).1) (between l h before)
    · omega
    · obtain ⟨-, target⟩ := alone.head_running (congrArg Moment.control head)
      rw [head] at target
      rcases head_cases head target with calls | ⟨-, finished⟩ | ⟨-, -, finished⟩
      · have later := ih _ (by omega) calls after rfl
        omega
      · exact absurd hl ((not_calls_of_ended finished after).2 _ _)
      · exact absurd hl ((not_calls_of_ended finished after).2 _ _)

/-- Every call is made between the clock at which the run begins and the limit. -/
theorem clock_of_calls (alone : Alone c limit s) (steady : Steady c limit s most) {k : Nat}
    (calls : (running c limit s k).Calls s (.done 0)) :
    c.clock ≤ (running c limit s k).core.clock ∧ (running c limit s k).core.clock < limit := by
  constructor
  · have begun : running c limit s 1 = ⟨c.aim limit, .round s (.done 0), []⟩ := rfl
    rcases Nat.lt_trichotomy k 1 with before | rfl | after
    · have control := calls.control
      rw [Nat.lt_one_iff.mp before] at control
      cases control
    · exact Int.le_refl _
    · rcases head_cases begun rfl with first | ⟨-, finished⟩ | ⟨-, -, finished⟩
      · exact Int.le_of_lt (clock_lt_of_calls alone steady first calls after)
      · exact absurd calls ((not_calls_of_ended finished after).2 _ _)
      · exact absurd calls ((not_calls_of_ended finished after).2 _ _)
  · exact calls.before.trans_eq (alone.head_running calls.control).2

/-- **There are no more calls than cycles to the limit**: no two are made at the same clock. -/
theorem card_calls_le (alone : Alone c limit s) (steady : Steady c limit s most) (S : Finset Nat)
    (calls : ∀ k ∈ S, (running c limit s k).Calls s (.done 0)) :
    S.card ≤ (limit - c.clock).toNat := by
  rw [← Int.card_Ico]
  apply Finset.card_le_card_of_injOn fun k => (running c limit s k).core.clock
  · intro k hk
    exact Finset.mem_Ico.mpr (clock_of_calls alone steady (calls k hk))
  · intro k hk l hl same
    rcases Nat.lt_trichotomy k l with h | h | h
    · exact absurd same (clock_lt_of_calls alone steady (calls k hk) (calls l hl) h).ne
    · exact h
    · exact absurd same (clock_lt_of_calls alone steady (calls l hl) (calls k hk) h).ne'

/-! ## 5. Runs -/

/-- **How far beyond its limit a run goes.**  No other run is begun while it goes on, and every
call of its stepper returns and brings the clock forward by one cycle at least and by `most` at
most.  Then the run returns, after no more calls than there were cycles to the limit, and with
the clock at the limit or beyond it by no more than the last call with the interrupt before it
may take; where the limit is reached from the start, without a call and with the clock as it
was.  A run that finds the core halted at the head of a round ends with the clock at the limit
and calls its stepper no more. -/
theorem run_overshoots (alone : Alone c limit s) (steady : Steady c limit s most) :
    ∃ fuel c', run fuel limit s c = .ok () c' ∧
      (∀ S : Finset Nat, (∀ k ∈ S, (running c limit s k).Calls s (.done 0)) →
        S.card ≤ (limit - c.clock).toNat) ∧
      (c.clock < limit → limit ≤ c'.clock ∧ c'.clock ≤ limit - 1 + 3 + most) ∧
      (limit ≤ c.clock →
        c'.clock = c.clock ∧ ∀ k, ¬(running c limit s k).Calls s (.done 0)) ∧
      ∀ k, (running c limit s k).control = .round s (.done 0) →
        (running c limit s k).core.clock < limit →
        (running c limit s k).core.lines.contains .halt = true →
        c'.clock = limit ∧ ∀ j ≥ k, ¬(running c limit s j).Calls s (.done 0) := by
  obtain ⟨m, c', ended, before, after⟩ := exists_end alone steady (running_one (c := c))
  obtain ⟨fuel, ran⟩ := run_eq_ok_iff.mpr ⟨m, ended⟩
  have count := card_calls_le alone steady
  refine ⟨fuel, c', ran, count, before, fun late => ⟨after late, fun k calls => ?_⟩, ?_⟩
  · have one := count {k} fun j hj => Finset.mem_singleton.mp hj ▸ calls
    rw [Finset.card_singleton] at one
    omega
  · intro k control early halted
    obtain ⟨head, target⟩ := alone.head_running control
    have asleep : ¬(running c limit s k).Calls s (.done 0) := fun calls => by
      rw [calls.awake] at halted
      cases halted
    rcases head_cases head target with calls | ⟨late, -⟩ | ⟨-, -, finished⟩
    · exact absurd calls asleep
    · exact absurd early (Int.not_lt.mpr late)
    refine ⟨?_, fun j hj => ?_⟩
    · have last := (not_calls_of_ended ended (Nat.le_max_left m (k + 1))).1.symm.trans
        (not_calls_of_ended finished (Nat.le_max_right m (k + 1))).1
      exact congrArg (·.core.clock) last
    · rcases Nat.eq_or_lt_of_le hj with rfl | later
      · exact asleep
      · exact (not_calls_of_ended finished later).2 _ _

/-- Asserts the line for interrupts and takes two cycles. -/
def asserting : Program SystemControl Unit := .ask (.setLine .irq true) fun _ => .done 2

/-- The second call comes after an interrupt that is taken one cycle before the limit. -/
theorem run_overshoots_after_interrupt :
    ∃ fuel c', run fuel 3 asserting (.new .v5 ⟨#[0], 0⟩ () : Core Ram SystemControl Unit) =
      .ok () c' ∧ 3 ≤ c'.clock ∧ c'.clock ≤ 3 - 1 + 3 + 2 := by
  let c : Core Ram SystemControl Unit := .new .v5 ⟨#[0], 0⟩ ()
  have blind : asserting.Blind := ⟨nofun, fun _ => True.intro⟩
  have unwatched : c.Unwatched 3 asserting :=
    unwatched_of_blind 3 blind (hooksBlind_new .v5 _ ())
  have alone : c.Alone 3 asserting := fun k => Moment.not_begins_of_not_watches (unwatched k)
  have steady : c.Steady 3 asserting 2 := by
    intro k _
    refine ⟨0, 2, _, rfl, ?_, Int.le_refl _⟩
    show _ ≤ (running c 3 asserting (k + 1)).core.clock + 2
    omega
  obtain ⟨fuel, c', ran, -, within, -, -⟩ := run_overshoots alone steady
  exact ⟨fuel, c', ran, within (by decide)⟩

-- That is as far as it goes: no smaller bound would do.
example :
    (match run 3 3 asserting (.new .v5 (⟨#[0], 0⟩ : Ram) ()) with
      | .ok _ c => c.clock
      | .error _ c => c.clock) = (3 - 1 + 3 + 2 : Int) := by decide +kernel

/-! ## 6. A hook that begins a run -/

/-- A new core whose hook for the software interrupt 0 runs to 0. -/
def sentBack : Core Ram SystemControl Unit := hooked (.run 0 (.done 1) (.done 0))

/-- The stepper is called once, and takes four cycles. -/
theorem steady_sentBack : sentBack.Steady 10 interrupting 4 := by
  intro k calls
  obtain ⟨e, finished⟩ : ∃ e, running sentBack 10 interrupting 8 = .ended [] 0 e := ⟨_, rfl⟩
  rcases Nat.lt_or_ge k 8 with early | late
  · -- the second head of a round is past the limit that the hook has left behind
    match k, early, calls with
    | 1, _, _ => exact ⟨4, 1, _, rfl, by decide +kernel, by decide +kernel⟩
    | 7, _, calls => exact absurd calls.before (by decide +kernel)
    | 0, _, calls | 2, _, calls | 3, _, calls | 4, _, calls | 5, _, calls | 6, _, calls =>
      exact absurd calls.control nofun
  · exact absurd calls ((not_calls_of_ended finished late).2 _ _)

/-- **A hook that runs to 0 sends the core back**, however far the stepper was to go.  The stepper
itself begins no run and brings the clock forward, and yet its run ends short of the limit. -/
theorem run_sent_back_by_hook :
    ∃ c c' : Core Ram SystemControl Unit,
      Reachable (.start c (.run 10 interrupting (.done 0))) ∧ interrupting.Blind ∧
      c.Steady 10 interrupting 4 ∧ c.clock = 0 ∧
      run 4 10 interrupting c = .ok () c' ∧ c'.clock = 4 := by
  obtain ⟨c', ran, clock⟩ := exists_ok (P := fun c => c.clock = 4)
    (r := run 4 10 interrupting sentBack) (by decide +kernel)
  exact ⟨sentBack, c', reachable_hooked _ _, True.intro, steady_sentBack, rfl, ran, clock⟩

end Core
end Handheld
