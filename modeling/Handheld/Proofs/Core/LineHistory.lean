/-
# The lines follow the calls

Three things come of a call that asserts or releases lines: the lines themselves, the halt line
among them with a rule of its own, and the request to leave the running program, which only a
line that was not set can make.  Each of them can be told from the calls that were made.

* `Moves.contains_eq`, `Moves.exitRequested_iff`: what one move does to a line and to the request;
* `lines_follow_calls`: what the calls come to.
-/
import Handheld.Memory.Ram
import Handheld.Proofs.Core.Wake

namespace Handheld

/-! ## 1. Sets of lines -/

/-- A set of lines is contained line by line. -/
theorem Lines.contains_iff (s t : Lines) :
    s.contains t = true ↔ ∀ n, t.contains (.single n) = true → s.contains (.single n) = true := by
  simp only [contains_single]
  rw [contains, beq_iff_eq]
  constructor
  · intro h n hn
    have bit := congrArg (·.getLsbD n) h
    simp only [BitVec.getLsbD_and, hn, Bool.and_true] at bit
    exact bit
  · intro h
    apply BitVec.eq_of_getLsbD_eq
    intro j hj
    rw [BitVec.getLsbD_and]
    cases ht : t.bits.getLsbD j with
    | false => exact Bool.and_false _
    | true => rw [h ⟨j, hj⟩ ht, Bool.and_true]

/-- Taking the halt line away leaves the others. -/
theorem Lines.contains_single_remove_halt (s : Lines) {n : Fin 8} (other : .single n ≠ Lines.halt) :
    (s.remove .halt).contains (.single n) = s.contains (.single n) := by
  have apart : Lines.halt.contains (.single n) = false := by
    revert n
    decide
  rw [contains_single_remove, apart, Bool.not_false, Bool.and_true]

namespace Core

variable {β κ σ : Type}

/-- What a call leaves of a line other than the halt line. -/
theorem contains_setLine (c : Core β κ σ) (l : Lines) (b : Bool) {n : Fin 8}
    (other : .single n ≠ Lines.halt) :
    (c.setLine l b).lines.contains (.single n) =
      if l.contains (.single n) then b else c.lines.contains (.single n) := by
  cases b with
  | false =>
    simp only [setLine, Bool.false_eq_true, if_false, Lines.contains_single_remove]
    cases l.contains (.single n) <;> simp
  | true =>
    have inserted : (c.setLine l true).lines.contains (.single n) =
        (c.lines.insert l).contains (.single n) := by
      simp only [setLine, if_true]
      split
      · exact Lines.contains_single_remove_halt _ other
      · rfl
    rw [inserted, Lines.contains_single_insert]
    cases l.contains (.single n) <;> simp

theorem exitRequested_setLine (c : Core β κ σ) (l : Lines) (b : Bool) :
    (c.setLine l b).exitRequested = (c.exitRequested || b && !c.lines.contains l) := by
  cases b <;> simp [setLine]

/-- A run that goes on looks at the lines, and needs no request any more. -/
theorem exitRequested_round {c : Core β κ σ} (early : c.clock < c.target) :
    c.round.core.exitRequested = false := by
  by_cases halted : c.lines.contains .halt = true
  · rw [round_of_halted early halted, Round.core]
  · rw [round_of_awake early halted, Round.core, serviceInterrupts_eq, due]
    cases pendingInterrupt? _ with
    | none => rfl
    | some e =>
      show (enter _ e).exitRequested = false
      rw [enter_eq]

/-! ## 2. What a move does to the lines -/

namespace Moment

/-- What the next call makes of line `n`, if it names it. -/
def sets? (x : Moment β κ σ) (n : Fin 8) : Option Bool :=
  match x.control with
  | .program (.ask (.setLine l asserted) _) =>
    if l.contains (.single n) then some asserted else none
  | _ => none

/-- The next thing is to assert a line that is not set. -/
def Rouses (x : Moment β κ σ) : Prop :=
  ∃ l, x.Sets l true ∧
    ∃ n, l.contains (.single n) = true ∧ x.core.lines.contains (.single n) = false

/-- The next thing takes the request to leave: a program does, or a run that goes on looks at
the lines itself. -/
def Takes (x : Moment β κ σ) : Prop :=
  (∃ next, x.control = .program (.ask .takeExitRequest next)) ∨
    (∃ s next, x.control = .round s next) ∧ x.core.clock < x.core.target

theorem Sets.sets?_eq {x : Moment β κ σ} {l : Lines} {b : Bool} (h : x.Sets l b) (n : Fin 8) :
    x.sets? n = if l.contains (.single n) then some b else none := by
  obtain ⟨next, h⟩ := h
  rw [sets?, h]

theorem sets?_eq_none {x : Moment β κ σ} (h : ¬∃ l b, x.Sets l b) (n : Fin 8) :
    x.sets? n = none := by
  rw [sets?]
  split
  · rename_i l b next called
    exact absurd ⟨l, b, next, called⟩ h
  · rfl

/-- A call on the lines takes no request. -/
theorem Sets.not_takes {x : Moment β κ σ} {l : Lines} {b : Bool} (h : x.Sets l b) :
    ¬x.Takes := by
  obtain ⟨next, h⟩ := h
  rintro (⟨next', h'⟩ | ⟨⟨s, next', h'⟩, -⟩)
  · cases h.symm.trans h'
  · cases h.symm.trans h'

/-- Nothing else touches the request, except that a run whose time is over leaves it alone. -/
theorem late_of_touches {x : Moment β κ σ} (h : .exitRequested ∈ x.control.parts)
    (untouched : ¬∃ l b, x.Sets l b) (untaken : ¬x.Takes) :
    ∃ s next, x.control = .round s next ∧ x.core.target ≤ x.core.clock := by
  obtain ⟨c, control, K⟩ := x
  cases control with
  | stopped e => cases h
  | round s next =>
    refine ⟨s, next, rfl, Int.not_lt.mp fun early => untaken (.inr ⟨⟨s, next, rfl⟩, early⟩)⟩
  | program p =>
    cases p with
    | ask r next =>
      cases r with
      | setLine l b => exact absurd ⟨l, b, next, rfl⟩ untouched
      | takeExitRequest => exact absurd (.inl ⟨next, rfl⟩) untaken
      | _ => exact absurd h (of_decide_eq_false rfl)
    | _ => exact absurd h (of_decide_eq_false rfl)

theorem rouses_iff {x : Moment β κ σ} {l : Lines} {b : Bool} (h : x.Sets l b) :
    x.Rouses ↔ b = true ∧ x.core.lines.contains l = false := by
  rw [Rouses]
  simp only [h.sets_iff, ← Bool.not_eq_true, Lines.contains_iff x.core.lines l]
  constructor
  · rintro ⟨_, ⟨rfl, rfl⟩, n, named, unset⟩
    exact ⟨rfl, fun all => unset (all n named)⟩
  · rintro ⟨rfl, unset⟩
    obtain ⟨n, named⟩ := Classical.not_forall.mp unset
    exact ⟨l, ⟨rfl, rfl⟩, n, Classical.not_imp.mp named⟩

end Moment

variable [Bus β] [Coprocessor κ] {x y : Moment β κ σ}

/-- What a move does to a line other than the halt line. -/
theorem Moves.contains_eq (h : Moves x y) {n : Fin 8} (other : .single n ≠ Lines.halt) :
    y.core.lines.contains (.single n) = (x.sets? n).getD (x.core.lines.contains (.single n)) := by
  by_cases touched : ∃ l b, x.Sets l b
  · obtain ⟨l, b, hx⟩ := touched
    rw [h.setLine hx, contains_setLine _ l b other, hx.sets?_eq]
    split <;> rfl
  · rw [h.lines_eq touched, Moment.sets?_eq_none touched, Option.getD_none]

theorem Moves.taken {next : Bool → Program κ σ} (h : Moves x y)
    (hx : x.control = .program (.ask .takeExitRequest next)) :
    y = ⟨{ x.core with exitRequested := false }, .program (next x.core.exitRequested),
      x.stack⟩ := by
  obtain ⟨c, control, K⟩ := x
  simp only at hx
  subst hx
  cases h
  rfl

/-- What a move does to the request to leave. -/
theorem Moves.exitRequested_iff (h : Moves x y) :
    y.core.exitRequested = true ↔ x.Rouses ∨ x.core.exitRequested = true ∧ ¬x.Takes := by
  -- a request is made by a call on the lines, and by nothing else
  by_cases touched : ∃ l b, x.Sets l b
  · obtain ⟨l, b, hx⟩ := touched
    rw [h.setLine hx, exitRequested_setLine, Moment.rouses_iff hx]
    simp [hx.not_takes, or_comm]
  have quiet : ¬x.Rouses := fun ⟨l, hl, _⟩ => touched ⟨l, true, hl⟩
  by_cases takes : x.Takes
  · have taken : y.core.exitRequested = false := by
      rcases takes with ⟨next, hx⟩ | ⟨⟨s, next, hx⟩, early⟩
      · rw [h.taken hx]
      · rw [h.core_round hx, exitRequested_round early]
    simp [taken, quiet, takes]
  · have same : y.core.exitRequested = x.core.exitRequested := by
      by_cases listed : .exitRequested ∈ x.control.parts
      · obtain ⟨s, next, hx, late⟩ := Moment.late_of_touches listed touched takes
        rw [h.core_round hx, round_of_le late, Round.core]
      · exact h.keeps .exitRequested listed
    simp [same, quiet, takes]

/-! ## 3. Histories -/

variable {path : Nat → Moment β κ σ} {revision : Revision} {bus : β} {surroundings : σ}
  {p : Program κ σ}

/-- A line other than the halt line is what the last call that named it made of it. -/
theorem contains_eq_lastGiven (hp : Path path)
    (h0 : path 0 = .start (.new revision bus surroundings) p) {n : Fin 8}
    (other : .single n ≠ Lines.halt) (i : Nat) :
    (path i).core.lines.contains (.single n) =
      (lastGiven (·.sets? n) path i).getD false := by
  have unset : (path 0).core.lines.contains (.single n) = false := by
    rw [h0]
    show Lines.none.contains (.single n) = false
    revert n
    decide
  rw [← unset]
  exact eq_lastGiven (·.sets? n) (·.core.lines.contains (.single n))
    (fun k => (hp k).contains_eq other) i

/-- **The state of the lines is what the calls made of it.**  A line other than the halt line is
set exactly if the last call that named it was an assertion.  The halt line is set exactly if
a call asserted it without an interrupt line, and since then no call released it or asserted an
interrupt line.  And whoever takes the request to leave is told that there is one exactly if,
since it was taken before, a call asserted a line that was not set at that moment. -/
theorem lines_follow_calls (hp : Path path)
    (h0 : path 0 = .start (.new revision bus surroundings) p) (i : Nat) :
    (∀ n, .single n ≠ Lines.halt →
      ((path i).core.lines.contains (.single n) = true ↔
        lastGiven (·.sets? n) path i = some true)) ∧
    ((path i).core.lines.contains .halt = true ↔ Since Moment.Halts Moment.Wakes path i) ∧
    ∀ next, (path i).control = .program (.ask .takeExitRequest next) →
      ∃ asked, path (i + 1) =
          ⟨{ (path i).core with exitRequested := false }, .program (next asked), (path i).stack⟩ ∧
        (asked = true ↔ Since Moment.Rouses Moment.Takes path i) := by
  refine ⟨?_, ?_, ?_⟩
  · intro n other
    rw [contains_eq_lastGiven hp h0 other]
    cases lastGiven (·.sets? n) path i <;> simp
  · have awake : ¬(path 0).core.Halted := by
      rw [h0]
      exact not_halted_new _ _ _
    exact iff_since (·.core.Halted) awake (fun k => (hp k).halted_iff) i
  · intro next hi
    have calm : ¬(path 0).core.exitRequested = true := by
      rw [h0]
      exact Bool.false_ne_true
    have asked := iff_since (·.core.exitRequested = true) calm
      (fun k => (hp k).exitRequested_iff) i
    exact ⟨_, (hp i).taken hi, asked⟩

/-- Two unnamed lines are asserted together with an interrupt, which ends a halt, and one of them
is released; the request to leave is there all the same. -/
theorem lines_follow_calls_after_release :
    ∃ (path : Nat → Moment Ram SystemControl Unit) (next : Bool → Program SystemControl Unit),
      Path path ∧ (path 3).control = .program (.ask .takeExitRequest next) ∧
      (path 1).core.Halted ∧ ¬(path 3).core.Halted ∧
      (path 3).core.lines.contains (.single 7) = true ∧
      ¬(path 3).core.lines.contains (.single 5) = true ∧
      (path 4).control = .program (next true) := by
  let next : Bool → Program SystemControl Unit := fun asked => .done (if asked then 1 else 0)
  let path : Nat → Moment Ram SystemControl Unit := fun i => Moment.step^[i]
    (.start (.new .v5 ⟨#[0], 0⟩ ()) <| .ask (.setLine .halt true) fun _ =>
      .ask (.setLine ⟨0b10100010⟩ true) fun _ => .ask (.setLine ⟨0b00100000⟩ false) fun _ =>
        .ask .takeExitRequest next)
  have moves : Path path := path_iterate _
  obtain ⟨lines, halt, take⟩ := lines_follow_calls moves rfl 3
  have roused : Since Moment.Rouses Moment.Takes path 3 := by
    refine ⟨1, by decide, ⟨_, ⟨_, rfl⟩, 7, by decide, by decide⟩, ?_⟩
    intro k hk hk3
    obtain rfl : k = 2 := by omega
    exact Moment.Sets.not_takes ⟨_, rfl⟩
  have woken : ¬Since Moment.Halts Moment.Wakes path 3 := by
    rintro ⟨k, hk, ⟨l, ⟨next, halts⟩, apart, -⟩, since⟩
    match k, hk with
    | 0, _ => exact since 1 (by decide) (by decide) (.inl ⟨_, ⟨_, rfl⟩, by decide⟩)
    | 1, _ =>
      cases halts
      exact absurd apart (by decide)
    | 2, _ => cases halts
  obtain ⟨asked, told, iff⟩ := take next rfl
  rw [iff.mpr roused] at told
  refine ⟨path, next, moves, rfl, by unfold Halted; decide, halt.not.mpr woken,
    (lines 7 (by decide)).mpr (by decide), (lines 5 (by decide)).not.mpr (by decide), ?_⟩
  rw [told]

end Core
end Handheld
