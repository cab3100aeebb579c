/-
# Halts and what ends them

Asserting an interrupt line ends a halt, enabled or not.  That is a matter of the call that
asserts it: a halt that is asserted afterwards stands, and a run that finds it lets the time
pass without a look at the interrupts.  So it is the order of the calls that decides what
becomes of an interrupt that is due when a run is entered.

* `halted_iff_haltedSince`: the halt line is asserted exactly if the last call that matters to it
  did that;
* `served_unless_halted`: an interrupt that is due is taken before anything else, unless a halt
  was asserted since the last interrupt line was.
-/
import Handheld.Memory.Ram
import Handheld.Proofs.Core.Dispatch
import Handheld.Proofs.Core.Parts

namespace Handheld

/-! ## 1. Single lines -/

namespace Lines

/-- Line number `i` alone. -/
def single (i : Fin 8) : Lines := ⟨1#8 <<< i.val⟩

theorem contains_single (s : Lines) (i : Fin 8) : s.contains (single i) = s.bits.getLsbD i := by
  have bit : ∀ j < 8, (1#8 <<< i.val).getLsbD j = decide (j = i) := by
    revert i
    decide
  rw [Bool.eq_iff_iff, contains, beq_iff_eq, single]
  constructor
  · intro h
    have hi := congrArg (·.getLsbD i) h
    simpa [bit i i.isLt] using hi
  · intro h
    apply BitVec.eq_of_getLsbD_eq
    intro j hj
    rw [BitVec.getLsbD_and, bit j hj]
    by_cases hji : j = i
    · simp [hji, h]
    · simp [hji]

theorem contains_single_insert (s t : Lines) (i : Fin 8) :
    (s.insert t).contains (single i) = (s.contains (single i) || t.contains (single i)) := by
  simp only [contains_single, insert, union, BitVec.getLsbD_or]

theorem contains_single_remove (s t : Lines) (i : Fin 8) :
    (s.remove t).contains (single i) = (s.contains (single i) && !t.contains (single i)) := by
  simp only [contains_single, remove, BitVec.getLsbD_and, BitVec.getLsbD_not, i.isLt, decide_true,
    Bool.true_and]

end Lines

namespace Core

variable {β κ σ : Type}

/-- The halt line is asserted. -/
def Halted (c : Core β κ σ) : Prop := c.lines.contains .halt = true

/-- A call that asserts `l` halts the core if it names no interrupt line, and ends a halt if it
names one. -/
theorem halted_assert (c : Core β κ σ) (l : Lines) :
    (c.setLine l true).Halted ↔
      l.intersects .interrupts = false ∧ (l.contains .halt = true ∨ c.Halted) := by
  have single : Lines.halt = .single 2 := rfl
  have itself : (Lines.single 2).contains (.single 2) = true := rfl
  simp only [Halted, setLine, if_true, single]
  cases l.intersects .interrupts with
  | true => simp [Lines.contains_single_remove _ (.single 2), itself]
  | false => simp [Lines.contains_single_insert, or_comm]

theorem halted_release (c : Core β κ σ) (l : Lines) :
    (c.setLine l false).Halted ↔ c.Halted ∧ l.contains .halt = false := by
  have single : Lines.halt = .single 2 := rfl
  simp only [Halted, setLine, single, Bool.false_eq_true, if_false, Lines.contains_single_remove,
    Bool.and_eq_true, Bool.not_eq_true']

theorem not_halted_new [Bus β] (revision : Revision) (bus : β) (surroundings : σ) :
    ¬(new revision bus surroundings : Core β κ σ).Halted := by
  show ¬Lines.none.contains .halt = true
  decide

/-- Of the interrupts that are due the fast one is taken. -/
theorem exists_serviceInterrupts_eq {c : Core β κ σ} (due : c.FiqDue ∨ c.IrqDue) :
    ∃ e, c.serviceInterrupts = c.enter e ∧ (c.FiqDue → e = .fiq) ∧ (¬c.FiqDue → e = .irq) := by
  rw [serviceInterrupts_eq]
  by_cases hf : c.FiqDue
  · exact ⟨.fiq, by rw [due_of_fiqDue hf]; rfl, fun _ => rfl, fun h => absurd hf h⟩
  · have hi := due.resolve_left hf
    exact ⟨.irq, by rw [due_of_irqDue hf hi]; rfl, fun h => absurd h hf, fun _ => rfl⟩

/-! ## 2. The calls that matter to the halt line -/

namespace Moment

/-- The next thing is to assert the lines `l`, or to release them. -/
def Sets (x : Moment β κ σ) (l : Lines) (asserted : Bool) : Prop :=
  ∃ next, x.control = .program (.ask (.setLine l asserted) next)

/-- The next thing is to halt the core. -/
def Halts (x : Moment β κ σ) : Prop :=
  ∃ l, x.Sets l true ∧ l.intersects .interrupts = false ∧ l.contains .halt = true

/-- The next thing ends a halt: an interrupt line is asserted, or the halt line released. -/
def Wakes (x : Moment β κ σ) : Prop :=
  (∃ l, x.Sets l true ∧ l.intersects .interrupts = true) ∨
    ∃ l, x.Sets l false ∧ l.contains .halt = true

/-- Only one call is made at a time. -/
theorem Sets.unique {x : Moment β κ σ} {l l' : Lines} {b b' : Bool} (h : x.Sets l b)
    (h' : x.Sets l' b') : l = l' ∧ b = b' := by
  obtain ⟨next, h⟩ := h
  obtain ⟨next', h'⟩ := h'
  rw [h] at h'
  cases h'
  exact ⟨rfl, rfl⟩

theorem Sets.sets_iff {x : Moment β κ σ} {l l' : Lines} {b b' : Bool} (h : x.Sets l b) :
    x.Sets l' b' ↔ l = l' ∧ b = b' := by
  refine ⟨h.unique, ?_⟩
  rintro ⟨rfl, rfl⟩
  exact h

/-- Nothing else touches the lines. -/
theorem sets_of_touches {x : Moment β κ σ} (h : .lines ∈ x.control.parts) : ∃ l b, x.Sets l b := by
  obtain ⟨c, control, K⟩ := x
  cases control with
  | stopped e => cases h
  | round s next => exact absurd h (of_decide_eq_false rfl)
  | program p =>
    cases p with
    | ask r next =>
      cases r with
      | setLine l b => exact ⟨l, b, next, rfl⟩
      | _ => exact absurd h (of_decide_eq_false rfl)
    | _ => exact absurd h (of_decide_eq_false rfl)

end Moment

variable [Bus β] [Coprocessor κ] {x y : Moment β κ σ}

theorem Moves.setLine {l : Lines} {b : Bool} (h : Moves x y) (hx : x.Sets l b) :
    y.core = x.core.setLine l b := by
  obtain ⟨c, control, K⟩ := x
  obtain ⟨next, hx⟩ := hx
  simp only at hx
  subst hx
  cases h
  rfl

theorem Moves.lines_eq (h : Moves x y) (untouched : ¬∃ l b, x.Sets l b) :
    y.core.lines = x.core.lines :=
  h.keeps .lines fun touched => untouched (Moment.sets_of_touches touched)

/-- What a move does to the halt line. -/
theorem Moves.halted_iff (h : Moves x y) :
    y.core.Halted ↔ x.Halts ∨ x.core.Halted ∧ ¬x.Wakes := by
  by_cases touched : ∃ l b, x.Sets l b
  · obtain ⟨l, b, hx⟩ := touched
    rw [h.setLine hx]
    cases b with
    | true =>
      simp only [halted_assert, Moment.Halts, Moment.Wakes, hx.sets_iff]
      cases hi : l.intersects .interrupts <;> simp [hi]
    | false =>
      simp only [halted_release, Moment.Halts, Moment.Wakes, hx.sets_iff]
      simp
  · have never : ¬x.Halts ∧ ¬x.Wakes := by
      constructor
      · rintro ⟨l, hl, -⟩
        exact touched ⟨l, true, hl⟩
      · rintro (⟨l, hl, -⟩ | ⟨l, hl, -⟩)
        · exact touched ⟨l, true, hl⟩
        · exact touched ⟨l, false, hl⟩
    simp only [Halted, h.lines_eq touched, never, false_or, not_false_eq_true, and_true]

/-! ## 3. Histories -/

/-- Before moment `i` the core was halted, and nothing has ended the halt since. -/
def HaltedSince (path : Nat → Moment β κ σ) (i : Nat) : Prop :=
  ∃ k < i, (path k).Halts ∧ ∀ l, k < l → l < i → ¬(path l).Wakes

variable {path : Nat → Moment β κ σ}

/-- **The halt line follows the calls.** -/
theorem halted_iff_haltedSince (hp : Path path) (h0 : ¬(path 0).core.Halted) (i : Nat) :
    (path i).core.Halted ↔ HaltedSince path i :=
  iff_since (·.core.Halted) h0 (fun i => (hp i).halted_iff) i

/-! ## 4. Entering a run -/

variable {s next : Program κ σ} {limit : Int}

theorem Moves.entered (hx : x.control = .program (.run limit s next)) (h : Moves x y) :
    y = ⟨{ x.core with target := limit }, .round s next, x.stack⟩ := by
  obtain ⟨c, control, K⟩ := x
  simp only at hx
  subst hx
  cases h
  rfl

/-- A run that finds the core halted is over when its time has passed. -/
theorem Moves.slept (hx : x.control = .round s next) (before : x.core.clock < x.core.target)
    (halted : x.core.Halted) (h : Moves x y) :
    y = ⟨{ x.core with clock := x.core.target, exitRequested := false }, .program next,
      x.stack⟩ := by
  obtain ⟨c, control, K⟩ := x
  simp only at hx before halted
  subst hx
  cases h
  simp only [Moment.step, round_of_halted before halted]

/-- **An interrupt that is due when a run is entered is taken before anything else**, the fast one
first, and the clock goes on by no more than that takes -- unless the core was halted since an
interrupt line was last asserted.  Then the run is over at once, with the clock at its limit and
nothing taken. -/
theorem served_unless_halted {revision : Revision} {bus : β} {surroundings : σ}
    {p : Program κ σ} (hp : Path path) (h0 : path 0 = .start (.new revision bus surroundings) p)
    {i : Nat} (hi : (path i).control = .program (.run limit s next))
    (before : (path i).core.clock < limit) (due : (path i).core.FiqDue ∨ (path i).core.IrqDue) :
    (¬HaltedSince path i → ∃ e,
      path (i + 2) = ⟨({ (path i).core with target := limit }).sampled.enter e, .program s,
        .stepper s next :: (path i).stack⟩ ∧
      (path (i + 2)).core.clock = (path i).core.clock + entryCycles ∧
      ((path i).core.FiqDue → e = .fiq) ∧ (¬(path i).core.FiqDue → e = .irq)) ∧
    (HaltedSince path i →
      path (i + 2) =
        ⟨{ (path i).core with target := limit, clock := limit, exitRequested := false },
          .program next, (path i).stack⟩) := by
  have awake : ¬(path 0).core.Halted := by
    rw [h0]
    exact not_halted_new _ _ _
  rw [← halted_iff_haltedSince hp awake]
  have entered := (hp i).entered hi
  have second := hp (i + 1)
  rw [entered] at second
  constructor
  · intro halted
    obtain ⟨e, taken, fiq, irq⟩ :=
      exists_serviceInterrupts_eq (c := ({ (path i).core with target := limit }).sampled) due
    have calls : Moment.Calls ⟨{ (path i).core with target := limit }, .round s next,
        (path i).stack⟩ s next := ⟨rfl, before, Bool.eq_false_iff.mpr halted⟩
    have called := calls.moves second
    rw [taken] at called
    refine ⟨e, called, ?_, fiq, irq⟩
    rw [called, enter_eq]
    rfl
  · intro halted
    exact Moves.slept (x := ⟨{ (path i).core with target := limit }, .round s next,
      (path i).stack⟩) rfl before halted second

/-- Halted after the ordinary interrupt was asserted, and woken by the fast one. -/
theorem served_unless_halted_after_fiq :
    ∃ (path : Nat → Moment Ram SystemControl Unit) (s next : Program SystemControl Unit),
      Path path ∧ (path 3).control = .program (.run 10 s next) ∧ (path 3).core.IrqDue ∧
      path 5 = ⟨({ (path 3).core with target := 10 }).sampled.enter .fiq, .program s,
        .stepper s next :: (path 3).stack⟩ := by
  let s : Program SystemControl Unit := .done 1
  let path : Nat → Moment Ram SystemControl Unit := fun i => Moment.step^[i]
    (.start (.new .v5 ⟨#[0], 0⟩ ()) <| .ask (.setLine .irq true) fun _ =>
      .ask (.setLine .halt true) fun _ => .ask (.setLine .fiq true) fun _ => .run 10 s (.done 0))
  have moves : Path path := fun i => by
    simp only [path, Function.iterate_succ_apply']
    exact .step _
  have fiq : (path 3).core.FiqDue := ⟨by decide, by decide⟩
  have woken : ¬HaltedSince path 3 := by
    rw [← halted_iff_haltedSince moves (not_halted_new _ _ _)]
    show ¬Lines.contains _ .halt = true
    decide
  obtain ⟨e, taken, -, first, -⟩ :=
    (served_unless_halted moves rfl (i := 3) rfl (by decide) (.inl fiq)).1 woken
  rw [first fiq] at taken
  exact ⟨path, s, .done 0, moves, rfl, ⟨by decide, by decide⟩, taken⟩

/-- Halted after the ordinary interrupt was asserted, a run is over without having taken it. -/
theorem irq_not_served_when_halted :
    ∃ x : Moment Ram SystemControl Unit, Reachable x ∧
      x.control = .program (.run 10 (.done 1) (.done 0)) ∧ x.core.clock < 10 ∧ x.core.IrqDue ∧
      x.step.step.control = .program (.done 0) ∧ x.step.step.core.clock = 10 ∧
      x.step.step.core.status = x.core.status ∧ x.step.step.core.pc = x.core.pc := by
  let x : Moment Ram SystemControl Unit := Moment.step^[2]
    (.start (.new .v5 ⟨#[0], 0⟩ ()) <| .ask (.setLine .irq true) fun _ =>
      .ask (.setLine .halt true) fun _ => .run 10 (.done 1) (.done 0))
  have reached : Reachable x := (Reachable.new _ _ _ _).iterate 2
  exact ⟨x, reached, rfl, by decide, ⟨by decide, by decide⟩, rfl, rfl, rfl, rfl⟩

end Core
end Handheld
