/-
# The saved status words

Each mode that an exception enters keeps one status word for itself.  It is put there when a
handler is entered, or written by a program that is in that mode.  User and System keep none;
a program that writes one in these modes is stopped, unless a debugger lets it pass -- and then
what it writes goes to the mode for fast interrupts.

* `Moves.bankedStatus_eq`: what one move does to a saved status word;
* `saved_status_last_put`: what a mode keeps is what was put there last.
-/
import Handheld.Memory.Ram
import Handheld.Proofs.Core.Parts
import Handheld.Proofs.Core.Runs

namespace Handheld
namespace Core

variable {β κ σ : Type}

/-! ## 1. What is put where -/

namespace Moment

section Puts

variable [Bus β]

/-- The exception whose handler is entered next. -/
def enters? (x : Moment β κ σ) : Option Exception :=
  match x.control with
  | .program (.raise e _) => if (x.core.intercept e).2.isNone then some e else none
  | .program (.ask .reset _) => some .reset
  | .round _ _ =>
    if x.core.clock < x.core.target ∧ ¬x.core.lines.contains .halt then x.core.pendingInterrupt?
    else none
  | _ => none

/-- What is written next to the saved status word of the current mode. -/
def writes? (x : Moment β κ σ) : Option Status :=
  match x.control with
  | .program (.ask (.setSavedStatus s) _) => some s
  | _ => none

/-- What the next thing puts into the saved status word of `m`: the status word from before a
handler of `m` is entered, or what is written in mode `m`. -/
def puts? (x : Moment β κ σ) (m : Mode) : Option Status :=
  match x.enters? with
  | some e => if e.target = m then some x.core.status else none
  | none => if x.core.status.mode = m then x.writes? else none

/-- What is written next in a mode that keeps no status word, if a debugger lets it pass. -/
def strays? (x : Moment β κ σ) : Option Status :=
  if x.core.status.mode.savedSlot?.isNone ∧ x.core.debugger.isSome then x.writes? else none

/-- The same with the strays, which go to the mode for fast interrupts. -/
def stores? (x : Moment β κ σ) (m : Mode) : Option Status :=
  (x.puts? m).or (if m = .fiq then x.strays? else none)

end Puts
end Moment

/-! ## 2. What a move does to a saved status word -/

theorem bankedStatus_new [Bus β] (revision : Revision) (bus : β) (surroundings : σ) {m : Mode}
    (hm : m.savedSlot?.isSome) :
    (new revision bus surroundings : Core β κ σ).bankedStatus m = some .zeroed := by
  obtain ⟨i, hi⟩ := Option.isSome_iff_exists.mp hm
  rw [bankedStatus, hi, Option.map_some, savedAt, new, Fin.getElem_fin, Vector.getElem_replicate]

/-- What a mode reads back after `s` was put into the slot of `n`. -/
theorem bankedStatus_setSavedAt (c : Core β κ σ) {n : Mode} {i : Fin 5}
    (hn : n.savedSlot? = some i) (m : Mode) (s : Status) :
    (c.setSavedAt i s).bankedStatus m = if n = m then some s else c.bankedStatus m := by
  have put := bankedStatus_saveStatus c n m s
  simpa only [saveStatus, hn, Option.isSome_some, and_true, eq_comm] using put

/-- Entering a handler in a core whose status word and saved ones are those of `c`. -/
theorem bankedStatus_enter_of_eq {c c' : Core β κ σ} (saved : c'.saved = c.saved)
    (status : c'.status = c.status) (e : Exception) (m : Mode) :
    (c'.enter e).bankedStatus m =
      (if e.target = m then some c.status else none).or (c.bankedStatus m) := by
  rw [bankedStatus_enter, status, bankedStatus_congr saved]
  by_cases h : m = e.target <;> simp [h, eq_comm]

namespace Moment

section Stores

variable [Bus β] {x : Moment β κ σ} (m : Mode)

theorem stores?_of_enters {e : Exception} (he : x.enters? = some e) (hw : x.writes? = none) :
    x.stores? m = if e.target = m then some x.core.status else none := by
  simp [stores?, puts?, strays?, he, hw]

/-- Where no handler is entered and nothing is written, nothing is put. -/
theorem stores?_eq_none (he : x.enters? = none) (hw : x.writes? = none) : x.stores? m = none := by
  simp [stores?, puts?, strays?, he, hw]

/-- The head of a round enters the handler of the interrupt that is due, or changes nothing but
the clock and the request to leave. -/
theorem round_cases (c : Core β κ σ) (K : List (Frame κ σ)) (s next : Program κ σ) :
    (∃ e, enters? ⟨c, .round s next, K⟩ = some e ∧ c.pendingInterrupt? = some e ∧
      c.round.core = c.sampled.enter e) ∨
    (enters? ⟨c, .round s next, K⟩ = none ∧
      ∃ clock asked, c.round.core = { c with clock := clock, exitRequested := asked }) := by
  by_cases calls : c.clock < c.target ∧ ¬c.lines.contains .halt
  · have enters : enters? ⟨c, .round s next, K⟩ = c.pendingInterrupt? := if_pos calls
    rw [round_of_awake calls.1 calls.2, Round.core, serviceInterrupts, enters]
    have same : pendingInterrupt? { c with exitRequested := false } = c.pendingInterrupt? := rfl
    rw [same]
    cases c.pendingInterrupt? with
    | some e => exact .inl ⟨e, rfl, rfl, rfl⟩
    | none => exact .inr ⟨rfl, c.clock, false, rfl⟩
  · refine .inr ⟨if_neg calls, ?_⟩
    by_cases early : c.clock < c.target
    · have halted : c.lines.contains .halt = true := by
        by_contra awake
        exact calls ⟨early, awake⟩
      rw [round_of_halted early halted]
      exact ⟨_, _, rfl⟩
    · rw [round_of_le (Int.not_lt.mp early)]
      exact ⟨c.clock, c.exitRequested, rfl⟩

end Stores

variable [Bus β] [Coprocessor κ] (c : Core β κ σ) (K : List (Frame κ σ)) (m : Mode)

theorem bankedStatus_step_round (s next : Program κ σ) :
    (step ⟨c, .round s next, K⟩).core.bankedStatus m =
      (stores? ⟨c, .round s next, K⟩ m).or (c.bankedStatus m) := by
  rw [core_step_round]
  rcases round_cases c K s next with ⟨e, enters, -, core⟩ | ⟨enters, clock, asked, core⟩
  · rw [stores?_of_enters m enters rfl, core]
    exact bankedStatus_enter_of_eq rfl rfl e m
  · rw [stores?_eq_none m enters rfl, core]
    rfl

theorem bankedStatus_step_raise (e : Exception) (next : Program κ σ) :
    (step ⟨c, .program (.raise e next), K⟩).core.bankedStatus m =
      (stores? ⟨c, .program (.raise e next), K⟩ m).or (c.bankedStatus m) := by
  have kept := c.keepsExcept_intercept e
  have saved : (c.intercept e).1.saved = c.saved := kept .saved (by decide)
  have status : (c.intercept e).1.status = c.status := kept .status (by decide)
  rcases hi : c.intercept e with ⟨c', _ | ⟨i, hook⟩⟩
  · have enters : enters? ⟨c, .program (.raise e next), K⟩ = some e := by simp [enters?, hi]
    rw [hi] at saved status
    rw [stores?_of_enters m enters rfl]
    simp only [step, hi]
    exact bankedStatus_enter_of_eq saved status e m
  · have enters : enters? ⟨c, .program (.raise e next), K⟩ = none := by simp [enters?, hi]
    rw [hi] at saved
    rw [stores?_eq_none m enters rfl, Option.none_or]
    simp only [step, hi]
    exact bankedStatus_congr saved m

/-- A write goes to the mode it is made in.  In a mode that keeps no status word it is refused,
or goes to the mode for fast interrupts. -/
theorem bankedStatus_step_write (hm : m.savedSlot?.isSome) (s : Status)
    (next : Unit → Program κ σ) :
    (step ⟨c, .program (.ask (.setSavedStatus s) next), K⟩).core.bankedStatus m =
      (stores? ⟨c, .program (.ask (.setSavedStatus s) next), K⟩ m).or (c.bankedStatus m) := by
  cases slot : c.status.mode.savedSlot? with
  | some i =>
    have stored : stores? ⟨c, .program (.ask (.setSavedStatus s) next), K⟩ m =
        if c.status.mode = m then some s else none := by
      simp [stores?, puts?, strays?, enters?, writes?, slot]
    have done : answer (.setSavedStatus s) c = .ok () (c.setSavedAt i s) := by
      simp [answer, setSavedStatus, savedSlot, bind_apply, slot]
    simp only [step, done, stored, bankedStatus_setSavedAt c slot m s]
    split <;> rfl
  | none =>
    have other : c.status.mode ≠ m := by
      rintro rfl
      rw [slot] at hm
      cases hm
    cases attached : c.debugger with
    | none =>
      have stored : stores? ⟨c, .program (.ask (.setSavedStatus s) next), K⟩ m = none := by
        simp [stores?, puts?, strays?, enters?, slot, attached, other]
      have refused : answer (.setSavedStatus s) c =
          .error (.fault (.noSavedStatus c.status.mode)) c := by
        simp [answer, setSavedStatus, savedSlot, bind_apply, slot, attached]
      simp only [step, refused, stored, Option.none_or]
    | some notify =>
      have stored : stores? ⟨c, .program (.ask (.setSavedStatus s) next), K⟩ m =
          if m = .fiq then some s else none := by
        simp [stores?, puts?, strays?, enters?, writes?, slot, attached, other]
      obtain ⟨told, done, saved⟩ : ∃ told : Core β κ σ,
          answer (.setSavedStatus s) c = .ok () (told.setSavedAt Mode.straySlot s) ∧
            told.saved = c.saved := by
        simp only [answer, setSavedStatus, savedSlot, bind_apply, get_apply, slot]
        rw [attached]
        exact ⟨_, rfl, rfl⟩
      have stray : Mode.fiq.savedSlot? = some Mode.straySlot := rfl
      simp only [step, done, stored, bankedStatus_setSavedAt told stray m s,
        bankedStatus_congr saved, eq_comm]
      split <;> rfl

/-- **What one step does to a saved status word.** -/
theorem bankedStatus_step (x : Moment β κ σ) {m : Mode} (hm : m.savedSlot?.isSome) :
    x.step.core.bankedStatus m = (x.stores? m).or (x.core.bankedStatus m) := by
  have untouched : .saved ∉ x.control.parts → x.enters? = none → x.writes? = none →
      x.step.core.bankedStatus m = (x.stores? m).or (x.core.bankedStatus m) := by
    intro kept he hw
    rw [stores?_eq_none m he hw, Option.none_or]
    exact bankedStatus_congr (x.step_keeps .saved kept) m
  obtain ⟨c, control, K⟩ := x
  match control with
  | .round s next => exact bankedStatus_step_round c K m s next
  | .program (.raise e next) => exact bankedStatus_step_raise c K m e next
  | .program (.ask r next) =>
    cases r with
    | setSavedStatus s => exact bankedStatus_step_write c K m hm s next
    | reset =>
      rw [stores?_of_enters m (e := .reset) rfl rfl]
      let cleared : Core β κ σ := { c with pc := 0, previousPc := 0, clock := 0 }
      have saved : cleared.saved = c.saved := rfl
      exact bankedStatus_enter_of_eq saved rfl .reset m
    | _ => exact untouched (of_decide_eq_false rfl) rfl rfl
  | .stopped e | .program (.done n) | .program (.install i hook next)
  | .program (.run limit s next) | .program (.consult next)
  | .program (.update change next) => exact untouched (of_decide_eq_false rfl) rfl rfl

end Moment

variable [Bus β] [Coprocessor κ] {x y : Moment β κ σ}

theorem Moves.bankedStatus_eq (h : Moves x y) {m : Mode} (hm : m.savedSlot?.isSome) :
    y.core.bankedStatus m = (x.stores? m).or (x.core.bankedStatus m) := by
  cases h with
  | step => exact x.bankedStatus_step hm
  | resume | recover =>
    rw [Moment.stores?_eq_none m rfl rfl]
    rfl

/-! ## 3. Sessions -/

variable {path : Nat → Moment β κ σ} {revision : Revision} {bus : β} {surroundings : σ}
  {p : Program κ σ}

/-- By induction on the moves, a saved status word is the one that was stored last. -/
theorem bankedStatus_eq_lastGiven (hp : Path path)
    (h0 : path 0 = .start (.new revision bus surroundings) p) {m : Mode}
    (hm : m.savedSlot?.isSome) (i : Nat) :
    (path i).core.bankedStatus m = some ((lastGiven (·.stores? m) path i).getD .zeroed) := by
  induction i with
  | zero =>
    rw [h0]
    exact bankedStatus_new revision bus surroundings hm
  | succ i ih =>
    rw [(hp i).bankedStatus_eq hm, ih, lastGiven]
    cases (path i).stores? m <;> rfl

/-- **What a mode keeps is the status word that was put there last**: by entering a handler of
that mode, or by a write in that mode.  All modes keep zero at first.  Only the mode for fast
interrupts also keeps what is written in User or System mode under a debugger. -/
theorem saved_status_last_put (hp : Path path)
    (h0 : path 0 = .start (.new revision bus surroundings) p) {m : Mode}
    (hm : m.savedSlot?.isSome) (i : Nat) :
    (path i).core.bankedStatus m = some ((lastGiven (·.stores? m) path i).getD .zeroed) ∧
      ((m = .fiq → ∀ k < i, (path k).strays? = none) →
        (path i).core.bankedStatus m = some ((lastGiven (·.puts? m) path i).getD .zeroed)) := by
  have stored := bankedStatus_eq_lastGiven hp h0 hm i
  refine ⟨stored, fun none_strays => ?_⟩
  rw [stored]
  congr 2
  apply lastGiven_congr
  intro k hk
  rw [Moment.stores?]
  split
  · rename_i fiq
    rw [none_strays fiq k hk, Option.or_none]
  · exact Option.or_none

/-- What is written in System mode under a debugger stays with the mode for fast interrupts,
while an ordinary interrupt saves the status word of System mode for its own. -/
theorem saved_status_last_put_under_debugger :
    ∃ path : Nat → Moment Ram SystemControl Unit, Path path ∧
      (path 4).core.status.mode = .irq ∧ (path 4).core.bankedStatus .fiq = some ⟨0x11⟩ ∧
      (path 4).core.bankedStatus .irq = some (path 3).core.status := by
  let path : Nat → Moment Ram SystemControl Unit := fun i => Moment.step^[i]
    (.start (.new .v5 ⟨#[0], 0⟩ ()) <| .ask (.attachDebugger fun _ s => s) fun _ =>
      .ask (.setMode .system) fun _ => .ask (.setSavedStatus ⟨0x11⟩) fun _ =>
        .raise .irq (.done 0))
  have moves : Path path := path_iterate _
  obtain ⟨fast, -⟩ := saved_status_last_put moves rfl (m := .fiq) rfl 4
  obtain ⟨-, ordinary⟩ := saved_status_last_put moves rfl (m := .irq) rfl 4
  refine ⟨path, moves, by decide, fast.trans (by decide), (ordinary nofun).trans (by decide)⟩

/-- In System mode under a debugger a write changes the saved status word of another mode. -/
theorem system_write_changes_fast_status :
    ∃ x : Moment Ram SystemControl Unit, Reachable x ∧ x.core.status.mode = .system ∧
      x.control = .program (.ask (.setSavedStatus ⟨0x11⟩) fun _ => .done 0) ∧
      x.core.bankedStatus .fiq = some .zeroed ∧ x.step.core.bankedStatus .fiq = some ⟨0x11⟩ := by
  let x : Moment Ram SystemControl Unit := Moment.step^[2]
    (.start (.new .v5 ⟨#[0], 0⟩ ()) <| .ask (.attachDebugger fun _ s => s) fun _ =>
      .ask (.setMode .system) fun _ => .ask (.setSavedStatus ⟨0x11⟩) fun _ => .done 0)
  have reached : Reachable x := (Reachable.new _ _ _ _).iterate 2
  exact ⟨x, reached, by decide, rfl, rfl, rfl⟩

end Core
end Handheld
