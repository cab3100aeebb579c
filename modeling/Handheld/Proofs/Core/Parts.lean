/-
# What a step leaves alone

A core has many parts, and most of what is done to it touches one or two.  `Request.parts` and
`Control.parts` say which, and everything else is kept: a property of one part has to look only
at the few things that touch it.

* `answer_keeps`: a request that is answered, or refused, keeps what it does not touch;
* `Moment.step_keeps`, `Moves.keeps`: so does every move of a session.
-/
import Handheld.Proofs.Core.Entry
import Handheld.Proofs.Core.Moment

namespace Handheld

/-- What can change in a core. -/
inductive Part where
  | registers | status | saved | clock | bus | pc | previousPc | systemControl | coprocessors
  | lines | hooks | target | exitRequested | debugger | surroundings
  deriving DecidableEq

/-- The parts that entering an exception changes. -/
@[simp] def Exception.parts : List Part := [.registers, .status, .saved, .clock, .pc, .previousPc]

/-- The parts that the answer to a request may change. -/
@[simp] def Request.parts {κ σ : Type} : Request κ σ → List Part
  | .pc | .previousPc | .register _ | .bankedRegister _ _ | .status | .bankedStatus _
  | .systemControl | .lines | .clock | .target | .accessCycles | .revision => []
  | .setPc _ | .setRegister _ _ => [.registers, .pc]
  | .branch _ _ => [.registers, .pc, .previousPc]
  | .setStatus _ | .setMode _ => [.registers, .status]
  | .setInstructionSet _ | .setIrqDisable _ | .setFiqDisable _ => [.status]
  | .savedStatus => [.surroundings]
  | .setSavedStatus _ => [.saved, .surroundings]
  | .attachDebugger _ => [.debugger]
  | .mapCoprocessor _ _ | .enableSystemControl | .readCoprocessor _ _
  | .writeCoprocessor _ _ _ => [.systemControl, .coprocessors]
  | .clearHook _ => [.hooks]
  | .setLine _ _ => [.lines, .exitRequested]
  | .takeExitRequest => [.exitRequested]
  | .reset => Exception.parts
  | .setClock _ => [.clock]
  | .read16 _ | .read32 _ | .write16 _ _ | .write32 _ _ => [.clock, .bus]

namespace Core

variable {β κ σ α : Type}

/-! ## 1. Parts -/

@[reducible] def PartValue (β κ σ : Type) : Part → Type
  | .registers => RegisterFile
  | .status => Status
  | .saved => Vector Status 5
  | .clock | .target => Int
  | .bus => β
  | .pc | .previousPc => Word
  | .systemControl => Option SystemControl
  | .coprocessors => Vector (Option κ) 16
  | .lines => Lines
  | .hooks => Vector (Option (Program κ σ)) 256
  | .exitRequested => Bool
  | .debugger => Option (String → σ → σ)
  | .surroundings => σ

@[simp] def part (c : Core β κ σ) : (p : Part) → PartValue β κ σ p
  | .registers => c.registers
  | .status => c.status
  | .saved => c.saved
  | .clock => c.clock
  | .bus => c.bus
  | .pc => c.pc
  | .previousPc => c.previousPc
  | .systemControl => c.systemControl
  | .coprocessors => c.coprocessors
  | .lines => c.lines
  | .hooks => c.hooks
  | .target => c.target
  | .exitRequested => c.exitRequested
  | .debugger => c.debugger
  | .surroundings => c.surroundings

/-- `c'` has of `c` whatever is not listed. -/
def KeepsExcept (parts : List Part) (c c' : Core β κ σ) : Prop :=
  ∀ p ∉ parts, c'.part p = c.part p

namespace KeepsExcept

variable {parts more : List Part} {c c' c'' : Core β κ σ}

theorem refl (parts : List Part) (c : Core β κ σ) : KeepsExcept parts c c := fun _ _ => rfl

theorem mono (h : KeepsExcept parts c c') (sub : parts ⊆ more) : KeepsExcept more c c' :=
  fun p hp => h p fun hin => hp (sub hin)

theorem trans (h : KeepsExcept parts c c') (h' : KeepsExcept parts c' c'') :
    KeepsExcept parts c c'' :=
  fun p hp => (h' p hp).trans (h p hp)

/-- Each part is listed or the same. -/
theorem of_parts (h : ∀ p, p ∈ parts ∨ c'.part p = c.part p) : KeepsExcept parts c c' :=
  fun p hp => (h p).resolve_left hp

end KeepsExcept

/-! ## 2. Single operations -/

theorem keepsExcept_setPc (c : Core β κ σ) (a : Word) :
    KeepsExcept [.registers, .pc] c (c.setPc a) := by
  rw [setPc]
  exact .of_parts fun p => by cases p <;> simp

theorem keepsExcept_branch (c : Core β κ σ) (a : Word) (kind : BranchKind) :
    KeepsExcept [.registers, .pc, .previousPc] c (c.branch a kind) := by
  rw [branch, setPc]
  exact .of_parts fun p => by cases p <;> simp

theorem keepsExcept_setStatus (c : Core β κ σ) (s : Status) :
    KeepsExcept [.registers, .status] c (c.setStatus s) := by
  rw [setStatus]
  exact .of_parts fun p => by cases p <;> simp

theorem keepsExcept_status (c : Core β κ σ) (s : Status) :
    KeepsExcept [.status] c { c with status := s } := .of_parts fun p => by cases p <;> simp

theorem keepsExcept_setSavedAt (c : Core β κ σ) (i : Fin 5) (s : Status) :
    KeepsExcept [.saved, .surroundings] c (c.setSavedAt i s) := by
  rw [setSavedAt]
  exact .of_parts fun p => by cases p <;> simp

theorem keepsExcept_setLine (c : Core β κ σ) (l : Lines) (b : Bool) :
    KeepsExcept [.lines, .exitRequested] c (c.setLine l b) := by
  rw [setLine]
  split
  · exact .of_parts fun p => by cases p <;> simp
  · exact .of_parts fun p => by cases p <;> simp

theorem keepsExcept_setHook (c : Core β κ σ) (n : Byte) (hook : Option (Program κ σ)) :
    KeepsExcept [.hooks] c (c.setHook n hook) := by
  rw [setHook]
  exact .of_parts fun p => by cases p <;> simp

theorem keepsExcept_restoreHook (c : Core β κ σ) (n : Byte) (hook : Program κ σ) :
    KeepsExcept [.hooks] c (c.restoreHook n hook) := by
  rw [restoreHook]
  split
  · exact .refl _ c
  · exact keepsExcept_setHook c n _

theorem keepsExcept_advance (c : Core β κ σ) (n : Int) : KeepsExcept [.clock] c (c.advance n) := by
  rw [advance]
  exact .of_parts fun p => by cases p <;> simp

theorem keepsExcept_enter (c : Core β κ σ) (e : Exception) :
    KeepsExcept Exception.parts c (c.enter e) := by
  rw [enter_eq]
  exact .of_parts fun p => by cases p <;> simp

theorem keepsExcept_reset (c : Core β κ σ) : KeepsExcept Exception.parts c c.reset := by
  have cleared : KeepsExcept Exception.parts c { c with pc := 0, previousPc := 0, clock := 0 } :=
    .of_parts fun p => by cases p <;> simp
  exact cleared.trans (keepsExcept_enter _ .reset)

theorem keepsExcept_intercept [Bus β] (c : Core β κ σ) (e : Exception) :
    KeepsExcept [.bus, .hooks] c (c.intercept e).1 := by
  cases e with
  | softwareInterrupt =>
    have fetched : ∀ bus, KeepsExcept [.bus, .hooks] c { c with bus := bus } := fun _ =>
      .of_parts fun p => by cases p <;> simp
    simp only [intercept]
    split
    · exact (fetched _).trans ((keepsExcept_setHook _ _ none).mono (List.subset_cons_self _ _))
    · exact fetched _
  | _ => exact .refl _ c

theorem keepsExcept_round (c : Core β κ σ) :
    KeepsExcept (.exitRequested :: Exception.parts) c c.round.core := by
  have sampled : KeepsExcept (.exitRequested :: Exception.parts) c
      { c with exitRequested := false } := .of_parts fun p => by cases p <;> simp
  simp only [round]
  split
  · split
    · exact sampled.trans (by rw [Round.core]; exact .of_parts fun p => by cases p <;> simp)
    · rw [Round.core, serviceInterrupts]
      split
      · exact sampled.trans ((keepsExcept_enter _ _).mono (List.subset_cons_self _ _))
      · exact sampled
  · exact .refl _ c

/-! ## 3. Requests -/

theorem Settled.imp {I J : Core β κ σ → Prop} {r : EStateM.Result Stop (Core β κ σ) α}
    (h : Settled I r) (hij : ∀ c, I c → J c) : Settled J r := by
  match r, h with
  | .ok v c, h => exact hij c h
  | .error (.fault f) c, h => exact hij c h

theorem keepsExcept_savedSlot (c : Core β κ σ) :
    Settled (KeepsExcept [.surroundings] c) (savedSlot c) := by
  have told : ∀ s, KeepsExcept [.surroundings] c { c with surroundings := s } := fun _ =>
    .of_parts fun p => by cases p <;> simp
  simp only [savedSlot, bind_apply, get_apply]
  cases c.status.mode.savedSlot? with
  | some i => exact .refl _ c
  | none =>
    cases hd : c.debugger with
    | none => exact .refl _ c
    | some notify =>
      simp only [hd] at told
      exact told _

theorem keepsExcept_setRegister (i : Nat) (v : Word) (c : Core β κ σ) :
    Settled (KeepsExcept [.registers, .pc] c) (setRegister i v c) := by
  simp only [setRegister]
  split
  · exact keepsExcept_setPc c v
  · simp only [bind_apply, get_apply]
    cases c.registers.set i v with
    | ok f => exact KeepsExcept.of_parts fun p => by cases p <;> simp
    | error f => exact .refl _ c

theorem keepsExcept_mapCoprocessor (n : Nat) (d : κ) (c : Core β κ σ) :
    Settled (KeepsExcept [.systemControl, .coprocessors] c) (mapCoprocessor n d c) := by
  simp only [mapCoprocessor]
  split
  · exact KeepsExcept.of_parts fun p => by cases p <;> simp
  · exact .refl _ c

theorem keepsExcept_withCoprocessor (n : Nat) (unit : SystemControl → α × SystemControl)
    (device : κ → α × κ) (c : Core β κ σ) :
    Settled (KeepsExcept [.systemControl, .coprocessors] c) (withCoprocessor n unit device c) := by
  simp only [withCoprocessor]
  split
  · rw [bind_apply, get_apply]
    dsimp only
    cases (if n = 15 then c.systemControl else none) with
    | some s => exact KeepsExcept.of_parts fun p => by cases p <;> simp
    | none =>
      dsimp only
      cases c.coprocessors[n] with
      | some d => exact KeepsExcept.of_parts fun p => by cases p <;> simp
      | none => exact .refl _ c
  · exact .refl _ c

theorem keepsExcept_access (use : β → α × β) (c : Core β κ σ) :
    Settled (KeepsExcept [.clock, .bus] c) (access use c) :=
  KeepsExcept.of_parts fun p => by cases p <;> simp

theorem keepsExcept_fromRegisters {e : Except RegisterFile.Fault α} (c : Core β κ σ) :
    Settled (KeepsExcept [] c) (fromRegisters e c) := by
  cases e <;> exact .refl _ c

variable [Bus β] [Coprocessor κ]

/-- **A request keeps what it does not touch**, whether it is answered or refused. -/
theorem answer_keeps (r : Request κ σ) (c : Core β κ σ) :
    Settled (KeepsExcept r.parts c) (answer r c) := by
  cases r with
  | setPc a => exact keepsExcept_setPc c a
  | branch a kind => exact keepsExcept_branch c a kind
  | register i => exact keepsExcept_fromRegisters c
  | setRegister i v => exact keepsExcept_setRegister i v c
  | bankedRegister m i => exact keepsExcept_fromRegisters c
  | setStatus s => exact keepsExcept_setStatus c s
  | setMode m => exact keepsExcept_setStatus c _
  | setInstructionSet i => exact keepsExcept_status c _
  | setIrqDisable b => exact keepsExcept_status c _
  | setFiqDisable b => exact keepsExcept_status c _
  | savedStatus => exact (keepsExcept_savedSlot c).bind fun _ _ h => h
  | setSavedStatus s =>
    have slot := (keepsExcept_savedSlot c).imp fun c' h =>
      h.mono (List.subset_cons_self Part.saved _)
    exact slot.bind fun i c' h => h.trans (keepsExcept_setSavedAt c' i s)
  | attachDebugger notify => exact KeepsExcept.of_parts fun p => by cases p <;> simp
  | mapCoprocessor n d => exact keepsExcept_mapCoprocessor n d c
  | enableSystemControl =>
    have enabled : KeepsExcept [.systemControl, .coprocessors] c c.enableSystemControl := by
      rw [enableSystemControl]
      exact .of_parts fun p => by cases p <;> simp
    exact enabled
  | readCoprocessor n r =>
    exact keepsExcept_withCoprocessor n (Coprocessor.read · r) (Coprocessor.read · r) c
  | writeCoprocessor n r v =>
    exact (keepsExcept_withCoprocessor n _ _ c).bind fun _ _ h => h
  | clearHook n => exact keepsExcept_setHook c n none
  | setLine l b => exact keepsExcept_setLine c l b
  | takeExitRequest => exact KeepsExcept.of_parts fun p => by cases p <;> simp
  | reset => exact keepsExcept_reset c
  | setClock n => exact KeepsExcept.of_parts fun p => by cases p <;> simp
  | read16 a => exact keepsExcept_access (Bus.read16 · a) c
  | read32 a => exact keepsExcept_access (Bus.read32 · a) c
  | write16 a v => exact keepsExcept_access (fun b => ((), Bus.write16 b a v)) c
  | write32 a v => exact keepsExcept_access (fun b => ((), Bus.write32 b a v)) c
  | _ => exact .refl _ c

/-! ## 4. Moves -/

/-- The parts that may change where a moment is left behind. -/
def Control.parts : Control κ σ → List Part
  | .program (.done _) => [.hooks, .clock]
  | .program (.ask r _) => r.parts
  | .program (.install _ _ _) => [.hooks]
  | .program (.raise _ _) => .bus :: .hooks :: Exception.parts
  | .program (.run _ _ _) => [.target]
  | .program (.consult _) | .stopped _ => []
  | .program (.update _ _) => [.surroundings]
  | .round _ _ => .exitRequested :: Exception.parts

/-- **A step keeps what it does not touch.** -/
theorem Moment.step_keeps (x : Moment β κ σ) : KeepsExcept x.control.parts x.core x.step.core := by
  obtain ⟨c, control, K⟩ := x
  match control with
  | .stopped e => exact .refl _ c
  | .round s next =>
    rw [core_step_round]
    exact c.keepsExcept_round
  | .program (.done n) =>
    cases K with
    | nil => exact .refl _ c
    | cons F K =>
      cases F with
      | hook i hook next =>
        have restored := (c.keepsExcept_restoreHook i hook).mono
          (List.subset_append_left _ [Part.clock])
        have advanced := (keepsExcept_advance (c.restoreHook i hook) (n + entryCycles)).mono
          (List.subset_append_right [Part.hooks] _)
        exact restored.trans advanced
      | stepper s next =>
        exact (c.keepsExcept_advance n).mono (List.subset_append_right [Part.hooks] _)
  | .program (.ask r next) =>
    have kept := answer_keeps r c
    simp only [Moment.step]
    split
    · rename_i v c' hc
      rw [hc] at kept
      exact kept
    · rename_i e c' hc
      rw [hc] at kept
      cases e with
      | fault f => exact kept
      | outOfFuel => exact absurd kept id
  | .program (.install i hook next) => exact c.keepsExcept_setHook i _
  | .program (.raise e next) =>
    have kept := (c.keepsExcept_intercept e).mono (List.subset_append_left _ Exception.parts)
    simp only [Moment.step]
    split <;> rename_i hc <;> rw [hc] at kept
    · exact kept
    · exact kept.trans
        ((keepsExcept_enter _ e).mono (List.subset_append_right [Part.bus, .hooks] _))
  | .program (.run limit s next) =>
    show KeepsExcept [.target] c { c with target := limit }
    exact .of_parts fun p => by cases p <;> simp
  | .program (.consult next) => exact .refl _ c
  | .program (.update change next) =>
    show KeepsExcept [.surroundings] c { c with surroundings := change c.surroundings }
    exact .of_parts fun p => by cases p <;> simp

theorem Moves.keeps {x y : Moment β κ σ} (h : Moves x y) :
    KeepsExcept x.control.parts x.core y.core := by
  cases h with
  | step => exact x.step_keeps
  | resume | recover => exact .refl _ _

end Core
end Handheld
