/-
# Where a run is going

The limit of a run stands in the core, and a program can see it there.  It can also change it,
by beginning a run of its own.  A program that does neither -- a blind one -- does the same
wherever the run is going.

* `answer_aim`, `Moment.step_aim`: what does not look at the limit comes to the same under any
  other, and leaves that one in its place;
* `Moment.Blind.iterate`: blind programs call blind programs only, hooks included.
-/
import Handheld.Proofs.Core.Parts

namespace Handheld

variable {β κ σ α γ : Type}

/-- A program that neither asks for the limit nor begins a run, nor installs a hook that does. -/
def Program.Blind : Program κ σ → Prop
  | .done _ => True
  | .ask r next => r ≠ .target ∧ ∀ v, (next v).Blind
  | .install _ hook next => hook.Blind ∧ next.Blind
  | .raise _ next => next.Blind
  | .run _ _ _ => False
  | .consult next => ∀ s, (next s).Blind
  | .update _ next => next.Blind

namespace Core

/-! ## 1. Another limit -/

/-- The same core, on its way to `limit`. -/
def aim (c : Core β κ σ) (limit : Int) : Core β κ σ := { c with target := limit }

/-- What an action comes to that ends in the same way on the way to `limit`. -/
def aimed (limit : Int) :
    EStateM.Result Stop (Core β κ σ) α → EStateM.Result Stop (Core β κ σ) α
  | .ok v c => .ok v (c.aim limit)
  | .error e c => .error e (c.aim limit)

section Operations

variable (c : Core β κ σ) (limit : Int)

theorem saveStatus_aim (m : Mode) (s : Status) :
    (c.aim limit).saveStatus m s = (c.saveStatus m s).aim limit := by
  rw [saveStatus, saveStatus]
  cases m.savedSlot? <;> rfl

theorem enter_aim (e : Exception) : (c.aim limit).enter e = (c.enter e).aim limit := by
  have kept := saveStatus_aim (c.setStatus (entryStatus c.status e)) limit e.target c.status
  exact congrArg (fun kept => ((kept.setLink e.target (c.returnAddress e)).branch
    (c.vectorBase + e.vectorOffset) .interrupt).advance entryCycles) kept

theorem reset_aim : (c.aim limit).reset = c.reset.aim limit :=
  enter_aim { c with pc := 0, previousPc := 0, clock := 0 } limit .reset

theorem setLine_aim (l : Lines) (b : Bool) :
    (c.aim limit).setLine l b = (c.setLine l b).aim limit := by
  cases b <;> rfl

theorem restoreHook_aim (n : Byte) (hook : Program κ σ) :
    (c.aim limit).restoreHook n hook = (c.restoreHook n hook).aim limit := by
  have same : (c.aim limit).hook? n = c.hook? n := rfl
  rw [restoreHook, restoreHook, same]
  cases c.hook? n <;> rfl

theorem serviceInterrupts_aim :
    (c.aim limit).serviceInterrupts = c.serviceInterrupts.aim limit := by
  have same : (c.aim limit).pendingInterrupt? = c.pendingInterrupt? := rfl
  rw [serviceInterrupts, serviceInterrupts, same]
  cases c.pendingInterrupt? with
  | none => rfl
  | some e => exact enter_aim c limit e

theorem takeHook_aim (n : Byte) :
    (c.aim limit).takeHook n = ((c.takeHook n).1.aim limit, (c.takeHook n).2) := by
  have same : (c.aim limit).hook? n = c.hook? n := rfl
  rw [takeHook, takeHook, same]
  cases c.hook? n <;> rfl

theorem intercept_aim [Bus β] (e : Exception) :
    (c.aim limit).intercept e = ((c.intercept e).1.aim limit, (c.intercept e).2) := by
  cases e with
  | softwareInterrupt =>
    rw [intercept_softwareInterrupt c]
    exact takeHook_aim { c with bus := _ } limit _
  | _ => rfl

end Operations

/-! ## 2. Requests -/

section Requests

variable (c : Core β κ σ) (limit : Int)

theorem savedSlot_aim : savedSlot (c.aim limit) = aimed limit (savedSlot c) := by
  simp only [savedSlot, bind_apply, get_apply]
  have mode : (c.aim limit).status = c.status := rfl
  have debugger : (c.aim limit).debugger = c.debugger := rfl
  rw [mode, debugger]
  cases c.status.mode.savedSlot? with
  | some i => rfl
  | none => cases c.debugger <;> rfl

theorem setRegister_aim (i : Nat) (v : Word) :
    setRegister i v (c.aim limit) = aimed limit (setRegister i v c) := by
  simp only [setRegister]
  split
  · rfl
  · simp only [bind_apply, get_apply]
    have registers : (c.aim limit).registers = c.registers := rfl
    rw [registers]
    cases c.registers.set i v <;> rfl

theorem mapCoprocessor_aim (n : Nat) (d : κ) :
    mapCoprocessor n d (c.aim limit) = aimed limit (mapCoprocessor n d c) := by
  simp only [mapCoprocessor]
  split <;> rfl

theorem withCoprocessor_aim (n : Nat) (unit : SystemControl → α × SystemControl)
    (device : κ → α × κ) :
    withCoprocessor n unit device (c.aim limit) =
      aimed limit (withCoprocessor n unit device c) := by
  simp only [withCoprocessor]
  split
  · simp only [bind_apply, get_apply]
    have systemControl : (c.aim limit).systemControl = c.systemControl := rfl
    have coprocessors : (c.aim limit).coprocessors = c.coprocessors := rfl
    rw [systemControl, coprocessors]
    cases (if n = 15 then c.systemControl else none) with
    | some s => rfl
    | none => cases c.coprocessors[n] <;> rfl
  · rfl

theorem fromRegisters_aim (e : Except RegisterFile.Fault α) :
    fromRegisters e (c.aim limit) = aimed limit (fromRegisters e c) := by
  cases e <;> rfl

theorem bind_aim {a : Action β κ σ α} {f : α → Action β κ σ γ}
    (ha : a (c.aim limit) = aimed limit (a c))
    (hf : ∀ v c', f v (c'.aim limit) = aimed limit (f v c')) :
    (a >>= f) (c.aim limit) = aimed limit ((a >>= f) c) := by
  rw [bind_apply, bind_apply, ha]
  cases a c with
  | ok v c' => exact hf v c'
  | error e c' => rfl

variable [Bus β] [Coprocessor κ]

/-- **Nothing but the question for the limit depends on it.** -/
theorem answer_aim {r : Request κ σ} (hr : r ≠ .target) :
    answer r (c.aim limit) = aimed limit (answer r c) := by
  cases r with
  | target => exact absurd rfl hr
  | register i => exact fromRegisters_aim c limit _
  | bankedRegister m i => exact fromRegisters_aim c limit _
  | setRegister i v => exact setRegister_aim c limit i v
  | savedStatus => exact bind_aim c limit (savedSlot_aim c limit) fun _ _ => rfl
  | setSavedStatus s => exact bind_aim c limit (savedSlot_aim c limit) fun _ _ => rfl
  | mapCoprocessor n d => exact mapCoprocessor_aim c limit n d
  | readCoprocessor n r =>
    exact withCoprocessor_aim c limit n (Coprocessor.read · r) (Coprocessor.read · r)
  | writeCoprocessor n r v =>
    exact bind_aim c limit (withCoprocessor_aim c limit n _ _) fun _ _ => rfl
  | setLine l b => exact congrArg (EStateM.Result.ok ()) (setLine_aim c limit l b)
  | reset => exact congrArg (EStateM.Result.ok ()) (reset_aim c limit)
  | _ => rfl

end Requests

/-! ## 3. Blind programs -/

variable {c : Core β κ σ} {x : Moment β κ σ} {limit : Int}

/-- All hooks are blind. -/
def HooksBlind (c : Core β κ σ) : Prop := ∀ n hook, c.hook? n = some hook → hook.Blind

theorem hooksBlind_new [Bus β] (revision : Revision) (bus : β) (surroundings : σ) :
    (new revision bus surroundings : Core β κ σ).HooksBlind := by
  intro n hook h
  rw [hook?, new, Vector.getElem_replicate] at h
  cases h

theorem HooksBlind.of_keepsExcept {parts : List Part} {c' : Core β κ σ} (h : c.HooksBlind)
    (kept : KeepsExcept parts c c') (untouched : .hooks ∉ parts) : c'.HooksBlind := by
  have same : c'.hooks = c.hooks := kept .hooks untouched
  intro n hook
  rw [hook?, same]
  exact h n hook

theorem HooksBlind.setHook (h : c.HooksBlind) (n : Byte) {hook : Option (Program κ σ)}
    (blind : ∀ p, hook = some p → p.Blind) : (c.setHook n hook).HooksBlind := by
  intro m p
  rw [hook?_setHook]
  split
  · exact blind p
  · exact h m p

theorem HooksBlind.clearHook (h : c.HooksBlind) (n : Byte) : (c.setHook n none).HooksBlind :=
  h.setHook n nofun

theorem HooksBlind.restoreHook (h : c.HooksBlind) (n : Byte) {hook : Program κ σ}
    (blind : hook.Blind) : (c.restoreHook n hook).HooksBlind := by
  rw [Core.restoreHook]
  split
  · exact h
  · exact h.setHook n fun p hp => Option.some.inj hp ▸ blind

theorem HooksBlind.takeHook (h : c.HooksBlind) (n : Byte) :
    (c.takeHook n).1.HooksBlind ∧ ∀ i hook, (c.takeHook n).2 = some (i, hook) → hook.Blind := by
  rw [Core.takeHook]
  split
  · rename_i hook hn
    refine ⟨h.clearHook n, fun i p hp => ?_⟩
    cases hp
    exact h n hook hn
  · exact ⟨h, nofun⟩

theorem HooksBlind.intercept [Bus β] (h : c.HooksBlind) (e : Exception) :
    (c.intercept e).1.HooksBlind ∧ ∀ i hook, (c.intercept e).2 = some (i, hook) → hook.Blind := by
  cases e with
  | softwareInterrupt =>
    have fetched : ∀ bus, ({ c with bus := bus } : Core β κ σ).HooksBlind := fun _ => h
    rw [intercept_softwareInterrupt]
    exact (fetched _).takeHook _
  | _ => exact ⟨h, nofun⟩

def Frame.Blind : Frame κ σ → Prop
  | .hook _ called next => called.Blind ∧ next.Blind
  | .stepper s next => s.Blind ∧ next.Blind

def Control.Blind : Control κ σ → Prop
  | .program p => p.Blind
  | .round s next => s.Blind ∧ next.Blind
  | .stopped _ => True

/-- Whatever is to be carried out is blind. -/
structure Moment.Blind (x : Moment β κ σ) : Prop where
  hooks : x.core.HooksBlind
  control : x.control.Blind
  stack : ∀ F ∈ x.stack, F.Blind

/-- The next thing is to ask for the limit, or to begin a run. -/
def Control.Watches : Control κ σ → Prop
  | .program (.ask .target _) | .program (.run _ _ _) => True
  | _ => False

theorem Control.Blind.not_watches {control : Control κ σ} (h : control.Blind) :
    ¬control.Watches := by
  intro watches
  match control, h, watches with
  | .program (.ask .target _), h, _ => exact h.1 rfl
  | .program (.run _ _ _), h, _ => exact h

/-! ## 4. Steps -/

/-- No round of a run is about to begin. -/
def Control.InStep : Control κ σ → Prop
  | .round _ _ => False
  | .program _ | .stopped _ => True

def Moment.aim (x : Moment β κ σ) (limit : Int) : Moment β κ σ :=
  { x with core := x.core.aim limit }

variable [Bus β] [Coprocessor κ]

/-- **A step of a program does not depend on the limit**, if the program does not look at it. -/
theorem Moment.step_aim (h : x.control.InStep) (unwatched : ¬x.control.Watches) :
    (x.aim limit).step = x.step.aim limit := by
  obtain ⟨c, control, K⟩ := x
  match control with
  | .stopped e => rfl
  | .round s next => exact absurd h id
  | .program (.done n) =>
    cases K with
    | nil => rfl
    | cons F K =>
      cases F with
      | hook i hook next =>
        simp only [aim, step, restoreHook_aim]
        rfl
      | stepper s next => rfl
  | .program (.ask r next) =>
    have same := answer_aim c limit (r := r) fun hr => unwatched (hr ▸ True.intro)
    simp only [aim, step, same]
    cases answer r c <;> rfl
  | .program (.raise e next) =>
    simp only [aim, step, intercept_aim]
    rcases c.intercept e with ⟨c', _ | ⟨i, hook⟩⟩
    · simp only [enter_aim]
    · rfl
  | .program (.run limit s next) => exact absurd True.intro unwatched
  | .program (.install i hook next) | .program (.consult next)
  | .program (.update change next) => rfl

theorem Moment.Blind.step (h : x.Blind) : x.step.Blind := by
  have kept := x.step_keeps
  obtain ⟨c, control, K⟩ := x
  obtain ⟨hooks, blind, callers⟩ := h
  match control with
  | .stopped e => exact ⟨hooks, blind, callers⟩
  | .round s next =>
    have hooks := hooks.of_keepsExcept kept (of_decide_eq_false rfl)
    simp only [Moment.step] at hooks ⊢
    split <;> rename_i hc <;> rw [hc] at hooks
    · exact ⟨hooks, blind.2, callers⟩
    · exact ⟨hooks, blind.1, List.forall_mem_cons.mpr ⟨⟨blind.1, blind.2⟩, callers⟩⟩
  | .program (.done n) =>
    cases K with
    | nil => exact ⟨hooks, blind, callers⟩
    | cons F K =>
      obtain ⟨caller, others⟩ := List.forall_mem_cons.mp callers
      cases F with
      | hook i hook next => exact ⟨hooks.restoreHook i caller.1, caller.2, others⟩
      | stepper s next => exact ⟨hooks, ⟨caller.1, caller.2⟩, others⟩
  | .program (.ask r next) =>
    have hooks : (Moment.step ⟨c, .program (.ask r next), K⟩).core.HooksBlind := by
      cases r with
      | clearHook n => exact hooks.clearHook n
      | _ => exact hooks.of_keepsExcept kept (of_decide_eq_false rfl)
    simp only [Moment.step] at hooks ⊢
    split <;> rename_i hc <;> rw [hc] at hooks
    · exact ⟨hooks, blind.2 _, callers⟩
    · exact ⟨hooks, True.intro, callers⟩
  | .program (.install i hook next) =>
    exact ⟨hooks.setHook i fun p hp => Option.some.inj hp ▸ blind.1, blind.2, callers⟩
  | .program (.raise e next) =>
    obtain ⟨left, called⟩ := hooks.intercept e
    simp only [Moment.step]
    split <;> rename_i hc <;> rw [hc] at left called
    · have hook := called _ _ rfl
      exact ⟨left, hook, List.forall_mem_cons.mpr ⟨⟨hook, blind⟩, callers⟩⟩
    · exact ⟨left.of_keepsExcept (keepsExcept_enter _ e) (of_decide_eq_false rfl), blind, callers⟩
  | .program (.run limit s next) => exact absurd blind id
  | .program (.consult next) => exact ⟨hooks, blind c.surroundings, callers⟩
  | .program (.update change next) => exact ⟨hooks, blind, callers⟩

/-- **Blind programs call blind programs only**, by induction on the steps. -/
theorem Moment.Blind.iterate (h : x.Blind) (k : Nat) : (Moment.step^[k] x).Blind := by
  induction k with
  | zero => exact h
  | succ k ih =>
    rw [Function.iterate_succ_apply']
    exact ih.step

end Core
end Handheld
