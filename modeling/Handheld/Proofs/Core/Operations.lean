/-
# The single operations of a core

Every program that acts on a core does so by requests, by raising exceptions and by running
steppers, and these again come down to a short list of things that are done to the core.
`Preserved I` says of each thing on the list that it keeps the property `I`; what a property
does not look at need not be mentioned, so that a proof of `Preserved` names only the
operations that matter to it.

* `Preserved.answer`: every request is answered, with a reply or with a fault, and the answer
  keeps what every single thing keeps.
-/
import Handheld.Core.Execution

namespace Handheld
namespace Core

variable {β κ σ α γ : Type}

/-! ## 1. Actions applied to a core -/

theorem bind_apply (a : Action β κ σ α) (f : α → Action β κ σ γ) (c : Core β κ σ) :
    (a >>= f) c =
      match a c with
      | .ok v c' => f v c'
      | .error e c' => .error e c' := by
  simp only [bind, EStateM.bind]
  cases a c <;> rfl

@[simp] theorem get_apply (c : Core β κ σ) : (get : Action β κ σ (Core β κ σ)) c = .ok c c := rfl

@[simp] theorem set_apply (c c' : Core β κ σ) : (set c' : Action β κ σ PUnit) c = .ok () c' := rfl

@[simp] theorem modify_apply (f : Core β κ σ → Core β κ σ) (c : Core β κ σ) :
    (modify f : Action β κ σ PUnit) c = .ok () (f c) := rfl

@[simp] theorem pure_apply (v : α) (c : Core β κ σ) : (pure v : Action β κ σ α) c = .ok v c := rfl

@[simp] theorem throw_apply (e : Stop) (c : Core β κ σ) :
    (throw e : Action β κ σ α) c = .error e c := rfl

/-! ## 2. Preservation -/

/-- Every single thing that is done to a core keeps `I`.  What is not said otherwise is taken
to keep it because `I` does not look there. -/
structure Preserved (I : Core β κ σ → Prop) : Prop where
  setPc : ∀ c a, I c → I (c.setPc a)
  previousPc : ∀ c a, I c → I { c with previousPc := a } := by exact fun _ _ h => h
  writeRegister : ∀ c r v f, r ≠ 15 → c.registers.set r v = .ok f →
    I c → I { c with registers := f }
  setStatus : ∀ c s, I c → I (c.setStatus s)
  setInstructionSet : ∀ c i, I c → I (c.setInstructionSet i)
  setIrqDisable : ∀ c b, I c → I (c.setIrqDisable b)
  setFiqDisable : ∀ c b, I c → I (c.setFiqDisable b)
  setSavedAt : ∀ c i s, I c → I (c.setSavedAt i s) := by exact fun _ _ _ h => h
  enter : ∀ c e, I c → I (c.enter e)
  reset : ∀ c, I c → I c.reset
  setLine : ∀ c l b, I c → I (c.setLine l b)
  exitRequested : ∀ c b, I c → I { c with exitRequested := b } := by exact fun _ _ h => h
  clock : ∀ c n, I c → I { c with clock := n } := by exact fun _ _ h => h
  target : ∀ c n, I c → I { c with target := n } := by exact fun _ _ h => h
  bus : ∀ c b, I c → I { c with bus := b } := by exact fun _ _ h => h
  coprocessors : ∀ c s v, I c → I { c with systemControl := s, coprocessors := v } := by
    exact fun _ _ _ h => h
  setHook : ∀ c n h, I c → I (c.setHook n h) := by exact fun _ _ _ h => h
  debugger : ∀ c f, I c → I { c with debugger := f } := by exact fun _ _ h => h
  surroundings : ∀ c s, I c → I { c with surroundings := s } := by exact fun _ _ h => h

theorem Preserved.trivial : Preserved fun _ : Core β κ σ => True where
  setPc _ _ := id
  writeRegister _ _ _ _ _ _ := id
  setStatus _ _ := id
  setInstructionSet _ _ := id
  setIrqDisable _ _ := id
  setFiqDisable _ _ := id
  enter _ _ := id
  reset _ := id
  setLine _ _ _ := id

/-- An action ended, with a value or a fault, in a core that has the property. -/
def Settled (I : Core β κ σ → Prop) : EStateM.Result Stop (Core β κ σ) α → Prop
  | .ok _ c => I c
  | .error (.fault _) c => I c
  | .error .outOfFuel _ => False

theorem Settled.bind {I : Core β κ σ → Prop} {a : Action β κ σ α} {f : α → Action β κ σ γ}
    {c : Core β κ σ} (h : Settled I (a c)) (hf : ∀ v c', I c' → Settled I (f v c')) :
    Settled I ((a >>= f) c) := by
  rw [bind_apply]
  match a c, h with
  | .ok v c', h => exact hf v c' h
  | .error (.fault f) c', h => exact h

namespace Preserved

variable {I : Core β κ σ → Prop} {c : Core β κ σ}

theorem fromRegisters {e : Except RegisterFile.Fault α} (hc : I c) :
    Settled I (Core.fromRegisters e c) := by
  cases e <;> exact hc

theorem savedSlot (h : Preserved I) (hc : I c) : Settled I (Core.savedSlot c) := by
  simp only [Core.savedSlot, bind_apply, get_apply]
  cases c.status.mode.savedSlot? with
  | some i => exact hc
  | none =>
    cases c.debugger with
    | none => exact hc
    | some notify =>
      have told := h.surroundings c (notify (noSavedStatusMessage c.status.mode) c.surroundings) hc
      exact h.debugger _ (some notify) told

theorem setRegister (h : Preserved I) (i : Nat) (v : Word) (hc : I c) :
    Settled I (Core.setRegister i v c) := by
  simp only [Core.setRegister]
  split
  · exact h.setPc c v hc
  · rename_i hi
    simp only [bind_apply, get_apply]
    cases hf : c.registers.set i v with
    | ok f => exact h.writeRegister c i v f hi hf hc
    | error f => exact hc

theorem mapCoprocessor (h : Preserved I) (n : Nat) (d : κ) (hc : I c) :
    Settled I (Core.mapCoprocessor n d c) := by
  simp only [Core.mapCoprocessor]
  split
  · exact h.coprocessors c _ _ hc
  · exact hc

theorem withCoprocessor (h : Preserved I) (n : Nat) (unit : SystemControl → α × SystemControl)
    (device : κ → α × κ) (hc : I c) : Settled I (Core.withCoprocessor n unit device c) := by
  simp only [Core.withCoprocessor]
  split
  · rw [bind_apply, get_apply]
    dsimp only
    cases (if n = 15 then c.systemControl else none) with
    | some s => exact h.coprocessors c _ c.coprocessors hc
    | none =>
      dsimp only
      cases c.coprocessors[n] with
      | some d => exact h.coprocessors c c.systemControl _ hc
      | none => exact hc
  · exact hc

theorem access (h : Preserved I) (use : β → α × β) (hc : I c) : Settled I (Core.access use c) :=
  h.clock _ (c.clock + c.accessCycles) (h.bus c (use c.bus).2 hc)

theorem restoreHook (h : Preserved I) (n : Byte) (hook : Program κ σ) (hc : I c) :
    I (c.restoreHook n hook) := by
  simp only [Core.restoreHook]
  split
  · exact hc
  · exact h.setHook c n _ hc

variable [Bus β] [Coprocessor κ]

/-- **Every request is answered**, with a reply or a fault, and the answer keeps what every
single thing keeps. -/
theorem answer (h : Preserved I) (r : Request κ σ) (hc : I c) : Settled I (Core.answer r c) := by
  cases r with
  | setPc a => exact h.setPc c a hc
  | branch a kind => exact h.setPc _ a (h.previousPc c _ hc)
  | register i => exact fromRegisters hc
  | setRegister i v => exact h.setRegister i v hc
  | bankedRegister m i => exact fromRegisters hc
  | setStatus s => exact h.setStatus c s hc
  | setMode m => exact h.setStatus c _ hc
  | setInstructionSet i => exact h.setInstructionSet c i hc
  | setIrqDisable b => exact h.setIrqDisable c b hc
  | setFiqDisable b => exact h.setFiqDisable c b hc
  | savedStatus => exact (h.savedSlot hc).bind fun _ _ hc' => hc'
  | setSavedStatus s => exact (h.savedSlot hc).bind fun i c' hc' => h.setSavedAt c' i s hc'
  | attachDebugger notify => exact h.debugger c _ hc
  | mapCoprocessor n d => exact h.mapCoprocessor n d hc
  | enableSystemControl => exact h.coprocessors c _ _ hc
  | readCoprocessor n r =>
    exact h.withCoprocessor n (Coprocessor.read · r) (Coprocessor.read · r) hc
  | writeCoprocessor n r v => exact (h.withCoprocessor n _ _ hc).bind fun _ _ hc' => hc'
  | clearHook n => exact h.setHook c n none hc
  | setLine l b => exact h.setLine c l b hc
  | takeExitRequest => exact h.exitRequested c false hc
  | reset => exact h.reset c hc
  | setClock n => exact h.clock c n hc
  | read16 a => exact h.access (Bus.read16 · a) hc
  | read32 a => exact h.access (Bus.read32 · a) hc
  | write16 a v => exact h.access (fun b => ((), Bus.write16 b a v)) hc
  | write32 a v => exact h.access (fun b => ((), Bus.write32 b a v)) hc
  | _ => exact hc

end Preserved

end Core
end Handheld
