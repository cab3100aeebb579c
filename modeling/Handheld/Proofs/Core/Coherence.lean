/-
# The visible registers are those of the mode

Four parts of a core have to agree: the mode bits of the status word, the map of the register
file, the program counter and the cell of register 15.  No operation changes two of them at
once.  `Coherent` says that they agree, and every operation restores it: the single flags lie
above the mode bits, the one store that goes through the map never reaches the cell of
register 15, and entering an exception replaces all four parts whatever they were -- which is
why a reset may clear the program counter on its own first.

* `Coherent.of_reachable`: the parts agree at every moment of every session.
-/
import Handheld.Memory.Ram
import Handheld.Proofs.Core.Entry
import Handheld.Proofs.Core.Moment

namespace Handheld
namespace Core

variable {β κ σ : Type}

/-! ## 1. Coherence and the single operations -/

/-- The map is that of the mode, and register 15 is the program counter. -/
structure Coherent (c : Core β κ σ) : Prop where
  shows : c.registers.Shows c.status.mode
  pc : c.registers.pc = c.pc

theorem coherent_setStatus {c : Core β κ σ} (h : c.registers.pc = c.pc) (s : Status) :
    (c.setStatus s).Coherent := by
  refine ⟨RegisterFile.shows_retarget _ _, ?_⟩
  simpa only [setStatus, RegisterFile.pc_retarget] using h

/-- The flags can be changed behind the back of the register file. -/
theorem Coherent.setFlag {c : Core β κ σ} (h : c.Coherent) (f : Status.Flag) (b : Bool) :
    Coherent { c with status := c.status.setFlag f b } :=
  ⟨by simpa using h.shows, h.pc⟩

theorem Coherent.setCell {c : Core β κ σ} (h : c.Coherent) {m : Mode} {r : Fin 16} (hr : r ≠ 15)
    (v : Word) : Coherent { c with registers := c.registers.setCell m r v } :=
  ⟨RegisterFile.shows_setCell h.shows _ _ _, (RegisterFile.pc_setCell _ _ hr _).trans h.pc⟩

theorem Coherent.setRegister {c : Core β κ σ} (h : c.Coherent) {r : Nat} {v : Word}
    {f : RegisterFile} (hr : r ≠ 15) (hf : c.registers.set r v = .ok f) :
    Coherent { c with registers := f } := by
  rcases Nat.lt_or_ge r 16 with hlt | hge
  · rw [h.shows.set hlt] at hf
    cases hf
    exact h.setCell (fun he => hr (congrArg Fin.val he)) v
  · rw [RegisterFile.set, dif_neg (by omega)] at hf
    cases hf

/-- Setting the program counter settles it for the register file too. -/
theorem coherent_setPc {c : Core β κ σ} (h : c.registers.Shows c.status.mode) (a : Word) :
    (c.setPc a).Coherent :=
  ⟨RegisterFile.shows_setPc h a, RegisterFile.pc_setPc _ a⟩

theorem coherent_branch {c : Core β κ σ} (h : c.registers.Shows c.status.mode) (a : Word)
    (kind : BranchKind) : (c.branch a kind).Coherent :=
  coherent_setPc (c := { c with previousPc := c.pc }) h a

/-- After an exception is entered the parts agree, whatever they were before. -/
theorem coherent_enter (c : Core β κ σ) (e : Exception) : (c.enter e).Coherent := by
  rw [enter_eq]
  constructor
  · show RegisterFile.Shows _ (entryStatus c.status e).mode
    rw [mode_entryStatus]
    rfl
  · exact RegisterFile.pc_setPc _ _

theorem preserved_coherent : Preserved (Coherent (β := β) (κ := κ) (σ := σ)) where
  setPc c a h := coherent_setPc h.shows a
  previousPc c a h := ⟨h.shows, h.pc⟩
  writeRegister c r v f hr hf h := h.setRegister hr hf
  setStatus c s h := coherent_setStatus h.pc s
  setInstructionSet c i h := h.setFlag _ _
  setIrqDisable c b h := h.setFlag _ _
  setFiqDisable c b h := h.setFlag _ _
  setSavedAt c i s h := ⟨h.shows, h.pc⟩
  enter c e _ := coherent_enter c e
  reset c _ := coherent_enter _ _
  setLine c l b h := by
    have keep : ∀ lines exit, Coherent { c with lines := lines, exitRequested := exit } :=
      fun _ _ => ⟨h.shows, h.pc⟩
    rw [setLine]
    split
    · exact keep _ _
    · exact keep _ c.exitRequested
  exitRequested c b h := ⟨h.shows, h.pc⟩
  clock c n h := ⟨h.shows, h.pc⟩
  target c n h := ⟨h.shows, h.pc⟩
  bus c b h := ⟨h.shows, h.pc⟩
  coprocessors c s v h := ⟨h.shows, h.pc⟩
  setHook c n p h := ⟨h.shows, h.pc⟩
  debugger c f h := ⟨h.shows, h.pc⟩
  surroundings c s h := ⟨h.shows, h.pc⟩

/-! ## 2. Sessions -/

theorem coherent_new [Bus β] (revision : Revision) (bus : β) (surroundings : σ) :
    (new revision bus surroundings : Core β κ σ).Coherent := by
  refine ⟨?_, rfl⟩
  show RegisterFile.Shows _ (Status.zeroed.setMode .supervisor).mode
  rw [Status.mode_setMode]
  rfl

variable [Bus β] [Coprocessor κ]

/-- **The parts agree at every moment.** -/
theorem Coherent.of_reachable {x : Moment β κ σ} (hx : Reachable x) : x.core.Coherent :=
  preserved_coherent.of_reachable coherent_new hx

theorem answer_bankedRegister (c : Core β κ σ) (m : Mode) {r : Nat} (hr : r < 16) :
    answer (.bankedRegister m r) c = .ok (c.registers.cell m ⟨r, hr⟩) c := by
  simp only [answer, bind_apply, get_apply, RegisterFile.getBanked, hr, dite_true]
  rfl

theorem Coherent.answer_register {c : Core β κ σ} (h : c.Coherent) {r : Nat} (hr : r < 16) :
    answer (.register r) c = .ok (c.registers.cell c.status.mode ⟨r, hr⟩) c := by
  simp only [answer, bind_apply, get_apply, h.shows.get, RegisterFile.getBanked, hr, dite_true]
  rfl

/-- **The visible registers are those of the mode, and register 15 is the program counter**, at
every moment of every session: between any two requests of a program, inside hooks and
steppers, and after faults. -/
theorem visible_eq_banked {x : Moment β κ σ} (hx : Reachable x) :
    (∀ r < 16, ∃ v, answer (.register r) x.core = .ok v x.core ∧
      answer (.bankedRegister x.core.status.mode r) x.core = .ok v x.core) ∧
    ∀ m, answer (.bankedRegister m 15) x.core = .ok x.core.pc x.core := by
  have h := Coherent.of_reachable hx
  constructor
  · intro r hr
    exact ⟨_, h.answer_register hr, answer_bankedRegister _ _ hr⟩
  · intro m
    rw [answer_bankedRegister _ m (by decide), ← h.pc, ← RegisterFile.cell_fifteen _ m]
    rfl

/-- In a hook that has just gone to the mode for fast interrupts and set its stack pointer. -/
theorem visible_eq_banked_in_hook :
    ∃ x : Moment Ram SystemControl Unit, Reachable x ∧ x.stack.length = 1 ∧
      x.core.status.mode = .fiq ∧
      (∀ r < 16, ∃ v, answer (.register r) x.core = .ok v x.core ∧
        answer (.bankedRegister .fiq r) x.core = .ok v x.core) ∧
      ∀ m, answer (.bankedRegister m 15) x.core = .ok x.core.pc x.core := by
  let hook : Program SystemControl Unit :=
    .ask (.setStatus ⟨0x11⟩) fun _ => .ask (.setRegister 13 7) fun _ => .done 1
  let x : Moment Ram SystemControl Unit := Moment.step^[4]
    (.start (.new .v5 ⟨#[0], 0⟩ ()) (.install 0 hook (.raise .softwareInterrupt (.done 0))))
  have reached : Reachable x := (Reachable.new _ _ _ _).iterate 4
  have mode : x.core.status.mode = .fiq := by decide
  have visible := visible_eq_banked reached
  rw [mode] at visible
  exact ⟨x, reached, by decide, mode, visible⟩

end Core
end Handheld
