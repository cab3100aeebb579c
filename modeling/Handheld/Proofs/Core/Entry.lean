/-
# Entering an exception

What `Core.enter` leaves in each part of a core.  The status word and the return address go to
the mode that is entered and to no other; lines, hooks, coprocessors and the bus stay.

* `mode_entryStatus`, `irqDisable_entryStatus`, `fiqDisable_entryStatus`: the status word a
  handler starts with;
* `enter_eq`, `bankedStatus_enter`, `cell_enter`: what becomes of the rest.
-/
import Handheld.Core.State
import Handheld.Proofs.Core.Cells

namespace Handheld

/-! ## 1. Mode bits and flags -/

namespace Status

theorem Flag.five_le_position (f : Flag) : 5 ≤ f.position := by cases f <;> decide

/-- The flags lie above the mode bits. -/
theorem modeCode_setFlag (s : Status) (f : Flag) (b : Bool) :
    (s.setFlag f b).modeCode = s.modeCode := by
  have hf := f.five_le_position
  have low : ∀ i < 32, (0b11111 : Word).getLsbD i = decide (i < 5) := by decide
  apply BitVec.eq_of_getLsbD_eq
  intro i hi
  simp only [modeCode, BitVec.getLsbD_and, low i hi]
  rcases Nat.lt_or_ge i 5 with h | h
  · have hb := Bits.get_set s.raw (i := f.position) b hi
    rw [if_neg (by omega)] at hb
    rw [show (s.setFlag f b).raw.getLsbD i = s.raw.getLsbD i from hb]
  · simp [Nat.not_lt.mpr h]

@[simp] theorem mode_setFlag (s : Status) (f : Flag) (b : Bool) :
    (s.setFlag f b).mode = s.mode := by
  rw [mode, modeCode_setFlag, ← mode]

theorem get_setFlag (s : Status) (f : Flag) (b : Bool) {i : Nat} (hi : i < 32) :
    Bits.get (s.setFlag f b).raw i = if i = f.position then b else Bits.get s.raw i :=
  Bits.get_set _ _ hi

/-- The mode is in the five low bits. -/
theorem get_setMode (s : Status) (m : Mode) {i : Nat} (hi : i < 32) :
    Bits.get (s.setMode m).raw i = if i < 5 then Bits.get m.code i else Bits.get s.raw i := by
  have mask : ∀ i < 32, (~~~0b11111#32).getLsbD i = decide (5 ≤ i) := by decide
  have code : ∀ i < 32, 5 ≤ i → m.code.getLsbD i = false := by cases m <;> decide
  simp only [Bits.get, setMode, BitVec.getLsbD_or, BitVec.getLsbD_and, mask i hi]
  rcases Nat.lt_or_ge i 5 with low | high
  · simp [low, Nat.not_le.mpr low]
  · simp [high, Nat.not_lt.mpr high, code i hi high]

/-- Setting the mode leaves the flags alone. -/
@[simp] theorem flag_setMode (s : Status) (m : Mode) (f : Flag) :
    (s.setMode m).flag f = s.flag f := by
  have hf := f.five_le_position
  rw [flag, get_setMode s m f.position_lt, if_neg (by omega)]
  rfl

end Status

namespace Core

variable {β κ σ : Type}

/-! ## 2. The status word of a handler -/

@[simp] theorem mode_entryStatus (s : Status) (e : Exception) :
    (entryStatus s e).mode = e.target := by
  simp only [entryStatus]
  split <;> simp

/-- Every handler starts with interrupts disabled. -/
@[simp] theorem irqDisable_entryStatus (s : Status) (e : Exception) :
    (entryStatus s e).irqDisable = true := by
  simp only [entryStatus, Status.irqDisable]
  split <;> simp [Status.flag_setFlag]

/-- Fast interrupts stay as they were unless the exception disables them. -/
@[simp] theorem fiqDisable_entryStatus (s : Status) (e : Exception) :
    (entryStatus s e).fiqDisable = (e.disablesFiq || s.fiqDisable) := by
  simp only [entryStatus, Status.fiqDisable, Status.setInstructionSet]
  split <;> rename_i h <;> simp [Status.flag_setFlag, h]

/-! ## 3. The parts of a core after entry -/

theorem bankedStatus_congr {c c' : Core β κ σ} (h : c'.saved = c.saved) (m : Mode) :
    c'.bankedStatus m = c.bankedStatus m := by
  have slots : c'.savedAt = c.savedAt := by
    funext i
    rw [savedAt, savedAt, h]
  rw [bankedStatus, bankedStatus, slots]

/-- The mode reads back what was saved for it, and the other modes what they had. -/
theorem bankedStatus_saveStatus (c : Core β κ σ) (m n : Mode) (s : Status) :
    (c.saveStatus m s).bankedStatus n =
      if n = m ∧ m.savedSlot?.isSome then some s else c.bankedStatus n := by
  cases hm : m.savedSlot? with
  | none => simp [saveStatus, hm]
  | some i =>
    simp only [saveStatus, hm, bankedStatus, Option.isSome_some, and_true]
    cases hn : n.savedSlot? with
    | none =>
      have hne : n ≠ m := fun h => by rw [h, hm] at hn; cases hn
      simp [hne]
    | some j =>
      simp only [Option.map_some, savedAt, setSavedAt]
      by_cases h : n = m
      · have hij : i = j := Option.some.inj (hm.symm.trans (h ▸ hn))
        simp [h, hij]
      · have hij : i ≠ j := fun hij => h (Mode.savedSlot?_inj hn (hij ▸ hm))
        simp [h, Fin.val_ne_of_ne hij]

/-- What `enter` makes of the registers: the mode that is entered gets its map and the return
address. -/
def entryRegisters (c : Core β κ σ) (e : Exception) : RegisterFile :=
  ((c.registers.retarget e.target).setCell e.target RegisterFile.linkRegister
    (c.returnAddress e)).setPc (c.vectorBase + e.vectorOffset)

/-- Entering an exception, part by part. -/
theorem enter_eq (c : Core β κ σ) (e : Exception) :
    c.enter e =
      { c with
        registers := c.entryRegisters e
        status := entryStatus c.status e
        saved := (c.saveStatus e.target c.status).saved
        pc := c.vectorBase + e.vectorOffset
        previousPc := c.pc
        clock := c.clock + entryCycles } := by
  obtain ⟨i, hi⟩ := Option.isSome_iff_exists.mp e.target_savedSlot?
  simp only [enter, saveStatus, hi, setStatus, mode_entryStatus, setSavedAt, setLink, branch,
    setPc, advance, entryRegisters]

theorem bankedStatus_enter (c : Core β κ σ) (e : Exception) (m : Mode) :
    (c.enter e).bankedStatus m = if m = e.target then some c.status else c.bankedStatus m := by
  rw [enter_eq]
  show (c.saveStatus e.target c.status).bankedStatus m = _
  simp [bankedStatus_saveStatus, e.target_savedSlot?]

/-- Only the link register of the mode that is entered is written. -/
theorem cell_enter (c : Core β κ σ) (e : Exception) (m : Mode) {r : Fin 16} (hr : r ≠ 15) :
    (c.enter e).registers.cell m r =
      if RegisterFile.cellOf e.target RegisterFile.linkRegister = RegisterFile.cellOf m r then
        c.returnAddress e
      else c.registers.cell m r := by
  rw [enter_eq]
  simp only [entryRegisters, RegisterFile.cell_setPc _ m hr, RegisterFile.cell_setCell]
  rfl

end Core
end Handheld
