/-
# Raising an exception

What raising an exception does to a core in which no hook stands in for the handler: every bit
of the status word, every cell of the register file, and the saved status word of every mode,
and nothing else.  The old status word and the return address are written after the mode is
changed, through the same accessors that a program uses; these can refuse in general, and
`enterByWrites_eq` says that they do not here.

* `get_entryStatus`, `cells_enter`: the status word and the registers, bit by bit and cell by
  cell;
* `raise_enters`: the effect and the frame, and a reset as the same thing from address 0.
-/
import Handheld.Memory.Ram
import Handheld.Proofs.Core.Coherence

namespace Handheld
namespace Core

variable {β κ σ : Type}

/-! ## 1. The status word, bit by bit -/

/-- The status word of a handler has the mode of the handler, no T bit and the I bit; it has the
F bit if the exception sets it or it was set; and all other bits are those of the old one. -/
theorem get_entryStatus (s : Status) (e : Exception) {i : Nat} (hi : i < 32) :
    Bits.get (entryStatus s e).raw i =
      if i < 5 then Bits.get e.target.code i
      else if i = 5 then false
      else if i = 6 then e.disablesFiq || Bits.get s.raw 6
      else if i = 7 then true
      else Bits.get s.raw i := by
  have thumb : Status.Flag.thumb.position = 5 := rfl
  have fiq : Status.Flag.fiqDisable.position = 6 := rfl
  have irq : Status.Flag.irqDisable.position = 7 := rfl
  have masked : ∀ i < 32, Bits.get
      ((((s.setInstructionSet .arm).setMode e.target).setFlag .irqDisable true)).raw i =
        if i = 7 then true else if i < 5 then Bits.get e.target.code i
        else if i = 5 then false else Bits.get s.raw i := by
    intro i hi
    rw [Status.get_setFlag _ _ _ hi, Status.get_setMode _ _ hi, Status.setInstructionSet,
      Status.get_setFlag _ _ _ hi, irq, thumb]
    rfl
  rw [entryStatus]
  by_cases sets : e.disablesFiq
  · simp only [sets, if_true, Bool.true_or]
    rw [Status.get_setFlag _ _ _ hi, fiq, masked i hi]
    grind
  · simp only [sets, Bool.false_eq_true, if_false, Bool.false_or]
    rw [masked i hi]
    grind

/-! ## 2. The registers, cell by cell -/

theorem cells_enter (c : Core β κ σ) (e : Exception) {k : Nat} (hk : k < 31) :
    (c.enter e).registers.cells[k] =
      if 15 = k then c.vectorBase + e.vectorOffset
      else if RegisterFile.cellOf e.target RegisterFile.linkRegister = k then c.returnAddress e
      else c.registers.cells[k] := by
  rw [enter_eq]
  simp only [entryRegisters, RegisterFile.setPc, RegisterFile.setCell, RegisterFile.retarget,
    Vector.getElem_set]

/-! ## 3. Entering write by write -/

/-- The status word of a handler, part by part. -/
def maskByWrites (e : Exception) : Action β κ σ Unit := do
  modify (·.setInstructionSet .arm)
  modify (·.setMode e.target)
  modify (·.setIrqDisable true)
  if e.disablesFiq then modify (·.setFiqDisable true)

/-- Entering a handler as a sequence of writes.  The saved status word is that of the mode in
force, which may have none; the link register is the visible one. -/
def enterByWrites (e : Exception) : Action β κ σ Unit := do
  let c ← get
  maskByWrites e
  setSavedStatus c.status
  setRegister RegisterFile.linkRegister (c.returnAddress e)
  modify (·.branch (c.vectorBase + e.vectorOffset) .interrupt)
  modify (·.advance entryCycles)

/-- In a mode that keeps a status word it can be written. -/
theorem setSavedStatus_of_slot {c : Core β κ σ} {i : Fin 5}
    (slot : c.status.mode.savedSlot? = some i) (s : Status) :
    setSavedStatus s c = .ok () (c.setSavedAt i s) := by
  simp only [setSavedStatus, savedSlot, bind_apply, get_apply, slot]
  rfl

/-- The visible link register is the one of the mode that is shown. -/
theorem setRegister_link {c : Core β κ σ} {m : Mode} (shown : c.registers.Shows m) (a : Word) :
    setRegister RegisterFile.linkRegister a c = .ok () (c.setLink m a) := by
  have other : ¬(RegisterFile.linkRegister : Nat) = 15 := by decide
  have stored : c.registers.set RegisterFile.linkRegister a =
      .ok (c.registers.setCell m RegisterFile.linkRegister a) :=
    shown.set RegisterFile.linkRegister.isLt a
  simp only [setRegister, other, if_false, bind_apply, get_apply, stored]
  rfl

theorem maskByWrites_eq (c : Core β κ σ) (e : Exception) :
    maskByWrites e c = .ok () (c.setStatus (entryStatus c.status e)) := by
  rw [setStatus, mode_entryStatus]
  simp only [maskByWrites, entryStatus, bind_apply, modify_apply, setInstructionSet, setMode,
    setStatus, setIrqDisable, Status.mode_setMode]
  cases e.disablesFiq <;> rfl

/-- The mode that is entered keeps a status word and shows its link register, so that no write
is refused and no debugger told. -/
theorem enterByWrites_eq (c : Core β κ σ) (e : Exception) :
    enterByWrites e c = .ok () (c.enter e) := by
  obtain ⟨i, slot⟩ := Option.isSome_iff_exists.mp e.target_savedSlot?
  let masked := c.setStatus (entryStatus c.status e)
  have mode : masked.status.mode = e.target := mode_entryStatus c.status e
  have shown : (masked.setSavedAt i c.status).registers.Shows e.target :=
    mode ▸ RegisterFile.shows_retarget c.registers masked.status.mode
  have kept : setSavedStatus c.status masked = .ok () (masked.setSavedAt i c.status) :=
    setSavedStatus_of_slot (mode.symm ▸ slot) _
  simp only [enterByWrites, bind_apply, get_apply, maskByWrites_eq]
  rw [kept]
  simp only [setRegister_link shown, modify_apply]
  rw [enter, saveStatus, slot]

/-! ## 4. The whole effect -/

/-- The core `c'` is what the exception `e` makes of `c`. -/
structure Entered (e : Exception) (c c' : Core β κ σ) : Prop where
  modeBits : ∀ i < 5, Bits.get c'.status.raw i = Bits.get e.target.code i
  thumbBit : Bits.get c'.status.raw 5 = false
  fiqBit : Bits.get c'.status.raw 6 =
    if e = .reset ∨ e = .fiq then true else Bits.get c.status.raw 6
  irqBit : Bits.get c'.status.raw 7 = true
  otherBits : ∀ i, 8 ≤ i → i < 32 → Bits.get c'.status.raw i = Bits.get c.status.raw i
  shows : c'.registers.Shows e.target
  link : c'.registers.cell e.target 14 = c.pc + e.returnOffset c.status.instructionSet
  pc : c'.pc = c.vectorBase + 4 * e.number
  counter : ∀ m, c'.registers.cell m 15 = c'.pc
  otherCells : ∀ (k : Nat) (_ : k < 31), k ≠ 15 → k ≠ RegisterFile.cellOf e.target 14 →
    c'.registers.cells[k] = c.registers.cells[k]
  saved : c'.bankedStatus e.target = some c.status
  otherSaved : ∀ m, m ≠ e.target → c'.bankedStatus m = c.bankedStatus m
  previousPc : c'.previousPc = c.pc
  clock : c'.clock = c.clock + 3
  /-- Everything that is not named above. -/
  rest : c' =
    { c with
      status := c'.status
      registers := c'.registers
      saved := c'.saved
      pc := c'.pc
      previousPc := c'.previousPc
      clock := c'.clock }

theorem entered_enter (c : Core β κ σ) (e : Exception) : Entered e c (c.enter e) where
  modeBits i hi := by
    rw [enter_eq]
    exact (get_entryStatus _ _ (by omega)).trans (if_pos hi)
  thumbBit := by
    rw [enter_eq]
    exact get_entryStatus _ _ (by decide)
  fiqBit := by
    rw [enter_eq]
    refine (get_entryStatus _ _ (by decide)).trans ?_
    cases e <;> rfl
  irqBit := by
    rw [enter_eq]
    exact get_entryStatus _ _ (by decide)
  otherBits i low high := by
    rw [enter_eq]
    refine (get_entryStatus _ _ high).trans ?_
    rw [if_neg (by omega), if_neg (by omega), if_neg (by omega), if_neg (by omega)]
  shows := by
    rw [enter_eq]
    rfl
  link := (cell_enter c e e.target (by decide)).trans (if_pos rfl)
  pc := by
    rw [enter_eq, BitVec.mul_comm]
    rfl
  counter m := by
    rw [RegisterFile.cell_fifteen]
    exact (coherent_enter c e).pc
  otherCells k hk counter link := by
    rw [cells_enter c e hk, if_neg (Ne.symm counter)]
    exact if_neg (Ne.symm link)
  saved := (bankedStatus_enter c e _).trans (if_pos rfl)
  otherSaved m other := (bankedStatus_enter c e m).trans (if_neg other)
  previousPc := by rw [enter_eq]
  clock := by rw [enter_eq]; rfl
  rest := by rw [enter_eq]

/-- A software interrupt returns to the instruction that comes next. -/
theorem returnAddress_softwareInterrupt (c : Core β κ σ) :
    c.returnAddress .softwareInterrupt = c.pc :=
  BitVec.add_zero c.pc

variable [Bus β] [Coprocessor κ]

/-- **What an exception does.**  If no hook is there for it, every exception enters its handler
without being refused anything: the status word, the saved status word and the link register of
the mode that is entered, the program counter, where it came from and the clock are what
`Entered` says, and nothing else is changed.  A reset does the same to a core whose program
counters and clock have just been set to zero. -/
theorem raise_enters (fuel : Nat) (e : Exception) (c : Core β κ σ)
    (unhooked : e = .softwareInterrupt →
      c.hook? (Bits.byte (Bus.read16 c.bus (c.pc - 2)).1 0) = none)
    (still : e = .softwareInterrupt → (Bus.read16 c.bus (c.pc - 2)).2 = c.bus) :
    (∃ c', raise fuel e c = .ok () c' ∧ enterByWrites e c = .ok () c' ∧ Entered e c c') ∧
      ∃ c', answer .reset c = .ok () c' ∧
        Entered .reset { c with pc := 0, previousPc := 0, clock := 0 } c' := by
  have taken : c.intercept e = (c, none) := by
    cases e with
    | softwareInterrupt =>
      rw [intercept_softwareInterrupt, returnAddress_softwareInterrupt, still rfl, takeHook,
        unhooked rfl]
    | _ => rfl
  refine ⟨⟨c.enter e, ?_, enterByWrites_eq c e, entered_enter c e⟩, ⟨c.reset, rfl,
    entered_enter _ .reset⟩⟩
  rw [raise, raiseWith_apply, taken]

/-- The software interrupt 5 in a Thumb program in System mode, with a hook for number 6 only. -/
theorem raise_enters_for_other_hook :
    ∃ c c' : Core Ram SystemControl Unit, c.status.mode = .system ∧
      c.status.instructionSet = .thumb ∧ raise 0 .softwareInterrupt c = .ok () c' ∧
      c'.bankedStatus .supervisor = some ⟨0xF800003F⟩ ∧ c'.pc = 8 ∧
      Entered .softwareInterrupt c c' := by
  let c : Core Ram SystemControl Unit :=
    ((new .v5 ⟨#[0x05, 0xDF], 0⟩ ()).setStatus ⟨0xF800003F⟩).setPc 2
  let hooked := c.setHook 6 (some (.done 1))
  obtain ⟨⟨c', raised, -, entered⟩, -⟩ := raise_enters 0 .softwareInterrupt hooked
    (fun _ => by decide) (fun _ => rfl)
  exact ⟨hooked, c', by decide, by decide, raised, entered.saved, entered.pc.trans (by decide),
    entered⟩

end Core
end Handheld
