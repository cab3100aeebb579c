/-
# The state of a core

One core: its registers and status words, the clock, the external lines, the bus it is
attached to, and the tables that the surroundings plug into.  The operations of this module
always succeed and run no program; `Execution` adds those that can fail or that do.

`pc` is the address of the next instruction.  Exceptions form their return address from it, so
that after a software interrupt it already points past the interrupting instruction.
-/
import Handheld.Core.Program
import Handheld.Core.RegisterFile
import Handheld.Memory.Bus

namespace Handheld

structure Core (β κ σ : Type) where
  registers : RegisterFile
  status : Status
  saved : Vector Status 5
  clock : Int
  revision : Revision
  bus : β
  pc : Word
  previousPc : Word
  systemControl : Option SystemControl
  coprocessors : Vector (Option κ) 16
  lines : Lines
  hooks : Vector (Option (Program κ σ)) 256
  /-- What one access to the bus costs. -/
  accessCycles : Int
  /-- The clock at which the innermost run stops. -/
  target : Int
  /-- A line was newly asserted. -/
  exitRequested : Bool
  debugger : Option (String → σ → σ)
  /-- What lies outside the core. -/
  surroundings : σ

namespace Core

variable {β κ σ : Type}

/-- A core attached to `bus`, in Supervisor mode with everything else at zero. -/
def new [Bus β] (revision : Revision) (bus : β) (surroundings : σ) : Core β κ σ where
  registers := .new .supervisor
  status := .ofMode .supervisor
  saved := Vector.replicate 5 .zeroed
  clock := 0
  revision := revision
  bus := bus
  pc := 0
  previousPc := 0
  systemControl := none
  coprocessors := Vector.replicate 16 none
  lines := .none
  hooks := Vector.replicate 256 none
  accessCycles := (Bus.waitStates bus).toNat + 1
  target := 0
  exitRequested := false
  debugger := none
  surroundings := surroundings

/-! ## 1. Program counter and status -/

def setPc (c : Core β κ σ) (a : Word) : Core β κ σ :=
  { c with registers := c.registers.setPc a, pc := a }

/-- Moves execution to `a` and remembers where it came from. -/
def branch (c : Core β κ σ) (a : Word) (_kind : BranchKind) : Core β κ σ :=
  { c with previousPc := c.pc }.setPc a

/-- Replaces the whole status word and shows the registers of its mode. -/
def setStatus (c : Core β κ σ) (s : Status) : Core β κ σ :=
  { c with status := s, registers := c.registers.retarget s.mode }

def setMode (c : Core β κ σ) (m : Mode) : Core β κ σ := c.setStatus (c.status.setMode m)

def setInstructionSet (c : Core β κ σ) (i : InstructionSet) : Core β κ σ :=
  { c with status := c.status.setInstructionSet i }

def setIrqDisable (c : Core β κ σ) (b : Bool) : Core β κ σ :=
  { c with status := c.status.setFlag .irqDisable b }

def setFiqDisable (c : Core β κ σ) (b : Bool) : Core β κ σ :=
  { c with status := c.status.setFlag .fiqDisable b }

/-- The saved status word in a slot. -/
def savedAt (c : Core β κ σ) (i : Fin 5) : Status := c.saved[i]

def setSavedAt (c : Core β κ σ) (i : Fin 5) (s : Status) : Core β κ σ :=
  { c with saved := c.saved.set i s }

/-- The saved status word of a mode that has one. -/
def bankedStatus (c : Core β κ σ) (m : Mode) : Option Status := m.savedSlot?.map c.savedAt

/-- Keeps `s` as the saved status word of `m`, if `m` has one. -/
def saveStatus (c : Core β κ σ) (m : Mode) (s : Status) : Core β κ σ :=
  match m.savedSlot? with
  | some i => c.setSavedAt i s
  | none => c

/-- Puts a return address into the link register of `m`. -/
def setLink (c : Core β κ σ) (m : Mode) (a : Word) : Core β κ σ :=
  { c with registers := c.registers.setCell m RegisterFile.linkRegister a }

/-! ## 2. Clock and lines -/

def advance (c : Core β κ σ) (cycles : Int) : Core β κ σ := { c with clock := c.clock + cycles }

/-- Asserting a line that was not set asks the running program to leave its loop; asserting an
interrupt line also ends a halt, whether or not the interrupt is enabled. -/
def setLine (c : Core β κ σ) (line : Lines) (asserted : Bool) : Core β κ σ :=
  if asserted then
    let lines := c.lines.insert line
    { c with
      exitRequested := c.exitRequested || !c.lines.contains line
      lines := if line.intersects .interrupts then lines.remove .halt else lines }
  else { c with lines := c.lines.remove line }

/-! ## 3. Coprocessors and hooks -/

/-- Puts a fresh system control unit into slot 15. -/
def enableSystemControl (c : Core β κ σ) : Core β κ σ :=
  { c with coprocessors := c.coprocessors.set 15 none, systemControl := some .initial }

def hook? (c : Core β κ σ) (n : Byte) : Option (Program κ σ) := c.hooks[n.toNat]

def setHook (c : Core β κ σ) (n : Byte) (hook : Option (Program κ σ)) : Core β κ σ :=
  { c with hooks := c.hooks.set n.toNat hook }

/-- Puts a hook back into its slot, unless the slot was filled in the meantime. -/
def restoreHook (c : Core β κ σ) (n : Byte) (hook : Program κ σ) : Core β κ σ :=
  match c.hook? n with
  | some _ => c
  | none => c.setHook n (some hook)

/-! ## 4. Exceptions -/

/-- Where the vector table starts. -/
def vectorBase (c : Core β κ σ) : Word :=
  match c.systemControl with
  | some s => s.exceptionVector
  | none => 0

/-- What an exception raised now would leave in the link register. -/
def returnAddress (c : Core β κ σ) (e : Exception) : Word :=
  c.pc + e.returnOffset c.status.instructionSet

/-- The status word that an exception starts its handler with. -/
def entryStatus (s : Status) (e : Exception) : Status :=
  let s := ((s.setInstructionSet .arm).setMode e.target).setFlag .irqDisable true
  if e.disablesFiq then s.setFlag .fiqDisable true else s

/-- Cycles taken to enter an exception handler. -/
def entryCycles : Int := 3

/-- Enters the handler of `e`: the old status word and the return address go to the mode that
is entered. -/
def enter (c : Core β κ σ) (e : Exception) : Core β κ σ :=
  let entered := c.setStatus (entryStatus c.status e)
  let kept := entered.saveStatus e.target c.status
  let linked := kept.setLink e.target (c.returnAddress e)
  (linked.branch (c.vectorBase + e.vectorOffset) .interrupt).advance entryCycles

def reset (c : Core β κ σ) : Core β κ σ :=
  { c with pc := 0, previousPc := 0, clock := 0 }.enter .reset

/-- The interrupt that is asserted and enabled; the fast one comes first. -/
def pendingInterrupt? (c : Core β κ σ) : Option Exception :=
  if c.lines.contains .fiq && !c.status.fiqDisable then some .fiq
  else if c.lines.contains .irq && !c.status.irqDisable then some .irq
  else none

def serviceInterrupts (c : Core β κ σ) : Core β κ σ :=
  match c.pendingInterrupt? with
  | some e => c.enter e
  | none => c

end Core
end Handheld
