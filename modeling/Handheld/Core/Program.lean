/-
# Programs that drive a core

Two things act on a core from outside while it works: a hook, which stands in for a software
interrupt's handler, and a stepper, which executes one instruction at a time.  Both are
programs: trees that make one request of the core at a time, go on with its reply, and end
with the number of cycles they took.

`κ` is the type of the coprocessors that a program may install, `σ` that of the surroundings:
whatever the programs keep between their calls, and what a debugger is told.  A program sees
the surroundings only through `consult` and `update`.
-/
import Handheld.Core.Exception
import Handheld.Core.Lines
import Handheld.Core.SystemControl

namespace Handheld

/-- The revision of the architecture, in order of age. -/
inductive Revision where
  | v4 | v5
  deriving DecidableEq

namespace Revision

def number : Revision → Nat
  | v4 => 4
  | v5 => 5

/-- `a` is `b` or older. -/
def upTo (a b : Revision) : Bool := a.number ≤ b.number

end Revision

/-- Why the flow of a program changes. -/
inductive BranchKind where
  | jump | call | ret | interrupt
  deriving DecidableEq

/-- One thing to ask of a core. -/
inductive Request (κ σ : Type) where
  | pc
  | previousPc
  | setPc (address : Word)
  | branch (address : Word) (kind : BranchKind)
  | register (index : Nat)
  | setRegister (index : Nat) (value : Word)
  | bankedRegister (mode : Mode) (index : Nat)
  | status
  | setStatus (value : Status)
  | setMode (mode : Mode)
  | setInstructionSet (set : InstructionSet)
  | setIrqDisable (value : Bool)
  | setFiqDisable (value : Bool)
  | savedStatus
  | setSavedStatus (value : Status)
  | bankedStatus (mode : Mode)
  | attachDebugger (notify : String → σ → σ)
  | mapCoprocessor (number : Nat) (device : κ)
  | enableSystemControl
  | systemControl
  | readCoprocessor (number : Nat) (register : CoprocessorRegister)
  | writeCoprocessor (number : Nat) (register : CoprocessorRegister) (value : Word)
  | clearHook (number : Byte)
  | setLine (line : Lines) (asserted : Bool)
  | lines
  | takeExitRequest
  | reset
  | clock
  | setClock (value : Int)
  | target
  | accessCycles
  | revision
  | read16 (address : Word)
  | read32 (address : Word)
  | write16 (address : Word) (value : Half)
  | write32 (address : Word) (value : Word)

/-- What comes back for a request. -/
@[reducible] def Request.Reply {κ σ : Type} : Request κ σ → Type
  | pc | previousPc | register _ | bankedRegister _ _ | read32 _ => Word
  | status | savedStatus => Status
  | bankedStatus _ => Option Status
  | enableSystemControl => SystemControl
  | systemControl => Option SystemControl
  | readCoprocessor _ _ => Option Word
  | writeCoprocessor _ _ _ | takeExitRequest => Bool
  | lines => Lines
  | clock | target | accessCycles => Int
  | revision => Revision
  | read16 _ => Half
  | setPc _ | branch _ _ | setRegister _ _ | setStatus _ | setMode _ | setInstructionSet _
  | setIrqDisable _ | setFiqDisable _ | setSavedStatus _ | attachDebugger _ | mapCoprocessor _ _
  | clearHook _ | setLine _ _ | reset | setClock _ | write16 _ _ | write32 _ _ => Unit

/-- A hook or a stepper. -/
inductive Program (κ σ : Type) where
  /-- Ends, having taken so many cycles. -/
  | done (cycles : Int)
  | ask (request : Request κ σ) (next : request.Reply → Program κ σ)
  /-- Makes `hook` stand in for the software interrupt `number`. -/
  | install (number : Byte) (hook : Program κ σ) (next : Program κ σ)
  | raise (exception : Exception) (next : Program κ σ)
  /-- Runs `stepper` until the clock reaches `limit`. -/
  | run (limit : Int) (stepper : Program κ σ) (next : Program κ σ)
  | consult (next : σ → Program κ σ)
  | update (change : σ → σ) (next : Program κ σ)

instance {κ σ : Type} : Inhabited (Program κ σ) := ⟨.done 0⟩

end Handheld
