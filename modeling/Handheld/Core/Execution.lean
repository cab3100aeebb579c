/-
# Execution

How a core answers requests, runs programs and raises exceptions.  An action ends with a
value, with a fault, or out of fuel; after a fault the core is left as the fault found it.

Fuel bounds only what could go on for ever: it is spent on entering a hook and on each round
of a run.  A program itself is a finite tree.
-/
import Handheld.Core.State

namespace Handheld
namespace Core

/-- What a core refuses to do. -/
inductive Fault where
  | registers (fault : RegisterFile.Fault)
  | noSavedStatus (mode : Mode)
  | noCoprocessor (number : Nat)
  deriving DecidableEq

def noSavedStatusMessage (m : Mode) : String :=
  "access to spsr forbidden in non-privileged mode: " ++ m.name

def Fault.message : Fault → String
  | registers f => f.message
  | noSavedStatus m => noSavedStatusMessage m
  | noCoprocessor n => "Invalid coprocessor number: " ++ Numeral.decimal n

/-- Why an action ends without a value. -/
inductive Stop where
  | fault (fault : Fault)
  | outOfFuel
  deriving DecidableEq

abbrev Action (β κ σ α : Type) := EStateM Stop (Core β κ σ) α

variable {β κ σ : Type}

/-! ## 1. Answering requests -/

/-- Passes on the answer of the register file. -/
def fromRegisters {α : Type} (e : Except RegisterFile.Fault α) : Action β κ σ α :=
  MonadExcept.ofExcept (e.mapError fun f => .fault (.registers f))

/-- The slot behind the current mode's saved status word.  In a mode without one the access is
a breakpoint: fatal without a debugger, and otherwise the first slot is used. -/
def savedSlot : Action β κ σ (Fin 5) := do
  let c ← get
  let m := c.status.mode
  match m.savedSlot? with
  | some i => return i
  | none =>
    match c.debugger with
    | none => throw (.fault (.noSavedStatus m))
    | some notify =>
      set { c with surroundings := notify (noSavedStatusMessage m) c.surroundings }
      return Mode.straySlot

def savedStatus : Action β κ σ Status := do
  let i ← savedSlot
  return (← get).savedAt i

def setSavedStatus (s : Status) : Action β κ σ Unit := do
  let i ← savedSlot
  modify (·.setSavedAt i s)

def setRegister (index : Nat) (v : Word) : Action β κ σ Unit := do
  if index = 15 then modify (·.setPc v)
  else
    let registers ← fromRegisters ((← get).registers.set index v)
    modify fun c => { c with registers }

def mapCoprocessor (number : Nat) (device : κ) : Action β κ σ Unit := do
  if h : number < 16 then
    modify fun c =>
      { c with
        systemControl := if number = 15 then none else c.systemControl
        coprocessors := c.coprocessors.set number (some device) }
  else throw (.fault (.noCoprocessor number))

/-- The device in a slot; the system control unit hides whatever else is in slot 15. -/
def withCoprocessor {α : Type} (number : Nat) (unit : SystemControl → α × SystemControl)
    (device : κ → α × κ) : Action β κ σ (Option α) := do
  if h : number < 16 then
    let c ← get
    match (if number = 15 then c.systemControl else none) with
    | some s =>
      let (a, s) := unit s
      set { c with systemControl := some s }
      return some a
    | none =>
      match c.coprocessors[number] with
      | some d =>
        let (a, d) := device d
        set { c with coprocessors := c.coprocessors.set number (some d) }
        return some a
      | none => return none
  else throw (.fault (.noCoprocessor number))

/-- An access to the bus, at its price. -/
def access {α : Type} (use : β → α × β) : Action β κ σ α :=
  modifyGet fun c =>
    let (a, bus) := use c.bus
    (a, { c with bus, clock := c.clock + c.accessCycles })

/-- The core's answer to a request. -/
def answer [Bus β] [Coprocessor κ] : (r : Request κ σ) → Action β κ σ r.Reply
  | .pc => return (← get).pc
  | .previousPc => return (← get).previousPc
  | .setPc a => modify (·.setPc a)
  | .branch a kind => modify (·.branch a kind)
  | .register i => do fromRegisters ((← get).registers.get i)
  | .setRegister i v => setRegister i v
  | .bankedRegister m i => do fromRegisters ((← get).registers.getBanked m i)
  | .status => return (← get).status
  | .setStatus s => modify (·.setStatus s)
  | .setMode m => modify (·.setMode m)
  | .setInstructionSet i => modify (·.setInstructionSet i)
  | .setIrqDisable b => modify (·.setIrqDisable b)
  | .setFiqDisable b => modify (·.setFiqDisable b)
  | .savedStatus => savedStatus
  | .setSavedStatus s => setSavedStatus s
  | .bankedStatus m => return (← get).bankedStatus m
  | .attachDebugger notify => modify fun c => { c with debugger := some notify }
  | .mapCoprocessor n d => mapCoprocessor n d
  | .enableSystemControl => do
    modify (·.enableSystemControl)
    return .initial
  | .systemControl => return (← get).systemControl
  | .readCoprocessor n r =>
    withCoprocessor n (Coprocessor.read · r) (Coprocessor.read · r)
  | .writeCoprocessor n r v => do
    let reached ← withCoprocessor n (fun s => ((), Coprocessor.write s r v))
      (fun d => ((), Coprocessor.write d r v))
    return reached.isSome
  | .clearHook n => modify (·.setHook n none)
  | .setLine l b => modify (·.setLine l b)
  | .lines => return (← get).lines
  | .takeExitRequest => modifyGet fun c => (c.exitRequested, { c with exitRequested := false })
  | .reset => modify (·.reset)
  | .clock => return (← get).clock
  | .setClock n => modify fun c => { c with clock := n }
  | .target => return (← get).target
  | .accessCycles => return (← get).accessCycles
  | .revision => return (← get).revision
  | .read16 a => access (Bus.read16 · a)
  | .read32 a => access (Bus.read32 · a)
  | .write16 a v => access fun b => ((), Bus.write16 b a v)
  | .write32 a v => access fun b => ((), Bus.write32 b a v)

/-! ## 2. Programs -/

/-- What a program can do beside making requests: entering a hook and going through the rounds
of a run, each with the fuel that is left. -/
structure Nested (β κ σ : Type) where
  hook : Program κ σ → Action β κ σ Int
  rounds : Program κ σ → Action β κ σ Unit

/-- The number of the software interrupt that was just executed, read from the instruction at
no cost. -/
def interruptNumber [Bus β] : Action β κ σ Byte :=
  modifyGet fun c =>
    let (v, bus) := Bus.read16 c.bus (c.returnAddress .softwareInterrupt - 2)
    (Bits.byte v 0, { c with bus })

/-- Raises an exception.  A hook for the software interrupt runs in place of its handler and
out of its slot, where it returns afterwards unless another took its place. -/
def raiseWith [Bus β] (nested : Nested β κ σ) : Exception → Action β κ σ Unit
  | .softwareInterrupt => do
    let n ← interruptNumber
    match (← get).hook? n with
    | some hook =>
      modify (·.setHook n none)
      let cycles ← nested.hook hook
      modify fun c => (c.restoreHook n hook).advance (cycles + entryCycles)
    | none => modify (·.enter .softwareInterrupt)
  | e => modify (·.enter e)

/-- Carries a program out and gives the cycles it took. -/
def carryOut [Bus β] [Coprocessor κ] (nested : Nested β κ σ) : Program κ σ → Action β κ σ Int
  | .done cycles => return cycles
  | .ask request next => do
    let reply ← answer request
    carryOut nested (next reply)
  | .install n hook next => do
    modify (·.setHook n (some hook))
    carryOut nested next
  | .raise e next => do
    raiseWith nested e
    carryOut nested next
  | .run limit stepper next => do
    modify fun c => { c with target := limit }
    nested.rounds stepper
    carryOut nested next
  | .consult next => do
    carryOut nested (next (← get).surroundings)
  | .update change next => do
    modify fun c => { c with surroundings := change c.surroundings }
    carryOut nested next

mutual

def enterHook [Bus β] [Coprocessor κ] : Nat → Program κ σ → Action β κ σ Int
  | 0, _ => throw .outOfFuel
  | fuel + 1, hook => carryOut ⟨enterHook fuel, rounds fuel⟩ hook

/-- The rounds of a run: before each step the lines are looked at, and a halted core lets the
time pass at once. -/
def rounds [Bus β] [Coprocessor κ] : Nat → Program κ σ → Action β κ σ Unit
  | 0, _ => throw .outOfFuel
  | fuel + 1, stepper => do
    let c ← get
    if c.clock < c.target then
      let c := { c with exitRequested := false }
      if c.lines.contains .halt then set { c with clock := c.target }
      else
        set c.serviceInterrupts
        let cycles ← carryOut ⟨enterHook fuel, rounds fuel⟩ stepper
        modify (·.advance cycles)
        rounds fuel stepper

end

/-- Carries a program out with so much fuel. -/
def perform [Bus β] [Coprocessor κ] (fuel : Nat) (p : Program κ σ) : Action β κ σ Int :=
  carryOut ⟨enterHook fuel, rounds fuel⟩ p

def raise [Bus β] [Coprocessor κ] (fuel : Nat) (e : Exception) : Action β κ σ Unit :=
  raiseWith ⟨enterHook fuel, rounds fuel⟩ e

/-- Runs `stepper` until the clock reaches `limit`. -/
def run [Bus β] [Coprocessor κ] (fuel : Nat) (limit : Int) (stepper : Program κ σ) :
    Action β κ σ Unit := do
  modify fun c => { c with target := limit }
  rounds fuel stepper

end Core
end Handheld
