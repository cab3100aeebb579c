/-
# Exceptions

The eight exceptions in the order of the vector table, the mode each one enters, and what is
added to the program counter to form the return address.
-/
import Handheld.Core.Status

namespace Handheld

inductive Exception where
  | reset | undefined | softwareInterrupt | prefetchAbort | dataAbort | addressOverflow
  | irq | fiq
  deriving DecidableEq

namespace Exception

def all : List Exception :=
  [.reset, .undefined, .softwareInterrupt, .prefetchAbort, .dataAbort, .addressOverflow, .irq, .fiq]

/-- The place in the vector table. -/
def number : Exception → Word
  | reset => 0
  | undefined => 1
  | softwareInterrupt => 2
  | prefetchAbort => 3
  | dataAbort => 4
  | addressOverflow => 5
  | irq => 6
  | fiq => 7

/-- The distance of the handler from the vector base; entries are one word long. -/
def vectorOffset (e : Exception) : Word := e.number * 4

def target : Exception → Mode
  | reset | softwareInterrupt | addressOverflow => .supervisor
  | undefined => .undefined
  | prefetchAbort | dataAbort => .abort
  | irq => .irq
  | fiq => .fiq

def returnOffset : Exception → InstructionSet → Word
  | reset, _ | softwareInterrupt, _ => 0
  | undefined, .arm => 4
  | undefined, .thumb => 2
  | prefetchAbort, _ => 4
  | dataAbort, .arm => 8
  | dataAbort, .thumb => 6
  | addressOverflow, .arm => 4
  | addressOverflow, .thumb => 2
  | irq, _ | fiq, _ => 4

/-- Reset and FIQ also mask fast interrupts. -/
def disablesFiq : Exception → Bool
  | reset | fiq => true
  | _ => false

/-- Every exception enters a mode that has a saved status word. -/
theorem target_savedSlot? (e : Exception) : e.target.savedSlot?.isSome := by cases e <;> rfl

end Exception
end Handheld
