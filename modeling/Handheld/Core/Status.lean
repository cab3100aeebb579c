/-
# Program status words

    31 30 29 28 27 26      8  7  6  5  4   0
    N  Z  C  V  Q  reserved   I  F  T  mode

A status word is plain data: the current one and the five saved ones have the same layout.
The accessors below name its parts; a five-bit pattern that is no mode's code reads as
Supervisor.
-/
import Handheld.Core.Mode

namespace Handheld

/-- The instruction set the core decodes, kept in the T bit. -/
inductive InstructionSet where
  | arm | thumb
  deriving DecidableEq

namespace InstructionSet

def bit : InstructionSet → Bool
  | arm => false
  | thumb => true

def ofBit (b : Bool) : InstructionSet := if b then thumb else arm

def name : InstructionSet → String
  | arm => "Arm"
  | thumb => "Thumb"

def all : List InstructionSet := [thumb, arm]

def ofName? (s : String) : Option InstructionSet := all.find? (·.name = s)

end InstructionSet

structure Status where
  raw : Word
  deriving DecidableEq

namespace Status

def zeroed : Status := ⟨0⟩

/-! ## 1. Single-bit parts -/

inductive Flag where
  | sign | zero | carry | overflow | sticky | irqDisable | fiqDisable | thumb
  deriving DecidableEq

/-- The position of a flag in the word. -/
def Flag.position : Flag → Nat
  | sign => 31
  | zero => 30
  | carry => 29
  | overflow => 28
  | sticky => 27
  | irqDisable => 7
  | fiqDisable => 6
  | thumb => 5

theorem Flag.position_lt (f : Flag) : f.position < 32 := by cases f <;> decide

theorem Flag.position_inj {f g : Flag} (h : f.position = g.position) : f = g := by
  cases f <;> cases g <;> first | rfl | (exact absurd h (by decide))

def flag (s : Status) (f : Flag) : Bool := Bits.get s.raw f.position

def setFlag (s : Status) (f : Flag) (b : Bool) : Status := ⟨Bits.set s.raw f.position b⟩

/-- A flag that was set is read back, and the other flags stay. -/
theorem flag_setFlag (s : Status) (f g : Flag) (b : Bool) :
    (s.setFlag f b).flag g = if g = f then b else s.flag g := by
  rw [flag, setFlag, Bits.get_set _ _ g.position_lt]
  by_cases h : g = f
  · simp [h]
  · have hp : g.position ≠ f.position := fun e => h (Flag.position_inj e)
    simp [h, hp, flag]

def irqDisable (s : Status) : Bool := s.flag .irqDisable

def fiqDisable (s : Status) : Bool := s.flag .fiqDisable

/-! ## 2. Instruction set and mode -/

def instructionSet (s : Status) : InstructionSet := .ofBit (s.flag .thumb)

def setInstructionSet (s : Status) (i : InstructionSet) : Status := s.setFlag .thumb i.bit

/-- The five mode bits, in a word of their own. -/
def modeCode (s : Status) : Word := s.raw &&& 0b11111

def mode (s : Status) : Mode := (Mode.ofCode? s.modeCode).getD .supervisor

def setMode (s : Status) (m : Mode) : Status := ⟨s.raw &&& ~~~0b11111#32 ||| m.code⟩

/-- A word with the mode bits of `m` and nothing else. -/
def ofMode (m : Mode) : Status := zeroed.setMode m

theorem modeCode_setMode (s : Status) (m : Mode) : (s.setMode m).modeCode = m.code := by
  obtain ⟨raw⟩ := s
  have h : m.code &&& 0b11111#32 = m.code := by cases m <;> decide
  simp only [modeCode, setMode]
  rw [BitVec.and_or_distrib_right, BitVec.and_assoc]
  simp [h]

/-- A mode that was set is read back. -/
@[simp] theorem mode_setMode (s : Status) (m : Mode) : (s.setMode m).mode = m := by
  simp [mode, modeCode_setMode, Mode.ofCode?_code]

end Status
end Handheld
