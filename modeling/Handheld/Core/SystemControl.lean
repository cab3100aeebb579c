/-
# Coprocessors and the system control unit

A coprocessor answers register transfers addressed by an opcode and three register numbers.
The system control unit is the one the core itself looks at: its control register selects
the vector base and enables the two tightly coupled memories.
-/
import Handheld.Word

namespace Handheld

/-- Where a register transfer goes inside a coprocessor. -/
structure CoprocessorRegister where
  opcode : Word
  cn : Word
  cm : Word
  cp : Word
  deriving DecidableEq

/-- A device in a coprocessor slot.  Reading may change it too. -/
class Coprocessor (κ : Type) where
  read : κ → CoprocessorRegister → Word × κ
  write : κ → CoprocessorRegister → Word → κ

/-- A tightly coupled memory as the control registers describe it. -/
structure TcmRegion where
  base : Word
  size : Word
  enabled : Bool
  deriving DecidableEq

structure SystemControl where
  control : Word
  dtcmConfig : Word
  itcmConfig : Word
  deriving DecidableEq

namespace SystemControl

def idCode : Word := 0x41059461

/-- Four kilobytes of instruction cache, eight of data cache. -/
def cacheType : Word := 0x0F0D2112

/-- Control bits that always read as one. -/
def controlOnes : Word := 0x00000078

/-- Control bits that software can change. -/
def controlWritable : Word := 0x000FF085

def initial : SystemControl := ⟨controlOnes, 0, 0⟩

/-! ## 1. Views -/

/-- Control bit 13 moves the vector table to the top of the address space. -/
def exceptionVector (s : SystemControl) : Word :=
  if Bits.get s.control 13 then 0xFFFF0000 else 0

/-- Bits 31-12 of a configuration hold the base, bits 5-1 the size as a power of two times
512.  A size that does not fit a word reads as zero. -/
def decodeTcm (config : Word) (enabled : Bool) : TcmRegion where
  base := config &&& 0xFFFFF000
  size := 512#32 <<< (Bits.field config 1 5).toNat
  enabled := enabled

def dtcm (s : SystemControl) : TcmRegion := decodeTcm s.dtcmConfig (Bits.get s.control 16)

def itcm (s : SystemControl) : TcmRegion := decodeTcm s.itcmConfig (Bits.get s.control 18)

/-! ## 2. Transfers -/

/-- The opcode plays no part, and unlisted registers read as zero. -/
def read (s : SystemControl) (r : CoprocessorRegister) : Word :=
  if r.cn = 0 ∧ r.cm = 0 ∧ r.cp = 0 then idCode
  else if r.cn = 0 ∧ r.cm = 0 ∧ r.cp = 1 then cacheType
  else if r.cn = 1 ∧ r.cm = 0 ∧ r.cp = 0 then s.control
  else if r.cn = 9 ∧ r.cm = 1 ∧ r.cp = 0 then s.dtcmConfig
  else if r.cn = 9 ∧ r.cm = 1 ∧ r.cp = 1 then s.itcmConfig
  else 0

/-- Unlisted registers ignore writes. -/
def write (s : SystemControl) (r : CoprocessorRegister) (v : Word) : SystemControl :=
  if r.cn = 1 ∧ r.cm = 0 ∧ r.cp = 0 then
    { s with control := v &&& controlWritable ||| controlOnes }
  else if r.cn = 9 ∧ r.cm = 1 ∧ r.cp = 0 then { s with dtcmConfig := v }
  else if r.cn = 9 ∧ r.cm = 1 ∧ r.cp = 1 then { s with itcmConfig := v }
  else s

instance : Coprocessor SystemControl where
  read s r := (s.read r, s)
  write s r v := s.write r v

end SystemControl
end Handheld
