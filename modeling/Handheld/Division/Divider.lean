/-
# The division unit

    0x00  DIVCNT  16 bits  bits 0-1 mode, bit 14 set on reading while DENOM is zero
    0x10  NUMER   64 bits
    0x18  DENOM   64 bits
    0x20  RES     64 bits
    0x28  MOD     64 bits

RES and MOD are computed anew on every write to one of the first three.  The zero flag always
looks at the whole of DENOM, and is never stored.
-/
import Handheld.Division.Quotient
import Handheld.Mmio.Bank

namespace Handheld
namespace Division

inductive Slot where
  | control | numerator | denominator | quotient | remainder
  deriving DecidableEq

instance : Layout Slot where
  width
    | .control => .half
    | _ => .double

/-- A division unit keeps nothing beside its registers. -/
abbrev Divider := Device Slot Unit

namespace Divider

def control (u : Divider) : Half := u.value .control
def numerator (u : Divider) : Double := u.value .numerator
def denominator (u : Divider) : Double := u.value .denominator
def quotient (u : Divider) : Double := u.value .quotient
def remainder (u : Divider) : Double := u.value .remainder

/-- Computes quotient and remainder from the current inputs. -/
def calculate (u : Divider) : Divider :=
  let o := divide (.ofControl u.control) u.numerator u.denominator
  (u.setValue .quotient o.quotient).setValue .remainder o.remainder

/-- Set while the denominator is zero. -/
def zeroFlag : Half := 0x4000

/-- What the bus sees of the control register. -/
def readControl (v : Half) (u : Divider) : Half × Divider :=
  (if u.denominator = 0 then v ||| zeroFlag else v, u)

def interface : Interface Slot Unit where
  fields := [
    ⟨"DivCnt", ⟨"offset=0x00,rwmask=0x3,wcb,rcb"⟩, .register .control⟩,
    ⟨"Numer", ⟨"offset=0x10,wcb=WriteIN"⟩, .register .numerator⟩,
    ⟨"Denom", ⟨"offset=0x18,wcb=WriteIN"⟩, .register .denominator⟩,
    ⟨"Res", ⟨"offset=0x20"⟩, .register .quotient⟩,
    ⟨"Mod", ⟨"offset=0x28"⟩, .register .remainder⟩]
  methods := [
    ⟨"WriteIN", .write .double fun _ _ u => calculate u⟩,
    ⟨"WriteDIVCNT", .write .half fun _ _ u => calculate u⟩,
    ⟨"ReadDIVCNT", .read .half readControl⟩]

/-- A unit that was just set up. -/
def new : Divider :=
  match (Mmio.setup interface).run (Device.blank ()) with
  | .ok _ u => u
  | .error _ u => u

/-- The unit's only bank. -/
def bank : Except Mmio.Fault (Mmio.Bank Slot) := Mmio.Bank.of interface 0

def debug (u : Divider) : String :=
  "HwDivisor \x7b div_cnt: " ++ (u.register .control).debug ++
    ", numer: " ++ (u.register .numerator).debug ++
    ", denom: " ++ (u.register .denominator).debug ++
    ", res: " ++ (u.register .quotient).debug ++
    ", modulus: " ++ (u.register .remainder).debug ++ " \x7d"

end Divider
end Division
end Handheld
