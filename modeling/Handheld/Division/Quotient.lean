/-
# What the division unit computes

Signed division toward zero, of two 32-bit or two 64-bit numbers, with answers of its own for
a zero denominator and for the one quotient that does not fit.  In 32 bits the quotient by zero
has 36 significant bits and the remainder is the whole 64-bit numerator; the quotient that does
not fit is not sign-extended.
-/
import Handheld.Word

namespace Handheld
namespace Division

structure Outcome where
  quotient : Double
  remainder : Double
  deriving DecidableEq

/-- Divides 32-bit numbers; `whole` is the numerator's register. -/
def narrow (whole : Double) (n d : Word) : Outcome :=
  if d = 0 then
    { quotient := if n.msb then ~~~0xFFFFFFFFF else 0xFFFFFFFFF, remainder := whole }
  else if d = -1 ∧ n = BitVec.intMin 32 then
    { quotient := n.setWidth 64, remainder := 0 }
  else
    { quotient := (n.sdiv d).signExtend 64, remainder := (n.srem d).signExtend 64 }

/-- Divides 64-bit numbers. -/
def wide (n d : Double) : Outcome :=
  if d = 0 then { quotient := if 0 < n.toInt then -1 else 1, remainder := n }
  else if d = -1 ∧ n = BitVec.intMin 64 then { quotient := n, remainder := 0 }
  else { quotient := n.sdiv d, remainder := n.srem d }

/-- The operands of the three modes. -/
inductive Mode where
  /-- 32-bit by 32-bit. -/
  | narrow
  /-- 64-bit by 32-bit. -/
  | mixed
  /-- 64-bit by 64-bit. -/
  | wide
  deriving DecidableEq

/-- The two low bits of the control register select the mode; 3 is the same as 1. -/
def Mode.ofControl (control : Half) : Mode :=
  if control &&& 3 = 0 then narrow else if control &&& 3 = 2 then wide else mixed

/-- The lower half of a register. -/
def lower (v : Double) : Word := v.setWidth 32

def divide (mode : Mode) (n d : Double) : Outcome :=
  match mode with
  | .narrow => narrow n (lower n) (lower d)
  | .mixed => wide n ((lower d).signExtend 64)
  | .wide => wide n d

end Division
end Handheld
