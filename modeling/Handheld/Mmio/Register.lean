/-
# Memory-mapped registers

A register holds a value, a mask of bits that the bus cannot change, and the names of the
methods that the device runs when the bus reads or writes it.  The device itself may change
the value at any time; only the bus goes through the mask and the methods.

* `Register.store_readOnly`: a store keeps the read-only bits.
-/
import Handheld.Word
import Handheld.Text.Numeral

namespace Handheld

/-- The widths a register can have. -/
inductive Width where
  | half | word | double
  deriving DecidableEq

namespace Width

def bytes : Width → Nat
  | half => 2
  | word => 4
  | double => 8

@[reducible] def bits (w : Width) : Nat := 8 * w.bytes

end Width

structure Register (w : Nat) where
  value : BitVec w
  /-- The bits that the bus cannot change. -/
  readOnly : BitVec w
  /-- The method that is run on a bus read. -/
  onRead : Option String
  /-- The method that is run after a bus write. -/
  onWrite : Option String
  deriving DecidableEq

namespace Register

variable {w : Nat}

def blank : Register w := ⟨0, 0, none, none⟩

/-- Takes over the bits of `v` that are in `mask` and not read-only. -/
def store (r : Register w) (v mask : BitVec w) : Register w :=
  { r with value := r.value &&& (r.readOnly ||| ~~~mask) ||| v &&& mask &&& ~~~r.readOnly }

theorem store_readOnly (r : Register w) (v mask : BitVec w) :
    (r.store v mask).value &&& r.readOnly = r.value &&& r.readOnly := by
  ext i hi
  simp only [store, BitVec.getElem_and, BitVec.getElem_or, BitVec.getElem_not]
  cases r.value[i] <;> cases r.readOnly[i] <;> cases mask[i] <;> cases v[i] <;> rfl

def debug (r : Register w) : String :=
  "Reg \x7b value: " ++ Numeral.hexUpper r.value.toNat ++
    ", ro_mask: " ++ Numeral.hexUpper r.readOnly.toNat ++
    ", read_cb: " ++ toString r.onRead.isSome ++
    ", write_cb: " ++ toString r.onWrite.isSome ++ " \x7d"

end Register
end Handheld
