/-
# Sparse memory

What the bus sees of a bank, without registers: some positions hold a byte, all others hold
nothing.  A byte may have bits that the bus cannot change.  Positions are natural numbers and
bytes are stored in little-endian order.

* `getLsbD_read`: which bit of which byte a bit of a read is.
-/
import Handheld.Word

namespace Handheld
namespace Mmio

/-- One byte, with the mask of the bits that the bus cannot change. -/
structure Cell where
  value : Byte
  readOnly : Byte
  deriving DecidableEq

/-- The bus stores `b`. -/
def Cell.overwrite (c : Cell) (b : Byte) : Cell :=
  { c with value := (c.value &&& c.readOnly) ||| (b &&& ~~~c.readOnly) }

def Memory := Nat → Option Cell

namespace Memory

/-- Where nothing is held, zero is read. -/
def byteAt (m : Memory) (a : Nat) : Byte :=
  match m a with
  | some c => c.value
  | none => 0

/-- The `n` bytes from `a` on, the first one lowest. -/
def read (m : Memory) (a : Nat) : (n : Nat) → BitVec (8 * n)
  | 0 => 0
  | n + 1 => m.read (a + 1) n ++ m.byteAt a

/-- Stores the `n` lowest bytes of `v` from `a` on, where there is something to store them in. -/
def write (m : Memory) (a n : Nat) (v : Double) : Memory := fun i =>
  (m i).map fun c => if a ≤ i ∧ i < a + n then c.overwrite (Bits.byte v (i - a)) else c

/-- Bit `i` of a read is bit `i % 8` of byte number `i / 8`. -/
theorem getLsbD_read (m : Memory) (a n i : Nat) :
    (m.read a n).getLsbD i = (decide (i < 8 * n) && (m.byteAt (a + i / 8)).getLsbD (i % 8)) := by
  induction n generalizing a i with
  | zero => simp [read]
  | succ n ih =>
    have unfolded : (m.read a (n + 1)).getLsbD i = (m.read (a + 1) n ++ m.byteAt a).getLsbD i := rfl
    rw [unfolded, BitVec.getLsbD_append]
    by_cases hi : i < 8
    · have first : i / 8 = 0 := by omega
      have bit : i % 8 = i := by omega
      have inside : i < 8 * (n + 1) := by omega
      simp [hi, first, bit, inside]
    · have byte : a + 1 + (i - 8) / 8 = a + i / 8 := by omega
      have bit : (i - 8) % 8 = i % 8 := by omega
      have inside : i - 8 < 8 * n ↔ i < 8 * (n + 1) := by omega
      rw [if_neg hi, ih, byte, bit]
      simp only [inside]

end Memory
end Mmio
end Handheld
