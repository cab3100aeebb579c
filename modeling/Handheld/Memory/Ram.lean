/-
# RAM images

A flat image of bytes that repeats over the whole address space.  Its size must be a power of
two when it is made, and below a limit: the low bits of an address then select the byte.

* `Ram.index_lt`: an image that holds anything has a byte for every address;
* `Ram.size_write`: writing keeps the size.
-/
import Handheld.Memory.Bus
import Handheld.Text.Numeral

namespace Handheld

structure Ram where
  bytes : Array Byte
  waitStates : Word
  deriving DecidableEq

namespace Ram

/-- Size of the main image, four megabytes. -/
def mainSize : Nat := 0x400000

/-- Where the copy of the user settings starts in the main image. -/
def userSettings : Word := 0x3FFC80

/-! ## 1. Making an image -/

/-- Why there is no image of the size asked for. -/
inductive BadSize where
  | notPowerOfTwo (size : Nat)
  | tooLarge
  deriving DecidableEq

def BadSize.message : BadSize → String
  | notPowerOfTwo size => "RAM size must be a power of two, got " ++ Numeral.hex size
  | tooLarge => "capacity overflow"

def isPowerOfTwo (n : Nat) : Bool := n == 1 <<< n.log2

/-- The first size that no longer fits in a signed double word. -/
def sizeLimit : Nat := 0x8000000000000000

def new? (size : Nat) : Except BadSize Ram :=
  if !isPowerOfTwo size then .error (.notPowerOfTwo size)
  else if sizeLimit ≤ size then .error .tooLarge
  else .ok ⟨Array.replicate size 0, 0⟩

/-- The main image, zeroed and without wait states. -/
def main : Ram := ⟨Array.replicate mainSize 0, 0⟩

def withWaitStates (r : Ram) (n : Word) : Ram := { r with waitStates := n }

/-! ## 2. Bytes -/

def size (r : Ram) : Nat := r.bytes.size

def isEmpty (r : Ram) : Bool := r.bytes.isEmpty

def index (r : Ram) (a : Word) : Nat := a.toNat &&& (r.size - 1)

def read (r : Ram) (a : Word) : Byte := r.bytes.getD (r.index a) 0

def write (r : Ram) (a : Word) (v : Byte) : Ram :=
  let i := r.index a
  { r with bytes := r.bytes.setIfInBounds i v }

/-- Copies bytes to ascending addresses from `a` on; where they wrap around, the later stays. -/
def load (r : Ram) (a : Word) : List Byte → Ram
  | [] => r
  | b :: bs => (r.write a b).load (a + 1) bs

theorem index_lt (r : Ram) (a : Word) (h : 0 < r.size) : r.index a < r.size := by
  have : a.toNat &&& (r.size - 1) ≤ r.size - 1 := Nat.and_le_right
  simp only [index]
  omega

@[simp] theorem size_write (r : Ram) (a : Word) (v : Byte) : (r.write a v).size = r.size := by
  simp [write, size]

instance : Bus Ram where
  read8 r a := (r.read a, r)
  write8 := write
  waitStates := waitStates

instance : Peek Ram where
  peek8 := read

end Ram
end Handheld
