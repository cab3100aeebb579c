/-
# External lines

A set of lines is a byte with one bit per line.  A set bit means that the line's function is
active; the five upper bits name no line but are kept all the same.
-/
import Handheld.Word

namespace Handheld

structure Lines where
  bits : Byte
  deriving DecidableEq

namespace Lines

def none : Lines := ⟨0⟩
def fiq : Lines := ⟨1⟩
def irq : Lines := ⟨2⟩
def halt : Lines := ⟨4⟩

def union (s t : Lines) : Lines := ⟨s.bits ||| t.bits⟩

/-- Every line of `t` is in `s`. -/
def contains (s t : Lines) : Bool := s.bits &&& t.bits == t.bits

/-- Some line of `t` is in `s`. -/
def intersects (s t : Lines) : Bool := s.bits &&& t.bits != 0

def isEmpty (s : Lines) : Bool := s.bits == 0

def insert (s t : Lines) : Lines := s.union t

def remove (s t : Lines) : Lines := ⟨s.bits &&& ~~~t.bits⟩

/-- The lines that ask for an interrupt. -/
def interrupts : Lines := fiq.union irq

end Lines
end Handheld
