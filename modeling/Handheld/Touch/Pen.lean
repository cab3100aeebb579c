/-
# The pen

Where the pen is, in screen pixels counted with a sign, and whether it touches the screen.
-/
import Handheld.Word

namespace Handheld

structure Pen where
  x : Word
  y : Word
  down : Bool
  deriving DecidableEq

/-- The pen of a controller that was just switched on. -/
def Pen.lifted : Pen := ⟨0, 0, false⟩

end Handheld
