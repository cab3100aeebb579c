/-
# Touch calibration

The user settings keep two points per axis, each a converter value and a screen position.  A
screen position is mapped to a converter value along the line through the two points, rounded
toward the first one's value and cut to twelve bits.
-/
import Handheld.Memory.Ram

namespace Handheld

structure Calibration where
  adcX1 : Half
  adcY1 : Half
  screenX1 : Byte
  screenY1 : Byte
  adcX2 : Half
  adcY2 : Half
  screenX2 : Byte
  screenY2 : Byte
  deriving DecidableEq

namespace Calibration

/-! ## 1. In memory -/

/-- The address of a byte of the user settings. -/
def setting (offset : Word) : Word := Ram.userSettings + offset

def read {μ : Type} [Peek μ] (m : μ) : Calibration where
  adcX1 := Peek.peek16 m (setting 0x58)
  adcY1 := Peek.peek16 m (setting 0x5A)
  screenX1 := Peek.peek8 m (setting 0x5C)
  screenY1 := Peek.peek8 m (setting 0x5D)
  adcX2 := Peek.peek16 m (setting 0x5E)
  adcY2 := Peek.peek16 m (setting 0x60)
  screenX2 := Peek.peek8 m (setting 0x62)
  screenY2 := Peek.peek8 m (setting 0x63)

def write {β : Type} [Bus β] (c : Calibration) (b : β) : β :=
  let b := Bus.write16 b (setting 0x58) c.adcX1
  let b := Bus.write16 b (setting 0x5A) c.adcY1
  let b := Bus.write8 b (setting 0x5C) c.screenX1
  let b := Bus.write8 b (setting 0x5D) c.screenY1
  let b := Bus.write16 b (setting 0x5E) c.adcX2
  let b := Bus.write16 b (setting 0x60) c.adcY2
  let b := Bus.write8 b (setting 0x62) c.screenX2
  Bus.write8 b (setting 0x63) c.screenY2

/-! ## 2. As a list of numbers -/

/-- Why a list of numbers is no calibration. -/
inductive Fault where
  | count (found : Nat)
  | tooLarge (name : String) (value : Half)
  deriving DecidableEq

def Fault.message : Fault → String
  | count n => "expected 8 values, got " ++ Numeral.decimal n
  | tooLarge name v => name ++ " = " ++ Numeral.decimal v.toNat ++ " does not fit in a byte"

/-- A screen position, which must fit in a byte. -/
def screen (name : String) (v : Half) : Except Fault Byte :=
  if v.toNat < 256 then .ok (v.setWidth 8) else .error (.tooLarge name v)

def ofList : List Half → Except Fault Calibration
  | [adcX1, adcY1, screenX1, screenY1, adcX2, adcY2, screenX2, screenY2] => do
    let screenX1 ← screen "scr_x1" screenX1
    let screenY1 ← screen "scr_y1" screenY1
    let screenX2 ← screen "scr_x2" screenX2
    let screenY2 ← screen "scr_y2" screenY2
    return { adcX1, adcY1, screenX1, screenY1, adcX2, adcY2, screenX2, screenY2 }
  | values => .error (.count values.length)

def toList (c : Calibration) : List Half :=
  [c.adcX1, c.adcY1, c.screenX1.setWidth 16, c.screenY1.setWidth 16,
   c.adcX2, c.adcY2, c.screenX2.setWidth 16, c.screenY2.setWidth 16]

/-! ## 3. From the screen to the converter -/

/-- The largest converter value. -/
def adcMax : Int := 0xFFF

/-- The line through two points, before it is cut to the converter's range.  Without a span
between the screen positions it is the first value throughout. -/
def line (position : Int) (adc1 : Half) (screen1 : Byte) (adc2 : Half) (screen2 : Byte) : Int :=
  let span : Int := (screen2.toNat : Int) - screen1.toNat
  if span = 0 then adc1.toNat
  else ((position - screen1.toNat) * ((adc2.toNat : Int) - adc1.toNat)).tdiv span + adc1.toNat

def interpolate (position : Int) (adc1 : Half) (screen1 : Byte) (adc2 : Half) (screen2 : Byte) :
    Half :=
  BitVec.ofInt 16 (max 0 (min (line position adc1 screen1 adc2 screen2) adcMax))

def sampleX (c : Calibration) (x : Int) : Half :=
  interpolate x c.adcX1 c.screenX1 c.adcX2 c.screenX2

def sampleY (c : Calibration) (y : Int) : Half :=
  interpolate y c.adcY1 c.screenY1 c.adcY2 c.screenY2

end Calibration
end Handheld
