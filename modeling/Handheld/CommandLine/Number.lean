/-
# Numbers on the command line

Digits are read from left to right, and the first fault counts: a character that is no digit,
or a value past the limit.  One plus sign may stand in front.

`hexOrDecimal` takes any number of minus signs before the rest, each of which negates the
64-bit value.
-/
import Handheld.Word
import Handheld.Text.Numeral

namespace Handheld
namespace CommandLine

/-- Why a text is no number. -/
inductive NumberFault where
  | empty | invalidDigit | tooLarge | tooSmall
  deriving DecidableEq

def NumberFault.message : NumberFault → String
  | empty => "cannot parse integer from empty string"
  | invalidDigit => "invalid digit found in string"
  | tooLarge => "number too large to fit in target type"
  | tooSmall => "number too small to fit in target type"

/-- Goes on reading digits after the value `n`, up to `limit`; `beyond` is the fault above it. -/
def digitsFrom (base limit : Nat) (beyond : NumberFault) (n : Nat) :
    List Char → Except NumberFault Nat
  | [] => .ok n
  | c :: cs =>
    match Numeral.digitIn? base c with
    | none => .error .invalidDigit
    | some d =>
      let n := n * base + d
      if limit < n then .error beyond else digitsFrom base limit beyond n cs

/-- Reads at least one digit. -/
def someDigits (base limit : Nat) (beyond : NumberFault) : List Char → Except NumberFault Nat
  | [] => .error .invalidDigit
  | cs => digitsFrom base limit beyond 0 cs

def unsigned (base limit : Nat) : List Char → Except NumberFault Nat
  | [] => .error .empty
  | '+' :: cs => someDigits base limit .tooLarge cs
  | cs => someDigits base limit .tooLarge cs

/-- The largest 64-bit number with a sign. -/
def maxSigned : Nat := 0x7FFFFFFFFFFFFFFF

/-- The largest 64-bit number without one. -/
def maxUnsigned : Nat := 0xFFFFFFFFFFFFFFFF

/-- A decimal number of 64 bits with a sign. -/
def signed : List Char → Except NumberFault Int
  | [] => .error .empty
  | '+' :: cs => (someDigits 10 maxSigned .tooLarge cs).map fun n => n
  | '-' :: cs => (someDigits 10 0x8000000000000000 .tooSmall cs).map fun n => -n
  | cs => (someDigits 10 maxSigned .tooLarge cs).map fun n => n

/-- A 64-bit number, in hexadecimal after `0x` and in decimal otherwise. -/
def hexOrDecimal : List Char → Except NumberFault Double
  | '-' :: cs => (hexOrDecimal cs).map fun v => -v
  | '0' :: 'x' :: cs => (unsigned 16 maxUnsigned cs).map (BitVec.ofNat 64)
  | cs => (unsigned 10 maxUnsigned cs).map (BitVec.ofNat 64)

/-! ## Readers with their reasons -/

def double (s : String) : Except String Double :=
  (hexOrDecimal s.toList).mapError NumberFault.message

def byte (s : String) : Except String Byte := do
  let v ← double s
  if v.toNat < 256 then return v.setWidth 8
  else throw (s ++ " does not fit in a byte")

/-- A decimal number from `lo` to `hi`. -/
def between (lo hi : Int) (s : String) : Except String Int := do
  let n ← (signed s.toList).mapError NumberFault.message
  if lo ≤ n ∧ n ≤ hi then return n
  else
    throw (Numeral.signed n ++ " is not in " ++ Numeral.signed lo ++ "..=" ++ Numeral.signed hi)

def half (s : String) : Except String Half := (between 0 65535 s).map (BitVec.ofInt 16)

/-- A signed word. -/
def position (s : String) : Except String Word :=
  (between (-2147483648) 2147483647 s).map (BitVec.ofInt 32)

end CommandLine
end Handheld
