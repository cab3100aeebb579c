/-
# Numerals

Writing and reading natural numbers in a base up to 16.  Writing gives the shortest text, in
lower or upper case, and `padded` fills it up with zeros.  Reading asks for at least one
character and for digits of the base only; signs, separators and base marks belong to the
formats built on it.
-/

namespace Handheld
namespace Numeral

/-! ## 1. Writing -/

inductive Case where
  | lower | upper
  deriving DecidableEq

/-- The shortest digits of `n` in `base`. -/
def digits (base : Nat) (case : Case) (n : Nat) : List Char :=
  match case with
  | .lower => Nat.toDigits base n
  | .upper => (Nat.toDigits base n).map Char.toUpper

/-- The digits of `n`, with zeros in front up to `count` characters. -/
def padded (base : Nat) (case : Case) (count n : Nat) : List Char :=
  let ds := digits base case n
  List.replicate (count - ds.length) '0' ++ ds

def hex (n : Nat) : String := "0x" ++ String.ofList (digits 16 .lower n)

def hexUpper (n : Nat) : String := "0x" ++ String.ofList (digits 16 .upper n)

/-- Upper-case hexadecimal with at least `count` digits. -/
def hexPadded (count n : Nat) : String := "0x" ++ String.ofList (padded 16 .upper count n)

def binaryPadded (count n : Nat) : String := "0b" ++ String.ofList (padded 2 .lower count n)

def decimal (n : Nat) : String := String.ofList (digits 10 .lower n)

def signed (n : Int) : String :=
  if n < 0 then "-" ++ decimal n.natAbs else decimal n.natAbs

/-! ## 2. Reading -/

/-- The value of a digit, in either case of the letters. -/
def digitValue? (c : Char) : Option Nat :=
  if '0' ≤ c ∧ c ≤ '9' then some (c.toNat - '0'.toNat)
  else if 'a' ≤ c ∧ c ≤ 'f' then some (c.toNat - 'a'.toNat + 10)
  else if 'A' ≤ c ∧ c ≤ 'F' then some (c.toNat - 'A'.toNat + 10)
  else none

/-- The value of a digit that is allowed in `base`. -/
def digitIn? (base : Nat) (c : Char) : Option Nat :=
  (digitValue? c).filter (· < base)

/-- The number that a list of digit values stands for. -/
def value (base : Nat) (ds : List Nat) : Nat := ds.foldl (fun n d => n * base + d) 0

/-- Reads a non-empty run of digits of `base`, and nothing else. -/
def read? (base : Nat) (cs : List Char) : Option Nat :=
  if cs.isEmpty then none else (cs.mapM (digitIn? base)).map (value base)

end Numeral
end Handheld
