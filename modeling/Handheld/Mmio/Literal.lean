/-
# Number literals in register tags

The base is spelled in front: `0x`, `0o` or `0b` with the letter in either case, a bare `0`
before further digits for octal, and nothing for decimal.  One underscore may stand before a
digit, also right after the base, but not in front of a decimal number.

`0` alone is decimal, so `09` is refused as octal and `0_17` is fifteen.
-/
import Handheld.Text.Numeral

namespace Handheld
namespace Literal

/-- The base that a literal spells out, and what follows; `none` leaves it to decimal. -/
def splitBase : List Char → Option (Nat × List Char)
  | '0' :: 'x' :: cs | '0' :: 'X' :: cs => some (16, cs)
  | '0' :: 'o' :: cs | '0' :: 'O' :: cs => some (8, cs)
  | '0' :: 'b' :: cs | '0' :: 'B' :: cs => some (2, cs)
  | '0' :: c :: cs => some (8, c :: cs)
  | _ => none

/-- Digits of `base`, each with at most one underscore before it. -/
def spaced? (base : Nat) : List Char → Option (List Nat)
  | [] => some []
  | '_' :: c :: cs => do
    let d ← Numeral.digitIn? base c
    let ds ← spaced? base cs
    return d :: ds
  | c :: cs => do
    let d ← Numeral.digitIn? base c
    let ds ← spaced? base cs
    return d :: ds

/-- The base and the digits of a literal; there is at least one digit. -/
def digits? (cs : List Char) : Option (Nat × List Nat) :=
  match splitBase cs with
  | some (base, body) =>
    match spaced? base body with
    | some (d :: ds) => some (base, d :: ds)
    | _ => none
  | none =>
    match cs with
    | [] => none
    | c :: cs => do
      let d ← Numeral.digitIn? 10 c
      let ds ← spaced? 10 cs
      return (10, d :: ds)

/-- The value of a literal that fits in `bits` bits and in the widest register. -/
def parse? (s : String) (bits : Nat) : Option Nat := do
  let (base, ds) ← digits? s.toList
  let n := Numeral.value base ds
  if n < 1 <<< min bits 64 then some n else none

theorem parse?_lt {s : String} {bits n : Nat} (h : parse? s bits = some n) :
    n < 1 <<< min bits 64 := by
  simp only [parse?, Option.bind_eq_bind, Option.bind_eq_some_iff] at h
  obtain ⟨⟨base, ds⟩, -, h⟩ := h
  split at h
  · simp_all
  · cases h

end Literal
end Handheld
