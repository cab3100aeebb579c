/-
# The arithmetic of a division unit

The mode says how much of NUMER and DENOM is divided; there is an answer for a zero divisor, and
one for the quotient that does not fit; and everything else is division toward zero.  Between
them they leave nothing out.

* `calculateStrictly_eq`: nothing is ever divided that a machine could not divide;
* `narrow_answers`, `wide_answers`: the answers in 32 bits and in 64;
* `calculate_answers`: what the registers of a unit have to do with each other.
-/
import Handheld.Division.Divider
import Mathlib.Algebra.Ring.Int.Defs

namespace Handheld
namespace Division

/-! ## 1. Division toward zero -/

/-- Quotient and remainder of a division toward zero. -/
structure Divides (n d q r : Int) : Prop where
  exact : n = q * d + r
  smaller : r.natAbs < d.natAbs
  sign : r = 0 ∨ r.sign = n.sign

theorem divides_tdiv (n : Int) {d : Int} (hd : d ≠ 0) : Divides n d (n.tdiv d) (n.tmod d) where
  exact := (Int.tdiv_mul_add_tmod n d).symm
  smaller := by
    rw [Int.natAbs_tmod]
    exact Nat.mod_lt _ (Int.natAbs_pos.mpr hd)
  sign := by
    rw [Int.sign_tmod]
    by_cases h : d ∣ n
    · exact .inl (Int.tmod_eq_zero_of_dvd h)
    · exact .inr (if_neg h)

section Words

variable {w : Nat}

theorem toInt_eq_zero_iff {d : BitVec w} : d.toInt = 0 ↔ d = 0 := by
  rw [← BitVec.toInt_zero (w := w)]
  exact BitVec.toInt_inj

/-- Only the least number divided by minus one gives a quotient that does not fit. -/
theorem toInt_sdiv_of_fits {n d : BitVec w} (h : ¬(d = -1 ∧ n = BitVec.intMin w)) :
    (n.sdiv d).toInt = n.toInt.tdiv d.toInt := by
  apply BitVec.toInt_sdiv_of_ne_or_ne
  by_cases hn : n = BitVec.intMin w
  · exact .inr fun hd => h ⟨hd, hn⟩
  · exact .inl hn

theorem divides_sdiv {n d : BitVec w} (hd : d ≠ 0) (h : ¬(d = -1 ∧ n = BitVec.intMin w)) :
    Divides n.toInt d.toInt (n.sdiv d).toInt (n.srem d).toInt := by
  rw [toInt_sdiv_of_fits h, BitVec.toInt_srem]
  exact divides_tdiv _ (mt toInt_eq_zero_iff.mp hd)

/-- A machine's division of signed words.  There is nothing to divide by zero, and a quotient
that takes one bit more than there are is not given. -/
def strictly (n d : BitVec w) : Option (BitVec w × BitVec w) :=
  let q := n.toInt.tdiv d.toInt
  if d ≠ 0 ∧ -2 ^ (w - 1) ≤ q ∧ q < 2 ^ (w - 1) then
    some (BitVec.ofInt w q, BitVec.ofInt w (n.toInt.tmod d.toInt))
  else none

theorem strictly_eq {n d : BitVec w} (hd : d ≠ 0) (h : ¬(d = -1 ∧ n = BitVec.intMin w)) :
    strictly n d = some (n.sdiv d, n.srem d) := by
  rw [strictly, ← BitVec.toInt_srem, ← toInt_sdiv_of_fits h]
  simp only [hd, BitVec.le_toInt, BitVec.toInt_lt, BitVec.ofInt_toInt, ne_eq, not_false_eq_true,
    and_self, if_true]

end Words

/-! ## 2. Nothing is divided that cannot be -/

/-- `narrow` with a division that may fail. -/
def narrowStrictly (whole : Double) (n d : Word) : Option Outcome :=
  if d = 0 then
    some { quotient := if n.msb then ~~~0xFFFFFFFFF else 0xFFFFFFFFF, remainder := whole }
  else if d = -1 ∧ n = BitVec.intMin 32 then some { quotient := n.setWidth 64, remainder := 0 }
  else (strictly n d).map fun (q, r) =>
    { quotient := q.signExtend 64, remainder := r.signExtend 64 }

/-- `wide` with a division that may fail. -/
def wideStrictly (n d : Double) : Option Outcome :=
  if d = 0 then some { quotient := if 0 < n.toInt then -1 else 1, remainder := n }
  else if d = -1 ∧ n = BitVec.intMin 64 then some { quotient := n, remainder := 0 }
  else (strictly n d).map fun (q, r) => { quotient := q, remainder := r }

def divideStrictly (mode : Mode) (n d : Double) : Option Outcome :=
  match mode with
  | .narrow => narrowStrictly n (lower n) (lower d)
  | .mixed => wideStrictly n ((lower d).signExtend 64)
  | .wide => wideStrictly n d

theorem narrowStrictly_eq (whole : Double) (n d : Word) :
    narrowStrictly whole n d = some (narrow whole n d) := by
  rw [narrowStrictly, narrow]
  split
  · rfl
  · rename_i hd
    split
    · rfl
    · rename_i h
      rw [strictly_eq hd h]
      rfl

theorem wideStrictly_eq (n d : Double) : wideStrictly n d = some (wide n d) := by
  rw [wideStrictly, wide]
  split
  · rfl
  · rename_i hd
    split
    · rfl
    · rename_i h
      rw [strictly_eq hd h]
      rfl

theorem divideStrictly_eq (mode : Mode) (n d : Double) :
    divideStrictly mode n d = some (divide mode n d) := by
  cases mode
  · exact narrowStrictly_eq _ _ _
  · exact wideStrictly_eq _ _
  · exact wideStrictly_eq _ _

/-! ## 3. The answers -/

theorem narrow_answers (whole : Double) (n d : Word) :
    if d.toInt = 0 then
      (narrow whole n d).remainder = whole ∧
        (narrow whole n d).quotient = if 0 ≤ n.toInt then 0xFFFFFFFFF else ~~~0xFFFFFFFFF
    else if d.toInt = -1 ∧ n.toInt = -2 ^ 31 then
      (narrow whole n d).remainder = 0 ∧ (narrow whole n d).quotient = n.setWidth 64
    else
      Divides n.toInt d.toInt (narrow whole n d).quotient.toInt
        (narrow whole n d).remainder.toInt := by
  have minus_one : d.toInt = -1 ↔ d = -1 := BitVec.toInt_inj (y := -1#32)
  have least : n.toInt = -2 ^ 31 ↔ n = BitVec.intMin 32 := BitVec.toInt_inj (y := BitVec.intMin 32)
  simp only [toInt_eq_zero_iff, minus_one, least, narrow]
  split
  · refine ⟨rfl, ?_⟩
    rw [BitVec.msb_eq_toInt]
    by_cases hn : 0 ≤ n.toInt
    · simp [hn, Int.not_lt.mpr hn]
    · simp [hn, Int.not_le.mp hn]
  · rename_i hd
    split
    · exact ⟨rfl, rfl⟩
    · rename_i h
      rw [BitVec.toInt_signExtend_of_le (by decide), BitVec.toInt_signExtend_of_le (by decide)]
      exact divides_sdiv hd h

theorem wide_answers (n d : Double) :
    if d.toInt = 0 then
      (wide n d).remainder = n ∧ (wide n d).quotient = if 0 < n.toInt then -1 else 1
    else if d.toInt = -1 ∧ n.toInt = -2 ^ 63 then
      (wide n d).remainder = 0 ∧ (wide n d).quotient = n
    else Divides n.toInt d.toInt (wide n d).quotient.toInt (wide n d).remainder.toInt := by
  have minus_one : d.toInt = -1 ↔ d = -1 := BitVec.toInt_inj (y := -1#64)
  have least : n.toInt = -2 ^ 63 ↔ n = BitVec.intMin 64 := BitVec.toInt_inj (y := BitVec.intMin 64)
  simp only [toInt_eq_zero_iff, minus_one, least, wide]
  split
  · exact ⟨rfl, rfl⟩
  · rename_i hd
    split
    · exact ⟨rfl, rfl⟩
    · rename_i h
      exact divides_sdiv hd h

/-! ## 4. Units -/

namespace Divider

/-- The number that is divided, as much of NUMER as the mode takes. -/
def dividend (u : Divider) : Int :=
  if u.control &&& 3 = 0 then (lower u.numerator).toInt else u.numerator.toInt

/-- The number that it is divided by. -/
def divisor (u : Divider) : Int :=
  if u.control &&& 3 = 2 then u.denominator.toInt else (lower u.denominator).toInt

/-- The least number that can be divided. -/
def least (u : Divider) : Int := if u.control &&& 3 = 0 then -2 ^ 31 else -2 ^ 63

/-- `calculate` with a division that may fail. -/
def calculateStrictly (u : Divider) : Option Divider := do
  let o ← divideStrictly (.ofControl u.control) u.numerator u.denominator
  return (u.setValue .quotient o.quotient).setValue .remainder o.remainder

/-- **Nothing is divided that cannot be**: by zero, or with a quotient that does not fit. -/
theorem calculateStrictly_eq (u : Divider) : u.calculateStrictly = some u.calculate := by
  rw [calculateStrictly, divideStrictly_eq]
  rfl

theorem register_calculate (u : Divider) (i : Slot) :
    u.calculate.register i =
      { u.register i with
        value :=
          match i with
          | .quotient => (divide (.ofControl u.control) u.numerator u.denominator).quotient
          | .remainder => (divide (.ofControl u.control) u.numerator u.denominator).remainder
          | i => u.value i } := by
  cases i <;> rfl

theorem register_calculate_of_input (u : Divider) {i : Slot} (quotient : i ≠ .quotient)
    (remainder : i ≠ .remainder) : u.calculate.register i = u.register i := by
  rw [register_calculate]
  cases i with
  | control | numerator | denominator => rfl
  | quotient => exact absurd rfl quotient
  | remainder => exact absurd rfl remainder

/-- The answers are computed from the inputs, which are still the same. -/
theorem calculate_calculate (u : Divider) : u.calculate.calculate = u.calculate := by
  apply Device.eq_of_registers
  · intro i
    rw [register_calculate u.calculate, register_calculate u]
    cases i <;> rfl
  · rfl

/-- **The arithmetic of a division unit.**  Computing never divides what cannot be divided,
changes no register but RES and MOD and of these only the words in them, and once is as good as
twice.  By zero, MOD is the whole of NUMER and RES tells only the sign, in mode 0 with 36 bits.
If the quotient does not fit, RES is the dividend, in mode 0 not sign-extended, and nothing is
left over.  Everything else is division toward zero. -/
theorem calculate_answers (u : Divider) :
    u.calculateStrictly = some u.calculate ∧
      (∀ i, i ≠ .quotient → i ≠ .remainder → u.calculate.register i = u.register i) ∧
      (∀ i, u.calculate.register i = { u.register i with value := u.calculate.value i }) ∧
      u.calculate.calculate = u.calculate ∧
      if u.divisor = 0 then
        u.calculate.remainder = u.numerator ∧
          u.calculate.quotient =
            if u.control &&& 3 = 0 then if 0 ≤ u.dividend then 0xFFFFFFFFF else ~~~0xFFFFFFFFF
            else if 0 < u.dividend then -1 else 1
      else if u.divisor = -1 ∧ u.dividend = u.least then
        u.calculate.remainder = 0 ∧
          u.calculate.quotient =
            if u.control &&& 3 = 0 then (lower u.numerator).setWidth 64 else u.numerator
      else
        Divides u.dividend u.divisor u.calculate.quotient.toInt u.calculate.remainder.toInt := by
  refine ⟨u.calculateStrictly_eq, fun i => u.register_calculate_of_input, fun i => ?_,
    u.calculate_calculate, ?_⟩
  · rw [register_calculate]
    cases i <;> rfl
  have quotient : u.calculate.quotient =
      (divide (.ofControl u.control) u.numerator u.denominator).quotient := rfl
  have remainder : u.calculate.remainder =
      (divide (.ofControl u.control) u.numerator u.denominator).remainder := rfl
  rw [quotient, remainder, dividend, divisor, least, Mode.ofControl]
  by_cases narrow : u.control &&& 3 = 0
  · have not_wide : (0 : Half) ≠ 2 := by decide
    simp only [narrow, not_wide, if_true, if_false]
    exact narrow_answers _ _ _
  by_cases wide : u.control &&& 3 = 2
  · simp only [wide, if_true]
    exact wide_answers _ _
  -- 64-bit by 32-bit: the divisor is the same number in 64 bits
  · simp only [narrow, wide, if_false]
    rw [← BitVec.toInt_signExtend_of_le (v := 64) (x := lower u.denominator) (by decide)]
    exact wide_answers _ _

/-- The least number by minus one, in mode 0: the upper half of NUMER plays no part. -/
example :
    narrow 0x0000000180000000 (lower 0x0000000180000000) (lower 0xFFFFFFFF) =
      ⟨0x0000000080000000, 0⟩ := by
  decide

end Divider
end Division
end Handheld
