/-
# Numbers that are read back

A numeral is in the language of the readers, with no sign in front of it, and so the 64-bit values
are read back from both notations that the answers show them in.

* `hexOrDecimal_hexPadded`, `hexOrDecimal_signed`: the two notations.
-/
import Handheld.Proofs.CommandLine.Language

namespace Handheld
namespace CommandLine

open Numeral

/-! ## 1. Numerals -/

theorem signed_of_read? {cs : List Char} {m : Nat} (h : read? 10 cs = some m)
    (within : m ≤ maxSigned) : signed cs = .ok (m : Int) := by
  have digits := (read?_eq_some_iff (by decide)).mp h
  have read : someDigits 10 maxSigned .tooLarge cs = .ok m :=
    (someDigits_eq_ok_iff (by decide) cs).mpr ⟨h, within⟩
  unfold signed
  split
  · cases h
  · exact absurd digits (not_digits_cons (by decide) rfl)
  · exact absurd digits (not_digits_cons (by decide) rfl)
  · rw [read]
    rfl

/-- A decimal numeral has no mark in front. -/
theorem hexOrDecimal_of_read? {cs : List Char} {m : Nat} {v : Double} (h : read? 10 cs = some m)
    (held : v.toNat = m) : hexOrDecimal cs = .ok v := by
  subst held
  have digits := (read?_eq_some_iff (by decide)).mp h
  exact Spelled.read (.decimal (.bare digits))

/-! ## 2. What is shown is read back -/

theorem toList_hexPadded (count n : Nat) :
    (Numeral.hexPadded count n).toList = '0' :: 'x' :: padded 16 .upper count n := by
  unfold Numeral.hexPadded
  rw [String.toList_append, String.toList_ofList, String.toList_ofList]
  rfl

theorem toList_decimal (n : Nat) : (Numeral.decimal n).toList = digits 10 .lower n := by
  unfold Numeral.decimal
  exact String.toList_ofList

theorem toList_signed (z : Int) :
    (Numeral.signed z).toList =
      if z < 0 then '-' :: digits 10 .lower z.natAbs else digits 10 .lower z.natAbs := by
  unfold Numeral.signed
  split
  · rw [String.toList_append, toList_decimal]
    rfl
  · exact toList_decimal _

/-- **A 64-bit value is read back from its hexadecimal notation.** -/
theorem hexOrDecimal_hexPadded (count : Nat) (v : Double) :
    hexOrDecimal (Numeral.hexPadded count v.toNat).toList = .ok v := by
  have read := read?_padded .upper (by decide : 1 < 16) (by decide) count v.toNat
  have digits := (read?_eq_some_iff (by decide)).mp read
  rw [toList_hexPadded]
  exact Spelled.read (.hexadecimal (.bare digits))

/-- **A 64-bit value is read back from its signed notation.** -/
theorem hexOrDecimal_signed (v : Double) :
    hexOrDecimal (Numeral.signed v.toInt).toList = .ok v := by
  have read := read?_digits .lower (by decide : 1 < 10) (by decide) v.toInt.natAbs
  have value := BitVec.toInt_eq_toNat_cond v
  rw [toList_signed]
  split
  · rename_i negative
    have held : (-v).toNat = v.toInt.natAbs := by
      rw [BitVec.toNat_neg]
      omega
    rw [hexOrDecimal, hexOrDecimal_of_read? read held]
    exact congrArg Except.ok (BitVec.neg_neg)
  · rename_i positive
    have held : v.toNat = v.toInt.natAbs := by omega
    exact hexOrDecimal_of_read? read held

/-! ## 3. Arguments that are read back -/

/-- The texts that a 64-bit value is shown as. -/
def notations (v : Double) : List String :=
  [Numeral.hexPadded 16 v.toNat, Numeral.signed v.toInt]

theorem double_notations (v : Double) : ∀ s ∈ notations v, double s = .ok v := by
  simp only [notations, List.forall_mem_cons, double_eq_ok_iff]
  exact ⟨hexOrDecimal_hexPadded 16 v, hexOrDecimal_signed v, nofun⟩

/-- A 16-bit value is read back from its decimal notation. -/
theorem half_decimal (v : Half) : half (Numeral.decimal v.toNat) = .ok v := by
  have read := read?_digits .lower (by decide : 1 < 10) (by decide) v.toNat
  have within : v.toNat ≤ maxSigned := Nat.le_of_lt (Nat.lt_trans v.isLt (by decide))
  have inside : (0 : Int) ≤ v.toNat ∧ (v.toNat : Int) ≤ 65535 := by omega
  unfold half between
  rw [toList_decimal, signed_of_read? read within]
  show (if (0 : Int) ≤ v.toNat ∧ (v.toNat : Int) ≤ 65535 then Except.ok (v.toNat : Int)
    else _).map (BitVec.ofInt 16) = _
  rw [if_pos inside]
  show Except.ok (BitVec.ofInt 16 v.toNat) = _
  rw [BitVec.ofInt_natCast, BitVec.ofNat_toNat, BitVec.setWidth_eq]

end CommandLine
end Handheld
