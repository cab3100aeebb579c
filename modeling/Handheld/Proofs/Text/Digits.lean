/-
# Digits

A digit is what `Numeral` writes for it, in one case of the letters, and a run of digits stands
for the number that they have in their base.

* `digitIn?_eq_some_iff`: a digit is read from how it is written, and from nothing else;
* `read?_eq_some_iff`: so is a run of digits.
-/
import Mathlib.Data.Nat.Digits.Defs
import Handheld.Proofs.Sequences
import Handheld.Proofs.Text.Numerals

namespace Handheld
namespace Numeral

variable {base : Nat}

/-! ## 1. Single digits -/

/-- The character is how the digit is written in the base, in one case of the letters. -/
def IsDigit (base : Nat) (c : Char) (d : Nat) : Prop :=
  d < base ∧ ∃ case, c = digitChar case d

theorem digitValue?_eq_some {c : Char} {d : Nat} (h : digitValue? c = some d) :
    ∃ case, c = digitChar case d := by
  have decimal : ∀ n < 58, 48 ≤ n → Char.ofNat n = digitChar .lower (n - 48) := by decide
  have lower : ∀ n < 103, 97 ≤ n → Char.ofNat n = digitChar .lower (n - 97 + 10) := by decide
  have upper : ∀ n < 71, 65 ≤ n → Char.ofNat n = digitChar .upper (n - 65 + 10) := by decide
  unfold digitValue? at h
  split at h
  · rename_i range
    cases h
    exact ⟨.lower, (Char.ofNat_toNat c).symm.trans
      (decimal c.toNat (Nat.lt_succ_of_le range.2) range.1)⟩
  · split at h
    · rename_i range
      cases h
      exact ⟨.lower, (Char.ofNat_toNat c).symm.trans
        (lower c.toNat (Nat.lt_succ_of_le range.2) range.1)⟩
    · split at h
      · rename_i range
        cases h
        exact ⟨.upper, (Char.ofNat_toNat c).symm.trans
          (upper c.toNat (Nat.lt_succ_of_le range.2) range.1)⟩
      · cases h

/-- A digit is read from how it is written, and from nothing else. -/
theorem digitIn?_eq_some_iff (hb : base ≤ 16) {c : Char} {d : Nat} :
    digitIn? base c = some d ↔ IsDigit base c d := by
  constructor
  · intro h
    obtain ⟨value, small⟩ := Option.filter_eq_some_iff.mp h
    exact ⟨of_decide_eq_true small, digitValue?_eq_some value⟩
  · rintro ⟨small, case, rfl⟩
    exact digitIn?_digitChar case hb small

theorem value_eq_ofDigits (ds : List Nat) : value base ds = Nat.ofDigits base ds.reverse := by
  rw [value, List.foldl_eq_foldr_reverse, Nat.ofDigits_eq_foldr]
  congr 1
  funext d n
  rw [Nat.add_comm, Nat.mul_comm]
  rfl

theorem not_isDigit (hb : base ≤ 16) {c : Char} (h : digitIn? base c = none) (d : Nat) :
    ¬IsDigit base c d := by
  intro stands
  rw [(digitIn?_eq_some_iff hb).mpr stands] at h
  cases h

/-- The character `0` stands for nothing else. -/
theorem eq_zero_of_isDigit (hb : base ≤ 16) {d : Nat} (h : IsDigit base '0' d) : d = 0 := by
  have read := (Option.filter_eq_some_iff.mp ((digitIn?_eq_some_iff hb).mpr h)).1
  cases read
  rfl

/-! ## 2. Runs of digits -/

variable {cs : List Char} {n : Nat}

/-- One or more digits, and the number that they stand for. -/
structure Digits (base : Nat) (cs : List Char) (n : Nat) : Prop where
  some : cs ≠ []
  held : ∃ ds, List.Forall₂ (IsDigit base) cs ds ∧ n = Nat.ofDigits base ds.reverse

theorem mapM_digitIn?_eq_some_iff (hb : base ≤ 16) {ds : List Nat} :
    cs.mapM (digitIn? base) = some ds ↔ List.Forall₂ (IsDigit base) cs ds := by
  simp only [mapM_eq_some_iff, digitIn?_eq_some_iff hb]

theorem read?_eq_some_iff (hb : base ≤ 16) : read? base cs = some n ↔ Digits base cs n := by
  unfold read?
  split
  · rename_i empty
    refine ⟨nofun, fun digits => absurd ?_ digits.some⟩
    simpa using empty
  · rename_i some
    simp only [Option.map_eq_some_iff, mapM_digitIn?_eq_some_iff hb, value_eq_ofDigits]
    constructor
    · rintro ⟨ds, digits, rfl⟩
      exact ⟨by simpa using some, ds, digits, rfl⟩
    · rintro ⟨-, ds, digits, rfl⟩
      exact ⟨ds, digits, rfl⟩

/-- A character that is no digit does not stand in front of digits. -/
theorem not_digits_cons (hb : base ≤ 16) {c : Char} (h : digitIn? base c = none) :
    ¬Digits base (c :: cs) n := by
  rintro ⟨-, ds, digits, -⟩
  obtain ⟨d, ds, digit, -, -⟩ := List.forall₂_cons_left_iff.mp digits
  exact not_isDigit hb h d digit

end Numeral
end Handheld
