/-
# Between two points and beyond them

A converter value is found on the line through two points, with one division toward zero, and is
then cut to twelve bits.  The division rounds up on one side of the first point and down on the
other; that keeps the order of the values, and leaves each of them less than one away from the
line.

* `lineStrictly_eq`: 64 bits are enough on the way, for every 32-bit position;
* `line_le_line`, `abs_line_sub_lt_one`: order and distance;
* `samples_on_line`: all that is known of the values that come out.
-/
import Handheld.Touch.Calibration
import Mathlib.Algebra.Order.Field.Basic
import Mathlib.Algebra.Order.Field.Rat
import Mathlib.Algebra.Order.Ring.Int
import Mathlib.Data.Rat.Cast.Order
import Mathlib.Tactic.FieldSimp
import Mathlib.Tactic.Ring

namespace Handheld

/-! ## 1. Division toward zero -/

section Quotients

variable {m c p q : Int}

/-- Quotients of multiples go up with them where factor and divisor are not of opposite signs. -/
theorem tdiv_le_tdiv_of_mul_nonneg (hc : c ≠ 0) (h : 0 ≤ m * c) (le : p ≤ q) :
    (p * m).tdiv c ≤ (q * m).tdiv c := by
  rcases lt_or_gt_of_ne hc with negative | positive
  · have hm : m ≤ 0 := nonpos_of_mul_nonneg_left h negative
    have products : p * -m ≤ q * -m := mul_le_mul_of_nonneg_right le (neg_nonneg.mpr hm)
    have quotients := Int.tdiv_le_tdiv (neg_pos.mpr negative) products
    rwa [mul_neg, mul_neg, Int.neg_tdiv_neg, Int.neg_tdiv_neg] at quotients
  · have hm : 0 ≤ m := nonneg_of_mul_nonneg_left h positive
    exact Int.tdiv_le_tdiv positive (mul_le_mul_of_nonneg_right le hm)

/-- They go down where factor and divisor are not of one sign. -/
theorem tdiv_le_tdiv_of_mul_nonpos (hc : c ≠ 0) (h : m * c ≤ 0) (le : p ≤ q) :
    (q * m).tdiv c ≤ (p * m).tdiv c := by
  have opposite : 0 ≤ -m * c := by
    rw [neg_mul]
    exact neg_nonneg.mpr h
  have quotients := tdiv_le_tdiv_of_mul_nonneg hc opposite le
  rw [mul_neg, mul_neg, Int.neg_tdiv, Int.neg_tdiv] at quotients
  exact neg_le_neg_iff.mp quotients

/-- What a division toward zero leaves out is less than one. -/
theorem abs_tdiv_sub_div_lt_one (n : Int) (hc : c ≠ 0) : |(n.tdiv c : ℚ) - n / c| < 1 := by
  have divisor : (c : ℚ) ≠ 0 := Int.cast_ne_zero.mpr hc
  have exact : (n : ℚ) = n.tdiv c * c + n.tmod c := by
    exact_mod_cast (Int.tdiv_mul_add_tmod n c).symm
  have left_out : (n.tdiv c : ℚ) - n / c = -(n.tmod c / c) := by
    rw [exact]
    field_simp
    ring
  have smaller : |n.tmod c| < |c| := by
    rw [Int.abs_eq_natAbs, Int.abs_eq_natAbs, Int.natAbs_tmod]
    exact_mod_cast Nat.mod_lt _ (Int.natAbs_pos.mpr hc)
  rw [left_out, abs_neg, abs_div, div_lt_one (abs_pos.mpr divisor)]
  exact_mod_cast smaller

end Quotients

namespace Calibration

variable {adc1 adc2 : Half} {screen1 screen2 : Byte}

/-- How far the second value is above the first. -/
def rise (adc1 adc2 : Half) : Int := adc2.toNat - adc1.toNat

/-- How far the second position is beyond the first. -/
def span (screen1 screen2 : Byte) : Int := screen2.toNat - screen1.toNat

theorem span_eq_zero_iff : span screen1 screen2 = 0 ↔ screen1 = screen2 := by
  unfold span
  rw [← BitVec.toNat_inj]
  omega

theorem line_of_eq (position : Int) (h : screen1 = screen2) :
    line position adc1 screen1 adc2 screen2 = adc1.toNat :=
  if_pos (span_eq_zero_iff.mpr h)

theorem line_of_ne (position : Int) (h : screen1 ≠ screen2) :
    line position adc1 screen1 adc2 screen2 =
      ((position - screen1.toNat) * rise adc1 adc2).tdiv (span screen1 screen2) + adc1.toNat :=
  if_neg (mt span_eq_zero_iff.mp h)

/-! ## 2. Machine arithmetic -/

/-- The integer, if it is a 64-bit number with a sign. -/
def signed? (z : Int) : Option Int := if -2 ^ 63 ≤ z ∧ z < 2 ^ 63 then some z else none

/-- `line`, with nothing to go on with where a step takes more than 64 bits. -/
def lineStrictly (position : Int) (adc1 : Half) (screen1 : Byte) (adc2 : Half) (screen2 : Byte) :
    Option Int := do
  let across ← signed? (span screen1 screen2)
  if across = 0 then signed? adc1.toNat
  else
    let run ← signed? (position - screen1.toNat)
    let up ← signed? (rise adc1 adc2)
    let product ← signed? (run * up)
    let quotient ← signed? (product.tdiv across)
    signed? (quotient + adc1.toNat)

theorem signed?_of_natAbs {z : Int} (h : z.natAbs < 2 ^ 63) : signed? z = some z :=
  if_pos (by omega)

/-- The product is the largest number on the way, with 48 bits and a sign. -/
theorem lineStrictly_eq (position : Word) (adc1 : Half) (screen1 : Byte) (adc2 : Half)
    (screen2 : Byte) :
    lineStrictly position.toInt adc1 screen1 adc2 screen2 =
      some (line position.toInt adc1 screen1 adc2 screen2) := by
  have across : (span screen1 screen2).natAbs < 2 ^ 8 := by
    unfold span
    omega
  have run : (position.toInt - screen1.toNat).natAbs ≤ 2 ^ 31 + 2 ^ 8 := by
    have upper := position.two_mul_toInt_lt
    have lower := position.le_two_mul_toInt
    omega
  have up : (rise adc1 adc2).natAbs ≤ 2 ^ 16 := by
    unfold rise
    omega
  have product : ((position.toInt - screen1.toNat) * rise adc1 adc2).natAbs ≤
      (2 ^ 31 + 2 ^ 8) * 2 ^ 16 := by
    rw [Int.natAbs_mul]
    exact Nat.mul_le_mul run up
  have quotient := Int.natAbs_tdiv_le_natAbs
    ((position.toInt - screen1.toNat) * rise adc1 adc2) (span screen1 screen2)
  unfold lineStrictly
  rw [signed?_of_natAbs (by omega), Option.bind_eq_bind, Option.bind_some]
  split
  · rename_i zero
    rw [line_of_eq _ (span_eq_zero_iff.mp zero)]
    exact signed?_of_natAbs (by omega)
  · rename_i nonzero
    rw [line_of_ne _ (mt span_eq_zero_iff.mpr nonzero)]
    simp only [signed?_of_natAbs (Nat.lt_of_le_of_lt run (by decide)),
      signed?_of_natAbs (Nat.lt_of_le_of_lt up (by decide)),
      signed?_of_natAbs (Nat.lt_of_le_of_lt product (by decide)),
      signed?_of_natAbs (Nat.lt_of_le_of_lt (quotient.trans product) (by decide)),
      Option.bind_some]
    exact signed?_of_natAbs (by omega)

/-! ## 3. The line -/

section Line

variable {p q : Int}

theorem line_first (h : screen1 ≠ screen2) :
    line screen1.toNat adc1 screen1 adc2 screen2 = adc1.toNat := by
  rw [line_of_ne _ h, Int.sub_self, Int.zero_mul, Int.zero_tdiv, Int.zero_add]

theorem line_second (h : screen1 ≠ screen2) :
    line screen2.toNat adc1 screen1 adc2 screen2 = adc2.toNat := by
  have nonzero : span screen1 screen2 ≠ 0 := mt span_eq_zero_iff.mp h
  have whole : (screen2.toNat : Int) - screen1.toNat = span screen1 screen2 := rfl
  rw [line_of_ne _ h, whole, Int.mul_comm, Int.mul_tdiv_cancel _ nonzero, rise, Int.sub_add_cancel]

/-- The line goes up where both differences have one sign. -/
theorem line_le_line (h : screen1 ≠ screen2)
    (same : (rise adc1 adc2).sign = (span screen1 screen2).sign) (le : p ≤ q) :
    line p adc1 screen1 adc2 screen2 ≤ line q adc1 screen1 adc2 screen2 := by
  have nonzero : span screen1 screen2 ≠ 0 := mt span_eq_zero_iff.mp h
  have upward : 0 ≤ rise adc1 adc2 * span screen1 screen2 := by
    apply Int.sign_nonneg_iff.mp
    rw [Int.sign_mul, same]
    exact mul_self_nonneg _
  rw [line_of_ne _ h, line_of_ne _ h]
  exact Int.add_le_add_right
    (tdiv_le_tdiv_of_mul_nonneg nonzero upward (Int.sub_le_sub_right le _)) _

/-- It goes down where they have not. -/
theorem line_le_line_of_ne (h : screen1 ≠ screen2)
    (other : (rise adc1 adc2).sign ≠ (span screen1 screen2).sign) (le : p ≤ q) :
    line q adc1 screen1 adc2 screen2 ≤ line p adc1 screen1 adc2 screen2 := by
  have nonzero : span screen1 screen2 ≠ 0 := mt span_eq_zero_iff.mp h
  have downward : rise adc1 adc2 * span screen1 screen2 ≤ 0 := by
    rcases lt_or_gt_of_ne nonzero with negative | positive
    · have up : 0 ≤ rise adc1 adc2 := by
        rw [Int.sign_eq_neg_one_of_neg negative] at other
        exact Int.not_lt.mp (mt Int.sign_eq_neg_one_of_neg other)
      exact mul_nonpos_of_nonneg_of_nonpos up negative.le
    · have down : rise adc1 adc2 ≤ 0 := by
        rw [Int.sign_eq_one_of_pos positive] at other
        exact Int.not_lt.mp (mt Int.sign_eq_one_of_pos other)
      exact mul_nonpos_of_nonpos_of_nonneg down positive.le
  rw [line_of_ne _ h, line_of_ne _ h]
  exact Int.add_le_add_right
    (tdiv_le_tdiv_of_mul_nonpos nonzero downward (Int.sub_le_sub_right le _)) _

theorem line_of_level (h : adc1 = adc2) (p : Int) :
    line p adc1 screen1 adc2 screen2 = adc1.toNat := by
  by_cases same : screen1 = screen2
  · exact line_of_eq p same
  · have level : rise adc1 adc2 = 0 := by
      rw [rise, h, Int.sub_self]
    rw [line_of_ne p same, level, Int.mul_zero, Int.zero_tdiv, Int.zero_add]

/-- The line as it is before anything is rounded. -/
def exactLine (position : Int) (adc1 : Half) (screen1 : Byte) (adc2 : Half) (screen2 : Byte) : ℚ :=
  adc1.toNat +
    (position - screen1.toNat) * ((adc2.toNat - adc1.toNat) / (screen2.toNat - screen1.toNat))

theorem abs_line_sub_lt_one (h : screen1 ≠ screen2) (p : Int) :
    |line p adc1 screen1 adc2 screen2 - exactLine p adc1 screen1 adc2 screen2| < 1 := by
  have nonzero : span screen1 screen2 ≠ 0 := mt span_eq_zero_iff.mp h
  have distance := abs_tdiv_sub_div_lt_one ((p - screen1.toNat) * rise adc1 adc2) nonzero
  have exact : exactLine p adc1 screen1 adc2 screen2 =
      adc1.toNat + ((p - screen1.toNat) * rise adc1 adc2 : Int) / (span screen1 screen2 : Int) := by
    unfold exactLine rise span
    push_cast
    ring
  rw [line_of_ne p h, exact]
  push_cast at distance ⊢
  rwa [add_comm (adc1.toNat : ℚ), add_sub_add_right_eq_sub]

end Line

/-! ## 4. Twelve bits -/

/-- The nearest number of twelve bits. -/
def nearest (z : Int) : Nat := (max 0 (min z adcMax)).toNat

theorem nearest_natCast (n : Nat) : nearest n = min n 0xFFF := by
  unfold nearest adcMax
  omega

theorem nearest_le_nearest {z z' : Int} (h : z ≤ z') : nearest z ≤ nearest z' := by
  unfold nearest
  omega

theorem nearest_le (z : Int) : nearest z ≤ 0xFFF := by
  unfold nearest adcMax
  omega

theorem toNat_interpolate_eq_nearest (position : Int) :
    (interpolate position adc1 screen1 adc2 screen2).toNat =
      nearest (line position adc1 screen1 adc2 screen2) := by
  unfold interpolate nearest adcMax
  rw [BitVec.toNat_ofInt]
  omega

/-- **What a position is converted to.**  A 32-bit position never takes the machine beyond 64
bits.  Through two positions that differ, the values at both are those of the calibration cut to
twelve bits, they go up with the position or down, as the points do, and less than one is lost
before they are cut; over a single position the first value stands throughout. -/
theorem samples_on_line (adc1 : Half) (screen1 : Byte) (adc2 : Half) (screen2 : Byte) :
    let sample (position : Int) := (interpolate position adc1 screen1 adc2 screen2).toNat
    (∀ position : Word, lineStrictly position.toInt adc1 screen1 adc2 screen2 =
      some (line position.toInt adc1 screen1 adc2 screen2)) ∧
    (∀ position, sample position ≤ 0xFFF) ∧
    (screen1 ≠ screen2 →
      sample screen1.toNat = min adc1.toNat 0xFFF ∧
      sample screen2.toNat = min adc2.toNat 0xFFF ∧
      ((rise adc1 adc2).sign = (span screen1 screen2).sign →
        ∀ position position', position ≤ position' → sample position ≤ sample position') ∧
      ((rise adc1 adc2).sign ≠ (span screen1 screen2).sign →
        ∀ position position', position ≤ position' → sample position' ≤ sample position) ∧
      (adc1 = adc2 → ∀ position position', sample position = sample position') ∧
      ∀ position, |line position adc1 screen1 adc2 screen2 -
        exactLine position adc1 screen1 adc2 screen2| < 1) ∧
    (screen1 = screen2 → ∀ position, sample position = min adc1.toNat 0xFFF) := by
  intro sample
  have value : ∀ position,
      sample position = nearest (line position adc1 screen1 adc2 screen2) :=
    fun position => toNat_interpolate_eq_nearest position
  refine ⟨fun position => lineStrictly_eq position adc1 screen1 adc2 screen2, ?_, ?_, ?_⟩
  · intro position
    rw [value]
    exact nearest_le _
  · intro apart
    refine ⟨?_, ?_, ?_, ?_, ?_, abs_line_sub_lt_one apart⟩
    · rw [value, line_first apart, nearest_natCast]
    · rw [value, line_second apart, nearest_natCast]
    · intro same p q le
      rw [value, value]
      exact nearest_le_nearest (line_le_line apart same le)
    · intro other p q le
      rw [value, value]
      exact nearest_le_nearest (line_le_line_of_ne apart other le)
    · intro level p q
      rw [value, value, line_of_level level, line_of_level level]
  · intro together position
    rw [value, line_of_eq position together, nearest_natCast]

/-- The second point is to the left of the first and below it, and the first one is above twelve
bits; then it is above the first, so that the values go down; and then right over it. -/
theorem samples_on_line_leftward :
    (interpolate 240 0x1200 240 0x64 16).toNat = 0xFFF ∧
      (interpolate 15 0x1200 240 0x64 16).toNat ≤ (interpolate 16 0x1200 240 0x64 16).toNat ∧
      (interpolate 16 0x64 240 0xFFFF 16).toNat ≤ (interpolate 15 0x64 240 0xFFFF 16).toNat ∧
      (interpolate (-500) 0x300 50 0xC00 50).toNat = 0x300 := by
  obtain ⟨first, -, up, -⟩ := (samples_on_line 0x1200 240 0x64 16).2.2.1 (by decide)
  obtain ⟨-, -, -, down, -⟩ := (samples_on_line 0x64 240 0xFFFF 16).2.2.1 (by decide)
  exact ⟨first, up (by decide) 15 16 (by decide), down (by decide) 15 16 (by decide),
    (samples_on_line 0x300 50 0xC00 50).2.2.2 rfl (-500)⟩

end Calibration
end Handheld
