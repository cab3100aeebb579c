/-
# Numerals that are read back

A numeral is written digit by digit, the last one from the remainder by the base and the others
from the quotient, and the same recursion reads it.  Zeros in front count for nothing.

* `read?_digits`, `read?_padded`: a number is read back from its numeral, in every base up to 16
  and in either case of the letters.
-/
import Handheld.Text.Numeral

namespace Handheld
namespace Numeral

variable {base : Nat}

/-! ## 1. Writing digit by digit -/

/-- How a digit is written. -/
def digitChar : Case → Nat → Char
  | .lower, d => d.digitChar
  | .upper, d => d.digitChar.toUpper

theorem digits_of_lt (case : Case) {n : Nat} (h : n < base) :
    digits base case n = [digitChar case n] := by
  unfold digits
  rw [Nat.toDigits_of_lt_base h]
  cases case with
  | lower => rfl
  | upper => rfl

theorem digits_of_le (case : Case) (hb : 1 < base) {n : Nat} (h : base ≤ n) :
    digits base case n = digits base case (n / base) ++ [digitChar case (n % base)] := by
  unfold digits
  rw [Nat.toDigits_of_base_le hb h]
  cases case with
  | lower => rfl
  | upper => exact List.map_append

theorem digits_ne_nil (case : Case) (n : Nat) : digits base case n ≠ [] := by
  cases case with
  | lower => exact Nat.toDigits_ne_nil
  | upper => exact mt List.map_eq_nil_iff.mp Nat.toDigits_ne_nil

/-! ## 2. Reading digit by digit -/

theorem digitIn?_digitChar (case : Case) (hb : base ≤ 16) {d : Nat} (hd : d < base) :
    digitIn? base (digitChar case d) = some d := by
  have value : ∀ case, ∀ d < 16, digitValue? (digitChar case d) = some d := by
    rintro (_ | _)
    · decide
    · decide
  unfold digitIn?
  rw [value case d (Nat.lt_of_lt_of_le hd hb)]
  exact Option.filter_some_pos (decide_eq_true hd)

theorem value_append (ds : List Nat) (d : Nat) :
    value base (ds ++ [d]) = value base ds * base + d := by
  unfold value
  rw [List.foldl_append]
  rfl

theorem value_replicate_zero (k : Nat) (ds : List Nat) :
    value base (List.replicate k 0 ++ ds) = value base ds := by
  induction k with
  | zero => rfl
  | succ k ih =>
    unfold value at ih ⊢
    rw [List.replicate_succ, List.cons_append, List.foldl_cons, Nat.zero_mul, Nat.add_zero, ih]

/-- The digits of a numeral, by induction on the number. -/
theorem exists_mapM_digits (case : Case) (hb : 1 < base) (hb' : base ≤ 16) (n : Nat) :
    ∃ ds, (digits base case n).mapM (digitIn? base) = some ds ∧ value base ds = n := by
  induction n using Nat.strongRecOn with
  | _ n ih =>
    rcases Nat.lt_or_ge n base with small | large
    · have alone : value base [n] = n := by simp [value]
      refine ⟨[n], ?_, alone⟩
      rw [digits_of_lt case small, List.mapM_cons, digitIn?_digitChar case hb' small]
      rfl
    · obtain ⟨ds, front, held⟩ := ih (n / base) (Nat.div_lt_self (by omega) hb)
      have last : n % base < base := Nat.mod_lt n (by omega)
      refine ⟨ds ++ [n % base], ?_, ?_⟩
      · rw [digits_of_le case hb large, List.mapM_append, front, List.mapM_cons,
          digitIn?_digitChar case hb' last]
        rfl
      · rw [value_append, held, Nat.mul_comm, Nat.div_add_mod]

/-- **A padded numeral is read back.** -/
theorem read?_padded (case : Case) (hb : 1 < base) (hb' : base ≤ 16) (count n : Nat) :
    read? base (padded base case count n) = some n := by
  obtain ⟨ds, written, held⟩ := exists_mapM_digits case hb hb' n
  have zero : digitIn? base '0' = some 0 := digitIn?_digitChar .lower hb' (Nat.zero_lt_of_lt hb)
  have zeros : ∀ k, (List.replicate k '0').mapM (digitIn? base) = some (List.replicate k 0) := by
    intro k
    induction k with
    | zero => rfl
    | succ k ih =>
      rw [List.replicate_succ, List.mapM_cons, zero, ih]
      rfl
  have some_digit : padded base case count n ≠ [] :=
    List.append_ne_nil_of_right_ne_nil _ (digits_ne_nil case n)
  unfold read?
  rw [if_neg (mt List.isEmpty_iff.mp some_digit)]
  unfold padded
  rw [List.mapM_append, zeros, written]
  exact congrArg some ((value_replicate_zero _ ds).trans held)

/-- **A numeral is read back.** -/
theorem read?_digits (case : Case) (hb : 1 < base) (hb' : base ≤ 16) (n : Nat) :
    read? base (digits base case n) = some n := by
  have bare : padded base case 0 n = digits base case n := by
    unfold padded
    dsimp only
    rw [Nat.zero_sub, List.replicate_zero, List.nil_append]
  rw [← bare]
  exact read?_padded case hb hb' 0 n

end Numeral
end Handheld
