/-
# The language of 64-bit numbers

A 64-bit number is spelled as any number of minus signs, then `0x` if its digits are
hexadecimal, then one plus sign or none, and then at least one digit.  `Spelled` is what may
stand after the minus signs, and each of these signs negates the value once, modulo 2 ^ 64.

The reader of digits stops at the first fault, and the value that it has reached never goes down.
So a run of digits is read if what it stands for is within the limit.

* `someDigits_eq_ok_iff`: reading digits one by one is reading them at once;
* `unsigned_eq_ok_iff`, `plain_eq_ok_iff`: numbers with no minus sign;
* `hexOrDecimal_replicate`: what the minus signs do;
* `numbers_read`: what the reader makes of every text.
-/
import Mathlib.Algebra.Group.Nat.Even
import Handheld.CommandLine.Number
import Handheld.Proofs.Text.Digits

namespace Handheld
namespace CommandLine

open Numeral

/-! ## 1. Digits up to a limit -/

section Limits

variable {base limit : Nat} {beyond : NumberFault}

theorem le_foldl_digits (hb : 0 < base) (ds : List Nat) (n : Nat) :
    n ≤ ds.foldl (fun n d => n * base + d) n := by
  induction ds generalizing n with
  | nil => exact Nat.le_refl n
  | cons d ds ih =>
    rw [List.foldl_cons]
    calc n ≤ n * base := Nat.le_mul_of_pos_right n hb
      _ ≤ n * base + d := Nat.le_add_right _ d
      _ ≤ _ := ih _

/-- By induction on the characters: the limit holds all the way if it holds at the end. -/
theorem digitsFrom_eq_ok_iff (hb : 0 < base) (cs : List Char) {n m : Nat} (hn : n ≤ limit) :
    digitsFrom base limit beyond n cs = .ok m ↔
      (cs.mapM (digitIn? base)).map (·.foldl (fun n d => n * base + d) n) = some m ∧
        m ≤ limit := by
  induction cs generalizing n with
  | nil =>
    constructor
    · rintro ⟨⟩
      exact ⟨rfl, hn⟩
    · rintro ⟨⟨⟩, -⟩
      rfl
  | cons c cs ih =>
    unfold digitsFrom
    rw [List.mapM_cons]
    cases digitIn? base c with
    | none => exact ⟨nofun, fun ⟨h, _⟩ => nomatch h⟩
    | some d =>
      have rest : (some d >>= fun d => cs.mapM (digitIn? base) >>= fun ds =>
            pure (d :: ds)).map (·.foldl (fun n d => n * base + d) n) =
          (cs.mapM (digitIn? base)).map (·.foldl (fun n d => n * base + d) (n * base + d)) := by
        cases cs.mapM (digitIn? base) with
        | none => rfl
        | some ds => rfl
      rw [rest]
      dsimp only
      split
      · rename_i beyond_limit
        refine ⟨nofun, fun ⟨read, within⟩ => ?_⟩
        obtain ⟨ds, -, rfl⟩ := Option.map_eq_some_iff.mp read
        have up := le_foldl_digits hb ds (n * base + d)
        omega
      · rename_i within
        exact ih (Nat.le_of_not_lt within)

/-- **Reading digits up to a limit is reading a numeral and then looking at the limit.** -/
theorem someDigits_eq_ok_iff (hb : 0 < base) (cs : List Char) {m : Nat} :
    someDigits base limit beyond cs = .ok m ↔ read? base cs = some m ∧ m ≤ limit := by
  cases cs with
  | nil => exact ⟨nofun, fun ⟨h, _⟩ => nomatch h⟩
  | cons c cs => exact digitsFrom_eq_ok_iff hb (c :: cs) (Nat.zero_le limit)

end Limits

/-! ## 2. Without a minus sign -/

theorem digitIn?_plus {base : Nat} : digitIn? base '+' = none := by
  have no_value : digitValue? '+' = none := by decide
  unfold digitIn?
  rw [no_value, Option.filter_none]

/-- Digits with a plus sign in front of them, or without one. -/
inductive Positive (base : Nat) : List Char → Nat → Prop
  | bare {cs n} (digits : Digits base cs n) : Positive base cs n
  | plus {cs n} (digits : Digits base cs n) : Positive base ('+' :: cs) n

/-- What may stand after the minus signs, and the number it is. -/
inductive Spelled : List Char → Nat → Prop
  | hexadecimal {cs n} (digits : Positive 16 cs n) : Spelled ('0' :: 'x' :: cs) n
  | decimal {cs n} (digits : Positive 10 cs n) : Spelled cs n

section Plain

variable {base limit : Nat} {cs : List Char} {n : Nat}

theorem positive_plus_iff (hb : base ≤ 16) : Positive base ('+' :: cs) n ↔ Digits base cs n := by
  constructor
  · intro h
    cases h with
    | bare digits => exact absurd digits (not_digits_cons hb digitIn?_plus)
    | plus digits => exact digits
  · exact .plus

theorem positive_iff_of_ne {c : Char} (h : c ≠ '+') :
    Positive base (c :: cs) n ↔ Digits base (c :: cs) n := by
  constructor
  · intro positive
    cases positive with
    | bare digits => exact digits
    | plus digits => exact absurd rfl h
  · exact .bare

theorem not_positive_nil : ¬Positive base [] n := by
  intro h
  cases h with
  | bare digits => exact digits.some rfl

theorem unsigned_eq_ok_iff (hb : 0 < base) (hb' : base ≤ 16) :
    unsigned base limit cs = .ok n ↔ Positive base cs n ∧ n ≤ limit := by
  unfold unsigned
  split
  · simp [not_positive_nil]
  · rw [someDigits_eq_ok_iff hb, read?_eq_some_iff hb', positive_plus_iff hb']
  · rename_i some no_plus
    cases cs with
    | nil => exact absurd rfl some
    | cons c cs =>
      have other : c ≠ '+' := by
        rintro rfl
        exact no_plus cs rfl
      rw [someDigits_eq_ok_iff hb, read?_eq_some_iff hb', positive_iff_of_ne other]

/-- The reader where there is no minus sign. -/
def plain : List Char → Except NumberFault Double
  | '0' :: 'x' :: cs => (unsigned 16 maxUnsigned cs).map (BitVec.ofNat 64)
  | cs => (unsigned 10 maxUnsigned cs).map (BitVec.ofNat 64)

theorem map_ofNat_eq_ok_iff {r : Except NumberFault Nat} {v : Double}
    (within : ∀ n, r = .ok n → n < 2 ^ 64) :
    r.map (BitVec.ofNat 64) = .ok v ↔ r = .ok v.toNat := by
  cases r with
  | error fault => exact ⟨nofun, nofun⟩
  | ok n =>
    have small := within n rfl
    simp only [Except.map, Except.ok.injEq]
    rw [← BitVec.toNat_inj, BitVec.toNat_ofNat, Nat.mod_eq_of_lt small]

theorem map_unsigned_eq_ok_iff (hb : 0 < base) (hb' : base ≤ 16) {v : Double} :
    (unsigned base maxUnsigned cs).map (BitVec.ofNat 64) = .ok v ↔ Positive base cs v.toNat := by
  have largest : ∀ n, n ≤ maxUnsigned ↔ n < 2 ^ 64 := fun n => Nat.lt_succ_iff.symm
  rw [map_ofNat_eq_ok_iff, unsigned_eq_ok_iff hb hb', largest]
  · exact and_iff_left v.isLt
  · intro n read
    exact (largest n).mp ((unsigned_eq_ok_iff hb hb').mp read).2

/-- The `x` of a hexadecimal number is no decimal digit. -/
theorem not_positive_mark : ¬Positive 10 ('0' :: 'x' :: cs) n := by
  have no_digit : digitIn? 10 'x' = none := by decide +kernel
  rw [positive_iff_of_ne (by decide)]
  rintro ⟨-, ds, digits, -⟩
  obtain ⟨_, _, -, rest, -⟩ := List.forall₂_cons_left_iff.mp digits
  obtain ⟨d, _, digit, -, -⟩ := List.forall₂_cons_left_iff.mp rest
  exact not_isDigit (by decide) no_digit d digit

theorem plain_eq_ok_iff {v : Double} : plain cs = .ok v ↔ Spelled cs v.toNat := by
  unfold plain
  split
  · rename_i cs
    rw [map_unsigned_eq_ok_iff (by decide) (by decide)]
    constructor
    · exact .hexadecimal
    · intro h
      cases h with
      | hexadecimal digits => exact digits
      | decimal digits => exact absurd digits not_positive_mark
  · rename_i no_mark
    rw [map_unsigned_eq_ok_iff (by decide) (by decide)]
    constructor
    · exact .decimal
    · intro h
      cases h with
      | hexadecimal digits => exact absurd rfl (no_mark _)
      | decimal digits => exact digits

theorem Spelled.head_ne (h : Spelled cs n) : cs.head? ≠ some '-' := by
  have no_digit : digitIn? 10 '-' = none := by decide +kernel
  cases h with
  | hexadecimal digits => simp
  | decimal digits =>
    cases cs with
    | nil => nofun
    | cons c cs =>
      rintro ⟨⟩
      rw [positive_iff_of_ne (by decide)] at digits
      exact not_digits_cons (by decide) no_digit digits

end Plain

/-! ## 3. Minus signs -/

/-- The value behind `k` minus signs. -/
def negated (k : Nat) (v : Double) : Double := if Even k then v else -v

theorem negated_succ (k : Nat) (v : Double) : negated (k + 1) v = -negated k v := by
  by_cases h : Even k
  · simp [negated, Nat.even_add_one, h]
  · simp [negated, Nat.even_add_one, h]

theorem toNat_negated (k : Nat) (v : Double) :
    (negated k v).toNat = if Even k then v.toNat else (2 ^ 64 - v.toNat) % 2 ^ 64 := by
  unfold negated
  split
  · rfl
  · exact BitVec.toNat_neg v

theorem hexOrDecimal_of_head {cs : List Char} (h : cs.head? ≠ some '-') :
    hexOrDecimal cs = plain cs := by
  unfold hexOrDecimal plain
  split
  · exact absurd rfl h
  · rfl
  · rename_i no_mark
    split
    · exact absurd rfl (no_mark _)
    · rfl

theorem Spelled.read {cs : List Char} {v : Double} (h : Spelled cs v.toNat) :
    hexOrDecimal cs = .ok v := by
  rw [hexOrDecimal_of_head h.head_ne]
  exact plain_eq_ok_iff.mpr h

theorem hexOrDecimal_replicate (k : Nat) (cs : List Char) :
    hexOrDecimal (List.replicate k '-' ++ cs) = (hexOrDecimal cs).map (negated k) := by
  induction k with
  | zero =>
    rw [List.replicate_zero, List.nil_append]
    cases hexOrDecimal cs with
    | error fault => rfl
    | ok v => rfl
  | succ k ih =>
    rw [List.replicate_succ, List.cons_append, hexOrDecimal, ih]
    cases hexOrDecimal cs with
    | error fault => rfl
    | ok v => exact congrArg Except.ok (negated_succ k v).symm

/-- Every text has so many minus signs in front and no more. -/
theorem exists_minuses (cs : List Char) :
    ∃ k rest, cs = List.replicate k '-' ++ rest ∧ rest.head? ≠ some '-' := by
  induction cs with
  | nil => exact ⟨0, [], rfl, nofun⟩
  | cons c cs ih =>
    by_cases h : c = '-'
    · obtain ⟨k, rest, rfl, first⟩ := ih
      exact ⟨k + 1, rest, by rw [h, List.replicate_succ, List.cons_append], first⟩
    · exact ⟨0, c :: cs, rfl, by simpa using h⟩

theorem hexOrDecimal_eq_ok_iff {cs : List Char} {v : Double} :
    hexOrDecimal cs = .ok v ↔ ∃ k rest n, cs = List.replicate k '-' ++ rest ∧ Spelled rest n ∧
      n < 2 ^ 64 ∧ v.toNat = if Even k then n else (2 ^ 64 - n) % 2 ^ 64 := by
  constructor
  · intro read
    obtain ⟨k, rest, rfl, first⟩ := exists_minuses cs
    rw [hexOrDecimal_replicate, hexOrDecimal_of_head first] at read
    cases found : plain rest with
    | error fault =>
      rw [found] at read
      cases read
    | ok w =>
      rw [found] at read
      obtain rfl := Except.ok.inj read
      exact ⟨k, rest, w.toNat, rfl, plain_eq_ok_iff.mp found, w.isLt, toNat_negated k w⟩
  · rintro ⟨k, rest, n, rfl, spelled, small, value⟩
    have held : (BitVec.ofNat 64 n).toNat = n := Nat.mod_eq_of_lt small
    rw [← held] at spelled
    rw [hexOrDecimal_replicate, spelled.read]
    refine congrArg Except.ok (BitVec.eq_of_toNat_eq ?_)
    rw [toNat_negated, held, value]

/-! ## 4. How deep the reader goes -/

/-- The reader, which gives up at a minus sign when it has gone down `depth` times. -/
def hexOrDecimalWithin : Nat → List Char → Option (Except NumberFault Double)
  | 0, '-' :: _ => none
  | depth + 1, '-' :: cs => (hexOrDecimalWithin depth cs).map (·.map (-·))
  | _, cs => some (plain cs)

theorem hexOrDecimalWithin_of_head {cs : List Char} (h : cs.head? ≠ some '-') (depth : Nat) :
    hexOrDecimalWithin depth cs = some (plain cs) := by
  unfold hexOrDecimalWithin
  split
  · exact absurd rfl h
  · exact absurd rfl h
  · rfl

/-- By induction on the minus signs, each of which takes one level. -/
theorem hexOrDecimalWithin_replicate (k depth : Nat) {rest : List Char}
    (h : rest.head? ≠ some '-') :
    hexOrDecimalWithin depth (List.replicate k '-' ++ rest) =
      if k ≤ depth then some (hexOrDecimal (List.replicate k '-' ++ rest)) else none := by
  induction k generalizing depth with
  | zero =>
    rw [if_pos (Nat.zero_le depth)]
    exact (hexOrDecimalWithin_of_head h depth).trans (congrArg some (hexOrDecimal_of_head h).symm)
  | succ k ih =>
    rw [List.replicate_succ, List.cons_append]
    cases depth with
    | zero => rfl
    | succ depth =>
      rw [hexOrDecimalWithin, ih, hexOrDecimal]
      by_cases within : k ≤ depth
      · rw [if_pos within, if_pos (Nat.succ_le_succ within)]
        rfl
      · rw [if_neg within, if_neg (by omega)]
        rfl

/-! ## 5. The readers of arguments -/

theorem double_eq_ok_iff {s : String} {v : Double} :
    double s = .ok v ↔ hexOrDecimal s.toList = .ok v := by
  unfold double
  cases hexOrDecimal s.toList with
  | error fault => exact ⟨nofun, nofun⟩
  | ok w => simp [Except.mapError]

theorem byte_eq_ok_iff {s : String} {b : Byte} :
    byte s = .ok b ↔ ∃ v, double s = .ok v ∧ v.toNat ≤ 255 ∧ b.toNat = v.toNat := by
  unfold byte
  cases double s with
  | error reason => exact ⟨nofun, nofun⟩
  | ok v =>
    simp only [bind, Except.bind, Except.ok.injEq, exists_eq_left']
    split
    · rename_i small
      have held : (v.setWidth 8).toNat = v.toNat := by
        rw [BitVec.toNat_setWidth]
        exact Nat.mod_eq_of_lt small
      simp only [pure, Except.pure, Except.ok.injEq, ← BitVec.toNat_inj, held]
      exact ⟨fun same => ⟨Nat.le_of_lt_succ small, same.symm⟩, fun h => h.2.symm⟩
    · rename_i large
      exact ⟨nofun, fun ⟨small, _⟩ => absurd (Nat.lt_succ_of_le small) large⟩

/-- **A 64-bit number is read exactly if it is spelled as one and its digits fit**, and a byte if
its value fits in addition.  The reader goes as deep as there are minus signs in front, and so it
comes to an end on every text. -/
theorem numbers_read (s : String) :
    (∀ v, double s = .ok v ↔ ∃ k rest n, s.toList = List.replicate k '-' ++ rest ∧
      Spelled rest n ∧ n < 2 ^ 64 ∧ v.toNat = if Even k then n else (2 ^ 64 - n) % 2 ^ 64) ∧
    (∀ b, byte s = .ok b ↔ ∃ v, double s = .ok v ∧ v.toNat ≤ 255 ∧ b.toNat = v.toNat) ∧
    ∃ k rest, s.toList = List.replicate k '-' ++ rest ∧ rest.head? ≠ some '-' ∧
      ∀ depth, hexOrDecimalWithin depth s.toList =
        if k ≤ depth then some (hexOrDecimal s.toList) else none := by
  refine ⟨fun v => double_eq_ok_iff.trans hexOrDecimal_eq_ok_iff, fun b => byte_eq_ok_iff, ?_⟩
  obtain ⟨k, rest, split, first⟩ := exists_minuses s.toList
  refine ⟨k, rest, split, first, fun depth => ?_⟩
  rw [split]
  exact hexOrDecimalWithin_replicate k depth first

example : double "--0x+fF" = .ok 0xFF ∧ byte "-0" = .ok 0 := ⟨rfl, rfl⟩

end CommandLine
end Handheld
