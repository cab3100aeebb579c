/-
# Machine words and their parts

Every quantity on the buses is a bit vector of one of four widths.  `Bits` names the parts
of a word: a single bit, a field of adjacent bits, a byte.  Positions count from the least
significant end.

* `Bits.get_set`: a written bit is read back, the other bits stay;
* `Bits.get_field`: a field holds exactly its bits, and zeros above them;
* `Bits.eq_of_byte_eq`: the bytes of a word determine it.
-/

namespace Handheld

abbrev Byte := BitVec 8
abbrev Half := BitVec 16
abbrev Word := BitVec 32
abbrev Double := BitVec 64

namespace Bits

variable {w : Nat}

/-! ## 1. Single bits -/

def get (v : BitVec w) (i : Nat) : Bool := v.getLsbD i

def set (v : BitVec w) (i : Nat) (b : Bool) : BitVec w :=
  if b then v ||| (1#w <<< i) else v &&& ~~~(1#w <<< i)

/-- A written bit is read back and every other bit stays. -/
theorem get_set (v : BitVec w) {i j : Nat} (b : Bool) (hj : j < w) :
    get (set v i b) j = if j = i then b else get v j := by
  have hbit : (1#w <<< i).getLsbD j = decide (j = i) := by
    rw [BitVec.getLsbD_shiftLeft, BitVec.getLsbD_one]
    by_cases hij : j = i
    · subst hij; simp [hj]; omega
    · simp [hj, hij]; omega
  cases b
  · simp only [get, set, Bool.false_eq_true, if_false, BitVec.getLsbD_and, BitVec.getLsbD_not, hbit]
    by_cases hij : j = i <;> simp [hij, hj]
  · simp only [get, set, if_true, BitVec.getLsbD_or, hbit]
    by_cases hij : j = i <;> simp [hij]

/-! ## 2. Fields and bytes -/

/-- The bits `first` to `last`, both included, moved down to bit 0. -/
def field (v : BitVec w) (first last : Nat) : BitVec w :=
  (v.extractLsb' first (last - first + 1)).setWidth w

theorem get_field (v : BitVec w) (first last i : Nat) :
    get (field v first last) i =
      (decide (i < w) && decide (i < last - first + 1) && get v (first + i)) := by
  simp [get, field, Bool.and_assoc]

/-- Byte number `n`; byte 0 holds the least significant bits. -/
def byte (v : BitVec w) (n : Nat) : Byte := v.extractLsb' (8 * n) 8

/-- A word is the bytes it has. -/
theorem eq_of_byte_eq {n : Nat} {v v' : BitVec (8 * n)} (h : ∀ j < n, byte v j = byte v' j) :
    v = v' := by
  apply BitVec.eq_of_getLsbD_eq
  intro i hi
  have place : 8 * (i / 8) + i % 8 = i := Nat.div_add_mod i 8
  have bit := congrArg (·.getLsbD (i % 8)) (h (i / 8) (by omega))
  simpa only [byte, BitVec.getLsbD_extractLsb', place, Nat.mod_lt i (by decide : 0 < 8),
    decide_true, Bool.true_and] using bit

def setByte (v : BitVec w) (n : Nat) (b : Byte) : BitVec w :=
  (v &&& ~~~((0xFF#8).setWidth w <<< (8 * n))) ||| (b.setWidth w <<< (8 * n))

end Bits
end Handheld
