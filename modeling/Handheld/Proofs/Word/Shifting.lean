/-
# The parts of a word, by shifting

`Bits` names the parts of a word by the bits they consist of.  A processor gets at them by
shifting and masking, and knows no shift by the width of the word or more; the mask of a field
that is the whole word can therefore not be made by a shift.  Positions are bytes, and are
reckoned with as bytes.

* `getByShift?_eq`, `setByShift?_eq`, `fieldByShift?_eq`, `byteByShift?_eq`, `setByteByShift?_eq`:
  inside the word the shifts exist, and lead to the parts;
* `byte_setByte`, `toNat_eq_sum_bytes`: the bytes of a word;
* `parts_by_shifting`: words of up to 32 bytes.
-/
import Handheld.Word
import Mathlib.Algebra.BigOperators.Intervals

namespace Handheld
namespace Bits

variable {w : Nat}

/-! ## 1. Shifts and masks -/

def shiftLeft? (v : BitVec w) (n : Nat) : Option (BitVec w) :=
  if n < w then some (v <<< n) else none

def shiftRight? (v : BitVec w) (n : Nat) : Option (BitVec w) :=
  if n < w then some (v >>> n) else none

/-- The word with `length` ones at the low end. -/
def ones? (w length : Nat) : Option (BitVec w) :=
  if w ≤ length then some (.allOnes w) else do
    let next ← shiftLeft? 1#w length
    return next - 1#w

def getByShift? (v : BitVec w) (i : Byte) : Option Bool := do
  let moved ← shiftRight? v i.toNat
  return moved &&& 1#w != 0#w

def setByShift? (v : BitVec w) (i : Byte) (b : Bool) : Option (BitVec w) := do
  let bit ← shiftLeft? 1#w i.toNat
  return if b then v ||| bit else v &&& ~~~bit

def fieldByShift? (v : BitVec w) (first last : Byte) : Option (BitVec w) := do
  let mask ← ones? w ((last - first).toNat + 1)
  let moved ← shiftRight? v first.toNat
  return moved &&& mask

def byteByShift? (v : BitVec w) (n : Byte) : Option Byte := do
  let moved ← shiftRight? v (n * 8).toNat
  return moved.setWidth 8

def setByteByShift? (v : BitVec w) (n b : Byte) : Option (BitVec w) := do
  let hole ← shiftLeft? ((0xFF#8).setWidth w) (n * 8).toNat
  let filling ← shiftLeft? (b.setWidth w) (n * 8).toNat
  return v &&& ~~~hole ||| filling

theorem shiftLeft?_eq (v : BitVec w) {n : Nat} (hn : n < w) :
    shiftLeft? v n = some (v <<< n) := if_pos hn

theorem shiftRight?_eq (v : BitVec w) {n : Nat} (hn : n < w) :
    shiftRight? v n = some (v >>> n) := if_pos hn

theorem toNat_shiftLeft_sub_one {n : Nat} (hn : n < w) :
    (1#w <<< n - 1#w).toNat = 2 ^ n - 1 := by
  have power : (1#w <<< n).toNat = 2 ^ n := by
    rw [← BitVec.twoPow_eq, BitVec.toNat_twoPow_of_lt hn]
  have one : (1#w).toNat = 1 := BitVec.toNat_one (Nat.zero_lt_of_lt hn)
  have le : 1#w ≤ 1#w <<< n := by
    rw [BitVec.le_def, power, one]
    exact Nat.one_le_two_pow
  rw [BitVec.toNat_sub_of_le le, power, one]

/-- There is a mask of every length. -/
theorem ones?_eq (w length : Nat) :
    ∃ mask, ones? w length = some mask ∧ ∀ k < w, mask.getLsbD k = decide (k < length) := by
  -- the mask of the whole width would take a shift by the width
  by_cases whole : w ≤ length
  · refine ⟨.allOnes w, if_pos whole, ?_⟩
    intro k hk
    simp [hk, Nat.lt_of_lt_of_le hk whole]
  · have inside : length < w := Nat.not_le.mp whole
    refine ⟨1#w <<< length - 1#w, ?_, ?_⟩
    · rw [ones?, if_neg whole, shiftLeft?_eq _ inside]
      rfl
    · intro k _
      rw [BitVec.getLsbD, toNat_shiftLeft_sub_one inside, Nat.testBit_two_pow_sub_one]

/-! ## 2. Bits and fields -/

theorem getByShift?_eq (v : BitVec w) {i : Byte} (hi : i.toNat < w) :
    getByShift? v i = some (get v i.toNat) := by
  have one : (1#1).setWidth w ≠ 0#w := by
    intro zero
    have bit := congrArg (·.getLsbD 0) zero
    simp only [BitVec.getLsbD_setWidth, BitVec.getLsbD_zero] at bit
    simp [Nat.zero_lt_of_lt hi] at bit
  rw [getByShift?, shiftRight?_eq v hi]
  refine congrArg some ?_
  rw [BitVec.and_one_eq_setWidth_ofBool_getLsbD, BitVec.getLsbD_ushiftRight, Nat.add_zero, ← get]
  cases get v i.toNat with
  | false => simp
  | true => exact bne_iff_ne.mpr one

theorem setByShift?_eq (v : BitVec w) {i : Byte} (hi : i.toNat < w) (b : Bool) :
    setByShift? v i b = some (set v i.toNat b) := by
  rw [setByShift?, shiftLeft?_eq _ hi]
  rfl

theorem fieldByShift?_eq (v : BitVec w) {first last : Byte} (ordered : first ≤ last)
    (inside : last.toNat < w) :
    fieldByShift? v first last = some (field v first.toNat last.toNat) := by
  have start : first.toNat < w := Nat.lt_of_le_of_lt ordered inside
  obtain ⟨mask, made, mask_bit⟩ := ones?_eq w ((last - first).toNat + 1)
  rw [fieldByShift?, made, shiftRight?_eq v start]
  refine congrArg some (BitVec.eq_of_getLsbD_eq ?_)
  intro k hk
  have bit := get_field v first.toNat last.toNat k
  rw [get] at bit
  rw [BitVec.getLsbD_and, BitVec.getLsbD_ushiftRight, mask_bit k hk, bit,
    BitVec.toNat_sub_of_le ordered, get]
  simp only [hk, decide_true, Bool.true_and, Bool.and_comm]

/-! ## 3. Bytes -/

/-- The position of a byte is reckoned without overflow. -/
theorem toNat_mul_eight {n : Byte} (hn : 8 * n.toNat < 256) : (n * 8).toNat = 8 * n.toNat := by
  rw [BitVec.toNat_mul, Nat.mul_comm]
  exact Nat.mod_eq_of_lt hn

theorem byteByShift?_eq (v : BitVec w) {n : Byte} (hn : 8 * n.toNat < w) (hw : w ≤ 256) :
    byteByShift? v n = some (byte v n.toNat) := by
  rw [byteByShift?, toNat_mul_eight (Nat.lt_of_lt_of_le hn hw), shiftRight?_eq v hn]
  refine congrArg some (BitVec.eq_of_getLsbD_eq ?_)
  intro k hk
  simp [byte, hk]

theorem setByteByShift?_eq (v : BitVec w) {n : Byte} (hn : 8 * n.toNat < w) (hw : w ≤ 256)
    (b : Byte) : setByteByShift? v n b = some (setByte v n.toNat b) := by
  rw [setByteByShift?, toNat_mul_eight (Nat.lt_of_lt_of_le hn hw), shiftLeft?_eq _ hn,
    shiftLeft?_eq _ hn]
  rfl

/-- A byte is a field of eight bits. -/
theorem toNat_byte_eq_field (v : BitVec w) (hw : 8 ≤ w) (n : Nat) :
    (byte v n).toNat = (field v (8 * n) (8 * n + 7)).toNat := by
  have length : 8 * n + 7 - 8 * n + 1 = 8 := by omega
  have small : (byte v n).toNat < 2 ^ w :=
    Nat.lt_of_lt_of_le (byte v n).isLt (Nat.pow_le_pow_right (by decide) hw)
  rw [field, length, BitVec.toNat_setWidth]
  exact (Nat.mod_eq_of_lt small).symm

theorem getLsbD_byte_shiftLeft {n m k : Nat} (b : Byte) (hk : k < 8) (inside : 8 * m + k < w) :
    (b.setWidth w <<< (8 * n)).getLsbD (8 * m + k) = (decide (m = n) && b.getLsbD k) := by
  rw [BitVec.getLsbD_shiftLeft, BitVec.getLsbD_setWidth]
  -- below the place that the byte is moved to, at it, and above it
  rcases Nat.lt_trichotomy m n with below | same | above
  · simp [show 8 * m + k < 8 * n by omega, show m ≠ n by omega]
  · subst same
    have place : 8 * m + k - 8 * m = k := Nat.add_sub_cancel_left _ _
    simp [inside, place]
    omega
  · have beyond : 8 ≤ 8 * m + k - 8 * n := by omega
    rw [BitVec.getLsbD_of_ge b _ beyond]
    simp [show m ≠ n by omega]

/-- A written byte is read back, and every other byte stays. -/
theorem byte_setByte (v : BitVec w) (n : Nat) {m : Nat} (hm : 8 * m + 8 ≤ w) (b : Byte) :
    byte (setByte v n b) m = if m = n then b else byte v m := by
  have ones : ∀ k < 8, (0xFF#8).getLsbD k = true := by decide
  refine BitVec.eq_of_getLsbD_eq ?_
  intro k hk
  have inside : 8 * m + k < w := by omega
  simp only [byte, setByte, BitVec.getLsbD_extractLsb', BitVec.getLsbD_or, BitVec.getLsbD_and,
    BitVec.getLsbD_not, getLsbD_byte_shiftLeft _ hk inside, ones k hk, hk, inside]
  by_cases same : m = n
  · simp [same]
  · simp [same, hk]

/-- By induction on their number, the low bytes of a word add up to what is below them. -/
theorem toNat_mod_eq_sum_bytes (v : BitVec w) (k : Nat) :
    v.toNat % 256 ^ k = ∑ n ∈ Finset.range k, (byte v n).toNat * 256 ^ n := by
  induction k with
  | zero => simp [Nat.mod_one]
  | succ k ih =>
    have digit : (byte v k).toNat = v.toNat / 256 ^ k % 256 := by
      rw [byte, BitVec.extractLsb'_toNat, Nat.shiftRight_eq_div_pow, Nat.pow_mul]
    rw [Finset.sum_range_succ, ← ih, digit, Nat.mod_pow_succ, Nat.mul_comm (256 ^ k)]

/-- A word is the sum of its bytes, each of them times its power of 256. -/
theorem toNat_eq_sum_bytes {size : Nat} (v : BitVec (8 * size)) :
    v.toNat = ∑ n ∈ Finset.range size, (byte v n).toNat * 256 ^ n := by
  have small : v.toNat < 256 ^ size := by
    rw [show 256 = 2 ^ 8 from rfl, ← Nat.pow_mul]
    exact v.isLt
  rw [← toNat_mod_eq_sum_bytes, Nat.mod_eq_of_lt small]

/-! ## 4. All parts -/

/-- **Shifting and masking reads and writes the parts of a word.**  At every position inside a
word all shifts are below the width, and lead to the part that is named.  A bit or a byte that
was written is read back, and the others stay.  A field, be it the whole word, has the bits of
the word from its first to its last at its low end, and zeros above them.  A byte is a field of
eight bits, and the word is the sum of its bytes times the powers of 256. -/
theorem parts_by_shifting {size : Nat} (fits : size ≤ 32) (v : BitVec (8 * size)) :
    (∀ i : Byte, i.toNat < 8 * size →
      getByShift? v i = some (get v i.toNat) ∧
      ∀ b, setByShift? v i b = some (set v i.toNat b) ∧
        ∀ j < 8 * size, get (set v i.toNat b) j = if j = i.toNat then b else get v j) ∧
    (∀ first last : Byte, first ≤ last → last.toNat < 8 * size →
      fieldByShift? v first last = some (field v first.toNat last.toNat) ∧
      ∀ k < 8 * size, get (field v first.toNat last.toNat) k =
        if k ≤ last.toNat - first.toNat then get v (first.toNat + k) else false) ∧
    (∀ n : Byte, n.toNat < size →
      byteByShift? v n = some (byte v n.toNat) ∧
      (byte v n.toNat).toNat = (field v (8 * n.toNat) (8 * n.toNat + 7)).toNat ∧
      ∀ b, setByteByShift? v n b = some (setByte v n.toNat b) ∧
        ∀ m < size, byte (setByte v n.toNat b) m = if m = n.toNat then b else byte v m) ∧
    v.toNat = ∑ n ∈ Finset.range size, (byte v n).toNat * 256 ^ n := by
  refine ⟨?_, ?_, ?_, toNat_eq_sum_bytes v⟩
  · intro i hi
    refine ⟨getByShift?_eq v hi, ?_⟩
    intro b
    exact ⟨setByShift?_eq v hi b, fun j hj => get_set v b hj⟩
  · intro first last ordered inside
    refine ⟨fieldByShift?_eq v ordered inside, ?_⟩
    intro k hk
    rw [get_field]
    simp [hk]
  · intro n hn
    have start : 8 * n.toNat < 8 * size := by omega
    have short : 8 * size ≤ 256 := by omega
    refine ⟨byteByShift?_eq v start short, toNat_byte_eq_field v (by omega) _, ?_⟩
    intro b
    exact ⟨setByteByShift?_eq v start short b, fun m hm => byte_setByte v _ (by omega) b⟩

/-- A double word is taken whole as a field and its highest byte is replaced; in a byte, the
highest bit is. -/
theorem parts_by_shifting_whole_width :
    fieldByShift? (0x1122334455667788 : Double) 0 63 = some 0x1122334455667788 ∧
    setByteByShift? (0x1122334455667788 : Double) 7 0xAB = some 0xAB22334455667788 ∧
    byte (0xAB22334455667788 : Double) 7 = 0xAB ∧
    fieldByShift? (0xD6 : Byte) 4 7 = some 0xD ∧
    setByShift? (0xD6 : Byte) 7 false = some 0x56 := by
  obtain ⟨-, wide, bytes, -⟩ :=
    parts_by_shifting (by decide : 8 ≤ 32) (0x1122334455667788 : Double)
  obtain ⟨bits, narrow, -, -⟩ := parts_by_shifting (by decide : 1 ≤ 32) (0xD6 : Byte)
  obtain ⟨whole, -⟩ := wide 0 63 (by decide) (by decide)
  obtain ⟨-, -, put⟩ := bytes 7 (by decide)
  obtain ⟨replaced, back⟩ := put 0xAB
  obtain ⟨high, -⟩ := narrow 4 7 (by decide) (by decide)
  obtain ⟨-, cleared⟩ := bits 7 (by decide)
  exact ⟨whole, replaced, back 7 (by decide), high, (cleared false).1⟩

end Bits
end Handheld
