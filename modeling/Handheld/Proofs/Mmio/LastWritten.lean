/-
# The byte that was written last

However a sequence of accesses is cut into pieces, what counts for a position is the last write
that covers it.

* `written`: the byte that this write leaves there;
* `byte_stored_at`: what a single write makes of a byte of a register.
-/
import Handheld.Proofs.Mmio.BankMemory

namespace Handheld
namespace Mmio

/-! ## 1. Sequences of accesses -/

/-- The byte that an access writes at a position, if it is a write that covers the position. -/
def Access.byteAt? : Access → Nat → Option Byte
  | .read _ _, _ => none
  | .write offset size v, a =>
    if offset.toNat ≤ a ∧ a < offset.toNat + size.bytes then some (Bits.byte v (a - offset.toNat))
    else none

/-- The byte that is written last at a position, if any is. -/
def written : List Access → Nat → Option Byte
  | [], _ => none
  | access :: rest, a => (written rest a).or (access.byteAt? a)

/-- An access writes a byte at one of the positions from `lo` up to `hi`. -/
def Access.Touches (access : Access) (lo hi : Nat) : Prop :=
  ∃ a < hi, lo ≤ a ∧ (access.byteAt? a).isSome

instance (access : Access) (lo hi : Nat) : Decidable (access.Touches lo hi) :=
  inferInstanceAs (Decidable (∃ a < hi, lo ≤ a ∧ (access.byteAt? a).isSome))

theorem not_touches_read (offset : Word) (size : AccessSize) (lo hi : Nat) :
    ¬(Access.read offset size).Touches lo hi := fun ⟨_, _, _, wrote⟩ => Bool.noConfusion wrote

theorem getD_written_cons (access : Access) (rest : List Access) (a : Nat) (b : Byte) :
    (written (access :: rest) a).getD b = (written rest a).getD ((access.byteAt? a).getD b) := by
  rw [written]
  cases written rest a <;> rfl

/-- Where no access writes, nothing is written. -/
theorem written_eq_none {accesses : List Access} {lo hi a : Nat}
    (apart : ∀ x ∈ accesses, ¬x.Touches lo hi) (above : lo ≤ a) (below : a < hi) :
    written accesses a = none := by
  induction accesses with
  | nil => rfl
  | cons x rest ih =>
    obtain ⟨hx, hrest⟩ := List.forall_mem_cons.mp apart
    have here : x.byteAt? a = none :=
      Option.not_isSome_iff_eq_none.mp fun wrote => hx ⟨a, below, above, wrote⟩
    rw [written, ih hrest, here, Option.none_or]

/-! ## 2. Single writes -/

variable {ι σ : Type} [Layout ι] {e : Entry ι} {offset : Word} {size : AccessSize}

/-- An access touches a register where it writes a byte of it. -/
theorem overlap?_isSome_iff (e : Entry ι) (offset : Word) (size : AccessSize) (v : Double) :
    (e.overlap? offset size).isSome ↔
      (Access.write offset size v).Touches e.offset.toNat
        (e.offset.toNat + (Layout.width e.slot).bytes) := by
  simp only [Access.Touches, Access.byteAt?]
  cases h : e.overlap? offset size with
  | none =>
    have nothing := not_common_of_overlap? h
    refine iff_of_false (by simp) ?_
    rintro ⟨a, ha, ha', written⟩
    by_cases inside : offset.toNat ≤ a ∧ a < offset.toNat + size.bytes
    · exact nothing a ⟨inside, ha', ha⟩
    · simp [inside] at written
  | some s =>
    obtain ⟨lo, hi, hlt, common, -⟩ := overlap?_eq_some h
    obtain ⟨inside, from_base, to_end⟩ := (common lo).mp ⟨Nat.le_refl lo, hlt⟩
    exact iff_of_true rfl ⟨lo, to_end, from_base, by simp [inside]⟩

/-- A register takes a byte that is written over as the cell of a memory does. -/
theorem byte_stored_at (v : Double) (r : Register (slotBits e.slot)) {j : Nat}
    (hj : j < (Layout.width e.slot).bytes) :
    Bits.byte (e.stored offset size v r).value j =
      (((Access.write offset size v).byteAt? (e.offset.toNat + j)).map fun b =>
        (Cell.overwrite ⟨Bits.byte r.value j, Bits.byte r.readOnly j⟩ b).value).getD
          (Bits.byte r.value j) := by
  have covered : e.covers (e.offset.toNat + j) = true :=
    decide_eq_true ⟨Nat.le_add_right _ _, Nat.add_lt_add_left hj _⟩
  have stored := byte_stored e offset size v r covered
  rw [Nat.add_sub_cancel_left] at stored
  rw [stored, Access.byteAt?]
  split <;> rfl

/-- Without read-only bits every byte that is written is taken over as it is. -/
theorem byte_stored_of_writable (v : Double) {r : Register (slotBits e.slot)}
    (free : r.readOnly = 0) {j : Nat} (hj : j < (Layout.width e.slot).bytes) :
    Bits.byte (e.stored offset size v r).value j =
      ((Access.write offset size v).byteAt? (e.offset.toNat + j)).getD (Bits.byte r.value j) := by
  have zero : Bits.byte r.readOnly j = 0#8 := by
    rw [free]
    simp [Bits.byte]
  rw [byte_stored_at v r hj, zero]
  simp only [Cell.overwrite, BitVec.and_zero, BitVec.zero_or, BitVec.not_zero, BitVec.and_allOnes,
    Option.map_id']

end Mmio
end Handheld
