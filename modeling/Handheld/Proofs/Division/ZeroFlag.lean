/-
# The flag for a zero denominator

DIVCNT keeps the mode and nothing else, whatever is written to it.  The flag is put into what is
read of it, each time from the denominator as it stands, and so there is nothing that a write of
a value that was read could bring back.

* `OnlyMode.toNat_le`: what DIVCNT can hold;
* `find?_table`: which register is where;
* `zero_flag_live`: the bytes that any read shows.
-/
import Handheld.Proofs.Division.Accesses
import Handheld.Proofs.Mmio.Halves

namespace Handheld
namespace Division

open Mmio

/-! ## 1. What is to be seen -/

namespace Divider

/-- The mode, with bit 14 set as long as the whole of DENOM is zero. -/
def status (u : Divider) : Half := Bits.set u.control 14 (decide (u.denominator = 0))

/-- The byte that the bus is to see at a position. -/
def byteAt (u : Divider) (a : Nat) : Byte :=
  if a < 0x02 then Bits.byte u.status a
  else if a < 0x10 then 0
  else if a < 0x18 then Bits.byte u.numerator (a - 0x10)
  else if a < 0x20 then Bits.byte u.denominator (a - 0x18)
  else if a < 0x28 then Bits.byte u.quotient (a - 0x20)
  else if a < 0x30 then Bits.byte u.remainder (a - 0x28)
  else 0

end Divider

/-! ## 2. The registers at their positions -/

/-- No register begins before the one in front of it ends. -/
theorem table_ranges :
    table.entries.Pairwise fun e e' => ∀ a, e.covers a = true → e'.covers a = false := by
  have ordered : table.entries.Pairwise fun e e' =>
      e.offset.toNat + (Layout.width e.slot).bytes ≤ e'.offset.toNat := by decide
  refine ordered.imp fun le a covered => ?_
  simp only [Entry.covers, decide_eq_true_eq, decide_eq_false_iff_not] at covered ⊢
  omega

/-- The register that has a byte at a position. -/
theorem find?_table (a : Nat) :
    table.entries.find? (·.covers a) =
      if a < 0x02 then some (entry .control)
      else if a < 0x10 then none
      else if a < 0x18 then some (entry .numerator)
      else if a < 0x20 then some (entry .denominator)
      else if a < 0x28 then some (entry .quotient)
      else if a < 0x30 then some (entry .remainder)
      else none := by
  have control : (entry .control).covers a = decide (0x00 ≤ a ∧ a < 0x02) := rfl
  have numerator : (entry .numerator).covers a = decide (0x10 ≤ a ∧ a < 0x18) := rfl
  have denominator : (entry .denominator).covers a = decide (0x18 ≤ a ∧ a < 0x20) := rfl
  have quotient : (entry .quotient).covers a = decide (0x20 ≤ a ∧ a < 0x28) := rfl
  have remainder : (entry .remainder).covers a = decide (0x28 ≤ a ∧ a < 0x30) := rfl
  simp only [table, inputs, results, List.cons_append, List.nil_append, List.find?_cons,
    List.find?_nil, control, numerator, denominator, quotient, remainder]
  grind

/-! ## 3. Reads -/

namespace Contents

variable {k : Contents}

theorem OnlyMode.toNat_le (h : k.OnlyMode) : k.control.toNat ≤ 3 := by
  have small : (Bits.byte k.control 0 &&& 3).toNat ≤ 3 := by
    rw [BitVec.toNat_and]
    exact Nat.and_le_right
  rw [h.control_eq, BitVec.toNat_setWidth]
  omega

/-- The flag is not among the bits that are kept, so that it is only there if it is put in. -/
theorem OnlyMode.read_control (h : k.OnlyMode) :
    (Divider.interface.read .control k.unit).1 = k.unit.status := by
  have cleared : ∀ n < 4, BitVec.ofNat 16 n &&& ~~~(1#16 <<< 14) = BitVec.ofNat 16 n := by decide
  have absent : k.control &&& ~~~(1#16 <<< 14) = k.control := by
    have mode := cleared k.control.toNat (Nat.lt_succ_of_le h.toNat_le)
    rwa [BitVec.ofNat_toNat, BitVec.setWidth_eq] at mode
  have shown : (Divider.interface.read .control k.unit).1 =
      if k.denominator = 0 then k.control ||| Divider.zeroFlag else k.control := rfl
  have status : k.unit.status = Bits.set k.control 14 (decide (k.denominator = 0)) := rfl
  rw [shown, status, Bits.set]
  by_cases zero : k.denominator = 0
  · rw [if_pos zero, decide_eq_true zero]
    rfl
  · rw [if_neg zero, decide_eq_false zero]
    exact absent.symm

theorem OnlyMode.byte_shown (h : k.OnlyMode) (a : Nat) :
    ((table.entries.find? (·.covers a)).map fun e =>
      Bits.byte (Divider.interface.read e.slot k.unit).1 (a - e.offset.toNat)).getD 0 =
        k.unit.byteAt a := by
  rw [find?_table, Divider.byteAt, ← h.read_control]
  repeat' split
  all_goals rfl

end Contents

/-- **The flag follows the denominator and is never stored.**  DIVCNT holds a mode in every state
that the bus can bring a new unit to.  A read of any size at any offset changes nothing, and shows
the mode with the flag, the four other registers as they are stored, and zeros elsewhere. -/
theorem zero_flag_live {u : Divider} (hu : u.Reached) :
    u.control.toNat ≤ 3 ∧ ∃ b, Divider.bank = .ok b ∧ ∀ offset size,
      (b.read Divider.interface offset size u).2 = u ∧
      ∀ j < 8, Bits.byte (b.read Divider.interface offset size u).1 j =
        if j < size.bytes then u.byteAt (offset.toNat + j) else 0 := by
  obtain ⟨k, mode, rfl⟩ := hu.contents
  have quiet : table.ReadsQuietly Divider.interface k.unit := fun e _ => k.read_slot e.slot
  refine ⟨mode.toNat_le, table, bank_eq, fun offset size => ⟨k.read_unit offset size, ?_⟩⟩
  intro j _
  rw [byte_read quiet table_ranges, mode.byte_shown]

/-- A value with the flag in it is written back, and only the mode is stored.  There is no flag as
long as the upper half of DENOM holds a one, where the mode does not look, and there is one as soon
as it does not. -/
theorem zero_flag_live_upper_half :
    ∃ u u' b, Divider.bank = .ok b ∧
      Divider.new.run [.write 0x00 .half 0x4003, .write 0x18 .double 0x100000000] = .ok u ∧
      Bits.byte (b.read Divider.interface 0x01 .byte u).1 0 = 0x00 ∧
      Divider.new.run [.write 0x00 .half 0x4003, .write 0x18 .double 0x100000000,
        .write 0x1B .half 0] = .ok u' ∧
      Bits.byte (b.read Divider.interface 0x01 .double u').1 0 = 0x40 ∧ u'.control.toNat ≤ 3 := by
  have reach : ∀ accesses, Divider.new.run accesses =
      .ok (accesses.foldl Contents.access .blank).unit := fun accesses => by
    rw [Contents.new_eq, Contents.run_unit]
  obtain ⟨-, b, bank, shown⟩ := zero_flag_live ⟨_, reach
    [.write 0x00 .half 0x4003, .write 0x18 .double 0x100000000]⟩
  obtain ⟨kept, b', bank', shown'⟩ := zero_flag_live ⟨_, reach
    [.write 0x00 .half 0x4003, .write 0x18 .double 0x100000000, .write 0x1B .half 0]⟩
  obtain rfl := Except.ok.inj (bank.symm.trans bank')
  refine ⟨_, _, b, bank, reach _, ?_, reach _, ?_, kept⟩
  · exact ((shown 0x01 .byte).2 0 (by decide)).trans (by decide +kernel)
  · exact ((shown' 0x01 .double).2 0 (by decide)).trans (by decide +kernel)

end Division
end Handheld
