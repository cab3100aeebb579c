/-
# A division unit under bus accesses

An access touches a register where it writes one of its bytes.  Whatever the sizes and the
offsets are,

* `written_in_pieces`: as long as RES and MOD are not touched, the inputs are made of the bytes
  that were written last, and RES and MOD are what is to be computed from them;
* `quotient_since_input`: otherwise RES is what is to be computed from the inputs, except for
  the bytes that were written to it since an input was touched.

Software is meant only to read RES, but none of its bits is read-only: a bus write leaves in it
what no division of the inputs gives, as in `quotient_overwritten`.
-/
import Mathlib.Data.List.Induction
import Handheld.Proofs.Division.Contents

namespace Handheld
namespace Division

open Mmio

/-! ## 1. Accesses to a unit -/

/-- An access writes to DIVCNT, NUMER or DENOM. -/
def TouchesInput (x : Access) : Prop :=
  x.Touches 0x00 0x02 ∨ x.Touches 0x10 0x18 ∨ x.Touches 0x18 0x20

/-- An access writes to RES or MOD. -/
def TouchesResult (x : Access) : Prop := x.Touches 0x20 0x28 ∨ x.Touches 0x28 0x30

instance (x : Access) : Decidable (TouchesInput x) := inferInstanceAs (Decidable (_ ∨ _))

instance (x : Access) : Decidable (TouchesResult x) := inferInstanceAs (Decidable (_ ∨ _))

/-- Of the accesses that touch an input one is the last. -/
theorem exists_last_touching {accesses : List Access} (touched : ∃ x ∈ accesses, TouchesInput x) :
    ∃ before w after, accesses = before ++ w :: after ∧ TouchesInput w ∧
      ∀ x ∈ after, ¬TouchesInput x := by
  induction accesses using List.reverseRecOn with
  | nil => exact absurd touched (by simp)
  | append_singleton front x ih =>
    by_cases hx : TouchesInput x
    · exact ⟨front, x, [], rfl, hx, by simp⟩
    have earlier : ∃ y ∈ front, TouchesInput y := by
      obtain ⟨y, hy, hin⟩ := touched
      rcases List.mem_append.mp hy with hy | hy
      · exact ⟨y, hy, hin⟩
      · exact absurd (List.mem_singleton.mp hy ▸ hin) hx
    obtain ⟨before, w, after, rfl, hw, untouched⟩ := ih earlier
    refine ⟨before, w, after ++ [x], by simp, hw, fun y hy => ?_⟩
    rcases List.mem_append.mp hy with hy | hy
    · exact untouched y hy
    · exact List.mem_singleton.mp hy ▸ hx

namespace Divider

/-- What is to be computed from the inputs. -/
def outcome (u : Divider) : Outcome := divide (.ofControl u.control) u.numerator u.denominator

/-- The unit after accesses through its bank. -/
def run (u : Divider) (accesses : List Access) : Except Fault Divider := do
  let b ← bank
  return (b.run interface accesses u).2

/-- The bus can bring a unit that was just set up to this. -/
def Reached (u : Divider) : Prop := ∃ accesses, Divider.new.run accesses = .ok u

end Divider

theorem toNat_and_three (v : Half) : (v &&& 3).toNat = v.toNat % 4 :=
  (BitVec.toNat_and _ _).trans (Nat.and_two_pow_sub_one_eq_mod v.toNat 2)

/-- The mode is in the low byte. -/
theorem setWidth_byte_and_three (v : Half) : (Bits.byte v 0 &&& 3).setWidth 16 = v &&& 3 := by
  have byte : (Bits.byte v 0 &&& 3).toNat = v.toNat % 256 % 4 :=
    (BitVec.toNat_and _ _).trans (Nat.and_two_pow_sub_one_eq_mod (v.toNat % 256) 2)
  apply BitVec.eq_of_toNat_eq
  rw [BitVec.toNat_setWidth, byte, toNat_and_three]
  omega

namespace Contents

variable (k : Contents)

def access (k : Contents) : Access → Contents
  | .read _ _ => k
  | .write offset size v => k.write offset size v

theorem bank_run_unit (accesses : List Access) (k : Contents) :
    (table.run Divider.interface accesses k.unit).2 = (accesses.foldl access k).unit := by
  induction accesses generalizing k with
  | nil => rfl
  | cons x rest ih =>
    cases x with
    | read offset size =>
      simp only [Bank.run, read_unit]
      exact ih k
    | write offset size v =>
      rw [Bank.run, write_unit]
      exact ih _

theorem run_unit (accesses : List Access) :
    k.unit.run accesses = .ok (accesses.foldl access k).unit := by
  rw [Divider.run, bank_eq, ← bank_run_unit]
  rfl

theorem touches_iff (offset : Word) (size : AccessSize) (v : Double) :
    touches offset size = true ↔ TouchesInput (.write offset size v) := by
  simp only [touches, inputs, List.any_cons, List.any_nil, Bool.or_false, Bool.or_eq_true,
    overlap?_isSome_iff _ offset size v]
  rfl

theorem not_touchesInput_read (offset : Word) (size : AccessSize) :
    ¬TouchesInput (.read offset size) := by
  rintro (touched | touched | touched)
  all_goals exact not_touches_read _ _ _ _ touched

/-! ## 2. The inputs -/

/-- What every access does to a byte, a sequence of accesses does with what it writes last. -/
theorem foldl_access_byte {f : Contents → Byte} {g : Byte → Byte} {a : Nat}
    (accesses : List Access)
    (step : ∀ x ∈ accesses, ∀ k, f (access k x) = ((x.byteAt? a).map g).getD (f k)) :
    f (accesses.foldl access k) = ((written accesses a).map g).getD (f k) := by
  induction accesses generalizing k with
  | nil => rfl
  | cons x rest ih =>
    obtain ⟨here, later⟩ := List.forall_mem_cons.mp step
    rw [List.foldl_cons, ih _ later, here, written]
    cases written rest a <;> rfl

theorem foldl_access_getD {f : Contents → Byte} {a : Nat} (accesses : List Access)
    (step : ∀ x ∈ accesses, ∀ k, f (access k x) = (x.byteAt? a).getD (f k)) :
    f (accesses.foldl access k) = (written accesses a).getD (f k) := by
  have mapped := foldl_access_byte k accesses (f := f) (g := id) (a := a)
  simp only [Option.map_id_fun, id] at mapped
  exact mapped step

/-- An input takes what is written into it, whatever the rest of the unit does. -/
theorem value_write_input {e : Entry Slot} (he : e ∈ inputs) (offset : Word) (size : AccessSize)
    (v : Double) :
    ((k.write offset size v).unit.register e.slot).value = k.storedAt offset size v e := by
  rw [write]
  simp only [inputs, List.mem_cons, List.not_mem_nil, or_false] at he
  obtain rfl | rfl | rfl := he
  all_goals cases touches offset size <;> rfl

/-- The bytes of an input that has no read-only bits. -/
theorem byte_input {e : Entry Slot} (he : e ∈ inputs)
    (free : ∀ k : Contents, (k.unit.register e.slot).readOnly = 0) {j : Nat}
    (hj : j < (Layout.width e.slot).bytes) (accesses : List Access) :
    Bits.byte ((accesses.foldl access k).unit.register e.slot).value j =
      (written accesses (e.offset.toNat + j)).getD
        (Bits.byte (k.unit.register e.slot).value j) := by
  refine foldl_access_getD k accesses (f := fun k => Bits.byte (k.unit.register e.slot).value j) ?_
  rintro (⟨offset, size⟩ | ⟨offset, size, v⟩) - k
  · rfl
  · rw [access, value_write_input k he]
    exact byte_stored_of_writable v (free k) hj

theorem control_write (offset : Word) (size : AccessSize) (v : Double) :
    (k.write offset size v).control = k.storedAt offset size v (entry .control) :=
  value_write_input k (e := entry .control) (by decide) offset size v

/-- Only the two lowest bits of the control register are ever set. -/
def OnlyMode : Prop := k.control &&& 0xFFFC = 0

variable {k} in
theorem OnlyMode.foldl (h : k.OnlyMode) (accesses : List Access) :
    (accesses.foldl access k).OnlyMode := by
  induction accesses generalizing k with
  | nil => exact h
  | cons x rest ih =>
    refine ih ?_
    match x with
    | .read _ _ => exact h
    | .write offset size v =>
      rw [OnlyMode, access, control_write, storedAt, Entry.stored]
      split
      · exact h
      · exact (Register.store_readOnly _ _ _).trans h

variable {k} in
theorem OnlyMode.control_eq (h : k.OnlyMode) :
    k.control = (Bits.byte k.control 0 &&& 3).setWidth 16 := by
  have low : k.control = k.control &&& 3 := calc
    k.control = k.control &&& (0xFFFC ||| 3) := BitVec.and_allOnes.symm
    _ = 0 ||| k.control &&& 3 := by rw [BitVec.and_or_distrib_left, h]
    _ = k.control &&& 3 := BitVec.zero_or
  exact low.trans (setWidth_byte_and_three k.control).symm

/-- The mode is made of the low bits of what was last written to the control register. -/
theorem mode_foldl (accesses : List Access) :
    Bits.byte (accesses.foldl access k).control 0 &&& 3 =
      (written accesses 0).getD (Bits.byte k.control 0) &&& 3 := by
  rw [foldl_access_byte k accesses (f := fun k => Bits.byte k.control 0 &&& 3) (g := (· &&& 3))]
  · cases written accesses 0 <;> rfl
  rintro (⟨offset, size⟩ | ⟨offset, size, v⟩) - k
  · rfl
  have stored : Bits.byte (k.write offset size v).control 0 =
      (((Access.write offset size v).byteAt? 0).map fun b =>
        (Cell.overwrite ⟨Bits.byte k.control 0, Bits.byte (0xFFFC : Half) 0⟩ b).value).getD
          (Bits.byte k.control 0) := by
    rw [control_write]
    exact byte_stored_at (e := entry .control) v (k.unit.register .control) (j := 0) (by decide)
  rw [access, stored]
  cases (Access.write offset size v).byteAt? 0 with
  | none => rfl
  | some b =>
    have mask : Bits.byte (0xFFFC : Half) 0 = 0xFC := by decide
    have dropped : (0xFC : Byte) &&& 3 = 0#8 := by decide
    have kept : ~~~(0xFC : Byte) &&& 3 = 3 := by decide
    simp only [Option.map_some, Option.getD_some, Cell.overwrite, mask]
    rw [BitVec.and_comm, BitVec.and_or_distrib_left, BitVec.and_comm 3, BitVec.and_comm 3,
      BitVec.and_assoc, BitVec.and_assoc, dropped, kept, BitVec.and_zero, BitVec.zero_or]

/-! ## 3. The results -/

/-- The results are what is to be computed from the inputs. -/
def Settled : Prop := k.quotient = k.outcome.quotient ∧ k.remainder = k.outcome.remainder

section Results

variable {x : Access}

theorem writeInputs_of_not_touches {offset : Word} {size : AccessSize} (v : Double)
    (h : touches offset size = false) : k.writeInputs offset size v = k := by
  rw [touches, List.any_eq_false] at h
  have kept : ∀ e ∈ inputs, k.storedAt offset size v e = (k.unit.register e.slot).value :=
    fun e he => storedAt_of_not_overlap k offset size v (Option.not_isSome_iff_eq_none.mp (h e he))
  have control := kept (entry .control) (by decide)
  have numerator := kept (entry .numerator) (by decide)
  have denominator := kept (entry .denominator) (by decide)
  rw [writeInputs, control, numerator, denominator]
  rfl

theorem writeResults_of_not_touches {offset : Word} {size : AccessSize} (v : Double)
    (h : ¬TouchesResult (.write offset size v)) : k.writeResults offset size v = k := by
  have kept : ∀ e ∈ results, k.storedAt offset size v e = (k.unit.register e.slot).value := by
    intro e he
    apply storedAt_of_not_overlap
    rw [← Option.not_isSome_iff_eq_none, overlap?_isSome_iff e offset size v]
    simp only [results, List.mem_cons, List.not_mem_nil, or_false] at he
    obtain rfl | rfl := he
    · exact fun touched => h (.inl touched)
    · exact fun touched => h (.inr touched)
  have quotient := kept (entry .quotient) (by decide)
  have remainder := kept (entry .remainder) (by decide)
  rw [writeResults, quotient, remainder]
  rfl

/-- An access that touches no register that can be written changes nothing. -/
theorem access_eq_self (hin : ¬TouchesInput x) (hres : ¬TouchesResult x) : k.access x = k := by
  match x with
  | .read _ _ => rfl
  | .write offset size v =>
    rw [← touches_iff, Bool.not_eq_true] at hin
    rw [access, write, hin, writeInputs_of_not_touches k v hin]
    exact writeResults_of_not_touches k v hres

theorem settled_access (hin : TouchesInput x) (hres : ¬TouchesResult x) : (k.access x).Settled := by
  match x with
  | .read _ _ => exact absurd hin (not_touchesInput_read _ _)
  | .write offset size v =>
    rw [← touches_iff] at hin
    rw [access, write, hin, writeResults_of_not_touches _ v hres]
    exact ⟨rfl, rfl⟩

theorem foldl_access_eq_self {accesses : List Access}
    (untouched : ∀ x ∈ accesses, ¬TouchesInput x) (apart : ∀ x ∈ accesses, ¬TouchesResult x) :
    accesses.foldl access k = k := by
  induction accesses with
  | nil => rfl
  | cons x rest ih =>
    obtain ⟨hin, untouched⟩ := List.forall_mem_cons.mp untouched
    obtain ⟨hres, apart⟩ := List.forall_mem_cons.mp apart
    rw [List.foldl_cons, access_eq_self k hin hres, ih untouched apart]

/-- Once an input was touched, the results belong to the inputs as long as only these are
written. -/
theorem settled_foldl {accesses : List Access} (apart : ∀ x ∈ accesses, ¬TouchesResult x)
    (touched : ∃ x ∈ accesses, TouchesInput x) : (accesses.foldl access k).Settled := by
  obtain ⟨before, w, after, rfl, hw, untouched⟩ := exists_last_touching touched
  obtain ⟨hres, apart⟩ := List.forall_mem_cons.mp (List.forall_mem_append.mp apart).2
  rw [List.foldl_append, List.foldl_cons, foldl_access_eq_self _ untouched apart]
  exact settled_access _ hw hres

/-- The quotient after an access, byte by byte: computed anew or left alone, and then written. -/
theorem byte_quotient_access {j : Nat} (hj : j < 8) :
    Bits.byte (k.access x).quotient j = (x.byteAt? (0x20 + j)).getD
      (Bits.byte (if TouchesInput x then (k.access x).outcome.quotient else k.quotient) j) := by
  match x with
  | .read _ _ =>
    rw [if_neg (not_touchesInput_read _ _)]
    rfl
  | .write offset size v =>
    rw [access, write]
    cases h : touches offset size with
    | true =>
      rw [if_pos ((touches_iff offset size v).mp h)]
      exact byte_stored_of_writable (e := entry .quotient) v rfl hj
    | false =>
      rw [if_neg (mt (touches_iff offset size v).mpr (by simp [h])),
        writeInputs_of_not_touches k v h]
      exact byte_stored_of_writable (e := entry .quotient) v rfl hj

/-- What is to be computed changes with the inputs only. -/
theorem outcome_access (hin : ¬TouchesInput x) : (k.access x).outcome = k.outcome := by
  match x with
  | .read _ _ => rfl
  | .write offset size v =>
    rw [← touches_iff, Bool.not_eq_true] at hin
    rw [access, write, hin, writeInputs_of_not_touches k v hin]
    rfl

theorem outcome_foldl {accesses : List Access} (untouched : ∀ x ∈ accesses, ¬TouchesInput x) :
    (accesses.foldl access k).outcome = k.outcome := by
  induction accesses generalizing k with
  | nil => rfl
  | cons x rest ih =>
    obtain ⟨hx, hrest⟩ := List.forall_mem_cons.mp untouched
    exact (ih _ hrest).trans (outcome_access k hx)

/-- After an input was touched, the quotient is the one to be computed, with what is written
over it. -/
theorem byte_quotient_foldl {w : Access} (hw : TouchesInput w) {after : List Access}
    (untouched : ∀ x ∈ after, ¬TouchesInput x) {j : Nat} (hj : j < 8) :
    Bits.byte ((w :: after).foldl access k).quotient j = (written (w :: after) (0x20 + j)).getD
      (Bits.byte ((w :: after).foldl access k).outcome.quotient j) := by
  have overwritten : Bits.byte (after.foldl access (k.access w)).quotient j =
      (written after (0x20 + j)).getD (Bits.byte (k.access w).quotient j) := by
    refine foldl_access_getD _ after (f := fun k => Bits.byte k.quotient j) fun x hx k => ?_
    rw [byte_quotient_access k hj, if_neg (untouched x hx)]
  rw [List.foldl_cons, overwritten, outcome_foldl _ untouched, getD_written_cons,
    byte_quotient_access k hj, if_pos hw]

end Results

/-- What settled contents are is settled by their inputs. -/
theorem Settled.ext {k k' : Contents} (h : k.Settled) (h' : k'.Settled)
    (control : k.control = k'.control) (numerator : k.numerator = k'.numerator)
    (denominator : k.denominator = k'.denominator) : k = k' := by
  have same : k.outcome = k'.outcome := by rw [outcome, outcome, control, numerator, denominator]
  have quotient : k.quotient = k'.quotient := by rw [h.1, h'.1, same]
  have remainder : k.remainder = k'.remainder := by rw [h.2, h'.2, same]
  exact Contents.ext control numerator denominator quotient remainder

end Contents

/-! ## 4. Sequences of accesses -/

/-- What the bus can make of a new unit. -/
theorem Divider.Reached.contents {u : Divider} (hu : u.Reached) :
    ∃ k : Contents, k.OnlyMode ∧ u = k.unit := by
  obtain ⟨accesses, reached⟩ := hu
  rw [Contents.new_eq, Contents.run_unit] at reached
  have blank : Contents.blank.OnlyMode := rfl
  exact ⟨_, blank.foldl accesses, (Except.ok.inj reached).symm⟩

/-- **The inputs may be written in any pieces and in any order.**  Where no access touches the
results and at least one touches an input, NUMER and DENOM end up with the bytes that were
written last, DIVCNT with the low two bits of its first byte, and the results are those of
exactly these inputs.  So two such sequences that leave the same inputs leave the same unit,
wherever they started. -/
theorem written_in_pieces {u : Divider} (hu : u.Reached) {accesses : List Access}
    (apart : ∀ x ∈ accesses, ¬TouchesResult x) (touched : ∃ x ∈ accesses, TouchesInput x) :
    ∃ u', u.run accesses = .ok u' ∧
      (∀ j < 8, Bits.byte u'.numerator j =
        (written accesses (0x10 + j)).getD (Bits.byte u.numerator j)) ∧
      (∀ j < 8, Bits.byte u'.denominator j =
        (written accesses (0x18 + j)).getD (Bits.byte u.denominator j)) ∧
      u'.control = ((written accesses 0).getD (Bits.byte u.control 0) &&& 3).setWidth 16 ∧
      u'.quotient = u'.outcome.quotient ∧ u'.remainder = u'.outcome.remainder ∧
      ∀ (v v' : Divider) (others : List Access), v.Reached → (∀ x ∈ others, ¬TouchesResult x) →
        (∃ x ∈ others, TouchesInput x) → v.run others = .ok v' → v'.control = u'.control →
        v'.numerator = u'.numerator → v'.denominator = u'.denominator → v' = u' := by
  obtain ⟨k, hk, rfl⟩ := hu.contents
  have settled := k.settled_foldl apart touched
  refine ⟨_, k.run_unit accesses, ?_, ?_, ?_, settled.1, settled.2, ?_⟩
  · exact fun j hj => k.byte_input (e := entry .numerator) (by decide) (fun _ => rfl) hj accesses
  · exact fun j hj => k.byte_input (e := entry .denominator) (by decide) (fun _ => rfl) hj accesses
  · exact (hk.foldl accesses).control_eq.trans (congrArg _ (k.mode_foldl accesses))
  · intro v v' others hv apart' touched' run control numerator denominator
    obtain ⟨k', -, rfl⟩ := hv.contents
    rw [Contents.run_unit] at run
    obtain rfl := Except.ok.inj run
    have settled' := k'.settled_foldl apart' touched'
    exact congrArg Contents.unit (settled'.ext settled control numerator denominator)

/-- A write over the end of NUMER and the start of DENOM, while the denominator is zero, and the
mode set after it leave the same unit as the three inputs written one by one. -/
theorem written_in_pieces_straddling :
    ∃ u u' : Divider, Divider.new.run [.write 0x10 .half 0x164] = .ok u ∧
      u.run [.write 0x14 .double 0x700000000, .read 0x00 .half, .write 0x00 .byte 0xFD] = .ok u' ∧
      u'.quotient = u'.outcome.quotient ∧ u'.control = 1 ∧
      Divider.new.run [.write 0x00 .half 1, .write 0x18 .byte 7, .write 0x10 .double 0x164] =
        .ok u' := by
  have start : Divider.new.run [.write 0x10 .half 0x164] =
      .ok (Contents.blank.write 0x10 .half 0x164).unit := by
    rw [Contents.new_eq]
    exact Contents.run_unit _ _
  have apart : ∀ x ∈ [Access.write 0x14 .double 0x700000000, .read 0x00 .half,
      .write 0x00 .byte 0xFD], ¬TouchesResult x := by decide
  obtain ⟨u', run, -, -, control, quotient, -, same⟩ :=
    written_in_pieces ⟨_, start⟩ apart (by decide)
  have run_others := Contents.run_unit .blank
    [.write 0x00 .half 1, .write 0x18 .byte 7, .write 0x10 .double 0x164]
  have known := (Contents.run_unit _ _).symm.trans run
  refine ⟨_, u', start, run, quotient, control.trans (by decide), ?_⟩
  rw [Contents.new_eq, run_others]
  refine congrArg Except.ok (same .new _ _ ⟨[], by rw [Contents.new_eq, Contents.run_unit]; rfl⟩
    (by decide) (by decide) (Contents.new_eq ▸ run_others) ?_ ?_ ?_)
  all_goals
    rw [← Except.ok.inj known]
    decide +kernel

/-- **RES is computed anew when an input is touched, and not before.**  What is written over it
stays until then: of its bytes those that were written since the last access that touched an
input, that one included, are as they were written, and the others belong to the quotient of the
inputs. -/
theorem quotient_since_input {accesses : List Access} (touched : ∃ x ∈ accesses, TouchesInput x) :
    ∃ u, Divider.new.run accesses = .ok u ∧ ∃ before w after, accesses = before ++ w :: after ∧
      TouchesInput w ∧ (∀ x ∈ after, ¬TouchesInput x) ∧
      (∀ j < 8, Bits.byte u.quotient j =
        (written (w :: after) (0x20 + j)).getD (Bits.byte u.outcome.quotient j)) ∧
      ((∀ x ∈ w :: after, ¬x.Touches 0x20 0x28) → u.quotient = u.outcome.quotient) := by
  obtain ⟨before, w, after, rfl, hw, untouched⟩ := exists_last_touching touched
  obtain ⟨u, run, bytes⟩ : ∃ u, Divider.new.run (before ++ w :: after) = .ok u ∧
      ∀ j < 8, Bits.byte u.quotient j =
        (written (w :: after) (0x20 + j)).getD (Bits.byte u.outcome.quotient j) := by
    rw [Contents.new_eq, Contents.run_unit, List.foldl_append]
    exact ⟨_, rfl, fun j hj => Contents.byte_quotient_foldl _ hw untouched hj⟩
  refine ⟨u, run, before, w, after, rfl, hw, untouched, bytes, fun apart => ?_⟩
  apply Bits.eq_of_byte_eq (n := 8)
  intro j hj
  rw [bytes j hj, written_eq_none apart (by omega) (by omega), Option.getD_none]

/-- A write over the end of DENOM and the start of RES: the lower half of RES is as it was
written, and the upper half is as the new denominator has it. -/
theorem quotient_since_input_straddling :
    ∃ u, Divider.new.run [.write 0x1C .double 0x1100000001] = .ok u ∧
      Bits.byte u.quotient 0 = 0x11 ∧
      Bits.byte u.quotient 4 = Bits.byte u.outcome.quotient 4 := by
  have touched : ∃ x ∈ [Access.write 0x1C .double 0x1100000001], TouchesInput x := by decide
  obtain ⟨u, run, before, w, after, split, -, -, bytes, -⟩ := quotient_since_input touched
  cases before with
  | nil =>
    cases split
    exact ⟨u, run, bytes 0 (by decide), bytes 4 (by decide)⟩
  | cons x rest => simp at split

/-- RES holds what was written to it, and not the quotient of ten by three. -/
theorem quotient_overwritten :
    ∃ u, Divider.new.run [.write 0x10 .double 10, .write 0x18 .double 3,
        .write 0x20 .double 0x1234] = .ok u ∧
      u.quotient = 0x1234 ∧ u.outcome.quotient = 3 := by
  rw [Contents.new_eq, Contents.run_unit]
  exact ⟨_, rfl, by decide, by decide⟩

end Division
end Handheld
