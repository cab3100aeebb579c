/-
# What a division unit holds

The masks and methods of a unit's registers are fixed when it is set up, so that a unit is no
more than the five words in them.  `Contents` are these words, and `Contents.write` is what a
write makes of them: the inputs are stored first; if one of them was touched, the results are
computed anew from all three; and what the write has for the results is stored over that.

* `bank_eq`, `new_eq`: the unit's bank, and a unit that was just set up;
* `write_unit`, `read_unit`: a write does to a unit what it does to its contents, and a read
  does nothing.
-/
import Handheld.Proofs.Mmio.LastWritten

namespace Handheld
namespace Division

open Mmio

/-! ## 1. The bank -/

/-- How a register is reached. -/
def entry : Slot → Entry Slot
  | .control => ⟨"DivCnt", 0x00, .control⟩
  | .numerator => ⟨"Numer", 0x10, .numerator⟩
  | .denominator => ⟨"Denom", 0x18, .denominator⟩
  | .quotient => ⟨"Res", 0x20, .quotient⟩
  | .remainder => ⟨"Mod", 0x28, .remainder⟩

def inputs : List (Entry Slot) := [entry .control, entry .numerator, entry .denominator]

def results : List (Entry Slot) := [entry .quotient, entry .remainder]

/-- The registers in the order of their offsets. -/
def table : Bank Slot := ⟨inputs ++ results⟩

theorem bank_eq : Divider.bank = .ok table := by
  have listed : (bankEntries Divider.interface 0).toOption = some table.entries := by
    decide +kernel
  have sorted : table.entries.mergeSort (fun a b => a.offset.toNat ≤ b.offset.toNat) =
      table.entries := by
    apply List.mergeSort_of_pairwise
    decide
  rw [Divider.bank, Bank.of]
  cases h : bankEntries Divider.interface 0 with
  | error f =>
    rw [h] at listed
    cases listed
  | ok es =>
    rw [h] at listed
    cases listed
    show Except.ok (Bank.mk _) = _
    rw [sorted]

/-! ## 2. Units and their contents -/

@[ext]
structure Contents where
  control : Half
  numerator : Double
  denominator : Double
  quotient : Double
  remainder : Double
  deriving DecidableEq

/-- A write to this register makes the unit compute. -/
def Slot.isInput : Slot → Bool
  | control | numerator | denominator => true
  | quotient | remainder => false

namespace Contents

def blank : Contents := ⟨0, 0, 0, 0, 0⟩

/-- The unit that holds these words. -/
def unit (k : Contents) : Divider where
  register
    | .control => ⟨k.control, 0xFFFC, some "ReadDIVCNT", some "WriteDIVCNT"⟩
    | .numerator => ⟨k.numerator, 0, none, some "WriteIN"⟩
    | .denominator => ⟨k.denominator, 0, none, some "WriteIN"⟩
    | .quotient => ⟨k.quotient, 0, none, none⟩
    | .remainder => ⟨k.remainder, 0, none, none⟩
  extra := ()

/-- What is to be computed from the inputs. -/
def outcome (k : Contents) : Outcome := divide (.ofControl k.control) k.numerator k.denominator

/-- The same inputs, with the results computed anew. -/
def settled (k : Contents) : Contents :=
  { k with quotient := k.outcome.quotient, remainder := k.outcome.remainder }

/-- One word replaced. -/
def set (k : Contents) : (i : Slot) → BitVec (slotBits i) → Contents
  | .control, v => { k with control := v }
  | .numerator, v => { k with numerator := v }
  | .denominator, v => { k with denominator := v }
  | .quotient, v => { k with quotient := v }
  | .remainder, v => { k with remainder := v }

/-- A unit is no more than its registers. -/
theorem divider_ext {u u' : Divider} (h : ∀ i, u.register i = u'.register i) : u = u' :=
  Device.eq_of_registers h rfl

theorem new_eq : Divider.new = blank.unit :=
  divider_ext fun i => by cases i <;> decide +kernel

theorem unit_set (k : Contents) (i : Slot) (v : BitVec (slotBits i)) :
    k.unit.setValue i v = (k.set i v).unit :=
  divider_ext fun j => by cases i <;> cases j <;> rfl

theorem calculate_unit (k : Contents) : k.unit.calculate = k.settled.unit := by
  have quotient := unit_set k .quotient k.outcome.quotient
  have remainder := unit_set (k.set .quotient k.outcome.quotient) .remainder k.outcome.remainder
  exact (congrArg (·.setValue .remainder k.outcome.remainder) quotient).trans remainder

/-! ## 3. Writing -/

/-- The results computed anew, if they are to be. -/
def settledIf (k : Contents) (b : Bool) : Contents := if b then k.settled else k

/-- The method that a bus write to a register of a unit runs. -/
theorem writer_unit (k : Contents) (i : Slot) :
    ((k.unit.register i).onWrite.bind Divider.interface.callback?).bind
        (Callback.writer? (Layout.width i)) =
      if i.isInput then some fun _ _ u => Divider.calculate u else none := by
  cases i <;> rfl

theorem write_slot (k : Contents) (i : Slot) (v mask : BitVec (slotBits i)) :
    Divider.interface.write i v mask k.unit =
      ((k.set i ((k.unit.register i).store v mask).value).settledIf i.isInput).unit := by
  have stored : k.unit.modify i (fun _ => (k.unit.register i).store v mask) =
      (k.set i ((k.unit.register i).store v mask).value).unit := unit_set k i _
  have writer : (((k.unit.register i).store v mask).onWrite.bind Divider.interface.callback?).bind
      (Callback.writer? (Layout.width i)) = _ := writer_unit k i
  rw [Interface.write, stored, writer, settledIf]
  cases i.isInput with
  | true => exact calculate_unit _
  | false => rfl

section Write

variable (k : Contents) (offset : Word) (size : AccessSize) (v : Double)

/-- What a write leaves in the register of an entry. -/
def storedAt (e : Entry Slot) : BitVec (slotBits e.slot) :=
  (e.stored offset size v (k.unit.register e.slot)).value

/-- A write touches an input. -/
def touches : Bool := inputs.any fun e => (e.overlap? offset size).isSome

/-- The inputs after a write, with the results as they were. -/
def writeInputs : Contents :=
  { k with
    control := k.storedAt offset size v (entry .control)
    numerator := k.storedAt offset size v (entry .numerator)
    denominator := k.storedAt offset size v (entry .denominator) }

/-- The results after a write, with the inputs as they were. -/
def writeResults : Contents :=
  { k with
    quotient := k.storedAt offset size v (entry .quotient)
    remainder := k.storedAt offset size v (entry .remainder) }

def write : Contents :=
  ((k.writeInputs offset size v).settledIf (touches offset size)).writeResults offset size v

theorem storedAt_of_not_overlap {e : Entry Slot} (h : e.overlap? offset size = none) :
    k.storedAt offset size v e = (k.unit.register e.slot).value := by
  rw [storedAt, Entry.stored, h]

theorem set_storedAt_of_not_overlap {e : Entry Slot} (h : e.overlap? offset size = none) :
    k.set e.slot (k.storedAt offset size v e) = k := by
  rw [storedAt_of_not_overlap k offset size v h]
  cases e.slot <;> rfl

theorem writeEntry_unit (e : Entry Slot) :
    writeEntry Divider.interface offset size v k.unit e =
      ((k.set e.slot (k.storedAt offset size v e)).settledIf
        (e.slot.isInput && (e.overlap? offset size).isSome)).unit := by
  cases h : e.overlap? offset size with
  | none =>
    rw [writeEntry, h, set_storedAt_of_not_overlap k offset size v h]
    cases e.slot.isInput <;> rfl
  | some s =>
    rw [writeEntry, h, storedAt, Entry.stored, h, Option.isSome_some, Bool.and_true]
    exact write_slot k e.slot _ _

/-- An input that is stored where the results may have to be computed anew. -/
theorem writeEntry_input {e : Entry Slot} (he : e.slot.isInput = true) (b : Bool) :
    writeEntry Divider.interface offset size v (k.settledIf b).unit e =
      ((k.set e.slot (k.storedAt offset size v e)).settledIf
        (b || (e.overlap? offset size).isSome)).unit := by
  have same : (k.settledIf b).storedAt offset size v e = k.storedAt offset size v e := by
    obtain ⟨name, base, slot⟩ := e
    cases b <;> cases slot <;> first | rfl | cases he
  rw [writeEntry_unit, he, Bool.true_and]
  cases h : e.overlap? offset size with
  | none =>
    rw [set_storedAt_of_not_overlap _ offset size v h, set_storedAt_of_not_overlap k offset size v h]
    cases b <;> rfl
  | some s =>
    -- the results are overwritten, whatever they were
    rw [same]
    obtain ⟨name, base, slot⟩ := e
    cases b <;> cases slot <;> rfl

/-- Of several inputs that are stored one after another, it is enough to compute at the end. -/
theorem foldl_writeEntry_inputs (es : List (Entry Slot)) (hes : ∀ e ∈ es, e.slot.isInput = true) :
    ∀ (k : Contents) (b : Bool),
      es.foldl (writeEntry Divider.interface offset size v) (k.settledIf b).unit =
        ((es.foldl (fun k e => k.set e.slot (k.storedAt offset size v e)) k).settledIf
          (b || es.any fun e => (e.overlap? offset size).isSome)).unit := by
  induction es with
  | nil => exact fun k b => by rw [List.any_nil, Bool.or_false]; rfl
  | cons e es ih =>
    intro k b
    obtain ⟨he, hes⟩ := List.forall_mem_cons.mp hes
    rw [List.foldl_cons, writeEntry_input k offset size v he, ih hes, List.any_cons, Bool.or_assoc,
      List.foldl_cons]

/-- **A write to a unit is a write to its contents.** -/
theorem write_unit :
    table.write Divider.interface offset size v k.unit = (k.write offset size v).unit := by
  have stored := foldl_writeEntry_inputs offset size v inputs (by decide) k false
  rw [Bool.false_or] at stored
  rw [Bank.write, table, List.foldl_append]
  refine (congrArg (results.foldl (writeEntry Divider.interface offset size v)) stored).trans ?_
  rw [results, List.foldl_cons, List.foldl_cons, List.foldl_nil, writeEntry_unit, writeEntry_unit]
  rfl

end Write

/-! ## 4. Reading -/

theorem read_slot (k : Contents) (i : Slot) : (Divider.interface.read i k.unit).2 = k.unit := by
  cases i <;> rfl

theorem read_unit (k : Contents) (offset : Word) (size : AccessSize) :
    (table.read Divider.interface offset size k.unit).2 = k.unit := by
  have entries : ∀ (es : List (Entry Slot)) (v : Double),
      (es.foldl (readEntry Divider.interface offset size) (v, k.unit)).2 = k.unit := by
    intro es
    induction es with
    | nil => exact fun _ => rfl
    | cons e es ih =>
      intro v
      rw [List.foldl_cons, readEntry]
      cases e.overlap? offset size with
      | none => exact ih v
      | some s =>
        simp only [Interface.readPlace, read_slot]
        exact ih _
  exact entries table.entries 0

end Contents
end Division
end Handheld
