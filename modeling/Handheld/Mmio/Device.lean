/-
# Devices and their register interface

A device owns one register for each slot of its layout, and whatever else it keeps.  Its
interface lists the fields by which its registers are known, each with a tag, and the methods
that tags may name.  Two fields may stand for the same slot.

A bus access through a slot runs the method that its register names, if the interface has one
of that name with the right direction and width.  A method may change the whole device.
-/
import Handheld.Mmio.Register
import Handheld.Mmio.Tag

namespace Handheld

/-- The slots of a device and the width of the register in each. -/
class Layout (ι : Type) where
  width : ι → Width

/-- The number of bits of the register in a slot. -/
abbrev slotBits {ι : Type} [Layout ι] (i : ι) : Nat := (Layout.width i).bits

structure Device (ι σ : Type) [Layout ι] where
  register : (i : ι) → Register (slotBits i)
  extra : σ

/-- Where a field's data is. -/
inductive Place (ι : Type) where
  | register (slot : ι)
  /-- Not a register of one of the widths; names what it is instead. -/
  | unsupported (type : String)
  deriving DecidableEq

structure Field (ι : Type) where
  name : String
  tag : Tag
  place : Place ι
  deriving DecidableEq

/-- What a device offers to be run on a bus access. -/
inductive Callback (ι σ : Type) [Layout ι] where
  /-- Gets the stored value and gives what the bus sees. -/
  | read (w : Width) (run : BitVec w.bits → Device ι σ → BitVec w.bits × Device ι σ)
  /-- Gets the value before and after the write. -/
  | write (w : Width) (run : BitVec w.bits → BitVec w.bits → Device ι σ → Device ι σ)

structure Method (ι σ : Type) [Layout ι] where
  name : String
  callback : Callback ι σ

structure Interface (ι σ : Type) [Layout ι] where
  fields : List (Field ι)
  methods : List (Method ι σ)

namespace Device

variable {ι σ : Type} [Layout ι]

/-- A device with blank registers. -/
def blank (extra : σ) : Device ι σ := ⟨fun _ => .blank, extra⟩

def value (d : Device ι σ) (i : ι) : BitVec (slotBits i) := (d.register i).value

/-- A device is no more than its registers and its other data. -/
theorem eq_of_registers {d d' : Device ι σ} (registers : ∀ i, d.register i = d'.register i)
    (extra : d.extra = d'.extra) : d = d' := by
  obtain ⟨register, data⟩ := d
  obtain ⟨register', data'⟩ := d'
  obtain rfl : register = register' := funext registers
  exact congrArg _ extra

variable [DecidableEq ι]

/-- Changes the register in one slot. -/
def modify (d : Device ι σ) (i : ι) (f : Register (slotBits i) → Register (slotBits i)) :
    Device ι σ :=
  { d with register := fun j => if h : j = i then h ▸ f (d.register i) else d.register j }

def setValue (d : Device ι σ) (i : ι) (v : BitVec (slotBits i)) : Device ι σ :=
  d.modify i fun r => { r with value := v }

@[simp] theorem register_modify_self (d : Device ι σ) (i : ι)
    (f : Register (slotBits i) → Register (slotBits i)) :
    (d.modify i f).register i = f (d.register i) := by
  simp [modify]

theorem register_modify_of_ne (d : Device ι σ) {i j : ι}
    (f : Register (slotBits i) → Register (slotBits i)) (h : j ≠ i) :
    (d.modify i f).register j = d.register j := by
  simp [modify, h]

/-- A register that is changed into itself leaves the device as it is. -/
theorem modify_eq_self {d : Device ι σ} {i : ι}
    {f : Register (slotBits i) → Register (slotBits i)} (same : f (d.register i) = d.register i) :
    d.modify i f = d := by
  refine eq_of_registers (fun j => ?_) rfl
  by_cases h : j = i
  · subst h
    rw [register_modify_self, same]
  · exact register_modify_of_ne d f h

end Device

namespace Callback

variable {ι σ : Type} [Layout ι]

/-- The direction and the width, as messages name them. -/
def kind : Callback ι σ → String
  | read w _ => "read" ++ Numeral.decimal w.bits
  | write w _ => "write" ++ Numeral.decimal w.bits

def reader? (w : Width) :
    Callback ι σ → Option (BitVec w.bits → Device ι σ → BitVec w.bits × Device ι σ)
  | read v run => if h : v = w then some (h ▸ run) else none
  | write _ _ => none

def writer? (w : Width) :
    Callback ι σ → Option (BitVec w.bits → BitVec w.bits → Device ι σ → Device ι σ)
  | write v run => if h : v = w then some (h ▸ run) else none
  | read _ _ => none

variable {w : Width}

theorem eq_read_of_reader? {c : Callback ι σ} {run} (h : c.reader? w = some run) :
    c = .read w run := by
  cases c with
  | read v run' =>
    unfold reader? at h
    dsimp only at h
    split at h
    · rename_i same
      subst same
      cases h
      rfl
    · cases h
  | write v run' => cases h

theorem eq_write_of_writer? {c : Callback ι σ} {run} (h : c.writer? w = some run) :
    c = .write w run := by
  cases c with
  | read v run' => cases h
  | write v run' =>
    unfold writer? at h
    dsimp only at h
    split at h
    · rename_i same
      subst same
      cases h
      rfl
    · cases h

theorem isSome_reader?_iff {c : Callback ι σ} :
    (c.reader? w).isSome ↔ ∃ run, c = .read w run := by
  rw [Option.isSome_iff_exists]
  constructor
  · rintro ⟨run, h⟩
    exact ⟨run, eq_read_of_reader? h⟩
  · rintro ⟨run, rfl⟩
    exact ⟨run, dif_pos rfl⟩

theorem isSome_writer?_iff {c : Callback ι σ} :
    (c.writer? w).isSome ↔ ∃ run, c = .write w run := by
  rw [Option.isSome_iff_exists]
  constructor
  · rintro ⟨run, h⟩
    exact ⟨run, eq_write_of_writer? h⟩
  · rintro ⟨run, rfl⟩
    exact ⟨run, dif_pos rfl⟩

end Callback

namespace Interface

variable {ι σ : Type} [Layout ι] [DecidableEq ι]

/-- The callback of the first method with the name. -/
def callback? (p : Interface ι σ) (name : String) : Option (Callback ι σ) :=
  (p.methods.find? (·.name = name)).map (·.callback)

/-- Reads the register in a slot as the bus does. -/
def read (p : Interface ι σ) (i : ι) (d : Device ι σ) : BitVec (slotBits i) × Device ι σ :=
  let r := d.register i
  match (r.onRead.bind p.callback?).bind (Callback.reader? (Layout.width i)) with
  | some run => run r.value d
  | none => (r.value, d)

/-- Writes the bits in `mask` of the register in a slot as the bus does. -/
def write (p : Interface ι σ) (i : ι) (v mask : BitVec (slotBits i)) (d : Device ι σ) :
    Device ι σ :=
  let old := d.register i
  let new := old.store v mask
  let d := d.modify i fun _ => new
  match (new.onWrite.bind p.callback?).bind (Callback.writer? (Layout.width i)) with
  | some run => run old.value new.value d
  | none => d

/-- Reads a field at the full width of the bus; what is no register reads as zero. -/
def readPlace (p : Interface ι σ) (d : Device ι σ) : Place ι → Double × Device ι σ
  | .register i => let (v, d) := p.read i d; (v.setWidth 64, d)
  | .unsupported _ => (0, d)

/-- Writes a field from the full width of the bus; what is no register ignores it. -/
def writePlace (p : Interface ι σ) (d : Device ι σ) (v mask : Double) : Place ι → Device ι σ
  | .register i => p.write i (v.setWidth _) (mask.setWidth _) d
  | .unsupported _ => d

end Interface

/-- The width of a field in bytes. -/
def Place.bytes? {ι : Type} [Layout ι] : Place ι → Option Nat
  | .register i => some (Layout.width i).bytes
  | .unsupported _ => none

end Handheld
