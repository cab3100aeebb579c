/-
# Banks: decoding addresses

    offset   where the register starts in its bank; every tagged field has one
    bank     the number of the bank, 0 if the option is missing or empty

A bank lists its registers in ascending order of their offsets.  An access covers some bytes,
may straddle registers, and reaches each register it touches once, with only the bytes it
covers.  Bytes that belong to no register read as zero and ignore writes.

Positions are natural numbers, so an access at the top of the address space does not wrap.
-/
import Handheld.Mmio.Setup

namespace Handheld
namespace Mmio

/-- A register of one bank. -/
structure Entry (ι : Type) where
  name : String
  offset : Word
  slot : ι
  deriving DecidableEq

structure Bank (ι : Type) where
  entries : List (Entry ι)
  deriving DecidableEq

variable {ι σ : Type} [Layout ι] [DecidableEq ι]

/-! ## 1. The registers of a bank -/

/-- The field's entry if it belongs to the bank.  Its offset and bank are read first, so a
fault in them counts for every bank. -/
def locate (bank : Word) (f : Field ι) : Except Fault (Option (Entry ι)) := do
  if f.tag.isEmpty then return none
  let offset := f.tag.get "offset"
  if offset.isEmpty then throw (.missingOffset f.name)
  let offset ← number f.name "offset" offset 32
  let home := f.tag.get "bank"
  let home ← if home.isEmpty then pure 0 else number f.name "bank" home 32
  if home ≠ bank.toNat then return none
  match f.place with
  | .unsupported type => throw (.unsupportedType f.name type)
  | .register slot => return some ⟨f.name, BitVec.ofNat 32 offset, slot⟩

/-- The registers of a bank, in the order of their declaration. -/
def bankEntries (p : Interface ι σ) (bank : Word) : Except Fault (List (Entry ι)) := do
  return (← p.fields.mapM (locate bank)).filterMap id

/-- The bank, sorted by offset; fields with the same offset keep their order. -/
def Bank.of (p : Interface ι σ) (bank : Word) : Except Fault (Bank ι) := do
  return ⟨(← bankEntries p bank).mergeSort fun a b => a.offset.toNat ≤ b.offset.toNat⟩

/-! ## 2. Overlap -/

/-- How many bytes an access moves. -/
inductive AccessSize where
  | byte | half | word | double
  deriving DecidableEq

namespace AccessSize

def bytes : AccessSize → Nat
  | byte => 1
  | half => 2
  | word => 4
  | double => 8

@[reducible] def bits (s : AccessSize) : Nat := 8 * s.bytes

end AccessSize

/-- The part of a register that an access covers. -/
structure Span where
  /-- First covered bit, counted in the access. -/
  accessShift : Nat
  /-- First covered bit, counted in the register. -/
  registerShift : Nat
  bytes : Nat
  deriving DecidableEq

/-- The covered bits, moved down to bit 0. -/
def Span.mask (s : Span) : Double := if s.bytes < 8 then (1 <<< (8 * s.bytes)) - 1 else -1

/-- What an access of `size` bytes at `start` covers of the `width` bytes at `base`. -/
def overlap? (start size base width : Nat) : Option Span :=
  let lo := max start base
  let hi := min (start + size) (base + width)
  if lo < hi then some ⟨8 * (lo - start), 8 * (lo - base), hi - lo⟩ else none

/-- What an access covers of an entry's register. -/
def Entry.overlap? (e : Entry ι) (offset : Word) (size : AccessSize) : Option Span :=
  Mmio.overlap? offset.toNat size.bytes e.offset.toNat (Layout.width e.slot).bytes

/-! ## 3. Accesses -/

/-- Adds what one entry contributes to a read. -/
def readEntry (p : Interface ι σ) (offset : Word) (size : AccessSize)
    (acc : Double × Device ι σ) (e : Entry ι) : Double × Device ι σ :=
  match e.overlap? offset size with
  | none => acc
  | some span =>
    let (v, d) := p.readPlace acc.2 (.register e.slot)
    (acc.1 ||| ((v >>> span.registerShift) &&& span.mask) <<< span.accessShift, d)

/-- Writes the covered part of one entry. -/
def writeEntry (p : Interface ι σ) (offset : Word) (size : AccessSize) (v : Double)
    (d : Device ι σ) (e : Entry ι) : Device ι σ :=
  match e.overlap? offset size with
  | none => d
  | some span =>
    let bits := ((v >>> span.accessShift) &&& span.mask) <<< span.registerShift
    p.writePlace d bits (span.mask <<< span.registerShift) (.register e.slot)

namespace Bank

def size (b : Bank ι) : Nat := b.entries.length

def isEmpty (b : Bank ι) : Bool := b.entries.isEmpty

/-- Reads at an offset; the bits above the access are zero. -/
def read (b : Bank ι) (p : Interface ι σ) (offset : Word) (size : AccessSize) (d : Device ι σ) :
    Double × Device ι σ :=
  b.entries.foldl (readEntry p offset size) (0, d)

/-- Writes at an offset; the bits of `v` above the access are ignored. -/
def write (b : Bank ι) (p : Interface ι σ) (offset : Word) (size : AccessSize) (v : Double)
    (d : Device ι σ) : Device ι σ :=
  b.entries.foldl (writeEntry p offset size v) d

/-- Reads exactly the bits of the access. -/
def load (b : Bank ι) (p : Interface ι σ) (offset : Word) (size : AccessSize) (d : Device ι σ) :
    BitVec size.bits × Device ι σ :=
  let (v, d) := b.read p offset size d
  (v.setWidth size.bits, d)

/-- Writes exactly the bits of the access. -/
def store (b : Bank ι) (p : Interface ι σ) (offset : Word) (size : AccessSize)
    (v : BitVec size.bits) (d : Device ι σ) : Device ι σ :=
  b.write p offset size (v.setWidth 64) d

end Bank
end Mmio
end Handheld
