/-
# The banked register file

Thirty-one cells hold all general-purpose registers.  A map with one entry per architectural
register says which cells are visible; changing the mode replaces the map and leaves the cells
alone.

    User, System                       no private registers
    Fiq                                r8 to r14
    Supervisor, Abort, Irq, Undefined  r13 and r14

Register 15 has one cell for every mode.  A map that was restored from a saved state need not
be the map of any mode, so the visible accessors check it.
-/
import Handheld.Core.Mode

namespace Handheld

structure RegisterFile where
  cells : Vector Word 31
  map : Vector Byte 16
  deriving DecidableEq

namespace RegisterFile

def stackPointer : Fin 16 := 13
def linkRegister : Fin 16 := 14
def programCounter : Fin 16 := 15

/-! ## 1. Which cell a mode uses -/

/-- The first register that is private to the mode, and its cell. -/
def privateBank : Mode → Option (Nat × Nat)
  | .user | .system => none
  | .fiq => some (8, 16)
  | .supervisor => some (13, 23)
  | .abort => some (13, 25)
  | .irq => some (13, 27)
  | .undefined => some (13, 29)

/-- Private registers run up to the link register; the cells of a bank are adjacent. -/
def cellNumber (m : Mode) (r : Nat) : Nat :=
  match privateBank m with
  | some (first, base) => if first ≤ r ∧ r ≤ 14 then base + (r - first) else r
  | none => r

theorem cellNumber_lt (m : Mode) {r : Nat} (h : r < 16) : cellNumber m r < 31 := by
  cases m <;> simp only [cellNumber, privateBank] <;> (try split) <;> omega

def cellOf (m : Mode) (r : Fin 16) : Fin 31 := ⟨cellNumber m r, cellNumber_lt m r.isLt⟩

/-- The map that makes the registers of `m` visible. -/
def layout (m : Mode) : Vector Byte 16 := Vector.ofFn fun r => BitVec.ofNat 8 (cellNumber m r)

theorem toNat_layout (m : Mode) {r : Nat} (h : r < 16) : (layout m)[r].toNat = cellNumber m r := by
  have := cellNumber_lt m h
  simp only [layout, Vector.getElem_ofFn, BitVec.toNat_ofNat]
  omega

def new (m : Mode) : RegisterFile := ⟨Vector.replicate 31 0, layout m⟩

/-! ## 2. Access -/

/-- Why an access is refused. -/
inductive Fault where
  | noRegister (index : Nat)
  | noCell (number : Nat)
  deriving DecidableEq

def Fault.message : Fault → String
  | noRegister i =>
    "Invalid register index: " ++ Numeral.decimal i ++ " (" ++ Numeral.hexUpper i ++ ")"
  | noCell n => "index out of bounds: the len is 31 but the index is " ++ Numeral.decimal n

/-- Makes the registers of `m` visible. -/
def retarget (f : RegisterFile) (m : Mode) : RegisterFile := { f with map := layout m }

def get (f : RegisterFile) (r : Nat) : Except Fault Word :=
  if h : r < 16 then
    let n := f.map[r].toNat
    if hn : n < 31 then .ok f.cells[n] else .error (.noCell n)
  else .error (.noRegister r)

def set (f : RegisterFile) (r : Nat) (v : Word) : Except Fault RegisterFile :=
  if h : r < 16 then
    let n := f.map[r].toNat
    if hn : n < 31 then .ok { f with cells := f.cells.set n v } else .error (.noCell n)
  else .error (.noRegister r)

/-- The copy of register `r` that belongs to `m`, whatever is visible. -/
def cell (f : RegisterFile) (m : Mode) (r : Fin 16) : Word := f.cells[cellOf m r]

def setCell (f : RegisterFile) (m : Mode) (r : Fin 16) (v : Word) : RegisterFile :=
  { f with cells := f.cells.set (cellOf m r) v }

def getBanked (f : RegisterFile) (m : Mode) (r : Nat) : Except Fault Word :=
  if h : r < 16 then .ok (f.cell m ⟨r, h⟩) else .error (.noRegister r)

def setBanked (f : RegisterFile) (m : Mode) (r : Nat) (v : Word) : Except Fault RegisterFile :=
  if h : r < 16 then .ok (f.setCell m ⟨r, h⟩ v) else .error (.noRegister r)

/-- The program counter's cell does not go through the map. -/
def pc (f : RegisterFile) : Word := f.cells[15]

def setPc (f : RegisterFile) (v : Word) : RegisterFile := { f with cells := f.cells.set 15 v }

/-! ## 3. The visible registers of a mode's map -/

/-- Under the map of `m` the visible registers are those of `m`. -/
theorem get_retarget (f : RegisterFile) (m : Mode) (r : Nat) :
    (f.retarget m).get r = f.getBanked m r := by
  simp only [get, getBanked, retarget]
  split
  · rename_i h
    simp only [toNat_layout m h, cellNumber_lt m h, dite_true, cell, cellOf]
    rfl
  · rfl

theorem cell_setCell (f : RegisterFile) (m n : Mode) (r s : Fin 16) (v : Word) :
    (f.setCell m r v).cell n s = if cellOf m r = cellOf n s then v else f.cell n s := by
  simp only [cell, setCell, Fin.getElem_fin, Vector.getElem_set, Fin.ext_iff]

end RegisterFile
end Handheld
