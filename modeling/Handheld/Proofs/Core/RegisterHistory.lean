/-
# The register file as thirty-one cells

The architecture knows thirty-one registers, of which a mode sees sixteen: the low ones and the
program counter are common to all modes, five more are doubled for fast interrupts, and the
stack pointer and the link register exist six times.  `Cell` names them without regard to how
the file numbers its storage, and `Place` names them as an access does, by an index and perhaps
a mode.  What a file must hold is then a matter of its history alone: in every cell what was
written there last.

* `Cell.storage`, `cellOf_eq_cellOf_iff`: there is one slot for each cell, and none besides;
* `register_file_refines_cells`: every sequence of accesses to a new file.
-/
import Handheld.Proofs.Core.Cells
import Mathlib.Logic.Equiv.Defs
import Mathlib.Logic.Function.Basic

namespace Handheld
namespace RegisterFile

/-! ## 1. The cells of the architecture -/

/-- Who has a stack pointer and a link register; User and System share theirs. -/
inductive Owner where
  | program | fiq | supervisor | abort | irq | undefined
  deriving DecidableEq

def Owner.of : Mode → Owner
  | .user | .system => program
  | .fiq => fiq
  | .supervisor => supervisor
  | .abort => abort
  | .irq => irq
  | .undefined => undefined

inductive Cell where
  /-- Registers 0 to 7, one for all modes. -/
  | low (r : Fin 8)
  /-- Registers 8 to 12, for fast interrupts and for all other modes. -/
  | high (fast : Bool) (r : Fin 5)
  | stackPointer (owner : Owner)
  | linkRegister (owner : Owner)
  | programCounter
  deriving DecidableEq

namespace Cell

/-- The cell that mode `m` sees as register `r`. -/
def of (m : Mode) (r : Fin 16) : Cell :=
  if low : r.val < 8 then .low ⟨r, low⟩
  else if high : r.val < 13 then .high (m = .fiq) ⟨r - 8, by omega⟩
  else if r.val = 13 then .stackPointer (.of m)
  else if r.val = 14 then .linkRegister (.of m)
  else .programCounter

/-- The slot of the file that stores a cell. -/
def place : Cell → Fin 31
  | low r => ⟨r, by omega⟩
  | high false r => ⟨8 + r, by omega⟩
  | high true r => ⟨16 + r, by omega⟩
  | stackPointer .program => 13
  | stackPointer .fiq => 21
  | stackPointer .supervisor => 23
  | stackPointer .abort => 25
  | stackPointer .irq => 27
  | stackPointer .undefined => 29
  | linkRegister .program => 14
  | linkRegister .fiq => 22
  | linkRegister .supervisor => 24
  | linkRegister .abort => 26
  | linkRegister .irq => 28
  | linkRegister .undefined => 30
  | programCounter => 15

/-- The cells in the order of their slots. -/
def all : Vector Cell 31 :=
  ⟨((List.finRange 8).map low ++ (List.finRange 5).map (high false) ++
    [stackPointer .program, linkRegister .program, programCounter] ++
    (List.finRange 5).map (high true) ++
    [.fiq, .supervisor, .abort, .irq, .undefined].flatMap fun owner =>
      [stackPointer owner, linkRegister owner]).toArray, rfl⟩

/-- There is one slot for each cell, and none besides. -/
def storage : Cell ≃ Fin 31 where
  toFun := place
  invFun n := all[n]
  left_inv k := by
    cases k with
    | low r => revert r; decide
    | high fast r => revert fast r; decide
    | stackPointer owner => cases owner <;> rfl
    | linkRegister owner => cases owner <;> rfl
    | programCounter => rfl
  right_inv n := by
    revert n
    decide

theorem storage_of (m : Mode) (r : Fin 16) : storage (of m r) = cellOf m r := by
  revert r
  cases m <;> decide

end Cell

/-- Two modes share a register exactly where the architecture says so. -/
theorem cellOf_eq_cellOf_iff {m n : Mode} {r s : Fin 16} :
    cellOf m r = cellOf n s ↔ Cell.of m r = Cell.of n s := by
  rw [← Cell.storage_of, ← Cell.storage_of, Cell.storage.apply_eq_iff_eq]

/-- The copies that belong to the modes are what the cells hold. -/
def Holds (f : RegisterFile) (held : Cell → Word) : Prop :=
  ∀ m r, f.cell m r = held (.of m r)

theorem holds_new (m : Mode) : (new m).Holds fun _ => 0 := by
  intro n r
  simp only [cell, new, Fin.getElem_fin, Vector.getElem_replicate]

theorem Holds.setCell {f : RegisterFile} {held : Cell → Word} (h : f.Holds held) (m : Mode)
    (r : Fin 16) (v : Word) : (f.setCell m r v).Holds (Function.update held (.of m r) v) := by
  intro n s
  simp only [cell_setCell, h n s, cellOf_eq_cellOf_iff, Function.update_apply, eq_comm]

/-- The program counter is register 15 of any mode. -/
theorem setPc_eq_setCell (f : RegisterFile) (m : Mode) (v : Word) :
    f.setPc v = f.setCell m programCounter v := by
  cases m <;> rfl

/-! ## 2. Accesses -/

/-- The register an access is about. -/
inductive Place where
  | visible (index : Nat)
  | banked (mode : Mode) (index : Nat)
  | programCounter
  deriving DecidableEq

namespace Place

def index : Place → Nat
  | visible i | banked _ i => i
  | programCounter => 15

/-- The mode whose register it is, while those of `shown` are visible. -/
def mode (shown : Mode) : Place → Mode
  | banked m _ => m
  | visible _ | programCounter => shown

/-- The cell it is, if it is one. -/
def cell? (shown : Mode) (p : Place) : Option Cell :=
  if h : p.index < 16 then some (.of (p.mode shown) ⟨p.index, h⟩) else none

def read (f : RegisterFile) : Place → Except Fault Word
  | visible i => f.get i
  | banked m i => f.getBanked m i
  | programCounter => .ok f.pc

def write (f : RegisterFile) (v : Word) : Place → Except Fault RegisterFile
  | visible i => f.set i v
  | banked m i => f.setBanked m i v
  | programCounter => .ok (f.setPc v)

variable {f : RegisterFile} {shown : Mode} {held : Cell → Word} {p : Place} {k : Cell}

/-- Whatever the way to it, a register is read from the mode it belongs to. -/
theorem read_eq (hs : f.Shows shown) (hp : p.index < 16) :
    p.read f = .ok (f.cell (p.mode shown) ⟨p.index, hp⟩) := by
  cases p with
  | visible i => exact (hs.get i).trans (dif_pos hp)
  | banked m i => exact dif_pos hp
  | programCounter => exact congrArg Except.ok (cell_fifteen f shown).symm

theorem write_eq (hs : f.Shows shown) (hp : p.index < 16) (v : Word) :
    p.write f v = .ok (f.setCell (p.mode shown) ⟨p.index, hp⟩ v) := by
  cases p with
  | visible i => exact hs.set hp v
  | banked m i => exact dif_pos hp
  | programCounter => exact congrArg Except.ok (setPc_eq_setCell f shown v)

/-- Registers are numbered up to fifteen. -/
theorem read_refused (hp : 15 < p.index) : p.read f = .error (.noRegister p.index) := by
  cases p with
  | visible i => exact dif_neg (Nat.not_lt.mpr hp)
  | banked m i => exact dif_neg (Nat.not_lt.mpr hp)
  | programCounter => exact absurd hp (Nat.lt_irrefl 15)

theorem write_refused (hp : 15 < p.index) (v : Word) :
    p.write f v = .error (.noRegister p.index) := by
  cases p with
  | visible i => exact dif_neg (Nat.not_lt.mpr hp)
  | banked m i => exact dif_neg (Nat.not_lt.mpr hp)
  | programCounter => exact absurd hp (Nat.lt_irrefl 15)

end Place

inductive Access where
  | read (place : Place)
  | write (place : Place) (v : Word)
  | retarget (mode : Mode)
  deriving DecidableEq

/-- The file after an access; one that is refused leaves it alone. -/
def Access.apply (f : RegisterFile) : Access → RegisterFile
  | read _ => f
  | write p v => match p.write f v with
    | .ok f' => f'
    | .error _ => f
  | retarget m => f.retarget m

/-! ## 3. Histories, the latest access first -/

/-- A file that was new in mode `m`, after the accesses of a history. -/
def after (m : Mode) : List Access → RegisterFile
  | [] => new m
  | a :: earlier => a.apply (after m earlier)

/-- The mode that was asked for last. -/
def shown (m : Mode) : List Access → Mode
  | [] => m
  | .retarget n :: _ => n
  | .read _ :: earlier | .write _ _ :: earlier => shown m earlier

/-- What was written to a cell last, and zero if nothing was. -/
def lastWritten (m : Mode) : List Access → Cell → Word
  | [], _ => 0
  | .write p v :: earlier, k =>
    if p.cell? (shown m earlier) = some k then v else lastWritten m earlier k
  | .read _ :: earlier, k | .retarget _ :: earlier, k => lastWritten m earlier k

/-- What a history leaves, by induction on it: the file shows the mode that was asked for last,
and holds what was written last. -/
theorem after_holds (m : Mode) (history : List Access) :
    (after m history).Shows (shown m history) ∧
      (after m history).Holds (lastWritten m history) := by
  induction history with
  | nil => exact ⟨rfl, holds_new m⟩
  | cons a earlier ih =>
    obtain ⟨shows, holds⟩ := ih
    cases a with
    | read p => exact ⟨shows, holds⟩
    | retarget n =>
      exact ⟨shows_retarget _ n, fun o r => (cell_retarget _ n o r).trans (holds o r)⟩
    | write p v =>
      rcases Nat.lt_or_ge p.index 16 with hp | hp
      · simp only [after, Access.apply, p.write_eq shows hp]
        refine ⟨shows_setCell shows _ _ v, ?_⟩
        intro o r
        rw [holds.setCell _ _ v o r, Function.update_apply, lastWritten, Place.cell?, dif_pos hp]
        simp only [Option.some.injEq, eq_comm]
      · simp only [after, Access.apply, p.write_refused hp]
        refine ⟨shows, ?_⟩
        intro o r
        rw [holds o r, lastWritten, Place.cell?, dif_neg (Nat.not_lt.mpr hp), if_neg nofun]

/-- **The register file is thirty-one cells.**  After any history every access to a register up
to 15 is granted: what is read is what was written last to the cell that the register is, seen
from the mode that was asked for last, and what is written changes that cell and no other.
Every access beyond is refused and changes nothing. -/
theorem register_file_refines_cells (m : Mode) (history : List Access) (p : Place) :
    (p.index ≤ 15 → ∃ k, p.cell? (shown m history) = some k ∧
      p.read (after m history) = .ok (lastWritten m history k) ∧
      ∀ v, ∃ f, p.write (after m history) v = .ok f ∧
        ∀ n r, f.cell n r = if Cell.of n r = k then v else (after m history).cell n r) ∧
    (15 < p.index →
      p.read (after m history) = .error (.noRegister p.index) ∧
      ∀ v, p.write (after m history) v = .error (.noRegister p.index) ∧
        after m (.write p v :: history) = after m history) := by
  obtain ⟨shows, holds⟩ := after_holds m history
  constructor
  · intro hp
    have hp : p.index < 16 := Nat.lt_succ_of_le hp
    refine ⟨.of (p.mode (shown m history)) ⟨p.index, hp⟩, dif_pos hp, ?_, ?_⟩
    · rw [p.read_eq shows hp, holds]
    · intro v
      refine ⟨_, p.write_eq shows hp v, ?_⟩
      intro n r
      rw [cell_setCell]
      simp only [cellOf_eq_cellOf_iff, eq_comm]
  · intro hp
    refine ⟨p.read_refused hp, ?_⟩
    intro v
    refine ⟨p.write_refused hp v, ?_⟩
    simp only [after, Access.apply, p.write_refused hp v]

/-- The registers of a fast interrupt outlive a stay in System mode that writes the register of
the same number and one that does not exist. -/
theorem register_file_refines_cells_after_stay :
    ∃ history : List Access, shown .fiq history = .system ∧
      (Place.banked .fiq 8).read (after .fiq history) = .ok 0x108 ∧
      (Place.visible 8).read (after .fiq history) = .ok 0xAA ∧
      (Place.visible 16).read (after .fiq history) = .error (.noRegister 16) := by
  let history : List Access :=
    [.write (.visible 16) 1, .write (.visible 8) 0xAA, .retarget .system,
      .write (.visible 8) 0x108]
  obtain ⟨k, hk, banked, -⟩ :=
    (register_file_refines_cells .fiq history (.banked .fiq 8)).1 (by decide)
  obtain ⟨l, hl, visible, -⟩ :=
    (register_file_refines_cells .fiq history (.visible 8)).1 (by decide)
  obtain ⟨refused, -⟩ := (register_file_refines_cells .fiq history (.visible 16)).2 (by decide)
  obtain rfl : Cell.high true 0 = k := Option.some.inj hk
  obtain rfl : Cell.high false 0 = l := Option.some.inj hl
  exact ⟨history, rfl, banked, visible, refused⟩

end RegisterFile
end Handheld
