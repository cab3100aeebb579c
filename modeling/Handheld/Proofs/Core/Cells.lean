/-
# The cells of the register file

Each mode sees sixteen of the thirty-one cells.  Here the accessors of the register file are
put in terms of the copies that belong to a mode, and two copies are told apart: register 15
has one cell for all modes, and a private register of one mode is no register of another.

* `Shows.get`, `Shows.set`: a visible register is the copy of the mode that is shown;
* `cellOf_eq_fifteen_iff`, `cellOf_eq_of_private`: which copies are the same cell.
-/
import Handheld.Core.RegisterFile

namespace Handheld
namespace RegisterFile

variable {f : RegisterFile} {m n : Mode}

/-- The registers of `m` are the visible ones. -/
def Shows (f : RegisterFile) (m : Mode) : Prop := f.map = layout m

theorem shows_retarget (f : RegisterFile) (m : Mode) : (f.retarget m).Shows m := rfl

/-- Showing other registers changes none of them. -/
@[simp] theorem cell_retarget (f : RegisterFile) (m n : Mode) (r : Fin 16) :
    (f.retarget m).cell n r = f.cell n r := by
  simp only [retarget, cell]

@[simp] theorem pc_retarget (f : RegisterFile) (m : Mode) : (f.retarget m).pc = f.pc := by
  simp only [retarget, pc]

/-- A visible register is the copy that belongs to the mode. -/
theorem Shows.get (h : f.Shows m) (r : Nat) : f.get r = f.getBanked m r := by
  have hf : f.retarget m = f := by
    obtain ⟨cells, map⟩ := f
    simp only [Shows] at h
    rw [retarget, h]
  rw [← get_retarget, hf]

theorem Shows.set (h : f.Shows m) {r : Nat} (hr : r < 16) (v : Word) :
    f.set r v = .ok (f.setCell m ⟨r, hr⟩ v) := by
  obtain ⟨cells, map⟩ := f
  simp only [Shows] at h
  subst h
  simp only [RegisterFile.set, toNat_layout m hr, cellNumber_lt m hr, hr, dite_true]
  rfl

theorem shows_setCell (h : f.Shows n) (m : Mode) (r : Fin 16) (v : Word) :
    (f.setCell m r v).Shows n := h

theorem shows_setPc (h : f.Shows n) (v : Word) : (f.setPc v).Shows n := h

/-- Register 15 has one cell for every mode, and no other register uses it. -/
theorem cellOf_eq_fifteen_iff {r : Fin 16} : cellOf m r = 15 ↔ r = 15 := by
  have := r.isLt
  constructor
  · intro h
    have h' : cellNumber m r = 15 := congrArg Fin.val h
    apply Fin.ext
    show r.val = 15
    cases m <;> simp only [cellNumber, privateBank] at h' <;> (try split at h') <;> omega
  · rintro rfl
    cases m <;> rfl

theorem cell_fifteen (f : RegisterFile) (m : Mode) : f.cell m 15 = f.pc := by
  cases m <;> rfl

theorem pc_setCell (f : RegisterFile) (m : Mode) {r : Fin 16} (hr : r ≠ 15) (v : Word) :
    (f.setCell m r v).pc = f.pc := by
  rw [← cell_fifteen _ m, cell_setCell, ← cell_fifteen f m, if_neg]
  intro h
  exact hr (cellOf_eq_fifteen_iff.mp (h.trans (cellOf_eq_fifteen_iff.mpr rfl)))

@[simp] theorem pc_setPc (f : RegisterFile) (v : Word) : (f.setPc v).pc = v := by
  simp [pc, setPc]

/-- Moving the program counter leaves every other register alone. -/
theorem cell_setPc (f : RegisterFile) (m : Mode) {r : Fin 16} (hr : r ≠ 15) (v : Word) :
    (f.setPc v).cell m r = f.cell m r := by
  have hc : cellOf m r ≠ 15 := fun h => hr (cellOf_eq_fifteen_iff.mp h)
  have hn : (15 : Nat) ≠ (cellOf m r).val := fun h => hc (Fin.ext h.symm)
  simp only [cell, setPc, Fin.getElem_fin]
  exact Vector.getElem_set_ne _ _ hn

/-- The registers that a mode has for itself: the stack pointer and the link register of a mode
that an exception enters, and for fast interrupts the five registers below them too. -/
def Private : Mode → Fin 16 → Prop
  | .user, _ | .system, _ => False
  | .fiq, r => 8 ≤ r.val ∧ r.val ≤ 14
  | _, r => r.val = 13 ∨ r.val = 14

theorem not_private_fifteen (m : Mode) : ¬ Private m 15 := by
  intro h
  have hv : (15 : Fin 16).val = 15 := rfl
  cases m <;> simp only [Private, hv] at h <;> omega

/-- A private register is no register of another mode, and only one of its own. -/
theorem cellOf_eq_of_private {r s : Fin 16} (hr : Private m r) (h : cellOf m r = cellOf n s) :
    n = m ∧ s = r := by
  have hv : cellNumber m r = cellNumber n s := congrArg Fin.val h
  have := s.isLt
  cases m <;> simp only [Private] at hr <;> cases n <;>
    simp only [cellNumber, privateBank] at hv <;> (repeat' split at hv) <;>
    first
      | omega
      | exact ⟨rfl, Fin.ext (by omega)⟩

end RegisterFile

end Handheld
