/-
# Transfers with coprocessors

A transfer reads a register of a coprocessor or writes one.  The system control unit has three
registers that can be written, each at its own place; the opcode is no part of a place.  After any
transfers a register goes by what was written to its place last, and the two memories and the
vector base are read off the registers as they are then.

* `SystemControl.foldl_leaves`: what transfers leave of the unit;
* `control_unit_last_written`: what the unit answers and shows after any transfers.
-/
import Handheld.Core.SystemControl
import Handheld.Proofs.Sequences
import Mathlib.Algebra.Group.Nat.Defs

namespace Handheld

/-! ## 1. Transfers and what they write -/

/-- Where a register is: its numbers without the opcode. -/
def CoprocessorRegister.place (r : CoprocessorRegister) : Word × Word × Word := (r.cn, r.cm, r.cp)

theorem CoprocessorRegister.place_eq_iff {r : CoprocessorRegister} {cn cm cp : Word} :
    r.place = (cn, cm, cp) ↔ r.cn = cn ∧ r.cm = cm ∧ r.cp = cp := by
  rw [place, Prod.mk.injEq, Prod.mk.injEq]

/-- A transfer from a register of a coprocessor, or to it. -/
inductive RegisterTransfer where
  | read (register : CoprocessorRegister)
  | write (register : CoprocessorRegister) (value : Word)

namespace RegisterTransfer

/-- What a transfer leaves of the device that it reaches. -/
def leaves {δ : Type} [Coprocessor δ] (d : δ) : RegisterTransfer → δ
  | read r => (Coprocessor.read d r).2
  | write r v => Coprocessor.write d r v

/-- What a transfer writes to the register at a place. -/
def written? (place : Word × Word × Word) : RegisterTransfer → Option Word
  | read _ => none
  | write r v => if r.place = place then some v else none

def lastWritten? (place : Word × Word × Word) (ts : List RegisterTransfer) : Option Word :=
  (ts.filterMap (written? place)).getLast?

/-- What a transfer writes to the control register of the system control unit. -/
def control? : RegisterTransfer → Option Word
  | read _ => none
  | write r v => if r.cn = 1 ∧ r.cm = 0 ∧ r.cp = 0 then some v else none

def lastControl? (ts : List RegisterTransfer) : Option Word := (ts.filterMap control?).getLast?

theorem lastControl?_eq (ts : List RegisterTransfer) :
    lastControl? ts = lastWritten? (1, 0, 0) ts := by
  have same : control? = written? (1, 0, 0) := by
    funext t
    cases t with
    | read r => rfl
    | write r v => simp only [control?, written?, CoprocessorRegister.place_eq_iff]
  rw [lastControl?, lastWritten?, same]

end RegisterTransfer

/-! ## 2. The registers of the unit -/

/-- What the configuration of a memory and its bit of the control register say about it: the
upper twenty bits are the base, and bits 5 to 1 the size, as a power of two times 512 and modulo
the word size. -/
structure TcmRegion.Follows (t : TcmRegion) (config : Word) (on : Bool) : Prop where
  base : t.base = config &&& 0xFFFFF000
  size : t.size.toNat = 512 * 2 ^ (config.toNat / 2 % 32) % 2 ^ 32
  enabled : t.enabled = on

namespace SystemControl

open RegisterTransfer

theorem follows_decodeTcm (config : Word) (on : Bool) :
    (decodeTcm config on).Follows config on where
  base := rfl
  size := by
    have exponent : (Bits.field config 1 5).toNat = config.toNat / 2 % 32 := by
      rw [Bits.field, BitVec.toNat_setWidth, BitVec.extractLsb'_toNat, Nat.shiftRight_eq_div_pow]
      omega
    show (512#32 <<< (Bits.field config 1 5).toNat).toNat = _
    rw [BitVec.toNat_shiftLeft, exponent, Nat.shiftLeft_eq]
    rfl
  enabled := rfl

/-- A transfer changes the register that it writes, and no other. -/
theorem leaves_eq (s : SystemControl) (t : RegisterTransfer) :
    t.leaves s =
      { control := ((t.written? (1, 0, 0)).map (· &&& controlWritable ||| controlOnes)).getD s.control
        dtcmConfig := (t.written? (9, 1, 0)).getD s.dtcmConfig
        itcmConfig := (t.written? (9, 1, 1)).getD s.itcmConfig } := by
  cases t with
  | read r => rfl
  | write r v =>
    show s.write r v = _
    unfold write written?
    simp only [← CoprocessorRegister.place_eq_iff]
    by_cases control : r.place = (1, 0, 0)
    · simp only [control]
      rfl
    · by_cases dtcm : r.place = (9, 1, 0)
      · simp only [dtcm]
        rfl
      · by_cases itcm : r.place = (9, 1, 1)
        · simp only [itcm]
          rfl
        · simp only [if_neg control, if_neg dtcm, if_neg itcm]
          rfl

/-- Each register is left as its last write has left it. -/
theorem foldl_leaves (ts : List RegisterTransfer) (s : SystemControl) :
    ts.foldl leaves s =
      { control :=
          ((lastWritten? (1, 0, 0) ts).map (· &&& controlWritable ||| controlOnes)).getD s.control
        dtcmConfig := (lastWritten? (9, 1, 0) ts).getD s.dtcmConfig
        itcmConfig := (lastWritten? (9, 1, 1) ts).getD s.itcmConfig } := by
  have control_left := foldl_eq_getLast? (f := control)
    (fun s t => congrArg control (leaves_eq s t)) ts s
  have dtcm_left := foldl_eq_getLast? (f := dtcmConfig)
    (fun s t => congrArg dtcmConfig (leaves_eq s t)) ts s
  have itcm_left := foldl_eq_getLast? (f := itcmConfig)
    (fun s t => congrArg itcmConfig (leaves_eq s t)) ts s
  rw [← List.map_filterMap, List.getLast?_map] at control_left
  simp only [lastWritten?, ← control_left, ← dtcm_left, ← itcm_left]

/-- Bit 13 of the control register can be written, and so goes by the last write. -/
theorem control_foldl_leaves (ts : List RegisterTransfer) (s : SystemControl) :
    Bits.get (ts.foldl leaves s).control 13 = Bits.get ((lastControl? ts).getD s.control) 13 := by
  rw [foldl_leaves, lastControl?_eq]
  cases lastWritten? (1, 0, 0) ts with
  | none => rfl
  | some v =>
    have writable : controlWritable.getLsbD 13 = true := by decide
    have fixed : controlOnes.getLsbD 13 = false := by decide
    simp only [Option.map_some, Option.getD_some, Bits.get, BitVec.getLsbD_or, BitVec.getLsbD_and,
      writable, fixed, Bool.and_true, Bool.or_false]

/-! ## 3. After any transfers -/

/-- No register of the unit that can be written is there. -/
def Unwritable (place : Word × Word × Word) : Prop :=
  place ≠ (1, 0, 0) ∧ place ≠ (9, 1, 0) ∧ place ≠ (9, 1, 1)

/-- Nothing of the unit is there. -/
def Unlisted (place : Word × Word × Word) : Prop :=
  place ≠ (0, 0, 0) ∧ place ≠ (0, 0, 1) ∧ Unwritable place

instance : DecidablePred Unwritable := fun _ => inferInstanceAs (Decidable (_ ∧ _ ∧ _))

instance : DecidablePred Unlisted := fun _ => inferInstanceAs (Decidable (_ ∧ _ ∧ _))

theorem read_of_unlisted {r : CoprocessorRegister} (h : Unlisted r.place) (s : SystemControl) :
    s.read r = 0 := by
  obtain ⟨id, cache, control, dtcm, itcm⟩ := h
  unfold read
  simp only [← CoprocessorRegister.place_eq_iff]
  rw [if_neg id, if_neg cache, if_neg control, if_neg dtcm, if_neg itcm]

theorem write_of_unwritable {r : CoprocessorRegister} (h : Unwritable r.place) (s : SystemControl)
    (v : Word) : s.write r v = s := by
  obtain ⟨control, dtcm, itcm⟩ := h
  unfold write
  simp only [← CoprocessorRegister.place_eq_iff]
  rw [if_neg control, if_neg dtcm, if_neg itcm]

/-- **The unit goes by the last writes.**  After any transfers the control register holds the last
word written to it, cut to the bits that can be written and with the fixed ones added, and each
configuration the last word written there.  These are what is read; the two identification words
are read at their places, and zero at every other.  Reading changes nothing, nor does writing at a
place of no register, and the opcode plays no part.  The memories and the vector base follow the
registers. -/
theorem control_unit_last_written (ts : List RegisterTransfer) :
    let s := ts.foldl leaves initial
    let dtcm := (lastWritten? (9, 1, 0) ts).getD 0
    let itcm := (lastWritten? (9, 1, 1) ts).getD 0
    s.control = (lastWritten? (1, 0, 0) ts).elim 0x78 (fun v => v &&& 0x000FF085 ||| 0x78) ∧
    (∀ op, Coprocessor.read s ⟨op, 0, 0, 0⟩ = (0x41059461, s) ∧
      Coprocessor.read s ⟨op, 0, 0, 1⟩ = (0x0F0D2112, s) ∧
      Coprocessor.read s ⟨op, 1, 0, 0⟩ = (s.control, s) ∧
      Coprocessor.read s ⟨op, 9, 1, 0⟩ = (dtcm, s) ∧
      Coprocessor.read s ⟨op, 9, 1, 1⟩ = (itcm, s)) ∧
    (∀ r : CoprocessorRegister, Unlisted r.place → Coprocessor.read s r = (0, s)) ∧
    (∀ (r : CoprocessorRegister) (v : Word), Unwritable r.place → Coprocessor.write s r v = s) ∧
    (∀ (r : CoprocessorRegister) (op v : Word),
      Coprocessor.read s { r with opcode := op } = Coprocessor.read s r ∧
      Coprocessor.write s { r with opcode := op } v = Coprocessor.write s r v) ∧
    s.dtcm.Follows dtcm (Bits.get s.control 16) ∧ s.itcm.Follows itcm (Bits.get s.control 18) ∧
    s.exceptionVector = if Bits.get s.control 13 then 0xFFFF0000 else 0 := by
  intro s dtcm itcm
  have registers : s = _ := foldl_leaves ts initial
  clear_value s
  subst registers
  refine ⟨?_, fun op => ⟨rfl, rfl, rfl, rfl, rfl⟩,
    fun r unlisted => congrArg (·, _) (read_of_unlisted unlisted _),
    fun r v unwritable => write_of_unwritable unwritable _ v, fun r op v => ⟨rfl, rfl⟩,
    follows_decodeTcm _ _, follows_decodeTcm _ _, rfl⟩
  cases lastWritten? (1, 0, 0) ts <;> rfl

/-- The control register is written twice, with different opcodes, and one write is to no register.
The instruction memory is too large for a word, so that its size reads as zero. -/
theorem control_unit_last_written_oversized :
    ∃ ts : List RegisterTransfer, (ts.foldl leaves initial).control = 0x40078 ∧
      Coprocessor.read (ts.foldl leaves initial) ⟨3, 9, 1, 2⟩ = (0, ts.foldl leaves initial) ∧
      (ts.foldl leaves initial).exceptionVector = 0 ∧
      (ts.foldl leaves initial).itcm.size.toNat = 0 ∧
      (ts.foldl leaves initial).itcm.enabled = true := by
  let ts : List RegisterTransfer :=
    [.write ⟨0, 1, 0, 0⟩ 0xFFFFFFFF, .write ⟨0, 9, 1, 1⟩ 0x200003F, .read ⟨0, 9, 1, 1⟩,
      .write ⟨7, 1, 0, 0⟩ 0xFFF40000, .write ⟨0, 9, 1, 2⟩ 1]
  obtain ⟨control, -, unlisted, -, -, -, itcm, vector⟩ := control_unit_last_written ts
  have cut : (ts.foldl leaves initial).control = 0x40078 := control.trans (by decide)
  rw [cut] at itcm vector
  exact ⟨ts, cut, unlisted ⟨3, 9, 1, 2⟩ (by decide), vector, itcm.size.trans (by decide),
    itcm.enabled⟩

end SystemControl
end Handheld
