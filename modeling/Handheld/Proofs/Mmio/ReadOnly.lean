/-
# Read-only bits

The bus cannot change a read-only bit.  Whatever it writes goes through the mask of the register
that is written to, under each of its names and whatever part of it an access covers; and the
mask itself is out of its reach.  Only the methods of the device could do more, so the bits are
kept as long as no method stores into the register.

* `Register.Guards`: what a register keeps through a store;
* `read_only_bits_kept`: it keeps that through every sequence of accesses.
-/
import Handheld.Proofs.Mmio.Declarations
import Handheld.Proofs.Mmio.Turns

namespace Handheld

/-! ## 1. Single registers -/

namespace Register

variable {w : Nat}

/-- `r'` has the mask of `r` and the same values in the bits of the mask. -/
structure Guards (r r' : Register w) : Prop where
  mask : r'.readOnly = r.readOnly
  value : r'.value &&& r'.readOnly = r.value &&& r.readOnly

theorem Guards.refl (r : Register w) : r.Guards r := ⟨rfl, rfl⟩

theorem Guards.trans {r r' r'' : Register w} (h : r.Guards r') (h' : r'.Guards r'') :
    r.Guards r'' :=
  ⟨h'.mask.trans h.mask, h'.value.trans h.value⟩

theorem guards_store (r : Register w) (v mask : BitVec w) : r.Guards (r.store v mask) :=
  ⟨rfl, store_readOnly r v mask⟩

/-- A read-only bit is the same before and after. -/
theorem Guards.getLsbD_value {r r' : Register w} (h : r.Guards r') {j : Nat}
    (masked : r.readOnly.getLsbD j = true) : r'.value.getLsbD j = r.value.getLsbD j := by
  have bit := congrArg (·.getLsbD j) h.value
  simpa only [BitVec.getLsbD_and, h.mask, masked, Bool.and_true] using bit

end Register

namespace Mmio

variable {ι σ : Type} [Layout ι] [DecidableEq ι]

/-! ## 2. Accesses -/

/-- What the bus does to a device: it reads or writes at an offset of a bank, or the whole of a
field at once. -/
inductive BusAccess (ι : Type) where
  | read (bank : Bank ι) (offset : Word) (size : AccessSize)
  | write (bank : Bank ι) (offset : Word) (size : AccessSize) (v : Double)
  | readPlace (place : Place ι)
  | writePlace (place : Place ι) (v mask : Double)

/-- The device after the access. -/
def BusAccess.carryOut (p : Interface ι σ) (d : Device ι σ) : BusAccess ι → Device ι σ
  | .read bank offset size => (bank.read p offset size d).2
  | .write bank offset size v => bank.write p offset size v d
  | .readPlace place => (p.readPlace d place).2
  | .writePlace place v mask => p.writePlace d v mask place

/-- The device after all of the accesses. -/
def afterAccesses (p : Interface ι σ) (accesses : List (BusAccess ι)) (d : Device ι σ) :
    Device ι σ :=
  accesses.foldl (BusAccess.carryOut p) d

variable {p : Interface ι σ} {i : ι} (spared : ∀ name, p.Spares name i)
include spared

omit [DecidableEq ι] in
/-- A register that is read changes only where a method stores into it. -/
theorem register_read (j : ι) (d : Device ι σ) : (p.read j d).2.register i = d.register i := by
  rw [Interface.read_eq]
  cases found : p.reader? d j with
  | none => rfl
  | some run =>
    obtain ⟨name, named⟩ := Interface.exists_onRead found
    exact (spared name).reader? named found _ d

/-- A register that is written keeps its read-only bits, and so do those under other names. -/
theorem guards_write (j : ι) (v mask : BitVec (slotBits j)) (d : Device ι σ) :
    (d.register i).Guards ((p.write j v mask d).register i) := by
  have stored : (d.register i).Guards
      ((d.setValue j ((d.register j).store v mask).value).register i) := by
    by_cases same : i = j
    · subst same
      rw [Device.setValue, Device.register_modify_self]
      exact (d.register i).guards_store v mask
    · rw [Device.setValue, Device.register_modify_of_ne _ _ same]
      exact .refl _
  rw [Interface.write_eq]
  cases found : p.writer? d j with
  | none => exact stored
  | some run =>
    obtain ⟨name, named⟩ := Interface.exists_onWrite found
    dsimp only
    rw [(spared name).writer? named found]
    exact stored

omit [DecidableEq ι] in
theorem guards_readPlace (d : Device ι σ) (place : Place ι) :
    (d.register i).Guards ((p.readPlace d place).2.register i) := by
  cases place with
  | register j =>
    show (d.register i).Guards ((p.read j d).2.register i)
    rw [register_read spared j d]
    exact .refl _
  | unsupported type => exact .refl _

theorem guards_writePlace (d : Device ι σ) (v mask : Double) (place : Place ι) :
    (d.register i).Guards ((p.writePlace d v mask place).register i) := by
  cases place with
  | register j => exact guards_write spared j _ _ d
  | unsupported type => exact .refl _

omit [DecidableEq ι] in
theorem guards_readEntry (offset : Word) (size : AccessSize) (acc : Double × Device ι σ)
    (e : Entry ι) :
    (acc.2.register i).Guards ((readEntry p offset size acc e).2.register i) := by
  unfold readEntry
  split
  · exact .refl _
  · exact guards_readPlace spared acc.2 (.register e.slot)

theorem guards_writeEntry (offset : Word) (size : AccessSize) (v : Double) (d : Device ι σ)
    (e : Entry ι) : (d.register i).Guards ((writeEntry p offset size v d e).register i) := by
  unfold writeEntry
  split
  · exact .refl _
  · exact guards_writePlace spared d _ _ (.register e.slot)

omit [DecidableEq ι] spared in
/-- What each single thing on a list guards, the whole list does. -/
theorem guards_foldl {α γ : Type} (device : γ → Device ι σ) {f : γ → α → γ}
    (each : ∀ g a, ((device g).register i).Guards ((device (f g a)).register i)) (l : List α)
    (g : γ) : ((device g).register i).Guards ((device (l.foldl f g)).register i) := by
  induction l generalizing g with
  | nil => exact .refl _
  | cons a l ih => exact (each g a).trans (ih (f g a))

/-- A single access keeps the read-only bits. -/
theorem guards_carryOut (d : Device ι σ) (x : BusAccess ι) :
    (d.register i).Guards ((x.carryOut p d).register i) := by
  cases x with
  | read bank offset size =>
    exact guards_foldl Prod.snd (guards_readEntry spared offset size) bank.entries (0, d)
  | write bank offset size v =>
    exact guards_foldl id (guards_writeEntry spared offset size v) bank.entries d
  | readPlace place => exact guards_readPlace spared d place
  | writePlace place v mask => exact guards_writePlace spared d v mask place

theorem guards_afterAccesses (accesses : List (BusAccess ι)) (d : Device ι σ) :
    (d.register i).Guards ((afterAccesses p accesses d).register i) :=
  guards_foldl id (guards_carryOut spared) accesses d

/-! ## 3. What a tag protects -/

/-- **No sequence of accesses changes a read-only bit** of a register that no method stores into,
nor the mask that makes it one.  In particular, after a register was set up by a single field,
each bit that the field does not make writable keeps the value that it starts with. -/
theorem read_only_bits_kept :
    (∀ accesses (d : Device ι σ),
      (d.register i).Guards ((afterAccesses p accesses d).register i)) ∧
    ∀ f, p.fields.filter (·.tags i) = [f] → ∀ d d', setup p d = .ok () d' →
      ((f.tag.get "rwmask").isEmpty ∨ (f.tag.writable? (slotBits i)).isSome) ∧
      ∀ writable, f.tag.writable? (slotBits i) = some writable →
        ∀ accesses j, j < slotBits i → writable.getLsbD j = false →
          ((afterAccesses p accesses d').value i).getLsbD j =
            ((f.tag.initial? (slotBits i)).getD (d.value i)).getLsbD j := by
  refine ⟨fun accesses d => guards_afterAccesses spared accesses d, ?_⟩
  intro f only d d' done
  have declared := setup_declares only done
  refine ⟨declared.mask_read, ?_⟩
  intro writable given accesses j hj free
  have mask := declared.mask
  rw [given, Option.map_some, Option.getD_some] at mask
  have masked : (d'.register i).readOnly.getLsbD j = true := by
    rw [mask, BitVec.getLsbD_not, free]
    simp [hj]
  have kept := (guards_afterAccesses spared accesses d').getLsbD_value masked
  rw [declared.value] at kept
  exact kept

omit spared in
/-- The upper half of a status register, written to in a bank where a wide register lies over it,
and then as a whole: its lower half is written both times. -/
theorem read_only_bits_kept_straddling :
    ∃ (p : Interface Division.Slot Unit) (f : Field Division.Slot) (d : Division.Divider)
      (accesses : List (BusAccess Division.Slot)), (∀ name, p.Spares name .control) ∧
      p.fields.filter (·.tags .control) = [f] ∧ setup p (.blank ()) = .ok () d ∧
      (afterAccesses p accesses d).value .quotient = 0xBEFF ∧
      ∀ j, 8 ≤ j → j < 16 →
        ((afterAccesses p accesses d).value .control).getLsbD j = (0xBEEF#16).getLsbD j := by
  let f : Field Division.Slot :=
    ⟨"Status", ⟨"offset=0x2,reset=0xBEEF,rwmask=0xFF,wcb=Note"⟩, .register .control⟩
  let p : Interface Division.Slot Unit :=
    ⟨[⟨"Over", ⟨"offset=0x0"⟩, .register .numerator⟩, f],
     [⟨"Note", .write .half fun _ new u => u.setValue .quotient (new.setWidth 64)⟩]⟩
  let accesses : List (BusAccess Division.Slot) :=
    [.write ⟨[⟨"Over", 0, .numerator⟩, ⟨"Status", 2, .control⟩]⟩ 1 .double 0x1122334455667788,
      .writePlace (.register .control) (-1) (-1)]
  have spared : ∀ name, p.Spares name .control := by
    intro name c called
    obtain ⟨m, found, rfl⟩ := Option.map_eq_some_iff.mp called
    obtain rfl := List.mem_singleton.mp (List.mem_of_find?_eq_some found)
    intro old new d
    exact Device.register_modify_of_ne _ _ (by decide)
  have only : p.fields.filter (·.tags .control) = [f] := by decide +kernel
  -- the value to be noted is what tells that the setup has succeeded
  obtain ⟨d, done, noted⟩ : ∃ d, setup p (.blank ()) = .ok () d ∧
      (afterAccesses p accesses d).value .quotient = 0xBEFF := by
    have noted : EStateM.Result.casesOn (motive := fun _ => Double) (setup p (.blank ()))
        (fun _ d => (afterAccesses p accesses d).value .quotient) (fun _ _ => 0) = 0xBEFF := by
      decide +kernel
    cases done : setup p (.blank ()) with
    | error e d =>
      rw [done] at noted
      have nothing : (0 : Double) = 0xBEFF := noted
      exact absurd nothing (by decide)
    | ok u d =>
      rw [done] at noted
      exact ⟨d, rfl, noted⟩
  refine ⟨p, f, d, accesses, spared, only, done, noted, ?_⟩
  intro j high low
  have writable : ∀ j < 16, 8 ≤ j → (0xFF#16).getLsbD j = false := by decide
  have kept := ((read_only_bits_kept spared).2 f only _ d done).2 0xFF (by decide +kernel)
    accesses j low (writable j low high)
  have initial : (f.tag.initial? 16).getD 0 = 0xBEEF#16 := by decide +kernel
  exact kept.trans (congrArg (·.getLsbD j) initial)

end Mmio
end Handheld
