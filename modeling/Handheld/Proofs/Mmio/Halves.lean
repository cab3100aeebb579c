/-
# Accesses cut into halves

Whether a word is read or written in one access or in two halves, the lower one first, makes no
difference: not where a register lies across the middle, not where registers lie over one
another, and not at read-only bits.  Cut again and again, an access is the sequence of the
accesses to its bytes.

For reads this needs that showing a register changes nothing.  For writes it needs that there
are no methods, which would run twice, and that no register has two names: the second name would
write its half over what the first one has stored, and the order of all four is not that of the
halves.

Both sides are compared where no access is seen any more: a read at each of its bits (`showsBit`),
a write at each byte of each register (`Entry.byte_merged`).

* `access_by_halves`: accesses, their halves and their bytes.
-/
import Handheld.Proofs.Mmio.Turns

namespace Handheld
namespace Mmio

variable {ι σ : Type} [Layout ι]

/-! ## 1. Offsets and sizes -/

theorem toNat_add_bytes {offset : Word} {n : Nat} (fits : offset.toNat + n < 0x100000000) :
    (offset + BitVec.ofNat 32 n).toNat = offset.toNat + n := by
  rw [BitVec.toNat_add, BitVec.toNat_ofNat]
  omega

theorem add_one_ofNat (offset : Word) (n : Nat) :
    offset + 1 + BitVec.ofNat 32 n = offset + BitVec.ofNat 32 (n + 1) := by
  rw [BitVec.add_assoc, BitVec.add_comm 1, BitVec.ofNat_add]
  rfl

/-- Every access is cut into halves, down to the bytes. -/
theorem AccessSize.halving {motive : AccessSize → Prop} (byte : motive .byte)
    (twice : ∀ n wide : AccessSize, wide.bytes = 2 * n.bytes → motive n → motive wide)
    (size : AccessSize) : motive size := by
  have half := twice .byte .half rfl byte
  have word := twice .half .word rfl half
  have double := twice .word .double rfl word
  cases size <;> assumption

theorem byte_ushiftRight (v : Double) (n j : Nat) :
    Bits.byte (v >>> (8 * n)) j = Bits.byte v (n + j) := by
  apply BitVec.eq_of_getLsbD_eq
  intro t ht
  have place : 8 * n + (8 * j + t) = 8 * (n + j) + t := by omega
  simp only [Bits.byte, BitVec.getLsbD_extractLsb', BitVec.getLsbD_ushiftRight, place]

/-! ## 2. Reading -/

namespace Bank

/-- Some register shows a one at this bit of the byte at a position. -/
def showsBit (b : Bank ι) (p : Interface ι σ) (d : Device ι σ) (a t : Nat) : Bool :=
  b.entries.any fun e =>
    e.covers a && (Bits.byte (p.read e.slot d).1 (a - e.offset.toNat)).getLsbD t

/-- Showing any of the registers changes nothing. -/
def ReadsQuietly (b : Bank ι) (p : Interface ι σ) (d : Device ι σ) : Prop :=
  ∀ e ∈ b.entries, (p.read e.slot d).2 = d

/-- Reads the bytes from an offset on, one after the other. -/
def readBytes (b : Bank ι) (p : Interface ι σ) : Nat → Word → Device ι σ → Double × Device ι σ
  | 0, _, d => (0, d)
  | n + 1, offset, d =>
    let (x, d) := b.read p offset .byte d
    let (rest, d) := b.readBytes p n (offset + 1) d
    (x ||| rest <<< 8, d)

/-- Writes the bytes of a value from an offset on, one after the other. -/
def writeBytes [DecidableEq ι] (b : Bank ι) (p : Interface ι σ) :
    Nat → Word → Double → Device ι σ → Device ι σ
  | 0, _, _, d => d
  | n + 1, offset, v, d => b.writeBytes p n (offset + 1) (v >>> 8) (b.write p offset .byte v d)

end Bank

variable {b : Bank ι} {p : Interface ι σ} {d : Device ι σ}

/-- A read sees the positions it covers, and nothing happens. -/
theorem read_of_quiet (quiet : b.ReadsQuietly p d) (offset : Word) (size : AccessSize) :
    (b.read p offset size d).2 = d ∧
      ∀ i, (b.read p offset size d).1.getLsbD i =
        (decide (i < 8 * size.bytes) && b.showsBit p d (offset.toNat + i / 8) (i % 8)) := by
  obtain ⟨same, bits⟩ := getLsbD_foldl_readEntry p offset size b.entries quiet 0
  refine ⟨same, fun i => ?_⟩
  rw [Bank.read, bits, Bank.showsBit]
  simp only [getLsbD_excerpt]
  cases decide (i < 8 * size.bytes) <;> simp

/-- Where no two registers share a position, a byte of a read is that of the register there. -/
theorem byte_read (quiet : b.ReadsQuietly p d)
    (ranges : b.entries.Pairwise fun e e' => ∀ a, e.covers a = true → e'.covers a = false)
    (offset : Word) (size : AccessSize) (j : Nat) :
    Bits.byte (b.read p offset size d).1 j =
      if j < size.bytes then
        ((b.entries.find? (·.covers (offset.toNat + j))).map fun e =>
          Bits.byte (p.read e.slot d).1 (offset.toNat + j - e.offset.toNat)).getD 0
      else 0 := by
  apply BitVec.eq_of_getLsbD_eq
  intro t ht
  have bit := (read_of_quiet quiet offset size).2 (8 * j + t)
  have place : (8 * j + t) / 8 = j := by omega
  have within : (8 * j + t) % 8 = t := by omega
  have inside : 8 * j + t < 8 * size.bytes ↔ j < size.bytes := by omega
  rw [place, within, Bank.showsBit, any_covers_eq _ ranges] at bit
  have read : (Bits.byte (b.read p offset size d).1 j).getLsbD t =
      (b.read p offset size d).1.getLsbD (8 * j + t) := by
    simp [Bits.byte, ht]
  rw [read, bit]
  by_cases h : j < size.bytes
  · cases b.entries.find? (·.covers (offset.toNat + j)) with
    | none => simp [h]
    | some e => simp [h, inside]
  · simp [h, inside]

/-- Both halves of a read together. -/
theorem read_halves (quiet : b.ReadsQuietly p d) {n wide : AccessSize}
    (twice : wide.bytes = 2 * n.bytes) {offset : Word}
    (fits : offset.toNat + n.bytes < 0x100000000) :
    b.read p offset wide d =
      ((b.read p offset n d).1 |||
        (b.read p (offset + BitVec.ofNat 32 n.bytes) n d).1 <<< (8 * n.bytes), d) := by
  obtain ⟨same, bits⟩ := read_of_quiet quiet offset wide
  obtain ⟨-, lower⟩ := read_of_quiet quiet offset n
  obtain ⟨-, upper⟩ := read_of_quiet quiet (offset + BitVec.ofNat 32 n.bytes) n
  refine Prod.ext ?_ same
  apply BitVec.eq_of_getLsbD_eq
  intro i hi
  rw [bits, BitVec.getLsbD_or, BitVec.getLsbD_shiftLeft, lower, upper, toNat_add_bytes fits, twice]
  by_cases low : i < 8 * n.bytes
  · have inside : i < 8 * (2 * n.bytes) := by omega
    simp [low, inside]
  · have place : offset.toNat + n.bytes + (i - 8 * n.bytes) / 8 = offset.toNat + i / 8 := by omega
    have bit : (i - 8 * n.bytes) % 8 = i % 8 := by omega
    have inside : i - 8 * n.bytes < 8 * n.bytes ↔ i < 8 * (2 * n.bytes) := by omega
    simp [low, hi, place, bit, inside]

theorem readBytes_add (b : Bank ι) (p : Interface ι σ) (n m : Nat) (offset : Word)
    (d : Device ι σ) :
    b.readBytes p (n + m) offset d =
      ((b.readBytes p n offset d).1 |||
        (b.readBytes p m (offset + BitVec.ofNat 32 n) (b.readBytes p n offset d).2).1 <<< (8 * n),
        (b.readBytes p m (offset + BitVec.ofNat 32 n) (b.readBytes p n offset d).2).2) := by
  induction n generalizing offset d with
  | zero => simp [Bank.readBytes]
  | succ n ih =>
    have places : 8 * (n + 1) = 8 * n + 8 := by omega
    rw [Nat.succ_add]
    simp only [Bank.readBytes]
    rw [ih, add_one_ofNat, places]
    simp only [BitVec.shiftLeft_or_distrib, BitVec.shiftLeft_add, BitVec.or_assoc]

/-- **A read is the reads of its bytes.** -/
theorem read_eq_readBytes (quiet : b.ReadsQuietly p d) {offset : Word} {size : AccessSize}
    (fits : offset.toNat + size.bytes ≤ 0x100000000) :
    b.read p offset size d = b.readBytes p size.bytes offset d := by
  induction size using AccessSize.halving generalizing offset with
  | byte =>
    show _ = b.readBytes p 1 offset d
    simp [Bank.readBytes]
  | twice n wide twice ih =>
    have some_byte : 0 < n.bytes := by cases n <;> decide
    have middle : offset.toNat + n.bytes < 0x100000000 := by omega
    have upper_fits : (offset + BitVec.ofNat 32 n.bytes).toNat + n.bytes ≤ 0x100000000 := by
      rw [toNat_add_bytes middle]
      omega
    have lower := ih (by omega : offset.toNat + n.bytes ≤ 0x100000000)
    have upper := ih upper_fits
    have same : (b.readBytes p n.bytes offset d).2 = d := by
      rw [← lower]
      exact (read_of_quiet quiet offset n).1
    have same' : (b.readBytes p n.bytes (offset + BitVec.ofNat 32 n.bytes) d).2 = d := by
      rw [← upper]
      exact (read_of_quiet quiet _ n).1
    rw [read_halves quiet twice middle, twice, Nat.two_mul, readBytes_add, same, same', lower,
      upper]

/-! ## 3. Writing -/

/-- A register takes over a word in two halves as it takes it over at once. -/
theorem merged_halves (e : Entry ι) {n wide : AccessSize} (twice : wide.bytes = 2 * n.bytes)
    {offset : Word} (fits : offset.toNat + n.bytes < 0x100000000) (v : Double)
    (r : Register (slotBits e.slot)) :
    e.merged (offset + BitVec.ofNat 32 n.bytes) n (v >>> (8 * n.bytes))
        { r with value := e.merged offset n v r } = e.merged offset wide v r := by
  apply Bits.eq_of_byte_eq
  intro j hj
  simp only [e.byte_merged _ _ _ _ hj, toNat_add_bytes fits, twice]
  by_cases low : e.offset.toNat + j < offset.toNat + n.bytes
  · have outside : ¬(offset.toNat + n.bytes ≤ e.offset.toNat + j ∧
        e.offset.toNat + j < offset.toNat + n.bytes + n.bytes) := by omega
    have inside : e.offset.toNat + j < offset.toNat + 2 * n.bytes := by omega
    simp only [outside, low, inside, if_false]
  · have outside : ¬(offset.toNat ≤ e.offset.toNat + j ∧
        e.offset.toNat + j < offset.toNat + n.bytes) := by omega
    have range : offset.toNat + n.bytes ≤ e.offset.toNat + j ∧
        e.offset.toNat + j < offset.toNat + n.bytes + n.bytes ↔
        offset.toNat ≤ e.offset.toNat + j ∧
          e.offset.toNat + j < offset.toNat + 2 * n.bytes := by omega
    simp only [outside, range, if_false]
    split
    · have place : n.bytes + (e.offset.toNat + j - (offset.toNat + n.bytes)) =
          e.offset.toNat + j - offset.toNat := by omega
      rw [byte_ushiftRight, place]
    · rfl

variable [DecidableEq ι]

namespace Bank

/-- No register has two names. -/
def Distinct (b : Bank ι) : Prop := b.entries.Pairwise fun e e' => e.slot ≠ e'.slot

/-- No register runs a method when it is written. -/
def WritesPlainly (b : Bank ι) (d : Device ι σ) : Prop :=
  ∀ e ∈ b.entries, (d.register e.slot).onWrite = none

end Bank

variable {offset : Word} {size : AccessSize}

theorem extra_writeEntry {e : Entry ι} (h : (d.register e.slot).onWrite = none) (v : Double) :
    (writeEntry p offset size v d e).extra = d.extra := by
  rw [writeEntry]
  cases e.overlap? offset size with
  | none => rfl
  | some s =>
    simp only [Interface.writePlace, Interface.write, Register.store, h, Option.bind_none]
    rfl

theorem onWrite_writeEntry {e : Entry ι} (h : (d.register e.slot).onWrite = none) (v : Double)
    (i : ι) : ((writeEntry p offset size v d e).register i).onWrite = (d.register i).onWrite := by
  by_cases same : i = e.slot
  · subst same
    rw [register_writeEntry_self h, Entry.stored_eq]
  · rw [register_writeEntry_of_ne h v same]

/-- Plain writes do not reach beyond the registers, nor any register's methods. -/
theorem foldl_writeEntry_keeps (v : Double) (es : List (Entry ι)) :
    ∀ d : Device ι σ, (∀ e ∈ es, (d.register e.slot).onWrite = none) →
      (es.foldl (writeEntry p offset size v) d).extra = d.extra ∧
        ∀ i, ((es.foldl (writeEntry p offset size v) d).register i).onWrite =
          (d.register i).onWrite := by
  induction es with
  | nil => exact fun d _ => ⟨rfl, fun _ => rfl⟩
  | cons e es ih =>
    intro d plain
    obtain ⟨here, others⟩ := List.forall_mem_cons.mp plain
    obtain ⟨extra, onWrite⟩ := ih (writeEntry p offset size v d e) fun e' he' => by
      rw [onWrite_writeEntry here]
      exact others e' he'
    refine ⟨?_, fun i => ?_⟩
    · rw [List.foldl_cons, extra, extra_writeEntry here]
    · rw [List.foldl_cons, onWrite, onWrite_writeEntry here]

theorem writesPlainly_write (plain : b.WritesPlainly d) (v : Double) :
    b.WritesPlainly (b.write p offset size v d) := by
  intro e he
  rw [Bank.write, (foldl_writeEntry_keeps v b.entries d plain).2]
  exact plain e he

theorem register_write_of_mem (distinct : b.Distinct) (plain : b.WritesPlainly d) (v : Double)
    {e : Entry ι} (he : e ∈ b.entries) :
    (b.write p offset size v d).register e.slot =
      { d.register e.slot with value := e.merged offset size v (d.register e.slot) } := by
  rw [← Entry.stored_eq]
  exact register_foldl_writeEntry v b.entries d distinct plain e he

theorem register_write_of_not_mem (distinct : b.Distinct) (plain : b.WritesPlainly d) (v : Double)
    {i : ι} (h : ∀ e ∈ b.entries, i ≠ e.slot) :
    (b.write p offset size v d).register i = d.register i :=
  register_foldl_writeEntry_of_ne v b.entries d distinct plain h

/-- Both halves of a write, the lower one first. -/
theorem write_halves (distinct : b.Distinct) (plain : b.WritesPlainly d) {n wide : AccessSize}
    (twice : wide.bytes = 2 * n.bytes) (fits : offset.toNat + n.bytes < 0x100000000) (v : Double) :
    b.write p offset wide v d =
      b.write p (offset + BitVec.ofNat 32 n.bytes) n (v >>> (8 * n.bytes))
        (b.write p offset n v d) := by
  have plain' : b.WritesPlainly (b.write p offset n v d) := writesPlainly_write plain v
  have registers : ∀ i, (b.write p offset wide v d).register i =
      (b.write p (offset + BitVec.ofNat 32 n.bytes) n (v >>> (8 * n.bytes))
        (b.write p offset n v d)).register i := by
    intro i
    by_cases h : ∃ e ∈ b.entries, i = e.slot
    · obtain ⟨e, he, rfl⟩ := h
      rw [register_write_of_mem distinct plain v he, register_write_of_mem distinct plain' _ he,
        register_write_of_mem distinct plain v he, merged_halves e twice fits]
    · have other : ∀ e ∈ b.entries, i ≠ e.slot := fun e he same => h ⟨e, he, same⟩
      rw [register_write_of_not_mem distinct plain v other,
        register_write_of_not_mem distinct plain' _ other,
        register_write_of_not_mem distinct plain v other]
  have extra : (b.write p offset wide v d).extra =
      (b.write p (offset + BitVec.ofNat 32 n.bytes) n (v >>> (8 * n.bytes))
        (b.write p offset n v d)).extra := by
    simp only [Bank.write] at plain' ⊢
    rw [(foldl_writeEntry_keeps v b.entries d plain).1,
      (foldl_writeEntry_keeps _ b.entries _ plain').1,
      (foldl_writeEntry_keeps v b.entries d plain).1]
  exact Device.eq_of_registers registers extra

theorem writeBytes_add (b : Bank ι) (p : Interface ι σ) (n m : Nat) (offset : Word) (v : Double)
    (d : Device ι σ) :
    b.writeBytes p (n + m) offset v d =
      b.writeBytes p m (offset + BitVec.ofNat 32 n) (v >>> (8 * n))
        (b.writeBytes p n offset v d) := by
  induction n generalizing offset v d with
  | zero => simp [Bank.writeBytes]
  | succ n ih =>
    have places : 8 * (n + 1) = 8 + 8 * n := by omega
    rw [Nat.succ_add]
    simp only [Bank.writeBytes]
    rw [ih, add_one_ofNat, places, BitVec.shiftRight_add]

/-- **A write is the writes of its bytes.** -/
theorem write_eq_writeBytes (distinct : b.Distinct) (plain : b.WritesPlainly d)
    (fits : offset.toNat + size.bytes ≤ 0x100000000) (v : Double) :
    b.write p offset size v d = b.writeBytes p size.bytes offset v d := by
  induction size using AccessSize.halving generalizing offset v d with
  | byte => rfl
  | twice n wide twice ih =>
    have some_byte : 0 < n.bytes := by cases n <;> decide
    have middle : offset.toNat + n.bytes < 0x100000000 := by omega
    have upper_fits : (offset + BitVec.ofNat 32 n.bytes).toNat + n.bytes ≤ 0x100000000 := by
      rw [toNat_add_bytes middle]
      omega
    have plain' : b.WritesPlainly (b.write p offset n v d) := writesPlainly_write plain v
    have lower := ih plain (by omega : offset.toNat + n.bytes ≤ 0x100000000) v
    have upper := ih plain' upper_fits (v >>> (8 * n.bytes))
    rw [write_halves distinct plain twice middle, upper, lower, twice, Nat.two_mul, writeBytes_add]

/-! ## 4. Accesses -/

/-- **Wide and narrow accesses agree.**  Registers may lie over one another and across the middle
of an access.  A read is its halves put together, and a write its halves one after the other; so
each is the sequence of the accesses to its bytes, as long as these are below the end of the
address space. -/
theorem access_by_halves (b : Bank ι) (p : Interface ι σ) (d : Device ι σ)
    (distinct : b.Distinct) :
    (b.ReadsQuietly p d →
      (∀ (n wide : AccessSize) (offset : Word), wide.bytes = 2 * n.bytes →
        offset.toNat + n.bytes < 0x100000000 →
        b.read p offset wide d =
          ((b.read p offset n d).1 |||
            (b.read p (offset + BitVec.ofNat 32 n.bytes) n d).1 <<< (8 * n.bytes), d)) ∧
      ∀ (size : AccessSize) (offset : Word), offset.toNat + size.bytes ≤ 0x100000000 →
        b.read p offset size d = b.readBytes p size.bytes offset d) ∧
    (b.WritesPlainly d →
      (∀ (n wide : AccessSize) (offset : Word) (v : Double), wide.bytes = 2 * n.bytes →
        offset.toNat + n.bytes < 0x100000000 →
        b.write p offset wide v d =
          b.write p (offset + BitVec.ofNat 32 n.bytes) n (v >>> (8 * n.bytes))
            (b.write p offset n v d)) ∧
      ∀ (size : AccessSize) (offset : Word) (v : Double), offset.toNat + size.bytes ≤ 0x100000000 →
        b.write p offset size v d = b.writeBytes p size.bytes offset v d) := by
  refine ⟨fun quiet => ⟨?_, ?_⟩, fun plain => ⟨?_, ?_⟩⟩
  · exact fun n wide offset twice fits => read_halves quiet twice fits
  · exact fun size offset fits => read_eq_readBytes quiet fits
  · exact fun n wide offset v twice fits => write_halves distinct plain twice fits v
  · exact fun size offset v fits => write_eq_writeBytes distinct plain fits v

/-- The middle of the access cuts a register in two that lies over another, has read-only bits
in one of its halves, and a method that shows more than what is stored. -/
theorem access_by_halves_overlapping :
    ∃ (b : Bank Division.Slot) (d : Division.Divider), b.Distinct ∧
      b.ReadsQuietly Division.Divider.interface d ∧ b.WritesPlainly d ∧
      b.read Division.Divider.interface 1 .double d = (0x112233FEFF667788, d) ∧
      b.write Division.Divider.interface 1 .double 0x8877665544332211 d =
        b.write Division.Divider.interface 5 .word 0x88776655
          (b.write Division.Divider.interface 1 .word 0x8877665544332211 d) := by
  let b : Bank Division.Slot := ⟨[⟨"numerator", 1, .numerator⟩, ⟨"control", 4, .control⟩]⟩
  let d : Division.Divider := ⟨fun
    | .control => ⟨0xBEEF, 0xFF00, some "ReadDIVCNT", none⟩
    | .numerator => ⟨0x1122334455667788, 0, none, none⟩
    | _ => .blank, ()⟩
  have distinct : b.Distinct := by
    unfold Bank.Distinct
    decide
  have quiet : b.ReadsQuietly Division.Divider.interface d := by
    intro e he
    simp only [b, List.mem_cons, List.not_mem_nil, or_false] at he
    rcases he with rfl | rfl <;> rfl
  have plain : b.WritesPlainly d := by
    intro e he
    simp only [b, List.mem_cons, List.not_mem_nil, or_false] at he
    rcases he with rfl | rfl <;> rfl
  obtain ⟨reads, writes⟩ := access_by_halves b Division.Divider.interface d distinct
  have read := (reads quiet).1 .word .double 1 rfl (by decide)
  have write := (writes plain).1 .word .double 1 0x8877665544332211 rfl (by decide)
  exact ⟨b, d, distinct, quiet, plain, read.trans (congrArg (·, d) (by decide +kernel)), write⟩

end Mmio
end Handheld
