/-
# A bank is a sparse memory

The registers of a bank, laid out at their offsets, are the bytes of a sparse memory: that is
`image`.  As long as no register runs a method, and no two of them share a slot or a position,
every access to the bank does to the registers what the access to the memory does to the image,
and reads the same.

An access goes to each register it touches with a pair of shifts and a mask.  All of that comes
down to one fact on bits, `getLsbD_moved`: what is shifted down, masked and shifted up again
is a window of the word.  Reads put windows of the registers together, which do not meet
because the registers do not; writes give each register a window of the value.

* `read_eq`, `image_write`: a single access;
* `bank_refines_memory`: any sequence of accesses.
-/
import Handheld.Division.Divider
import Handheld.Mmio.Bank
import Handheld.Proofs.Mmio.SparseMemory

namespace Handheld
namespace Mmio

/-! ## 1. Windows -/

theorem getLsbD_mask {s : Span} (hs : s.bytes ≤ 8) {i : Nat} (hi : i < 64) :
    s.mask.getLsbD i = decide (i < 8 * s.bytes) := by
  rw [Span.mask]
  split
  · rename_i h
    have ones : ((1 <<< (8 * s.bytes) : Nat) : Double) - 1 =
        BitVec.ofNat 64 (2 ^ (8 * s.bytes) - 1) := by
      rw [Nat.one_shiftLeft]
      exact BitVec.ofNat_sub_ofNat_of_le _ 1 (by decide) Nat.one_le_two_pow
    rw [ones, BitVec.getLsbD_ofNat, Nat.testBit_two_pow_sub_one]
    simp [hi]
  · have all : i < 8 * s.bytes := by omega
    have ones : (-1 : Double) = BitVec.allOnes 64 := rfl
    rw [ones, BitVec.getLsbD_allOnes]
    simp [hi, all]

/-- A mask that is moved up to `b`. -/
theorem getLsbD_mask_shiftLeft {s : Span} (hs : s.bytes ≤ 8) (b i : Nat) :
    (s.mask <<< b).getLsbD i = (decide (i < 64) && decide (b ≤ i ∧ i < b + 8 * s.bytes)) := by
  rw [BitVec.getLsbD_shiftLeft]
  by_cases hi : i < 64
  · by_cases hb : i < b
    · have outside : ¬b ≤ i := by omega
      simp [hb, hi, outside]
    · rw [getLsbD_mask hs (by omega)]
      have inside : i - b < 8 * s.bytes ↔ b ≤ i ∧ i < b + 8 * s.bytes := by omega
      simp only [hi, hb, inside, decide_true, decide_false, Bool.not_false, Bool.true_and]
  · simp [hi]

/-- What is moved down from `a`, masked and moved up to `b` is a window of the word. -/
theorem getLsbD_moved (v : Double) {s : Span} (hs : s.bytes ≤ 8) (a b i : Nat) :
    (((v >>> a) &&& s.mask) <<< b).getLsbD i =
      (decide (i < 64) && decide (b ≤ i ∧ i < b + 8 * s.bytes) && v.getLsbD (a + (i - b))) := by
  rw [BitVec.shiftLeft_and_distrib, BitVec.getLsbD_and, getLsbD_mask_shiftLeft hs,
    BitVec.getLsbD_shiftLeft, BitVec.getLsbD_ushiftRight]
  by_cases hb : b ≤ i
  · have above : ¬i < b := by omega
    simp only [above, decide_false, Bool.not_false, Bool.and_true]
    cases decide (i < 64) <;> simp [Bool.and_comm]
  · simp [hb]

/-- The bytes that two ranges have in common, as the span names them. -/
theorem overlap?_eq_some {start size base width : Nat} {s : Span}
    (h : overlap? start size base width = some s) :
    ∃ lo hi, lo < hi ∧ (∀ a, lo ≤ a ∧ a < hi ↔
        (start ≤ a ∧ a < start + size) ∧ base ≤ a ∧ a < base + width) ∧
      start ≤ lo ∧ base ≤ lo ∧ hi ≤ start + size ∧ hi ≤ base + width ∧
      s.accessShift = 8 * (lo - start) ∧ s.registerShift = 8 * (lo - base) ∧
      s.bytes = hi - lo := by
  simp only [overlap?] at h
  split at h
  · cases h
    refine ⟨max start base, min (start + size) (base + width), ?_, ?_, ?_, ?_, ?_, ?_, rfl, rfl,
      rfl⟩
    all_goals omega
  · cases h

theorem not_common_of_overlap? {start size base width : Nat}
    (h : overlap? start size base width = none) (a : Nat) :
    ¬((start ≤ a ∧ a < start + size) ∧ base ≤ a ∧ a < base + width) := by
  simp only [overlap?] at h
  split at h
  · cases h
  · omega

/-! ## 2. The image of a bank -/

variable {ι σ : Type} [Layout ι]

namespace Entry

/-- The register has a byte at the position. -/
def covers (e : Entry ι) (a : Nat) : Bool :=
  decide (e.offset.toNat ≤ a ∧ a < e.offset.toNat + (Layout.width e.slot).bytes)

/-- The register's byte at the position. -/
def cell (e : Entry ι) (d : Device ι σ) (a : Nat) : Cell where
  value := Bits.byte (d.register e.slot).value (a - e.offset.toNat)
  readOnly := Bits.byte (d.register e.slot).readOnly (a - e.offset.toNat)

end Entry

namespace Bank

/-- The registers as the bytes of a memory. -/
def image (b : Bank ι) (d : Device ι σ) : Memory := fun a =>
  (b.entries.find? (·.covers a)).map (·.cell d a)

/-- No two registers share a slot or a position. -/
structure Separate (b : Bank ι) : Prop where
  slots : b.entries.Pairwise fun e e' => e.slot ≠ e'.slot
  ranges : b.entries.Pairwise fun e e' => ∀ a, e.covers a = true → e'.covers a = false

/-- No register runs a method. -/
def CallbackFree (b : Bank ι) (d : Device ι σ) : Prop :=
  ∀ e ∈ b.entries, (d.register e.slot).onRead = none ∧ (d.register e.slot).onWrite = none

end Bank

variable {b : Bank ι}

/-- Where a register has a byte, the image has it too. -/
theorem image_of_covers (hb : b.Separate) (d : Device ι σ) {e : Entry ι} (he : e ∈ b.entries)
    {a : Nat} (ha : e.covers a = true) : b.image d a = some (e.cell d a) := by
  have found : b.entries.find? (fun e => e.covers a) = some e := by
    obtain ⟨before, after, hsplit⟩ := List.append_of_mem he
    have ranges := hb.ranges
    rw [hsplit, List.pairwise_append] at ranges
    refine List.find?_eq_some_iff_append.mpr ⟨ha, before, after, hsplit, ?_⟩
    intro e' he'
    cases ha' : e'.covers a with
    | false => rfl
    | true =>
      have alone := ranges.2.2 e' he' e List.mem_cons_self a ha'
      rw [ha] at alone
      cases alone
  rw [Bank.image, found, Option.map_some]

theorem image_of_not_covers (d : Device ι σ) {a : Nat}
    (ha : ∀ e ∈ b.entries, e.covers a = false) : b.image d a = none := by
  have missing : b.entries.find? (fun e => e.covers a) = none := by
    rw [List.find?_eq_none]
    intro e he
    rw [ha e he]
    decide
  rw [Bank.image, missing, Option.map_none]

theorem bytes_le (w : Width) : w.bytes ≤ 8 := by cases w <;> decide

theorem AccessSize.bytes_le (s : AccessSize) : s.bytes ≤ 8 := by cases s <;> decide

/-! ## 3. Reading -/

/-- The covered part of what is in an entry's register, at its place in the access. -/
def Entry.excerpt (e : Entry ι) (offset : Word) (size : AccessSize)
    (x : BitVec (slotBits e.slot)) : Double :=
  match e.overlap? offset size with
  | none => 0
  | some s => ((x.setWidth 64 >>> s.registerShift) &&& s.mask) <<< s.accessShift

/-- What an entry contributes to a read. -/
def Entry.window (e : Entry ι) (offset : Word) (size : AccessSize) (d : Device ι σ) : Double :=
  match e.overlap? offset size with
  | none => 0
  | some s => (((d.value e.slot).setWidth 64 >>> s.registerShift) &&& s.mask) <<< s.accessShift

/-- Bit by bit, an excerpt has the bytes that the access covers. -/
theorem getLsbD_excerpt (e : Entry ι) (offset : Word) (size : AccessSize)
    (x : BitVec (slotBits e.slot)) (i : Nat) :
    (e.excerpt offset size x).getLsbD i =
      (decide (i < 8 * size.bytes) && (e.covers (offset.toNat + i / 8) &&
        (Bits.byte x (offset.toNat + i / 8 - e.offset.toNat)).getLsbD (i % 8))) := by
  have hw := bytes_le (Layout.width e.slot)
  have hs := size.bytes_le
  have inside : offset.toNat ≤ offset.toNat + i / 8 ∧
      offset.toNat + i / 8 < offset.toNat + size.bytes ↔ i < 8 * size.bytes := by omega
  rw [Entry.excerpt]
  cases h : e.overlap? offset size with
  | none =>
    have nothing := not_common_of_overlap? h (offset.toNat + i / 8)
    rw [inside] at nothing
    by_cases hi : i < 8 * size.bytes
    · have apart := decide_eq_false fun covered => nothing ⟨hi, covered⟩
      simp [Entry.covers, apart]
    · simp [hi]
  | some s =>
    obtain ⟨lo, hi, hlt, common, hlo, hlo', hhi, hhi', haccess, hregister, hbytes⟩ :=
      overlap?_eq_some h
    have here := common (offset.toNat + i / 8)
    rw [inside] at here
    have shifted : s.accessShift ≤ i ∧ i < s.accessShift + 8 * s.bytes ↔
        lo ≤ offset.toNat + i / 8 ∧ offset.toNat + i / 8 < hi := by omega
    have few : s.bytes ≤ 8 := by omega
    dsimp only
    rw [getLsbD_moved _ few, BitVec.getLsbD_setWidth]
    by_cases hin : lo ≤ offset.toNat + i / 8 ∧ offset.toNat + i / 8 < hi
    · obtain ⟨hi8, covered⟩ := here.mp hin
      have position : s.registerShift + (i - s.accessShift) =
          8 * (offset.toNat + i / 8 - e.offset.toNat) + i % 8 := by omega
      have fits : 8 * (offset.toNat + i / 8 - e.offset.toNat) + i % 8 < 64 := by omega
      have fits' : i < 64 := by omega
      have bit : i % 8 < 8 := by omega
      rw [decide_eq_true (shifted.mpr hin), position]
      simp only [Entry.covers, Bits.byte, BitVec.getLsbD_extractLsb']
      simp [hi8, covered, fits, fits', bit]
    · have left := decide_eq_false (mt shifted.mp hin)
      have right : (decide (i < 8 * size.bytes) && e.covers (offset.toNat + i / 8)) = false := by
        rw [Entry.covers, ← Bool.decide_and]
        exact decide_eq_false (mt here.mpr hin)
      rw [← Bool.and_assoc (decide (i < 8 * size.bytes)), right, left]
      simp

/-- Bit by bit, an entry contributes what the cells have that it covers. -/
theorem getLsbD_window (e : Entry ι) (offset : Word) (size : AccessSize) (d : Device ι σ)
    (i : Nat) :
    (e.window offset size d).getLsbD i =
      (decide (i < 8 * size.bytes) && (e.covers (offset.toNat + i / 8) &&
        (e.cell d (offset.toNat + i / 8)).value.getLsbD (i % 8))) :=
  getLsbD_excerpt e offset size (d.value e.slot) i

variable {p : Interface ι σ} {offset : Word} {size : AccessSize}

/-- An entry adds an excerpt of what its register shows, and if that changes nothing, then
nothing else happens. -/
theorem readEntry_eq {e : Entry ι} {d : Device ι σ} (h : (p.read e.slot d).2 = d) (v : Double) :
    readEntry p offset size (v, d) e =
      (v ||| e.excerpt offset size (p.read e.slot d).1, d) := by
  rw [readEntry, Entry.excerpt]
  cases e.overlap? offset size with
  | none => simp
  | some s => simp only [Interface.readPlace, h]

theorem getLsbD_foldl_readEntry (p : Interface ι σ) (offset : Word) (size : AccessSize)
    {d : Device ι σ} (es : List (Entry ι)) (h : ∀ e ∈ es, (p.read e.slot d).2 = d) (v : Double) :
    (es.foldl (readEntry p offset size) (v, d)).2 = d ∧
      ∀ i, (es.foldl (readEntry p offset size) (v, d)).1.getLsbD i =
        (v.getLsbD i ||
          es.any fun e => (e.excerpt offset size (p.read e.slot d).1).getLsbD i) := by
  induction es generalizing v with
  | nil => simp
  | cons e es ih =>
    rw [List.foldl_cons, readEntry_eq (h e List.mem_cons_self)]
    obtain ⟨hd, hv⟩ := ih (fun e' he' => h e' (List.mem_cons_of_mem e he')) _
    refine ⟨hd, fun i => ?_⟩
    rw [hv, BitVec.getLsbD_or, List.any_cons, Bool.or_assoc]

/-- Without a method a register shows what is in it. -/
theorem read_of_onRead {d : Device ι σ} {i : ι} (h : (d.register i).onRead = none) :
    p.read i d = (d.value i, d) := by
  simp only [Interface.read, h, Option.bind_none]
  rfl

/-- At a position that is covered at most once, it is enough to ask the entry that covers it. -/
theorem any_covers_eq {es : List (Entry ι)} {a : Nat} (f : Entry ι → Bool)
    (h : es.Pairwise fun e e' => ∀ a, e.covers a = true → e'.covers a = false) :
    (es.any fun e => e.covers a && f e) = ((es.find? (·.covers a)).map f).getD false := by
  induction es with
  | nil => rfl
  | cons e es ih =>
    obtain ⟨alone, rest⟩ := List.pairwise_cons.mp h
    rw [List.any_cons, ih rest, List.find?_cons]
    cases he : e.covers a with
    | false => simp
    | true =>
      have none : es.find? (·.covers a) = none := by
        rw [List.find?_eq_none]
        intro e' he'
        rw [alone e' he' a he]
        decide
      simp [none]

theorem byteAt_image (d : Device ι σ) (a : Nat) :
    (b.image d).byteAt a = ((b.entries.find? (·.covers a)).map (·.cell d a |>.value)).getD 0 := by
  rw [Memory.byteAt, Bank.image]
  cases b.entries.find? (·.covers a) <;> rfl

/-- **A read of a bank is a read of its image**, and changes nothing. -/
theorem read_eq {d : Device ι σ} (hb : b.Separate) (hd : b.CallbackFree d) :
    b.read p offset size d = (((b.image d).read offset.toNat size.bytes).setWidth 64, d) := by
  have shown : ∀ e ∈ b.entries, p.read e.slot d = (d.value e.slot, d) := fun e he =>
    read_of_onRead (hd e he).1
  obtain ⟨same, bits⟩ := getLsbD_foldl_readEntry p offset size b.entries
    (fun e he => congrArg Prod.snd (shown e he)) 0
  have windows : ∀ i,
      (b.entries.any fun e => (e.excerpt offset size (p.read e.slot d).1).getLsbD i) =
        b.entries.any fun e => (e.window offset size d).getLsbD i := by
    intro i
    rw [Bool.eq_iff_iff, List.any_eq_true, List.any_eq_true]
    refine exists_congr fun e => and_congr_right fun he => ?_
    rw [shown e he]
    rfl
  refine Prod.ext ?_ same
  apply BitVec.eq_of_getLsbD_eq
  intro i hi
  rw [Bank.read, bits, windows, BitVec.getLsbD_setWidth, Memory.getLsbD_read, byteAt_image]
  simp only [getLsbD_window]
  by_cases hsize : i < 8 * size.bytes
  · simp only [hsize, decide_true, Bool.true_and]
    rw [any_covers_eq (fun e => (e.cell d (offset.toNat + i / 8)).value.getLsbD (i % 8)) hb.ranges]
    cases b.entries.find? (·.covers (offset.toNat + i / 8)) with
    | none => simp
    | some e => simp [hi]
  · simp [hsize]

/-! ## 4. Writing -/

/-- What a write makes of an entry's register. -/
def Entry.stored (e : Entry ι) (offset : Word) (size : AccessSize) (v : Double)
    (r : Register (slotBits e.slot)) : Register (slotBits e.slot) :=
  match e.overlap? offset size with
  | none => r
  | some s =>
    r.store ((((v >>> s.accessShift) &&& s.mask) <<< s.registerShift).setWidth _)
      ((s.mask <<< s.registerShift).setWidth _)

theorem readOnly_stored (e : Entry ι) (v : Double) (r : Register (slotBits e.slot)) :
    (e.stored offset size v r).readOnly = r.readOnly := by
  rw [Entry.stored]
  cases e.overlap? offset size <;> rfl

/-- Byte by byte, a write changes what it covers and the mask allows. -/
theorem byte_stored (e : Entry ι) (offset : Word) (size : AccessSize) (v : Double)
    (r : Register (slotBits e.slot)) {a : Nat} (ha : e.covers a = true) :
    Bits.byte (e.stored offset size v r).value (a - e.offset.toNat) =
      if offset.toNat ≤ a ∧ a < offset.toNat + size.bytes then
        (Bits.byte r.value (a - e.offset.toNat) &&& Bits.byte r.readOnly (a - e.offset.toNat)) |||
          (Bits.byte v (a - offset.toNat) &&& ~~~Bits.byte r.readOnly (a - e.offset.toNat))
      else Bits.byte r.value (a - e.offset.toNat) := by
  have hw := bytes_le (Layout.width e.slot)
  rw [Entry.covers, decide_eq_true_eq] at ha
  rw [Entry.stored]
  cases h : e.overlap? offset size with
  | none =>
    have nothing := not_common_of_overlap? h a
    rw [if_neg fun inside => nothing ⟨inside, ha⟩]
  | some s =>
    obtain ⟨lo, hi, hlt, common, hlo, hlo', hhi, hhi', haccess, hregister, hbytes⟩ :=
      overlap?_eq_some h
    have here : lo ≤ a ∧ a < hi ↔ offset.toNat ≤ a ∧ a < offset.toNat + size.bytes := by
      rw [common]
      exact and_iff_left ha
    apply BitVec.eq_of_getLsbD_eq
    intro t ht
    have position : 8 * (a - e.offset.toNat) + t < slotBits e.slot := by
      show _ < 8 * (Layout.width e.slot).bytes
      omega
    have shifted : s.registerShift ≤ 8 * (a - e.offset.toNat) + t ∧
        8 * (a - e.offset.toNat) + t < s.registerShift + 8 * s.bytes ↔
        lo ≤ a ∧ a < hi := by omega
    have fits : 8 * (a - e.offset.toNat) + t < 64 := by omega
    have few : s.bytes ≤ 8 := by omega
    simp only [Register.store, Bits.byte, BitVec.getLsbD_extractLsb', BitVec.getLsbD_or,
      BitVec.getLsbD_and, BitVec.getLsbD_not, BitVec.getLsbD_setWidth, getLsbD_moved _ few,
      getLsbD_mask_shiftLeft few, shifted, position, fits, ht, decide_true, Bool.true_and]
    by_cases hin : lo ≤ a ∧ a < hi
    · have source : s.accessShift + (8 * (a - e.offset.toNat) + t - s.registerShift) =
          8 * (a - offset.toNat) + t := by omega
      rw [if_pos (here.mp hin), source]
      simp [hin, ht]
    · rw [if_neg (mt here.mpr hin), decide_eq_false hin]
      simp [ht]

variable [DecidableEq ι]

theorem register_writeEntry_self {e : Entry ι} {d : Device ι σ}
    (h : (d.register e.slot).onWrite = none) (v : Double) :
    (writeEntry p offset size v d e).register e.slot = e.stored offset size v (d.register e.slot) := by
  rw [writeEntry, Entry.stored]
  cases e.overlap? offset size with
  | none => rfl
  | some s =>
    simp only [Interface.writePlace, Interface.write, Register.store, h, Option.bind_none,
      Device.register_modify_self]

theorem register_writeEntry_of_ne {e : Entry ι} {d : Device ι σ}
    (h : (d.register e.slot).onWrite = none) (v : Double) {i : ι} (hi : i ≠ e.slot) :
    (writeEntry p offset size v d e).register i = d.register i := by
  rw [writeEntry]
  cases e.overlap? offset size with
  | none => rfl
  | some s =>
    simp only [Interface.writePlace, Interface.write, Register.store, h, Option.bind_none]
    exact Device.register_modify_of_ne _ _ hi

theorem register_foldl_writeEntry_of_ne (v : Double) {i : ι} (es : List (Entry ι)) :
    ∀ d : Device ι σ, es.Pairwise (fun e e' => e.slot ≠ e'.slot) →
      (∀ e ∈ es, (d.register e.slot).onWrite = none) → (∀ e ∈ es, i ≠ e.slot) →
      (es.foldl (writeEntry p offset size v) d).register i = d.register i := by
  induction es with
  | nil => exact fun _ _ _ _ => rfl
  | cons e es ih =>
    intro d hs hd hi
    obtain ⟨alone, rest⟩ := List.pairwise_cons.mp hs
    have he := hd e List.mem_cons_self
    rw [List.foldl_cons, ih _ rest, register_writeEntry_of_ne he v (hi e List.mem_cons_self)]
    · intro e' he'
      rw [register_writeEntry_of_ne he v (alone e' he').symm]
      exact hd e' (List.mem_cons_of_mem e he')
    · exact fun e' he' => hi e' (List.mem_cons_of_mem e he')

/-- Each register is written once, whatever the order. -/
theorem register_foldl_writeEntry (v : Double) (es : List (Entry ι)) :
    ∀ d : Device ι σ, es.Pairwise (fun e e' => e.slot ≠ e'.slot) →
      (∀ e ∈ es, (d.register e.slot).onWrite = none) → ∀ e ∈ es,
      (es.foldl (writeEntry p offset size v) d).register e.slot =
        e.stored offset size v (d.register e.slot) := by
  induction es with
  | nil => exact fun _ _ _ _ h => nomatch h
  | cons e es ih =>
    intro d hs hd e' he'
    obtain ⟨alone, rest⟩ := List.pairwise_cons.mp hs
    have he := hd e List.mem_cons_self
    have others : ∀ e' ∈ es, (writeEntry p offset size v d e).register e'.slot =
        d.register e'.slot := fun e' he' =>
      register_writeEntry_of_ne he v (alone e' he').symm
    have free : ∀ e' ∈ es, ((writeEntry p offset size v d e).register e'.slot).onWrite = none := by
      intro e' he'
      rw [others e' he']
      exact hd e' (List.mem_cons_of_mem e he')
    rw [List.foldl_cons]
    rcases List.mem_cons.mp he' with rfl | he'
    · rw [register_foldl_writeEntry_of_ne v es _ rest free alone, register_writeEntry_self he]
    · rw [ih _ rest free e' he', others e' he']

variable {d : Device ι σ}

theorem register_write (hb : b.Separate) (hd : b.CallbackFree d) (v : Double) {e : Entry ι}
    (he : e ∈ b.entries) :
    (b.write p offset size v d).register e.slot = e.stored offset size v (d.register e.slot) :=
  register_foldl_writeEntry v b.entries d hb.slots (fun e he => (hd e he).2) e he

theorem callbackFree_write (hb : b.Separate) (hd : b.CallbackFree d) (v : Double) :
    b.CallbackFree (b.write p offset size v d) := by
  intro e he
  rw [register_write hb hd v he, Entry.stored]
  cases e.overlap? offset size <;> exact hd e he

/-- **A write to a bank is a write to its image.** -/
theorem image_write (hb : b.Separate) (hd : b.CallbackFree d) (v : Double) :
    b.image (b.write p offset size v d) = (b.image d).write offset.toNat size.bytes v := by
  funext a
  rw [Memory.write, Bank.image, Bank.image]
  cases hf : b.entries.find? (·.covers a) with
  | none => rfl
  | some e =>
    have he := List.mem_of_find?_eq_some hf
    have ha : e.covers a = true := List.find?_some (p := fun e : Entry ι => e.covers a) hf
    simp only [Option.map_some, Entry.cell, register_write hb hd v he, readOnly_stored,
      byte_stored e offset size v _ ha]
    split <;> rfl

/-! ## 5. Sequences of accesses -/

/-- What the bus asks for. -/
inductive Access where
  | read (offset : Word) (size : AccessSize)
  | write (offset : Word) (size : AccessSize) (v : Double)
  deriving DecidableEq

/-- Carries the accesses out and gives what was read, in order. -/
def Bank.run (b : Bank ι) (p : Interface ι σ) :
    List Access → Device ι σ → List Double × Device ι σ
  | [], d => ([], d)
  | .read offset size :: rest, d =>
    let (v, d) := b.read p offset size d
    let (vs, d) := b.run p rest d
    (v :: vs, d)
  | .write offset size v :: rest, d => b.run p rest (b.write p offset size v d)

/-- The same accesses to a sparse memory. -/
def Memory.run : List Access → Memory → List Double × Memory
  | [], m => ([], m)
  | .read offset size :: rest, m =>
    let (vs, m') := Memory.run rest m
    ((m.read offset.toNat size.bytes).setWidth 64 :: vs, m')
  | .write offset size v :: rest, m => Memory.run rest (m.write offset.toNat size.bytes v)

/-- Any sequence of accesses, step by step. -/
theorem run_eq (hb : b.Separate) (hd : b.CallbackFree d) (accesses : List Access) :
    (b.run p accesses d).1 = ((b.image d).run accesses).1 ∧
      b.image (b.run p accesses d).2 = ((b.image d).run accesses).2 := by
  induction accesses generalizing d with
  | nil => exact ⟨rfl, rfl⟩
  | cons access rest ih =>
    cases access with
    | read offset size =>
      obtain ⟨hv, hi⟩ := ih hd
      simp only [Bank.run, Memory.run, read_eq hb hd, hv, hi, and_self]
    | write offset size v =>
      rw [Bank.run, Memory.run, ← image_write hb hd]
      exact ih (callbackFree_write hb hd v)

/-- **A bank is a sparse memory.**  Any sequence of accesses reads from the bank what it reads
from the image of the device, and leaves in each register the bytes that it leaves in the
memory; the memory has no others. -/
theorem bank_refines_memory (hb : b.Separate) (hd : b.CallbackFree d) (accesses : List Access) :
    (b.run p accesses d).1 = ((b.image d).run accesses).1 ∧
      (∀ e ∈ b.entries, ∀ a, e.covers a = true →
        ((b.image d).run accesses).2 a = some (e.cell (b.run p accesses d).2 a)) ∧
      ∀ a, (∀ e ∈ b.entries, e.covers a = false) → ((b.image d).run accesses).2 a = none := by
  obtain ⟨hread, himage⟩ := run_eq (p := p) hb hd accesses
  rw [← himage]
  exact ⟨hread, fun e he a ha => image_of_covers hb _ he ha, fun a ha => image_of_not_covers _ ha⟩

/-- A word over the read-only end of one register and the start of the next, read back together
with an empty byte below. -/
theorem bank_refines_memory_straddling :
    ∃ (b : Bank Division.Slot) (d : Division.Divider), b.Separate ∧ b.CallbackFree d ∧
      (b.run Division.Divider.interface
        [.write 3 .word 0xAABBCCDDEE, .read 1 .double] d).1 = [0x4455BBCCDDBEEF00] := by
  let b : Bank Division.Slot := ⟨[⟨"control", 2, .control⟩, ⟨"numerator", 4, .numerator⟩]⟩
  let d : Division.Divider := ⟨fun
    | .control => ⟨0xBEEF, 0xFF00, none, none⟩
    | .numerator => ⟨0x1122334455667788, 0, none, none⟩
    | _ => .blank, ()⟩
  have separate : b.Separate := by
    refine ⟨by decide, ?_⟩
    simp only [b, List.pairwise_cons, List.mem_singleton, forall_eq, List.not_mem_nil, false_imp_iff,
      implies_true, List.Pairwise.nil, and_true, Entry.covers, decide_eq_true_eq]
    intro a ha
    have below : a < 4 := ha.2
    exact decide_eq_false fun h => absurd h.1 (Nat.not_le.mpr below)
  have free : b.CallbackFree d := by
    intro e he
    simp only [b, List.mem_cons, List.not_mem_nil, or_false] at he
    rcases he with rfl | rfl <;> exact ⟨rfl, rfl⟩
  refine ⟨b, d, separate, free, ?_⟩
  exact (bank_refines_memory separate free _).1.trans (by decide)

end Mmio
end Handheld
