/-
# Registers in turn

An access to a bank gives each register that it touches one turn, in the order of the offsets and,
where these are equal, of the declarations.  In its turn a register is read or written as it is
then, and its method runs, if it has one: what the methods of earlier turns have done is there
already.  Registers may overlap, and several of them may be one and the same under different
names.

That no other method runs, and none of them twice, is seen from the methods themselves.
`Interface.recorded` is an interface whose methods keep a record of what they are given, and
otherwise do what they did before.

* `ReadTurns`, `WriteTurns`: what the turns of an access do, one after the other;
* `taken_in_turn`: this is what an access does.
-/
import Handheld.Proofs.Mmio.LastWritten

namespace Handheld
namespace Mmio

variable {ι σ : Type} [Layout ι]

/-! ## 1. The part of a register that an access covers -/

/-- The bits of an access. -/
def AccessSize.ones (s : AccessSize) : Double := (BitVec.allOnes s.bits).setWidth 64

theorem AccessSize.getLsbD_ones (s : AccessSize) (i : Nat) :
    s.ones.getLsbD i = decide (i < 8 * s.bytes) := by
  have few := s.bytes_le
  rw [ones, BitVec.getLsbD_setWidth, BitVec.getLsbD_allOnes, ← Bool.decide_and]
  exact decide_eq_decide.mpr ⟨And.right, fun h => ⟨by omega, h⟩⟩

/-- The word that starts at position `home`, seen from position `view`. -/
def realigned (x : Double) (home view : Nat) : Double :=
  (x >>> (8 * (view - home))) <<< (8 * (home - view))

/-- Positions tell which bit is seen where. -/
theorem getLsbD_realigned (x : Double) (home view : Nat) {i : Nat} (hi : i < 64) :
    (realigned x home view).getLsbD i =
      (decide (home ≤ view + i / 8) && x.getLsbD (8 * (view + i / 8 - home) + i % 8)) := by
  rw [realigned, BitVec.getLsbD_shiftLeft, BitVec.getLsbD_ushiftRight]
  by_cases h : home ≤ view + i / 8
  · have place : 8 * (view - home) + (i - 8 * (home - view)) =
        8 * (view + i / 8 - home) + i % 8 := by omega
    have above : ¬i < 8 * (home - view) := by omega
    simp [h, hi, above, place]
  · have below : i < 8 * (home - view) := by omega
    simp [h, below]

namespace Entry

/-- The access's range and the register's have a byte in common. -/
def meets (e : Entry ι) (offset : Word) (size : AccessSize) : Bool :=
  decide (offset.toNat < e.offset.toNat + (Layout.width e.slot).bytes ∧
    e.offset.toNat < offset.toNat + size.bytes)

/-- What an access sees of a register that shows `x`; what is outside of it is cut off. -/
def part (e : Entry ι) (offset : Word) (size : AccessSize) (x : BitVec (slotBits e.slot)) :
    Double :=
  realigned (x.setWidth 64) e.offset.toNat offset.toNat &&& size.ones

/-- What a register sees of a word on the bus; what is outside of it is cut off. -/
def reach (e : Entry ι) (offset : Word) (x : Double) : BitVec (slotBits e.slot) :=
  (realigned x offset.toNat e.offset.toNat).setWidth _

/-- What a write makes of the value in a register: of the covered bits, those that are not
read-only come from the bus. -/
def merged (e : Entry ι) (offset : Word) (size : AccessSize) (v : Double)
    (r : Register (slotBits e.slot)) : BitVec (slotBits e.slot) :=
  let covered := e.reach offset size.ones
  r.value &&& (r.readOnly ||| ~~~covered) ||| e.reach offset v &&& covered &&& ~~~r.readOnly

variable (e : Entry ι) (offset : Word) (size : AccessSize)

theorem isSome_overlap? : (e.overlap? offset size).isSome = e.meets offset size := by
  have some_byte : 0 < size.bytes := by cases size <;> decide
  have some_byte' : 0 < (Layout.width e.slot).bytes := by cases Layout.width e.slot <;> decide
  unfold Entry.overlap? Mmio.overlap? meets
  dsimp only
  split
  · rename_i common
    exact (decide_eq_true (by omega)).symm
  · rename_i apart
    exact (decide_eq_false (by omega)).symm

/-- Moved by the distance of the offsets and cut, or cut by a span and moved: it is the same. -/
theorem part_eq (x : BitVec (slotBits e.slot)) :
    e.part offset size x = e.excerpt offset size x := by
  have hs := size.bytes_le
  have hw := bytes_le (Layout.width e.slot)
  apply BitVec.eq_of_getLsbD_eq
  intro i hi
  rw [getLsbD_excerpt, part, BitVec.getLsbD_and, AccessSize.getLsbD_ones, Bool.and_comm,
    getLsbD_realigned _ _ _ hi, BitVec.getLsbD_setWidth]
  congr 1
  have bit : i % 8 < 8 := by omega
  by_cases above : e.offset.toNat ≤ offset.toNat + i / 8
  · by_cases below : offset.toNat + i / 8 < e.offset.toNat + (Layout.width e.slot).bytes
    · have fits : 8 * (offset.toNat + i / 8 - e.offset.toNat) + i % 8 < 64 := by omega
      simp [covers, above, below, fits, bit, Bits.byte]
    · have beyond : slotBits e.slot ≤ 8 * (offset.toNat + i / 8 - e.offset.toNat) + i % 8 := by
        show 8 * _ ≤ _
        omega
      simp [covers, below, BitVec.getLsbD_of_ge x _ beyond]
  · simp [covers, above]

theorem byte_merged (v : Double) (r : Register (slotBits e.slot)) {j : Nat}
    (hj : j < (Layout.width e.slot).bytes) :
    Bits.byte (e.merged offset size v r) j =
      if offset.toNat ≤ e.offset.toNat + j ∧ e.offset.toNat + j < offset.toNat + size.bytes then
        (Bits.byte r.value j &&& Bits.byte r.readOnly j) |||
          (Bits.byte v (e.offset.toNat + j - offset.toNat) &&& ~~~Bits.byte r.readOnly j)
      else Bits.byte r.value j := by
  have hs := size.bytes_le
  have hw := bytes_le (Layout.width e.slot)
  apply BitVec.eq_of_getLsbD_eq
  intro t ht
  have inside : 8 * j + t < slotBits e.slot := by
    show _ < 8 * _
    omega
  have fits : 8 * j + t < 64 := by omega
  have byte : (8 * j + t) / 8 = j := by omega
  have bit : (8 * j + t) % 8 = t := by omega
  have place : 8 * (e.offset.toNat + j - offset.toNat) + t < 8 * size.bytes ↔
      e.offset.toNat + j - offset.toNat < size.bytes := by omega
  simp only [merged, reach, Bits.byte, BitVec.getLsbD_extractLsb', BitVec.getLsbD_or,
    BitVec.getLsbD_and, BitVec.getLsbD_not, BitVec.getLsbD_setWidth, getLsbD_realigned _ _ _ fits,
    AccessSize.getLsbD_ones, byte, bit, place, inside, ht, decide_true, Bool.true_and]
  by_cases h : offset.toNat ≤ e.offset.toNat + j
  · by_cases h' : e.offset.toNat + j < offset.toNat + size.bytes
    · have covered : e.offset.toNat + j - offset.toNat < size.bytes := by omega
      simp [h, h', covered, ht]
    · have beyond : ¬e.offset.toNat + j - offset.toNat < size.bytes := by omega
      simp [h', beyond, ht]
  · simp [h, ht]

theorem stored_eq (v : Double) (r : Register (slotBits e.slot)) :
    e.stored offset size v r = { r with value := e.merged offset size v r } := by
  have only_value : e.stored offset size v r =
      { r with value := (e.stored offset size v r).value } := by
    unfold Entry.stored
    cases e.overlap? offset size <;> rfl
  have value : (e.stored offset size v r).value = e.merged offset size v r := by
    apply Bits.eq_of_byte_eq
    intro j hj
    have covered : e.covers (e.offset.toNat + j) = true :=
      decide_eq_true ⟨Nat.le_add_right _ _, Nat.add_lt_add_left hj _⟩
    have stored := byte_stored e offset size v r covered
    rw [Nat.add_sub_cancel_left] at stored
    rw [stored, byte_merged e offset size v r hj]
  rw [only_value, value]

end Entry

/-! ## 2. Methods and the record of their calls -/

/-- A call of a method, with what it is given. -/
inductive Call where
  | read (method : String) (w : Width) (value : BitVec w.bits)
  | write (method : String) (w : Width) (old new : BitVec w.bits)
  deriving DecidableEq

def Call.method : Call → String
  | read method _ _ | write method _ _ _ => method

end Mmio

open Mmio

namespace Device

variable {ι σ : Type} [Layout ι]

/-- The device with a record of calls beside its other data. -/
def withRecord (d : Device ι σ) (calls : List Call) : Device ι (σ × List Call) :=
  ⟨d.register, d.extra, calls⟩

/-- The device without the record. -/
def plain (d : Device ι (σ × List Call)) : Device ι σ := ⟨d.register, d.extra.1⟩

end Device

namespace Callback

variable {ι σ : Type} [Layout ι] {w : Width}

/-- The method records its call and does what it did before. -/
def recordedRead (name : String) (run : BitVec w.bits → Device ι σ → BitVec w.bits × Device ι σ)
    (v : BitVec w.bits) (d : Device ι (σ × List Call)) :
    BitVec w.bits × Device ι (σ × List Call) :=
  let (seen, d') := run v d.plain
  (seen, d'.withRecord (d.extra.2 ++ [.read name w v]))

/-- The method records its call and does what it did before. -/
def recordedWrite (name : String) (run : BitVec w.bits → BitVec w.bits → Device ι σ → Device ι σ)
    (old new : BitVec w.bits) (d : Device ι (σ × List Call)) : Device ι (σ × List Call) :=
  (run old new d.plain).withRecord (d.extra.2 ++ [.write name w old new])

def recorded (name : String) : Callback ι σ → Callback ι (σ × List Call)
  | read w run => .read w (recordedRead name run)
  | write w run => .write w (recordedWrite name run)

theorem reader?_recorded (name : String) (w : Width) (c : Callback ι σ) :
    (c.recorded name).reader? w = (c.reader? w).map (recordedRead name) := by
  cases c with
  | read v run =>
    unfold recorded reader?
    dsimp only
    split
    · rename_i same
      subst same
      rfl
    · rfl
  | write v run => rfl

theorem writer?_recorded (name : String) (w : Width) (c : Callback ι σ) :
    (c.recorded name).writer? w = (c.writer? w).map (recordedWrite name) := by
  cases c with
  | read v run => rfl
  | write v run =>
    unfold recorded writer?
    dsimp only
    split
    · rename_i same
      subst same
      rfl
    · rfl

/-- The method leaves the register in a slot alone. -/
def Spares (i : ι) : Callback ι σ → Prop
  | read _ run => ∀ v d, (run v d).2.register i = d.register i
  | write _ run => ∀ old new d, (run old new d).register i = d.register i

end Callback

namespace Interface

variable {ι σ : Type} [Layout ι]

/-- The interface whose methods record their calls. -/
def recorded (p : Interface ι σ) : Interface ι (σ × List Call) where
  fields := p.fields
  methods := p.methods.map fun m => ⟨m.name, m.callback.recorded m.name⟩

theorem callback?_recorded (p : Interface ι σ) (name : String) :
    p.recorded.callback? name = (p.callback? name).map (·.recorded name) := by
  unfold callback? recorded
  dsimp only
  rw [List.find?_map]
  have same : ((fun m : Method ι (σ × List Call) => decide (m.name = name)) ∘
      fun m : Method ι σ => ⟨m.name, m.callback.recorded m.name⟩) =
      fun m => decide (m.name = name) := rfl
  rw [same]
  cases found : p.methods.find? fun m => decide (m.name = name) with
  | none => rfl
  | some m =>
    have named : m.name = name := of_decide_eq_true
      (List.find?_some (p := fun m : Method ι σ => decide (m.name = name)) found)
    rw [← named]
    rfl

/-- The method that a bus read of the register in a slot runs. -/
def reader? (p : Interface ι σ) (d : Device ι σ) (i : ι) :
    Option (BitVec (slotBits i) → Device ι σ → BitVec (slotBits i) × Device ι σ) :=
  ((d.register i).onRead.bind p.callback?).bind (Callback.reader? (Layout.width i))

/-- The method that a bus write of the register in a slot runs. -/
def writer? (p : Interface ι σ) (d : Device ι σ) (i : ι) :
    Option (BitVec (slotBits i) → BitVec (slotBits i) → Device ι σ → Device ι σ) :=
  ((d.register i).onWrite.bind p.callback?).bind (Callback.writer? (Layout.width i))

theorem read_eq (p : Interface ι σ) (i : ι) (d : Device ι σ) :
    p.read i d =
      match p.reader? d i with
      | some run => run (d.value i) d
      | none => (d.value i, d) := rfl

theorem write_eq [DecidableEq ι] (p : Interface ι σ) (i : ι) (v mask : BitVec (slotBits i))
    (d : Device ι σ) :
    p.write i v mask d =
      match p.writer? d i with
      | some run => run (d.value i) ((d.register i).store v mask).value
          (d.setValue i ((d.register i).store v mask).value)
      | none => d.setValue i ((d.register i).store v mask).value := rfl

/-- A method is run only for a register that names one. -/
theorem exists_onRead {p : Interface ι σ} {d : Device ι σ} {i : ι} {run}
    (found : p.reader? d i = some run) : ∃ name, (d.register i).onRead = some name := by
  obtain ⟨c, named, -⟩ := Option.bind_eq_some_iff.mp found
  obtain ⟨name, named, -⟩ := Option.bind_eq_some_iff.mp named
  exact ⟨name, named⟩

theorem exists_onWrite {p : Interface ι σ} {d : Device ι σ} {i : ι} {run}
    (found : p.writer? d i = some run) : ∃ name, (d.register i).onWrite = some name := by
  obtain ⟨c, named, -⟩ := Option.bind_eq_some_iff.mp found
  obtain ⟨name, named, -⟩ := Option.bind_eq_some_iff.mp named
  exact ⟨name, named⟩

/-- The method of the name leaves the register in a slot alone. -/
def Spares (p : Interface ι σ) (name : String) (i : ι) : Prop :=
  ∀ c, p.callback? name = some c → c.Spares i

theorem Spares.reader? {p : Interface ι σ} {name : String} {i j : ι} {d : Device ι σ} {run}
    (h : p.Spares name j) (named : (d.register i).onRead = some name)
    (found : p.reader? d i = some run) (v : BitVec (slotBits i)) (d' : Device ι σ) :
    (run v d').2.register j = d'.register j := by
  unfold Interface.reader? at found
  rw [named, Option.bind_some, Option.bind_eq_some_iff] at found
  obtain ⟨c, called, runs⟩ := found
  obtain rfl := Callback.eq_read_of_reader? runs
  exact h _ called v d'

theorem Spares.writer? {p : Interface ι σ} {name : String} {i j : ι} {d : Device ι σ} {run}
    (h : p.Spares name j) (named : (d.register i).onWrite = some name)
    (found : p.writer? d i = some run) (old new : BitVec (slotBits i)) (d' : Device ι σ) :
    (run old new d').register j = d'.register j := by
  unfold Interface.writer? at found
  rw [named, Option.bind_some, Option.bind_eq_some_iff] at found
  obtain ⟨c, called, runs⟩ := found
  obtain rfl := Callback.eq_write_of_writer? runs
  exact h _ called old new d'

theorem reader?_recorded (p : Interface ι σ) (d : Device ι σ) (log : List Call) (i : ι) :
    p.recorded.reader? (d.withRecord log) i = (d.register i).onRead.bind fun name =>
      (p.reader? d i).map (Callback.recordedRead name) := by
  show ((d.register i).onRead.bind p.recorded.callback?).bind _ = _
  unfold reader?
  cases (d.register i).onRead with
  | none => rfl
  | some name =>
    simp only [Option.bind_some, callback?_recorded]
    cases p.callback? name with
    | none => rfl
    | some c => exact Callback.reader?_recorded name _ c

theorem writer?_recorded (p : Interface ι σ) (d : Device ι σ) (log : List Call) (i : ι) :
    p.recorded.writer? (d.withRecord log) i = (d.register i).onWrite.bind fun name =>
      (p.writer? d i).map (Callback.recordedWrite name) := by
  show ((d.register i).onWrite.bind p.recorded.callback?).bind _ = _
  unfold writer?
  cases (d.register i).onWrite with
  | none => rfl
  | some name =>
    simp only [Option.bind_some, callback?_recorded]
    cases p.callback? name with
    | none => rfl
    | some c => exact Callback.writer?_recorded name _ c

end Interface

namespace Mmio

/-! ## 3. The order -/

section Order

variable {ι : Type}

/-- Entries are in the order of their offsets and, where these are equal, of a declaration. -/
structure InOrder (es declared : List (Entry ι)) : Prop where
  perm : es.Perm declared
  ascending : es.Pairwise fun e e' => e.offset.toNat ≤ e'.offset.toNat
  ties : ∀ offset, es.filter (·.offset = offset) = declared.filter (·.offset = offset)

theorem InOrder.filter {es declared : List (Entry ι)} (h : InOrder es declared)
    (keep : Entry ι → Bool) : InOrder (es.filter keep) (declared.filter keep) where
  perm := h.perm.filter keep
  ascending := h.ascending.filter keep
  ties offset := by
    have swap : ∀ es : List (Entry ι), (es.filter keep).filter (·.offset = offset) =
        (es.filter (·.offset = offset)).filter keep := fun es => by
      simp only [List.filter_filter, Bool.and_comm]
    rw [swap, swap, h.ties]

theorem inOrder_mergeSort (declared : List (Entry ι)) :
    InOrder (declared.mergeSort fun e e' => e.offset.toNat ≤ e'.offset.toNat) declared := by
  let le (e e' : Entry ι) : Bool := e.offset.toNat ≤ e'.offset.toNat
  have le_trans : ∀ e e' e'' : Entry ι, le e e' → le e' e'' → le e e'' := by
    intro e e' e'' h h'
    exact decide_eq_true (Nat.le_trans (of_decide_eq_true h) (of_decide_eq_true h'))
  have le_total : ∀ e e' : Entry ι, (le e e' || le e' e) = true := by
    intro e e'
    rw [← Bool.decide_or, decide_eq_true_eq]
    exact Nat.le_total _ _
  have perm : (declared.mergeSort le).Perm declared := List.mergeSort_perm declared le
  refine ⟨perm, ?_, fun offset => ?_⟩
  · exact (List.pairwise_mergeSort le_trans le_total declared).imp of_decide_eq_true
  · -- entries that share an offset are sorted as they are, and a stable sort leaves these alone
    have sorted : (declared.filter (·.offset = offset)).Pairwise (le · ·) := by
      refine List.pairwise_of_forall_mem_list fun e he e' he' => ?_
      rw [List.mem_filter, decide_eq_true_eq] at he he'
      exact decide_eq_true (Nat.le_of_eq (by rw [he.2, he'.2]))
    have sublist := List.sublist_mergeSort le_trans le_total sorted List.filter_sublist
    have kept := sublist.filter (·.offset = offset)
    rw [List.filter_filter] at kept
    simp only [Bool.and_self] at kept
    exact (kept.eq_of_length (perm.filter _).length_eq.symm).symm

theorem inOrder_of {σ : Type} [Layout ι] {p : Interface ι σ} {bank : Word} {b : Bank ι}
    (hb : Bank.of p bank = .ok b) :
    ∃ declared, bankEntries p bank = .ok declared ∧ InOrder b.entries declared := by
  rw [Bank.of] at hb
  cases listed : bankEntries p bank with
  | error f =>
    rw [listed] at hb
    cases hb
  | ok declared =>
    rw [listed] at hb
    cases hb
    exact ⟨declared, rfl, inOrder_mergeSort declared⟩

end Order

/-! ## 4. Turns -/

variable {ι σ : Type} [Layout ι]

/-- The turn of an entry in a read: what its register shows, which calls are made, and what
becomes of the device. -/
inductive ReadTurn (p : Interface ι σ) (e : Entry ι) (d : Device ι σ) :
    BitVec (slotBits e.slot) → List Call → Device ι σ → Prop
  | plain (free : p.reader? d e.slot = none) : ReadTurn p e d (d.value e.slot) [] d
  | method {name : String} {run} (named : (d.register e.slot).onRead = some name)
      (found : p.reader? d e.slot = some run) :
      ReadTurn p e d (run (d.value e.slot) d).1
        [.read name (Layout.width e.slot) (d.value e.slot)] (run (d.value e.slot) d).2

/-- The turns of entries one after the other, with all that the access reads. -/
inductive ReadTurns (p : Interface ι σ) (offset : Word) (size : AccessSize) :
    List (Entry ι) → Device ι σ → Double → List Call → Device ι σ → Prop
  | done {d : Device ι σ} : ReadTurns p offset size [] d 0 [] d
  | turn {e : Entry ι} {es : List (Entry ι)} {d d' d'' : Device ι σ}
      {x : BitVec (slotBits e.slot)} {rest : Double} {calls calls' : List Call}
      (first : ReadTurn p e d x calls d') (others : ReadTurns p offset size es d' rest calls' d'') :
      ReadTurns p offset size (e :: es) d (e.part offset size x ||| rest) (calls ++ calls') d''

/-- A register changes in a read only where a method stores into it. -/
theorem ReadTurns.register_eq {p : Interface ι σ} {offset : Word} {size : AccessSize}
    {es : List (Entry ι)} {d d' : Device ι σ} {result : Double} {calls : List Call} {i : ι}
    (turns : ReadTurns p offset size es d result calls d')
    (spares : ∀ c ∈ calls, p.Spares c.method i) : d'.register i = d.register i := by
  induction turns with
  | done => rfl
  | turn first others ih =>
    obtain ⟨here, later⟩ := List.forall_mem_append.mp spares
    rw [ih later]
    cases first with
    | plain free => rfl
    | method named found => exact (here _ List.mem_cons_self).reader? named found _ _

/-- A register that is read makes one turn, and the methods' record of it is the same. -/
theorem exists_readTurn (p : Interface ι σ) (e : Entry ι) (d : Device ι σ) :
    ∃ calls, ReadTurn p e d (p.read e.slot d).1 calls (p.read e.slot d).2 ∧
      ∀ log, p.recorded.read e.slot (d.withRecord log) =
        ((p.read e.slot d).1, (p.read e.slot d).2.withRecord (log ++ calls)) := by
  simp only [Interface.read_eq, Interface.reader?_recorded]
  cases found : p.reader? d e.slot with
  | none =>
    refine ⟨[], .plain found, fun log => ?_⟩
    rw [List.append_nil]
    cases (d.register e.slot).onRead <;> rfl
  | some run =>
    obtain ⟨name, named⟩ := Interface.exists_onRead found
    rw [named]
    exact ⟨_, .method named found, fun log => rfl⟩

theorem readEntry_of_meets (p : Interface ι σ) {e : Entry ι} {offset : Word} {size : AccessSize}
    (meets : e.meets offset size = true) (acc : Double) (d : Device ι σ) :
    readEntry p offset size (acc, d) e =
      (acc ||| e.part offset size (p.read e.slot d).1, (p.read e.slot d).2) := by
  rw [Entry.part_eq, Entry.excerpt, readEntry]
  rw [← Entry.isSome_overlap?] at meets
  cases h : e.overlap? offset size with
  | none => simp [h] at meets
  | some s => rfl

theorem readEntry_of_not_meets (p : Interface ι σ) {e : Entry ι} {offset : Word}
    {size : AccessSize} (apart : e.meets offset size = false) (acc : Double × Device ι σ) :
    readEntry p offset size acc e = acc := by
  rw [← Entry.isSome_overlap?, Option.isSome_eq_false_iff, Option.isNone_iff_eq_none] at apart
  rw [readEntry, apart]

/-- Entries that are gone through for a read make turns, and the record of them is the same. -/
theorem exists_readTurns (p : Interface ι σ) (offset : Word) (size : AccessSize)
    (es : List (Entry ι)) (d : Device ι σ) :
    ∃ result calls d', ReadTurns p offset size (es.filter (·.meets offset size)) d result calls d' ∧
      (∀ acc, es.foldl (readEntry p offset size) (acc, d) = (acc ||| result, d')) ∧
      ∀ acc log, es.foldl (readEntry p.recorded offset size) (acc, d.withRecord log) =
        (acc ||| result, d'.withRecord (log ++ calls)) := by
  induction es generalizing d with
  | nil => exact ⟨0, [], d, .done, by simp, by simp⟩
  | cons e es ih =>
    cases meets : e.meets offset size with
    | false =>
      obtain ⟨result, calls, d', turns, plain, recorded⟩ := ih d
      refine ⟨result, calls, d', ?_, fun acc => ?_, fun acc log => ?_⟩
      · rw [List.filter_cons_of_neg (by simp [meets])]
        exact turns
      · rw [List.foldl_cons, readEntry_of_not_meets p meets, plain]
      · rw [List.foldl_cons, readEntry_of_not_meets p.recorded meets, recorded]
    | true =>
      obtain ⟨calls, first, record⟩ := exists_readTurn p e d
      obtain ⟨rest, calls', d', turns, plain, recorded⟩ := ih (p.read e.slot d).2
      refine ⟨e.part offset size (p.read e.slot d).1 ||| rest, calls ++ calls', d', ?_,
        fun acc => ?_, fun acc log => ?_⟩
      · rw [List.filter_cons, if_pos meets]
        exact .turn first turns
      · rw [List.foldl_cons, readEntry_of_meets p meets, plain, BitVec.or_assoc]
      · rw [List.foldl_cons, readEntry_of_meets p.recorded meets, record, recorded,
          BitVec.or_assoc, List.append_assoc]

variable [DecidableEq ι]

/-- The turn of an entry in a write: which calls are made, and what becomes of the device. -/
inductive WriteTurn (p : Interface ι σ) (offset : Word) (size : AccessSize) (v : Double)
    (e : Entry ι) (d : Device ι σ) : List Call → Device ι σ → Prop
  | plain (free : p.writer? d e.slot = none) :
      WriteTurn p offset size v e d []
        (d.setValue e.slot (e.merged offset size v (d.register e.slot)))
  | method {name : String} {run} (named : (d.register e.slot).onWrite = some name)
      (found : p.writer? d e.slot = some run) :
      WriteTurn p offset size v e d
        [.write name (Layout.width e.slot) (d.value e.slot)
          (e.merged offset size v (d.register e.slot))]
        (run (d.value e.slot) (e.merged offset size v (d.register e.slot))
          (d.setValue e.slot (e.merged offset size v (d.register e.slot))))

/-- The turns of entries one after the other. -/
inductive WriteTurns (p : Interface ι σ) (offset : Word) (size : AccessSize) (v : Double) :
    List (Entry ι) → Device ι σ → List Call → Device ι σ → Prop
  | done {d : Device ι σ} : WriteTurns p offset size v [] d [] d
  | turn {e : Entry ι} {es : List (Entry ι)} {d d' d'' : Device ι σ} {calls calls' : List Call}
      (first : WriteTurn p offset size v e d calls d')
      (others : WriteTurns p offset size v es d' calls' d'') :
      WriteTurns p offset size v (e :: es) d (calls ++ calls') d''

/-- A register that is not written to changes in a write only where a method stores into it. -/
theorem WriteTurns.register_eq {p : Interface ι σ} {offset : Word} {size : AccessSize} {v : Double}
    {es : List (Entry ι)} {d d' : Device ι σ} {calls : List Call} {i : ι}
    (turns : WriteTurns p offset size v es d calls d') (apart : ∀ e ∈ es, e.slot ≠ i)
    (spares : ∀ c ∈ calls, p.Spares c.method i) : d'.register i = d.register i := by
  induction turns with
  | done => rfl
  | turn first others ih =>
    obtain ⟨other, apart⟩ := List.forall_mem_cons.mp apart
    obtain ⟨here, later⟩ := List.forall_mem_append.mp spares
    rw [ih apart later]
    cases first with
    | plain free => exact Device.register_modify_of_ne _ _ other.symm
    | method named found =>
      rw [(here _ List.mem_cons_self).writer? named found]
      exact Device.register_modify_of_ne _ _ other.symm

theorem writeEntry_of_meets (p : Interface ι σ) {e : Entry ι} {offset : Word} {size : AccessSize}
    (meets : e.meets offset size = true) (v : Double) (d : Device ι σ) :
    writeEntry p offset size v d e =
      match p.writer? d e.slot with
      | some run => run (d.value e.slot) (e.merged offset size v (d.register e.slot))
          (d.setValue e.slot (e.merged offset size v (d.register e.slot)))
      | none => d.setValue e.slot (e.merged offset size v (d.register e.slot)) := by
  have stored := congrArg Register.value (e.stored_eq offset size v (d.register e.slot))
  rw [← Entry.isSome_overlap?] at meets
  cases h : e.overlap? offset size with
  | none => simp [h] at meets
  | some s =>
    rw [Entry.stored, h] at stored
    dsimp only at stored
    rw [writeEntry, h]
    dsimp only [Interface.writePlace]
    rw [Interface.write_eq, stored]
    cases p.writer? d e.slot <;> rfl

theorem writeEntry_of_not_meets (p : Interface ι σ) {e : Entry ι} {offset : Word}
    {size : AccessSize} (apart : e.meets offset size = false) (v : Double) (d : Device ι σ) :
    writeEntry p offset size v d e = d := by
  rw [← Entry.isSome_overlap?, Option.isSome_eq_false_iff, Option.isNone_iff_eq_none] at apart
  rw [writeEntry, apart]

/-- A register that is written makes one turn, and the methods' record of it is the same. -/
theorem exists_writeTurn (p : Interface ι σ) (offset : Word) (size : AccessSize) (v : Double)
    {e : Entry ι} (meets : e.meets offset size = true) (d : Device ι σ) :
    ∃ calls, WriteTurn p offset size v e d calls (writeEntry p offset size v d e) ∧
      ∀ log, writeEntry p.recorded offset size v (d.withRecord log) e =
        (writeEntry p offset size v d e).withRecord (log ++ calls) := by
  simp only [writeEntry_of_meets _ meets, Interface.writer?_recorded]
  cases found : p.writer? d e.slot with
  | none =>
    refine ⟨[], .plain found, fun log => ?_⟩
    rw [List.append_nil]
    cases (d.register e.slot).onWrite <;> rfl
  | some run =>
    obtain ⟨name, named⟩ := Interface.exists_onWrite found
    rw [named]
    exact ⟨_, .method named found, fun log => rfl⟩

/-- Entries that are gone through for a write make turns, and the record of them is the same. -/
theorem exists_writeTurns (p : Interface ι σ) (offset : Word) (size : AccessSize) (v : Double)
    (es : List (Entry ι)) (d : Device ι σ) :
    ∃ calls, WriteTurns p offset size v (es.filter (·.meets offset size)) d calls
        (es.foldl (writeEntry p offset size v) d) ∧
      ∀ log, es.foldl (writeEntry p.recorded offset size v) (d.withRecord log) =
        (es.foldl (writeEntry p offset size v) d).withRecord (log ++ calls) := by
  induction es generalizing d with
  | nil => exact ⟨[], .done, by simp⟩
  | cons e es ih =>
    cases meets : e.meets offset size with
    | false =>
      obtain ⟨calls, turns, recorded⟩ := ih d
      refine ⟨calls, ?_, fun log => ?_⟩
      · rw [List.filter_cons_of_neg (by simp [meets]), List.foldl_cons,
          writeEntry_of_not_meets p meets]
        exact turns
      · rw [List.foldl_cons, List.foldl_cons, writeEntry_of_not_meets p meets,
          writeEntry_of_not_meets p.recorded meets, recorded]
    | true =>
      obtain ⟨calls, first, record⟩ := exists_writeTurn p offset size v meets d
      obtain ⟨calls', turns, recorded⟩ := ih (writeEntry p offset size v d e)
      refine ⟨calls ++ calls', ?_, fun log => ?_⟩
      · rw [List.filter_cons, if_pos meets]
        exact .turn first turns
      · rw [List.foldl_cons, List.foldl_cons, record, recorded, List.append_assoc]

/-! ## 5. Accesses -/

/-- **Each register that an access touches is accessed once, in order.**  The entries whose bytes
meet those of the access make one turn each, in the order of their offsets and, where these are
equal, of their declarations.  The recorded interface shows the calls that are made, the turns
that there are no others.  A register that makes no turn in a write, and any register in a read,
changes only where one of the called methods stores into it. -/
theorem taken_in_turn {p : Interface ι σ} {bank : Word} {b : Bank ι}
    (hb : Bank.of p bank = .ok b) (offset : Word) (size : AccessSize) (v : Double)
    (d : Device ι σ) :
    ∃ declared touched, bankEntries p bank = .ok declared ∧
      InOrder touched (declared.filter (·.meets offset size)) ∧
      (∃ result calls d', ReadTurns p offset size touched d result calls d' ∧
        b.read p offset size d = (result, d') ∧
        (∀ log, b.read p.recorded offset size (d.withRecord log) =
          (result, d'.withRecord (log ++ calls))) ∧
        ∀ i, (∀ c ∈ calls, p.Spares c.method i) → d'.register i = d.register i) ∧
      ∃ calls d', WriteTurns p offset size v touched d calls d' ∧
        b.write p offset size v d = d' ∧
        (∀ log, b.write p.recorded offset size v (d.withRecord log) =
          d'.withRecord (log ++ calls)) ∧
        ∀ i, (∀ e ∈ touched, e.slot ≠ i) → (∀ c ∈ calls, p.Spares c.method i) →
          d'.register i = d.register i := by
  obtain ⟨declared, listed, order⟩ := inOrder_of hb
  refine ⟨declared, b.entries.filter (·.meets offset size), listed, order.filter _, ?_, ?_⟩
  · obtain ⟨result, calls, d', turns, plain, recorded⟩ :=
      exists_readTurns p offset size b.entries d
    refine ⟨result, calls, d', turns, ?_, fun log => ?_, fun i => turns.register_eq⟩
    · rw [Bank.read, plain]
      exact congrArg (·, d') BitVec.zero_or
    · rw [Bank.read, recorded]
      exact congrArg (·, _) BitVec.zero_or
  · obtain ⟨calls, turns, recorded⟩ := exists_writeTurns p offset size v b.entries d
    exact ⟨calls, _, turns, rfl, recorded, fun i => turns.register_eq⟩

/-- A register under two names at one offset, and another that lies over it and is declared
first: the first call sees the old value, the second is made although nothing changes, and the
third finds what the first two have stored. -/
theorem taken_in_turn_aliased :
    ∃ (p : Interface Division.Slot Unit) (b : Bank Division.Slot) (d d' : Division.Divider)
      (touched : List (Entry Division.Slot)), Bank.of p 0 = .ok b ∧
      WriteTurns p 0 .word 0x22221111 touched d
        [.write "Copy" .half 0 0x1111, .write "Copy" .half 0x1111 0x1111,
          .write "Keep" .double 0x1111 0x2222] d' ∧
      b.write p 0 .word 0x22221111 d = d' ∧ d'.denominator = 0x1111 := by
  let p : Interface Division.Slot Unit :=
    ⟨[⟨"Over", ⟨"offset=0x2,wcb=Keep"⟩, .register .numerator⟩,
      ⟨"Name", ⟨"offset=0x0,wcb=Copy"⟩, .register .control⟩,
      ⟨"Again", ⟨"offset=0x0,wcb=Copy"⟩, .register .control⟩],
     [⟨"Copy", .write .half fun _ new u => u.setValue .numerator (new.setWidth 64)⟩,
      ⟨"Keep", .write .double fun old _ u => u.setValue .denominator old⟩]⟩
  let b : Bank Division.Slot :=
    ⟨[⟨"Name", 0, .control⟩, ⟨"Again", 0, .control⟩, ⟨"Over", 2, .numerator⟩]⟩
  let d : Division.Divider := ⟨fun
    | .control => ⟨0, 0, none, some "Copy"⟩
    | .numerator => ⟨0, 0, none, some "Keep"⟩
    | _ => .blank, ()⟩
  have bank : Bank.of p 0 = .ok b := by
    have listed : (bankEntries p 0).toOption =
        some [⟨"Over", 2, .numerator⟩, ⟨"Name", 0, .control⟩, ⟨"Again", 0, .control⟩] := by
      decide +kernel
    rw [Bank.of]
    cases h : bankEntries p 0 with
    | error f =>
      rw [h] at listed
      cases listed
    | ok es =>
      rw [h] at listed
      cases listed
      show Except.ok (Bank.mk _) = _
      simp [List.mergeSort, b]
  obtain ⟨_, touched, _, _, _, calls, d', turns, written, recorded, _⟩ :=
    taken_in_turn bank 0 .word 0x22221111 d
  have record : (b.write p.recorded 0 .word 0x22221111 (d.withRecord [])).extra.2 =
      [.write "Copy" .half 0 0x1111, .write "Copy" .half 0x1111 0x1111,
        .write "Keep" .double 0x1111 0x2222] := by decide +kernel
  rw [recorded, List.nil_append] at record
  subst record
  exact ⟨p, b, d, d', touched, bank, turns, written, by rw [← written]; decide +kernel⟩

end Mmio
end Handheld
