/-
# Images as arrays of bytes

There are many ways to an image: three widths over the bus, two for a peripheral that looks at
it, the copying of bytes into it, and all but the last through a shared handle too.  They come
to the same two things.  An access reads bytes from ascending addresses, or stores bytes at
ascending addresses; and the cell of an address is what is left of it modulo the size.  So what
a cell holds is the byte that was stored in it last, whatever it was stored with and however
often that wraps around.

* `cell_load`: storing bytes one after the other;
* `Call.on_eq`: every call is a read or a store of bytes;
* `read_load`: bytes that do not meet in a cell are read back;
* `image_last_stored`: any sequence of calls.
-/
import Handheld.Memory.Ram
import Mathlib.Data.List.Induction
import Mathlib.Data.Nat.Digits.Defs
import Mathlib.Data.Nat.ModEq

namespace Handheld

/-! ## 1. Calls -/

/-- One access to a memory: over the bus, or a look at it. -/
inductive MemoryAccess where
  | read8 (a : Word)
  | read16 (a : Word)
  | read32 (a : Word)
  | write8 (a : Word) (v : Byte)
  | write16 (a : Word) (v : Half)
  | write32 (a : Word) (v : Word)
  | peek8 (a : Word)
  | peek16 (a : Word)
  deriving DecidableEq

namespace MemoryAccess

/-- Carries an access out.  What is read comes back as a number. -/
def on {β : Type} [Bus β] [Peek β] (m : β) : MemoryAccess → Option Nat × β
  | read8 a => let (v, m) := Bus.read8 m a; (some v.toNat, m)
  | read16 a => let (v, m) := Bus.read16 m a; (some v.toNat, m)
  | read32 a => let (v, m) := Bus.read32 m a; (some v.toNat, m)
  | write8 a v => (none, Bus.write8 m a v)
  | write16 a v => (none, Bus.write16 m a v)
  | write32 a v => (none, Bus.write32 m a v)
  | peek8 a => (some (Peek.peek8 m a).toNat, m)
  | peek16 a => (some (Peek.peek16 m a).toNat, m)

/-- Carries accesses out and gives what came back, in order. -/
def run {β : Type} [Bus β] [Peek β] : List MemoryAccess → β → List (Option Nat) × β
  | [], m => ([], m)
  | x :: rest, m =>
    let (reply, m) := x.on m
    let (replies, m) := run rest m
    (reply :: replies, m)

/-- A shared handle passes every access on. -/
theorem on_shared {β : Type} [Bus β] [Peek β] (m : β) (x : MemoryAccess) :
    x.on (Shared.mk m) = ((x.on m).1, Shared.mk (x.on m).2) := by
  cases x <;> rfl

theorem run_shared {β : Type} [Bus β] [Peek β] (accesses : List MemoryAccess) (m : β) :
    run accesses (Shared.mk m) = ((run accesses m).1, Shared.mk (run accesses m).2) := by
  induction accesses generalizing m with
  | nil => rfl
  | cons x rest ih =>
    simp only [run, on_shared, ih]

end MemoryAccess

namespace Ram

/-- What an image is asked for: an access, or to take a copy of some bytes. -/
inductive Call where
  | access (x : MemoryAccess)
  | load (a : Word) (bytes : List Byte)
  deriving DecidableEq

def Call.on (r : Ram) : Call → Option Nat × Ram
  | access x => x.on r
  | load a bytes => (none, r.load a bytes)

/-- The same for calls to an image. -/
def run : List Call → Ram → List (Option Nat) × Ram
  | [], r => ([], r)
  | c :: rest, r =>
    let (reply, r) := c.on r
    let (replies, r) := run rest r
    (reply :: replies, r)

theorem run_access (accesses : List MemoryAccess) (r : Ram) :
    run (accesses.map .access) r = MemoryAccess.run accesses r := by
  induction accesses generalizing r with
  | nil => rfl
  | cons x rest ih =>
    simp only [List.map_cons, run, MemoryAccess.run, Call.on, ih]

/-! ## 2. What the calls are about -/

/-- The address that is `i` bytes after `a`; addresses start again at the top. -/
def ahead (a : Word) (i : Nat) : Nat := (a.toNat + i) % 2 ^ 32

/-- Bytes on their way to ascending addresses. -/
def ascending (a : Word) (bytes : List Byte) : List (Nat × Byte) :=
  bytes.mapIdx fun i b => (ahead a i, b)

/-- The byte that comes last among those on their way to cell `j` of `n`. -/
def lastStored (n j : Nat) : List (Nat × Byte) → Option Byte
  | [] => none
  | (a, b) :: later => (lastStored n j later).or (if a % n = j then some b else none)

/-- The number that `count` bytes from `a` on stand for, the lowest one first. -/
def number (n : Nat) (cells : Nat → Byte) (a : Word) (count : Nat) : Nat :=
  Nat.ofDigits 256 ((List.range count).map fun i => (cells (ahead a i % n)).toNat)

namespace Call

/-- Where a call reads, and how many bytes. -/
def reads? : Call → Option (Word × Nat)
  | access (.read8 a) | access (.peek8 a) => some (a, 1)
  | access (.read16 a) | access (.peek16 a) => some (a, 2)
  | access (.read32 a) => some (a, 4)
  | access (.write8 _ _) | access (.write16 _ _) | access (.write32 _ _) | load _ _ => none

/-- The bytes that a call stores, and where the first one goes. -/
def bytes : Call → Word × List Byte
  | access (.write8 a v) => (a, [v])
  | access (.write16 a v) => (a, (List.range 2).map (Bits.byte v))
  | access (.write32 a v) => (a, (List.range 4).map (Bits.byte v))
  | load a bytes => (a, bytes)
  | access (.read8 a) | access (.read16 a) | access (.read32 a) | access (.peek8 a)
  | access (.peek16 a) => (a, [])

/-- The same in the order in which they are stored, each with its address. -/
def stores (c : Call) : List (Nat × Byte) := ascending c.bytes.1 c.bytes.2

/-- What comes back for a call, where the `n` cells hold `cells`. -/
def reply (n : Nat) (cells : Nat → Byte) (c : Call) : Option Nat :=
  c.reads?.map fun (a, count) => number n cells a count

end Call

/-- The byte in cell number `j`. -/
def cell (r : Ram) (j : Nat) : Byte := r.bytes.getD j 0

/-- What cell number `j` holds after the calls: what they stored there last, or what was there. -/
def held (r : Ram) (calls : List Call) (j : Nat) : Byte :=
  (lastStored r.size j (calls.flatMap Call.stores)).getD (r.cell j)

/-! ## 3. Addresses and cells -/

theorem ahead_zero (a : Word) : ahead a 0 = a.toNat := Nat.mod_eq_of_lt a.isLt

theorem ahead_add (a : Word) (k i : Nat) : ahead (a + BitVec.ofNat 32 k) i = ahead a (k + i) := by
  unfold ahead
  rw [BitVec.toNat_add, BitVec.toNat_ofNat, Nat.add_mod_mod, Nat.mod_add_mod, Nat.add_assoc]

theorem ascending_cons (a : Word) (b : Byte) (bytes : List Byte) :
    ascending a (b :: bytes) = (a.toNat, b) :: ascending (a + 1) bytes := by
  have next : ∀ i, ahead (a + 1) i = ahead a (i + 1) := fun i =>
    (ahead_add a 1 i).trans (congrArg _ (Nat.add_comm 1 i))
  unfold ascending
  rw [List.mapIdx_cons, ahead_zero]
  simp only [next]

theorem ascending_append (a : Word) (front back : List Byte) :
    ascending a (front ++ back) =
      ascending a front ++ ascending (a + BitVec.ofNat 32 front.length) back := by
  unfold ascending
  rw [List.mapIdx_append]
  simp only [ahead_add, Nat.add_comm]

theorem lastStored_append (n j : Nat) (xs ys : List (Nat × Byte)) :
    lastStored n j (xs ++ ys) = (lastStored n j ys).or (lastStored n j xs) := by
  induction xs with
  | nil => exact Option.or_none.symm
  | cons x xs ih => rw [List.cons_append, lastStored, ih, lastStored, Option.or_assoc]

theorem lastStored_eq_none {n j : Nat} {stores : List (Nat × Byte)}
    (h : ∀ s ∈ stores, s.1 % n ≠ j) : lastStored n j stores = none := by
  induction stores with
  | nil => rfl
  | cons s stores ih =>
    obtain ⟨here, later⟩ := List.forall_mem_cons.mp h
    rw [lastStored, ih later, if_neg here]
    rfl

theorem size_pos {r : Ram} (hr : isPowerOfTwo r.size = true) : 0 < r.size := by
  rw [eq_of_beq hr, Nat.one_shiftLeft]
  exact Nat.two_pow_pos _

/-- The cell of an address. -/
theorem index_eq_mod {r : Ram} (hr : isPowerOfTwo r.size = true) (a : Word) :
    r.index a = a.toNat % r.size := by
  have power : r.size = 2 ^ r.size.log2 := (eq_of_beq hr).trans (Nat.one_shiftLeft _)
  unfold index
  rw [power]
  exact Nat.and_two_pow_sub_one_eq_mod _ _

theorem read_eq_cell {r : Ram} (hr : isPowerOfTwo r.size = true) (a : Word) :
    r.read a = r.cell (ahead a 0 % r.size) := by
  unfold read cell
  rw [index_eq_mod hr, ahead_zero]

/-! ## 4. Storing bytes -/

theorem cell_write {r : Ram} (hr : isPowerOfTwo r.size = true) (a : Word) (b : Byte) (j : Nat) :
    (r.write a b).cell j = if a.toNat % r.size = j then b else r.cell j := by
  have inside := index_lt r a (size_pos hr)
  unfold size at inside
  unfold cell write
  rw [Array.getD_eq_getD_getElem?, Array.getElem?_setIfInBounds, if_pos inside,
    ← index_eq_mod hr, Array.getD_eq_getD_getElem?]
  split <;> rfl

@[simp] theorem size_load (r : Ram) (a : Word) (bytes : List Byte) :
    (r.load a bytes).size = r.size := by
  induction bytes generalizing r a with
  | nil => rfl
  | cons b bytes ih => rw [load, ih, size_write]

theorem waitStates_load (r : Ram) (a : Word) (bytes : List Byte) :
    (r.load a bytes).waitStates = r.waitStates := by
  induction bytes generalizing r a with
  | nil => rfl
  | cons b bytes ih =>
    rw [load, ih]
    rfl

/-- **Of the bytes that are stored the last one stays**, by induction on them. -/
theorem cell_load {r : Ram} (hr : isPowerOfTwo r.size = true) (a : Word) (bytes : List Byte)
    (j : Nat) :
    (r.load a bytes).cell j = (lastStored r.size j (ascending a bytes)).getD (r.cell j) := by
  induction bytes generalizing r a with
  | nil => rfl
  | cons b bytes ih =>
    have later := ih (r := r.write a b) ((size_write r a b).symm ▸ hr) (a + 1)
    rw [size_write, cell_write hr] at later
    rw [load, later, ascending_cons, lastStored]
    cases lastStored r.size j (ascending (a + 1) bytes) with
    | some last => rfl
    | none =>
      rw [Option.none_or]
      split <;> rfl

theorem getElem?_bytes {r : Ram} {j : Nat} (inside : j < r.size) :
    r.bytes[j]? = some (r.cell j) := by
  have there : r.bytes[j]? = some r.bytes[j] := Array.getElem?_eq_getElem inside
  rw [cell, Array.getD_eq_getD_getElem?, there, Option.getD_some]

/-- A cell that no byte is on its way to stays as it is. -/
theorem getElem?_bytes_load {r : Ram} (hr : isPowerOfTwo r.size = true) {a : Word}
    {bytes : List Byte} {j : Nat} (apart : ∀ i < bytes.length, ahead a i % r.size ≠ j) :
    (r.load a bytes).bytes[j]? = r.bytes[j]? := by
  have missed : lastStored r.size j (ascending a bytes) = none := by
    refine lastStored_eq_none fun s hs => ?_
    obtain ⟨i, hi, rfl⟩ := List.mem_mapIdx.mp hs
    exact apart i hi
  have size := size_load r a bytes
  rcases Nat.lt_or_ge j r.size with inside | outside
  · rw [getElem?_bytes (size.symm ▸ inside), getElem?_bytes inside, cell_load hr, missed,
      Option.getD_none]
  · rw [Array.getElem?_eq_none outside, Array.getElem?_eq_none (size.trans_le outside)]

/-- Storing the byte that is there changes nothing. -/
theorem write_read (r : Ram) (a : Word) : r.write a (r.read a) = r := by
  obtain ⟨bytes, waitStates⟩ := r
  unfold write read
  dsimp only
  congr 1
  apply Array.ext_getElem?
  intro i
  rw [Array.getElem?_setIfInBounds, Array.getD_eq_getD_getElem?]
  split
  · rename_i here
    subst here
    split
    · rename_i inside
      rw [Array.getElem?_eq_getElem inside, Option.getD_some]
    · rename_i outside
      exact (Array.getElem?_eq_none (Nat.not_lt.mp outside)).symm
  · rfl

/-! ## 5. Calls as reads and stores -/

/-- Little-endian: the part behind counts for as much as the part in front leaves room for. -/
theorem toNat_append {m n : Nat} (high : BitVec m) (low : BitVec n) :
    (high ++ low).toNat = low.toNat + 2 ^ n * high.toNat := by
  rw [BitVec.toNat_append, ← Nat.shiftLeft_add_eq_or_of_lt low.isLt, Nat.shiftLeft_eq,
    Nat.add_comm, Nat.mul_comm]

theorem number_add (n : Nat) (cells : Nat → Byte) (a : Word) (k m : Nat) :
    number n cells a (k + m) =
      number n cells a k + 256 ^ k * number n cells (a + BitVec.ofNat 32 k) m := by
  unfold number
  rw [List.range_add, List.map_append, Nat.ofDigits_append, List.length_map, List.length_range,
    List.map_map]
  simp only [Function.comp_def, ahead_add]

/-- Storing goes on where it stopped. -/
theorem load_append (r : Ram) (a : Word) (front back : List Byte) :
    r.load a (front ++ back) =
      (r.load a front).load (a + BitVec.ofNat 32 front.length) back := by
  induction front generalizing r a with
  | nil => rw [List.nil_append, List.length_nil, BitVec.add_zero, load]
  | cons b front ih =>
    have next : a + BitVec.ofNat 32 (front.length + 1) =
        a + 1 + BitVec.ofNat 32 front.length := by
      rw [BitVec.add_assoc, BitVec.ofNat_add, BitVec.add_comm (1 : Word)]
      rfl
    rw [List.cons_append, load, ih, load, List.length_cons, next]

/-- Storing bytes where they were read changes nothing, by induction on how many they are. -/
theorem load_read (r : Ram) (a : Word) (n : Nat) :
    r.load a ((List.range n).map fun i => r.read (a + BitVec.ofNat 32 i)) = r := by
  induction n with
  | zero => rfl
  | succ n ih =>
    rw [List.range_succ, List.map_append, load_append, ih, List.length_map, List.length_range]
    exact write_read r _

/-- A byte of a part of a word. -/
theorem byte_extractLsb' (v : Word) (k : Nat) {n len : Nat} (inside : 8 * n + 8 ≤ len) :
    Bits.byte (v.extractLsb' (8 * k) len) n = Bits.byte v (k + n) := by
  apply BitVec.eq_of_getLsbD_eq
  intro i hi
  have place : 8 * k + (8 * n + i) = 8 * (k + n) + i := by omega
  have below : 8 * n + i < len := by omega
  simp only [Bits.byte, BitVec.getLsbD_extractLsb', hi, below, place, decide_true, Bool.true_and]

theorem write32_eq_load (r : Ram) (a v : Word) :
    Bus.write32 r a v = r.load a ((List.range 4).map (Bits.byte v)) := by
  have halves : (List.range 4).map (Bits.byte v) =
      (List.range 2).map (Bits.byte (v.extractLsb' 0 16)) ++
        (List.range 2).map (Bits.byte (v.extractLsb' 16 16)) := by
    have part : ∀ k n, n < 2 → Bits.byte (v.extractLsb' (8 * k) 16) n = Bits.byte v (k + n) :=
      fun k n hn => byte_extractLsb' v k (by omega)
    show _ = [_, _, _, _]
    rw [part 0 0 (by decide), part 0 1 (by decide), part 2 0 (by decide), part 2 1 (by decide)]
    rfl
  rw [halves, load_append]
  rfl

section Numbers

variable {r : Ram} (hr : isPowerOfTwo r.size = true) (a : Word)
include hr

theorem toNat_read : (r.read a).toNat = number r.size r.cell a 1 := by
  rw [read_eq_cell hr, number, List.range_one, List.map_singleton, Nat.ofDigits_singleton]

theorem toNat_read16 : (r.read (a + 1) ++ r.read a).toNat = number r.size r.cell a 2 := by
  rw [toNat_append, toNat_read hr, toNat_read hr]
  exact (number_add r.size r.cell a 1 1).symm

theorem toNat_read32 :
    ((r.read (a + 2 + 1) ++ r.read (a + 2)) ++ (r.read (a + 1) ++ r.read a)).toNat =
      number r.size r.cell a 4 := by
  rw [toNat_append, toNat_read16 hr, toNat_read16 hr]
  exact (number_add r.size r.cell a 2 2).symm

/-- **Every call reads bytes or stores bytes.** -/
theorem Call.on_eq (c : Call) :
    c.on r = (c.reply r.size r.cell, r.load c.bytes.1 c.bytes.2) := by
  cases c with
  | load a bytes => rfl
  | access x =>
    cases x with
    | read8 a | peek8 a => exact congrArg (some · , r) (toNat_read hr a)
    | read16 a | peek16 a => exact congrArg (some · , r) (toNat_read16 hr a)
    | read32 a => exact congrArg (some · , r) (toNat_read32 hr a)
    | write8 a v | write16 a v => rfl
    | write32 a v => exact congrArg (none, ·) (write32_eq_load r a v)

end Numbers

/-! ## 6. Bytes in cells of their own -/

/-- Fewer than `m` addresses in a row differ in their cells, where `m` divides the size. -/
theorem ahead_mod_inj {n m : Nat} (size : m ∣ n) (space : m ∣ 2 ^ 32) (a : Word) {i k : Nat}
    (hi : i < m) (hk : k < m) (h : ahead a i % n = ahead a k % n) : i = k := by
  have low : ∀ j, ahead a j % n % m = (a.toNat + j) % m := fun j => by
    rw [Nat.mod_mod_of_dvd _ size, ahead, Nat.mod_mod_of_dvd _ space]
  have same : (a.toNat + i) % m = (a.toNat + k) % m := by rw [← low, ← low, h]
  have rest : Nat.ModEq m i k := Nat.ModEq.add_left_cancel' a.toNat same
  exact rest.eq_of_lt_of_lt hi hk

/-- By induction on the bytes from the last one backwards, since a later one is in no cell of an
earlier one. -/
theorem lastStored_ascending {n m : Nat} (size : m ∣ n) (space : m ∣ 2 ^ 32) (a : Word)
    (bytes : List Byte) (room : bytes.length ≤ m) {i : Nat} (hi : i < m) :
    lastStored n (ahead a i % n) (ascending a bytes) = bytes[i]? := by
  induction bytes using List.reverseRecOn with
  | nil => rfl
  | append_singleton bytes b ih =>
    rw [List.length_append, List.length_singleton] at room
    have last : ascending a (bytes ++ [b]) =
        ascending a bytes ++ [(ahead a bytes.length, b)] := List.mapIdx_concat
    rw [last, lastStored_append, ih (by omega)]
    by_cases here : bytes.length = i
    · rw [here, List.getElem?_append_right (by omega), here, Nat.sub_self]
      unfold lastStored
      rw [if_pos rfl]
      rfl
    · have apart : ¬ ahead a bytes.length % n = ahead a i % n := fun meet =>
        here (ahead_mod_inj size space a (by omega) hi meet)
      unfold lastStored
      rw [if_neg apart]
      rcases Nat.lt_or_ge i bytes.length with before | after
      · rw [List.getElem?_append_left before]
        rfl
      · rw [List.getElem?_eq_none after, List.getElem?_eq_none (by
          rw [List.length_append, List.length_singleton]; omega)]
        rfl

/-- What was stored is read back while every byte has a cell of its own. -/
theorem read_load {r : Ram} (hr : isPowerOfTwo r.size = true) {m : Nat} (size : m ∣ r.size)
    (space : m ∣ 2 ^ 32) (a : Word) {bytes : List Byte} (room : bytes.length ≤ m) {i : Nat}
    {b : Byte} (h : bytes[i]? = some b) : (r.load a bytes).read (a + BitVec.ofNat 32 i) = b := by
  obtain ⟨hi, -⟩ := List.getElem?_eq_some_iff.mp h
  have power : isPowerOfTwo (r.load a bytes).size = true := (size_load r a bytes).symm ▸ hr
  have stored := lastStored_ascending size space a bytes room (Nat.lt_of_lt_of_le hi room)
  rw [read_eq_cell power, ahead_add, size_load, cell_load hr, Nat.add_zero, stored, h,
    Option.getD_some]

/-! ## 7. Sequences of calls -/

theorem held_cons {r : Ram} (hr : isPowerOfTwo r.size = true) (c : Call) (calls : List Call)
    (j : Nat) : (r.load c.bytes.1 c.bytes.2).held calls j = r.held (c :: calls) j := by
  unfold held
  rw [size_load, cell_load hr, List.flatMap_cons, lastStored_append]
  cases lastStored r.size j (calls.flatMap Call.stores) <;> rfl

/-- By induction on the calls, each one finds what the calls before it have stored. -/
theorem run_eq {r : Ram} (hr : isPowerOfTwo r.size = true) (calls : List Call) :
    (∀ k, (run calls r).1[k]? =
        calls[k]?.map fun c : Call => c.reply r.size (r.held (calls.take k))) ∧
      (run calls r).2.size = r.size ∧ (run calls r).2.waitStates = r.waitStates ∧
      ∀ j, (run calls r).2.cell j = r.held calls j := by
  induction calls generalizing r with
  | nil => exact ⟨fun _ => rfl, rfl, rfl, fun _ => rfl⟩
  | cons c calls ih =>
    have kept := size_load r c.bytes.1 c.bytes.2
    obtain ⟨replies, size, wait, cells⟩ := ih (kept.symm ▸ hr)
    simp only [run, Call.on_eq hr]
    refine ⟨?_, size.trans kept, wait.trans (waitStates_load _ _ _), ?_⟩
    · intro k
      cases k with
      | zero => rfl
      | succ k =>
        have earlier : (r.load c.bytes.1 c.bytes.2).held (calls.take k) =
            r.held (c :: calls.take k) := funext (held_cons hr c (calls.take k))
        rw [List.getElem?_cons_succ, replies, kept, earlier]
        rfl
    · intro j
      rw [cells, held_cons hr]

/-- **An image is one array of bytes behind every way to it.**  Its size is a power of two and
stays, and every address has the cell that is left of it modulo the size, so that no access can
miss.  After any calls a cell holds the byte that was stored in it last, or what it held at first;
a call is replied to with the little-endian number that the cells of ascending addresses, which
start again at the top, hold at its turn.  Accesses through a shared handle get the same replies
and leave the same image, and the wait states stay. -/
theorem image_last_stored {r : Ram} (hr : isPowerOfTwo r.size = true) (calls : List Call) :
    (∀ k, (run calls r).1[k]? =
        calls[k]?.map fun c : Call => c.reply r.size (r.held (calls.take k))) ∧
    (run calls r).2.size = r.size ∧
    (∀ j < r.size, (run calls r).2.bytes[j]? = some (r.held calls j)) ∧
    (∀ a, (run calls r).2.index a = a.toNat % r.size ∧
      (run calls r).2.index a < (run calls r).2.bytes.size) ∧
    (run calls r).2.waitStates = r.waitStates ∧
    ∀ accesses, calls = accesses.map .access →
      MemoryAccess.run accesses (Shared.mk r) = ((run calls r).1, Shared.mk (run calls r).2) ∧
        Bus.waitStates (MemoryAccess.run accesses (Shared.mk r)).2 = r.waitStates := by
  obtain ⟨replies, size, wait, cells⟩ := run_eq hr calls
  have still : isPowerOfTwo (run calls r).2.size = true := size.symm ▸ hr
  refine ⟨replies, size, ?_, ?_, wait, ?_⟩
  · intro j hj
    have inside : j < (run calls r).2.bytes.size := Nat.lt_of_lt_of_eq hj size.symm
    rw [← cells, cell, Array.getElem?_eq_getElem inside, Array.getD_eq_getD_getElem?,
      Array.getElem?_eq_getElem inside, Option.getD_some]
  · intro a
    exact ⟨size ▸ index_eq_mod still a, index_lt _ a (size_pos still)⟩
  · rintro accesses rfl
    rw [MemoryAccess.run_shared, run_access] at *
    exact ⟨rfl, wait⟩

/-- Six bytes are copied into an image of four from its last cell on, and two more are written
over the top of the address space.  A word that is read across both ends has four of them. -/
theorem image_last_stored_wrapping :
    ∃ r : Ram, isPowerOfTwo r.size = true ∧
      (run [.load 3 [1, 2, 3, 4, 5, 6], .access (.write16 0xFFFFFFFF 0x2211),
        .access (.read32 0xFFFFFFFE)] r).1[2]? = some (some 0x03221104) ∧
      ∃ left : Ram, left.bytes[0]? = some 0x22 ∧
        MemoryAccess.run [.write16 0xFFFFFFFF 0x2211, .peek16 3] (Shared.mk r) =
          ([none, some 0x2211], Shared.mk left) := by
  let r : Ram := ⟨#[0, 0, 0, 0], 0⟩
  have power : isPowerOfTwo r.size = true := by decide
  let calls : List Call := [.load 3 [1, 2, 3, 4, 5, 6], .access (.write16 0xFFFFFFFF 0x2211),
    .access (.read32 0xFFFFFFFE)]
  obtain ⟨replies, -, -, -, -, -⟩ := image_last_stored power calls
  let accesses : List MemoryAccess := [.write16 0xFFFFFFFF 0x2211, .peek16 3]
  obtain ⟨-, -, cells, -, -, shared⟩ := image_last_stored power (accesses.map .access)
  obtain ⟨same, -⟩ := shared accesses rfl
  have told : (run (accesses.map .access) r).1 = [none, some 0x2211] := by decide
  rw [told] at same
  exact ⟨r, power, (replies 2).trans (by decide), _, (cells 0 (by decide)).trans (by decide), same⟩

end Ram
end Handheld
