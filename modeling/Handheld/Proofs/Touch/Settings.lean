/-
# The calibration in an image

Twelve bytes of the user settings hold the calibration, its halves with the lower byte first.
Writing it stores these bytes one after the other.  An image of sixteen bytes or more has a cell
for each of them, so that none is written over by a later one, and reading finds them all.

* `read_write`: a calibration is read back;
* `write_read`: what was read is written without a change;
* `settings_keep_calibration`: which cells of an image hold a calibration, and that all is kept.
-/
import Handheld.Proofs.Memory.Image
import Handheld.Touch.Calibration

namespace Handheld

/-! ## 1. The bytes of a calibration -/

/-- A half is its two bytes. -/
theorem byte_append_byte (v : Half) : Bits.byte v 1 ++ Bits.byte v 0 = v := by
  apply BitVec.eq_of_getLsbD_eq
  intro i hi
  rw [BitVec.getLsbD_append]
  unfold Bits.byte
  rw [BitVec.getLsbD_extractLsb', BitVec.getLsbD_extractLsb']
  by_cases low : i < 8
  · simp [low]
  · have place : 8 * 1 + (i - 8) = i := by omega
    have inside : i - 8 < 8 := by omega
    simp [low, place, inside]

namespace Calibration

/-- The twelve bytes in the order of their addresses. -/
def bytes (c : Calibration) : List Byte :=
  [Bits.byte c.adcX1 0, Bits.byte c.adcX1 1, Bits.byte c.adcY1 0, Bits.byte c.adcY1 1,
   c.screenX1, c.screenY1,
   Bits.byte c.adcX2 0, Bits.byte c.adcX2 1, Bits.byte c.adcY2 0, Bits.byte c.adcY2 1,
   c.screenX2, c.screenY2]

/-- Writing stores the bytes in a row. -/
theorem write_eq_load (c : Calibration) (r : Ram) : c.write r = r.load (setting 0x58) c.bytes := rfl

/-- **A calibration is read back from the image it was written to.** -/
theorem read_write {r : Ram} (hr : Ram.isPowerOfTwo r.size = true) (room : 16 ∣ r.size)
    (c : Calibration) : read (c.write r) = c := by
  have byte : ∀ {i : Nat} {b : Byte}, c.bytes[i]? = some b →
      Peek.peek8 (c.write r) (setting 0x58 + BitVec.ofNat 32 i) = b := fun h => by
    have twelve : c.bytes.length ≤ 16 := Nat.le_add_right 12 4
    rw [write_eq_load]
    exact Ram.read_load hr room (by decide) _ twelve h
  have half : ∀ {i : Nat} {v : Half}, c.bytes[i]? = some (Bits.byte v 0) →
      c.bytes[i + 1]? = some (Bits.byte v 1) →
      Peek.peek16 (c.write r) (setting 0x58 + BitVec.ofNat 32 i) = v := by
    intro i v low high
    have successor : setting 0x58 + BitVec.ofNat 32 i + 1 =
        setting 0x58 + BitVec.ofNat 32 (i + 1) := by
      rw [BitVec.add_assoc, BitVec.ofNat_add i 1]
      rfl
    unfold Peek.peek16
    rw [successor, byte low, byte high, byte_append_byte]
  rw [read, Calibration.mk.injEq]
  exact ⟨half (i := 0) rfl rfl, half (i := 2) rfl rfl, byte (i := 4) rfl, byte (i := 5) rfl,
    half (i := 6) rfl rfl, half (i := 8) rfl rfl, byte (i := 10) rfl, byte (i := 11) rfl⟩

/-- The main image has room. -/
theorem read_write_main (c : Calibration) : read (c.write Ram.main) = c := by
  have size : Ram.main.size = Ram.mainSize := Array.size_replicate
  exact read_write (size ▸ by decide) (size ▸ by decide) c

/-! ## 2. The settings of an image -/

theorem byte_zero_append (high low : Byte) : Bits.byte (high ++ low) 0 = low := by
  apply BitVec.eq_of_getLsbD_eq
  intro i hi
  rw [Bits.byte, BitVec.getLsbD_extractLsb', BitVec.getLsbD_append]
  simp [hi]

theorem byte_one_append (high low : Byte) : Bits.byte (high ++ low) 1 = high := by
  apply BitVec.eq_of_getLsbD_eq
  intro i hi
  have place : 8 * 1 + i - 8 = i := by omega
  rw [Bits.byte, BitVec.getLsbD_extractLsb', BitVec.getLsbD_append]
  simp [hi, place]

/-- Reading takes the bytes in a row. -/
theorem bytes_read (r : Ram) :
    (read r).bytes = (List.range 12).map fun i => r.read (setting 0x58 + BitVec.ofNat 32 i) := by
  simp only [bytes, read, Peek.peek16, byte_zero_append, byte_one_append]
  rfl

/-- **What was read from an image is written to it without a change.** -/
theorem write_read (r : Ram) : (read r).write r = r := by
  rw [write_eq_load, bytes_read]
  exact r.load_read _ 12

theorem write_shared {β : Type} [Bus β] (c : Calibration) (m : β) :
    c.write (Shared.mk m) = Shared.mk (c.write m) := rfl

theorem read_shared {μ : Type} [Peek μ] (m : μ) : read (Shared.mk m) = read m := rfl

theorem size_write (c : Calibration) (r : Ram) : (c.write r).size = r.size := by
  rw [write_eq_load, Ram.size_load]

theorem waitStates_write (c : Calibration) (r : Ram) : (c.write r).waitStates = r.waitStates := by
  rw [write_eq_load, Ram.waitStates_load]

/-- The address of the byte with number `i`. -/
theorem ahead_setting {i : Nat} (hi : i < 12) : Ram.ahead (setting 0x58) i = 0x3FFCD8 + i := by
  have start : (setting 0x58).toNat = 0x3FFCD8 := rfl
  rw [Ram.ahead, start]
  omega

theorem getElem?_bytes_write {r : Ram} (power : Ram.isPowerOfTwo r.size = true)
    (cells : 16 ∣ r.size) (c : Calibration) {i : Nat} (hi : i < 12) :
    (c.write r).bytes[(0x3FFCD8 + i) % r.size]? = c.bytes[i]? := by
  have inside : (0x3FFCD8 + i) % r.size < (c.write r).size := by
    rw [size_write]
    exact Nat.mod_lt _ (Ram.size_pos power)
  have there : i < c.bytes.length := hi
  have twelve : 12 ≤ 16 := Nat.le_add_right 12 4
  have stored : Ram.lastStored r.size (Ram.ahead (setting 0x58) i % r.size)
      (Ram.ascending (setting 0x58) c.bytes) = c.bytes[i]? :=
    Ram.lastStored_ascending cells (by decide) (setting 0x58) c.bytes twelve
      (Nat.lt_of_lt_of_le hi twelve)
  rw [Ram.getElem?_bytes inside, write_eq_load, Ram.cell_load power, ← ahead_setting hi, stored,
    List.getElem?_eq_getElem there, Option.getD_some]

theorem getElem?_bytes_write_of_apart {r : Ram} (power : Ram.isPowerOfTwo r.size = true)
    (c : Calibration) {j : Nat} (apart : ∀ i < 12, (0x3FFCD8 + i) % r.size ≠ j) :
    (c.write r).bytes[j]? = r.bytes[j]? := by
  rw [write_eq_load]
  refine Ram.getElem?_bytes_load power ?_
  intro i hi
  have twelve : i < 12 := hi
  rw [ahead_setting twelve]
  exact apart i twelve

theorem sixteen_dvd {n : Nat} (power : Ram.isPowerOfTwo n = true) (room : 16 ≤ n) : 16 ∣ n := by
  have form : n = 2 ^ n.log2 := (eq_of_beq power).trans (Nat.one_shiftLeft _)
  have large : 4 ≤ n.log2 := (Nat.le_log2 (by omega)).mpr room
  rw [form]
  exact Nat.pow_dvd_pow 2 large

/-- **The settings of an image keep a calibration.**  It is read back, from the image and through
a shared handle alike, and written through either.  Its bytes are in the twelve cells from address
0x3FFCD8 on, which an image of sixteen bytes already tells apart; every other cell, the size and
the wait states are what they were.  And writing back what was read changes nothing. -/
theorem settings_keep_calibration {r : Ram} (power : Ram.isPowerOfTwo r.size = true)
    (room : 16 ≤ r.size) (c : Calibration) :
    read (c.write r) = c ∧
    c.write (Shared.mk r) = Shared.mk (c.write r) ∧ read (c.write (Shared.mk r)) = c ∧
    (∀ i < 12, (c.write r).bytes[(0x3FFCD8 + i) % r.size]? = c.bytes[i]?) ∧
    (∀ j, (∀ i < 12, (0x3FFCD8 + i) % r.size ≠ j) → (c.write r).bytes[j]? = r.bytes[j]?) ∧
    (c.write r).size = r.size ∧ (c.write r).waitStates = r.waitStates ∧
    (read r).write r = r ∧ (read (Shared.mk r)).write (Shared.mk r) = Shared.mk r := by
  have cells : 16 ∣ r.size := sixteen_dvd power room
  have back := read_write power cells c
  refine ⟨back, write_shared c r, ?_, fun i hi => getElem?_bytes_write power cells c hi,
    fun j apart => getElem?_bytes_write_of_apart power c apart, size_write c r,
    waitStates_write c r, write_read r, ?_⟩
  · rw [write_shared, read_shared, back]
  · rw [read_shared, write_shared, write_read]

/-- In sixteen bytes the calibration starts in the middle and wraps around; the four cells between
its end and its start stay. -/
theorem settings_keep_calibration_in_sixteen :
    ∃ (r : Ram) (c : Calibration), read r ≠ c ∧ read (c.write r) = c ∧
      (c.write r).bytes[8]? = some 0x11 ∧ (c.write r).bytes[3]? = some 0xCC ∧
      (c.write r).bytes[4]? = some 104 ∧ (read r).write r = r := by
  let r : Ram :=
    ⟨#[100, 101, 102, 103, 104, 105, 106, 107, 108, 109, 110, 111, 112, 113, 114, 115], 0⟩
  let c : Calibration := ⟨0x2211, 0x4433, 0x55, 0x66, 0x8877, 0xAA99, 0xBB, 0xCC⟩
  obtain ⟨back, -, -, cells, apart, -, -, again, -⟩ :=
    settings_keep_calibration (r := r) (by decide) (by decide) c
  have first := cells 0 (by decide)
  have last := cells 11 (by decide)
  rw [show (0x3FFCD8 + 0) % r.size = 8 by decide] at first
  rw [show (0x3FFCD8 + 11) % r.size = 3 by decide] at last
  have different : read r ≠ c := by
    intro same
    exact absurd (congrArg screenX1 same) (by decide)
  exact ⟨r, c, different, back, first.trans (by decide), last.trans (by decide),
    apart 4 (by decide), again⟩

/-! ## 3. Lists of numbers -/

/-- A half that fits in a byte is that byte. -/
theorem setWidth_of_lt {v : Half} (small : v.toNat < 256) : (v.setWidth 8).setWidth 16 = v := by
  apply BitVec.eq_of_toNat_eq
  rw [BitVec.toNat_setWidth, BitVec.toNat_setWidth]
  omega

theorem toNat_setWidth_lt (b : Byte) : (b.setWidth 16).toNat < 256 := by
  rw [BitVec.toNat_setWidth]
  omega

theorem screen_eq_ok_iff {name : String} {v : Half} {b : Byte} :
    screen name v = .ok b ↔ b.setWidth 16 = v := by
  unfold screen
  constructor
  · intro taken
    split at taken
    · rename_i small
      cases taken
      exact setWidth_of_lt small
    · cases taken
  · rintro rfl
    rw [if_pos (toNat_setWidth_lt b), BitVec.setWidth_setWidth_of_le _ (by decide),
      BitVec.setWidth_eq]

theorem bind_eq_ok {ε α γ : Type} {x : Except ε α} {f : α → Except ε γ} {v : γ} :
    x >>= f = .ok v ↔ ∃ u, x = .ok u ∧ f u = .ok v := by
  cases x with
  | error e => exact ⟨nofun, nofun⟩
  | ok u => exact ⟨fun h => ⟨u, rfl, h⟩, fun ⟨_, h, rest⟩ => by cases h; exact rest⟩

/-- **The lists that are taken for calibrations are those that calibrations are written as.** -/
theorem ofList_eq_ok_iff {values : List Half} {c : Calibration} :
    ofList values = .ok c ↔ c.toList = values := by
  constructor
  · intro taken
    unfold ofList at taken
    split at taken
    · obtain ⟨x1, first, taken⟩ := bind_eq_ok.mp taken
      obtain ⟨y1, second, taken⟩ := bind_eq_ok.mp taken
      obtain ⟨x2, third, taken⟩ := bind_eq_ok.mp taken
      obtain ⟨y2, fourth, taken⟩ := bind_eq_ok.mp taken
      cases taken
      rw [toList, screen_eq_ok_iff.mp first, screen_eq_ok_iff.mp second,
        screen_eq_ok_iff.mp third, screen_eq_ok_iff.mp fourth]
    · cases taken
  · rintro rfl
    have fits : ∀ (name : String) (b : Byte), screen name (b.setWidth 16) = .ok b :=
      fun name b => screen_eq_ok_iff.mpr rfl
    unfold ofList toList
    dsimp only
    rw [fits, fits, fits, fits]
    rfl

/-- Eight numbers are taken for a calibration if the four screen positions fit in a byte. -/
theorem exists_ofList_eq_ok_iff {values : List Half} :
    (∃ c, ofList values = .ok c) ↔
      values.length = 8 ∧ ∀ i ∈ [2, 3, 6, 7], ∀ v, values[i]? = some v → v.toNat < 256 := by
  constructor
  · rintro ⟨c, taken⟩
    rw [← ofList_eq_ok_iff.mp taken]
    refine ⟨rfl, ?_⟩
    simp only [List.forall_mem_cons]
    refine ⟨?_, ?_, ?_, ?_, nofun⟩
    all_goals
      rintro v ⟨⟩
      exact toNat_setWidth_lt _
  · rintro ⟨eight, small⟩
    match values, eight with
    | [adcX1, adcY1, screenX1, screenY1, adcX2, adcY2, screenX2, screenY2], _ =>
      simp only [List.forall_mem_cons] at small
      obtain ⟨x1, y1, x2, y2, -⟩ := small
      refine ⟨⟨adcX1, adcY1, screenX1.setWidth 8, screenY1.setWidth 8, adcX2, adcY2,
        screenX2.setWidth 8, screenY2.setWidth 8⟩, ofList_eq_ok_iff.mpr ?_⟩
      rw [toList, setWidth_of_lt (x1 _ rfl), setWidth_of_lt (y1 _ rfl), setWidth_of_lt (x2 _ rfl),
        setWidth_of_lt (y2 _ rfl)]

end Calibration
end Handheld
