/-
# One conversion from the command line

The command writes its calibration to the main image, offers one byte with two fillers to a fresh
transfer, and puts the two bytes that come back together again:

    given         written         read           converted      framed           shown
    8 numbers ->  user settings   calibration ->  12 bits   ->  2 bytes  ->  the sample

What comes out is the sample that the pen and the given calibration call for, since each of these
passages undoes the one before it.

* `convert_eq`: the two bytes are those of a reading with the given calibration;
* `conversion_shown`: the answer to any arguments.
-/
import Handheld.CommandLine.Commands
import Handheld.Proofs.Touch.Settings
import Handheld.Proofs.Touch.Snapshots

namespace Handheld

/-! ## 1. A transfer that is used alone -/

namespace Touch

variable {μ : Type} [Peek μ]

/-- Bytes that are exchanged one after the other on an open transfer are offered with one pen and
one memory; by induction on the bytes. -/
theorem Controller.exchangeAll_of_open {s : Controller μ} {id : Nat} {t : Transfer}
    (h : s.transfer? id = some t) (bytes : List Byte) :
    (s.exchangeAll id bytes).1 =
      some ((t.trace (bytes.map fun b => ⟨b, s.pen, s.memory⟩)).map (·.reply)) := by
  induction bytes generalizing s t with
  | nil =>
    unfold transfer? at h
    rw [exchangeAll, h]
    rfl
  | cons b bytes ih =>
    have later := transfer?_exchange s id b id
    rw [if_pos rfl, h, Option.map_some, exchange_of_open h] at later
    rw [exchangeAll, exchange_of_open h]
    dsimp only at later ⊢
    rw [ih later, List.map_cons, Transfer.trace_cons]
    rfl

/-- A byte with two fillers behind it. -/
theorem trace_alone (c : Command) (pen : Pen) (memory : μ) :
    (Transfer.idle.trace
        ([c.bits, 0, 0].map fun b => (⟨b, pen, memory⟩ : Offer μ))).map (·.reply) =
      let answer := reading c pen (Calibration.read memory)
      if c.start then [0, answer.1, answer.2] else [0, 0, 0] := by
  let offered (b : Byte) : Offer μ := ⟨b, pen, memory⟩
  have quiet : (offered 0).starts = false := (offered c.bits).starts_hushed
  split
  · rename_i starts
    let x : Transaction μ := {
      scan := []
      rounds := [⟨offered c.bits, offered 0, starts⟩]
      last := offered 0
      rest := []
      scan_quiet := nofun
      rounds_ne_nil := by simp
      last_quiet := quiet }
    exact (trace_transaction x).1
  · rename_i stays
    have none : ∀ o ∈ [offered c.bits, offered 0, offered 0], o.starts = false := by
      simp only [List.forall_mem_cons]
      exact ⟨Bool.eq_false_iff.mpr stays, quiet, quiet, nofun⟩
    have scan := Transfer.trace_scan none []
    rw [List.append_nil] at scan
    show (Transfer.idle.trace [offered c.bits, offered 0, offered 0]).map (·.reply) = _
    rw [scan, Transfer.trace, List.append_nil, replies_ignored]
    rfl

end Touch

/-! ## 2. Samples and their bytes -/

/-- The line through two points, each a converter value over a screen position, cut to twelve
bits.  It is rounded toward the value of the first point, and constant if both are over the same
position. -/
def onLine (position : Int) (adc1 : Half) (screen1 : Byte) (adc2 : Half) (screen2 : Byte) : Nat :=
  let value : Int :=
    if screen1 = screen2 then adc1.toNat
    else adc1.toNat + ((position - screen1.toNat) * (adc2.toNat - adc1.toNat : Int)).tdiv
      (screen2.toNat - screen1.toNat)
  (min 0xFFF (max 0 value)).toNat

theorem onLine_lt (position : Int) (adc1 : Half) (screen1 : Byte) (adc2 : Half) (screen2 : Byte) :
    onLine position adc1 screen1 adc2 screen2 < 0x1000 := by
  have cut : ∀ z : Int, (min 0xFFF (max 0 z)).toNat < 0x1000 := fun z => by omega
  exact cut _

theorem toNat_interpolate (position : Int) (adc1 : Half) (screen1 : Byte) (adc2 : Half)
    (screen2 : Byte) :
    (Calibration.interpolate position adc1 screen1 adc2 screen2).toNat =
      onLine position adc1 screen1 adc2 screen2 := by
  have line : Calibration.line position adc1 screen1 adc2 screen2 =
      if screen1 = screen2 then (adc1.toNat : Int)
      else adc1.toNat + ((position - screen1.toNat) * (adc2.toNat - adc1.toNat : Int)).tdiv
        (screen2.toNat - screen1.toNat) := by
    split
    · rename_i together
      exact Calibration.line_of_eq position together
    · rename_i apart
      exact (Calibration.line_of_ne position apart).trans (Int.add_comm _ _)
  rw [Calibration.toNat_interpolate_eq_nearest, line]
  unfold Calibration.nearest Calibration.adcMax onLine
  dsimp only
  omega

namespace CommandLine

/-- How many places the two bytes have to spare below the sample. -/
def spare (c : Touch.Command) : Nat := if c.bits8 then 7 else 3

/-- As one number the two bytes of a frame are the sample, without its four low bits in 8-bit
mode, moved up, and the uppermost bit is spare. -/
theorem frame_carries (c : Touch.Command) {s : Half} (hs : s.toNat < 0x1000) :
    (Touch.frame c s).1.toNat < 0x80 ∧
      (Touch.frame c s).1.toNat * 0x100 + (Touch.frame c s).2.toNat =
        (if c.bits8 then s.toNat >>> 4 else s.toNat) <<< spare c := by
  have bytes := Touch.toNat_frame c hs
  unfold spare
  rw [Prod.ext_iff] at bytes
  obtain ⟨first, second⟩ := bytes
  split at first
  all_goals
    rename_i width
    simp only [width] at second
    simp [width, Nat.shiftRight_eq_div_pow, Nat.shiftLeft_eq] at first second ⊢
    omega

/-- Putting two bytes together drops the places to spare. -/
theorem toNat_sampleOf (c : Touch.Command) (first second : Byte) :
    (sampleOf c first second).toNat = (first.toNat * 0x100 + second.toNat) >>> spare c := by
  have joined : ∀ up down : Nat, up + down = 8 →
      ((first.setWidth 16 : Half) <<< up ||| (second.setWidth 16 : Half) >>> down).toNat =
        (first.toNat * 0x100 + second.toNat) >>> down := by
    intro up down eight
    have whole : 2 ^ up * 2 ^ down = 0x100 := by rw [← Nat.pow_add, eight]
    have below : second.toNat / 2 ^ down < 2 ^ up :=
      Nat.div_lt_of_lt_mul (by rw [Nat.mul_comm, whole]; exact second.isLt)
    have inside : first.toNat * 2 ^ up < 2 ^ 16 := by
      have most : 2 ^ up ≤ 2 ^ 8 := Nat.pow_le_pow_right (by decide) (by omega)
      calc first.toNat * 2 ^ up ≤ 255 * 2 ^ 8 := Nat.mul_le_mul (by omega) most
        _ < 2 ^ 16 := by decide
    rw [BitVec.toNat_or, BitVec.toNat_shiftLeft, BitVec.toNat_ushiftRight,
      BitVec.toNat_setWidth_of_le (by decide), BitVec.toNat_setWidth_of_le (by decide),
      Nat.shiftRight_eq_div_pow, Nat.shiftRight_eq_div_pow, Nat.shiftLeft_eq,
      Nat.mod_eq_of_lt inside, ← Nat.shiftLeft_eq, ← Nat.shiftLeft_add_eq_or_of_lt below,
      Nat.shiftLeft_eq, ← whole, ← Nat.mul_assoc, Nat.add_comm (_ * _) second.toNat,
      Nat.add_mul_div_right _ _ (Nat.two_pow_pos down), Nat.add_comm]
  unfold sampleOf spare
  split
  · exact joined 1 7 rfl
  · exact joined 5 3 rfl

/-! ## 3. The command -/

namespace TouchArguments

/-- The calibration that the command works with: the one whose numbers are given, or else the
one from the factory. -/
def Uses (a : TouchArguments) (k : Calibration) : Prop :=
  a.calibration.elim (k = factoryCalibration) (k.toList = ·)

/-- The sample in twelve bits. -/
def sample (a : TouchArguments) (k : Calibration) : Nat :=
  match a.command.channel with
  | 1 => if a.up then 0xFFF else onLine a.y.toInt k.adcY1 k.screenY1 k.adcY2 k.screenY2
  | 5 => if a.up then 0 else onLine a.x.toInt k.adcX1 k.screenX1 k.adcX2 k.screenX2
  | _ => 0x800

/-- The sample that is shown. -/
def shownSample (a : TouchArguments) (k : Calibration) : Nat :=
  if a.command.start then
    if a.command.bits8 then a.sample k >>> 4 else a.sample k
  else 0

/-- The text with two bytes and a sample. -/
def text (a : TouchArguments) (first second : Byte) (sample : Nat) : String :=
  "channel " ++ Numeral.decimal a.command.channel ++ " (" ++ a.command.channelName ++
    "): bytes " ++ Numeral.hexPadded 2 first.toNat ++ " " ++
    Numeral.hexPadded 2 second.toNat ++ " -> sample " ++ Numeral.hexUpper sample ++ "\n"

theorem uses_iff (a : TouchArguments) (k : Calibration) :
    a.Uses k ↔ a.calibration.elim (.ok factoryCalibration) Calibration.ofList = .ok k := by
  unfold Uses
  cases a.calibration with
  | none =>
    constructor
    · rintro rfl
      rfl
    · rintro ⟨⟩
      rfl
  | some values => exact Calibration.ofList_eq_ok_iff.symm

/-- **The two bytes that come back are those of a reading with the calibration that went in.** -/
theorem convert_eq (a : TouchArguments) (k : Calibration) :
    convert a k =
      if a.command.start then Touch.reading a.command ⟨a.x, a.y, !a.up⟩ k else (0, 0) := by
  let unit := (Touch.Controller.new (k.write Ram.main)).setPen (!a.up) a.x a.y
  have opened : unit.begin.2.transfer? unit.begin.1 = some .idle :=
    (unit.transfer?_begin _).trans (if_pos rfl)
  have replies := Touch.Controller.exchangeAll_of_open opened [a.command.bits, 0, 0]
  have alone := Touch.trace_alone a.command ⟨a.x, a.y, !a.up⟩ (k.write Ram.main)
  rw [Calibration.read_write_main] at alone
  have replies := replies.trans (congrArg some alone)
  unfold convert
  dsimp only [unit] at replies ⊢
  rw [replies]
  cases a.command.start with
  | true => rfl
  | false => rfl

/-- The half that is framed holds the sample. -/
theorem reading_eq (a : TouchArguments) (k : Calibration) :
    ∃ s : Half, Touch.reading a.command ⟨a.x, a.y, !a.up⟩ k = Touch.frame a.command s ∧
      s.toNat = a.sample k := by
  refine ⟨_, rfl, ?_⟩
  unfold sample
  by_cases vertical : a.command.channel = 1
  · simp only [vertical, if_true]
    cases a.up with
    | false => exact toNat_interpolate _ _ _ _ _
    | true => rfl
  · by_cases horizontal : a.command.channel = 5
    · simp only [horizontal]
      cases a.up with
      | false => exact toNat_interpolate _ _ _ _ _
      | true => rfl
    · rw [if_neg vertical, if_neg horizontal]
      split
      · contradiction
      · contradiction
      · rfl

theorem sample_lt (a : TouchArguments) (k : Calibration) : a.sample k < 0x1000 := by
  unfold sample
  split
  · split
    · decide
    · exact onLine_lt _ _ _ _ _
  · split
    · decide
    · exact onLine_lt _ _ _ _ _
  · decide

/-- The bytes that come back hold the sample that is shown, and nothing else. -/
theorem convert_carries (a : TouchArguments) (k : Calibration) :
    (convert a k).1.toNat < 0x80 ∧
      (convert a k).1.toNat * 0x100 + (convert a k).2.toNat =
        a.shownSample k <<< spare a.command := by
  obtain ⟨s, framed, held⟩ := a.reading_eq k
  rw [convert_eq, shownSample]
  split
  · rw [framed, ← held]
    exact frame_carries a.command (held ▸ a.sample_lt k)
  · rw [Nat.zero_shiftLeft]
    decide

theorem answer_of_uses {a : TouchArguments} {k : Calibration} (used : a.Uses k) :
    a.answer = .success (a.text (convert a k).1 (convert a k).2 (a.shownSample k)) := by
  obtain ⟨-, carried⟩ := a.convert_carries k
  have sample : (sampleOf a.command (convert a k).1 (convert a k).2).toNat = a.shownSample k := by
    rw [toNat_sampleOf, carried, Nat.shiftLeft_shiftRight]
  unfold answer text
  rw [(a.uses_iff k).mp used]
  dsimp only
  rw [sample]

theorem exists_uses_iff {a : TouchArguments} {values : List Half}
    (given : a.calibration = some values) : (∃ k, a.Uses k) ↔
      values.length = 8 ∧ ∀ i ∈ [2, 3, 6, 7], ∀ v, values[i]? = some v → v.toNat < 256 := by
  rw [← Calibration.exists_ofList_eq_ok_iff]
  simp only [uses_iff, given]
  rfl

theorem answer_of_not_uses {a : TouchArguments} (none : ∀ k, ¬ a.Uses k) :
    ∃ e : Calibration.Fault, a.answer = .failure ("Invalid calibration: " ++ e.message) := by
  simp only [uses_iff] at none
  unfold answer
  cases taken : a.calibration.elim (.ok factoryCalibration) Calibration.ofList with
  | error e => exact ⟨e, rfl⟩
  | ok k => exact absurd taken (none k)

end TouchArguments

/-- **What the command shows is what the pen and the calibration call for.**  For all arguments
the sample is the one of the command's channel: on the line through the vertical points that were
given at the pen's height, or through the horizontal ones beside it, and a fixed one if the pen is
up or the channel is not connected.  In 8-bit mode it loses its four low bits, and without the
start bit it is zero.  The two bytes hold this sample above some bits to spare, so that all others
are clear, the uppermost among them.  A list of numbers is a calibration if it has eight of which
the four screen positions fit in a byte, and any other list is refused. -/
theorem conversion_shown (a : TouchArguments) :
    (∀ k, a.Uses k → ∃ first second : Byte,
      a.answer = .success (a.text first second (a.shownSample k)) ∧
      first.toNat < 0x80 ∧
      first.toNat * 0x100 + second.toNat = a.shownSample k <<< spare a.command) ∧
    (∀ values, a.calibration = some values → ((∃ k, a.Uses k) ↔
      values.length = 8 ∧ ∀ i ∈ [2, 3, 6, 7], ∀ v, values[i]? = some v → v.toNat < 256)) ∧
    ((∀ k, ¬ a.Uses k) →
      ∃ e : Calibration.Fault, a.answer = .failure ("Invalid calibration: " ++ e.message)) ∧
    ∀ args, TouchArguments.grammar.read .default args = .ok a →
      respond ("touch" :: args) = a.answer := by
  refine ⟨?_, fun values given => a.exists_uses_iff given, a.answer_of_not_uses, ?_⟩
  · intro k used
    obtain ⟨clear, carried⟩ := a.convert_carries k
    exact ⟨_, _, a.answer_of_uses used, clear, carried⟩
  · intro args reads
    have answered : respond ("touch" :: args) =
        respondWith TouchArguments.grammar .default TouchArguments.answer args := rfl
    rw [answered, respondWith, reads]

/-- A vertical reading in 8-bit mode with a calibration from the command line, and a calibration
that is refused. -/
theorem conversion_shown_from_list :
    ∃ a : TouchArguments, ∃ first second : Byte,
      respond ["touch", "--cmd", "0x98", "--calibration", "176,240,16,16,3000,2000,240,176",
        "100", "60"] = .success (a.text first second 0x2D) ∧
      first.toNat < 0x80 ∧ first.toNat * 0x100 + second.toNat = 0x2D <<< 7 ∧
      ∃ e : Calibration.Fault,
        ({ a with calibration := some [0, 0, 256] } : TouchArguments).answer =
          .failure ("Invalid calibration: " ++ e.message) := by
  let k : Calibration := ⟨176, 240, 16, 16, 3000, 2000, 240, 176⟩
  let a : TouchArguments := ⟨100, 60, false, ⟨0x98⟩, some k.toList⟩
  obtain ⟨shown, -, -, answered⟩ := conversion_shown a
  obtain ⟨first, second, text, clear, carried⟩ := shown k rfl
  have answer := answered ["--cmd", "0x98", "--calibration", "176,240,16,16,3000,2000,240,176",
    "100", "60"] rfl
  have value : a.shownSample k = 0x2D := by decide
  have places : spare a.command = 7 := by decide
  rw [value] at text carried
  rw [places] at carried
  let b : TouchArguments := { a with calibration := some [0, 0, 256] }
  obtain ⟨-, taken, refused, -⟩ := conversion_shown b
  have none : ¬ ∃ k, b.Uses k := fun used => absurd ((taken _ rfl).mp used).1 (by decide)
  exact ⟨a, first, second, answer.trans text, clear, carried,
    refused fun k used => none ⟨k, used⟩⟩

end CommandLine
end Handheld
