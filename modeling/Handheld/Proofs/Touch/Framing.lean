/-
# Whole transfers

Each byte of a transfer is offered with the pen and the memory as they are at that moment.  What
comes back depends on what the transfer holds alone, `exchange_eq`, and all that the byte
decides is whether a sample is converted.

A transaction scans for a command, goes through rounds of a command and a filler, and ends with a
byte that is no command in the place of the next one:

    offered   scan ..   c1   f1     c2    f2     ..   cn    fn     last   rest ..
    sent      0 ..      0    msb1   lsb1  msb2   ..   ..    msbn   lsbn   0 ..

* `transactions_framed`: this is what a transfer answers, it converts once for each command, and
  every sequence of bytes begins a transaction or never leaves the scan.
-/
import Handheld.Proofs.Touch.Interpolation
import Handheld.Touch.Transfer

namespace Handheld
namespace Touch

variable {μ : Type}

/-! ## 1. Offers and their answers -/

/-- A byte that is offered, with the pen and the memory as they are then. -/
structure Offer (μ : Type) where
  byte : Byte
  pen : Pen
  memory : μ
  deriving DecidableEq

namespace Offer

def command (o : Offer μ) : Command := ⟨o.byte⟩

/-- The byte has the start bit. -/
def starts (o : Offer μ) : Bool := o.command.start

/-- The same moment with a byte that is no command. -/
def hushed (o : Offer μ) : Offer μ := { o with byte := 0 }

theorem starts_hushed (o : Offer μ) : o.hushed.starts = false := by
  have clear : (Command.mk 0).start = false := by decide
  exact clear

variable [Peek μ]

/-- The sample that the byte asks for. -/
def sample (o : Offer μ) : Half := Touch.sample o.pen o.memory o.command

/-- The two bytes that the sample is sent as. -/
def answer (o : Offer μ) : Byte × Byte := frame o.command o.sample

end Offer

theorem toNat_interpolate_lt (position : Int) (adc1 : Half) (screen1 : Byte) (adc2 : Half)
    (screen2 : Byte) :
    (Calibration.interpolate position adc1 screen1 adc2 screen2).toNat < 0x1000 := by
  rw [Calibration.toNat_interpolate_eq_nearest]
  exact Nat.lt_succ_of_le (Calibration.nearest_le _)

/-- A sample has twelve bits. -/
theorem toNat_sample_lt [Peek μ] (pen : Pen) (memory : μ) (c : Command) :
    (sample pen memory c).toNat < 0x1000 := by
  unfold sample
  split
  · split
    · exact toNat_interpolate_lt _ _ _ _ _
    · decide
  · split
    · split
      · exact toNat_interpolate_lt _ _ _ _ _
      · decide
    · decide

/-- The bytes of a sample as numbers; the first one keeps its upper bit clear. -/
theorem toNat_frame (c : Command) {s : Half} (hs : s.toNat < 0x1000) :
    ((frame c s).1.toNat, (frame c s).2.toNat) =
      if c.bits8 then (s.toNat >>> 4 >>> 1, (s.toNat >>> 4 <<< 7) % 0x100)
      else (s.toNat >>> 5, (s.toNat <<< 3) % 0x100) := by
  unfold frame
  split
  all_goals
    simp only [BitVec.toNat_setWidth, BitVec.toNat_ushiftRight, BitVec.toNat_shiftLeft,
      Nat.shiftRight_eq_div_pow, Nat.shiftLeft_eq, Prod.mk.injEq]
    omega

/-! ## 2. One exchange -/

namespace Transfer

/-- What is sent next. -/
def reply : Transfer → Byte
  | idle | drained => 0
  | sending first _ false => first
  | sending _ second true => second

/-- The next byte may be a command. -/
def listens : Transfer → Bool
  | idle | sending _ _ true => true
  | sending _ _ false | drained => false

/-- Where a byte leads that is not taken for a command. -/
def passed : Transfer → Transfer
  | idle => idle
  | sending first second false => sending first second true
  | sending _ _ true | drained => drained

/-- A sample was converted and none of it is sent. -/
def loaded : Transfer → Bool
  | sending _ _ false => true
  | idle | sending _ _ true | drained => false

theorem loaded_passed (t : Transfer) : t.passed.loaded = false := by
  rcases t with _ | ⟨first, second, _ | _⟩ | _
  all_goals rfl

variable [Peek μ]

/-- **One exchange.**  The reply does not depend on what is offered, and the byte matters only
where a command is listened for. -/
theorem exchange_eq (t : Transfer) (o : Offer μ) :
    t.exchange o.pen o.memory o.byte =
      (t.reply, if t.listens && o.starts then sending o.answer.1 o.answer.2 false
        else t.passed) := by
  rcases t with _ | ⟨first, second, _ | _⟩ | _
  all_goals rfl

/-- Where an offer leads. -/
def next (t : Transfer) (o : Offer μ) : Transfer := (t.exchange o.pen o.memory o.byte).2

theorem next_eq (t : Transfer) (o : Offer μ) :
    t.next o = if t.listens && o.starts then sending o.answer.1 o.answer.2 false
      else t.passed := by
  rw [next, exchange_eq]

/-- A transfer is loaded by a command that it listens to, and by nothing else. -/
theorem loaded_next (t : Transfer) (o : Offer μ) : (t.next o).loaded = (t.listens && o.starts) := by
  rw [next_eq]
  split
  · rename_i taken
    rw [taken, loaded]
  · rename_i passing
    rw [loaded_passed, Bool.eq_false_iff.mpr passing]

end Transfer

/-! ## 3. Sequences of offers -/

/-- An offer that was answered. -/
structure Exchange (μ : Type) extends Offer μ where
  reply : Byte
  /-- A sample was converted for it. -/
  converts : Bool
  deriving DecidableEq

/-- The offers that a sample was converted for. -/
def conversions (xs : List (Exchange μ)) : List (Offer μ) :=
  (xs.filter (·.converts)).map (·.toOffer)

/-- An offer that nothing comes of. -/
def Offer.ignored (o : Offer μ) : Exchange μ := ⟨o, 0, false⟩

theorem replies_ignored (os : List (Offer μ)) :
    (os.map Offer.ignored).map (·.reply) = List.replicate os.length 0 := by
  induction os with
  | nil => rfl
  | cons o os ih => rw [List.map_cons, List.map_cons, ih]; rfl

theorem conversions_ignored (os : List (Offer μ)) (xs : List (Exchange μ)) :
    conversions (os.map Offer.ignored ++ xs) = conversions xs := by
  induction os with
  | nil => rfl
  | cons o os ih => exact ih

namespace Transfer

variable [Peek μ]

/-- Offers made one after the other, with what comes back. -/
def trace : Transfer → List (Offer μ) → List (Exchange μ)
  | _, [] => []
  | t, o :: os =>
    let (reply, t) := t.exchange o.pen o.memory o.byte
    ⟨o, reply, t.loaded⟩ :: t.trace os

theorem trace_cons (t : Transfer) (o : Offer μ) (os : List (Offer μ)) :
    t.trace (o :: os) = ⟨o, t.reply, t.listens && o.starts⟩ :: (t.next o).trace os := by
  rw [trace, exchange_eq, ← next_eq, ← loaded_next]

/-- While there is no command, a scan goes on. -/
theorem trace_scan {scan : List (Offer μ)} (quiet : ∀ o ∈ scan, o.starts = false)
    (os : List (Offer μ)) :
    idle.trace (scan ++ os) = scan.map Offer.ignored ++ idle.trace os := by
  induction scan with
  | nil => rfl
  | cons o scan ih =>
    obtain ⟨here, later⟩ := List.forall_mem_cons.mp quiet
    have stay : idle.next o = idle := by simp [next_eq, here, passed]
    rw [List.cons_append, trace_cons, stay, ih later, here]
    rfl

/-- After the last sample nothing comes any more. -/
theorem trace_drained (os : List (Offer μ)) : drained.trace os = os.map Offer.ignored := by
  induction os with
  | nil => rfl
  | cons o os ih =>
    have stay : drained.next o = drained := by rw [next_eq]; rfl
    rw [trace_cons, stay, ih]
    rfl

end Transfer

/-! ## 4. Transactions -/

/-- A command and the byte that fetches the first half of its sample. -/
structure Round (μ : Type) where
  command : Offer μ
  filler : Offer μ
  starts : command.starts = true

structure Transaction (μ : Type) where
  scan : List (Offer μ)
  rounds : List (Round μ)
  last : Offer μ
  rest : List (Offer μ)
  scan_quiet : ∀ o ∈ scan, o.starts = false
  rounds_ne_nil : rounds ≠ []
  last_quiet : last.starts = false

namespace Round

def offers (r : Round μ) : List (Offer μ) := [r.command, r.filler]

/-- The halves of the sample; they are sent one byte later each. -/
def halves [Peek μ] (r : Round μ) : List Byte := [r.command.answer.1, r.command.answer.2]

end Round

namespace Transaction

def offers (x : Transaction μ) : List (Offer μ) :=
  x.scan ++ (x.rounds.flatMap Round.offers ++ x.last :: x.rest)

def replies [Peek μ] (x : Transaction μ) : List Byte :=
  List.replicate x.scan.length 0 ++ 0 :: (x.rounds.flatMap Round.halves ++
    List.replicate x.rest.length 0)

end Transaction

section Rounds

variable [Peek μ]

/-- A transfer that listens goes through a round, whatever the filler is. -/
theorem trace_round {t : Transfer} (h : t.listens = true) (r : Round μ) (os : List (Offer μ)) :
    t.trace (r.offers ++ os) =
      ⟨r.command, t.reply, true⟩ :: ⟨r.filler, r.command.answer.1, false⟩ ::
        (Transfer.sending r.command.answer.1 r.command.answer.2 true).trace os := by
  have load : t.next r.command =
      .sending r.command.answer.1 r.command.answer.2 false := by
    rw [Transfer.next_eq, h, r.starts, Bool.and_self, if_pos rfl]
  have send : (Transfer.sending r.command.answer.1 r.command.answer.2 false).next r.filler =
      .sending r.command.answer.1 r.command.answer.2 true := by
    rw [Transfer.next_eq]
    rfl
  rw [Round.offers, List.cons_append, List.cons_append, List.nil_append, Transfer.trace_cons, load,
    Transfer.trace_cons, send, h, r.starts]
  rfl

/-- What is left of a transaction while a sample is on its way: the second half of it goes out
first, and then the samples of the rounds. -/
theorem trace_rounds (first second : Byte) (rounds : List (Round μ)) {last : Offer μ}
    (quiet : last.starts = false) (rest : List (Offer μ)) :
    let xs := (Transfer.sending first second true).trace
      (rounds.flatMap Round.offers ++ last :: rest)
    xs.map (·.reply) = second :: (rounds.flatMap Round.halves ++ List.replicate rest.length 0) ∧
      conversions xs = rounds.map (·.command) := by
  induction rounds generalizing first second with
  | nil =>
    have drain : (Transfer.sending first second true).next last = .drained := by
      rw [Transfer.next_eq, quiet, Bool.and_false]
      rfl
    rw [List.flatMap_nil, List.nil_append, Transfer.trace_cons, drain, Transfer.trace_drained,
      quiet]
    constructor
    · rw [List.map_cons, replies_ignored]
      rfl
    · have nothing := conversions_ignored rest []
      rw [List.append_nil] at nothing
      exact nothing
  | cons r rounds ih =>
    obtain ⟨replies, converted⟩ := ih r.command.answer.1 r.command.answer.2
    rw [List.flatMap_cons, List.append_assoc, trace_round rfl]
    constructor
    · rw [List.map_cons, List.map_cons, replies]
      rfl
    · rw [List.map_cons, ← converted]
      rfl

theorem trace_transaction (x : Transaction μ) :
    (Transfer.idle.trace x.offers).map (·.reply) = x.replies ∧
      conversions (Transfer.idle.trace x.offers) = x.rounds.map (·.command) := by
  obtain ⟨scan, rounds, last, rest, scan_quiet, rounds_ne_nil, last_quiet⟩ := x
  cases rounds with
  | nil => exact absurd rfl rounds_ne_nil
  | cons r rounds =>
    obtain ⟨replies, converted⟩ :=
      trace_rounds r.command.answer.1 r.command.answer.2 rounds last_quiet rest
    simp only [Transaction.offers, Transaction.replies]
    rw [Transfer.trace_scan scan_quiet, List.flatMap_cons, List.append_assoc, trace_round rfl]
    constructor
    · rw [List.map_append, replies_ignored, List.map_cons, List.map_cons, replies]
      rfl
    · rw [conversions_ignored, List.map_cons, ← converted]
      rfl

end Rounds

/-! ## 5. Every sequence of offers -/

/-- From a command on, every sequence of offers begins rounds that end somewhere. -/
theorem exists_rounds (c : Offer μ) (hc : c.starts = true) :
    ∀ os : List (Offer μ), ∃ (rounds : List (Round μ)) (last : Offer μ) (rest : List (Offer μ)),
      rounds ≠ [] ∧ last.starts = false ∧
        c :: os <+: rounds.flatMap Round.offers ++ last :: rest
  | [] => ⟨[⟨c, c.hushed, hc⟩], c.hushed, [], by simp, c.starts_hushed, ⟨[c.hushed, c.hushed], rfl⟩⟩
  | [f] => ⟨[⟨c, f, hc⟩], c.hushed, [], by simp, c.starts_hushed, ⟨[c.hushed], rfl⟩⟩
  | f :: o :: os => by
    cases ho : o.starts with
    | false => exact ⟨[⟨c, f, hc⟩], o, os, by simp, ho, ⟨[], by simp [Round.offers]⟩⟩
    | true =>
      obtain ⟨rounds, last, rest, -, quiet, begins⟩ := exists_rounds o ho os
      refine ⟨⟨c, f, hc⟩ :: rounds, last, rest, by simp, quiet, ?_⟩
      exact (List.prefix_append_right_inj [c, f]).mpr begins

theorem quiet_or_transaction (os : List (Offer μ)) :
    (∀ o ∈ os, o.starts = false) ∨ ∃ x : Transaction μ, os <+: x.offers := by
  induction os with
  | nil => exact .inl (by simp)
  | cons o os ih =>
    cases ho : o.starts with
    | true =>
      obtain ⟨rounds, last, rest, ne_nil, quiet, begins⟩ := exists_rounds o ho os
      exact .inr ⟨⟨[], rounds, last, rest, by simp, ne_nil, quiet⟩, begins⟩
    | false =>
      rcases ih with quiet | ⟨x, begins⟩
      · exact .inl (List.forall_mem_cons.mpr ⟨ho, quiet⟩)
      · exact .inr ⟨{ x with
          scan := o :: x.scan
          scan_quiet := List.forall_mem_cons.mpr ⟨ho, x.scan_quiet⟩ },
          (List.prefix_cons_inj o).mpr begins⟩

/-- **Transfers are framed.**  A transaction is answered with zeros during the scan, for the
first command and at the end, and with the two bytes of one sample for each command in between.
A sample is converted for each of the commands, and for no other byte, with twelve bits, of which
the first byte takes the upper seven and the second the others; in 8-bit mode the four lowest are
dropped first.  And every sequence of offers either has no command at all or begins a
transaction. -/
theorem transactions_framed [Peek μ] :
    (∀ x : Transaction μ,
      (Transfer.idle.trace x.offers).map (·.reply) = x.replies ∧
      conversions (Transfer.idle.trace x.offers) = x.rounds.map (·.command)) ∧
    (∀ o : Offer μ, o.sample.toNat < 0x1000 ∧ (o.answer.1.toNat, o.answer.2.toNat) =
      if o.command.bits8 then (o.sample.toNat >>> 4 >>> 1, (o.sample.toNat >>> 4 <<< 7) % 0x100)
      else (o.sample.toNat >>> 5, (o.sample.toNat <<< 3) % 0x100)) ∧
    ∀ os : List (Offer μ),
      (∀ o ∈ os, o.starts = false) ∨ ∃ x : Transaction μ, os <+: x.offers := by
  refine ⟨trace_transaction, fun o => ?_, quiet_or_transaction⟩
  have small := toNat_sample_lt o.pen o.memory o.command
  exact ⟨small, toNat_frame o.command small⟩

/-- Two chained conversions after a byte of scan, the second in 8-bit mode.  The pen is lifted
between them, the first filler looks like a command, and so does the byte after the end. -/
theorem transactions_framed_chained :
    ∃ x : Transaction Ram, x.offers.map (·.byte) = [0x01, 0xD0, 0x90, 0x98, 0x00, 0x7F, 0xD0] ∧
      (Transfer.idle.trace x.offers).map (·.reply) = [0x00, 0x00, 0x03, 0x20, 0x7F, 0x80, 0x00] ∧
      (conversions (Transfer.idle.trace x.offers)).map (·.byte) = [0xD0, 0x98] := by
  let memory : Ram := ⟨#[176, 0, 240, 176, 0, 0, 0, 0, 16, 0, 16, 0, 16, 16, 240, 0], 0⟩
  let offered (pen : Pen) (b : Byte) : Offer Ram := ⟨b, pen, memory⟩
  let pen : Pen := ⟨100, 60, true⟩
  let x : Transaction Ram := {
    scan := [offered .lifted 0x01]
    rounds := [⟨offered pen 0xD0, offered pen 0x90, by decide⟩,
      ⟨offered .lifted 0x98, offered pen 0x00, by decide⟩]
    last := offered pen 0x7F
    rest := [offered pen 0xD0]
    scan_quiet := by decide
    rounds_ne_nil := by simp
    last_quiet := by decide }
  obtain ⟨framed, -, -⟩ := transactions_framed (μ := Ram)
  obtain ⟨replies, converted⟩ := framed x
  refine ⟨x, rfl, replies.trans (by decide), ?_⟩
  rw [converted]
  rfl

end Touch
end Handheld
