/-
# Transfers with the touch controller

The host clocks bytes in and gets one byte back for each.  A byte with the start bit is a
command: it makes the controller convert one of its channels, and the sample comes back with
the next two bytes.  The byte that fetches the second half may already be the next command;
without one the transfer has nothing more to say.

    host  ->  1ccc mrpp   0000 0000   next command or 0
    unit  <-  0000 0000   0sss ssss   ssss s000

In 8-bit mode the sample loses its four low bits.
-/
import Handheld.Touch.Calibration
import Handheld.Touch.Pen

namespace Handheld
namespace Touch

/-! ## 1. Commands -/

structure Command where
  bits : Byte
  deriving DecidableEq

namespace Command

def start (c : Command) : Bool := Bits.get c.bits 7
def channel (c : Command) : Nat := (c.bits.extractLsb' 4 3).toNat
def bits8 (c : Command) : Bool := Bits.get c.bits 3
def reference (c : Command) : Nat := (c.bits.extractLsb' 2 1).toNat
def powerDown (c : Command) : Nat := (c.bits.extractLsb' 0 2).toNat

def channelNames : List String :=
  ["temp0", "touch_y", "battery", "touch_z1", "touch_z2", "touch_x", "aux", "temp1"]

def channelName (c : Command) : String := channelNames.getD c.channel ""

end Command

/-! ## 2. Conversion -/

/-- What the channels that are not connected give. -/
def midScale : Half := 0x800

/-- The 12-bit sample for a command, from the pen and the calibration in memory. -/
def sample {μ : Type} [Peek μ] (pen : Pen) (memory : μ) (c : Command) : Half :=
  if c.channel = 1 then
    if pen.down then (Calibration.read memory).sampleY pen.y.toInt else 0xFFF
  else if c.channel = 5 then
    if pen.down then (Calibration.read memory).sampleX pen.x.toInt else 0
  else midScale

/-- The two bytes that a sample is sent as, after one leading zero bit. -/
def frame (c : Command) (sample : Half) : Byte × Byte :=
  if c.bits8 then
    let s := sample >>> 4
    ((s >>> 1).setWidth 8, (s <<< 7).setWidth 8)
  else ((sample >>> 5).setWidth 8, (sample <<< 3).setWidth 8)

/-! ## 3. One transfer -/

inductive Transfer where
  /-- Waiting for a byte with the start bit. -/
  | idle
  /-- A sample is going out; `sentFirst` tells whether its first byte is. -/
  | sending (first second : Byte) (sentFirst : Bool)
  /-- The last sample went out without another command. -/
  | drained
  deriving DecidableEq

/-- Starts a conversion, with the pen and the memory as they are now. -/
def convert {μ : Type} [Peek μ] (pen : Pen) (memory : μ) (c : Command) : Transfer :=
  let bytes := frame c (sample pen memory c)
  .sending bytes.1 bytes.2 false

/-- Exchanges one byte: what comes back, and where that leaves the transfer. -/
def Transfer.exchange {μ : Type} [Peek μ] (t : Transfer) (pen : Pen) (memory : μ) (b : Byte) :
    Byte × Transfer :=
  let c : Command := ⟨b⟩
  match t with
  | idle => (0, if c.start then convert pen memory c else idle)
  | sending first second false => (first, sending first second true)
  | sending _ second true => (second, if c.start then convert pen memory c else drained)
  | drained => (0, drained)

/-! ## 4. The controller -/

/-- A controller with its memory and all transfers begun so far; a closed one is `none`. -/
structure Controller (μ : Type) where
  pen : Pen
  memory : μ
  transfers : Array (Option Transfer)

namespace Controller

variable {μ : Type}

def new (memory : μ) : Controller μ := ⟨.lifted, memory, #[]⟩

def setPen (s : Controller μ) (down : Bool) (x y : Word) : Controller μ :=
  { s with pen := ⟨x, y, down⟩ }

/-- Begins a transfer and gives its number. -/
def begin (s : Controller μ) : Nat × Controller μ :=
  (s.transfers.size, { s with transfers := s.transfers.push (some .idle) })

/-- Exchanges one byte on an open transfer. -/
def exchange [Peek μ] (s : Controller μ) (id : Nat) (b : Byte) : Option Byte × Controller μ :=
  match s.transfers.getD id none with
  | none => (none, s)
  | some t =>
    let (reply, t) := t.exchange s.pen s.memory b
    (some reply, { s with transfers := s.transfers.setIfInBounds id (some t) })

/-- Exchanges bytes one after the other; nothing comes back from a transfer that is not open. -/
def exchangeAll [Peek μ] (s : Controller μ) (id : Nat) :
    List Byte → Option (List Byte) × Controller μ
  | [] => (if (s.transfers.getD id none).isSome then some [] else none, s)
  | b :: bs =>
    match s.exchange id b with
    | (none, s) => (none, s)
    | (some reply, s) =>
      let (replies, s) := s.exchangeAll id bs
      (replies.map (reply :: ·), s)

/-- Ends a transfer; a conversion in flight is abandoned. -/
def close (s : Controller μ) (id : Nat) : Bool × Controller μ :=
  ((s.transfers.getD id none).isSome,
    { s with transfers := s.transfers.setIfInBounds id none })

def poke [Bus μ] (s : Controller μ) (a : Word) (b : Byte) : Controller μ :=
  { s with memory := Bus.write8 s.memory a b }

end Controller
end Touch
end Handheld
