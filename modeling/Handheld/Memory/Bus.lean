/-
# Buses

A bus moves single bytes; wide accesses are little-endian sequences of byte accesses in
ascending order, over addresses that wrap at the top of the address space.  `Peek` is the
narrower view of a peripheral that only looks at memory.

`Shared` stands for a memory that a core and a peripheral both reach.  It passes every access
on, so nothing can be told from the answers.
-/
import Handheld.Word

namespace Handheld

/-- Byte-wide access to memory and devices.  Reading may have an effect. -/
class Bus (β : Type) where
  read8 : β → Word → Byte × β
  write8 : β → Word → Byte → β
  /-- Cycles that every access takes on top of the first. -/
  waitStates : β → Word

namespace Bus

variable {β : Type} [Bus β]

def read16 (b : β) (a : Word) : Half × β :=
  let (lo, b) := read8 b a
  let (hi, b) := read8 b (a + 1)
  (hi ++ lo, b)

def read32 (b : β) (a : Word) : Word × β :=
  let (lo, b) := read16 b a
  let (hi, b) := read16 b (a + 2)
  (hi ++ lo, b)

def write16 (b : β) (a : Word) (v : Half) : β :=
  write8 (write8 b a (Bits.byte v 0)) (a + 1) (Bits.byte v 1)

def write32 (b : β) (a : Word) (v : Word) : β :=
  write16 (write16 b a (v.extractLsb' 0 16)) (a + 2) (v.extractLsb' 16 16)

end Bus

/-- Looking at memory without an effect on it. -/
class Peek (μ : Type) where
  peek8 : μ → Word → Byte

namespace Peek

def peek16 {μ : Type} [Peek μ] (m : μ) (a : Word) : Half := peek8 m (a + 1) ++ peek8 m a

end Peek

/-- A memory reached through a shared handle. -/
structure Shared (β : Type) where
  held : β

instance {β : Type} [Bus β] : Bus (Shared β) where
  read8 s a := let (v, b) := Bus.read8 s.held a; (v, ⟨b⟩)
  write8 s a v := ⟨Bus.write8 s.held a v⟩
  waitStates s := Bus.waitStates s.held

instance {μ : Type} [Peek μ] : Peek (Shared μ) where
  peek8 s a := Peek.peek8 s.held a

end Handheld
