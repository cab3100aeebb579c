/-
# Software interrupts and their numbers

A software interrupt carries its number in the instruction: bits 16 to 23 of an ARM instruction,
which are the lowest byte of its upper half, or the lowest byte of a Thumb instruction.  In
either case that is the byte two below the program counter, which is why one look at the memory
is enough.  What is found there is the last byte that was stored in its cell, in images that are
too small to hold the whole instruction too.

* `Ram.read_instruction`, `interruptNumber_eq`: the number is that of the instruction, and it
  costs nothing to fetch it;
* `perform_untouched`: a slot that is empty and on which no call is made stays empty;
* `software_interrupt_dispatched`: what becomes of a software interrupt.
-/
import Handheld.Proofs.Core.Hooks
import Handheld.Proofs.Core.Raising
import Handheld.Proofs.Memory.Image

namespace Handheld

/-! ## 1. Instructions -/

/-- An instruction as it is stored. -/
inductive Instruction where
  | arm (w : Word)
  | thumb (h : Half)
  deriving DecidableEq

namespace Instruction

/-- The store by which an instruction comes to stand in front of `pc`. -/
def store (pc : Word) : Instruction → MemoryAccess
  | arm w => .write32 (pc - 4) w
  | thumb h => .write16 (pc - 2) h

/-- The number of the software interrupt: bits 16 to 23, or the low byte. -/
def number : Instruction → Byte
  | arm w => w.extractLsb' 16 8
  | thumb h => h.extractLsb' 0 8

end Instruction

namespace Ram

/-- Of the bytes of an instruction the last two go to `pc - 2` and `pc - 1`. -/
theorem stores_instruction (i : Instruction) (pc : Word) :
    ∃ front b, (Call.access (i.store pc)).stores = front ++ ascending (pc - 2) [i.number, b] := by
  cases i with
  | arm w =>
    refine ⟨ascending (pc - 4) [Bits.byte w 0, Bits.byte w 1], Bits.byte w 3, ?_⟩
    have back : pc - 2 = pc - 4 + BitVec.ofNat 32 2 := by
      rw [BitVec.sub_eq_add_neg, BitVec.sub_eq_add_neg, BitVec.add_assoc]
      rfl
    rw [back]
    exact ascending_append (pc - 4) [Bits.byte w 0, Bits.byte w 1] [Bits.byte w 2, Bits.byte w 3]
  | thumb h => exact ⟨[], Bits.byte h 1, rfl⟩

/-- The byte below the last one is that of the number, however often the image repeats. -/
theorem read_instruction {r : Ram} (power : isPowerOfTwo r.size = true) (room : 2 ≤ r.size)
    (i : Instruction) (pc : Word) (before later : List Call)
    (kept : ∀ x ∈ later, ∀ s ∈ x.stores, s.1 % r.size ≠ (pc - 2).toNat % r.size) :
    (run (before ++ .access (i.store pc) :: later) r).2.read (pc - 2) = i.number := by
  obtain ⟨-, size, -, cells⟩ := run_eq power (before ++ .access (i.store pc) :: later)
  have even : 2 ∣ r.size := by
    rw [eq_of_beq power, Nat.one_shiftLeft] at room ⊢
    exact dvd_pow_self 2 fun zero => by rw [zero] at room; omega
  have overwritten : lastStored r.size (ahead (pc - 2) 0 % r.size) (later.flatMap Call.stores) =
      none := by
    refine lastStored_eq_none fun s hs => ?_
    obtain ⟨x, hx, hs⟩ := List.mem_flatMap.mp hs
    rw [ahead_zero]
    exact kept x hx s hs
  obtain ⟨front, b, stores⟩ := stores_instruction i pc
  have number : lastStored r.size (ahead (pc - 2) 0 % r.size)
      (ascending (pc - 2) [i.number, b]) = some i.number :=
    lastStored_ascending even (by decide) (pc - 2) [i.number, b] (Nat.le_refl 2) (by decide)
  rw [read_eq_cell (size.symm ▸ power), size, cells, held, List.flatMap_append, List.flatMap_cons,
    lastStored_append, lastStored_append, overwritten, stores, lastStored_append, number]
  rfl

end Ram

namespace Core

variable {β κ σ : Type}

/-! ## 2. Fetching the number -/

section Number

variable {c : Core Ram κ σ} {n : Byte}

theorem read16_instruction (stored : c.bus.read (c.pc - 2) = n) :
    Bits.byte (Bus.read16 c.bus (c.returnAddress .softwareInterrupt - 2)).1 0 = n := by
  rw [returnAddress_softwareInterrupt, ← stored]
  exact BitVec.extractLsb'_append_eq_right

/-- The core is the same after the number was fetched, the clock and the memory too. -/
theorem interruptNumber_eq (stored : c.bus.read (c.pc - 2) = n) :
    interruptNumber c = .ok n c :=
  congrArg (EStateM.Result.ok · c) (read16_instruction stored)

theorem intercept_of_stored (stored : c.bus.read (c.pc - 2) = n) :
    c.intercept .softwareInterrupt = c.takeHook n := by
  rw [intercept_softwareInterrupt, read16_instruction stored]
  rfl

end Number

/-! ## 3. The slot of a hook at work -/

/-- By induction on the steps: a slot that stands for nothing does so until a call is made on
it. -/
theorem perform_untouched [Bus β] [Coprocessor κ] {n : Byte} {c d : Core β κ σ}
    {p : Program κ σ} {fuel : Nat} {cycles : Int} (empty : c.hook? n = none)
    (untouched : ∀ k, (Moment.step^[k] (.start c p)).calls? n = none)
    (performed : perform fuel p c = .ok cycles d) : d.hook? n = none := by
  have unowned : ∀ k, (Moment.step^[k] (.start c p)).owner? n = none := by
    intro k
    induction k with
    | zero => exact Option.or_none.trans empty
    | succ k ih =>
      rw [Function.iterate_succ_apply', Moment.owner?_step, Moment.leaves?_eq_none n (untouched k),
        ih]
      rfl
  obtain ⟨k, ended⟩ := perform_eq_ok_iff.mp ⟨fuel, performed⟩
  have last := unowned k
  rw [ended] at last
  exact Option.or_none.symm.trans last

/-- The core `c'` is left when `hook` was called out of slot `n` and has returned `cycles` in
`d`. -/
structure Returned (n : Byte) (hook : Program κ σ) (cycles : Int) (d c' : Core β κ σ) :
    Prop where
  own : c'.hook? n = (d.hook? n).or (some hook)
  others : ∀ m, m ≠ n → c'.hook? m = d.hook? m
  clock : c'.clock = d.clock + (cycles + 3)
  /-- Everything that is not named above. -/
  rest : c' = { d with hooks := c'.hooks, clock := c'.clock }

theorem returned_restoreHook (n : Byte) (hook : Program κ σ) (cycles : Int) (d : Core β κ σ) :
    Returned n hook cycles d ((d.restoreHook n hook).advance (cycles + 3)) where
  own := (hook?_restoreHook d n n hook).trans (by rw [if_pos rfl])
  others m other := (hook?_restoreHook d n m hook).trans
    (by rw [if_neg other.symm, Option.or_none])
  clock := by
    rw [restoreHook]
    split <;> rfl
  rest := by
    rw [restoreHook]
    split <;> rfl

/-! ## 4. Dispatch -/

variable [Coprocessor κ]

/-- A hook is carried out in the core as it is, but for its slot. -/
theorem raise_of_filled {c : Core Ram κ σ} {n : Byte} {hook : Program κ σ}
    (stored : c.bus.read (c.pc - 2) = n) (filled : c.hook? n = some hook) (fuel : Nat) :
    raise (fuel + 1) .softwareInterrupt c =
      (perform fuel hook >>= fun cycles => modify fun d =>
        (d.restoreHook n hook).advance (cycles + 3)) (c.setHook n none) := by
  rw [raise, raiseWith_apply, intercept_of_stored stored, takeHook, filled]
  rfl

theorem raise_of_empty {c : Core Ram κ σ} {n : Byte} (stored : c.bus.read (c.pc - 2) = n)
    (empty : c.hook? n = none) (fuel : Nat) :
    raise fuel .softwareInterrupt c = .ok () (c.enter .softwareInterrupt) := by
  rw [raise, raiseWith_apply, intercept_of_stored stored, takeHook, empty]

/-- **Where a software interrupt goes.**  Among the calls to the memory there is the store of an
instruction in front of the program counter, and nothing was stored since then at the place of
its number.  Then that number is fetched, whichever instruction set is in force, at no cost and
with no effect.  If there is a hook of that number, it is carried out in the core as it is, but
with its slot empty, and ends the matter, be it by a fault; where it returns, the clock goes on
by what it took and 3 more, the slot holds what the hook has put there or else the hook itself,
and everything else is as the hook has left it.  If there is none, the handler is entered. -/
theorem software_interrupt_dispatched {r : Ram} (power : Ram.isPowerOfTwo r.size = true)
    (room : 2 ≤ r.size) {c : Core Ram κ σ} (i : Instruction) (before later : List Ram.Call)
    (memory : c.bus = (Ram.run (before ++ .access (i.store c.pc) :: later) r).2)
    (kept : ∀ x ∈ later, ∀ s ∈ x.stores, s.1 % r.size ≠ (c.pc - 2).toNat % r.size)
    (fuel : Nat) :
    interruptNumber c = .ok i.number c ∧
      (∀ hook, c.hook? i.number = some hook →
        raise (fuel + 1) .softwareInterrupt c =
          (perform fuel hook >>= fun cycles => modify fun d =>
            (d.restoreHook i.number hook).advance (cycles + 3)) (c.setHook i.number none) ∧
        ∀ cycles d, perform fuel hook (c.setHook i.number none) = .ok cycles d →
          ∃ c', raise (fuel + 1) .softwareInterrupt c = .ok () c' ∧
            Returned i.number hook cycles d c' ∧
            ((∀ k, (Moment.step^[k] (.start (c.setHook i.number none) hook)).calls? i.number =
              none) → c'.hook? i.number = some hook)) ∧
      (c.hook? i.number = none →
        ∃ c', raise fuel .softwareInterrupt c = .ok () c' ∧ Entered .softwareInterrupt c c' ∧
          c'.registers.cell .supervisor 14 = c.pc) := by
  have stored : c.bus.read (c.pc - 2) = i.number :=
    memory ▸ Ram.read_instruction power room i c.pc before later kept
  refine ⟨interruptNumber_eq stored, fun hook filled => ?_, fun empty => ?_⟩
  · have called := raise_of_filled stored filled fuel
    refine ⟨called, fun cycles d performed => ?_⟩
    have returned := returned_restoreHook i.number hook cycles d
    refine ⟨_, ?_, returned, fun untouched => ?_⟩
    · rw [called, bind_apply, performed]
      rfl
    · have slot : (c.setHook i.number none).hook? i.number = none := by
        rw [hook?_setHook, if_pos rfl]
      rw [returned.own, perform_untouched slot untouched performed]
      rfl
  · have entered := entered_enter c .softwareInterrupt
    exact ⟨_, raise_of_empty stored empty fuel, entered,
      entered.link.trans (returnAddress_softwareInterrupt c)⟩

/-- An ARM instruction that was stored over the top of the address space, in an image of two
bytes, with a hook of its number that masks interrupts. -/
theorem software_interrupt_dispatched_in_two_bytes :
    ∃ (c c' : Core Ram SystemControl Unit) (hook : Program SystemControl Unit),
      hook = (.ask (.setIrqDisable true) fun _ => .done 20) ∧ c.pc = 2 ∧ c.bus.size = 2 ∧
      raise 2 .softwareInterrupt c = .ok () c' ∧ c'.clock = c.clock + 23 ∧
      c'.status.irqDisable = true ∧ c'.hook? 9 = some hook := by
  let hook : Program SystemControl Unit := .ask (.setIrqDisable true) fun _ => .done 20
  let r : Ram := ⟨#[0, 0], 0⟩
  let i : Instruction := .arm 0xEF090000
  let c : Core Ram SystemControl Unit :=
    ((new .v5 (Ram.run [.access (i.store 2)] r).2 ()).setPc 2).setHook 9 (some hook)
  have filled : c.hook? i.number = some hook := (hook?_setHook _ _ _ _).trans (if_pos rfl)
  obtain ⟨-, dispatched, -⟩ := software_interrupt_dispatched (r := r) (c := c) (by decide)
    (by decide) i [] [] rfl nofun 1
  obtain ⟨-, left⟩ := dispatched hook filled
  let d : Core Ram SystemControl Unit := (c.setHook 9 none).setIrqDisable true
  obtain ⟨c', raised, returned, installed⟩ := left 20 d rfl
  have untouched : ∀ k, (Moment.step^[k] (.start (c.setHook 9 none) hook)).calls? 9 = none := by
    intro k
    match k with
    | 0 => rfl
    | k + 1 =>
      have finished : (Moment.step (.start (c.setHook 9 none) hook)).Over := .inl ⟨20, rfl, rfl⟩
      rw [Function.iterate_succ_apply, Moment.iterate_step_eq_self finished]
      rfl
  have status : c'.status = d.status := by rw [returned.rest]
  exact ⟨c, c', hook, rfl, rfl, by decide, raised, returned.clock,
    (congrArg Status.irqDisable status).trans (by decide), installed untouched⟩

/-- A hook that empties its slot does not leave it empty. -/
theorem cleared_hook_returns :
    ∃ (c d c' : Core Ram SystemControl Unit) (hook : Program SystemControl Unit),
      hook = (.ask (.clearHook 9) fun _ => .done 20) ∧ c.hook? 9 = some hook ∧
      c.bus = (Ram.run [.access (.write32 (c.pc - 4) 0xEF090000)] ⟨#[0, 0], 0⟩).2 ∧
      perform 1 hook (c.setHook 9 none) = .ok 20 d ∧
      raise 2 .softwareInterrupt c = .ok () c' ∧ d.hook? 9 = none ∧ c'.hook? 9 = some hook := by
  let hook : Program SystemControl Unit := .ask (.clearHook 9) fun _ => .done 20
  let c : Core Ram SystemControl Unit :=
    ((new .v5 (Ram.run [.access (.write32 0xFFFFFFFE 0xEF090000)] ⟨#[0, 0], 0⟩).2 ()).setPc
      2).setHook 9 (some hook)
  have filled : c.hook? 9 = some hook := (hook?_setHook _ _ _ _).trans (if_pos rfl)
  have stored : c.bus.read (c.pc - 2) = 9 := by decide
  have empty : ((c.setHook 9 none).setHook 9 none).hook? 9 = none :=
    (hook?_setHook _ _ _ _).trans (if_pos rfl)
  have raised : raise 2 .softwareInterrupt c =
      .ok () ((((c.setHook 9 none).setHook 9 none).restoreHook 9 hook).advance 23) := by
    rw [raise_of_filled stored filled]
    rfl
  refine ⟨c, _, _, hook, rfl, filled, rfl, rfl, raised, empty, ?_⟩
  exact (hook?_restoreHook _ 9 9 hook).trans (by rw [empty]; rfl)

end Core
end Handheld
