/-
# Handlers leave no trace in the program they interrupt

A handler is entered by an exception, works with the private registers of its mode and with
the flags, may be interrupted itself, and goes back by the ordinary return sequence: fetch the
saved status word and the link register, put the status word back, branch to the link.
`Handling S h` is the syntax of such sequences of handlers, built so that none is entered
while its mode is already in use: `S` holds the modes that are still free.

The induction is on that syntax.  What carries it is `Spared`: whatever belongs to a mode
outside `S` is kept, except the private registers of the mode `h` that is at work itself -- and
of those the link register is kept too, because that is where the handler has to go back to.

* `perform_handling`: the interrupted program finds its status word, its registers and its
  saved status word again, and goes on at the program counter it had, moved by what the
  exceptions add to it.
-/
import Handheld.Memory.Ram
import Handheld.Proofs.Core.Coherence
import Mathlib.Data.Finset.Insert
import Mathlib.Data.Finset.Erase

namespace Handheld
namespace Core

variable {β κ σ : Type}

/-! ## 1. The syntax of handling -/

/-- The modes that exceptions enter. -/
def handlerModes : Finset Mode := {.fiq, .irq, .supervisor, .abort, .undefined}

/-- A sequence of handlers that are entered one after the other, by exceptions whose modes are
in the first index, and of what the handler whose mode is the second index, if there is one,
does in between. -/
inductive Handling : Finset Mode → Option Mode → Type where
  | done {S : Finset Mode} {h : Option Mode} : Handling S h
  /-- The exception is raised, its handler does what `body` says, and returns. -/
  | handle {S : Finset Mode} {h : Option Mode} (e : Exception) (free : e.target ∈ S)
    (body : Handling (S.erase e.target) (some e.target)) (rest : Handling S h) : Handling S h
  /-- The handler writes one of its private registers, not the link register. -/
  | write {S : Finset Mode} {m : Mode} (r : Fin 16) (own : RegisterFile.Private m r)
    (notLink : r ≠ RegisterFile.linkRegister) (v : Word) (rest : Handling S (some m)) :
    Handling S (some m)
  | setIrqDisable {S : Finset Mode} {m : Mode} (b : Bool) (rest : Handling S (some m)) :
    Handling S (some m)
  | setFiqDisable {S : Finset Mode} {m : Mode} (b : Bool) (rest : Handling S (some m)) :
    Handling S (some m)
  | setInstructionSet {S : Finset Mode} {m : Mode} (i : InstructionSet)
    (rest : Handling S (some m)) : Handling S (some m)

/-- The return from a handler. -/
def handlerReturn (next : Program κ σ) : Program κ σ :=
  .ask .savedStatus fun saved =>
  .ask (.register RegisterFile.linkRegister) fun link =>
  .ask (.setStatus saved) fun _ =>
  .ask (.branch link .ret) fun _ => next

namespace Handling

variable {S : Finset Mode} {h : Option Mode}

/-- The requests that a handling makes, and what comes after them. -/
def program {S : Finset Mode} {h : Option Mode} : Handling S h → Program κ σ → Program κ σ
  | done, next => next
  | handle e _ body rest, next => .raise e (body.program (handlerReturn (rest.program next)))
  | write r _ _ v rest, next => .ask (.setRegister r v) fun _ => rest.program next
  | setIrqDisable b rest, next => .ask (.setIrqDisable b) fun _ => rest.program next
  | setFiqDisable b rest, next => .ask (.setFiqDisable b) fun _ => rest.program next
  | setInstructionSet i rest, next => .ask (.setInstructionSet i) fun _ => rest.program next

/-- What the outermost exceptions add to the program counter of a program in the given
instruction set. -/
def offset (i : InstructionSet) {S : Finset Mode} {h : Option Mode} : Handling S h → Word
  | done => 0
  | handle e _ _ rest => e.returnOffset i + rest.offset i
  | write _ _ _ _ rest | setIrqDisable _ rest | setFiqDisable _ rest
  | setInstructionSet _ rest => rest.offset i

end Handling

/-! ## 2. What a handling spares -/

/-- The core `c'` has kept of `c` what belongs to the modes outside `S`, except for the private
registers of the mode at work, if that is `h`. -/
structure Spared (S : Finset Mode) (h : Option Mode) (c c' : Core β κ σ) : Prop where
  mode : c'.status.mode = c.status.mode
  cells : ∀ m ∉ S, ∀ r : Fin 16, r ≠ 15 → (h = some m → r = RegisterFile.linkRegister) →
    c'.registers.cell m r = c.registers.cell m r
  saved : ∀ m ∉ S, c'.bankedStatus m = c.bankedStatus m
  hooks : c'.hooks = c.hooks

theorem Spared.refl (S : Finset Mode) (h : Option Mode) (c : Core β κ σ) : Spared S h c c :=
  ⟨rfl, fun _ _ _ _ _ => rfl, fun _ _ => rfl, rfl⟩

theorem Spared.trans {S : Finset Mode} {h : Option Mode} {c₁ c₂ c₃ : Core β κ σ}
    (h₁ : Spared S h c₁ c₂) (h₂ : Spared S h c₂ c₃) : Spared S h c₁ c₃ where
  mode := h₂.mode.trans h₁.mode
  cells m hm r hr hl := (h₂.cells m hm r hr hl).trans (h₁.cells m hm r hr hl)
  saved m hm := (h₂.saved m hm).trans (h₁.saved m hm)
  hooks := h₂.hooks.trans h₁.hooks

/-- Where no mode is at work the more is spared. -/
theorem Spared.weaken {S : Finset Mode} {h : Option Mode} {c c' : Core β κ σ}
    (hk : Spared S none c c') : Spared S h c c' :=
  ⟨hk.mode, fun m hm r hr _ => hk.cells m hm r hr nofun, hk.saved, hk.hooks⟩

theorem spared_bus {S : Finset Mode} {h : Option Mode} (bus : β) (c : Core β κ σ) :
    Spared S h c { c with bus := bus } :=
  ⟨rfl, fun _ _ _ _ _ => rfl, fun _ _ => rfl, rfl⟩

/-- A handler's own private register. -/
theorem spared_write {S : Finset Mode} {m : Mode} {r : Fin 16} (own : RegisterFile.Private m r)
    (notLink : r ≠ RegisterFile.linkRegister) (v : Word) (c : Core β κ σ) :
    Spared S (some m) c { c with registers := c.registers.setCell m r v } := by
  refine ⟨rfl, ?_, fun _ _ => rfl, rfl⟩
  intro n _ s _ hlink
  rw [RegisterFile.cell_setCell, if_neg]
  intro he
  obtain ⟨rfl, rfl⟩ := RegisterFile.cellOf_eq_of_private own he
  exact notLink (hlink rfl)

theorem spared_setFlag {S : Finset Mode} {h : Option Mode} (f : Status.Flag) (b : Bool)
    (c : Core β κ σ) : Spared S h c { c with status := c.status.setFlag f b } :=
  ⟨Status.mode_setFlag _ _ _, fun _ _ _ _ _ => rfl, fun _ _ => rfl, rfl⟩

/-! ## 3. The single requests -/

section Requests

variable [Bus β] [Coprocessor κ]

/-- A request that is answered. -/
theorem carryOut_ask (nested : Nested β κ σ) {r : Request κ σ} {next : r.Reply → Program κ σ}
    {c c' : Core β κ σ} {v : r.Reply} (h : answer r c = .ok v c') :
    carryOut nested (.ask r next) c = carryOut nested (next v) c' := by
  rw [carryOut, bind_apply, h]

/-- Without hooks an exception enters its handler; only the bus may have been read. -/
theorem carryOut_raise (e : Exception) {c : Core β κ σ} (hc : ∀ n, c.hook? n = none) :
    ∃ bus, ∀ (nested : Nested β κ σ) next, carryOut nested (.raise e next) c =
      carryOut nested next ({ c with bus := bus }.enter e) := by
  have taken : ∃ bus, c.intercept e = ({ c with bus := bus }, none) := by
    cases e with
    | softwareInterrupt =>
      have empty : ∀ (bus : β) n, hook? { c with bus := bus } n = none := fun _ n => hc n
      refine ⟨(Bus.read16 c.bus (c.returnAddress .softwareInterrupt - 2)).2, ?_⟩
      simp only [intercept, empty]
    | _ => exact ⟨c.bus, rfl⟩
  obtain ⟨bus, hb⟩ := taken
  exact ⟨bus, fun nested next => by rw [carryOut, bind_apply, raiseWith_apply, hb]⟩

theorem Coherent.answer_setRegister {c : Core β κ σ} (hc : c.Coherent) {r : Fin 16}
    (hr : r ≠ 15) (v : Word) :
    answer (.setRegister r v) c =
      .ok () { c with registers := c.registers.setCell c.status.mode r v } := by
  have hne : r.val ≠ 15 := fun h => hr (Fin.ext h)
  simp only [answer, Core.setRegister, hne, if_false, bind_apply, get_apply,
    hc.shows.set r.isLt]
  rfl

/-- In a mode that has one, the saved status word can be fetched. -/
theorem answer_savedStatus {c : Core β κ σ} {s : Status}
    (h : c.bankedStatus c.status.mode = some s) : answer .savedStatus c = .ok s c := by
  rw [bankedStatus, Option.map_eq_some_iff] at h
  obtain ⟨i, hi, rfl⟩ := h
  simp only [answer, savedStatus, savedSlot, bind_apply, get_apply, hi]
  rfl

/-- **The return from a handler** puts back what its mode keeps: the saved status word, and the
link register as the program counter. -/
theorem carryOut_handlerReturn (nested : Nested β κ σ) (next : Program κ σ) {c : Core β κ σ}
    {s : Status} (hc : c.Coherent) (hs : c.bankedStatus c.status.mode = some s) :
    carryOut nested (handlerReturn next) c =
      carryOut nested next ((c.setStatus s).branch
        (c.registers.cell c.status.mode RegisterFile.linkRegister) .ret) := by
  rw [handlerReturn, carryOut_ask nested (answer_savedStatus hs),
    carryOut_ask nested (hc.answer_register (r := RegisterFile.linkRegister) (by decide))]
  rfl

end Requests

/-! ## 4. A handler from entry to return -/

/-- The link register belongs to the mode that an exception enters. -/
theorem private_link (e : Exception) :
    RegisterFile.Private e.target RegisterFile.linkRegister := by
  cases e with
  | fiq => exact ⟨by decide, by decide⟩
  | _ => exact .inr rfl

/-- Where a handling over `S` by the mode `h` can begin. -/
structure Ready (S : Finset Mode) (h : Option Mode) (c : Core β κ σ) : Prop where
  coherent : c.Coherent
  unhooked : ∀ n, c.hook? n = none
  busy : c.status.mode ∉ S
  own : ∀ m, h = some m → c.status.mode = m

theorem Ready.of_spared {S : Finset Mode} {h : Option Mode} {c c' : Core β κ σ}
    (hc : Ready S h c) (hk : Spared S h c c') (coherent : c'.Coherent) : Ready S h c' := by
  refine ⟨coherent, ?_, ?_, ?_⟩
  · intro n
    rw [hook?, hk.hooks]
    exact hc.unhooked n
  · rw [hk.mode]
    exact hc.busy
  · rw [hk.mode]
    exact hc.own

/-- A handler has what it is entered with at its disposal. -/
theorem ready_enter {c : Core β κ σ} (S : Finset Mode) (e : Exception)
    (unhooked : ∀ n, c.hook? n = none) :
    Ready (S.erase e.target) (some e.target) (c.enter e) := by
  have entered : (c.enter e).status.mode = e.target := by
    rw [enter_eq]
    exact mode_entryStatus _ _
  refine ⟨coherent_enter c e, ?_, ?_, ?_⟩
  · rw [enter_eq]
    exact unhooked
  · rw [entered]
    exact Finset.notMem_erase _ _
  · intro m hm
    rw [entered]
    exact Option.some.inj hm

/-- What a handler finds when it wants to return: the status word and the return address that
its exception has put there, whatever was done by other handlers in between. -/
theorem kept_for_return {S : Finset Mode} {e : Exception} {c c' : Core β κ σ}
    (hk : Spared (S.erase e.target) (some e.target) (c.enter e) c') :
    c'.bankedStatus c'.status.mode = some c.status ∧
      c'.registers.cell c'.status.mode RegisterFile.linkRegister = c.returnAddress e := by
  have hmode : c'.status.mode = e.target := by
    rw [hk.mode, enter_eq]
    exact mode_entryStatus _ _
  have hin : e.target ∉ S.erase e.target := Finset.notMem_erase _ _
  constructor
  · rw [hmode, hk.saved _ hin, bankedStatus_enter, if_pos rfl]
  · rw [hmode, hk.cells _ hin _ (by decide) (fun _ => rfl), cell_enter _ _ _ (by decide),
      if_pos rfl]

/-- Returning, part by part. -/
theorem return_eq (c : Core β κ σ) (s : Status) (a : Word) :
    (c.setStatus s).branch a .ret =
      { c with
        registers := (c.registers.retarget s.mode).setPc a
        status := s
        pc := a
        previousPc := c.pc } := by
  simp only [setStatus, branch, setPc]

/-- A handler that keeps what the modes outside its own share of `S` have, and returns, has
spared `S` as a whole. -/
theorem spared_return {S : Finset Mode} {e : Exception} {c c' : Core β κ σ} (free : e.target ∈ S)
    (hk : Spared (S.erase e.target) (some e.target) (c.enter e) c') (a : Word) :
    Spared S none c ((c'.setStatus c.status).branch a .ret) := by
  have outside : ∀ m ∉ S, m ∉ S.erase e.target ∧ m ≠ e.target := fun m hm =>
    ⟨fun h => hm (Finset.mem_of_mem_erase h), fun h => hm (h ▸ free)⟩
  rw [return_eq]
  refine ⟨rfl, ?_, ?_, ?_⟩
  · intro m hm r hr _
    obtain ⟨hin, hne⟩ := outside m hm
    calc ((c'.registers.retarget c.status.mode).setPc a).cell m r
        = c'.registers.cell m r := by
          rw [RegisterFile.cell_setPc _ m hr, RegisterFile.cell_retarget]
      _ = (c.enter e).registers.cell m r :=
          hk.cells m hin r hr fun h => absurd (Option.some.inj h).symm hne
      _ = c.registers.cell m r := by
          rw [cell_enter _ _ _ hr, if_neg]
          exact fun h => hne (RegisterFile.cellOf_eq_of_private (private_link e) h).1
  · intro m hm
    obtain ⟨hin, hne⟩ := outside m hm
    refine (bankedStatus_congr rfl m).trans ?_
    calc c'.bankedStatus m
        = (c.enter e).bankedStatus m := hk.saved m hin
      _ = c.bankedStatus m := by rw [bankedStatus_enter, if_neg hne]
  · calc c'.hooks
        = (c.enter e).hooks := hk.hooks
      _ = c.hooks := by rw [enter_eq]

section Run

variable [Bus β] [Coprocessor κ]

/-- What carrying out a handling comes to.  At the outermost level the status word is kept as a
whole. -/
structure Handled {S : Finset Mode} {h : Option Mode} (run : Handling S h) (c c' : Core β κ σ) :
    Prop where
  carried : ∀ (nested : Nested β κ σ) next,
    carryOut nested (run.program next) c = carryOut nested next c'
  coherent : c'.Coherent
  spared : Spared S h c c'
  outer : h = none → c'.status = c.status ∧ c'.pc = c.pc + run.offset c.status.instructionSet

variable {S : Finset Mode} {h : Option Mode}

/-- **A handler from entry to return**: the interrupted program finds what it had, and goes on
at the return address of the exception. -/
theorem exists_returned {e : Exception} (free : e.target ∈ S)
    {body : Handling (S.erase e.target) (some e.target)}
    (hbody : ∀ {c : Core β κ σ}, Ready (S.erase e.target) (some e.target) c →
      ∃ c', Handled body c c') {c : Core β κ σ} (hc : Ready S h c) :
    ∃ c', (∀ (nested : Nested β κ σ) next,
        carryOut nested (.raise e (body.program (handlerReturn next))) c =
          carryOut nested next c') ∧
      c'.Coherent ∧ Spared S none c c' ∧ c'.status = c.status ∧ c'.pc = c.returnAddress e := by
  obtain ⟨bus, raised⟩ := carryOut_raise e hc.unhooked
  obtain ⟨c₁, done⟩ := hbody (ready_enter S e (c := { c with bus := bus }) hc.unhooked)
  obtain ⟨saved, link⟩ := kept_for_return done.spared
  refine ⟨(c₁.setStatus c.status).branch (c.returnAddress e) .ret, ?_, ?_, ?_, rfl, rfl⟩
  · intro nested next
    rw [raised, done.carried, carryOut_handlerReturn nested next done.coherent saved, link]
    rfl
  · exact coherent_branch (coherent_setStatus done.coherent.pc c.status).shows _ _
  · exact (spared_bus bus c).trans (spared_return free done.spared _)

/-- One request more in front of a handling. -/
theorem Handled.ask {m : Mode} {run rest : Handling S (some m)} {r : Request κ σ} {v : r.Reply}
    {c c₁ c' : Core β κ σ} (hprogram : ∀ next, run.program next = .ask r fun _ => rest.program next)
    (ha : answer r c = .ok v c₁) (hk : Spared S (some m) c c₁) (done : Handled rest c₁ c') :
    Handled run c c' where
  carried nested next := by rw [hprogram, carryOut_ask nested ha, done.carried]
  coherent := done.coherent
  spared := hk.trans done.spared
  outer := nofun

/-- **Every handling can be carried out**, by induction on its syntax. -/
theorem exists_handled (run : Handling S h) :
    ∀ {c : Core β κ σ}, Ready S h c → ∃ c', Handled run c c' := by
  induction run with
  | done =>
    intro c hc
    exact ⟨c, fun _ _ => rfl, hc.coherent, .refl _ _ _, fun _ => ⟨rfl, by simp [Handling.offset]⟩⟩
  | handle e free body rest ihBody ihRest =>
    intro c hc
    obtain ⟨c₁, returned, hc₁, hk, hstatus, hpc⟩ := exists_returned free ihBody hc
    obtain ⟨c₂, done⟩ := ihRest (hc.of_spared hk.weaken hc₁)
    refine ⟨c₂, ?_, done.coherent, hk.weaken.trans done.spared, ?_⟩
    · intro nested next
      exact (returned nested _).trans (done.carried nested next)
    · intro hn
      obtain ⟨hs, hp⟩ := done.outer hn
      refine ⟨hs.trans hstatus, ?_⟩
      rw [hp, hpc, hstatus, returnAddress, Handling.offset, BitVec.add_assoc]
  | @write S m r own notLink v rest ih =>
    intro c hc
    have hr : r ≠ 15 := by
      rintro rfl
      exact RegisterFile.not_private_fifteen m own
    have written := hc.coherent.answer_setRegister hr v
    rw [hc.own m rfl] at written
    have hk := spared_write (S := S) own notLink v c
    obtain ⟨c', done⟩ := ih (hc.of_spared hk (hc.coherent.setCell hr v))
    exact ⟨c', .ask (fun _ => rfl) written hk done⟩
  | @setIrqDisable S m b rest ih =>
    intro c hc
    have hk := spared_setFlag (S := S) (h := some m) .irqDisable b c
    obtain ⟨c', done⟩ := ih (hc.of_spared hk (hc.coherent.setFlag _ b))
    exact ⟨c', .ask (fun _ => rfl) rfl hk done⟩
  | @setFiqDisable S m b rest ih =>
    intro c hc
    have hk := spared_setFlag (S := S) (h := some m) .fiqDisable b c
    obtain ⟨c', done⟩ := ih (hc.of_spared hk (hc.coherent.setFlag _ b))
    exact ⟨c', .ask (fun _ => rfl) rfl hk done⟩
  | @setInstructionSet S m i rest ih =>
    intro c hc
    have hk := spared_setFlag (S := S) (h := some m) .thumb i.bit c
    obtain ⟨c', done⟩ := ih (hc.of_spared hk (hc.coherent.setFlag _ _))
    exact ⟨c', .ask (fun _ => rfl) rfl hk done⟩

/-- **Handlers leave no trace in the program they interrupt**: at every moment of every session
without hooks, however the handlers are nested and whatever they do with what is theirs, the
program goes on with the status word, the registers and the saved status word it had, and at
the program counter it had, moved by what the outermost exceptions add to it. -/
theorem perform_handling {x : Moment β κ σ} (hx : Reachable x)
    (unhooked : ∀ n, x.core.hook? n = none)
    (run : Handling (handlerModes.erase x.core.status.mode) none) :
    ∃ c', (∀ fuel next, perform fuel (run.program next) x.core = perform fuel next c') ∧
      c'.status = x.core.status ∧
      (∀ r < 15, c'.registers.get r = x.core.registers.get r) ∧
      c'.bankedStatus x.core.status.mode = x.core.bankedStatus x.core.status.mode ∧
      c'.pc = x.core.pc + run.offset x.core.status.instructionSet := by
  have busy : x.core.status.mode ∉ handlerModes.erase x.core.status.mode :=
    Finset.notMem_erase _ _
  have hc := Coherent.of_reachable hx
  have outermost : ∀ {m : Mode} {q : Prop}, none = some m → q := by
    intro m q h
    cases h
  obtain ⟨c', done⟩ := exists_handled run ⟨hc, unhooked, busy, fun _ => outermost⟩
  obtain ⟨hstatus, hpc⟩ := done.outer rfl
  refine ⟨c', fun _ => done.carried _, hstatus, ?_, done.spared.saved _ busy, hpc⟩
  intro r hr
  have hlt : r < 16 := Nat.lt_succ_of_lt hr
  have hne : (⟨r, hlt⟩ : Fin 16) ≠ 15 := fun h => hr.ne (congrArg Fin.val h)
  rw [done.coherent.shows.get, hc.shows.get, hstatus]
  simp only [RegisterFile.getBanked, hlt, dite_true, done.spared.cells _ busy _ hne outermost]

/-- A data abort after an interrupt whose handler is interrupted by a fast one, in a program
that runs with mode bits that no mode has. -/
theorem perform_handling_in_no_mode :
    ∃ (x : Moment Ram SystemControl Unit)
      (run : Handling (handlerModes.erase x.core.status.mode) none)
      (c' : Core Ram SystemControl Unit),
      x.core.status = ⟨0x60000000⟩ ∧ run.offset x.core.status.instructionSet = 12 ∧
      perform 0 (run.program (.done 0)) x.core = .ok 0 c' ∧
      c'.status = ⟨0x60000000⟩ ∧ c'.pc = x.core.pc + 12 := by
  let x : Moment Ram SystemControl Unit := Moment.step^[1]
    (.start (.new .v5 ⟨#[0], 0⟩ ()) (.ask (.setStatus ⟨0x60000000⟩) fun _ => .done 0))
  let run : Handling (handlerModes.erase x.core.status.mode) none :=
    .handle .irq (by decide)
      (.write 13 (.inl rfl) (by decide) 5 <| .setIrqDisable false <|
        .handle .fiq (by decide) (.write 8 ⟨by decide, by decide⟩ (by decide) 7 .done) .done) <|
    .handle .dataAbort (by decide) .done .done
  have reached : Reachable x := (Reachable.new _ _ _ _).iterate 1
  have unhooked : ∀ n, x.core.hook? n = none := fun n => Vector.getElem_replicate n.isLt
  have moved : run.offset x.core.status.instructionSet = 12 := by decide
  obtain ⟨c', runs, hstatus, -, -, hpc⟩ := perform_handling reached unhooked run
  exact ⟨x, run, c', rfl, moved, runs 0 _, hstatus, by rw [hpc, moved]⟩

end Run

end Core
end Handheld
