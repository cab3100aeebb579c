/-
# The table of hooks

A hook is called out of its slot, and goes back there when it returns unless the slot was
filled meanwhile.  While it is at work its slot is empty, whatever it is used for: so what a
slot stands for is what is in it, or else the innermost hook at work that was taken from it.

That is kept by calling a hook and by its return, and an installation changes it to the new
hook.  A clearing changes it too, but only where no hook of the slot is at work: the hook that
is comes back all the same.

* `Moves.owner?_eq`: what one move does to what a slot stands for;
* `hooks_last_call`: when no hook is at work, a slot holds what the last call on it left there.
-/
import Handheld.Memory.Ram
import Handheld.Proofs.Core.Parts
import Handheld.Proofs.Core.Runs

namespace Handheld
namespace Core

variable {β κ σ : Type}

/-! ## 1. Slots and the hooks at work -/

def Frame.hook? : Frame κ σ → Option (Byte × Program κ σ)
  | hook n called _ => some (n, called)
  | stepper _ _ => none

namespace Moment

/-- The hooks at work with the slots they were taken from, innermost first. -/
def atWork (x : Moment β κ σ) : List (Byte × Program κ σ) := x.stack.filterMap Frame.hook?

/-- The innermost hook at work that was taken from slot `n`. -/
def inner? (x : Moment β κ σ) (n : Byte) : Option (Program κ σ) := x.atWork.lookup n

/-- What slot `n` stands for. -/
def owner? (x : Moment β κ σ) (n : Byte) : Option (Program κ σ) := (x.core.hook? n).or (x.inner? n)

/-- What the next thing is called to make of slot `n`: to install a hook, or to clear it. -/
def calls? (x : Moment β κ σ) (n : Byte) : Option (Option (Program κ σ)) :=
  match x.control with
  | .program (.install i hook _) => if i = n then some (some hook) else none
  | .program (.ask (.clearHook i) _) => if i = n then some none else none
  | _ => none

/-- What the call comes to: where a hook of the slot is at work, clearing is in vain. -/
def leaves? (x : Moment β κ σ) (n : Byte) : Option (Option (Program κ σ)) :=
  (x.calls? n).map (·.or (x.inner? n))

end Moment

/-- Every hook returns: after a fault, no hook is left behind by going on where it was called. -/
def HooksReturn (path : Nat → Moment β κ σ) : Prop :=
  ∀ i e, (path i).control = .stopped e → (path (i + 1)).atWork = (path i).atWork

/-! ## 2. Single operations -/

theorem hook?_new [Bus β] (revision : Revision) (bus : β) (surroundings : σ) (n : Byte) :
    (new revision bus surroundings : Core β κ σ).hook? n = none := by
  rw [hook?, new, Vector.getElem_replicate]

theorem hook?_of_keepsExcept {parts : List Part} {c c' : Core β κ σ}
    (kept : KeepsExcept parts c c') (untouched : .hooks ∉ parts) (n : Byte) :
    c'.hook? n = c.hook? n := by
  have same : c'.hooks = c.hooks := kept .hooks untouched
  rw [hook?, hook?, same]

theorem lookup_cons {α : Type} (i n : Byte) (a : α) (l : List (Byte × α)) :
    ((i, a) :: l).lookup n = if i = n then some a else l.lookup n := by
  by_cases h : i = n
  · simp [h]
  · have other : (n == i) = false := beq_false_of_ne (Ne.symm h)
    simp [List.lookup_cons, other, h]

/-- A hook goes back into its slot only if that is empty. -/
theorem hook?_restoreHook (c : Core β κ σ) (i n : Byte) (hook : Program κ σ) :
    (c.restoreHook i hook).hook? n = (c.hook? n).or (if i = n then some hook else none) := by
  rw [restoreHook]
  by_cases h : i = n
  · subst h
    cases hi : c.hook? i with
    | some filled => simp [hi]
    | none => simp [hook?_setHook]
  · cases hi : c.hook? i with
    | some filled => simp [h]
    | none => simp [h, hook?_setHook]

/-- A hook that is taken out of its slot is at work. -/
theorem hook?_takeHook (c : Core β κ σ) (i n : Byte) :
    ((c.takeHook i).1.hook? n).or ((c.takeHook i).2.toList.lookup n) = c.hook? n := by
  rw [takeHook]
  cases hi : c.hook? i with
  | none => simp
  | some hook =>
    by_cases h : i = n
    · subst h
      simp [hook?_setHook, hi]
    · simp [hook?_setHook, h, lookup_cons]

theorem hook?_intercept [Bus β] (c : Core β κ σ) (e : Exception) (n : Byte) :
    ((c.intercept e).1.hook? n).or ((c.intercept e).2.toList.lookup n) = c.hook? n := by
  cases e with
  | softwareInterrupt =>
    rw [intercept_softwareInterrupt]
    exact hook?_takeHook { c with bus := _ } _ n
  | _ => simp [intercept]

/-! ## 3. What a move does to a slot -/

namespace Moment

variable {x y : Moment β κ σ} (n : Byte)

theorem owner?_of_eq (slot : y.core.hook? n = x.core.hook? n) (work : y.atWork = x.atWork) :
    y.owner? n = x.owner? n := by
  rw [owner?, owner?, inner?, inner?, slot, work]

/-- Where no call is made on a slot, nothing is left there. -/
theorem leaves?_eq_none (h : x.calls? n = none) : x.leaves? n = none := by
  rw [leaves?, h, Option.map_none]

/-- Where a call on slot `i` has put `hook` there, or has emptied it. -/
theorem owner?_of_setHook {i : Byte} {hook : Option (Program κ σ)}
    (calls : x.calls? n = if i = n then some hook else none)
    (done : y.core = x.core.setHook i hook) (work : y.atWork = x.atWork) :
    y.owner? n = (x.leaves? n).getD (x.owner? n) := by
  rw [owner?, owner?, inner?, work, done, hook?_setHook, leaves?, calls, inner?]
  split <;> rfl

variable [Bus β] [Coprocessor κ] (c : Core β κ σ) (K : List (Frame κ σ))

/-- The answer to a request calls nobody, and nobody returns. -/
theorem atWork_step_ask (r : Request κ σ) (next : r.Reply → Program κ σ) :
    (step ⟨c, .program (.ask r next), K⟩).atWork = atWork ⟨c, .program (.ask r next), K⟩ := by
  simp only [step]
  split <;> rfl

/-- Only a stepper is called at the head of a round. -/
theorem atWork_step_round (s next : Program κ σ) :
    (step ⟨c, .round s next, K⟩).atWork = atWork ⟨c, .round s next, K⟩ := by
  simp only [step]
  split <;> rfl

/-- A hook that returns changes nothing: either it goes back into its slot, or another is there. -/
theorem owner?_step_return (i : Byte) (hook next : Program κ σ) (cycles : Int) :
    (step ⟨c, .program (.done cycles), .hook i hook next :: K⟩).owner? n =
      owner? ⟨c, .program (.done cycles), .hook i hook next :: K⟩ n := by
  have slot : ((c.restoreHook i hook).advance (cycles + entryCycles)).hook? n =
      (c.hook? n).or (if i = n then some hook else none) := hook?_restoreHook c i n hook
  simp only [owner?, step, slot, inner?, atWork, List.filterMap_cons, Frame.hook?, lookup_cons,
    Option.or_assoc]
  split <;> rfl

/-- Raising an exception may take a hook out of its slot, but then puts it to work. -/
theorem owner?_step_raise (e : Exception) (next : Program κ σ) :
    (step ⟨c, .program (.raise e next), K⟩).owner? n =
      owner? ⟨c, .program (.raise e next), K⟩ n := by
  have taken := hook?_intercept c e n
  rcases hi : c.intercept e with ⟨c', _ | ⟨i, hook⟩⟩
  · have slot : (c'.enter e).hook? n = c.hook? n := by
      rw [hook?_of_keepsExcept (keepsExcept_enter c' e) (of_decide_eq_false rfl), ← taken, hi]
      exact Option.or_none.symm
    simp only [step, hi]
    exact owner?_of_eq n slot rfl
  · rw [hi] at taken
    simp only [step, hi, owner?, inner?, atWork, List.filterMap_cons, Frame.hook?, ← taken,
      Option.toList_some, lookup_cons, Option.or_assoc, List.lookup_nil]
    split <;> rfl

/-- **What one step does to what a slot stands for.** -/
theorem owner?_step (x : Moment β κ σ) : x.step.owner? n = (x.leaves? n).getD (x.owner? n) := by
  have kept := x.step_keeps
  have untouched : .hooks ∉ x.control.parts → x.calls? n = none → x.step.atWork = x.atWork →
      x.step.owner? n = (x.leaves? n).getD (x.owner? n) := by
    intro slots idle work
    rw [leaves?_eq_none n idle]
    exact owner?_of_eq n (hook?_of_keepsExcept kept slots n) work
  obtain ⟨c, control, K⟩ := x
  match control with
  | .stopped e => exact untouched (of_decide_eq_false rfl) rfl rfl
  | .round s next => exact untouched (of_decide_eq_false rfl) rfl (atWork_step_round c K s next)
  | .program (.done cycles) =>
    cases K with
    | nil => rfl
    | cons F K =>
      cases F with
      | hook i hook next => exact owner?_step_return n c K i hook next cycles
      | stepper s next => rfl
  | .program (.ask r next) =>
    have work := atWork_step_ask c K r next
    cases r with
    | clearHook i => exact owner?_of_setHook n rfl rfl work
    | _ => exact untouched (of_decide_eq_false rfl) rfl work
  | .program (.install i hook next) => exact owner?_of_setHook n rfl rfl rfl
  | .program (.raise e next) => exact owner?_step_raise n c K e next
  | .program (.run limit s next) | .program (.consult next)
  | .program (.update change next) => exact untouched (of_decide_eq_false rfl) rfl rfl

end Moment

variable [Bus β] [Coprocessor κ] {x y : Moment β κ σ}

/-- The same for every move that takes no hook from work. -/
theorem Moves.owner?_eq (h : Moves x y)
    (returns : ∀ e, x.control = .stopped e → y.atWork = x.atWork) (n : Byte) :
    y.owner? n = (x.leaves? n).getD (x.owner? n) := by
  cases h with
  | step => exact x.owner?_step n
  | resume c m p => rfl
  | recover c e K L p =>
    rw [Moment.leaves?_eq_none n rfl]
    exact Moment.owner?_of_eq n rfl (returns e rfl)

/-! ## 4. Sessions -/

variable {path : Nat → Moment β κ σ} {revision : Revision} {bus : β} {surroundings : σ}
  {p : Program κ σ}

/-- A slot stands for what the last call on it left there. -/
theorem owner?_eq_lastGiven (hp : Path path)
    (h0 : path 0 = .start (.new revision bus surroundings) p) (returns : HooksReturn path)
    (n : Byte) (i : Nat) : (path i).owner? n = (lastGiven (·.leaves? n) path i).join := by
  have unused : (path 0).owner? n = none := by
    rw [h0]
    exact Option.or_none.trans (hook?_new revision bus surroundings n)
  have last := eq_lastGiven (·.leaves? n) (·.owner? n)
    (fun k => (hp k).owner?_eq (returns k) n) i
  rw [last, unused]
  cases lastGiven (·.leaves? n) path i <;> rfl

/-- **When no hook is at work, a slot holds what the last call on it left there**, wherever that
call was made: the hook that was installed, or nothing if the slot was cleared or never used.
But where the slot was cleared while a hook of its own was at work, that one came back. -/
theorem hooks_last_call (hp : Path path)
    (h0 : path 0 = .start (.new revision bus surroundings) p) (returns : HooksReturn path)
    {i : Nat} (idle : (path i).atWork = []) (n : Byte) :
    (path i).core.hook? n = (lastGiven (·.leaves? n) path i).join ∧
      ((∀ k < i, (path k).calls? n = some none → (path k).inner? n = none) →
        (path i).core.hook? n = (lastGiven (·.calls? n) path i).join) := by
  have slot : (path i).core.hook? n = (lastGiven (·.leaves? n) path i).join := by
    rw [← owner?_eq_lastGiven hp h0 returns, Moment.owner?, Moment.inner?, idle]
    exact Option.or_none.symm
  refine ⟨slot, fun cleared_outside => ?_⟩
  rw [slot]
  congr 1
  apply lastGiven_congr
  intro k hk
  rw [Moment.leaves?]
  match called : (path k).calls? n with
  | none => rfl
  | some (some hook) => rfl
  | some none => rw [Option.map_some, cleared_outside k hk called, Option.or_none]

/-- While only steps are made, every hook returns. -/
theorem hooksReturn_iterate (x : Moment β κ σ) : HooksReturn fun i => Moment.step^[i] x := by
  intro i e stopped
  simp only [Function.iterate_succ_apply']
  rw [Moment.step_eq_self (.inr ⟨e, stopped⟩)]

/-- A hook that puts another in its place and calls that before it returns. -/
theorem hooks_last_call_after_replacement :
    ∃ path : Nat → Moment Ram SystemControl Unit, Path path ∧ HooksReturn path ∧
      (path 4).atWork.length = 2 ∧ (path 6).atWork = [] ∧
      (path 6).core.hook? 0 = some (.done 2) := by
  let path : Nat → Moment Ram SystemControl Unit := fun i => Moment.step^[i]
    (.start (.new .v5 ⟨#[0], 0⟩ ()) <|
      .install 0 (.install 0 (.done 2) (.raise .softwareInterrupt (.done 1))) <|
        .raise .softwareInterrupt (.done 0))
  have moves : Path path := path_iterate _
  have returns : HooksReturn path := hooksReturn_iterate _
  have uncleared : ∀ k < 6, (path k).calls? 0 = some none → (path k).inner? 0 = none := by
    intro k hk cleared
    match k, hk with
    | 0, _ | 1, _ | 2, _ | 3, _ | 4, _ | 5, _ => cases cleared
  have slot := (hooks_last_call moves rfl returns (i := 6) rfl 0).2 uncleared
  exact ⟨path, moves, returns, rfl, rfl, slot⟩

/-- A hook that clears its slot is there again when it has returned. -/
theorem hook_back_after_clearing_itself :
    ∃ path : Nat → Moment Ram SystemControl Unit, Path path ∧ HooksReturn path ∧
      path 0 = .start (.new .v5 ⟨#[0], 0⟩ ()) (.install 0 (.ask (.clearHook 0) fun _ => .done 1) <|
        .raise .softwareInterrupt (.done 0)) ∧
      (path 4).atWork = [] ∧ (lastGiven (·.calls? 0) path 4).join = none ∧
      ((path 4).core.hook? 0).isSome := by
  let path : Nat → Moment Ram SystemControl Unit := fun i => Moment.step^[i]
    (.start (.new .v5 ⟨#[0], 0⟩ ()) <| .install 0 (.ask (.clearHook 0) fun _ => .done 1) <|
      .raise .softwareInterrupt (.done 0))
  exact ⟨path, path_iterate _, hooksReturn_iterate _, rfl, rfl, rfl, rfl⟩

end Core
end Handheld
