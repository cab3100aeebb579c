/-
# Status words and their settings

A status word is set part by part: its flags, the instruction set, which is another name for one
of the flags, and the mode.  In whatever order that is done, no setting disturbs the part of
another one, and the reserved bits are nobody's part.

The start may be any word, also one with mode bits that are no mode's code.

* `flag_apply`, `modeCode_apply`, `get_apply_of_reserved`: what one setting does to the parts;
* `flag_foldl_apply`, `modeCode_foldl_apply`, `get_foldl_apply_of_reserved`: what any settings do;
* `parts_last_set`: what is then read.
-/
import Handheld.Proofs.Core.Entry
import Handheld.Proofs.Sequences

namespace Handheld
namespace Status

/-! ## 1. Settings -/

/-- The setting of a part of a status word. -/
inductive Setting where
  | flag (f : Flag) (b : Bool)
  | instructionSet (i : InstructionSet)
  | mode (m : Mode)
  deriving DecidableEq

namespace Setting

def apply (s : Status) : Setting → Status
  | flag f b => s.setFlag f b
  | instructionSet i => s.setInstructionSet i
  | mode m => s.setMode m

/-- What is set for flag `f`. -/
def flag? (f : Flag) : Setting → Option Bool
  | flag g b => if f = g then some b else none
  | instructionSet i => if f = .thumb then some (i = .thumb) else none
  | mode _ => none

/-- The mode that is set. -/
def mode? : Setting → Option Mode
  | flag _ _ | instructionSet _ => none
  | mode m => some m

def lastFlag? (f : Flag) (settings : List Setting) : Option Bool :=
  (settings.filterMap (flag? f)).getLast?

def lastMode? (settings : List Setting) : Option Mode := (settings.filterMap mode?).getLast?

end Setting

open Setting

/-- Bits 8 to 26 are no part of a status word. -/
def Reserved (i : Nat) : Prop := 8 ≤ i ∧ i ≤ 26

theorem Reserved.lt {i : Nat} (h : Reserved i) : i < 32 := Nat.lt_of_le_of_lt h.2 (by decide)

/-- The mode that five bits stand for: the one they are the code of, and Supervisor if they are no
mode's code. -/
def StandsFor (code : Word) (m : Mode) : Prop :=
  code = m.code ∨ m = .supervisor ∧ ∀ n : Mode, code ≠ n.code

/-! ## 2. One setting -/

theorem flag_apply (s : Status) (a : Setting) (f : Flag) :
    (a.apply s).flag f = (a.flag? f).getD (s.flag f) := by
  cases a with
  | flag g b =>
    rw [Setting.apply, flag_setFlag, flag?]
    split <;> rfl
  | instructionSet i =>
    have bit : i.bit = decide (i = .thumb) := by cases i <;> rfl
    rw [Setting.apply, setInstructionSet, flag_setFlag, flag?, bit]
    split <;> rfl
  | mode m => exact flag_setMode s m f

theorem modeCode_apply (s : Status) (a : Setting) :
    (a.apply s).modeCode = (a.mode?.map Mode.code).getD s.modeCode := by
  cases a with
  | flag g b => exact modeCode_setFlag s g b
  | instructionSet i => exact modeCode_setFlag s .thumb i.bit
  | mode m => exact modeCode_setMode s m

theorem Flag.not_reserved (f : Flag) : ¬Reserved f.position := by
  rw [Reserved]
  cases f <;> decide

theorem get_setFlag_of_reserved (s : Status) (f : Flag) (b : Bool) {i : Nat} (hi : Reserved i) :
    Bits.get (s.setFlag f b).raw i = Bits.get s.raw i := by
  have other : i ≠ f.position := fun e => f.not_reserved (e ▸ hi)
  rw [get_setFlag s f b hi.lt, if_neg other]

theorem get_apply_of_reserved (s : Status) (a : Setting) {i : Nat} (hi : Reserved i) :
    Bits.get (a.apply s).raw i = Bits.get s.raw i := by
  cases a with
  | flag g b => exact get_setFlag_of_reserved s g b hi
  | instructionSet j => exact get_setFlag_of_reserved s .thumb j.bit hi
  | mode m =>
    -- the mode bits lie below the reserved ones
    have above : ¬i < 5 := Nat.not_lt.mpr (Nat.le_trans (by decide) hi.1)
    rw [Setting.apply, get_setMode s m hi.lt, if_neg above]

/-! ## 3. Any settings -/

theorem flag_foldl_apply (s : Status) (settings : List Setting) (f : Flag) :
    (settings.foldl Setting.apply s).flag f = (lastFlag? f settings).getD (s.flag f) :=
  foldl_eq_getLast? (f := (·.flag f)) (fun s a => flag_apply s a f) settings s

theorem modeCode_foldl_apply (s : Status) (settings : List Setting) :
    (settings.foldl Setting.apply s).modeCode =
      ((lastMode? settings).map Mode.code).getD s.modeCode := by
  rw [foldl_eq_getLast? modeCode_apply, ← List.map_filterMap, List.getLast?_map, lastMode?]

theorem get_foldl_apply_of_reserved (s : Status) (settings : List Setting) {i : Nat}
    (hi : Reserved i) : Bits.get (settings.foldl Setting.apply s).raw i = Bits.get s.raw i := by
  induction settings generalizing s with
  | nil => rfl
  | cons a later ih => rw [List.foldl_cons, ih, get_apply_of_reserved s a hi]

/-! ## 4. What is read -/

theorem mode_eq_iff (s : Status) (m : Mode) : s.mode = m ↔ StandsFor s.modeCode m := by
  have codes := fun n => Mode.ofCode?_eq_some_iff (c := s.modeCode) (m := n)
  rw [mode, StandsFor]
  simp only [ne_eq, ← codes]
  cases Mode.ofCode? s.modeCode with
  | none => simp [eq_comm]
  | some n => simp

theorem instructionSet_eq_thumb_iff (s : Status) :
    s.instructionSet = .thumb ↔ Bits.get s.raw 5 = true := by
  have bit : s.flag .thumb = Bits.get s.raw 5 := rfl
  rw [instructionSet, bit]
  cases Bits.get s.raw 5 <;> simp [InstructionSet.ofBit]

/-- **The parts of a status word are independent.**  After any settings of any word, each flag is
what was set for it last, or else its bit of that word; the instruction set is Thumb exactly if
bit 5 is set; and the mode is the one that was set last, or else the one that the five mode bits
of that word stand for.  The mode bits are changed by setting the mode and by nothing else, and
the reserved bits are never changed. -/
theorem parts_last_set (raw : Word) (settings : List Setting) :
    let s := settings.foldl Setting.apply ⟨raw⟩
    (∀ f : Flag, s.flag f = (lastFlag? f settings).getD (Bits.get raw f.position)) ∧
    (s.instructionSet = .thumb ↔ Bits.get s.raw 5 = true) ∧
    (∀ m, lastMode? settings = some m → s.mode = m) ∧
    (lastMode? settings = none → ∀ m, s.mode = m ↔ StandsFor (raw &&& 0b11111) m) ∧
    s.raw &&& 0b11111 = ((lastMode? settings).map Mode.code).getD (raw &&& 0b11111) ∧
    (∀ a : Setting, (a.apply s).raw &&& 0b11111 ≠ s.raw &&& 0b11111 → ∃ m, a = .mode m) ∧
    ∀ i, Reserved i → Bits.get s.raw i = Bits.get raw i := by
  intro s
  have code : s.modeCode = ((lastMode? settings).map Mode.code).getD (raw &&& 0b11111) :=
    modeCode_foldl_apply ⟨raw⟩ settings
  refine ⟨flag_foldl_apply ⟨raw⟩ settings, instructionSet_eq_thumb_iff s, ?_, ?_, code, ?_, ?_⟩
  · intro m last
    rw [mode_eq_iff, code, last]
    exact .inl rfl
  · intro unset m
    rw [mode_eq_iff, code, unset]
    rfl
  · intro a changed
    cases a with
    | flag f b => exact absurd (modeCode_apply s _) changed
    | instructionSet i => exact absurd (modeCode_apply s _) changed
    | mode m => exact ⟨m, rfl⟩
  · intro i hi
    exact get_foldl_apply_of_reserved ⟨raw⟩ settings hi

/-- Mode bits that are no mode's code stay while the flags are set, one of them by both its names;
then a mode is set. -/
theorem parts_last_set_from_no_mode :
    ∃ s t : Status, s.modeCode = 0b00101 ∧ s.mode = .supervisor ∧ s.flag .carry = true ∧
      s.instructionSet ≠ .thumb ∧ Bits.get s.raw 26 = true ∧
      t.mode = .irq ∧ t.flag .zero = false ∧ t.flag .irqDisable = true := by
  let flags : List Setting :=
    [.flag .thumb true, .flag .carry true, .flag .irqDisable true, .instructionSet .arm]
  obtain ⟨flag, thumb, -, unset, code, -, reserved⟩ := parts_last_set 0x44000045 flags
  obtain ⟨flag', -, set, -⟩ := parts_last_set 0x44000045 (flags ++ [.flag .zero false, .mode .irq])
  have nameless : StandsFor (0x44000045 &&& 0b11111) .supervisor := by
    refine .inr ⟨rfl, ?_⟩
    intro n
    cases n <;> decide
  have arm : ¬Bits.get (flags.foldl Setting.apply ⟨0x44000045⟩).raw 5 = true :=
    ne_of_eq_of_ne (flag .thumb) (by decide)
  exact ⟨_, _, code, (unset rfl .supervisor).mpr nameless, flag .carry, thumb.not.mpr arm,
    reserved 26 ⟨by decide, by decide⟩, set .irq rfl, flag' .zero, flag' .irqDisable⟩

end Status
end Handheld
