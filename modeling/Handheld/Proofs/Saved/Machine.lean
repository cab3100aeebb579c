/-
# The saved parts of the machine

The values that a saved state is put together from, each with its own written form: the register
file, a memory image, a status word, the lines, the pen, and the two kinds of plain names.  None
of them loses anything when it is written: each obeys `LawfulSaved`.

* `pair_eq_some_iff`: a structure is read from spellings of its parts;
* `SavedPart`: the kinds of values, with what is a value of each.
-/
import Handheld.Proofs.Saved.Spelling
import Handheld.Saved.Instances

namespace Handheld

open Document Saved LawfulSaved

/-! ## 1. Numbers and names -/

instance : LawfulSaved Status where
  spells_encode s := spells_encode s.raw
  decode?_eq_some_iff := map_decode?_eq_some_iff fun _ s => by cases s; simp

instance : LawfulSaved Lines where
  spells_encode l := spells_encode l.bits
  decode?_eq_some_iff := map_decode?_eq_some_iff fun _ l => by cases l; simp

instance : LawfulSaved Mode where
  spells_encode m := .text m.name
  decode?_eq_some_iff := bind_choice?_eq_some_iff Mode.ofName?_name

instance : LawfulSaved InstructionSet where
  spells_encode i := .text i.name
  decode?_eq_some_iff := bind_choice?_eq_some_iff fun i => by cases i <;> decide +kernel

/-! ## 2. Structures -/

/-- A structure that is put together from two parts is read from spellings of both. -/
theorem pair_eq_some_iff {α β γ : Type} [Saved α] [LawfulSaved α] [Saved β] [LawfulSaved β]
    {d : Document} {n n' : String} {make : α → β → γ} {first : γ → α} {second : γ → β}
    (made : ∀ a b c, make a b = c ↔ a = first c ∧ b = second c) {c : γ} :
    (do match ← d.parts? [n, n'] with
      | [a, b] => return make (← decode? a) (← decode? b)
      | _ => none) = some c ↔
      d.Spells (.record [(n, encode (first c)), (n', encode (second c))]) := by
  rw [spells_record_iff, Option.bind_eq_bind, Option.bind_eq_some_iff]
  constructor
  · rintro ⟨ds, split, read⟩
    split at read
    · simp only [Option.bind_eq_bind, Option.bind_eq_some_iff, Option.pure_def,
        Option.some.injEq, made] at read
      obtain ⟨a, ha, b, hb, rfl, rfl⟩ := read
      exact ⟨_, split,
        .cons (decode?_eq_some_iff.mp ha) (.cons (decode?_eq_some_iff.mp hb) .nil)⟩
    · cases read
  · rintro ⟨ds, split, parts⟩
    obtain _ | ⟨ha, _ | ⟨hb, _ | _⟩⟩ := parts
    refine ⟨_, split, ?_⟩
    rw [← decode?_eq_some_iff] at ha hb
    simp only [ha, hb, Option.bind_eq_bind, Option.bind_some]
    exact congrArg some ((made _ _ _).mpr ⟨rfl, rfl⟩)

instance : LawfulSaved RegisterFile where
  spells_encode f :=
    .of_nodup (by simp)
      (.cons (spells_encode f.cells) (.cons (spells_encode f.map) .nil))
  decode?_eq_some_iff := pair_eq_some_iff fun _ _ f => by cases f; simp

instance : LawfulSaved Ram where
  spells_encode r :=
    .of_nodup (by simp)
      (.cons (spells_encode r.bytes) (.cons (spells_encode r.waitStates) .nil))
  decode?_eq_some_iff := pair_eq_some_iff fun _ _ r => by cases r; simp

instance : LawfulSaved Pen where
  spells_encode p :=
    .of_nodup (by simp)
      (.cons (.integer _) (.cons (.integer _) (.cons (.bool _) .nil)))
  decode?_eq_some_iff {d p} := by
    show (d.parts? ["x", "y", "down"]).bind _ = some p ↔ d.Spells (.record
      [("x", encodeSigned p.x), ("y", encodeSigned p.y), ("down", encode p.down)])
    rw [spells_record_iff, Option.bind_eq_some_iff]
    constructor
    · rintro ⟨ds, split, read⟩
      split at read
      · simp only [Option.bind_eq_bind, Option.bind_eq_some_iff, Option.pure_def,
          Option.some.injEq] at read
        obtain ⟨x, hx, y, hy, down, hdown, rfl⟩ := read
        exact ⟨_, split, .cons (decodeSigned?_eq_some_iff.mp hx)
          (.cons (decodeSigned?_eq_some_iff.mp hy) (.cons (decode?_eq_some_iff.mp hdown) .nil))⟩
      · cases read
    · rintro ⟨ds, split, parts⟩
      obtain _ | ⟨hx, _ | ⟨hy, _ | ⟨hdown, _ | _⟩⟩⟩ := parts
      refine ⟨_, split, ?_⟩
      rw [← decodeSigned?_eq_some_iff] at hx hy
      rw [← decode?_eq_some_iff] at hdown
      simp only [hx, hy, hdown, Option.bind_eq_bind, Option.bind_some, Option.pure_def]

/-! ## 3. All parts -/

/-- The kinds of values that have a saved form of their own. -/
inductive SavedPart where
  | registerFile | ram | status | lines | pen | mode | instructionSet
  deriving DecidableEq

namespace SavedPart

def Value : SavedPart → Type
  | registerFile => RegisterFile
  | ram => Ram
  | status => Status
  | lines => Lines
  | pen => Pen
  | mode => Mode
  | instructionSet => InstructionSet

instance : (p : SavedPart) → Saved p.Value
  | registerFile => inferInstanceAs (Saved RegisterFile)
  | ram => inferInstanceAs (Saved Ram)
  | status => inferInstanceAs (Saved Status)
  | lines => inferInstanceAs (Saved Lines)
  | pen => inferInstanceAs (Saved Pen)
  | mode => inferInstanceAs (Saved Mode)
  | instructionSet => inferInstanceAs (Saved InstructionSet)

instance : (p : SavedPart) → LawfulSaved p.Value
  | registerFile => inferInstanceAs (LawfulSaved RegisterFile)
  | ram => inferInstanceAs (LawfulSaved Ram)
  | status => inferInstanceAs (LawfulSaved Status)
  | lines => inferInstanceAs (LawfulSaved Lines)
  | pen => inferInstanceAs (LawfulSaved Pen)
  | mode => inferInstanceAs (LawfulSaved Mode)
  | instructionSet => inferInstanceAs (LawfulSaved InstructionSet)

end SavedPart
end Handheld
