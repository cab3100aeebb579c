/-
# Register files that are saved and loaded

A register file is used step by step: its registers are accessed, it is written as a document,
and it is replaced by what another document says.  A file that comes back from a document is the
one that was written.  But the map of a file is read as any sixteen bytes, so it may come from a
document that no mode accounts for: two registers may then share a slot, or have none at all.

* `saved_state_loses_nothing`: every part of a saved state, and what a reloaded file answers;
* `map_after`: after any steps the map is the one that was given last;
* `faithful_iff_sound`: the registers of a file are apart if their slots are;
* `loaded_faithful_iff`: what becomes of a file that was loaded.
-/
import Handheld.Proofs.Saved.Machine
import Handheld.Proofs.Core.RegisterHistory

namespace Handheld
namespace RegisterFile

open Saved LawfulSaved

/-! ## 1. Steps and their answers -/

inductive Step where
  | access (a : Access)
  | save
  | load (d : Document)

inductive Answer where
  | value (v : Word)
  | done
  | refused (fault : Fault)
  | saved (d : Document)
  | loaded (accepted : Bool)

def Access.answer (f : RegisterFile) : Access → Answer
  | read p => match p.read f with
    | .ok v => .value v
    | .error e => .refused e
  | write p v => match p.write f v with
    | .ok _ => .done
    | .error e => .refused e
  | retarget _ => .done

namespace Step

def answer (f : RegisterFile) : Step → Answer
  | access a => a.answer f
  | save => .saved (encode f)
  | load d => .loaded (f.restore d).1

def apply (f : RegisterFile) : Step → RegisterFile
  | access a => a.apply f
  | save => f
  | load d => (f.restore d).2

end Step

def answers (f : RegisterFile) : List Step → List Answer
  | [] => []
  | s :: later => s.answer f :: answers (s.apply f) later

def afterSteps (f : RegisterFile) (steps : List Step) : RegisterFile :=
  steps.foldl Step.apply f

variable {f g : RegisterFile} {d : Document}

theorem restore_of_accepted (accepted : decode? d = some f) (g : RegisterFile) :
    g.restore d = (true, f) := by
  rw [restore, accepted]

theorem restore_of_refused (refused : (decode? d : Option RegisterFile) = none)
    (g : RegisterFile) : g.restore d = (false, g) := by
  rw [restore, refused]

/-- **A saved state loses nothing.**  Every value of every part is read back from what it is
written as.  The documents that are read as a value are the spellings of what it is written as,
so that other fields are dropped, and such a value is read back as well.  A file that was loaded
from what another one saved answers all later steps like that one; a document that is refused
makes no difference to the file. -/
theorem saved_state_loses_nothing :
    (∀ (p : SavedPart) (v : p.Value), decode? (encode v) = some v) ∧
    (∀ (p : SavedPart) (d : Document) (v : p.Value),
      (decode? d = some v ↔ d.Spells (encode v)) ∧
      (decode? d = some v → decode? (encode v) = some v)) ∧
    (∀ f : RegisterFile, ∃ d, ∀ (g : RegisterFile) (steps : List Step),
      f.answers (.save :: steps) = .saved d :: f.answers steps ∧
      g.answers (.load d :: steps) = .loaded true :: f.answers steps) ∧
    (∀ (f : RegisterFile) (d : Document), (decode? d : Option RegisterFile) = none →
      (Step.load d).apply f = f ∧
      ∀ steps, f.answers (.load d :: steps) = .loaded false :: f.answers steps) := by
  refine ⟨fun p v => decode?_encode v, ?_, ?_, ?_⟩
  · intro p d v
    exact ⟨decode?_eq_some_iff, fun _ => decode?_encode v⟩
  · intro f
    refine ⟨encode f, ?_⟩
    intro g steps
    have back : g.restore (encode f) = (true, f) := restore_of_accepted (decode?_encode f) g
    refine ⟨rfl, ?_⟩
    simp only [answers, Step.answer, Step.apply, back]
  · intro f d refused
    have kept : f.restore d = (false, f) := restore_of_refused refused f
    simp only [answers, Step.answer, Step.apply, kept, implies_true, and_self]

/-- A pen whose fields come in another order, with one too many, and a file with its map given
twice. -/
theorem saved_state_loses_nothing_reordered :
    ∃ (d e : Document) (p : Pen), decode? d = some p ∧ d.Spells (encode p) ∧
      decode? (encode p) = some p ∧ (Step.load e).apply (new .fiq) = new .fiq := by
  let d : Document := .record
    [("down", .bool true), ("pressure", .integer 3), ("y", .integer (-1)), ("x", .integer 192)]
  let e : Document := .record [("physical", encode (new .irq).cells),
    ("map", encode (new .irq).map), ("map", encode (new .irq).map)]
  have read : decode? d = some (⟨192, -1, true⟩ : Pen) := by rfl
  obtain ⟨-, same, -, kept⟩ := saved_state_loses_nothing
  obtain ⟨spelled, again⟩ := same .pen d ⟨192, -1, true⟩
  exact ⟨d, e, _, read, spelled.mp read, again read, (kept (new .fiq) e rfl).1⟩

/-! ## 2. The map that was given last -/

/-- What writing a visible register does when it is granted. -/
theorem set_eq_ok_iff {r : Nat} {v : Word} :
    f.set r v = .ok g ↔ ∃ (hr : r < 16) (stored : f.map[r].toNat < 31),
      { f with cells := f.cells.set f.map[r].toNat v } = g := by
  by_cases hr : r < 16
  · by_cases stored : f.map[r].toNat < 31
    · simp only [RegisterFile.set, hr, stored, dite_true, Except.ok.injEq, exists_true_left]
    · simp only [RegisterFile.set, hr, stored, dite_true, dite_false, reduceCtorEq,
        exists_true_left, IsEmpty.exists_iff]
  · simp only [RegisterFile.set, hr, dite_false, reduceCtorEq, IsEmpty.exists_iff]

/-- Writing does not touch the map. -/
theorem map_of_write {p : Place} {v : Word} (written : p.write f v = .ok g) : g.map = f.map := by
  cases p with
  | visible i =>
    obtain ⟨-, -, rfl⟩ := set_eq_ok_iff.mp written
    rfl
  | banked m i =>
    simp only [Place.write, setBanked] at written
    split at written
    · cases written
      rfl
    · cases written
  | programCounter =>
    cases written
    rfl

/-- The map that a step gives to the file, if it gives one. -/
def Step.map? : Step → Option (Vector Byte 16)
  | access (.retarget m) => some (layout m)
  | access (.read _) | access (.write _ _) | save => none
  | load d => (decode? d : Option RegisterFile).map (·.map)

/-- The map that was given last, if `map` was there before. -/
def lastMap (map : Vector Byte 16) (steps : List Step) : Vector Byte 16 :=
  steps.foldl (fun map s => s.map?.getD map) map

/-- A step that gives no map leaves the one that is there, even if it is refused. -/
theorem map_apply (f : RegisterFile) (s : Step) : (s.apply f).map = s.map?.getD f.map := by
  cases s with
  | access a =>
    cases a with
    | read p => rfl
    | write p v =>
      simp only [Step.apply, Access.apply, Step.map?, Option.getD_none]
      split
      · rename_i written
        exact map_of_write written
      · rfl
    | retarget m => rfl
  | save => rfl
  | load d =>
    simp only [Step.apply, Step.map?]
    cases read : (decode? d : Option RegisterFile) with
    | none => rw [restore_of_refused read, Option.map_none, Option.getD_none]
    | some h => rw [restore_of_accepted read, Option.map_some, Option.getD_some]

/-- By induction on the steps: each leaves the map that it gives, or else the one before it. -/
theorem map_after (f : RegisterFile) (steps : List Step) :
    (f.afterSteps steps).map = lastMap f.map steps := by
  induction steps generalizing f with
  | nil => rfl
  | cons s later ih =>
    show (afterSteps (s.apply f) later).map = lastMap (s.map?.getD f.map) later
    rw [ih, map_apply]

/-! ## 3. Slots and registers -/

/-- Each register can be read, and be written without a change to another. -/
structure Faithful (f : RegisterFile) : Prop where
  readable {r : Nat} (hr : r ≤ 15) : ∃ v, f.get r = .ok v
  apart {r : Nat} (hr : r ≤ 15) (v : Word) :
    ∃ g, f.set r v = .ok g ∧ ∀ s ≤ 15, s ≠ r → g.get s = f.get s

/-- Each register has a slot of its own. -/
structure Sound (map : Vector Byte 16) : Prop where
  stored (r : Fin 16) : (map.get r).toNat < 31
  distinct {r s : Fin 16} (shared : map.get r = map.get s) : r = s

theorem get_eq_ok_iff {r : Nat} {v : Word} :
    f.get r = .ok v ↔ ∃ (hr : r < 16) (stored : f.map[r].toNat < 31),
      f.cells[f.map[r].toNat] = v := by
  by_cases hr : r < 16
  · by_cases stored : f.map[r].toNat < 31
    · simp only [RegisterFile.get, hr, stored, dite_true, Except.ok.injEq, exists_true_left]
    · simp only [RegisterFile.get, hr, stored, dite_true, dite_false, reduceCtorEq,
        exists_true_left, IsEmpty.exists_iff]
  · simp only [RegisterFile.get, hr, dite_false, reduceCtorEq, IsEmpty.exists_iff]

/-- A register that is written shows in those that share its slot. -/
theorem get_of_set {r s : Nat} {v : Word} (written : f.set r v = .ok g) (hr : r < 16)
    (hs : s < 16) : g.get s = if f.map[r] = f.map[s] then .ok v else f.get s := by
  obtain ⟨-, stored, rfl⟩ := set_eq_ok_iff.mp written
  split
  · rename_i shared
    refine get_eq_ok_iff.mpr ⟨hs, shared ▸ stored, ?_⟩
    simp only [← shared, Vector.getElem_set_self]
  · rename_i apart
    have slots : f.map[r].toNat ≠ f.map[s].toNat := fun same => apart (BitVec.eq_of_toNat_eq same)
    simp only [RegisterFile.get, hs, dite_true, Vector.getElem_set_ne _ _ slots]

theorem Sound.faithful (sound : Sound f.map) : f.Faithful where
  readable {r} hr :=
    have hr := Nat.lt_succ_of_le hr
    ⟨_, get_eq_ok_iff.mpr ⟨hr, sound.stored ⟨r, hr⟩, rfl⟩⟩
  apart {r} hr v := by
    have hr := Nat.lt_succ_of_le hr
    have stored : f.map[r].toNat < 31 := sound.stored ⟨r, hr⟩
    have written : f.set r v = .ok _ := set_eq_ok_iff.mpr ⟨hr, stored, rfl⟩
    refine ⟨_, written, ?_⟩
    intro s hs other
    have hs := Nat.lt_succ_of_le hs
    have apart : f.map[r] ≠ f.map[s] := fun shared =>
      other (Fin.mk.inj (sound.distinct (r := ⟨s, hs⟩) (s := ⟨r, hr⟩) shared.symm))
    rw [get_of_set written hr hs, if_neg apart]

/-- A register whose slot another one has is written with it: what it holds is written over. -/
theorem Faithful.sound (faithful : f.Faithful) : Sound f.map where
  stored r := by
    obtain ⟨v, read⟩ := faithful.readable (Nat.le_of_lt_succ r.isLt)
    obtain ⟨_, stored, _⟩ := get_eq_ok_iff.mp read
    exact stored
  distinct {r s} shared := by
    by_contra other
    -- something else than `s` holds is written to `r`, and would have to show in `s`
    obtain ⟨v, read⟩ := faithful.readable (Nat.le_of_lt_succ s.isLt)
    obtain ⟨g, written, apart⟩ := faithful.apart (Nat.le_of_lt_succ r.isLt) (v + 1)
    have unchanged := apart s (Nat.le_of_lt_succ s.isLt) fun same => other (Fin.ext same.symm)
    have shared : f.map[r.val] = f.map[s.val] := shared
    rw [get_of_set written r.isLt s.isLt, if_pos shared, read, Except.ok.injEq] at unchanged
    bv_omega

theorem faithful_iff_sound : f.Faithful ↔ Sound f.map := ⟨Faithful.sound, Sound.faithful⟩

/-- Every mode has its registers in slots of their own. -/
theorem sound_layout (m : Mode) : Sound (layout m) where
  stored r := by
    show (layout m)[r.val].toNat < 31
    rw [toNat_layout m r.isLt]
    exact cellNumber_lt m r.isLt
  distinct {r s} shared := by
    have same : cellNumber m r = cellNumber m s := by
      rw [← toNat_layout m r.isLt, ← toNat_layout m s.isLt]
      exact congrArg BitVec.toNat shared
    apply Fin.ext
    cases m <;> simp only [cellNumber, privateBank] at same <;> (repeat' split at same) <;> omega

/-! ## 4. Files that were loaded -/

/-- The map stays sound while what is loaded is. -/
theorem Sound.lastMap {map : Vector Byte 16} (sound : Sound map) {steps : List Step}
    (loads : ∀ (e : Document) (h : RegisterFile), .load e ∈ steps → decode? e = some h →
      Sound h.map) :
    Sound (lastMap map steps) := by
  induction steps generalizing map with
  | nil => exact sound
  | cons s later ih =>
    show Sound (RegisterFile.lastMap (s.map?.getD map) later)
    refine ih ?_ fun e h loaded => loads e h (.tail _ loaded)
    cases s with
    | access a =>
      cases a with
      | read p | write p v => exact sound
      | retarget m => exact sound_layout m
    | save => exact sound
    | load e =>
      cases read : (decode? e : Option RegisterFile) with
      | none => simpa only [Step.map?, read, Option.map_none, Option.getD_none] using sound
      | some h =>
        simpa only [Step.map?, read, Option.map_some, Option.getD_some] using
          loads e h (.head _) read

theorem lastMap_retarget (map : Vector Byte 16) (steps : List Step) (m : Mode) :
    lastMap map (steps ++ [.access (.retarget m)]) = layout m := by
  simp only [lastMap, List.foldl_append, List.foldl_cons, List.foldl_nil, Step.map?,
    Option.getD_some]

/-- **What becomes of a file that was loaded.**  After any steps its registers are apart exactly
if the map that was given last has a slot for each; that is so while every document that is
loaded brings such a map, and after every change of the mode, whatever was loaded before. -/
theorem loaded_faithful_iff (accepted : decode? d = some f) (g : RegisterFile)
    (steps : List Step) :
    ((g.afterSteps (.load d :: steps)).Faithful ↔ Sound (lastMap f.map steps)) ∧
    (Sound f.map →
      (∀ (e : Document) (h : RegisterFile), .load e ∈ steps → decode? e = some h →
        Sound h.map) →
      (g.afterSteps (.load d :: steps)).Faithful) ∧
    ∀ m, (g.afterSteps (.load d :: (steps ++ [.access (.retarget m)]))).Faithful := by
  have loaded (later : List Step) :
      (g.afterSteps (.load d :: later)).map = lastMap f.map later := by
    have back : (Step.load d).apply g = f := congrArg Prod.snd (restore_of_accepted accepted g)
    show (afterSteps ((Step.load d).apply g) later).map = _
    rw [back, map_after]
  simp only [faithful_iff_sound, loaded, lastMap_retarget, true_and]
  exact ⟨fun sound loads => sound.lastMap loads, sound_layout⟩

/-- The file that a document with this map is read as, all zero. -/
def zeroed (map : Vector Byte 16) : RegisterFile := ⟨Vector.replicate 31 0, map⟩

/-- Registers 0 and 1 of a loaded file share a slot until the mode is changed or a file is loaded
that was saved in a mode. -/
theorem loaded_faithful_iff_shared :
    ∃ (d e : Document) (f : RegisterFile), decode? d = some f ∧
      ¬ ((new .user).afterSteps [.load d, .save]).Faithful ∧
      ((new .user).afterSteps [.load d, .save, .access (.retarget .fiq)]).Faithful ∧
      ((new .user).afterSteps [.load e, .load e]).Faithful := by
  let f := zeroed #v[0, 0, 2, 3, 4, 5, 6, 7, 8, 9, 10, 11, 12, 13, 14, 15]
  have accepted := decode?_encode f
  obtain ⟨exactly, -, repaired⟩ := loaded_faithful_iff accepted (new .user) [.save]
  let e := encode (new .irq)
  have again : decode? e = some (new .irq) := decode?_encode _
  obtain ⟨-, lasting, -⟩ := loaded_faithful_iff again (new .user) [.load e]
  refine ⟨encode f, e, f, accepted, ?_, repaired .fiq, lasting (sound_layout .irq) ?_⟩
  · intro faithful
    have same : (0 : Fin 16) = 1 := (exactly.mp faithful).distinct rfl
    exact absurd same (by decide)
  · intro e' h loaded read
    obtain rfl : e' = e := by simpa using loaded
    obtain rfl : new .irq = h := Option.some.inj (again.symm.trans read)
    exact sound_layout .irq

/-- Of two documents that are read as files, one lets a write to register 0 change register 1
as well, and the other one has no register 0. -/
theorem unsound_map_loaded :
    ∃ d e : Document,
      (∃ f g, (new .user).restore d = (true, f) ∧ f.set 0 7 = .ok g ∧
        f.get 1 = .ok 0 ∧ g.get 1 = .ok 7) ∧
      ∃ f, (new .user).restore e = (true, f) ∧ f.get 0 = .error (.noCell 31) :=
  ⟨encode (zeroed #v[0, 0, 2, 3, 4, 5, 6, 7, 8, 9, 10, 11, 12, 13, 14, 15]),
    encode (zeroed #v[31, 1, 2, 3, 4, 5, 6, 7, 8, 9, 10, 11, 12, 13, 14, 15]),
    ⟨_, _, restore_of_accepted (decode?_encode _) _, rfl, rfl, rfl⟩,
    ⟨_, restore_of_accepted (decode?_encode _) _, rfl⟩⟩

end RegisterFile
end Handheld
