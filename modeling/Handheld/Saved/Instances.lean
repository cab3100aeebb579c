/-
# Saved forms of the machine's parts

Status words and lines are plain numbers, modes and instruction sets plain names, and the rest
records.  Reading a register file takes whatever map it is given: any sixteen bytes.
-/
import Handheld.Saved.Document
import Handheld.Core.Status
import Handheld.Core.Lines
import Handheld.Core.RegisterFile
import Handheld.Memory.Ram
import Handheld.Touch.Pen

namespace Handheld

instance : Saved Status where
  encode s := Saved.encode s.raw
  decode? d := (Saved.decode? d).map Status.mk

instance : Saved Lines where
  encode l := Saved.encode l.bits
  decode? d := (Saved.decode? d).map Lines.mk

instance : Saved Mode where
  encode m := .text m.name
  decode? d := d.choice?.bind Mode.ofName?

instance : Saved InstructionSet where
  encode i := .text i.name
  decode? d := d.choice?.bind InstructionSet.ofName?

instance : Saved Pen where
  encode p :=
    .record [("x", Saved.encodeSigned p.x), ("y", Saved.encodeSigned p.y), ("down", .bool p.down)]
  decode? d := do
    match ← d.parts? ["x", "y", "down"] with
    | [x, y, down] =>
      return ⟨← Saved.decodeSigned? 32 x, ← Saved.decodeSigned? 32 y, ← Saved.decode? down⟩
    | _ => none

instance : Saved RegisterFile where
  encode f := .record [("physical", Saved.encode f.cells), ("map", Saved.encode f.map)]
  decode? d := do
    match ← d.parts? ["physical", "map"] with
    | [cells, map] => return ⟨← Saved.decode? cells, ← Saved.decode? map⟩
    | _ => none

instance : Saved Ram where
  encode r := .record [("data", Saved.encode r.bytes), ("wait_states", Saved.encode r.waitStates)]
  decode? d := do
    match ← d.parts? ["data", "wait_states"] with
    | [bytes, waitStates] => return ⟨← Saved.decode? bytes, ← Saved.decode? waitStates⟩
    | _ => none

/-- Replaces a register file by a saved one; a document that is refused changes nothing. -/
def RegisterFile.restore (f : RegisterFile) (d : Document) : Bool × RegisterFile :=
  match Saved.decode? d with
  | some g => (true, g)
  | none => (false, f)

end Handheld
