/-
# Saved documents

The values that a saved state is written as: nothing, truth values, numbers, texts, lists and
records.  A number with a fraction or an exponent is kept apart from an integer, since no
saved quantity is one.
-/

namespace Handheld

inductive Document where
  | null
  | bool (value : Bool)
  | integer (value : Int)
  /-- The number `mantissa` times ten to the power `-exponent`. -/
  | decimal (mantissa : Int) (exponent : Nat)
  | text (value : String)
  | list (items : List Document)
  | record (fields : List (String × Document))
  deriving Inhabited

namespace Document

/-- What a record holds under a name that it gives once. -/
def field? (fields : List (String × Document)) (name : String) : Option Document :=
  match fields.filter (·.1 = name) with
  | [(_, d)] => some d
  | _ => none

/-- The parts of a structure with the given field names: a record that has each of them once, in
any order and among others, or a list of exactly as many items in the same order. -/
def parts? (names : List String) : Document → Option (List Document)
  | record fields => names.mapM (field? fields)
  | list items => if items.length = names.length then some items else none
  | _ => none

/-- The name of a plain alternative: a text, or a record of it alone that holds nothing. -/
def choice? : Document → Option String
  | text s => some s
  | record [(s, null)] => some s
  | _ => none

end Document

/-- A type that can be written into a saved state and read back. -/
class Saved (α : Type) where
  encode : α → Document
  decode? : Document → Option α

namespace Saved

/-! ## 1. Numbers and truth values -/

instance : Saved Bool where
  encode := .bool
  decode?
    | .bool b => some b
    | _ => none

/-- A word is written as its unsigned value; a number out of range is refused. -/
instance {w : Nat} : Saved (BitVec w) where
  encode v := .integer v.toNat
  decode?
    | .integer n =>
      let v := BitVec.ofInt w n
      if (v.toNat : Int) = n then some v else none
    | _ => none

/-- Writes a word as its signed value. -/
def encodeSigned {w : Nat} (v : BitVec w) : Document := .integer v.toInt

def decodeSigned? (w : Nat) : Document → Option (BitVec w)
  | .integer n =>
    let v := BitVec.ofInt w n
    if v.toInt = n then some v else none
  | _ => none

/-! ## 2. Sequences -/

instance {α : Type} [Saved α] : Saved (List α) where
  encode xs := .list (xs.map encode)
  decode?
    | .list items => items.mapM decode?
    | _ => none

instance {α : Type} [Saved α] : Saved (Array α) where
  encode xs := encode xs.toList
  decode? d := (decode? d : Option (List α)).map List.toArray

/-- A vector is read from a list of exactly its length. -/
instance {α : Type} [Saved α] {n : Nat} : Saved (Vector α n) where
  encode xs := encode xs.toArray
  decode? d := do
    let xs : Array α ← decode? d
    if h : xs.size = n then some ⟨xs, h⟩ else none

end Saved
end Handheld
