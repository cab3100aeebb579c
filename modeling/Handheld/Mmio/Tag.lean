/-
# Register tags

A tag is a comma-separated list of options: a bare key, or a key and a value around the first
equals sign.  Looking a key up gives the value of the first option with exactly that key; a
bare key has the value `true`.
-/
import Handheld.Text.Quoted
import Handheld.Text.Split

namespace Handheld

structure Tag where
  text : String
  deriving DecidableEq

namespace Tag

/-- One option of a tag. -/
structure Token where
  key : List Char
  value : Option (List Char)
  deriving DecidableEq

/-- Cuts an option at its first equals sign. -/
def Token.ofPiece (cs : List Char) : Token :=
  let (key, value) := Split.cut '=' cs
  ⟨key, value⟩

/-- What a look-up reports for the option. -/
def Token.reading (t : Token) : String :=
  match t.value with
  | some v => String.ofList v
  | none => "true"

def tokens (t : Tag) : List Token := (Split.pieces ',' t.text.toList).map Token.ofPiece

def isEmpty (t : Tag) : Bool := t.text.isEmpty

/-- The value of the first option with the key, empty if there is none. -/
def get (t : Tag) (key : String) : String :=
  match t.tokens.find? (·.key = key.toList) with
  | some token => token.reading
  | none => ""

def debug (t : Tag) : String := "Tag(" ++ Quoted.ofString t.text ++ ")"

end Tag
end Handheld
