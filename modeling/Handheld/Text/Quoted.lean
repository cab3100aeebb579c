/-
# Quoted text

Text between double quotes for a reader of messages.  Quotes, backslashes and four controls
get a short escape; a character that would not be seen on its own is written as its code point
in braces; all else stands as it is.
-/
import Handheld.Text.Numeral
import Handheld.Text.Printable
import Handheld.Text.GraphemeExtend

namespace Handheld
namespace Quoted

/-- The code point in lower-case hexadecimal, in braces. -/
def codePoint (c : Char) : List Char :=
  ['\\', 'u', '\x7b'] ++ Numeral.digits 16 .lower c.toNat ++ ['\x7d']

/-- The half-width voiced and semi-voiced sound marks have a cell of their own. -/
def soundMarks : List Char := ['\uff9e', '\uff9f']

/-- A character hides if it does not print, or if it extends the one before and has no cell of
its own. -/
def hidden (c : Char) : Bool :=
  !printable c || graphemeExtenders.contains c && !soundMarks.contains c

def escape (c : Char) : List Char :=
  if c = '\x00' then ['\\', '0']
  else if c = '\t' then ['\\', 't']
  else if c = '\r' then ['\\', 'r']
  else if c = '\n' then ['\\', 'n']
  else if c = '\\' then ['\\', '\\']
  else if c = '"' then ['\\', '"']
  else if hidden c then codePoint c
  else [c]

def ofString (s : String) : String :=
  String.ofList ('"' :: s.toList.flatMap escape ++ ['"'])

end Quoted
end Handheld
