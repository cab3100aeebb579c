/-
# Text without terminal control

Plain text holds no control character but white space, and no escape sequence.  A sequence
starts with the escape character, and the next one tells its kind:

    [        parameters, up to the first character from `@` to `~`
    ]        a command, up to a bell
    P        a device string: a header, and a body up to its terminator
    X ^ _    a body alone
    others   one character, after any number of characters from the space to `/`

A text that ends inside a sequence loses what the sequence had so far.
-/

namespace Handheld
namespace Terminal

def isControl (c : Char) : Bool := c.toNat < 32 || c.toNat = 127

def isSpace (c : Char) : Bool := [' ', '\t', '\n', '\x0c', '\r'].contains c

/-- Whether a character stays, outside of sequences. -/
def visible (c : Char) : Bool := !isControl c || isSpace c

/-! ## 1. Sequences -/

/-- How far an escape sequence has got. -/
inductive Sequence where
  | outside
  | begun
  /-- One more character is to come. -/
  | marked
  | parameters
  | command
  /-- The header of a device string: nothing of it yet, its parameters, or its last part. -/
  | device
  | deviceParameters
  | deviceMarked
  | body
  deriving DecidableEq

def between (low high c : Char) : Bool := low ≤ c && c ≤ high

/-- One of the bytes of the character is the terminator of bodies. -/
def terminates (c : Char) : Bool := (String.utf8EncodeChar c).contains 0x9C

/-- The sequence after a character that is no control character. -/
def Sequence.afterCharacter (s : Sequence) (c : Char) : Sequence :=
  match s with
  | outside => outside
  | begun =>
    if c = '[' then parameters
    else if c = ']' then command
    else if c = 'P' then device
    else if ['X', '^', '_'].contains c then body
    else if between ' ' '/' c then marked
    else if between '0' '~' c then outside
    else begun
  | marked => if between '0' '~' c then outside else marked
  | parameters => if between '@' '~' c then outside else parameters
  | command => command
  | device =>
    if between ' ' '/' c then deviceMarked
    else if between '0' '?' c then deviceParameters
    else if between '@' '~' c then body
    else device
  | deviceParameters =>
    if between ' ' '/' c then deviceMarked
    else if between '<' '~' c then body
    else deviceParameters
  | deviceMarked => if between '0' '~' c then body else deviceMarked
  | body => if terminates c then outside else body

/-- The sequence after a control character; two of them cancel every sequence. -/
def Sequence.afterControl (s : Sequence) (c : Char) : Sequence :=
  if c = '\x1b' then begun
  else if c = '\x18' ∨ c = '\x1a' then outside
  else if s = command ∧ c = '\x07' then outside
  else s

/-- White space shows inside of these. -/
def Sequence.interruptible (s : Sequence) : Bool := [begun, marked, parameters].contains s

/-! ## 2. Text -/

/-- Where reading a text stands. -/
structure State where
  sequence : Sequence
  /-- White space showed inside the sequence.  What is visible shows until a control character
  resumes the sequence. -/
  interrupted : Bool
  deriving DecidableEq

namespace State

def start : State := ⟨.outside, false⟩

def showing (s : State) : Bool := s.sequence = .outside || s.interrupted

/-- Whether the next character is kept. -/
def keeps (s : State) (c : Char) : Bool :=
  if s.showing then visible c else isControl c && isSpace c && s.sequence.interruptible

/-- A kept character interrupts the sequence, and one beyond the seven bits ends it. -/
def after (s : State) (c : Char) : State :=
  if s.keeps c then
    if s.sequence = .outside ∨ 127 < c.toNat then start else ⟨s.sequence, true⟩
  else if isControl c then ⟨s.sequence.afterControl c, false⟩
  else ⟨s.sequence.afterCharacter c, false⟩

end State

/-- What is left of a text. -/
def strip (s : State) : List Char → List Char
  | [] => []
  | c :: cs => if s.keeps c then c :: strip (s.after c) cs else strip (s.after c) cs

def plain (text : String) : String := String.ofList (strip .start text.toList)

end Terminal
end Handheld
