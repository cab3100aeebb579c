/-
# Reading arguments

A command has positional arguments, each required, and options named with two hyphens in
front.  An option is a flag or takes a value, behind an equals sign or as the next argument.
After an argument of two hyphens only positional ones follow.  A command may let its
positional arguments start with a hyphen; then a name that is no option is one of them.

A value is looked at when the next argument turns up, or at the end.  So of two faults the
first in order counts, except that an argument out of place counts before the value in front
of it.
-/
import Handheld.Text.Split

namespace Handheld
namespace CommandLine

/-- A place for a value: how messages call it, and what it does with a text.  The text may be
refused with a reason. -/
structure Slot (ρ : Type) where
  label : String
  accept : String → ρ → Except String ρ

inductive OptionKind (ρ : Type) where
  | flag (apply : ρ → ρ)
  | single (slot : Slot ρ)
  /-- May be given many times, each time with many values around commas. -/
  | list (slot : Slot ρ)

structure OptionSpec (ρ : Type) where
  name : String
  kind : OptionKind ρ

structure Grammar (ρ : Type) where
  positionals : List (Slot ρ)
  /-- Positional arguments may start with a hyphen. -/
  hyphens : Bool
  options : List (OptionSpec ρ)

/-- Why the arguments are not carried out. -/
inductive Refusal where
  | misuse
  | badValue (value label reason : String)
  | help
  deriving DecidableEq

/-- What the last argument left open. -/
inductive Pending (ρ : Type) where
  | nothing
  /-- An option that still waits for its value. -/
  | waiting (option : OptionSpec ρ)
  | optionValue (option : OptionSpec ρ) (text : String)
  | positional (slot : Slot ρ) (text : String)

/-- Where reading stands. -/
structure Reader (ρ : Type) where
  record : ρ
  pending : Pending ρ
  /-- The options that were given and may not be given again. -/
  used : List String
  /-- The positional arguments still to come. -/
  remaining : List (Slot ρ)
  /-- Only positional arguments follow. -/
  trailing : Bool

namespace Reader

variable {ρ : Type}

/-! ## 1. Values -/

def acceptAs (r : Reader ρ) (slot : Slot ρ) (text : String) : Except Refusal (Reader ρ) :=
  match slot.accept text r.record with
  | .ok record => .ok { r with record }
  | .error reason => .error (.badValue text slot.label reason)

/-- Notes that an option was given, which a second time is a misuse. -/
def once (r : Reader ρ) (name : String) : Except Refusal (Reader ρ) :=
  if r.used.contains name then .error .misuse else .ok { r with used := name :: r.used }

/-- Looks at the value of an option. -/
def acceptOption (r : Reader ρ) (o : OptionSpec ρ) (text : String) :
    Except Refusal (Reader ρ) := do
  match o.kind with
  | .flag _ => throw .misuse
  | .single slot => (← r.once o.name).acceptAs slot text
  | .list slot =>
    ((Split.pieces ',' text.toList).map String.ofList).foldlM (fun r t => r.acceptAs slot t) r

/-- Looks at what is pending. -/
def settle (r : Reader ρ) : Except Refusal (Reader ρ) :=
  let settled := { r with pending := .nothing }
  match r.pending with
  | .nothing => .ok settled
  | .waiting _ => .error .misuse
  | .optionValue o text => settled.acceptOption o text
  | .positional slot text => settled.acceptAs slot text

/-! ## 2. Arguments -/

/-- Whether the next positional argument may start with a hyphen. -/
def hyphenAllowed (g : Grammar ρ) (r : Reader ρ) : Bool := g.hyphens && !r.remaining.isEmpty

def takePositional (r : Reader ρ) (a : String) : Except Refusal (Reader ρ) := do
  match r.remaining with
  | [] => throw .misuse
  | slot :: rest => return { ← r.settle with pending := .positional slot a, remaining := rest }

/-- An argument that is no option: the value that an option waits for, or a positional one. -/
def takeValue (r : Reader ρ) (a : String) : Except Refusal (Reader ρ) :=
  match r.pending with
  | .waiting o => .ok { r with pending := .optionValue o a }
  | _ => r.takePositional a

/-- An option of the grammar, with the value behind its equals sign if there is one. -/
def takeOption (r : Reader ρ) (o : OptionSpec ρ) (value : Option String) :
    Except Refusal (Reader ρ) := do
  match o.kind, value with
  | .flag _, some _ => throw .misuse
  | .flag apply, none =>
    let r ← (← r.settle).once o.name
    return { r with record := apply r.record }
  | _, some v => (← r.settle).acceptOption o v
  | _, none => return { ← r.settle with pending := .waiting o }

/-- An argument that starts with two hyphens; `body` is what follows them. -/
def takeLong (g : Grammar ρ) (r : Reader ρ) (a : String) (body : List Char) :
    Except Refusal (Reader ρ) := do
  let (name, value) := Split.cut '=' body
  let name := String.ofList name
  match g.options.find? (·.name = name), value with
  | some o, value => r.takeOption o (value.map String.ofList)
  | none, value =>
    if name = "help" then
      if value.isSome then throw .misuse
      let _ ← r.settle
      throw .help
    else if r.hyphenAllowed g then r.takeValue a
    else throw .misuse

/-- An argument that starts with one hyphen; `first` and `rest` are what follows it.  The letter
of help is the only one with a meaning of its own, so any other makes the argument a value where
one may start with a hyphen. -/
def takeShort (g : Grammar ρ) (r : Reader ρ) (a : String) (first : Char) (rest : List Char) :
    Except Refusal (Reader ρ) := do
  if r.hyphenAllowed g && (first :: rest).any (· ≠ 'h') then r.takeValue a
  else if first = 'h' then
    let _ ← r.settle
    throw .help
  else throw .misuse

def take (g : Grammar ρ) (r : Reader ρ) (a : String) : Except Refusal (Reader ρ) :=
  if r.trailing then r.takePositional a
  else
    match a.toList with
    | ['-', '-'] => .ok { r with trailing := true }
    | '-' :: '-' :: body => r.takeLong g a body
    | '-' :: c :: cs => r.takeShort g a c cs
    | _ => r.takeValue a

end Reader

/-- Reads the arguments of a command into a record that starts as `record`. -/
def Grammar.read {ρ : Type} (g : Grammar ρ) (record : ρ) (args : List String) :
    Except Refusal ρ := do
  let start : Reader ρ := ⟨record, .nothing, [], g.positionals, false⟩
  let r ← args.foldlM (Reader.take g) start
  let r ← r.settle
  if r.remaining.isEmpty then return r.record else throw .misuse

end CommandLine
end Handheld
