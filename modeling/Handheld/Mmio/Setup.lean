/-
# Setting up registers from their tags

    rwmask   bits that the bus can write; all others become read-only
    reset    the initial value, not filtered by the mask
    rcb      read callback, by default named `Read` and the field's name in upper case
    wcb      write callback, by default named `Write` and the field's name in upper case

Fields are set up in order, and the options of a field in the order above.  The first fault
ends it, and what came before stays.  Fields with an empty tag are left alone.
-/
import Handheld.Mmio.Device
import Handheld.Mmio.Literal
import Handheld.Text.UpperCase

namespace Handheld
namespace Mmio

/-- What can be wrong with a field's declaration. -/
inductive Fault where
  | unsupportedType (field type : String)
  | unreadable (key field value : String)
  | missingMethod (method field : String)
  | wrongSignature (method field found expected : String)
  | missingOffset (field : String)
  deriving DecidableEq

def Fault.message : Fault → String
  | unsupportedType field type => "unsupported register type for field " ++ field ++ ": " ++ type
  | unreadable key field value =>
    "invalid " ++ key ++ " for field " ++ field ++ ": " ++ Quoted.ofString value
  | missingMethod method field =>
    "cannot find method " ++ Quoted.ofString method ++ " for field " ++ field
  | wrongSignature method field found expected =>
    "method " ++ Quoted.ofString method ++ " for field " ++ field ++ " is a " ++ found ++
      " callback, expected " ++ expected
  | missingOffset field => "missing offset for field " ++ field

/-- A fault in a declaration that was taken to be correct. -/
structure Abort where
  message : String
  deriving DecidableEq

/-- An option that must be a number of at most `bits` bits. -/
def number (field key value : String) (bits : Nat) : Except Fault Nat :=
  match Literal.parse? value bits with
  | some n => .ok n
  | none => .error (.unreadable key field value)

/-- The method a callback option names; a bare option asks for the default name. -/
def methodName (field option defaultStem : String) : String :=
  if option = "true" then defaultStem ++ UpperCase.ofString field else option

variable {ι σ : Type} [Layout ι] [DecidableEq ι]

abbrev Setup (ι σ : Type) [Layout ι] := EStateM Fault (Device ι σ) Unit

/-! ## 1. The options of one field -/

def setMask (i : ι) (name value : String) : Setup ι σ := do
  if value.isEmpty then return
  let n ← MonadExcept.ofExcept (number name "rwmask" value (slotBits i))
  modify (·.modify i fun r => { r with readOnly := ~~~BitVec.ofNat _ n })

def setReset (i : ι) (name value : String) : Setup ι σ := do
  if value.isEmpty then return
  let n ← MonadExcept.ofExcept (number name "reset" value (slotBits i))
  modify (·.modify i fun r => { r with value := BitVec.ofNat _ n })

/-- Checks that the interface has a method of the name and the wanted signature. -/
def checkMethod (p : Interface ι σ) (field method expected : String)
    (suits : Callback ι σ → Bool) : Except Fault Unit :=
  match p.callback? method with
  | none => .error (.missingMethod method field)
  | some c => if suits c then .ok () else .error (.wrongSignature method field c.kind expected)

def setReader (p : Interface ι σ) (i : ι) (name value : String) : Setup ι σ := do
  if value.isEmpty then return
  let method := methodName name value "Read"
  MonadExcept.ofExcept (checkMethod p name method ("read" ++ Numeral.decimal (slotBits i))
    fun c => (c.reader? (Layout.width i)).isSome)
  modify (·.modify i fun r => { r with onRead := some method })

def setWriter (p : Interface ι σ) (i : ι) (name value : String) : Setup ι σ := do
  if value.isEmpty then return
  let method := methodName name value "Write"
  MonadExcept.ofExcept (checkMethod p name method ("write" ++ Numeral.decimal (slotBits i))
    fun c => (c.writer? (Layout.width i)).isSome)
  modify (·.modify i fun r => { r with onWrite := some method })

/-! ## 2. Whole interfaces -/

def setupField (p : Interface ι σ) (f : Field ι) : Setup ι σ := do
  if f.tag.isEmpty then return
  match f.place with
  | .unsupported type => throw (.unsupportedType f.name type)
  | .register i =>
    setMask i f.name (f.tag.get "rwmask")
    setReset i f.name (f.tag.get "reset")
    setReader p i f.name (f.tag.get "rcb")
    setWriter p i f.name (f.tag.get "wcb")

/-- Sets up every field of the interface. -/
def setup (p : Interface ι σ) : Setup ι σ := p.fields.forM (setupField p)

/-- Sets up an interface that is known to be correct. -/
def mustSetup (p : Interface ι σ) : EStateM Abort (Device ι σ) Unit :=
  (setup p).adaptExcept fun f => ⟨f.message⟩

end Mmio
end Handheld
