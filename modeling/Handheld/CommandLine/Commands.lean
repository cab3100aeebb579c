/-
# The commands

    div    one division through the division unit's registers
    touch  one conversion by the touch controller
    reset  a core right after a reset

Each command has a record of its arguments, a grammar that reads them and an answer.
-/
import Handheld.CommandLine.Number
import Handheld.CommandLine.Arguments
import Handheld.Text.Terminal
import Handheld.Core.Execution
import Handheld.Division.Divider
import Handheld.Touch.Transfer

namespace Handheld
namespace CommandLine

/-- What a call leaves behind: its exit code and its two outputs. -/
structure Response where
  code : Nat
  stdout : String
  stderr : String
  deriving DecidableEq

def Response.success (text : String) : Response := ⟨0, text, ""⟩

def Response.failure (text : String) : Response := ⟨2, "", text ++ "\n"⟩

/-! ## 1. Division -/

structure DivArguments where
  mode : Half
  numerator : Double
  denominator : Double
  deriving DecidableEq

def DivArguments.grammar : Grammar DivArguments where
  positionals := [
    ⟨"<NUMER>", fun s a => (double s).map fun v => { a with numerator := v }⟩,
    ⟨"<DENOM>", fun s a => (double s).map fun v => { a with denominator := v }⟩]
  hyphens := true
  options := [⟨"mode", .single
    ⟨"--mode <MODE>", fun s a => (half s).map fun v => { a with mode := v }⟩⟩]

/-- A register in hexadecimal and as a signed number. -/
def doubleText (v : Double) : String :=
  Numeral.hexPadded 16 v.toNat ++ " (" ++ Numeral.signed v.toInt ++ ")"

/-- Writes the inputs and reads the answers, all over the bus. -/
def divide (bank : Mmio.Bank Division.Slot) (a : DivArguments) : Half × Double × Double :=
  let p := Division.Divider.interface
  let u := bank.store p 0x00 .half a.mode Division.Divider.new
  let u := bank.store p 0x10 .double a.numerator u
  let u := bank.store p 0x18 .double a.denominator u
  let (quotient, u) := bank.load p 0x20 .double u
  let (remainder, u) := bank.load p 0x28 .double u
  let (control, _) := bank.load p 0x00 .half u
  (control, quotient, remainder)

def DivArguments.answer (a : DivArguments) : Response :=
  match Division.Divider.bank with
  | .error e => .failure ("Failed to build divisor registers: " ++ e.message)
  | .ok bank =>
    let (control, quotient, remainder) := divide bank a
    .success ("DIVCNT = " ++ Numeral.hexPadded 4 control.toNat ++ "\n" ++
      "RES    = " ++ doubleText quotient ++ "\n" ++
      "MOD    = " ++ doubleText remainder ++ "\n")

/-! ## 2. Touch -/

structure TouchArguments where
  x : Word
  y : Word
  up : Bool
  command : Touch.Command
  calibration : Option (List Half)
  deriving DecidableEq

/-- A calibration as it leaves the factory. -/
def factoryCalibration : Calibration where
  adcX1 := 0x02C0
  adcY1 := 0x03A0
  screenX1 := 32
  screenY1 := 32
  adcX2 := 0x0D60
  adcY2 := 0x0C40
  screenX2 := 224
  screenY2 := 160

/-- Without options the pen is down and the command reads X in 12 bits. -/
def TouchArguments.default : TouchArguments := ⟨0, 0, false, ⟨0xD0⟩, none⟩

def TouchArguments.grammar : Grammar TouchArguments where
  positionals := [
    ⟨"<X>", fun s a => (position s).map fun v => { a with x := v }⟩,
    ⟨"<Y>", fun s a => (position s).map fun v => { a with y := v }⟩]
  hyphens := false
  options := [
    ⟨"up", .flag fun a => { a with up := true }⟩,
    ⟨"cmd", .single
      ⟨"--cmd <CMD>", fun s a => (byte s).map fun v => { a with command := ⟨v⟩ }⟩⟩,
    ⟨"calibration", .list
      ⟨"--calibration <CALIBRATION>", fun s a =>
        (half s).map fun v => { a with calibration := some (a.calibration.getD [] ++ [v]) }⟩⟩]

/-- Puts the two bytes of a reply together again. -/
def sampleOf (c : Touch.Command) (first second : Byte) : Half :=
  let first : Half := first.setWidth 16
  let second : Half := second.setWidth 16
  if c.bits8 then first <<< 1 ||| second >>> 7 else first <<< 5 ||| second >>> 3

/-- The two bytes that answer the command, with the calibration in the main image. -/
def convert (a : TouchArguments) (c : Calibration) : Byte × Byte :=
  let unit := (Touch.Controller.new (c.write Ram.main)).setPen (!a.up) a.x a.y
  let (id, unit) := unit.begin
  match (unit.exchangeAll id [a.command.bits, 0, 0]).1 with
  | some [_, first, second] => (first, second)
  | _ => (0, 0)

def TouchArguments.answer (a : TouchArguments) : Response :=
  match a.calibration.elim (.ok factoryCalibration) Calibration.ofList with
  | .error e => .failure ("Invalid calibration: " ++ e.message)
  | .ok c =>
    let (first, second) := convert a c
    .success ("channel " ++ Numeral.decimal a.command.channel ++
      " (" ++ a.command.channelName ++ "): bytes " ++ Numeral.hexPadded 2 first.toNat ++ " " ++
      Numeral.hexPadded 2 second.toNat ++ " -> sample " ++
      Numeral.hexUpper (sampleOf a.command first second).toNat ++ "\n")

/-! ## 3. Reset -/

structure ResetArguments where
  v4 : Bool
  highVectors : Bool
  deriving DecidableEq

def ResetArguments.grammar : Grammar ResetArguments where
  positionals := []
  hyphens := false
  options := [
    ⟨"armv4", .flag fun a => { a with v4 := true }⟩,
    ⟨"high-vectors", .flag fun a => { a with highVectors := true }⟩]

/-- Sets the control bit that moves the vectors up. -/
def raiseVectors (s : SystemControl) : SystemControl :=
  let control : CoprocessorRegister := ⟨0, 1, 0, 0⟩
  s.write control (s.read control ||| 1 <<< 13)

def resetCore (a : ResetArguments) (ram : Ram) : Core Ram SystemControl Unit :=
  let c : Core Ram SystemControl Unit := .new (if a.v4 then .v4 else .v5) ram ()
  let c :=
    if a.highVectors then
      let c := c.enableSystemControl
      { c with systemControl := c.systemControl.map raiseVectors }
    else c
  c.reset

def stateText (c : Core Ram SystemControl Unit) : String :=
  let mode := c.status.mode
  let word (v : Word) := Numeral.hexPadded 8 v.toNat
  "PC    = " ++ word c.pc ++ "\n" ++
  "LR    = " ++ word (c.registers.cell mode RegisterFile.linkRegister) ++ "\n" ++
  "SP    = " ++ word (c.registers.cell mode RegisterFile.stackPointer) ++ "\n" ++
  "CPSR  = " ++ word c.status.raw ++ " (" ++ mode.name ++ ")\n" ++
  "I/F   = " ++ toString c.status.irqDisable ++ "/" ++ toString c.status.fiqDisable ++ "\n" ++
  "clock = " ++ Numeral.signed c.clock ++ "\n"

def ResetArguments.answer (a : ResetArguments) : Response :=
  if a.highVectors && a.v4 then .failure "High vectors need the ARMv5 core"
  else
    match Ram.new? 0x1000 with
    | .error e => .failure e.message
    | .ok ram => .success (stateText (resetCore a ram))

/-! ## 4. All commands -/

def about : String := "Drives the emulated console hardware from the command line"

def helpText : String :=
  about ++ "\n\n" ++
  "nitro div [--mode <MODE>] <NUMER> <DENOM>\n" ++
  "nitro touch [--up] [--cmd <CMD>] [--calibration <CALIBRATION>] <X> <Y>\n" ++
  "nitro reset [--armv4] [--high-vectors]\n"

def versionText : String := "nitro 0.1.0\n"

/-- A refused value is shown as plain text, whatever it holds. -/
def Refusal.answer : Refusal → Response
  | misuse => .failure "error: unexpected arguments"
  | badValue value label reason =>
    .failure ("error: invalid value '" ++ Terminal.plain value ++ "' for '" ++ label ++ "': " ++
      reason)
  | help => .success helpText

def respondWith {ρ : Type} (g : Grammar ρ) (record : ρ) (answer : ρ → Response)
    (args : List String) : Response :=
  match g.read record args with
  | .ok record => answer record
  | .error refusal => refusal.answer

def commandNames : List String := ["div", "touch", "reset", "help"]

/-- Help is the same for every command, but the command has to exist. -/
def respondToHelp : List String → Response
  | [] => Refusal.help.answer
  | [name] => if commandNames.contains name then Refusal.help.answer else Refusal.misuse.answer
  | _ => Refusal.misuse.answer

/-- An argument in place of a command's name. -/
def respondToOption (first : String) (rest : List String) : Response :=
  match first.toList with
  | ['-', '-'] => if rest.isEmpty then .failure about else Refusal.misuse.answer
  | '-' :: '-' :: _ =>
    if first = "--version" then .success versionText
    else if first = "--help" then Refusal.help.answer
    else Refusal.misuse.answer
  | '-' :: 'V' :: _ => .success versionText
  | '-' :: 'h' :: _ => Refusal.help.answer
  | _ => Refusal.misuse.answer

/-- Carries out the arguments after the program's name. -/
def respond : List String → Response
  | [] => .failure about
  | "div" :: args => respondWith DivArguments.grammar ⟨0, 0, 0⟩ DivArguments.answer args
  | "touch" :: args => respondWith TouchArguments.grammar .default TouchArguments.answer args
  | "reset" :: args => respondWith ResetArguments.grammar ⟨false, false⟩ ResetArguments.answer args
  | "help" :: args => respondToHelp args
  | first :: rest => respondToOption first rest

end CommandLine
end Handheld
