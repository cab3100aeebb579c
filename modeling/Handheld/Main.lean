/-
# The program

Prints the answer to the command line and ends with its exit code.
-/
import Handheld.CommandLine.Commands

def main (args : List String) : IO UInt32 := do
  let response := Handheld.CommandLine.respond args
  (← IO.getStdout).putStr response.stdout
  (← IO.getStderr).putStr response.stderr
  return response.code.toUInt32
