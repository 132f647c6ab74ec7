import ExactSimplex.CommandLine.Report

/-! The command line program: reads the arguments and the file that they name, prints the report and
ends with its code. -/

namespace ExactSimplex.CommandLine

/-- The text of a file, if it can be read. -/
def readDocument (path : String) : IO (Option String) := do
  try return some (← IO.FS.readFile path) catch _ => return none

end ExactSimplex.CommandLine

open ExactSimplex.CommandLine

/-- Reads the arguments, prints the report and ends with its code, one on an error. -/
def main (arguments : List String) : IO UInt32 := do
  let request := readRequest .standard arguments
  let document ← match pathOf request with
    | some path => readDocument path
    | none => pure none
  let result := report .standard request document
  IO.print result.output
  match result.status with
  | .ok code => return UInt32.ofNat code
  | .error e =>
    IO.eprintln (e.message.getD "the command failed")
    return 1
