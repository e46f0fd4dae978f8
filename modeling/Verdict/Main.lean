import Verdict.CommandLine

/-!
# The program

Prints the outcome of the command line and ends with its code.
-/

/-- Runs the command line. -/
def main (arguments : List String) : IO UInt32 := do
  let outcome := Verdict.CommandLine.run arguments
  (← IO.getStdout).putStr outcome.output
  (← IO.getStderr).putStr outcome.errors
  return outcome.code
