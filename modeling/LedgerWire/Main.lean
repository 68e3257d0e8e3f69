/-
# The program

Prints what the command line responds with.
-/

import LedgerWire.CommandLine.Basic

/-- Runs the program: reads the standard input or draws a salt if the response needs it, and prints
the output. -/
def main (args : List String) : IO UInt32 := do
  let output ← match LedgerWire.CommandLine.start args with
    | .done output => pure output
    | .withInput resume => do
        let input ← (← IO.getStdin).readToEnd
        pure (resume input)
    | .withSalt resume => do
        let bytes ← IO.getRandomBytes 32
        pure (resume (.ofFn fun i => bytes.toList.getD i 0))
  IO.print output.stdout
  IO.eprint output.stderr
  return UInt32.ofNat output.code
