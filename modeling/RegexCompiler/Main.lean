import RegexCompiler.CommandLine

/-!
# The command

Reads the arguments, runs the command on them and writes what it says.
-/

/-- Run the command on the arguments of the process. -/
def main (arguments : List String) : IO UInt32 := do
  let outcome := RegexCompiler.CommandLine.run
    (arguments.map fun argument => argument.toUTF8.toList)
  IO.print outcome.output
  match outcome with
  | .misused _ => IO.eprintln outcome.diagnostic
  | _ => IO.eprint outcome.diagnostic
  return outcome.exitCode.toUInt32
