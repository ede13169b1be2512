import PatternWalk.CommandLine
/-!
# Main — runs the command line

The words come from the system, and so does the source that the plan asks for; what is written, and the exit status,
are those of the outcome.
-/
namespace PatternWalk.CommandLine

def readFile (path : String) : IO (Except LoadFailure Text) := do
  try
    return decode (← IO.FS.readBinFile path)
  catch
    | .noFileOrDirectory .. => return .error .missing
    | e => return .error (.other (toString e))

def readStdin : IO (Except LoadFailure Text) := do
  try
    return decode (← (← IO.getStdin).readBinToEnd)
  catch e => return .error (.other (toString e))

def Plan.complete : Plan → IO Outcome
  | .done outcome => return outcome
  | .awaitFile path resume => return resume (← readFile path)
  | .awaitStdin resume => return resume (← readStdin)

end PatternWalk.CommandLine

def main (words : List String) : IO UInt32 := do
  let outcome ← (PatternWalk.CommandLine.plan words).complete
  IO.print outcome.stdout
  IO.eprint outcome.stderr
  return outcome.code
