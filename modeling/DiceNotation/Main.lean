import DiceNotation.Program

/-!
The program on the standard streams.
-/
namespace DiceNotation

/-- A seed nobody has chosen. -/
def chanceSeed : IO UInt64 := do
  let bytes ← IO.getRandomBytes 8
  return bytes.toList.foldl (fun seed byte => seed * 256 + byte.toUInt64) 0

def streams (input output errors : IO.FS.Stream) : Terminal IO where
  readLine := do
    let line ← input.getLine
    return if line.isEmpty then none else some line.toList
  write text := do
    output.putStr text
    output.flush
  complain := errors.putStr

end DiceNotation

open DiceNotation in
def main (arguments : List String) : IO UInt32 := do
  let terminal := streams (← IO.getStdin) (← IO.getStdout) (← IO.getStderr)
  program terminal chanceSeed arguments
