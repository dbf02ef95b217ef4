import DiceNotation.Evaluation
import DiceNotation.Expression.Printer

/-!
The line that shows an outcome: its flat text, its value, and its statistics with the mean
rounded to hundredths.
-/
namespace DiceNotation

open Expression (flatNumbers)

/-- The nearest multiple of a hundredth; a half goes away from zero. -/
def hundredths (x : Float) : Float := Binary.roundWhole (x * 100) / 100

def Stats.text (s : Stats Float) : String :=
  "\x7bmin: " ++ flatNumbers.write s.min ++ ", max: " ++ flatNumbers.write s.max ++
    ", avg: " ++ flatNumbers.write (hundredths s.avg) ++ " \x7d"

/-- Only an expression without dice still to roll can be shown. -/
def Outcome.line (o : Outcome Float) : Except RollError String := do
  let text ← o.expression.flatText
  return text ++ " > " ++ flatNumbers.write o.value ++ " " ++ o.stats.text

end DiceNotation
