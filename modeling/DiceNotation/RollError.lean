/-!
Why dice cannot be rolled, or their outcome not shown.
-/
namespace DiceNotation

inductive RollError where
  | tooManyDice (count limit : Nat)
  | unresolvedRoll
  deriving DecidableEq

def RollError.message : RollError → String
  | tooManyDice count limit =>
    "too many dice rolled: " ++ toString count ++ " exceeds the limit of " ++ toString limit
  | unresolvedRoll => "cannot format an unresolved roll"

end DiceNotation
