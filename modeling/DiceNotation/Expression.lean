import DiceNotation.Die
import DiceNotation.Operator

/-!
Dice expressions over a type of numbers. A `rolled` leaf holds faces that have been drawn;
a resolved expression has no dice left to roll.
-/
namespace DiceNotation

inductive Expression (α : Type) where
  | number (x : α)
  /-- A negative count rolls as many dice and counts each face negative. -/
  | roll (count : Int64) (die : Die)
  | advantage (die : Die)
  | disadvantage (die : Die)
  | rolled (count : Int64) (die : Die) (results : List Int64)
  | math (op : Operator) (left right : Expression α)
  deriving BEq, DecidableEq

def Expression.isResolved {α : Type} : Expression α → Bool
  | number _ | rolled .. => true
  | roll .. | advantage _ | disadvantage _ => false
  | math _ l r => l.isResolved && r.isResolved

end DiceNotation
