/-!
The arithmetic that values and statistics are computed in: the four operations and the
numbers that stand for integers. Doubles round after every operation and an exact type does
not, so each formula keeps the order in which it is written.
-/
namespace DiceNotation

class Arithmetic (α : Type) extends Add α, Sub α, Mul α, Div α where
  ofInt : Int → α

instance : Arithmetic Float where
  ofInt := Float.ofInt

end DiceNotation
