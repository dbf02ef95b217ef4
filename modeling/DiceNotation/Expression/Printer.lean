import DiceNotation.Expression
import DiceNotation.Number.Format
import DiceNotation.RollError

/-!
Texts of expressions. The notation puts an operand in parentheses exactly where it would group
differently without them. The flat text of a resolved expression lists its parts and drops all
grouping; dice appear there as their faces.
-/
namespace DiceNotation.Expression

/-- Numbers have no exponent here, however large, and no point when they are whole. -/
def numbers : NumberFormat where
  positional := .always
  wholeMark := ""
  tie := .up
  infinity := "inf"
  negativeInfinity := "-inf"
  notANumber := "NaN"

/-- Flat text writes infinities out. -/
def flatNumbers : NumberFormat :=
  { numbers with infinity := "Infinity", negativeInfinity := "-Infinity" }

/-- An operand on the right needs parentheses also at the same precedence. -/
def needsParens (e : Expression Float) (parent : Operator) (onRight : Bool) : Bool :=
  match e with
  | math op _ _ =>
    op.precedence < parent.precedence || (onRight && op.precedence == parent.precedence)
  | _ => false

def diceText (count : Int64) (die : Die) : String :=
  toString count.toInt ++ "d" ++ toString die.sides

def parenthesized (yes : Bool) (text : String) : String :=
  if yes then "(" ++ text ++ ")" else text

def text : Expression Float → String
  | number x => numbers.write x
  | roll count die => diceText count die
  | advantage die => "^d" ++ toString die.sides
  | disadvantage die => "vd" ++ toString die.sides
  | rolled count die results =>
    diceText count die ++ " (" ++ ", ".intercalate (results.map fun r => toString r.toInt) ++ ")"
  | math op l r =>
    parenthesized (l.needsParens op false) l.text ++ " " ++ op.text ++ " " ++
      parenthesized (r.needsParens op true) r.text

/-- Dice that are still to roll have no flat text. -/
def flatText : Expression Float → Except RollError String
  | number x => .ok (flatNumbers.write x)
  | rolled _ _ results =>
    .ok ("[" ++ ",".intercalate (results.map fun r => toString r.toInt) ++ "]")
  | roll .. | advantage _ | disadvantage _ => .error .unresolvedRoll
  | math op l r => do
    let left ← l.flatText
    let right ← r.flatText
    return left ++ " " ++ op.text ++ " " ++ right

theorem isOk_flatText (e : Expression Float) : e.flatText.isOk = e.isResolved := by
  induction e with
  | math op l r ihl ihr =>
    simp only [isResolved, ← ihl, ← ihr, flatText]
    cases l.flatText <;> cases r.flatText <;> rfl
  | _ => rfl

end DiceNotation.Expression
