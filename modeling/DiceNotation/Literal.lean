import DiceNotation.Die
import DiceNotation.Number.Decimal
import DiceNotation.Token

/-!
The values of literal tokens. A number is the double nearest to its decimal text, however long.
Dice have at most `2 ^ 63 - 1` as their count, and one die when no count is written.
-/
namespace DiceNotation

def readNumber (text : List Char) : Float :=
  Binary.ofMagnitude false (Decimal.ofText text).toBinary

def readCount? (text : List Char) : Option Int64 :=
  if text.isEmpty then some 1
  else
    let n := Nat.ofDigitChars 10 text 0
    if n < 0x8000000000000000 then some (Int64.ofNat n) else none

/-- The die after the letter `d`. -/
def readDie? (text : List Char) : Option Die :=
  Die.ofSides? (Nat.ofDigitChars 10 ((text.dropWhile (· ≠ 'd')).drop 1) 0)

def readDice? (text : List Char) : Option (Int64 × Die) := do
  let count ← readCount? (text.takeWhile (· ≠ 'd'))
  let die ← readDie? text
  return (count, die)

end DiceNotation
