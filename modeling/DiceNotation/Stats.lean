import DiceNotation.Die
import DiceNotation.Operator

/-!
The least, greatest and mean total of an expression, computed from its shape alone. Those of a
compound are the operator applied to those of its operands, one by one: exact for sums and
differences, while for products and quotients it need not bound anything once ranges cross zero.
-/
namespace DiceNotation

open Arithmetic (ofInt)

structure Stats (α : Type) where
  min : α
  max : α
  avg : α
  deriving BEq, DecidableEq

namespace Stats

variable {α : Type}

def constant (x : α) : Stats α := ⟨x, x, x⟩

variable [Arithmetic α]

/-- Dice still to roll; a negative count stays linear, so its minimum is the greater number. -/
def dice (count : Int64) (die : Die) : Stats α :=
  let n : α := ofInt count.toInt
  let sides : α := ofInt die.sides
  ⟨n, n * sides, n * (ofInt 1 + sides) / ofInt 2⟩

/-- Dice already rolled, whose mean is given as the sides over the count. -/
def resolved (count : Int64) (die : Die) : Stats α :=
  let n : α := ofInt count.toInt
  let sides : α := ofInt die.sides
  ⟨n, n * sides, sides / n⟩

/-- The chance that both of two dice show at most `k`. -/
def chanceAtMost (die : Die) (k : α) : α :=
  let p := k / ofInt die.sides
  p * p

/-- The chance that both of two dice show at least `k`. -/
def chanceAtLeast (die : Die) (k : α) : α :=
  let p := (ofInt die.sides - k + ofInt 1) / ofInt die.sides
  p * p

/-- The sum of `term` over `1`, `2`, …, `n`, added in this order. -/
def sumTo (n : Nat) (term : α → α) : α :=
  n.fold (fun k _ total => total + term (ofInt (k + 1))) (ofInt 0)

/-- The higher of two dice: each face times the chance that it is the higher. -/
def meanOfHigher (die : Die) : α :=
  sumTo die.sides fun k => k * (chanceAtMost die k - chanceAtMost die (k - ofInt 1))

/-- The lower of two dice: each face times the chance that it is the lower. -/
def meanOfLower (die : Die) : α :=
  sumTo die.sides fun k => k * (chanceAtLeast die k - chanceAtLeast die (k + ofInt 1))

def advantage (die : Die) : Stats α := ⟨ofInt 1, ofInt die.sides, meanOfHigher die⟩

def disadvantage (die : Die) : Stats α := ⟨ofInt 1, ofInt die.sides, meanOfLower die⟩

def combine (op : Operator) (a b : Stats α) : Stats α :=
  ⟨op.apply a.min b.min, op.apply a.max b.max, op.apply a.avg b.avg⟩

end Stats

end DiceNotation
