import DiceNotation.Evaluation
import DiceNotation.Json

/-!
Expressions, statistics and outcomes as JSON documents. A tag names the kind of an expression.
-/
namespace DiceNotation

def Expression.toJson : Expression Float → Json
  | number x => .record [("tag", .string "number"), ("n", .float x)]
  | roll count die =>
    .record [("tag", .string "roll"), ("n", .int count.toInt), ("sides", .int die.sides)]
  | advantage die => .record [("tag", .string "rollAdvantage"), ("sides", .int die.sides)]
  | disadvantage die => .record [("tag", .string "rollDisadvantage"), ("sides", .int die.sides)]
  | rolled count die results =>
    .record [("tag", .string "rollValue"), ("n", .int count.toInt), ("sides", .int die.sides),
      ("results", .list (results.map fun r => .int r.toInt))]
  | math op left right =>
    .record [("tag", .string "math"), ("op", .string op.text), ("left", left.toJson),
      ("right", right.toJson)]

def Stats.toJson (s : Stats Float) : Json :=
  .record [("min", .float s.min), ("max", .float s.max), ("avg", .float s.avg)]

def Outcome.toJson (o : Outcome Float) : Json :=
  .record [("expression", o.expression.toJson), ("value", .float o.value),
    ("stats", o.stats.toJson)]

end DiceNotation
