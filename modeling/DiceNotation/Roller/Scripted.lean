import DiceNotation.Roller

/-!
Rollers without chance: one counts up by a fixed step, one repeats a list. Both wrap their
numbers round the die that is asked for.
-/
namespace DiceNotation

/-- A list that starts again at its end, and is never empty. -/
structure Cycle (α : Type) where
  first : α
  others : List α
  ahead : List α

namespace Cycle

variable {α : Type}

def start (first : α) (others : List α) : Cycle α := ⟨first, others, first :: others⟩

def next (c : Cycle α) : α × Cycle α :=
  match c.ahead with
  | x :: ahead => (x, { c with ahead })
  | [] => (c.first, { c with ahead := c.others })

end Cycle

/-- Numbers from one up, `step` apart. -/
structure SteppedDice where
  next : Nat
  step : Nat

def SteppedDice.draw (d : Die) (s : SteppedDice) : Face d × SteppedDice :=
  (Face.around d (s.next - 1), { s with next := s.next + s.step })

instance : Roller SteppedDice where
  roll := SteppedDice.draw
  rollHand count d := Hand.drawEach (SteppedDice.draw d) count

structure RepeatedDice where
  numbers : Cycle Nat

def RepeatedDice.draw (d : Die) (s : RepeatedDice) : Face d × RepeatedDice :=
  let (number, numbers) := s.numbers.next
  (Face.around d (number - 1), ⟨numbers⟩)

instance : Roller RepeatedDice where
  roll := RepeatedDice.draw
  rollHand count d := Hand.drawEach (RepeatedDice.draw d) count

end DiceNotation
