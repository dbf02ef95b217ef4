import DiceNotation.Arithmetic

/-!
The four binary operators: their values, their symbols, and how tightly they bind.
-/
namespace DiceNotation

inductive Operator where
  | add
  | sub
  | mul
  | div
  deriving DecidableEq

namespace Operator

def apply {α : Type} [Arithmetic α] : Operator → α → α → α
  | add, x, y => x + y
  | sub, x, y => x - y
  | mul, x, y => x * y
  | div, x, y => x / y

/-- The operator with the greater number binds the tighter. -/
def precedence : Operator → Nat
  | add | sub => 1
  | mul | div => 2

def symbol : Operator → Char
  | add => '+'
  | sub => '-'
  | mul => '*'
  | div => '/'

def ofSymbol? : Char → Option Operator
  | '+' => some add
  | '-' => some sub
  | '*' => some mul
  | '/' => some div
  | _ => none

def text (op : Operator) : String := op.symbol.toString

theorem ofSymbol?_symbol (op : Operator) : ofSymbol? op.symbol = some op := by
  cases op <;> rfl

theorem text_injective {op op' : Operator} (same : op.text = op'.text) : op = op' := by
  have symbols : op.symbol = op'.symbol := by simpa [text] using same
  have read := ofSymbol?_symbol op
  rw [symbols, ofSymbol?_symbol] at read
  exact (Option.some.inj read).symm

end Operator

end DiceNotation
