import DiceNotation.Text.Quoted
import DiceNotation.Token

/-!
Why a text is no expression, and where: an error names the token at which reading stopped and,
where there is a choice, the kinds that could have stood there.
-/
namespace DiceNotation

inductive ParseError.Cause where
  | emptyExpression
  /-- Nothing is found at the end of the text. -/
  | unexpectedToken (found : Option TokenKind) (expected : List TokenKind)
  | unexpectedString (expected : List TokenKind)
  | trailingInput (found : TokenKind)
  | invalidDice
  | unknownOperator
  deriving DecidableEq

/-- `start` and `stop` are bytes of the text and enclose `slice`. -/
structure ParseError where
  cause : ParseError.Cause
  start : Nat
  stop : Nat
  slice : List Char
  deriving DecidableEq

namespace ParseError

/-- Alternatives in words: commas between them from three on, and an `or` before the last. -/
def alternatives : List TokenKind → String
  | [] => ""
  | [a] => a.text
  | [a, b] => a.text ++ " or " ++ b.text
  | kinds => enumeration kinds
where
  enumeration : List TokenKind → String
    | [] => ""
    | [last] => "or " ++ last.text
    | kind :: kinds => kind.text ++ ", " ++ enumeration kinds

def Cause.message : Cause → String
  | emptyExpression => "expression is empty"
  | unexpectedToken (some found) expected =>
    "unexpected token: found " ++ found.text ++ ", expected " ++ alternatives expected
  | unexpectedToken none expected =>
    "unexpected end of input, expected " ++ alternatives expected
  | unexpectedString expected => "expected " ++ alternatives expected
  | trailingInput found => "unexpected " ++ found.text ++ " after a complete expression"
  | invalidDice => "invalid dice literal"
  | unknownOperator => "unknown binary operator"

def message (e : ParseError) : String :=
  "error at position " ++ toString e.start ++ " (" ++ String.ofList (quoted e.slice) ++ "): " ++
    e.cause.message

/-- The error that a token causes. -/
def atToken (t : Token) (cause : Cause) : ParseError := ⟨cause, t.start, t.stop, t.text⟩

/-- The end of a text of `length` bytes came where one of `expected` had to stand. -/
def atEnd (length : Nat) (expected : List TokenKind) : ParseError :=
  ⟨.unexpectedToken none expected, length, length, []⟩

end ParseError

end DiceNotation
