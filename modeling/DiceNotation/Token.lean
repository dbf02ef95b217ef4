import DiceNotation.Operator

/-!
Tokens of a dice expression. A token keeps its characters and the byte at which they start;
a character that belongs to no token is an error token of its own.
-/
namespace DiceNotation

inductive TokenKind where
  | integer
  | decimal
  | dice
  | advantage
  | disadvantage
  | leftParen
  | rightParen
  | plus
  | minus
  | star
  | slash
  | error
  deriving DecidableEq

namespace TokenKind

def text : TokenKind → String
  | integer => "<integer>"
  | decimal => "<decimal>"
  | dice => "<dice>"
  | advantage => "<advantage dice>"
  | disadvantage => "<disadvantage dice>"
  | leftParen => "'('"
  | rightParen => "')'"
  | plus => "'+'"
  | minus => "'-'"
  | star => "'*'"
  | slash => "'/'"
  | error => "<error>"

def operator? : TokenKind → Option Operator
  | plus => some .add
  | minus => some .sub
  | star => some .mul
  | slash => some .div
  | _ => none

/- The kinds that a reader of an expression may expect, in the order in which errors list them. -/
def additionOps : List TokenKind := [plus, minus]
def multiplicationOps : List TokenKind := [star, slash]
def termStart : List TokenKind :=
  [leftParen, minus, integer, decimal, dice, advantage, disadvantage]

/-- A minus sign binds only to a literal of one of these kinds. -/
def negatable : List TokenKind := [integer, decimal, dice]

end TokenKind

structure Token where
  kind : TokenKind
  text : List Char
  start : Nat
  deriving DecidableEq

/-- The bytes that the characters take. -/
def byteCount : List Char → Nat
  | [] => 0
  | c :: cs => c.utf8Size + byteCount cs

def Token.stop (t : Token) : Nat := t.start + byteCount t.text

end DiceNotation
