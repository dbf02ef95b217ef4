import DiceNotation.Expression
import DiceNotation.Literal
import DiceNotation.ParseError
import DiceNotation.Token.Lexer

/-!
Reading expressions, token by token. Between two tokens the reader knows the operands that
still wait for their right neighbour, on each level of parentheses, and what has to come next.
So every token is either taken or refused on the spot, and the token that is refused is the
first one that cannot continue the text before it. Operators of one precedence group to the
left, `*` and `/` bind tighter than `+` and `-`, and parentheses leave no trace in the tree.
-/
namespace DiceNotation.Reader

/-- A left operand and its operator, waiting for the right operand. -/
abbrev Pending := Option (Expression Float × Operator)

def Pending.close (p : Pending) (e : Expression Float) : Expression Float :=
  match p with
  | some (left, op) => .math op left e
  | none => e

/-- What waits on one level of parentheses: a sum and, as its last part, a product. -/
structure Level where
  sum : Pending := none
  product : Pending := none

def Level.closeProduct (l : Level) (e : Expression Float) : Expression Float := l.product.close e

def Level.close (l : Level) (e : Expression Float) : Expression Float :=
  l.sum.close (l.closeProduct e)

/-- An operator closes what binds at least as tightly, and waits with the result. -/
def Level.push (l : Level) (e : Expression Float) (op : Operator) : Level :=
  match op with
  | .add | .sub => { sum := some (l.close e, op) }
  | .mul | .div => { l with product := some (l.closeProduct e, op) }

/-- What has to come next. -/
inductive Place where
  | term
  /-- The literal of a minus sign. -/
  | literal
  /-- An operator, or the end of the level, after a term. -/
  | operator (e : Expression Float)

structure State where
  level : Level
  outer : List Level
  place : Place

def State.start : State := ⟨{}, [], .term⟩

open ParseError (Cause)

def unexpected (found : TokenKind) (expected : List TokenKind) : Cause :=
  match found with
  | .error => .unexpectedString expected
  | _ => .unexpectedToken (some found) expected

/-- A term is read; without one its dice literal was invalid. -/
def State.take (s : State) : Option (Expression Float) → Except Cause State
  | some e => .ok { s with place := .operator e }
  | none => .error .invalidDice

def State.readTerm (s : State) (t : Token) : Except Cause State :=
  match t.kind with
  | .leftParen => .ok ⟨{}, s.level :: s.outer, .term⟩
  | .minus => .ok { s with place := .literal }
  | .integer | .decimal => s.take (some (.number (readNumber t.text)))
  | .dice => s.take ((readDice? t.text).map fun (count, die) => .roll count die)
  | .advantage => s.take ((readDie? t.text).map .advantage)
  | .disadvantage => s.take ((readDie? t.text).map .disadvantage)
  | kind => .error (unexpected kind TokenKind.termStart)

/-- A minus sign negates a number, or the count of dice. -/
def State.readLiteral (s : State) (t : Token) : Except Cause State :=
  match t.kind with
  | .integer | .decimal => s.take (some (.number (-readNumber t.text)))
  | .dice => s.take ((readDice? t.text).map fun (count, die) => .roll (-count) die)
  | kind => .error (unexpected kind TokenKind.negatable)

/-- After a term; outside all parentheses only an operator can continue the text. -/
def State.readOperator (s : State) (e : Expression Float) (kind : TokenKind) :
    Except Cause State :=
  match kind.operator? with
  | some op => .ok { s with level := s.level.push e op, place := .term }
  | none =>
    match s.outer with
    | level :: outer =>
      if kind = .rightParen then .ok ⟨level, outer, .operator (s.level.close e)⟩
      else .error (unexpected kind [.rightParen])
    | [] =>
      if kind = .error then
        .error (.unexpectedString (TokenKind.additionOps ++ TokenKind.multiplicationOps))
      else .error (.trailingInput kind)

def State.read (s : State) (t : Token) : Except Cause State :=
  match s.place with
  | .term => s.readTerm t
  | .literal => s.readLiteral t
  | .operator e => s.readOperator e t.kind

/-- The expression that is complete, or the kinds of which one is still missing. -/
def State.finish (s : State) : Except (List TokenKind) (Expression Float) :=
  match s.place with
  | .term => .error TokenKind.termStart
  | .literal => .error TokenKind.negatable
  | .operator e =>
    match s.outer with
    | [] => .ok (s.level.close e)
    | _ :: _ => .error [.rightParen]

def State.readAll (length : Nat) (s : State) : List Token → Except ParseError (Expression Float)
  | [] => s.finish.mapError (ParseError.atEnd length)
  | t :: ts =>
    match s.read t with
    | .ok s => s.readAll length ts
    | .error cause => .error (.atToken t cause)

end DiceNotation.Reader

namespace DiceNotation

def Expression.parse (text : String) : Except ParseError (Expression Float) :=
  if text.isEmpty then .error ⟨.emptyExpression, 0, 0, []⟩
  else Reader.State.start.readAll text.utf8ByteSize (tokens text)

end DiceNotation
