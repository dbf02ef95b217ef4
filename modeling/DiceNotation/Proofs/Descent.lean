import DiceNotation.Proofs.Refusals
import DiceNotation.Proofs.RoundTrip

/-!
Reading by recursive descent. Each phrase is read by a function of its own, which looks at the token
ahead before it calls another, and the function that is called checks again what its caller has
seen. Those checks, and the conversions of literals, can fail on a token that another caller might
leave; in a whole text none of them ever does.
-/
namespace DiceNotation

open ParseError (Cause)

/-- A reader of a text of `length` bytes, and its conversion of numbers. -/
structure Descent where
  length : Nat
  convert : List Char → Option Float

namespace Descent

/-- The token that was taken last, an empty one at first, and the tokens ahead. -/
structure Cursor where
  last : Token
  ahead : List Token

/-- What a function relies on without looking at the text itself. -/
inductive Check where
  /-- An operator is ahead. -/
  | operator
  /-- The token taken last converts to a number. -/
  | numeral
  /-- A left parenthesis is ahead. -/
  | parenthesis
  /-- A minus sign is ahead. -/
  | sign
  /-- The token taken last has a letter `d`. -/
  | letter
  deriving DecidableEq

inductive Stop where
  /-- The text is refused. -/
  | refused (e : ParseError)
  /-- A check fails, and the error is what would be told of it. -/
  | unmet (check : Check) (e : ParseError)
  /-- A count has no opposite. -/
  | overflow
  deriving DecidableEq

namespace Cursor

def peek (c : Cursor) : Option TokenKind := c.ahead.head?.map (·.kind)

/-- Errors point at the token that was taken last. -/
def error (c : Cursor) (cause : Cause) : ParseError := .atToken c.last cause

/-- At least one token of those ahead of `c` has been taken. -/
structure Past (c d : Cursor) : Prop where
  suffix : d.ahead <:+ c.ahead
  shorter : d.ahead.length < c.ahead.length

theorem Past.trans {c d e : Cursor} (h : c.Past d) (h' : d.Past e) : c.Past e :=
  ⟨h'.suffix.trans h.suffix, Nat.lt_trans h'.shorter h.shorter⟩

theorem Past.further {c d e : Cursor} (h : c.Past d) (suffix : e.ahead <:+ d.ahead) : c.Past e :=
  ⟨suffix.trans h.suffix, Nat.lt_of_le_of_lt suffix.length_le h.shorter⟩

end Cursor

/-- A result, and where the tokens that make it up end. -/
abbrev Taken (c : Cursor) (α : Type) := { p : α × Cursor // c.Past p.2 }

section

variable (r : Descent)

def advance (c : Cursor) : Cursor :=
  match c.ahead with
  | t :: ahead => ⟨t, ahead⟩
  | [] => ⟨⟨.error, [], r.length⟩, []⟩

theorem past_advance {c : Cursor} {kind : TokenKind} (h : c.peek = some kind) :
    c.Past (r.advance c) := by
  obtain ⟨last, ahead⟩ := c
  cases ahead with
  | nil => cases h
  | cons t ahead => exact ⟨List.suffix_cons t ahead, Nat.lt_succ_self _⟩

def unexpected (c : Cursor) (expected : List TokenKind) : ParseError :=
  match c.peek with
  | none => .atEnd r.length expected
  | some .error => (r.advance c).error (.unexpectedString expected)
  | some kind => (r.advance c).error (.unexpectedToken (some kind) expected)

/-- The token of the kind that has to be ahead. -/
def consume (c : Cursor) (kind : TokenKind) (stop : ParseError → Stop) :
    Except Stop { d // c.Past d } :=
  if h : c.peek = some kind then .ok ⟨r.advance c, r.past_advance h⟩
  else .error (stop (r.unexpected c [kind]))

def operator (c : Cursor) : Except Stop (Taken c Operator) :=
  match h : c.peek with
  | some kind =>
    match kind.operator? with
    | some op => .ok ⟨(op, r.advance c), r.past_advance h⟩
    | none => .error (.unmet .operator ((r.advance c).error .unknownOperator))
  | none => .error (.unmet .operator ((r.advance c).error .unknownOperator))

/- Literals. -/

def number (c : Cursor) : Except Stop Float :=
  match r.convert c.last.text with
  | some x => .ok x
  | none => .error (.unmet .numeral (c.error (.unexpectedString [.integer, .decimal])))

/-- No count is read from what marks two dice of which one counts. -/
def diceOf? (front faces : List Char) : Option (Option Int64 × Die) := do
  let die ← Die.ofSides? (Nat.ofDigitChars 10 faces 0)
  match front with
  | [] | ['^'] | ['v'] => return (none, die)
  | digits =>
    let count ← readCount? digits
    return (some count, die)

/-- The token is split at its first letter `d`. -/
def dice (c : Cursor) : Except Stop (Option Int64 × Die) :=
  match c.last.text.dropWhile (· ≠ 'd') with
  | [] => .error (.unmet .letter (c.error .invalidDice))
  | _ :: faces =>
    match diceOf? (c.last.text.takeWhile (· ≠ 'd')) faces with
    | some dice => .ok dice
    | none => .error (.refused (c.error .invalidDice))

/-- The least count has no opposite in 64 bits. -/
def opposite (count : Int64) : Except Stop Int64 :=
  if count = Int64.minValue then .error .overflow else .ok (-count)

def negated (c : Cursor) : Except Stop (Taken c (Expression Float)) := do
  let ⟨d, past⟩ ← r.consume c .minus (.unmet .sign)
  match h : d.peek with
  | some .integer | some .decimal =>
    let x ← r.number (r.advance d)
    return ⟨(.number (-x), r.advance d), past.trans (r.past_advance h)⟩
  | some .dice =>
    let (count, die) ← dice (r.advance d)
    let count ← opposite (count.getD 1)
    return ⟨(.roll count die, r.advance d), past.trans (r.past_advance h)⟩
  | _ => .error (.refused (r.unexpected d TokenKind.negatable))

end

/- Phrases. -/

/-- Operands of one precedence, with operators between them. -/
inductive Layer where
  | product
  | sum

def Layer.operators : Layer → List TokenKind
  | product => TokenKind.multiplicationOps
  | sum => TokenKind.additionOps

/-- The more phrases a layer reads at the same place, the higher its rank. -/
def Layer.rank : Layer → Nat
  | product => 2
  | sum => 4

mutual

def term (r : Descent) (c : Cursor) : Except Stop (Taken c (Expression Float)) :=
  match h : c.peek with
  | some .leftParen => r.parentheses c
  | some .minus => r.negated c
  | some .integer | some .decimal => do
    let x ← r.number (r.advance c)
    return ⟨(.number x, r.advance c), r.past_advance h⟩
  | some .dice => do
    let (count, die) ← dice (r.advance c)
    return ⟨(.roll (count.getD 1) die, r.advance c), r.past_advance h⟩
  | some .advantage => do
    let (_, die) ← dice (r.advance c)
    return ⟨(.advantage die, r.advance c), r.past_advance h⟩
  | some .disadvantage => do
    let (_, die) ← dice (r.advance c)
    return ⟨(.disadvantage die, r.advance c), r.past_advance h⟩
  | _ => .error (.refused (r.unexpected c TokenKind.termStart))
termination_by (c.ahead.length, 1)

def parentheses (r : Descent) (c : Cursor) : Except Stop (Taken c (Expression Float)) := do
  let ⟨inside, past⟩ ← r.consume c .leftParen (.unmet .parenthesis)
  let ⟨(e, d), past'⟩ ← r.chain .sum inside
  let ⟨behind, past''⟩ ← r.consume d .rightParen .refused
  return ⟨(e, behind), past.trans (past'.trans past'')⟩
termination_by (c.ahead.length, 0)
decreasing_by exact Prod.Lex.left _ _ past.shorter

def operand (r : Descent) (layer : Layer) (c : Cursor) :
    Except Stop (Taken c (Expression Float)) :=
  match layer with
  | .product => r.term c
  | .sum => r.chain .product c
termination_by (c.ahead.length, layer.rank)
decreasing_by all_goals exact Prod.Lex.right _ (by decide)

def chain (r : Descent) (layer : Layer) (c : Cursor) :
    Except Stop (Taken c (Expression Float)) := do
  let ⟨(e, d), past⟩ ← r.operand layer c
  let ⟨result, suffix⟩ ← r.rest layer e d
  return ⟨result, past.further suffix⟩
termination_by (c.ahead.length, layer.rank + 1)
decreasing_by
  · exact Prod.Lex.right _ (Nat.lt_succ_self _)
  · exact Prod.Lex.left _ _ past.shorter

/-- As long as an operator of the layer is ahead, what is read is its left operand. -/
def rest (r : Descent) (layer : Layer) (left : Expression Float) (c : Cursor) :
    Except Stop { p : Expression Float × Cursor // p.2.ahead <:+ c.ahead } :=
  if c.peek.any (· ∈ layer.operators) then do
    let ⟨(op, d), past⟩ ← r.operator c
    let ⟨(right, d'), past'⟩ ← r.operand layer d
    let ⟨result, suffix⟩ ← r.rest layer (.math op left right) d'
    return ⟨result, ((past.trans past').further suffix).suffix⟩
  else .ok ⟨(left, c), List.suffix_refl _⟩
termination_by (c.ahead.length, 0)
decreasing_by
  · exact Prod.Lex.left _ _ past.shorter
  · exact Prod.Lex.left _ _ (past.trans past').shorter

end

/-- A whole text is one sum. -/
def whole (r : Descent) (tokens : List Token) : Except Stop (Expression Float) := do
  let ⟨(e, d), _⟩ ← r.chain .sum ⟨⟨.error, [], 0⟩, tokens⟩
  match d.peek with
  | none => return e
  | some .error =>
    let expected := TokenKind.additionOps ++ TokenKind.multiplicationOps
    .error (.refused ((r.advance d).error (.unexpectedString expected)))
  | some kind => .error (.refused ((r.advance d).error (.trailingInput kind)))

def parse (convert : List Char → Option Float) (text : String) :
    Except Stop (Expression Float) :=
  if text.isEmpty then .error (.refused ⟨.emptyExpression, 0, 0, []⟩)
  else whole ⟨text.utf8ByteSize, convert⟩ (tokens text)

/- Induction along the tokens. -/

theorem Cursor.induction {motive : Cursor → Prop}
    (step : ∀ c, (∀ d, c.Past d → motive d) → motive c) (c : Cursor) : motive c := by
  induction size : c.ahead.length using Nat.strong_induction_on generalizing c with
  | _ n ih =>
    subst size
    exact step c fun d past => ih _ past.shorter d rfl

/-- What holds of operands, as long as it holds of the chains in them, and of chains, as long as
it holds of their operands. -/
theorem chain_induction (onOperand onChain : Layer → Cursor → Prop)
    (term : ∀ c, (∀ d, c.Past d → onChain .sum d) → onOperand .product c)
    (product : ∀ c, onChain .product c → onOperand .sum c)
    (chain : ∀ layer c, onOperand layer c → (∀ d, c.Past d → onOperand layer d) →
      onChain layer c) (c : Cursor) : onChain .sum c := by
  have all (c : Cursor) : ∀ layer, onOperand layer c ∧ onChain layer c := by
    induction c using Cursor.induction with
    | step c ih =>
      -- At one place a term comes before the product that it begins, and that before its sum.
      have operands (layer : Layer) (d : Cursor) (past : c.Past d) := (ih d past layer).1
      have terms := term c fun d past => (ih d past .sum).2
      have products := chain .product c terms (operands .product)
      have summands := product c products
      intro layer
      cases layer with
      | product => exact ⟨terms, products⟩
      | sum => exact ⟨summands, chain .sum c summands (operands .sum)⟩
  exact (all c .sum).2

end Descent

end DiceNotation
