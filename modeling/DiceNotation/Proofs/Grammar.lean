import DiceNotation.Expression.Parser

/-!
The grammar of dice notation, apart from any reader of it.

    sum     := product (('+' | '-') product)*
    product := term (('*' | '/') term)*
    term    := number | '-' number | dice | '-' dice | advantage | disadvantage | '(' sum ')'

Repetitions group to the left, so each is written here as a rule with the longer phrase on its
left. Positions play no part: the grammar speaks of the kinds and the characters of tokens.
-/
namespace DiceNotation

/-- A token without its place in the text. -/
abbrev Lexeme := TokenKind × List Char

def Token.lexeme (t : Token) : Lexeme := (t.kind, t.text)

def lexemes (text : String) : List Lexeme := (tokens text).map Token.lexeme

namespace Grammar

/-- The characters after the letter `d` count the faces of the die. -/
def NamesDie (text : List Char) (die : Die) : Prop :=
  ∃ before faces, 'd' ∉ before ∧ text = before ++ 'd' :: faces ∧
    die.sides = Nat.ofDigitChars 10 faces 0

/-- The number of dice that the digits before the letter say; without digits there is one. -/
def diceCount (digits : List Char) : Nat :=
  if digits = [] then 1 else Nat.ofDigitChars 10 digits 0

/-- No literal names more than `2 ^ 63 - 1` dice. -/
def NamesDice (text : List Char) (n : Nat) (die : Die) : Prop :=
  ∃ count faces, 'd' ∉ count ∧ text = count ++ 'd' :: faces ∧
    die.sides = Nat.ofDigitChars 10 faces 0 ∧ n = diceCount count ∧ n ≤ 0x7fffffffffffffff

inductive Adds : TokenKind → Operator → Prop where
  | plus : Adds .plus .add
  | minus : Adds .minus .sub

inductive Multiplies : TokenKind → Operator → Prop where
  | star : Multiplies .star .mul
  | slash : Multiplies .slash .div

inductive Numeral : TokenKind → Prop where
  | integer : Numeral .integer
  | decimal : Numeral .decimal

inductive Phrase where
  | sum
  | product
  | term

/-- The lexemes form a phrase, and the tree is what the phrase stands for. -/
inductive Derives : Phrase → List Lexeme → Expression Float → Prop where
  | product {ls e} : Derives .product ls e → Derives .sum ls e
  | addition {ls rs l r kind sign op} : Derives .sum ls l → Adds kind op →
      Derives .product rs r → Derives .sum (ls ++ (kind, sign) :: rs) (.math op l r)
  | term {ls e} : Derives .term ls e → Derives .product ls e
  | multiplication {ls rs l r kind sign op} : Derives .product ls l → Multiplies kind op →
      Derives .term rs r → Derives .product (ls ++ (kind, sign) :: rs) (.math op l r)
  | number {kind text} : Numeral kind →
      Derives .term [(kind, text)] (.number (readNumber text))
  | negatedNumber {kind sign text} : Numeral kind →
      Derives .term [(.minus, sign), (kind, text)] (.number (-readNumber text))
  | dice {text n die} : NamesDice text n die →
      Derives .term [(.dice, text)] (.roll (Int64.ofInt n) die)
  | negatedDice {sign text n die} : NamesDice text n die →
      Derives .term [(.minus, sign), (.dice, text)] (.roll (Int64.ofInt (-n)) die)
  | advantage {text die} : NamesDie text die →
      Derives .term [(.advantage, text)] (.advantage die)
  | disadvantage {text die} : NamesDie text die →
      Derives .term [(.disadvantage, text)] (.disadvantage die)
  | parentheses {left right ls e} : Derives .sum ls e →
      Derives .term ((.leftParen, left) :: ls ++ [(.rightParen, right)]) e

/-- A term has to follow: nothing stands before it, or a parenthesis, an operator or a sign. -/
def TermDue (before : List Lexeme) : Prop :=
  ∀ l ∈ before.getLast?, l.1 ∈ [.leftParen, .plus, .minus, .star, .slash]

theorem no_error_token {p : Phrase} {ls : List Lexeme} {e : Expression Float}
    (h : Derives p ls e) : ∀ l ∈ ls, l.1 ≠ .error := by
  induction h with
  | product _ ih => exact ih
  | term _ ih => exact ih
  | addition _ adds _ ihl ihr =>
    simp only [List.forall_mem_append, List.forall_mem_cons]
    exact ⟨ihl, by cases adds <;> simp, ihr⟩
  | multiplication _ multiplies _ ihl ihr =>
    simp only [List.forall_mem_append, List.forall_mem_cons]
    exact ⟨ihl, by cases multiplies <;> simp, ihr⟩
  | number numeral => cases numeral <;> simp
  | negatedNumber numeral => cases numeral <;> simp
  | parentheses _ ih =>
    rw [List.forall_mem_append, List.forall_mem_cons, List.forall_mem_singleton]
    exact ⟨⟨by simp, ih⟩, by simp⟩
  | _ => simp

end Grammar

end DiceNotation
