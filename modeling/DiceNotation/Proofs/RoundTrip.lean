import DiceNotation.Expression.Printer
import DiceNotation.Proofs.DoubleBits
import DiceNotation.Proofs.Lexing
import DiceNotation.Proofs.Reading

/-!
Writing an expression and reading the text again. The notation reads back as the same expression
exactly when no face has been drawn in it, its numbers are finite and its counts have a positive
counterpart. Numbers come back bit for bit, the sign of a zero included.
-/
namespace DiceNotation

open Grammar

/- Texts of numbers. -/

theorem digits_toDigits (n : Nat) : Digits (Nat.toDigits 10 n) :=
  ⟨Nat.toDigits_ne_nil, fun _ hc => Nat.isDigit_of_mem_toDigits (by decide) (by decide) hc⟩

theorem digits_zeros (n : Nat) : ∀ c ∈ NumberFormat.zeros n, c.isDigit := fun _ hc =>
  List.eq_of_mem_replicate hc ▸ rfl

def IsNumeral (text : List Char) : Prop := ∃ kind, Numeral kind ∧ Matches kind text

theorem isNumeral_writePositional {digits : List Char} (h : Digits digits) (point : Int) :
    IsNumeral (NumberFormat.writePositional "" digits point) := by
  unfold NumberFormat.writePositional
  split
  · have places : Digits (NumberFormat.zeros (-point).toNat ++ digits) := by
      refine ⟨by simp [h.1], ?_⟩
      rw [List.forall_mem_append]
      exact ⟨digits_zeros _, h.2⟩
    have zero : Digits ['0'] := ⟨by simp, List.forall_mem_singleton.mpr rfl⟩
    exact ⟨.decimal, .decimal, .decimal zero places⟩
  · rename_i high
    split
    · rename_i inside
      have whole : Digits (digits.take point.toNat) := by
        refine ⟨?_, fun c hc => h.2 c (List.mem_of_mem_take hc)⟩
        rw [ne_eq, List.take_eq_nil_iff, not_or]
        exact ⟨by omega, h.1⟩
      have places : Digits (digits.drop point.toNat) := by
        refine ⟨?_, fun c hc => h.2 c (List.mem_of_mem_drop hc)⟩
        rw [ne_eq, List.drop_eq_nil_iff]
        omega
      exact ⟨.decimal, .decimal, .decimal whole places⟩
    · refine ⟨.integer, .integer, .integer ⟨by simp [h.1], ?_⟩⟩
      rw [List.forall_mem_append, List.forall_mem_append]
      exact ⟨⟨h.2, digits_zeros _⟩, by simp⟩

theorem isNumeral_writeMagnitude (bits : Nat) :
    IsNumeral (Expression.numbers.writeMagnitude bits) :=
  isNumeral_writePositional (digits_toDigits _) _

theorem readNumber_writeMagnitude {bits : Nat} (finite : bits < Binary.infinity) :
    readNumber (Expression.numbers.writeMagnitude bits) = Binary.ofMagnitude false bits := by
  rw [readNumber, NumberFormat.toBinary_writeMagnitude _ rfl rfl finite]

theorem toList_write {f : NumberFormat} {x : Float} (finite : x.isFinite = true) :
    (f.write x).toList =
      if Binary.isNegative x then '-' :: f.writeMagnitude (Binary.magnitude x)
      else f.writeMagnitude (Binary.magnitude x) := by
  have below := Binary.isFinite_iff.mp finite
  unfold NumberFormat.write
  dsimp only
  rw [if_neg (Nat.lt_asymm below), if_neg (Nat.ne_of_lt below), String.toList_ofList]

/-- What is not finite is written as a word. -/
theorem write_of_not_finite (f : NumberFormat) {x : Float} (h : x.isFinite ≠ true) :
    x.isNaN = true ∧ f.write x = f.notANumber ∨
      x = Binary.ofMagnitude false Binary.infinity ∧ f.write x = f.infinity ∨
      x = Binary.ofMagnitude true Binary.infinity ∧ f.write x = f.negativeInfinity := by
  have parts := Binary.ofMagnitude_parts x
  unfold NumberFormat.write
  dsimp only
  split
  · rename_i above
    exact .inl ⟨Binary.isNaN_iff.mpr above, rfl⟩
  · rename_i number
    have infinite : Binary.magnitude x = Binary.infinity := by
      rw [ne_eq, Binary.isFinite_iff] at h
      omega
    rw [if_pos infinite]
    rw [infinite] at parts
    split
    · rename_i negative
      rw [negative] at parts
      exact .inr (.inr ⟨parts.symm, rfl⟩)
    · rename_i positive
      rw [Bool.not_eq_true] at positive
      rw [positive] at parts
      exact .inr (.inl ⟨parts.symm, rfl⟩)

/- Texts of dice. -/

theorem letter_not_mem_toDigits (n : Nat) : 'd' ∉ Nat.toDigits 10 n := fun h =>
  absurd ((digits_toDigits n).2 'd' h) (by decide)

theorem diceCount_toDigits (n : Nat) : diceCount (Nat.toDigits 10 n) = n := by
  rw [diceCount, if_neg Nat.toDigits_ne_nil, Nat.ofDigitChars_ten_toDigits]

theorem namesDie_toDigits (before : List Char) (plain : 'd' ∉ before) (die : Die) :
    NamesDie (before ++ 'd' :: Nat.toDigits 10 die.sides) die :=
  ⟨before, _, plain, rfl, Nat.ofDigitChars_ten_toDigits.symm⟩

theorem namesDice_toDigits {n : Nat} (die : Die) (small : n ≤ 0x7fffffffffffffff) :
    NamesDice (Nat.toDigits 10 n ++ 'd' :: Nat.toDigits 10 die.sides) n die :=
  ⟨_, _, letter_not_mem_toDigits n, rfl, Nat.ofDigitChars_ten_toDigits.symm,
    (diceCount_toDigits n).symm, small⟩

theorem toList_toString_int (n : Int) :
    (toString n).toList =
      (if n < 0 then ['-'] else []) ++ Nat.toDigits 10 n.natAbs := by
  rw [Int.toString_eq_repr, Int.repr_eq_if]
  by_cases h : n < 0
  · have size : (-n).toNat = n.natAbs := by omega
    rw [if_neg (Int.not_le.mpr h), if_pos h, size]
    simp [Nat.toList_repr]
  · have size : n.toNat = n.natAbs := by omega
    rw [if_pos (Int.not_lt.mp h), if_neg h, size]
    simp [Nat.toList_repr]

theorem toList_diceText (count : Int64) (die : Die) :
    (Expression.diceText count die).toList =
      (if count.toInt < 0 then ['-'] else []) ++
        (Nat.toDigits 10 count.toInt.natAbs ++ 'd' :: Nat.toDigits 10 die.sides) := by
  rw [Expression.diceText, String.toList_append, String.toList_append, toList_toString_int]
  simp

/- Texts of expressions. -/

/-- The text splits into the lexemes of a phrase for the expression, whatever closed text comes
behind it. -/
def Written (p : Phrase) (text : List Char) (e : Expression Float) : Prop :=
  ∃ ls, Derives p ls e ∧ ∀ rest, Closed rest → lex (text ++ rest) = ls ++ lex rest

def Grammar.Phrase.rank : Phrase → Nat
  | .sum => 1
  | .product => 2
  | .term => 3

theorem Written.loosen {p q : Phrase} {text : List Char} {e : Expression Float}
    (h : Written p text e) (rank : q.rank ≤ p.rank) : Written q text e := by
  obtain ⟨ls, derives, split⟩ := h
  refine ⟨ls, ?_, split⟩
  cases p <;> cases q <;> first
    | exact derives
    | exact .product derives
    | exact .term derives
    | exact .product (.term derives)
    | exact absurd rank (by decide)

theorem lex_symbol {kind : TokenKind} {c : Char} (ink : isBlank c = false)
    (found : ∀ rest, longestMatch? (c :: rest) = some (kind, 1)) (rest : List Char) :
    lex (c :: rest) = (kind, [c]) :: lex rest :=
  @lex_token kind c [] rest ink (found rest)

theorem lex_operator {kind : TokenKind} {op : Operator} (h : kind.operator? = some op)
    (rest : List Char) :
    lex (' ' :: op.symbol :: ' ' :: rest) = (kind, [op.symbol]) :: lex rest := by
  have space : isBlank ' ' = true := rfl
  rw [lex_blank space, ← lex_blank space rest]
  cases kind <;> cases h <;> exact lex_symbol rfl (fun _ => rfl) _

theorem closed_parenthesis (rest : List Char) : Closed (')' :: rest) := by
  rintro c ⟨⟩
  decide

theorem closed_blank (rest : List Char) : Closed (' ' :: rest) := by
  rintro c ⟨⟩
  decide

theorem Written.parentheses {text : List Char} {e : Expression Float} (h : Written .sum text e) :
    Written .term ('(' :: text ++ [')']) e := by
  obtain ⟨ls, derives, split⟩ := h
  refine ⟨(.leftParen, ['(']) :: ls ++ [(.rightParen, [')'])], .parentheses derives, ?_⟩
  intro rest closed
  rw [List.cons_append, List.cons_append, lex_symbol rfl (fun _ => rfl), List.append_assoc,
    List.singleton_append, split _ (closed_parenthesis rest), lex_symbol rfl (fun _ => rfl)]
  simp

theorem split_operator {left right : List Char} {ls rs : List Lexeme} {kind : TokenKind}
    {op : Operator} (operator : kind.operator? = some op)
    (hl : ∀ rest, Closed rest → lex (left ++ rest) = ls ++ lex rest)
    (hr : ∀ rest, Closed rest → lex (right ++ rest) = rs ++ lex rest) :
    ∀ rest, Closed rest → lex (left ++ ' ' :: op.symbol :: ' ' :: right ++ rest) =
      (ls ++ (kind, [op.symbol]) :: rs) ++ lex rest := by
  intro rest closed
  rw [List.append_assoc, List.cons_append, hl _ (closed_blank _)]
  rw [List.cons_append, List.cons_append, lex_operator operator, hr rest closed]
  simp

theorem Written.addition {left right : List Char} {l r : Expression Float} {kind : TokenKind}
    {op : Operator} (adds : Adds kind op) (hl : Written .sum left l)
    (hr : Written .product right r) :
    Written .sum (left ++ ' ' :: op.symbol :: ' ' :: right) (.math op l r) := by
  obtain ⟨ls, dl, sl⟩ := hl
  obtain ⟨rs, dr, sr⟩ := hr
  have operator : kind.operator? = some op := by cases adds <;> rfl
  exact ⟨_, .addition dl adds dr, split_operator operator sl sr⟩

theorem Written.multiplication {left right : List Char} {l r : Expression Float}
    {kind : TokenKind} {op : Operator} (multiplies : Multiplies kind op)
    (hl : Written .product left l) (hr : Written .term right r) :
    Written .product (left ++ ' ' :: op.symbol :: ' ' :: right) (.math op l r) := by
  obtain ⟨ls, dl, sl⟩ := hl
  obtain ⟨rs, dr, sr⟩ := hr
  have operator : kind.operator? = some op := by cases multiplies <;> rfl
  exact ⟨_, .multiplication dl multiplies dr, split_operator operator sl sr⟩

theorem lex_signed {kind : TokenKind} {text rest : List Char} (found : Matches kind text)
    (closed : Closed rest) :
    lex ('-' :: text ++ rest) = [(.minus, ['-']), (kind, text)] ++ lex rest := by
  rw [List.cons_append, lex_symbol rfl (fun _ => rfl), lex_append found closed]
  rfl

/-- A numeral, with or without a sign before it. -/
theorem written_numeral {kind : TokenKind} {text : List Char} {bits : Nat}
    (numeral : Numeral kind) (found : Matches kind text) (bound : bits ≤ Binary.infinity)
    (value : readNumber text = Binary.ofMagnitude false bits) (negative : Bool) :
    Written .term (if negative then '-' :: text else text)
      (.number (Binary.ofMagnitude negative bits)) := by
  cases negative with
  | false =>
    rw [← value]
    exact ⟨_, .number numeral, fun rest closed => lex_append found closed⟩
  | true =>
    have opposite : -readNumber text = Binary.ofMagnitude true bits := by
      rw [value]
      exact Binary.neg_ofMagnitude false bound
    rw [← opposite]
    exact ⟨_, .negatedNumber numeral, fun rest closed => lex_signed found closed⟩

theorem written_number {x : Float} (finite : x.isFinite = true) :
    Written .term (Expression.numbers.write x).toList (.number x) := by
  have below := Binary.isFinite_iff.mp finite
  obtain ⟨kind, numeral, found⟩ := isNumeral_writeMagnitude (Binary.magnitude x)
  have value := readNumber_writeMagnitude below
  have written := written_numeral numeral found (Nat.le_of_lt below) value (Binary.isNegative x)
  rw [Binary.ofMagnitude_parts] at written
  rw [toList_write finite]
  exact written

theorem matches_dice (n : Nat) (die : Die) :
    Matches .dice (Nat.toDigits 10 n ++ 'd' :: Nat.toDigits 10 die.sides) :=
  .dice (digits_toDigits n).2 (digits_toDigits die.sides)

theorem written_roll {count : Int64} (counted : count ≠ Int64.minValue) (die : Die) :
    Written .term (Expression.diceText count die).toList (.roll count die) := by
  have above : count.toInt ≠ Int64.minValue.toInt := fun h => counted (Int64.toInt_inj.mp h)
  have least := count.minValue_le_toInt
  have most := count.toInt_le
  have small : count.toInt.natAbs ≤ 0x7fffffffffffffff := by
    have bottom : Int64.minValue.toInt = -0x8000000000000000 := rfl
    have top : Int64.maxValue.toInt = 0x7fffffffffffffff := rfl
    omega
  have names := namesDice_toDigits die small
  have found := matches_dice count.toInt.natAbs die
  rw [toList_diceText]
  generalize Nat.toDigits 10 count.toInt.natAbs ++ 'd' :: Nat.toDigits 10 die.sides = text at *
  split
  · rename_i negative
    have value : Int64.ofInt (-(count.toInt.natAbs : Int)) = count := by
      rw [Int.ofNat_natAbs_of_nonpos (Int.le_of_lt negative), Int.neg_neg, Int64.ofInt_toInt]
    have derives : Derives .term [(.minus, ['-']), (.dice, text)] (.roll count die) :=
      value ▸ .negatedDice names
    exact ⟨_, derives, fun rest closed => lex_signed found closed⟩
  · rename_i positive
    have value : Int64.ofInt (count.toInt.natAbs : Int) = count := by
      rw [Int.natAbs_of_nonneg (Int.not_lt.mp positive), Int64.ofInt_toInt]
    have derives : Derives .term [(.dice, text)] (.roll count die) := value ▸ .dice names
    exact ⟨_, derives, fun rest closed => lex_append found closed⟩

theorem written_advantage (die : Die) :
    Written .term ("^d" ++ toString die.sides).toList (.advantage die) := by
  have text : ("^d" ++ toString die.sides).toList = ['^'] ++ 'd' :: Nat.toDigits 10 die.sides := by
    simp
  have names := namesDie_toDigits ['^'] (by decide) die
  have found := Matches.advantage (digits_toDigits die.sides)
  rw [text]
  exact ⟨_, .advantage names, fun rest closed => lex_append found closed⟩

theorem written_disadvantage (die : Die) :
    Written .term ("vd" ++ toString die.sides).toList (.disadvantage die) := by
  have text : ("vd" ++ toString die.sides).toList = ['v'] ++ 'd' :: Nat.toDigits 10 die.sides := by
    simp
  have names := namesDie_toDigits ['v'] (by decide) die
  have found := Matches.disadvantage (digits_toDigits die.sides)
  rw [text]
  exact ⟨_, .disadvantage names, fun rest closed => lex_append found closed⟩

namespace Expression

/-- What can be written down: no drawn faces, no infinite number or one that is none, and no
count without a positive counterpart. -/
def Writable : Expression Float → Prop
  | number x => x.isFinite = true
  | roll count _ => count ≠ Int64.minValue
  | advantage _ | disadvantage _ => True
  | rolled .. => False
  | math _ l r => l.Writable ∧ r.Writable

def phrase : Expression Float → Phrase
  | math op _ _ => if op.precedence = 1 then .sum else .product
  | _ => .term

/-- The phrase that an operator takes on one of its sides. -/
def operand (op : Operator) (onRight : Bool) : Phrase :=
  match op, onRight with
  | .add, false | .sub, false => .sum
  | .add, true | .sub, true | .mul, false | .div, false => .product
  | .mul, true | .div, true => .term

theorem toList_parenthesized (yes : Bool) (text : String) :
    (parenthesized yes text).toList =
      if yes then '(' :: text.toList ++ [')'] else text.toList := by
  cases yes <;> simp [parenthesized]

/-- Parentheses stand exactly where the phrase of the operand is too loose for its place. -/
theorem needsParens_eq (e : Expression Float) (op : Operator) (onRight : Bool) :
    e.needsParens op onRight = decide (e.phrase.rank < (operand op onRight).rank) := by
  cases e with
  | math inner l r => cases inner <;> cases op <;> cases onRight <;> rfl
  | _ => cases op <;> cases onRight <;> rfl

theorem written_operand {e : Expression Float} (h : Written e.phrase e.text.toList e)
    (op : Operator) (onRight : Bool) :
    Written (operand op onRight) (parenthesized (e.needsParens op onRight) e.text).toList e := by
  rw [toList_parenthesized, needsParens_eq]
  split
  · have inner : Written .sum e.text.toList e := h.loosen (by cases e.phrase <;> decide)
    exact inner.parentheses.loosen (by cases operand op onRight <;> decide)
  · rename_i fits
    exact h.loosen (by simpa using fits)

theorem toList_text_math (op : Operator) (l r : Expression Float) :
    (math op l r).text.toList =
      (parenthesized (l.needsParens op false) l.text).toList ++
        ' ' :: op.symbol :: ' ' :: (parenthesized (r.needsParens op true) r.text).toList := by
  simp [text, Operator.text]

theorem written_text {e : Expression Float} (h : e.Writable) :
    Written e.phrase e.text.toList e := by
  induction e with
  | number x => exact written_number h
  | roll count die => exact written_roll h die
  | advantage die => exact written_advantage die
  | disadvantage die => exact written_disadvantage die
  | rolled _ _ _ => contradiction
  | math op l r ihl ihr =>
    have left := written_operand (ihl h.1) op false
    have right := written_operand (ihr h.2) op true
    rw [toList_text_math]
    cases op with
    | add => exact .addition .plus left right
    | sub => exact .addition .minus left right
    | mul => exact .multiplication .star left right
    | div => exact .multiplication .slash left right

theorem parse_of_written {text : String} {e : Expression Float}
    (written : Written .sum text.toList e) : Expression.parse text = .ok e := by
  obtain ⟨ls, derives, split⟩ := written
  have closed : Closed [] := by rintro c ⟨⟩
  have whole : lex text.toList = ls := by simpa [lex_nil] using split [] closed
  rw [parse_eq_ok_iff, lexemes_eq_lex, whole]
  exact derives

theorem parse_text {e : Expression Float} (h : e.Writable) : Expression.parse e.text = .ok e :=
  parse_of_written ((written_text h).loosen (by cases e.phrase <;> decide))

/- The other direction. -/

def Undrawn : Expression Float → Prop
  | number _ | advantage _ | disadvantage _ => True
  | roll count _ => count ≠ Int64.minValue
  | rolled .. => False
  | math _ l r => l.Undrawn ∧ r.Undrawn

theorem ofInt_ne_minValue {count : Int} (small : count.natAbs ≤ 0x7fffffffffffffff) :
    Int64.ofInt count ≠ Int64.minValue := by
  have bottom : Int64.minValue.toInt = -0x8000000000000000 := rfl
  intro least
  have value : (Int64.ofInt count).toInt = count :=
    Int64.toInt_ofInt_of_le (by omega) (by omega)
  rw [least] at value
  omega

theorem count_ne_minValue {text : List Char} {n : Nat} {die : Die} (h : NamesDice text n die)
    {count : Int} (size : count.natAbs = n) : Int64.ofInt count ≠ Int64.minValue := by
  obtain ⟨_, _, _, _, _, _, small⟩ := h
  exact ofInt_ne_minValue (by omega)

theorem undrawn_of_derives {p : Phrase} {ls : List Lexeme} {e : Expression Float}
    (h : Derives p ls e) : e.Undrawn := by
  induction h with
  | product _ ih => exact ih
  | term _ ih => exact ih
  | addition _ _ _ ihl ihr => exact ⟨ihl, ihr⟩
  | multiplication _ _ _ ihl ihr => exact ⟨ihl, ihr⟩
  | dice names => exact count_ne_minValue names (Int.natAbs_natCast _)
  | negatedDice names => exact count_ne_minValue names (by omega)
  | parentheses _ ih => exact ih
  | _ => trivial

theorem mem_parenthesized {yes : Bool} {text : String} {c : Char} (h : c ∈ text.toList) :
    c ∈ (parenthesized yes text).toList := by
  rw [toList_parenthesized]
  cases yes <;> simp [h]

theorem strange_of_not_finite {x : Float} (h : x.isFinite ≠ true) :
    ∃ c ∈ (numbers.write x).toList, isBlank c = false ∧ ¬Inked c := by
  rcases write_of_not_finite numbers h with ⟨-, text⟩ | ⟨-, text⟩ | ⟨-, text⟩
  · exact text ▸ ⟨'N', by decide, rfl, by unfold Inked; decide⟩
  · exact text ▸ ⟨'i', by decide, rfl, by unfold Inked; decide⟩
  · exact text ▸ ⟨'i', by decide, rfl, by unfold Inked; decide⟩

theorem writable_of_inked {e : Expression Float} (h : e.Undrawn)
    (inked : ∀ c ∈ e.text.toList, isBlank c = true ∨ Inked c) : e.Writable := by
  induction e with
  | number x =>
    by_cases finite : x.isFinite = true
    · exact finite
    · obtain ⟨c, mem, ink, strange⟩ := strange_of_not_finite finite
      rcases inked c mem with blank | plain
      · rw [ink] at blank
        contradiction
      · exact absurd plain strange
  | math op l r ihl ihr =>
    rw [toList_text_math] at inked
    refine ⟨ihl h.1 fun c hc => ?_, ihr h.2 fun c hc => ?_⟩
    · exact inked c (List.mem_append_left _ (mem_parenthesized hc))
    · refine inked c (List.mem_append_right _ ?_)
      simp [mem_parenthesized hc]
  | roll _ _ => exact h
  | rolled _ _ _ => exact h
  | advantage _ | disadvantage _ => trivial

theorem inked_of_parse {text : String} {e : Expression Float}
    (h : Expression.parse text = .ok e) : ∀ c ∈ text.toList, isBlank c = true ∨ Inked c := by
  intro c hc
  cases ink : isBlank c with
  | true => exact .inl rfl
  | false =>
    refine .inr (Classical.byContradiction fun strange => ?_)
    obtain ⟨l, mem, error⟩ := error_of_mem hc ink strange
    exact no_error_token (parse_eq_ok_iff.mp h) l mem error

/-- The notation of an expression reads back as the same expression, number bits included, if
and only if the expression can be written. -/
theorem parse_text_eq_ok_iff_writable (e : Expression Float) :
    Expression.parse e.text = .ok e ↔ e.Writable := by
  constructor
  · intro h
    exact writable_of_inked (undrawn_of_derives (parse_eq_ok_iff.mp h)) (inked_of_parse h)
  · exact parse_text

end Expression

end DiceNotation
