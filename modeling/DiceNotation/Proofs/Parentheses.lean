import DiceNotation.Proofs.Partition
import DiceNotation.Proofs.RoundTrip

/-!
Parentheses that an expression cannot do without. The notation puts a pair around an operand just
where the grammar admits no phrase as loose as the operand is, so every text that reads as the
expression has a pair there, too.
-/
namespace DiceNotation

open Grammar

def openings (ls : List Lexeme) : Nat := ls.countP fun l => l.1 = .leftParen

/- A left parenthesis is always a token of its own. -/

theorem Matches.count_opening {kind : TokenKind} {body : List Char} (h : Matches kind body) :
    body.count '(' = if kind = .leftParen then 1 else 0 := by
  have none {ds : List Char} (digits : ∀ c ∈ ds, c.isDigit) : ds.count '(' = 0 :=
    List.count_eq_zero.mpr fun member => absurd (digits _ member) (by decide)
  cases h with
  | integer digits => simp [none digits.2]
  | decimal digits places => simp [none digits.2, none places.2]
  | dice digits faces => simp [none digits, none faces.2]
  | advantage faces | disadvantage faces => simp [none faces.2]
  | _ => rfl

theorem Taken.count_opening {rest body : List Char} {kind : TokenKind}
    (taken : Taken rest kind body) : body.count '(' = if kind = .leftParen then 1 else 0 := by
  cases taken with
  | longest h => exact h.count_opening
  | @stray c front none =>
    have other : c ≠ '(' := by
      rintro rfl
      exact none _ _ .leftParen front
    simp [other]

theorem openings_tokensFrom (p : Nat) (cs : List Char) :
    openings ((tokensFrom p 0 cs).map Token.lexeme) = cs.count '(' := by
  induction p, cs using tokens_induction with
  | nil p => rfl
  | blank p c cs blank ih =>
    have other : c ≠ '(' := by
      rintro rfl
      contradiction
    rw [tokensFrom, if_pos blank, ih, List.count_cons_of_ne other]
  | token p c cs t after ink step start parts taken ih =>
    unfold openings at ih ⊢
    rw [step, parts, List.map_cons, List.countP_cons, ih, List.count_append, taken.count_opening]
    by_cases opening : t.kind = .leftParen <;> simp [Token.lexeme, opening, Nat.add_comm]

theorem openings_lexemes (text : String) : openings (lexemes text) = text.toList.count '(' :=
  openings_tokensFrom 0 text.toList

namespace Expression

/-- The pairs of parentheses in the notation. -/
def groups : Expression Float → Nat
  | math op l r =>
    (l.needsParens op false).toNat + l.groups + ((r.needsParens op true).toNat + r.groups)
  | _ => 0

/- What is printed. -/

theorem count_parenthesized (yes : Bool) (text : String) :
    (parenthesized yes text).toList.count '(' = yes.toNat + text.toList.count '(' := by
  rw [toList_parenthesized]
  cases yes <;> simp [Nat.add_comm]

theorem count_write (x : Float) : (numbers.write x).toList.count '(' = 0 := by
  by_cases finite : x.isFinite = true
  · obtain ⟨kind, numeral, found⟩ := isNumeral_writeMagnitude (Binary.magnitude x)
    have none : (numbers.writeMagnitude (Binary.magnitude x)).count '(' = 0 := by
      rw [found.count_opening]
      cases numeral <;> rfl
    rw [toList_write finite]
    split <;> simp [none]
  · rcases write_of_not_finite numbers finite with ⟨-, text⟩ | ⟨-, text⟩ | ⟨-, text⟩ <;>
      rw [text] <;> rfl

theorem count_diceText (count : Int64) (die : Die) :
    (diceText count die).toList.count '(' = 0 := by
  have none := (matches_dice count.toInt.natAbs die).count_opening
  rw [toList_diceText, List.count_append, none]
  split <;> rfl

theorem count_text {e : Expression Float} (h : e.Undrawn) : e.text.toList.count '(' = e.groups := by
  induction e with
  | number x => exact count_write x
  | roll count die => exact count_diceText count die
  | advantage die =>
    have none := (Matches.advantage (digits_toDigits die.sides)).count_opening
    simpa [text, groups] using none
  | disadvantage die =>
    have none := (Matches.disadvantage (digits_toDigits die.sides)).count_opening
    simpa [text, groups] using none
  | rolled _ _ _ => contradiction
  | math op l r ihl ihr =>
    have symbol : op.symbol ≠ '(' := by cases op <;> decide
    rw [toList_text_math, List.count_append, count_parenthesized, ihl h.1]
    simp [count_parenthesized, ihr h.2, groups, symbol]

/- What has to be written. -/

theorem openings_operator {ls rs : List Lexeme} {kind : TokenKind} {sign : List Char}
    (operator : kind ≠ .leftParen) :
    openings (ls ++ (kind, sign) :: rs) = openings ls + openings rs := by
  simp [openings, operator]

/-- A phrase for the expression has its pairs, and one more where the expression is too loose. -/
theorem groups_le_openings {p : Phrase} {ls : List Lexeme} {e : Expression Float}
    (h : Derives p ls e) : (decide (e.phrase.rank < p.rank)).toNat + e.groups ≤ openings ls := by
  induction h with
  | @product ls e _ ih =>
    have looser : (decide (e.phrase.rank < 1)).toNat ≤ (decide (e.phrase.rank < 2)).toNat := by
      cases e.phrase <;> decide
    exact Nat.le_trans (Nat.add_le_add_right looser _) ih
  | @term ls e _ ih =>
    have looser : (decide (e.phrase.rank < 2)).toNat ≤ (decide (e.phrase.rank < 3)).toNat := by
      cases e.phrase <;> decide
    exact Nat.le_trans (Nat.add_le_add_right looser _) ih
  | @addition ls rs l r kind sign op _ adds _ ihl ihr =>
    have split : openings (ls ++ (kind, sign) :: rs) = openings ls + openings rs :=
      openings_operator (by cases adds <;> decide)
    rw [split, groups, needsParens_eq, needsParens_eq]
    cases adds <;> exact (Nat.zero_add _).le.trans (Nat.add_le_add ihl ihr)
  | @multiplication ls rs l r kind sign op _ multiplies _ ihl ihr =>
    have split : openings (ls ++ (kind, sign) :: rs) = openings ls + openings rs :=
      openings_operator (by cases multiplies <;> decide)
    rw [split, groups, needsParens_eq, needsParens_eq]
    cases multiplies <;> exact (Nat.zero_add _).le.trans (Nat.add_le_add ihl ihr)
  | @parentheses left right ls e _ ih =>
    have split : openings ((.leftParen, left) :: ls ++ [(.rightParen, right)]) =
        openings ls + 1 := by
      simp [openings]
    have pair : (decide (e.phrase.rank < Phrase.term.rank)).toNat ≤ 1 := Bool.toNat_le _
    omega
  | _ => exact Nat.zero_le _

/-- No text that reads as the expression has fewer left parentheses than its notation, where each
is a token. -/
theorem text_has_fewest_parentheses {text : String} {e : Expression Float}
    (read : Expression.parse text = .ok e) :
    e.text.toList.count '(' ≤ openings (lexemes text) ∧
      openings (lexemes e.text) = e.text.toList.count '(' := by
  have derives := parse_eq_ok_iff.mp read
  refine ⟨?_, openings_lexemes e.text⟩
  rw [count_text (undrawn_of_derives derives)]
  have needed := groups_le_openings derives
  omega

/-- Of three pairs one is printed, which holds a sum together as a factor. -/
theorem one_pair_of_three_printed : ∃ e, Expression.parse "((d4+d6))*d8-(d10*d12)" = .ok e ∧
    e.text = "(1d4 + 1d6) * 1d8 - 1d10 * 1d12" ∧
    e.text.toList.count '(' ≤ openings (lexemes "((d4+d6))*d8-(d10*d12)") ∧
    openings (lexemes e.text) = e.text.toList.count '(' := by
  let sum : Expression Float := .math .add (.roll 1 ⟨4, by decide, by decide⟩)
    (.roll 1 ⟨6, by decide, by decide⟩)
  let product : Expression Float := .math .mul (.roll 1 ⟨10, by decide, by decide⟩)
    (.roll 1 ⟨12, by decide, by decide⟩)
  let e : Expression Float :=
    .math .sub (.math .mul sum (.roll 1 ⟨8, by decide, by decide⟩)) product
  have read : Expression.parse "((d4+d6))*d8-(d10*d12)" = .ok e := rfl
  exact ⟨e, read, by decide +kernel, text_has_fewest_parentheses read⟩

end Expression

end DiceNotation
