import DiceNotation.Proofs.Descent

/-!
The checks of a descent. A function is called only where its caller has seen what it checks, and the
patterns of tokens leave literals nothing that their conversions miss; so no check ever fails, as
long as the conversion of numbers accepts numerals.
-/
namespace DiceNotation.Descent

open ParseError (Cause)

/-- What a text that is not empty can be refused for. -/
def Proper (cause : Cause) : Prop :=
  cause ≠ .emptyExpression ∧ cause ≠ .unknownOperator ∧
    cause ≠ .unexpectedString [.integer, .decimal]

/-- Reading goes on, or the text is refused. -/
def Sound {α : Type} : Except Stop α → Prop
  | .ok _ => True
  | .error (.refused e) => Proper e.cause
  | .error (.unmet ..) => False
  | .error .overflow => False

theorem Sound.bind {α β : Type} {x : Except Stop α} {f : α → Except Stop β} (first : Sound x)
    (next : ∀ a, x = .ok a → Sound (f a)) : Sound (x >>= f) := by
  cases x with
  | ok a => exact next a rfl
  | error stop => cases stop <;> exact first

namespace Cursor

/-- The tokens ahead have been cut from a text. -/
def Lexed (c : Cursor) : Prop := ∀ t ∈ c.ahead, t.kind ≠ .error → Matches t.kind t.text

theorem Lexed.past {c d : Cursor} (lexed : c.Lexed) (past : c.Past d) : d.Lexed :=
  fun t member => lexed t (past.suffix.subset member)

end Cursor

variable {r : Descent}

theorem matches_advance {c : Cursor} {kind : TokenKind} (lexed : c.Lexed)
    (h : c.peek = some kind) (clean : kind ≠ .error) : Matches kind (r.advance c).last.text := by
  obtain ⟨last, ahead⟩ := c
  cases ahead with
  | nil => cases h
  | cons t ahead =>
    cases h
    exact lexed t List.mem_cons_self clean

theorem proper_unexpected (c : Cursor) {expected : List TokenKind}
    (other : expected ≠ [.integer, .decimal]) : Proper (r.unexpected c expected).cause := by
  unfold unexpected
  split
  · exact ⟨nofun, nofun, nofun⟩
  · exact ⟨nofun, nofun, fun same => other (by cases same; rfl)⟩
  · exact ⟨nofun, nofun, nofun⟩

theorem sound_consume {c : Cursor} {kind : TokenKind} (h : c.peek = some kind)
    (stop : ParseError → Stop) : Sound (r.consume c kind stop) := by
  rw [consume, dif_pos h]
  trivial

theorem sound_consume_refused (c : Cursor) (kind : TokenKind) :
    Sound (r.consume c kind .refused) := by
  unfold consume
  split
  · trivial
  · exact proper_unexpected c (by simp)

theorem operator_of_any {c : Cursor} {layer : Layer}
    (h : c.peek.any (· ∈ layer.operators) = true) :
    ∃ kind op, c.peek = some kind ∧ kind ∈ layer.operators ∧ kind.operator? = some op := by
  have operators : ∀ kind ∈ layer.operators, kind.operator?.isSome = true := by
    cases layer <;> decide
  cases peeked : c.peek with
  | none =>
    rw [peeked] at h
    contradiction
  | some kind =>
    rw [peeked] at h
    have member : kind ∈ layer.operators := by simpa using h
    obtain ⟨op, named⟩ := Option.isSome_iff_exists.mp (operators kind member)
    exact ⟨kind, op, rfl, member, named⟩

theorem operator_eq_ok {c : Cursor} {kind : TokenKind} {op : Operator} (h : c.peek = some kind)
    (named : kind.operator? = some op) :
    r.operator c = .ok ⟨(op, r.advance c), r.past_advance h⟩ := by
  unfold operator
  split
  · rename_i kind' peeked
    cases h.symm.trans peeked
    simp only [named]
  · rename_i peeked
    cases h.symm.trans peeked

/-- The conversion accepts what the patterns of numbers match. -/
def Accepts (convert : List Char → Option Float) : Prop :=
  ∀ text, IsNumeral text → (convert text).isSome = true

theorem sound_number {c : Cursor} (accepts : Accepts r.convert) (numeral : IsNumeral c.last.text) :
    Sound (r.number c) := by
  obtain ⟨x, value⟩ := Option.isSome_iff_exists.mp (accepts _ numeral)
  unfold number
  rw [value]
  trivial

theorem dice_of_letter {c : Cursor} {front faces : List Char} (first : 'd' ∉ front)
    (text : c.last.text = front ++ 'd' :: faces) :
    dice c = (diceOf? front faces).elim (.error (.refused (c.error .invalidDice))) .ok := by
  unfold dice
  rw [text, dropWhile_first first, takeWhile_first first]
  dsimp only
  cases diceOf? front faces <;> rfl

theorem sound_dice {c : Cursor} {kind : TokenKind} (matched : Matches kind c.last.text)
    (named : IsDice kind) : Sound (dice c) := by
  obtain ⟨front, faces, first, text⟩ := Reader.letter_of_dice matched named
  rw [dice_of_letter first text]
  cases diceOf? front faces with
  | none => exact ⟨nofun, nofun, nofun⟩
  | some dice => trivial

theorem count_of_diceOf? {front faces : List Char} {count : Option Int64} {die : Die}
    (h : diceOf? front faces = some (count, die)) : count.getD 1 ≠ Int64.minValue := by
  obtain ⟨die', -, h⟩ := Option.bind_eq_some_iff.mp h
  split at h
  · cases h
    decide
  · cases h
    decide
  · cases h
    decide
  · obtain ⟨n, read, h⟩ := Option.bind_eq_some_iff.mp h
    cases h
    obtain ⟨small, rfl⟩ := readCount?_eq_some_iff.mp read
    exact Expression.ofInt_ne_minValue small

theorem count_of_dice {c : Cursor} {count : Option Int64} {die : Die}
    (h : dice c = .ok (count, die)) : count.getD 1 ≠ Int64.minValue := by
  unfold dice at h
  split at h
  · cases h
  · split at h
    · rename_i read
      cases h
      exact count_of_diceOf? read
    · cases h

theorem sound_opposite {count : Int64} (h : count ≠ Int64.minValue) : Sound (opposite count) := by
  rw [opposite, if_neg h]
  trivial

theorem sound_negated {c : Cursor} (accepts : Accepts r.convert) (lexed : c.Lexed)
    (h : c.peek = some .minus) : Sound (r.negated c) := by
  unfold negated
  refine (sound_consume h _).bind ?_
  rintro ⟨d, past⟩ -
  have lexed := lexed.past past
  dsimp only
  split
  · rename_i peeked
    have matched := matches_advance (r := r) lexed peeked (by decide)
    exact (sound_number accepts ⟨_, .integer, matched⟩).bind fun _ _ => trivial
  · rename_i peeked
    have matched := matches_advance (r := r) lexed peeked (by decide)
    exact (sound_number accepts ⟨_, .decimal, matched⟩).bind fun _ _ => trivial
  · rename_i peeked
    have matched := matches_advance (r := r) lexed peeked (by decide)
    refine (sound_dice matched (.inl rfl)).bind ?_
    rintro ⟨count, die⟩ read
    exact (sound_opposite (count_of_dice read)).bind fun _ _ => trivial
  · exact proper_unexpected d (by decide)

theorem sound_term {c : Cursor} (accepts : Accepts r.convert) (lexed : c.Lexed)
    (sums : ∀ d, c.Past d → d.Lexed → Sound (r.chain .sum d)) : Sound (r.term c) := by
  unfold term
  split
  · rename_i peeked
    unfold parentheses
    refine (sound_consume peeked _).bind ?_
    rintro ⟨d, past⟩ -
    refine (sums d past (lexed.past past)).bind ?_
    rintro ⟨⟨e, f⟩, -⟩ -
    exact (sound_consume_refused f _).bind fun _ _ => trivial
  · rename_i peeked
    exact sound_negated accepts lexed peeked
  · rename_i peeked
    have matched := matches_advance (r := r) lexed peeked (by decide)
    exact (sound_number accepts ⟨_, .integer, matched⟩).bind fun _ _ => trivial
  · rename_i peeked
    have matched := matches_advance (r := r) lexed peeked (by decide)
    exact (sound_number accepts ⟨_, .decimal, matched⟩).bind fun _ _ => trivial
  · rename_i peeked
    have matched := matches_advance (r := r) lexed peeked (by decide)
    exact (sound_dice matched (.inl rfl)).bind fun _ _ => trivial
  · rename_i peeked
    have matched := matches_advance (r := r) lexed peeked (by decide)
    exact (sound_dice matched (.inr (.inl rfl))).bind fun _ _ => trivial
  · rename_i peeked
    have matched := matches_advance (r := r) lexed peeked (by decide)
    exact (sound_dice matched (.inr (.inr rfl))).bind fun _ _ => trivial
  · exact proper_unexpected c (by decide)

theorem sound_rest {layer : Layer} {c : Cursor} (lexed : c.Lexed) (left : Expression Float)
    (operands : ∀ d, c.Past d → d.Lexed → Sound (r.operand layer d)) :
    Sound (r.rest layer left c) := by
  induction c using Cursor.induction generalizing left with
  | step c ih =>
    unfold rest
    split
    · rename_i more
      obtain ⟨kind, op, peeked, -, named⟩ := operator_of_any more
      rw [operator_eq_ok peeked named]
      have past := r.past_advance peeked
      refine (operands _ past (lexed.past past)).bind ?_
      rintro ⟨⟨right, e⟩, past'⟩ -
      have past := past.trans past'
      refine (ih e past (lexed.past past) _ fun d further => operands d (past.trans further)).bind ?_
      exact fun _ _ => trivial
    · trivial

theorem sound_chain (accepts : Accepts r.convert) (c : Cursor) (lexed : c.Lexed) :
    Sound (r.chain .sum c) := by
  refine chain_induction (fun layer c => c.Lexed → Sound (r.operand layer c))
    (fun layer c => c.Lexed → Sound (r.chain layer c)) ?term ?product ?chain c lexed
  case term =>
    intro c sums lexed
    unfold operand
    exact sound_term accepts lexed sums
  case product =>
    intro c products lexed
    unfold operand
    exact products lexed
  case chain =>
    intro layer c first operands lexed
    unfold chain
    refine (first lexed).bind ?_
    rintro ⟨⟨e, d⟩, past⟩ -
    refine (sound_rest (lexed.past past) e fun f further => operands f (past.trans further)).bind ?_
    exact fun _ _ => trivial

theorem sound_whole (accepts : Accepts r.convert) {tokens : List Token}
    (lexed : ∀ t ∈ tokens, t.kind ≠ .error → Matches t.kind t.text) : Sound (r.whole tokens) := by
  unfold whole
  refine (sound_chain accepts ⟨_, tokens⟩ lexed).bind ?_
  rintro ⟨⟨e, d⟩, past⟩ -
  dsimp only
  split
  · trivial
  · refine ⟨nofun, nofun, fun same => ?_⟩
    cases same
  · exact ⟨nofun, nofun, nofun⟩

end DiceNotation.Descent
