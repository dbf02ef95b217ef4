import DiceNotation.Proofs.Agreement

/-!
Whole texts, read by descent. What only a failed check would say is never said of any text, and a
descent that has the values of numbers finds what the reader of single tokens finds.
-/
namespace DiceNotation.Descent

variable {r : Descent}

theorem eq_of_agrees {found : Except ParseError (Expression Float)}
    {read : Except Stop (Expression Float)} (agrees : Agrees found .ok read) (sound : Sound read) :
    read = found.mapError .refused := by
  cases read with
  | ok e =>
    have same : found = .ok e := agrees
    rw [same]
    rfl
  | error stop =>
    cases stop with
    | refused e =>
      have same : found = .error e := agrees
      rw [same]
      rfl
    | unmet check e => exact sound.elim
    | overflow => exact sound.elim

/-- What only a failed check would say is never said, and an expression is called empty just when
the text is. -/
structure Plain (text : String) (found : Except ParseError (Expression Float)) : Prop where
  operator : ∀ e, found = .error e → e.cause ≠ .unknownOperator
  numeral : ∀ e, found = .error e → e.cause ≠ .unexpectedString [.integer, .decimal]
  empty : (∃ e, found = .error e ∧ e.cause = .emptyExpression) ↔ text.utf8ByteSize = 0

/-- Converts a numeral to its value, and nothing else. -/
def convertNumeral (text : List Char) : Option Float :=
  match longestMatch? text with
  | some (.integer, n) | some (.decimal, n) =>
    if n = text.length then some (readNumber text) else none
  | _ => none

theorem reads_convertNumeral : Reads convertNumeral := by
  rintro text ⟨kind, numeral, matched⟩
  have closed : Closed [] := by rintro c ⟨⟩
  have found := longestMatch?_of_matches matched closed
  rw [List.append_nil] at found
  unfold convertNumeral
  rw [found]
  cases numeral <;> exact if_pos rfl

theorem accepts_of_reads {convert : List Char → Option Float} (reads : Reads convert) :
    Accepts convert := fun text numeral => by rw [reads text numeral]; rfl

/-- With the values of numbers, the descent reads every text as the reader of single tokens does. -/
theorem parse_of_reads {convert : List Char → Option Float} (reads : Reads convert)
    (text : String) : parse convert text = (Expression.parse text).mapError .refused := by
  have lexed (t : Token) (member : t ∈ tokens text) := matches_of_mem_tokens member
  unfold parse Expression.parse
  split
  · rfl
  · exact eq_of_agrees (agrees_whole reads lexed) (sound_whole (accepts_of_reads reads) lexed)

theorem exists_of_sound {read : Except Stop (Expression Float)} (sound : Sound read) :
    ∃ found : Except ParseError (Expression Float), read = found.mapError .refused ∧
      ∀ e, found = .error e → Proper e.cause := by
  cases read with
  | ok e => exact ⟨.ok e, rfl, nofun⟩
  | error stop =>
    cases stop with
    | refused e =>
      refine ⟨.error e, rfl, ?_⟩
      rintro _ ⟨⟩
      exact sound
    | unmet check e => exact sound.elim
    | overflow => exact sound.elim

theorem exists_plain {convert : List Char → Option Float} (accepts : Accepts convert)
    (text : String) : ∃ found, parse convert text = found.mapError .refused ∧
      Plain text found := by
  have length : text.isEmpty = true ↔ text.utf8ByteSize = 0 := beq_iff_eq
  unfold parse
  split
  · rename_i none
    refine ⟨.error ⟨.emptyExpression, 0, 0, []⟩, rfl, ?_, ?_, ?_⟩
    · rintro e ⟨⟩
      exact nofun
    · rintro e ⟨⟩
      exact nofun
    · exact iff_of_true ⟨_, rfl, rfl⟩ (length.mp none)
  · rename_i some
    have lexed (t : Token) (member : t ∈ tokens text) := matches_of_mem_tokens member
    obtain ⟨found, same, proper⟩ := exists_of_sound
      (sound_whole (r := ⟨text.utf8ByteSize, convert⟩) accepts lexed)
    refine ⟨found, same, fun e h => (proper e h).2.1, fun e h => (proper e h).2.2, ?_⟩
    refine iff_of_false ?_ (length.not.mp some)
    rintro ⟨e, refused, cause⟩
    exact (proper e refused).1 cause

theorem mapError_refused_injective {found found' : Except ParseError (Expression Float)}
    (same : found.mapError Stop.refused = found'.mapError .refused) : found = found' := by
  cases found <;> cases found' <;> cases same <;> rfl

theorem plain_parse (text : String) : Plain text (Expression.parse text) := by
  obtain ⟨found, same, plain⟩ := exists_plain (accepts_of_reads reads_convertNumeral) text
  rw [parse_of_reads reads_convertNumeral] at same
  rw [mapError_refused_injective same]
  exact plain

theorem term_of_refusal {c : Cursor} {kind : TokenKind} (numeral : Grammar.Numeral kind)
    (h : c.peek = some kind) (refused : r.convert (r.advance c).last.text = none) :
    ∃ e, r.term c = .error (.unmet .numeral e) := by
  have read : r.number (r.advance c) = .error (.unmet .numeral
      ((r.advance c).error (.unexpectedString [.integer, .decimal]))) := by
    unfold number
    rw [refused]
  -- Of all that a term can begin with, only a number is ahead.
  unfold term
  split
  case h_3 => exact ⟨_, by rw [read]; rfl⟩
  case h_4 => exact ⟨_, by rw [read]; rfl⟩
  case h_8 integer decimal _ _ _ =>
    cases numeral with
    | integer => exact absurd h integer
    | decimal => exact absurd h decimal
  all_goals
    rename_i peeked
    cases h.symm.trans peeked
    cases numeral

theorem chain_of_error {layer : Layer} {c : Cursor} {stop : Stop}
    (h : r.operand layer c = .error stop) : r.chain layer c = .error stop := by
  unfold chain
  rw [h]
  rfl

theorem accepts_of_checks {convert : List Char → Option Float}
    (checks : ∀ text check e, parse convert text ≠ .error (.unmet check e)) : Accepts convert := by
  rintro text ⟨kind, numeral, matched⟩
  by_contra refused
  have closed : Closed [] := by rintro c ⟨⟩
  have single : lexemes (String.ofList text) = [(kind, text)] := by
    have split := lex_append matched closed
    rw [List.append_nil, lex_nil] at split
    rwa [lexemes_eq_lex, String.toList_ofList]
  obtain ⟨t, one, lexeme⟩ := List.map_eq_singleton_iff.mp single
  have some : (String.ofList text).isEmpty = false := by
    have full := matched.ne_nil
    simpa using full
  let r : Descent := ⟨(String.ofList text).utf8ByteSize, convert⟩
  cases lexeme
  have value : convert t.text = none := by simpa using refused
  obtain ⟨e, term⟩ := term_of_refusal (r := r) (c := ⟨⟨.error, [], 0⟩, [t]⟩) numeral rfl value
  refine checks (String.ofList t.text) .numeral e ?_
  have product : r.chain .product ⟨⟨.error, [], 0⟩, [t]⟩ = .error (.unmet .numeral e) :=
    chain_of_error (by unfold operand; exact term)
  have sum : r.chain .sum ⟨⟨.error, [], 0⟩, [t]⟩ = .error (.unmet .numeral e) :=
    chain_of_error (by unfold operand; exact product)
  rw [parse, some, one]
  change r.whole [t] = _
  unfold whole
  rw [sum]
  rfl

/-- Apart from the conversion, nothing can make a check fail. -/
theorem accepts_iff {convert : List Char → Option Float} : Accepts convert ↔
    ∀ text check e, parse convert text ≠ .error (.unmet check e) := by
  refine ⟨fun accepts text check e => ?_, accepts_of_checks⟩
  obtain ⟨found, same, -⟩ := exists_plain accepts text
  rw [same]
  cases found <;> exact nofun

/-- As long as the conversion accepts numerals, no check fails on any text and every count has an
opposite; so no error is one of a failed check, and only the empty text is called empty. With the
values of numbers the result is that of the reader of single tokens. -/
theorem checks_never_fail {convert : List Char → Option Float} (accepts : Accepts convert)
    (text : String) :
    (∀ check e, parse convert text ≠ .error (.unmet check e)) ∧
      parse convert text ≠ .error .overflow ∧
      (∃ found, parse convert text = found.mapError .refused ∧ Plain text found) ∧
      Plain text (Expression.parse text) ∧
      (Reads convert → parse convert text = (Expression.parse text).mapError .refused) := by
  obtain ⟨found, same, plain⟩ := exists_plain accepts text
  refine ⟨accepts_iff.mp accepts text, ?_, ⟨found, same, plain⟩, plain_parse text,
    fun reads => parse_of_reads reads text⟩
  rw [same]
  cases found <;> exact nofun

/-- Every kind of check is made on the way through this text. -/
theorem checks_hold_in_product :
    let text := "-2.5 * (^d6 - -3d8)"
    Accepts convertNumeral ∧ (∀ check e, parse convertNumeral text ≠ .error (.unmet check e)) ∧
      ∃ e, Expression.parse text = .ok e ∧ parse convertNumeral text = .ok e := by
  intro text
  have accepts := accepts_of_reads reads_convertNumeral
  obtain ⟨checks, -, -, -, same⟩ := checks_never_fail accepts text
  have same := same reads_convertNumeral
  cases read : Expression.parse text with
  | ok e =>
    rw [read] at same
    exact ⟨accepts, checks, e, rfl, same⟩
  | error e =>
    have accepted : (Expression.parse text).isOk = true := by decide +kernel
    rw [read] at accepted
    contradiction

end DiceNotation.Descent
