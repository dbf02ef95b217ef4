import DiceNotation.Proofs.Continuations

/-!
Where reading stops, and why. An error points at the first token with which the text can no longer
become an expression, or at the end of a text that only begins one. Its cause follows from that
token and the tokens before it, and the kinds that it lists are those that could have stood there.
-/
namespace DiceNotation

open Grammar
open ParseError (Cause)

/-- The slice lies between the two bytes of the text. -/
def Spans (text : String) (start stop : Nat) (slice : List Char) : Prop :=
  ∃ before after, text = before ++ String.ofList slice ++ after ∧
    start = before.utf8ByteSize ∧ stop = (before ++ String.ofList slice).utf8ByteSize

def IsDice (kind : TokenKind) : Prop := kind = .dice ∨ kind = .advantage ∨ kind = .disadvantage

/-- A literal whose die has no face, or more than `2 ^ 32 - 1`, or whose count exceeds
`2 ^ 63 - 1`. -/
def OutOfRange (kind : TokenKind) (slice : List Char) : Prop :=
  ∃ count faces, 'd' ∉ count ∧ slice = count ++ 'd' :: faces ∧
    (Nat.ofDigitChars 10 faces 0 = 0 ∨ 0xffffffff < Nat.ofDigitChars 10 faces 0 ∨
      kind = .dice ∧ 0x7fffffffffffffff < diceCount count)

/-- Dice of this kind can come next, but not with these numbers. -/
def WrongNumbers (before : List Lexeme) (l : Lexeme) : Prop :=
  IsDice l.1 ∧ CanFollow before l.1 ∧ OutOfRange l.1 l.2

/-- The kinds are all that can come next. Where only a right parenthesis is listed, an operator
can come as well. -/
def Lists (before : List Lexeme) (kinds : List TokenKind) : Prop :=
  ∀ kind, CanFollow before kind ↔ kind ∈ kinds ∨
    kinds = [.rightParen] ∧ kind ∈ TokenKind.additionOps ++ TokenKind.multiplicationOps

def ParseError.Cause.listed? : Cause → Option (List TokenKind)
  | unexpectedToken _ kinds | unexpectedString kinds => some kinds
  | emptyExpression | trailingInput _ | invalidDice | unknownOperator => none

/-- The cause is what the refused token calls for after the tokens before it. -/
structure Explains (before : List Lexeme) (l : Lexeme) (cause : Cause) : Prop where
  unexpectedString : (∃ kinds, cause = .unexpectedString kinds) ↔ l.1 = .error
  invalidDice : cause = .invalidDice ↔ WrongNumbers before l
  trailingInput : ∀ kind, cause = .trailingInput kind ↔
    kind = l.1 ∧ Complete before ∧ l.1 ≠ .error
  unexpectedToken : ∀ found, (∃ kinds, cause = .unexpectedToken found kinds) ↔
    found = some l.1 ∧ ¬ (l.1 = .error ∨ WrongNumbers before l ∨ Complete before)
  lists : ∀ kinds, cause.listed? = some kinds → Lists before kinds

/- Numbers that a literal does not allow. -/

theorem ofSides?_eq_none_iff {n : Nat} : Die.ofSides? n = none ↔ n = 0 ∨ 0xffffffff < n := by
  unfold Die.ofSides?
  split
  · rename_i h
    have size : n < 0x100000000 := h.2
    simp only [reduceCtorEq, false_iff]
    omega
  · rename_i h
    have size : ¬ (0 < n ∧ n < 0x100000000) := h
    simp only [true_iff]
    omega

theorem readCount?_eq_none_iff {text : List Char} :
    readCount? text = none ↔ 0x7fffffffffffffff < diceCount text := by
  rw [Option.eq_none_iff_forall_ne_some]
  constructor
  · intro none
    apply Nat.lt_of_not_le
    intro small
    exact none _ (readCount?_eq_some_iff.mpr ⟨small, rfl⟩)
  · intro many count some
    exact absurd (readCount?_eq_some_iff.mp some).1 (Nat.not_le.mpr many)

theorem readDice?_eq_none_iff {count faces : List Char} (first : 'd' ∉ count) :
    readDice? (count ++ 'd' :: faces) = none ↔
      readCount? count = none ∨ Die.ofSides? (Nat.ofDigitChars 10 faces 0) = none := by
  unfold readDice?
  rw [takeWhile_first first, readDie?_first first]
  cases readCount? count <;> cases Die.ofSides? (Nat.ofDigitChars 10 faces 0) <;> simp

namespace Reader

theorem unreadable_first {kind : TokenKind} {count faces : List Char} (first : 'd' ∉ count) :
    Unreadable kind (count ++ 'd' :: faces) ↔ IsDice kind ∧
      (Nat.ofDigitChars 10 faces 0 = 0 ∨ 0xffffffff < Nat.ofDigitChars 10 faces 0 ∨
        kind = .dice ∧ 0x7fffffffffffffff < diceCount count) := by
  unfold Unreadable IsDice
  rw [readDice?_eq_none_iff first, readDie?_first first, readCount?_eq_none_iff,
    ofSides?_eq_none_iff]
  cases kind <;> simp [or_comm, or_assoc]

theorem letter_of_dice {kind : TokenKind} {slice : List Char} (matched : Matches kind slice)
    (dice : IsDice kind) : ∃ count faces, 'd' ∉ count ∧ slice = count ++ 'd' :: faces := by
  cases matched with
  | dice digits _ =>
    refine ⟨_, _, ?_, rfl⟩
    intro letter
    exact absurd (digits 'd' letter) (by decide)
  | advantage _ => exact ⟨['^'], _, by decide, rfl⟩
  | disadvantage _ => exact ⟨['v'], _, by decide, rfl⟩
  | _ => simp [IsDice] at dice

theorem unreadable_iff {kind : TokenKind} {slice : List Char}
    (matched : kind ≠ .error → Matches kind slice) :
    Unreadable kind slice ↔ IsDice kind ∧ OutOfRange kind slice := by
  constructor
  · intro unreadable
    have clean : kind ≠ .error := by
      rintro rfl
      simp [Unreadable] at unreadable
    have dice : IsDice kind := by
      rcases unreadable with ⟨h, -⟩ | ⟨h | h, -⟩ <;> simp [IsDice, h]
    obtain ⟨count, faces, first, rfl⟩ := letter_of_dice (matched clean) dice
    exact ⟨dice, count, faces, first, rfl, ((unreadable_first first).mp unreadable).2⟩
  · rintro ⟨dice, count, faces, first, rfl, wrong⟩
    exact (unreadable_first first).mpr ⟨dice, wrong⟩

/- The refused token. -/

theorem finish_eq_error {s : State} {kinds : List TokenKind} (h : s.finish = .error kinds) :
    kinds = s.expected := by
  obtain ⟨level, outer, place⟩ := s
  cases place with
  | term => exact (Except.error.inj h).symm
  | literal => exact (Except.error.inj h).symm
  | operator e =>
    cases outer with
    | nil => cases h
    | cons next outer => exact (Except.error.inj h).symm

theorem followers_of_finish {s : State} {e : Expression Float} (h : s.finish = .ok e) :
    s.followers = TokenKind.additionOps ++ TokenKind.multiplicationOps := by
  obtain ⟨level, outer, place⟩ := s
  cases place with
  | term => cases h
  | literal => cases h
  | operator f =>
    cases outer with
    | nil => rfl
    | cons next outer => cases h

/-- Only after an expression is a token trailing input. -/
theorem refusal_cases (s : State) (kind : TokenKind) :
    kind = .error ∧ s.refusal kind = .unexpectedString s.expected ∨
      kind ≠ .error ∧ (∃ e, s.finish = .ok e) ∧ s.refusal kind = .trailingInput kind ∨
      kind ≠ .error ∧ (¬ ∃ e, s.finish = .ok e) ∧
        s.refusal kind = .unexpectedToken (some kind) s.expected := by
  have named {kinds : List TokenKind} (h : kind ≠ .error) :
      unexpected kind kinds = .unexpectedToken (some kind) kinds := by
    cases kind <;> first | rfl | exact absurd rfl h
  obtain ⟨level, outer, place⟩ := s
  by_cases h : kind = .error
  · subst h
    cases place <;> cases outer <;> exact .inl ⟨rfl, rfl⟩
  · refine .inr ?_
    cases place with
    | term => exact .inr ⟨h, nofun, named h⟩
    | literal => exact .inr ⟨h, nofun, named h⟩
    | operator e =>
      cases outer with
      | nil => exact .inl ⟨h, ⟨_, rfl⟩, if_neg h⟩
      | cons next outer => exact .inr ⟨h, nofun, named h⟩

theorem lists_expected {ls : List Lexeme} {s : State} (tokens : AllMatch ls)
    (run : State.start.run ls = .ok s) : Lists ls s.expected :=
  fun _ => (canFollow_iff tokens run).trans mem_followers

theorem complete_iff_finish {ls : List Lexeme} {s : State} (tokens : AllMatch ls)
    (run : State.start.run ls = .ok s) : Complete ls ↔ ∃ e, s.finish = .ok e := by
  rw [complete_iff_run]
  constructor
  · rintro ⟨-, t, e, run', finish⟩
    cases run.symm.trans run'
    exact ⟨e, finish⟩
  · rintro ⟨e, finish⟩
    exact ⟨tokens, s, e, run, finish⟩

theorem clean_of_wrongNumbers {ls : List Lexeme} {l : Lexeme} (h : WrongNumbers ls l) :
    l.1 ≠ .error := by
  rcases h.1 with h | h | h <;> simp [h]

theorem not_complete_of_wrongNumbers {ls : List Lexeme} {s : State} {l : Lexeme}
    (tokens : AllMatch ls) (run : State.start.run ls = .ok s) (h : WrongNumbers ls l) :
    ¬ Complete ls := by
  rw [complete_iff_finish tokens run]
  rintro ⟨e, finish⟩
  have member := (canFollow_iff tokens run).mp h.2.1
  rw [followers_of_finish finish] at member
  rcases h.1 with kind | kind | kind <;> rw [kind] at member <;> revert member <;> decide

theorem explains_of_read {ls : List Lexeme} {s : State} {l : Lexeme} {cause : Cause}
    (tokens : AllMatch ls) (run : State.start.run ls = .ok s)
    (matched : l.1 ≠ .error → Matches l.1 l.2) (refused : s.read ⟨l.1, l.2, 0⟩ = .error cause) :
    Explains ls l cause := by
  have follow : CanFollow ls l.1 ↔ l.1 ∈ s.followers := canFollow_iff tokens run
  have complete := complete_iff_finish tokens run
  have lists := lists_expected tokens run
  rcases read_eq_error refused with ⟨other, rfl⟩ | ⟨member, unreadable, rfl⟩
  · have numbers : ¬ WrongNumbers ls l := fun h => other (follow.mp h.2.1)
    rcases refusal_cases s l.1 with ⟨error, why⟩ | ⟨clean, whole, why⟩ | ⟨clean, part, why⟩
    · rw [why]
      constructor <;> simp [error, numbers, ParseError.Cause.listed?, lists]
    · rw [← complete] at whole
      rw [why]
      constructor <;> simp [clean, numbers, whole, ParseError.Cause.listed?, eq_comm]
    · rw [← complete] at part
      rw [why]
      constructor <;> simp [clean, numbers, part, ParseError.Cause.listed?, lists, eq_comm]
  · obtain ⟨dice, range⟩ := (unreadable_iff matched).mp unreadable
    have numbers : WrongNumbers ls l := ⟨dice, follow.mpr member, range⟩
    have clean := clean_of_wrongNumbers numbers
    have part := not_complete_of_wrongNumbers tokens run numbers
    constructor <;> simp [clean, numbers, part, ParseError.Cause.listed?]

/- The whole text. -/

theorem readAll_eq_error {length : Nat} {s : State} {ts : List Token} {err : ParseError}
    (h : s.readAll length ts = .error err) :
    (∃ before t after u cause, ts = before ++ t :: after ∧
      s.run (before.map Token.lexeme) = .ok u ∧ u.read t = .error cause ∧
        err = .atToken t cause) ∨
      ∃ u kinds, s.run (ts.map Token.lexeme) = .ok u ∧ u.finish = .error kinds ∧
        err = .atEnd length kinds := by
  induction ts generalizing s with
  | nil =>
    obtain ⟨kinds, finish, same⟩ := mapError_eq_error_iff.mp h
    exact .inr ⟨s, kinds, rfl, finish, same⟩
  | cons t ts ih =>
    rw [State.readAll] at h
    cases step : s.read t with
    | error cause =>
      rw [step] at h
      exact .inl ⟨[], t, ts, s, cause, rfl, rfl, step, (Except.error.inj h).symm⟩
    | ok u =>
      rw [step] at h
      have continued (ls : List Lexeme) : s.run (t.lexeme :: ls) = u.run ls := by
        rw [run_cons, ← read_lexeme, step]
        rfl
      rcases ih h with ⟨before, t', after, v, cause, rfl, run, refused, same⟩ |
        ⟨v, kinds, run, finish, same⟩
      · exact .inl ⟨t :: before, t', after, v, cause, rfl, (continued _).trans run, refused, same⟩
      · exact .inr ⟨v, kinds, (continued _).trans run, finish, same⟩

end Reader

theorem utf8ByteSize_ofList (cs : List Char) :
    (String.ofList cs).utf8ByteSize = byteCount cs := by
  induction cs with
  | nil => rfl
  | cons c cs ih =>
    rw [String.ofList_cons, String.utf8ByteSize_append, String.utf8ByteSize_singleton, ih, byteCount]

theorem spans_of_mem_tokens {text : String} {t : Token} (member : t ∈ tokens text) :
    Spans text t.start t.stop t.text := by
  obtain ⟨before, after, parts, start, -⟩ := tokens_slices text t member
  refine ⟨String.ofList before, String.ofList after, ?_, ?_, ?_⟩
  · rw [← String.toList_inj, parts]
    simp
  · rw [start, utf8ByteSize_ofList, Nat.zero_add]
  · rw [Token.stop, start, String.utf8ByteSize_append, utf8ByteSize_ofList,
      utf8ByteSize_ofList, Nat.zero_add]

theorem spans_end (text : String) : Spans text text.utf8ByteSize text.utf8ByteSize [] :=
  ⟨text, "", by simp, rfl, by simp⟩

theorem matches_of_mem_tokens {text : String} {t : Token} (member : t ∈ tokens text)
    (clean : t.lexeme.1 ≠ .error) : Matches t.lexeme.1 t.lexeme.2 :=
  matches_of_mem_lexemes (List.mem_map_of_mem member) clean

theorem allMatch_of_run {text : String} {before after : List Token} {s : Reader.State}
    (parts : tokens text = before ++ after)
    (run : Reader.State.start.run (before.map Token.lexeme) = .ok s) :
    AllMatch (before.map Token.lexeme) := by
  intro l member
  have listed : l ∈ lexemes text := by
    rw [lexemes, parts, List.map_append]
    exact List.mem_append_left _ member
  exact matches_of_mem_lexemes listed (Reader.no_error_of_run run l member)

theorem parse_eq_error {text : String} {err : ParseError} (some : text ≠ "")
    (h : Expression.parse text = .error err) :
    Reader.State.start.readAll text.utf8ByteSize (tokens text) = .error err := by
  unfold Expression.parse at h
  split at h
  · rename_i empty
    exact absurd (String.isEmpty_iff.mp empty) some
  · exact h

/-- An error points at a token before which the tokens begin an expression, and with which they
do not, or at the end of tokens that begin an expression without being one. Its slice is the text
between its positions, and its cause is explained by those tokens. -/
theorem error_at_first_impossible_token (text : String) (err : ParseError) (some : text ≠ "")
    (refused : Expression.parse text = .error err) :
    Spans text err.start err.stop err.slice ∧
      ((∃ before t after, tokens text = before ++ t :: after ∧
          Begins (before.map Token.lexeme) ∧
          ¬ Begins (before.map Token.lexeme ++ [t.lexeme]) ∧
          err.start = t.start ∧ err.stop = t.stop ∧ err.slice = t.text ∧
          Explains (before.map Token.lexeme) t.lexeme err.cause) ∨
        Begins (lexemes text) ∧ ¬ Complete (lexemes text) ∧
          err.start = text.utf8ByteSize ∧ err.stop = text.utf8ByteSize ∧ err.slice = [] ∧
          ∃ kinds, err.cause = .unexpectedToken none kinds ∧ Lists (lexemes text) kinds) := by
  rcases Reader.readAll_eq_error (parse_eq_error some refused) with
    ⟨before, t, after, s, cause, parts, run, stuck, rfl⟩ | ⟨s, kinds, run, finish, rfl⟩
  · have member : t ∈ tokens text := by simp [parts]
    have all := allMatch_of_run parts run
    refine ⟨spans_of_mem_tokens member, .inl ⟨before, t, after, parts, ?_, ?_, rfl, rfl, rfl, ?_⟩⟩
    · exact Reader.begins_iff_run.mpr ⟨all, s, run⟩
    · intro continued
      obtain ⟨-, u, longer⟩ := Reader.begins_iff_run.mp continued
      rw [Reader.run_append, run] at longer
      have taken : s.read t = .ok u := (Reader.run_one s t.lexeme).symm.trans longer
      cases stuck.symm.trans taken
    · exact Reader.explains_of_read all run (matches_of_mem_tokens member) stuck
  · have all := allMatch_of_run (List.append_nil (tokens text)).symm run
    refine ⟨spans_end text, .inr ⟨Reader.begins_iff_run.mpr ⟨all, s, run⟩, ?_, rfl, rfl, rfl,
      kinds, rfl, ?_⟩⟩
    · rw [lexemes, Reader.complete_iff_finish all run, finish]
      rintro ⟨e, whole⟩
      cases whole
    · rw [Reader.finish_eq_error finish]
      exact Reader.lists_expected all run

/-- Four dice without faces, on the right of a sum in parentheses. -/
theorem faceless_dice_refused :
    "(3+4d0" ≠ "" ∧ Expression.parse "(3+4d0" = .error ⟨.invalidDice, 3, 6, ['4', 'd', '0']⟩ ∧
      Spans "(3+4d0" 3 6 ['4', 'd', '0'] ∧
      ∃ before t after, tokens "(3+4d0" = before ++ t :: after ∧ Begins (before.map Token.lexeme) ∧
        ¬ Begins (before.map Token.lexeme ++ [t.lexeme]) ∧
        WrongNumbers (before.map Token.lexeme) t.lexeme := by
  have some : "(3+4d0" ≠ "" := by decide
  have refused : Expression.parse "(3+4d0" = .error ⟨.invalidDice, 3, 6, ['4', 'd', '0']⟩ := rfl
  obtain ⟨spans, ⟨before, t, after, parts, begins, stuck, -, -, -, why⟩ | ⟨-, -, start, -⟩⟩ :=
    error_at_first_impossible_token _ _ some refused
  · exact ⟨some, refused, spans, before, t, after, parts, begins, stuck, why.invalidDice.mp rfl⟩
  · exact absurd start (by decide)

end DiceNotation
