import DiceNotation.Proofs.Partition
import DiceNotation.Proofs.Reading

/-!
Beginnings of expressions and what can come next. Some lexemes begin an expression exactly when
they are tokens that the reader takes one after the other, since whatever it still waits for can
be given to it. Which kinds can come next depends only on its place and on the parentheses that
are open.
-/
namespace DiceNotation

open Grammar

/-- The lexemes are the first tokens of a text that is an expression. -/
def Begins (ls : List Lexeme) : Prop :=
  ∃ text e, Expression.parse text = .ok e ∧ ls <+: lexemes text

/-- The lexemes are all tokens of a text that is an expression. -/
def Complete (ls : List Lexeme) : Prop :=
  ∃ text e, Expression.parse text = .ok e ∧ lexemes text = ls

/-- Some token of the kind continues the lexemes. -/
def CanFollow (ls : List Lexeme) (kind : TokenKind) : Prop :=
  ∃ slice, Begins (ls ++ [(kind, slice)])

def AllMatch (ls : List Lexeme) : Prop := ∀ l ∈ ls, Matches l.1 l.2

/- Texts with given tokens. -/

/-- The slices, with a blank behind each. -/
def spaced (ls : List Lexeme) : List Char := ls.flatMap fun l => l.2 ++ [' ']

theorem lex_spaced {ls : List Lexeme} (tokens : AllMatch ls) : lex (spaced ls) = ls := by
  induction ls with
  | nil => rfl
  | cons l ls ih =>
    obtain ⟨first, rest⟩ := List.forall_mem_cons.mp tokens
    have closed : Closed (' ' :: spaced ls) := by
      rintro c ⟨⟩
      decide
    have parts : spaced (l :: ls) = l.2 ++ ' ' :: spaced ls := by simp [spaced]
    rw [parts, lex_append first closed, lex_blank rfl, ih rest]

theorem lexemes_spaced {ls : List Lexeme} (tokens : AllMatch ls) :
    lexemes (String.ofList (spaced ls)) = ls := by
  rw [lexemes_eq_lex, String.toList_ofList, lex_spaced tokens]

theorem tokens_slices (text : String) : ∀ t ∈ tokens text, ∃ before after,
    text.toList = before ++ (t.text ++ after) ∧ t.start = 0 + byteCount before ∧
      Taken (t.text ++ after) t.kind t.text :=
  ((partition_iff 0 text.toList (tokens text)).mpr rfl).slices

theorem matches_of_mem_lexemes {text : String} {l : Lexeme} (member : l ∈ lexemes text)
    (clean : l.1 ≠ .error) : Matches l.1 l.2 := by
  obtain ⟨t, listed, rfl⟩ := List.mem_map.mp member
  obtain ⟨_, _, _, _, taken⟩ := tokens_slices text t listed
  obtain ⟨kind, slice, start⟩ := t
  cases taken with
  | longest matched => exact matched
  | stray => exact absurd rfl clean

namespace Reader

/- The kinds that can come next. -/

/-- The kinds that an error lists. Inside parentheses operators go unmentioned. -/
def State.expected (s : State) : List TokenKind :=
  match s.place, s.outer with
  | .term, _ => TokenKind.termStart
  | .literal, _ => TokenKind.negatable
  | .operator _, [] => TokenKind.additionOps ++ TokenKind.multiplicationOps
  | .operator _, _ :: _ => [.rightParen]

/-- The kinds of which some token is taken. -/
def State.followers (s : State) : List TokenKind :=
  match s.place, s.outer with
  | .operator _, _ :: _ =>
    .rightParen :: (TokenKind.additionOps ++ TokenKind.multiplicationOps)
  | _, _ => s.expected

theorem mem_followers {s : State} {kind : TokenKind} : kind ∈ s.followers ↔ kind ∈ s.expected ∨
    s.expected = [.rightParen] ∧ kind ∈ TokenKind.additionOps ++ TokenKind.multiplicationOps := by
  obtain ⟨level, outer, place⟩ := s
  cases place with
  | term => simp [State.followers, State.expected, TokenKind.termStart]
  | literal => simp [State.followers, State.expected, TokenKind.negatable]
  | operator e =>
    cases outer with
    | nil => simp [State.followers, State.expected, TokenKind.additionOps]
    | cons l outer => simp [State.followers, State.expected]

theorem error_not_mem_followers (s : State) : .error ∉ s.followers := by
  obtain ⟨level, outer, place⟩ := s
  cases place with
  | term => exact show .error ∉ TokenKind.termStart by decide
  | literal => exact show .error ∉ TokenKind.negatable by decide
  | operator e =>
    cases outer with
    | nil =>
      exact show .error ∉ TokenKind.additionOps ++ TokenKind.multiplicationOps by decide
    | cons next outer =>
      exact show .error ∉ .rightParen :: (TokenKind.additionOps ++ TokenKind.multiplicationOps)
        by decide

/-- A slice of the kind that no reader refuses for its numbers. -/
def sample : TokenKind → List Char
  | .integer => ['1']
  | .decimal => ['1', '.', '1']
  | .dice => ['d', '1']
  | .advantage => ['^', 'd', '1']
  | .disadvantage => ['v', 'd', '1']
  | .leftParen => ['(']
  | .rightParen => [')']
  | .plus => ['+']
  | .minus => ['-']
  | .star => ['*']
  | .slash => ['/']
  | .error => []

theorem matches_sample {kind : TokenKind} (clean : kind ≠ .error) :
    Matches kind (sample kind) := by
  have one : Digits ['1'] := ⟨List.cons_ne_nil _ _, List.forall_mem_singleton.mpr rfl⟩
  cases kind with
  | integer => exact .integer one
  | decimal => exact .decimal one one
  | dice => exact @Matches.dice [] ['1'] (List.forall_mem_nil _) one
  | advantage => exact .advantage one
  | disadvantage => exact .disadvantage one
  | error => exact absurd rfl clean
  | leftParen => exact .leftParen
  | rightParen => exact .rightParen
  | plus => exact .plus
  | minus => exact .minus
  | star => exact .star
  | slash => exact .slash

/-- The literal has a number that its kind does not allow. -/
def Unreadable (kind : TokenKind) (slice : List Char) : Prop :=
  kind = .dice ∧ readDice? slice = none ∨
    (kind = .advantage ∨ kind = .disadvantage) ∧ readDie? slice = none

theorem readable_sample (kind : TokenKind) : ¬ Unreadable kind (sample kind) := by
  unfold Unreadable
  cases kind <;> decide

/-- Why a token is refused whose kind cannot come next. -/
def State.refusal (s : State) (kind : TokenKind) : ParseError.Cause :=
  match s.place, s.outer with
  | .operator _, [] => if kind = .error then unexpected kind s.expected else .trailingInput kind
  | _, _ => unexpected kind s.expected

theorem take_eq_error_iff {s : State} {e : Option (Expression Float)} {cause : ParseError.Cause} :
    s.take e = .error cause ↔ e = none ∧ cause = .invalidDice := by
  cases e with
  | none => simp [State.take, eq_comm]
  | some f => simp [State.take]

theorem readTerm_eq_error {s : State} {kind : TokenKind} {slice : List Char}
    {cause : ParseError.Cause} (h : s.readTerm ⟨kind, slice, 0⟩ = .error cause) :
    kind ∉ TokenKind.termStart ∧ cause = unexpected kind TokenKind.termStart ∨
      kind ∈ TokenKind.termStart ∧ Unreadable kind slice ∧ cause = .invalidDice := by
  cases kind <;> simp only [State.readTerm, take_eq_error_iff, Option.map_eq_none_iff,
    reduceCtorEq, false_and, Except.error.injEq] at h
  case dice => exact .inr ⟨by decide, .inl ⟨rfl, h.1⟩, h.2⟩
  case advantage => exact .inr ⟨by decide, .inr ⟨.inl rfl, h.1⟩, h.2⟩
  case disadvantage => exact .inr ⟨by decide, .inr ⟨.inr rfl, h.1⟩, h.2⟩
  all_goals exact .inl ⟨by decide, h.symm⟩

theorem readLiteral_eq_error {s : State} {kind : TokenKind} {slice : List Char}
    {cause : ParseError.Cause} (h : s.readLiteral ⟨kind, slice, 0⟩ = .error cause) :
    kind ∉ TokenKind.negatable ∧ cause = unexpected kind TokenKind.negatable ∨
      kind ∈ TokenKind.negatable ∧ Unreadable kind slice ∧ cause = .invalidDice := by
  cases kind <;> simp only [State.readLiteral, take_eq_error_iff, Option.map_eq_none_iff,
    reduceCtorEq, false_and, Except.error.injEq] at h
  case dice => exact .inr ⟨by decide, .inl ⟨rfl, h.1⟩, h.2⟩
  all_goals exact .inl ⟨by decide, h.symm⟩

theorem operator?_eq_none_iff {kind : TokenKind} : kind.operator? = none ↔
    kind ∉ TokenKind.additionOps ++ TokenKind.multiplicationOps := by
  cases kind <;> decide

theorem readOperator_eq_error {s : State} {e : Expression Float} {kind : TokenKind}
    {cause : ParseError.Cause} (place : s.place = .operator e)
    (h : s.readOperator e kind = .error cause) :
    kind ∉ s.followers ∧ cause = s.refusal kind := by
  obtain ⟨level, outer, _⟩ := s
  cases place
  unfold State.readOperator at h
  split at h
  · contradiction
  · rename_i none
    rw [operator?_eq_none_iff] at none
    cases outer with
    | nil =>
      refine ⟨none, ?_⟩
      simp only [State.refusal]
      dsimp only at h
      split at h <;> rename_i error
      · rw [if_pos error, error]
        exact (Except.error.inj h).symm
      · rw [if_neg error]
        exact (Except.error.inj h).symm
    | cons next outer =>
      dsimp only at h
      split at h
      · contradiction
      · rename_i right
        refine ⟨?_, (Except.error.inj h).symm⟩
        rw [State.followers, List.mem_cons, not_or]
        exact ⟨right, none⟩

/-- What a refusal says: the kind cannot come next, or only the numbers of the literal are
wrong. -/
theorem read_eq_error {s : State} {kind : TokenKind} {slice : List Char}
    {cause : ParseError.Cause} (h : s.read ⟨kind, slice, 0⟩ = .error cause) :
    kind ∉ s.followers ∧ cause = s.refusal kind ∨
      kind ∈ s.followers ∧ Unreadable kind slice ∧ cause = .invalidDice := by
  obtain ⟨level, outer, place⟩ := s
  cases place with
  | term => exact readTerm_eq_error h
  | literal => exact readLiteral_eq_error h
  | operator e => exact .inl (readOperator_eq_error rfl h)

theorem mem_followers_of_read {s t : State} {kind : TokenKind} {slice : List Char}
    (h : s.read ⟨kind, slice, 0⟩ = .ok t) : kind ∈ s.followers := by
  obtain ⟨level, outer, place⟩ := s
  cases place with
  | term =>
    change kind ∈ TokenKind.termStart
    cases kind <;> first | decide | cases h
  | literal =>
    change kind ∈ TokenKind.negatable
    cases kind <;> first | decide | cases h
  | operator e =>
    have operator {op : Operator} (known : kind.operator? = some op) :
        kind ∈ TokenKind.additionOps ++ TokenKind.multiplicationOps := by
      cases kind <;> first | decide | cases known
    rcases readOperator_eq_ok h with ⟨op, known, -⟩ | ⟨next, rest, rfl, levels, -⟩
    · cases outer with
      | nil => exact operator known
      | cons next outer => exact List.mem_cons_of_mem _ (operator known)
    · cases levels
      exact List.mem_cons_self

theorem no_error_of_run {s t : State} {ls : List Lexeme} (run : s.run ls = .ok t) :
    ∀ l ∈ ls, l.1 ≠ .error := by
  induction ls generalizing s with
  | nil => exact List.forall_mem_nil _
  | cons l ls ih =>
    obtain ⟨kind, slice⟩ := l
    obtain ⟨u, step, rest⟩ := bind_eq_ok.mp run
    refine List.forall_mem_cons.mpr ⟨?_, ih rest⟩
    rintro rfl
    exact error_not_mem_followers s (mem_followers_of_read step)

/- Giving the reader what it waits for. -/

/-- A right parenthesis for each that is open. -/
def State.closing (s : State) : List Lexeme := s.outer.map fun _ => (.rightParen, [')'])

def State.completion (s : State) : List Lexeme :=
  match s.place with
  | .operator _ => s.closing
  | _ => (.integer, ['1']) :: s.closing

theorem allMatch_closing (s : State) : AllMatch s.closing := by
  intro l member
  obtain ⟨_, _, rfl⟩ := List.mem_map.mp member
  exact .rightParen

theorem allMatch_completion (s : State) : AllMatch s.completion := by
  have one : Matches .integer ['1'] := matches_sample (by decide)
  unfold State.completion
  split
  · exact allMatch_closing s
  · exact List.forall_mem_cons.mpr ⟨one, allMatch_closing s⟩

theorem finish_closing (level : Level) (outer : List Level) (e : Expression Float) :
    ∃ t f, State.run ⟨level, outer, .operator e⟩ (State.closing ⟨level, outer, .operator e⟩) =
      .ok t ∧ t.finish = .ok f := by
  induction outer generalizing level e with
  | nil => exact ⟨_, _, rfl, rfl⟩
  | cons next outer ih => exact ih next (level.close e)

theorem finish_completion (s : State) : ∃ t f, s.run s.completion = .ok t ∧ t.finish = .ok f := by
  obtain ⟨level, outer, place⟩ := s
  cases place with
  | operator e => exact finish_closing level outer e
  | term => exact finish_closing level outer _
  | literal => exact finish_closing level outer _

theorem complete_of_run {ls : List Lexeme} {s : State} {e : Expression Float}
    (tokens : AllMatch ls) (run : State.start.run ls = .ok s) (finish : s.finish = .ok e) :
    Complete ls := by
  have split := lexemes_spaced tokens
  refine ⟨_, e, ?_, split⟩
  rw [Expression.parse_eq_ok_iff, split, derives_iff_run]
  exact ⟨s, run, finish⟩

theorem begins_iff_run {ls : List Lexeme} :
    Begins ls ↔ AllMatch ls ∧ ∃ s, State.start.run ls = .ok s := by
  constructor
  · rintro ⟨text, e, read, rest, parts⟩
    obtain ⟨t, run, -⟩ := derives_iff_run.mp (Expression.parse_eq_ok_iff.mp read)
    have clean := no_error_of_run run
    rw [← parts, run_append] at run
    obtain ⟨s, first, -⟩ := bind_eq_ok.mp run
    refine ⟨fun l member => ?_, s, first⟩
    have member : l ∈ lexemes text := parts ▸ List.mem_append_left rest member
    exact matches_of_mem_lexemes member (clean l member)
  · rintro ⟨tokens, s, run⟩
    obtain ⟨t, e, rest, finish⟩ := finish_completion s
    have all : AllMatch (ls ++ s.completion) :=
      List.forall_mem_append.mpr ⟨tokens, allMatch_completion s⟩
    have whole : State.start.run (ls ++ s.completion) = .ok t := by
      rw [run_append, run]
      exact rest
    obtain ⟨text, f, read, split⟩ := complete_of_run all whole finish
    exact ⟨text, f, read, s.completion, split.symm⟩

theorem complete_iff_run {ls : List Lexeme} :
    Complete ls ↔ AllMatch ls ∧ ∃ s e, State.start.run ls = .ok s ∧ s.finish = .ok e := by
  constructor
  · rintro ⟨text, e, read, rfl⟩
    obtain ⟨s, run, finish⟩ := derives_iff_run.mp (Expression.parse_eq_ok_iff.mp read)
    exact ⟨(begins_iff_run.mp ⟨text, e, read, List.prefix_rfl⟩).1, s, e, run, finish⟩
  · rintro ⟨tokens, s, e, run, finish⟩
    exact complete_of_run tokens run finish

/-- The kinds that continue what has been read are those that the place of the reader admits. -/
theorem canFollow_iff {ls : List Lexeme} {s : State} {kind : TokenKind} (tokens : AllMatch ls)
    (run : State.start.run ls = .ok s) : CanFollow ls kind ↔ kind ∈ s.followers := by
  constructor
  · rintro ⟨slice, continued⟩
    obtain ⟨-, t, all⟩ := begins_iff_run.mp continued
    rw [run_append, run] at all
    exact mem_followers_of_read ((run_one s (kind, slice)).symm.trans all)
  · intro member
    have clean : kind ≠ .error := by
      rintro rfl
      exact error_not_mem_followers s member
    refine ⟨sample kind, begins_iff_run.mpr ⟨?_, ?_⟩⟩
    · exact List.forall_mem_append.mpr
        ⟨tokens, List.forall_mem_singleton.mpr (matches_sample clean)⟩
    · rw [run_append, run]
      show ∃ t, s.run [(kind, sample kind)] = .ok t
      rw [run_one]
      cases step : s.read ⟨kind, sample kind, 0⟩ with
      | ok t => exact ⟨t, rfl⟩
      | error cause =>
        rcases read_eq_error step with ⟨other, -⟩ | ⟨-, unreadable, -⟩
        · exact absurd member other
        · exact absurd unreadable (readable_sample kind)

end Reader

end DiceNotation
