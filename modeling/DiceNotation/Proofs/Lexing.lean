import DiceNotation.Proofs.Grammar

/-!
Patterns of tokens, and the tokens of a text that is put together from them. A token that is
followed by something its pattern cannot go on with is found again, whatever comes behind.
-/
namespace DiceNotation

def Digits (cs : List Char) : Prop := cs ≠ [] ∧ ∀ c ∈ cs, c.isDigit

inductive Matches : TokenKind → List Char → Prop where
  | integer {ds} : Digits ds → Matches .integer ds
  | decimal {ds es} : Digits ds → Digits es → Matches .decimal (ds ++ '.' :: es)
  | dice {ds es} : (∀ c ∈ ds, c.isDigit) → Digits es → Matches .dice (ds ++ 'd' :: es)
  | advantage {es} : Digits es → Matches .advantage ('^' :: 'd' :: es)
  | disadvantage {es} : Digits es → Matches .disadvantage ('v' :: 'd' :: es)
  | leftParen : Matches .leftParen ['(']
  | rightParen : Matches .rightParen [')']
  | plus : Matches .plus ['+']
  | minus : Matches .minus ['-']
  | star : Matches .star ['*']
  | slash : Matches .slash ['/']

/-- No token pattern that has matched so far goes on with this text. -/
def Closed (rest : List Char) : Prop :=
  ∀ c ∈ rest.head?, c.isDigit = false ∧ c ≠ '.' ∧ c ≠ 'd'

/- Soundness of the match. -/

theorem digits_take {cs : List Char} (h : 0 < leadingDigits cs) :
    Digits (cs.take (leadingDigits cs)) := by
  refine ⟨?_, leadingDigits_take cs⟩
  simp only [ne_eq, List.take_eq_nil_iff]
  rintro (none | rfl)
  · omega
  · exact absurd h (by decide)

theorem numberMatch_eq_some {ds rest : List Char} {kind : TokenKind} {n : Nat}
    (digits : ∀ c ∈ ds, c.isDigit) (h : numberMatch ds.length rest = some (kind, n)) :
    ∃ body after, ds ++ rest = body ++ after ∧ n = body.length ∧ Matches kind body := by
  have whole (h : numberMatch.whole ds.length = some (kind, n)) :
      ∃ body after, ds ++ rest = body ++ after ∧ n = body.length ∧ Matches kind body := by
    unfold numberMatch.whole at h
    split at h
    · rename_i some
      cases h
      exact ⟨ds, rest, rfl, rfl, .integer ⟨List.ne_nil_of_length_pos some, digits⟩⟩
    · contradiction
  unfold numberMatch at h
  split at h
  · rename_i faces
    split at h
    · rename_i some
      cases h
      refine ⟨ds ++ 'd' :: faces.take (leadingDigits faces), faces.drop (leadingDigits faces),
        ?_, ?_, .dice digits (digits_take some)⟩
      · simp
      · simp [leadingDigits_le]; omega
    · exact whole h
  · rename_i places
    split at h
    · rename_i some
      rw [Bool.and_eq_true, decide_eq_true_eq, decide_eq_true_eq] at some
      cases h
      refine ⟨ds ++ '.' :: places.take (leadingDigits places), places.drop (leadingDigits places),
        ?_, ?_, .decimal ⟨List.ne_nil_of_length_pos some.1, digits⟩ (digits_take some.2)⟩
      · simp
      · simp [leadingDigits_le]; omega
    · exact whole h
  · exact whole h

theorem pair_eq_some {kind kind' : TokenKind} {faces : List Char} {n : Nat}
    (h : longestMatch?.pair kind faces = some (kind', n)) :
    kind' = kind ∧ n = 2 + leadingDigits faces ∧ Digits (faces.take (leadingDigits faces)) := by
  unfold longestMatch?.pair at h
  split at h
  · rename_i some
    cases h
    exact ⟨rfl, rfl, digits_take some⟩
  · contradiction

theorem longestMatch?_eq_some {cs : List Char} {kind : TokenKind} {n : Nat}
    (h : longestMatch? cs = some (kind, n)) :
    ∃ body after, cs = body ++ after ∧ n = body.length ∧ Matches kind body := by
  unfold longestMatch? at h
  split at h
  · cases h; exact ⟨_, _, rfl, rfl, .leftParen⟩
  · cases h; exact ⟨_, _, rfl, rfl, .rightParen⟩
  · cases h; exact ⟨_, _, rfl, rfl, .plus⟩
  · cases h; exact ⟨_, _, rfl, rfl, .minus⟩
  · cases h; exact ⟨_, _, rfl, rfl, .star⟩
  · cases h; exact ⟨_, _, rfl, rfl, .slash⟩
  · rename_i faces
    obtain ⟨rfl, rfl, digits⟩ := pair_eq_some h
    refine ⟨_, faces.drop (leadingDigits faces), ?_, ?_, .advantage digits⟩
    · simp
    · simp [leadingDigits_le]; omega
  · rename_i faces
    obtain ⟨rfl, rfl, digits⟩ := pair_eq_some h
    refine ⟨_, faces.drop (leadingDigits faces), ?_, ?_, .disadvantage digits⟩
    · simp
    · simp [leadingDigits_le]; omega
  · have size : (cs.take (leadingDigits cs)).length = leadingDigits cs := by
      simp [leadingDigits_le]
    rw [← size] at h
    obtain ⟨body, after, parts, rest⟩ := numberMatch_eq_some (leadingDigits_take cs) h
    rw [size, List.take_append_drop] at parts
    exact ⟨body, after, parts, rest⟩

/- Completeness of the match. -/

theorem leadingDigits_append {ds rest : List Char} (digits : ∀ c ∈ ds, c.isDigit)
    (stop : ∀ c ∈ rest.head?, c.isDigit = false) : leadingDigits (ds ++ rest) = ds.length := by
  induction ds with
  | nil =>
    cases rest with
    | nil => rfl
    | cons c cs => simp [leadingDigits, stop c rfl]
  | cons d ds ih =>
    have rest := ih fun c hc => digits c (List.mem_cons_of_mem d hc)
    simp [leadingDigits, digits d List.mem_cons_self, rest]

theorem longestMatch?_number {cs : List Char} (h : ∀ c ∈ cs.head?, c.isDigit ∨ c = 'd') :
    longestMatch? cs = numberMatch (leadingDigits cs) (cs.drop (leadingDigits cs)) := by
  unfold longestMatch?
  split <;> first | rfl | exact absurd (h _ rfl) (by decide)

theorem Digits.pos {ds : List Char} (h : Digits ds) : 0 < ds.length :=
  List.length_pos_iff.mpr h.1

theorem longestMatch?_digits {ds rest : List Char} (digits : ∀ c ∈ ds, c.isDigit)
    (stop : ∀ c ∈ rest.head?, c.isDigit = false) (start : ds ≠ [] ∨ ∃ es, rest = 'd' :: es) :
    longestMatch? (ds ++ rest) = numberMatch ds.length rest := by
  have head : ∀ c ∈ (ds ++ rest).head?, c.isDigit ∨ c = 'd' := by
    intro c hc
    cases ds with
    | nil =>
      rcases start with none | ⟨es, rfl⟩
      · exact absurd rfl none
      · cases hc; exact .inr rfl
    | cons d ds => cases hc; exact .inl (digits c List.mem_cons_self)
  simp only [longestMatch?_number head, leadingDigits_append digits stop, List.drop_left]

theorem numberMatch_closed {k : Nat} {rest : List Char} (pos : 0 < k) (closed : Closed rest) :
    numberMatch k rest = some (.integer, k) := by
  unfold numberMatch
  split
  · exact absurd rfl (closed 'd' rfl).2.2
  · exact absurd rfl (closed '.' rfl).2.1
  · exact if_pos pos

theorem longestMatch?_of_matches {kind : TokenKind} {body rest : List Char}
    (h : Matches kind body) (closed : Closed rest) :
    longestMatch? (body ++ rest) = some (kind, body.length) := by
  have stop : ∀ c ∈ rest.head?, c.isDigit = false := fun c hc => (closed c hc).1
  have after {es : List Char} (digits : Digits es) : leadingDigits (es ++ rest) = es.length :=
    leadingDigits_append digits.2 stop
  cases h with
  | integer digits =>
    rw [longestMatch?_digits digits.2 stop (.inl digits.1)]
    exact numberMatch_closed digits.pos closed
  | @decimal ds es digits places =>
    have point : ∀ c ∈ ('.' :: (es ++ rest)).head?, c.isDigit = false := by
      rintro c ⟨⟩; rfl
    simp only [List.append_assoc, List.cons_append,
      longestMatch?_digits digits.2 point (.inl digits.1)]
    simp [numberMatch, after places, digits.pos, places.pos]
    omega
  | @dice ds es digits faces =>
    have letter : ∀ c ∈ ('d' :: (es ++ rest)).head?, c.isDigit = false := by
      rintro c ⟨⟩; rfl
    rw [List.append_assoc, List.cons_append,
      longestMatch?_digits digits letter (.inr ⟨_, rfl⟩)]
    simp [numberMatch, after faces, faces.pos]
    omega
  | @advantage es faces =>
    simp [longestMatch?, longestMatch?.pair, after faces, faces.pos]
    omega
  | @disadvantage es faces =>
    simp [longestMatch?, longestMatch?.pair, after faces, faces.pos]
    omega
  | _ => rfl

/- Lexemes of a text. -/

def lex (cs : List Char) : List Lexeme := (tokensFrom 0 0 cs).map Token.lexeme

theorem lexemes_eq_lex (text : String) : lexemes text = lex text.toList := rfl

theorem lexeme_tokensFrom (p q n : Nat) (cs : List Char) :
    (tokensFrom p n cs).map Token.lexeme = (tokensFrom q n cs).map Token.lexeme := by
  induction cs generalizing p q n with
  | nil => rfl
  | cons c cs ih =>
    unfold tokensFrom
    cases n with
    | succ n => exact ih _ _ _
    | zero =>
      dsimp only
      split
      · exact ih _ _ _
      · split <;> exact congrArg (_ :: ·) (ih _ _ _)

theorem lex_nil : lex [] = [] := rfl

theorem lex_blank {c : Char} (blank : isBlank c = true) (cs : List Char) :
    lex (c :: cs) = lex cs := by
  unfold lex
  rw [tokensFrom, if_pos blank]
  exact lexeme_tokensFrom _ _ _ _

theorem lex_error {c : Char} {cs : List Char} (ink : isBlank c = false)
    (none : longestMatch? (c :: cs) = none) : lex (c :: cs) = (.error, [c]) :: lex cs := by
  unfold lex
  rw [tokensFrom, if_neg (by simp [ink])]
  simp only [none]
  exact congrArg (_ :: ·) (lexeme_tokensFrom _ _ _ _)

theorem Matches.ne_nil {kind : TokenKind} {body : List Char} (h : Matches kind body) :
    body ≠ [] := by
  cases h with
  | integer digits => exact digits.1
  | _ => simp

theorem lex_token {kind : TokenKind} {c : Char} {cs after : List Char} (ink : isBlank c = false)
    (found : longestMatch? (c :: (cs ++ after)) = some (kind, cs.length + 1)) :
    lex (c :: (cs ++ after)) = (kind, c :: cs) :: lex after := by
  unfold lex
  rw [tokensFrom, if_neg (by simp [ink])]
  simp only [found, Nat.add_sub_cancel, List.map_cons, List.take_succ_cons, List.take_left]
  rw [tokensFrom_covered, List.drop_left]
  exact congrArg (_ :: ·) (lexeme_tokensFrom _ _ _ _)

/-- The characters that tokens other than errors are made of. -/
def Inked (c : Char) : Prop :=
  c.isDigit ∨ c ∈ ['d', '.', '^', 'v', '(', ')', '+', '-', '*', '/']

theorem Matches.inked {kind : TokenKind} {body : List Char} (h : Matches kind body) :
    ∀ c ∈ body, Inked c := by
  have digit {c : Char} {ds : List Char} (digits : Digits ds) (hc : c ∈ ds) : Inked c :=
    .inl (digits.2 c hc)
  intro c hc
  cases h with
  | integer digits => exact digit digits hc
  | decimal digits places =>
    rcases List.mem_append.mp hc with hc | hc
    · exact digit digits hc
    · rcases List.mem_cons.mp hc with rfl | hc
      · exact .inr (by decide)
      · exact digit places hc
  | dice digits faces =>
    rcases List.mem_append.mp hc with hc | hc
    · exact .inl (digits c hc)
    · rcases List.mem_cons.mp hc with rfl | hc
      · exact .inr (by decide)
      · exact digit faces hc
  | advantage faces | disadvantage faces =>
    rcases List.mem_cons.mp hc with rfl | hc
    · exact .inr (by decide)
    · rcases List.mem_cons.mp hc with rfl | hc
      · exact .inr (by decide)
      · exact digit faces hc
  | _ =>
    cases List.mem_singleton.mp hc
    exact .inr (by decide)

theorem Inked.not_blank {c : Char} (h : Inked c) : isBlank c = false := by
  rw [Bool.eq_false_iff]
  intro blank
  have cases : ((c = ' ' ∨ c = '\t') ∨ c = '\r') ∨ c = '\n' := by simpa [isBlank] using blank
  rcases cases with ((rfl | rfl) | rfl) | rfl <;> exact absurd h (by unfold Inked; decide)

theorem lex_append {kind : TokenKind} {body rest : List Char} (h : Matches kind body)
    (closed : Closed rest) : lex (body ++ rest) = (kind, body) :: lex rest := by
  have found := longestMatch?_of_matches h closed
  cases body with
  | nil => exact absurd rfl h.ne_nil
  | cons c cs => exact lex_token (h.inked c List.mem_cons_self).not_blank found

theorem lex_cons (c : Char) (cs : List Char) :
    (isBlank c = true ∧ lex (c :: cs) = lex cs) ∨
      (longestMatch? (c :: cs) = none ∧ lex (c :: cs) = (.error, [c]) :: lex cs) ∨
      ∃ kind body after, c :: cs = c :: body ++ after ∧ Matches kind (c :: body) ∧
        lex (c :: cs) = (kind, c :: body) :: lex after := by
  cases ink : isBlank c with
  | true => exact .inl ⟨rfl, lex_blank ink cs⟩
  | false =>
    cases found : longestMatch? (c :: cs) with
    | none => exact .inr (.inl ⟨rfl, lex_error ink found⟩)
    | some result =>
      obtain ⟨kind, n⟩ := result
      obtain ⟨body, after, parts, rfl, h⟩ := longestMatch?_eq_some found
      cases body with
      | nil => exact absurd rfl h.ne_nil
      | cons b bs =>
        cases parts
        exact .inr (.inr ⟨kind, bs, after, rfl, h, lex_token ink found⟩)

/-- A character that is neither blank nor part of any token leaves an error token. -/
theorem error_of_mem {cs : List Char} {c : Char} (h : c ∈ cs) (ink : isBlank c = false)
    (strange : ¬Inked c) : ∃ l ∈ lex cs, l.1 = .error := by
  -- A token takes several characters at once, hence the induction on the length.
  induction size : cs.length using Nat.strongRecOn generalizing cs with
  | ind n ih =>
    cases cs with
    | nil => contradiction
    | cons d ds =>
      rcases lex_cons d ds with ⟨blank, step⟩ | ⟨-, step⟩ | ⟨kind, body, after, parts, found, step⟩
      · rw [step]
        rcases List.mem_cons.mp h with rfl | h
        · rw [ink] at blank
          contradiction
        · exact ih ds.length (by simp [← size]) h rfl
      · rw [step]
        exact ⟨_, List.mem_cons_self, rfl⟩
      · rw [step]
        rw [parts] at h size
        rcases List.mem_append.mp h with h | h
        · exact absurd (found.inked c h) strange
        · have length := List.length_pos_iff.mpr found.ne_nil
          rw [List.length_append] at size
          obtain ⟨l, mem, error⟩ := ih after.length (by omega) h rfl
          exact ⟨l, List.mem_cons_of_mem _ mem, error⟩

end DiceNotation
