import DiceNotation.Proofs.Refusals

/-!
Blanks between the tokens of a text. Put in anywhere but inside a token, they move what stands
behind them and change nothing else: a blank ends no pattern sooner and lets none go on, and the
reader sees the kinds and the slices of tokens only.
-/
namespace DiceNotation

/-- Blanks to put into a text. What is given for a byte goes before the character that starts
there, or behind the last one, and nothing goes into a token. -/
structure Spacing (text : String) where
  fill : Nat → List Char
  blank : ∀ k, ∀ c ∈ fill k, isBlank c = true
  apart : ∀ t ∈ tokens text, ∀ k, t.start < k → k < t.stop → fill k = []

/-- The characters, of which the first is at byte `p`, with all blanks put in. -/
def filled (fill : Nat → List Char) (p : Nat) : List Char → List Char
  | [] => fill p
  | c :: cs => fill p ++ c :: filled fill (p + c.utf8Size) cs

def Spacing.text {text : String} (s : Spacing text) : String :=
  String.ofList (filled s.fill 0 text.toList)

/-- The bytes that are put in at the first `n` bytes of a text. -/
def inserted (fill : Nat → List Char) : Nat → Nat
  | 0 => 0
  | n + 1 => inserted fill n + byteCount (fill n)

/- What starts at a byte moves by all that is put in up to there. -/

def Token.moved (fill : Nat → List Char) (t : Token) : Token :=
  { t with start := t.start + inserted fill (t.start + 1) }

def ParseError.moved (fill : Nat → List Char) (e : ParseError) : ParseError :=
  { e with
    start := e.start + inserted fill (e.start + 1)
    stop := e.stop + inserted fill (e.start + 1) }

section

variable {fill : Nat → List Char}

theorem inserted_of_none {p q : Nat} (lt : p < q) (none : ∀ k, p < k → k < q → fill k = []) :
    inserted fill q = inserted fill (p + 1) := by
  obtain ⟨n, rfl⟩ := Nat.exists_eq_add_of_lt lt
  induction n with
  | zero => rfl
  | succ n ih =>
    have here : fill (p + n + 1) = [] := none _ (by omega) (by omega)
    have before := ih (by omega) fun k above below => none k above (by omega)
    show inserted fill (p + n + 1) + byteCount (fill (p + n + 1)) = _
    rw [here, before]
    rfl

theorem filled_of_none {p : Nat} {body : List Char} (after : List Char)
    (none : ∀ k, p ≤ k → k < p + byteCount body → fill k = []) :
    filled fill p (body ++ after) = body ++ filled fill (p + byteCount body) after := by
  induction body generalizing p with
  | nil => rfl
  | cons c body ih =>
    have pos := c.utf8Size_pos
    have here : fill p = [] := none p (Nat.le_refl p) (by simp only [byteCount]; omega)
    have others : ∀ k, p + c.utf8Size ≤ k → k < p + c.utf8Size + byteCount body → fill k = [] :=
      fun k above below => none k (by omega) (by simp only [byteCount]; omega)
    rw [List.cons_append, filled, here, ih others, byteCount, Nat.add_assoc]
    rfl

/-- Nothing goes into a token, so it stays in one piece behind what goes before it. -/
theorem filled_token {p : Nat} {body : List Char} (after : List Char) (some : body ≠ [])
    (none : ∀ k, p < k → k < p + byteCount body → fill k = []) :
    filled fill p (body ++ after) = fill p ++ (body ++ filled fill (p + byteCount body) after) := by
  cases body with
  | nil => contradiction
  | cons c body =>
    have pos := c.utf8Size_pos
    have inside : ∀ k, p + c.utf8Size ≤ k → k < p + c.utf8Size + byteCount body → fill k = [] :=
      fun k above below => none k (by omega) (by simp only [byteCount]; omega)
    rw [List.cons_append, filled, filled_of_none after inside, byteCount, Nat.add_assoc]
    rfl

theorem tokensFrom_blanks (p : Nat) {bs : List Char} (blank : ∀ c ∈ bs, isBlank c = true)
    (rest : List Char) : tokensFrom p 0 (bs ++ rest) = tokensFrom (p + byteCount bs) 0 rest := by
  induction bs generalizing p with
  | nil => rfl
  | cons b bs ih =>
    obtain ⟨first, others⟩ := List.forall_mem_cons.mp blank
    rw [List.cons_append, tokensFrom, if_pos first, ih _ others, byteCount, Nat.add_assoc]

theorem utf8Size_of_blank {c : Char} (blank : isBlank c = true) : c.utf8Size = 1 := by
  have cases : ((c = ' ' ∨ c = '\t') ∨ c = '\r') ∨ c = '\n' := by simpa [isBlank] using blank
  rcases cases with ((rfl | rfl) | rfl) | rfl <;> rfl

/- The longest match. -/

/-- Whatever has no blank and begins the text with its blanks began the text before. -/
theorem front_of_filled (blank : ∀ k, ∀ c ∈ fill k, isBlank c = true) {p : Nat}
    {w cs : List Char} (ink : ∀ c ∈ w, isBlank c = false) (front : w <+: filled fill p cs) :
    w <+: cs := by
  induction cs generalizing p w with
  | nil =>
    cases w with
    | nil => exact List.nil_prefix
    | cons d w =>
      have dark := ink d List.mem_cons_self
      have light := blank p d (front.subset List.mem_cons_self)
      rw [dark] at light
      contradiction
  | cons c cs ih =>
    cases w with
    | nil => exact List.nil_prefix
    | cons d w =>
      obtain ⟨dark, others⟩ := List.forall_mem_cons.mp ink
      rw [filled] at front
      cases gap : fill p with
      | nil =>
        rw [gap, List.nil_append, List.cons_prefix_cons] at front
        obtain ⟨rfl, rest⟩ := front
        exact List.cons_prefix_cons.mpr ⟨rfl, ih others rest⟩
      | cons b bs =>
        rw [gap, List.cons_append, List.cons_prefix_cons] at front
        have light := blank p b (by rw [gap]; exact List.mem_cons_self)
        rw [← front.1, dark] at light
        contradiction

theorem front_of_append (blank : ∀ k, ∀ c ∈ fill k, isBlank c = true) {p : Nat}
    {w body after : List Char} (ink : ∀ c ∈ w, isBlank c = false)
    (front : w <+: body ++ filled fill p after) : w <+: body ++ after := by
  obtain ⟨rest, parts⟩ := front
  rcases List.append_eq_append_iff.mp parts with ⟨more, rfl, _⟩ | ⟨more, rfl, tail⟩
  · exact ⟨more ++ after, by simp⟩
  · have behind : more <+: after :=
      front_of_filled blank (fun c member => ink c (List.mem_append_right body member))
        ⟨rest, tail.symm⟩
    exact (List.prefix_append_right_inj body).mpr behind

/-- A token takes the same characters with blanks behind it or in what comes later. -/
theorem taken_filled (blank : ∀ k, ∀ c ∈ fill k, isBlank c = true) {p : Nat}
    {kind : TokenKind} {body after : List Char} (taken : Taken (body ++ after) kind body) :
    Taken (body ++ filled fill p after) kind body := by
  have known {other : TokenKind} {w : List Char} (h : Matches other w)
      (front : w <+: body ++ filled fill p after) : w <+: body ++ after :=
    front_of_append blank (fun c member => (h.inked c member).not_blank) front
  have kept : body <+: body ++ filled fill p after := List.prefix_append _ _
  cases taken with
  | longest h _ longest =>
    exact .longest h kept fun other w h' front => longest other w h' (known h' front)
  | stray _ none => exact .stray kept fun other w h' front => none other w h' (known h' front)

theorem tokensFrom_of_taken {p : Nat} {kind : TokenKind} {body rest : List Char}
    (taken : Taken (body ++ rest) kind body) (ink : ∀ c ∈ body, isBlank c = false) :
    tokensFrom p 0 (body ++ rest) =
      ⟨kind, body, p⟩ :: tokensFrom (p + byteCount body) 0 rest := by
  cases body with
  | nil => exact absurd rfl taken.ne_nil
  | cons c body =>
    obtain ⟨⟨found, text, _⟩, after, step, rfl, parts, taken'⟩ :=
      @tokensFrom_taken p c (body ++ rest) (ink c List.mem_cons_self)
    obtain ⟨rfl, rfl⟩ := taken'.unique taken
    have same : c :: body ++ rest = c :: body ++ after := parts
    cases List.append_cancel_left same
    exact step

/- The tokens and the size of a text with blanks put in. -/

theorem tokensFrom_filled (blank : ∀ k, ∀ c ∈ fill k, isBlank c = true) (p : Nat)
    (cs : List Char)
    (apart : ∀ t ∈ tokensFrom p 0 cs, ∀ k, t.start < k → k < t.stop → fill k = []) :
    tokensFrom (p + inserted fill p) 0 (filled fill p cs) =
      (tokensFrom p 0 cs).map (Token.moved fill) := by
  induction p, cs using tokens_induction with
  | nil p =>
    have rest := tokensFrom_blanks (p + inserted fill p) (blank p) []
    rwa [List.append_nil] at rest
  | blank p c cs light ih =>
    have step (q : Nat) (ds : List Char) :
        tokensFrom q 0 (c :: ds) = tokensFrom (q + 1) 0 ds := by
      rw [tokensFrom, if_pos light, utf8Size_of_blank light]
    rw [utf8Size_of_blank light] at ih
    rw [step] at apart ⊢
    have place : p + inserted fill p + byteCount (fill p) + 1 =
        p + 1 + inserted fill (p + 1) := by
      rw [inserted]
      omega
    rw [filled, tokensFrom_blanks _ (blank p), step, utf8Size_of_blank light, place, ih apart]
  | token p c cs t after ink step start parts taken ih =>
    rw [step] at apart
    obtain ⟨first, others⟩ := List.forall_mem_cons.mp apart
    subst start
    have ahead : inserted fill t.stop = inserted fill (t.start + 1) :=
      inserted_of_none (Token.start_lt_stop taken) first
    have inked : ∀ d ∈ t.text, isBlank d = false := taken.not_blank (by rintro d ⟨⟩; exact ink)
    rw [parts] at taken
    have place : t.start + inserted fill t.start + byteCount (fill t.start) =
        (t.moved fill).start := Nat.add_assoc _ _ _
    have stop : (t.moved fill).start + byteCount t.text = t.stop + inserted fill t.stop := by
      rw [ahead]
      exact Nat.add_right_comm _ _ _
    rw [step, parts, filled_token after taken.ne_nil first, tokensFrom_blanks _ (blank t.start),
      place, tokensFrom_of_taken (taken_filled blank taken) inked, stop]
    exact congrArg (t.moved fill :: ·) (ih others)

/-- Up to the end of a text all blanks have been put in. -/
theorem byteCount_filled (p : Nat) (cs : List Char)
    (apart : ∀ t ∈ tokensFrom p 0 cs, ∀ k, t.start < k → k < t.stop → fill k = []) :
    inserted fill p + byteCount (filled fill p cs) =
      byteCount cs + inserted fill (p + byteCount cs + 1) := by
  induction p, cs using tokens_induction with
  | nil p => exact (Nat.zero_add _).symm
  | blank p c cs light ih =>
    rw [tokensFrom, if_pos light] at apart
    have rest := ih apart
    rw [utf8Size_of_blank light] at rest
    simp only [filled, byteCount_append, byteCount, utf8Size_of_blank light, inserted,
      ← Nat.add_assoc] at rest ⊢
    omega
  | token p c cs t after ink step start parts taken ih =>
    rw [step] at apart
    obtain ⟨first, others⟩ := List.forall_mem_cons.mp apart
    subst start
    have ahead : inserted fill t.stop = inserted fill (t.start + 1) :=
      inserted_of_none (Token.start_lt_stop taken) first
    have rest := ih others
    have whole : t.stop + byteCount after = t.start + (byteCount t.text + byteCount after) :=
      Nat.add_assoc _ _ _
    rw [ahead, whole, inserted] at rest
    rw [parts, filled_token after taken.ne_nil first]
    simp only [byteCount_append]
    rw [Token.stop] at rest
    omega

end

/- The reader. -/

theorem ParseError.atToken_moved (fill : Nat → List Char) (t : Token) (cause : Cause) :
    atToken (t.moved fill) cause = (atToken t cause).moved fill := by
  simp only [atToken, moved, Token.moved, Token.stop, ParseError.mk.injEq, true_and, and_true]
  exact Nat.add_right_comm _ _ _

namespace Reader

theorem readAll_moved {fill : Nat → List Char} {length longer : Nat}
    (size : longer = length + inserted fill (length + 1)) (s : State) (ts : List Token) :
    s.readAll longer (ts.map (Token.moved fill)) =
      (s.readAll length ts).mapError (ParseError.moved fill) := by
  induction ts generalizing s with
  | nil =>
    subst size
    show s.finish.mapError _ = (s.finish.mapError _).mapError _
    cases s.finish <;> rfl
  | cons t ts ih =>
    have same : s.read (t.moved fill) = s.read t := rfl
    rw [List.map_cons, State.readAll, State.readAll, same]
    cases s.read t with
    | ok u => exact ih u
    | error cause => exact congrArg Except.error (ParseError.atToken_moved fill t cause)

end Reader

namespace Spacing

variable {text : String}

theorem tokens_text (s : Spacing text) :
    tokens s.text = (tokens text).map (Token.moved s.fill) := by
  unfold tokens Spacing.text
  rw [String.toList_ofList]
  exact tokensFrom_filled s.blank 0 text.toList s.apart

theorem utf8ByteSize_text (s : Spacing text) :
    s.text.utf8ByteSize = text.utf8ByteSize + inserted s.fill (text.utf8ByteSize + 1) := by
  have size := byteCount_filled 0 text.toList s.apart
  have whole : text.utf8ByteSize = byteCount text.toList := by
    rw [← utf8ByteSize_ofList, String.ofList_toList]
  rw [Spacing.text, utf8ByteSize_ofList, whole]
  simpa [inserted] using size

theorem text_ne_empty (s : Spacing text) (some : text ≠ "") : s.text ≠ "" := by
  intro empty
  have size := s.utf8ByteSize_text
  rw [empty, String.utf8ByteSize_empty] at size
  exact some (String.utf8ByteSize_eq_zero_iff.mp (by omega))

end Spacing

/-- Blanks between tokens leave the kinds and the slices of tokens as they are and move each by
what goes before it. Reading gives the same tree, or the same error at the place to which its
token, or the end of the text, has moved. -/
theorem blanks_between_tokens_change_nothing {text : String} (some : text ≠ "")
    (s : Spacing text) :
    tokens s.text = (tokens text).map (Token.moved s.fill) ∧
      lexemes s.text = lexemes text ∧
      s.text.utf8ByteSize = text.utf8ByteSize + inserted s.fill (text.utf8ByteSize + 1) ∧
      Expression.parse s.text = (Expression.parse text).mapError (ParseError.moved s.fill) := by
  refine ⟨s.tokens_text, ?_, s.utf8ByteSize_text, ?_⟩
  · rw [lexemes, s.tokens_text, List.map_map]
    rfl
  · have read {text : String} (some : text ≠ "") : Expression.parse text =
        Reader.State.start.readAll text.utf8ByteSize (tokens text) :=
      if_neg fun empty => some (String.isEmpty_iff.mp empty)
    rw [read some, read (s.text_ne_empty some), s.tokens_text]
    exact Reader.readAll_moved s.utf8ByteSize_text _ _

/-- `(3+4d0` with a line break before it, two blanks before its dice and one behind them. -/
def wideSum : Spacing "(3+4d0" where
  fill k := if k = 0 then ['\n'] else if k = 3 then [' ', '\t'] else if k = 6 then [' '] else []
  blank := by
    intro k
    split
    · exact List.forall_mem_singleton.mpr rfl
    · split
      · exact List.forall_mem_cons.mpr ⟨rfl, List.forall_mem_singleton.mpr rfl⟩
      · split
        · exact List.forall_mem_singleton.mpr rfl
        · exact List.forall_mem_nil _
  apart := by
    have short : ∀ t ∈ tokens "(3+4d0", t.stop = t.start + 1 ∨ 3 ≤ t.start ∧ t.stop ≤ 6 := by
      decide
    intro t member k above below
    have inside := short t member
    have clear : k ≠ 0 ∧ k ≠ 3 ∧ k ≠ 6 := by omega
    simp [clear]

theorem wideSum_refused_further_on : "(3+4d0" ≠ "" ∧ wideSum.text = "\n(3+ \t4d0 " ∧
    lexemes wideSum.text = lexemes "(3+4d0" ∧
    Expression.parse "(3+4d0" = .error ⟨.invalidDice, 3, 6, ['4', 'd', '0']⟩ ∧
    Expression.parse wideSum.text = .error ⟨.invalidDice, 6, 9, ['4', 'd', '0']⟩ := by
  have some : "(3+4d0" ≠ "" := by decide
  have refused : Expression.parse "(3+4d0" = .error ⟨.invalidDice, 3, 6, ['4', 'd', '0']⟩ := rfl
  obtain ⟨-, same, -, moved⟩ := blanks_between_tokens_change_nothing some wideSum
  rw [refused] at moved
  exact ⟨some, rfl, same, refused, moved⟩

end DiceNotation
