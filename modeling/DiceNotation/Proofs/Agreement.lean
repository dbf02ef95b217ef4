import DiceNotation.Proofs.Checks

/-!
Reading by descent and reading token by token. Where the descent is inside a phrase, the reader of
single tokens is in a state whose level keeps what the phrases around it wait for, and both go on to
the same expression or stop at the same token for the same cause.
-/
namespace DiceNotation.Descent

open Reader (State Level)
open ParseError (Cause)

variable {r : Descent}

/-- What is found token by token is what `next` finds behind a phrase, or the refusal inside it. -/
def Agrees {α : Type} (found : Except ParseError (Expression Float))
    (next : α → Except ParseError (Expression Float)) : Except Stop α → Prop
  | .ok a => found = next a
  | .error (.refused e) => found = .error e
  | .error (.unmet ..) => True
  | .error .overflow => True

theorem Agrees.bind {α β : Type} {found : Except ParseError (Expression Float)}
    {between : α → Except ParseError (Expression Float)}
    {next : β → Except ParseError (Expression Float)} {x : Except Stop α}
    {f : α → Except Stop β} (first : Agrees found between x)
    (others : ∀ a, x = .ok a → Agrees (between a) next (f a)) : Agrees found next (x >>= f) := by
  cases x with
  | ok a =>
    have same : found = between a := first
    rw [same]
    exact others a rfl
  | error stop => cases stop <;> exact first

/- Single tokens. -/

theorem kind_advance {c : Cursor} {kind : TokenKind} (h : c.peek = some kind) :
    (r.advance c).last.kind = kind := by
  obtain ⟨last, ahead⟩ := c
  cases ahead with
  | nil => cases h
  | cons t ahead => exact Option.some.inj h

theorem readAll_of_read {c : Cursor} {kind : TokenKind} {s t : State} (h : c.peek = some kind)
    (read : s.read (r.advance c).last = .ok t) :
    s.readAll r.length c.ahead = t.readAll r.length (r.advance c).ahead := by
  obtain ⟨last, ahead⟩ := c
  cases ahead with
  | nil => cases h
  | cons token ahead =>
    have read : s.read token = .ok t := read
    rw [State.readAll, read]
    rfl

theorem readAll_of_refusal {c : Cursor} {kind : TokenKind} {s : State} {cause : Cause}
    (h : c.peek = some kind) (read : s.read (r.advance c).last = .error cause) :
    s.readAll r.length c.ahead = .error ((r.advance c).error cause) := by
  obtain ⟨last, ahead⟩ := c
  cases ahead with
  | nil => cases h
  | cons token ahead =>
    have read : s.read token = .error cause := read
    rw [State.readAll, read]
    rfl

theorem readAll_of_end {c : Cursor} {s : State} (h : c.peek = none) :
    s.readAll r.length c.ahead = s.finish.mapError (ParseError.atEnd r.length) := by
  obtain ⟨last, ahead⟩ := c
  cases ahead with
  | nil => rfl
  | cons token ahead => cases h

theorem readAll_unexpected {c : Cursor} {s : State} {expected : List TokenKind}
    (atEnd : c.peek = none → s.finish = .error expected)
    (atToken : ∀ t : Token, c.peek = some t.kind →
      s.read t = .error (Reader.unexpected t.kind expected)) :
    s.readAll r.length c.ahead = .error (r.unexpected c expected) := by
  unfold unexpected
  cases peeked : c.peek with
  | none =>
    rw [readAll_of_end peeked, atEnd peeked]
    rfl
  | some kind =>
    have named := kind_advance (r := r) peeked
    have refused := atToken (r.advance c).last (peeked.trans (congrArg some named.symm))
    rw [readAll_of_refusal peeked refused, named]
    cases kind <;> rfl

/- Literals. -/

/-- The conversion has the values of numbers. -/
def Reads (convert : List Char → Option Float) : Prop :=
  ∀ text, IsNumeral text → convert text = some (readNumber text)

theorem number_eq {c : Cursor} (reads : Reads r.convert) (numeral : IsNumeral c.last.text) :
    r.number c = .ok (readNumber c.last.text) := by
  unfold number
  rw [reads _ numeral]

theorem readDice?_of_letter {front faces : List Char} (digits : ∀ c ∈ front, c.isDigit) :
    readDice? (front ++ 'd' :: faces) =
      (diceOf? front faces).map fun p => (p.1.getD 1, p.2) := by
  have first : 'd' ∉ front := fun letter => absurd (digits _ letter) (by decide)
  unfold readDice? diceOf?
  rw [takeWhile_first first, readDie?_first first]
  cases Die.ofSides? (Nat.ofDigitChars 10 faces 0) with
  | none => cases readCount? front <;> rfl
  | some die =>
    split
    · rfl
    · exact absurd (digits '^' List.mem_cons_self) (by decide)
    · exact absurd (digits 'v' List.mem_cons_self) (by decide)
    · cases readCount? front <;> rfl

theorem readDie?_of_letter {front faces : List Char} (pair : front = ['^'] ∨ front = ['v']) :
    readDie? (front ++ 'd' :: faces) = (diceOf? front faces).map (·.2) := by
  have first : 'd' ∉ front := by rcases pair with rfl | rfl <;> decide
  unfold diceOf?
  rw [readDie?_first first]
  cases Die.ofSides? (Nat.ofDigitChars 10 faces 0) with
  | none => rfl
  | some die => rcases pair with rfl | rfl <;> rfl

theorem taken_dice {c : Cursor} (matched : Matches .dice c.last.text)
    (e : Int64 × Die → Expression Float) :
    (∃ a, dice c = .ok a ∧ (readDice? c.last.text).map e = some (e (a.1.getD 1, a.2))) ∨
      dice c = .error (.refused (c.error .invalidDice)) ∧
        (readDice? c.last.text).map e = none := by
  generalize text : c.last.text = cs at matched
  cases matched with
  | @dice front faces digits _ =>
    have first : 'd' ∉ front := fun letter => absurd (digits _ letter) (by decide)
    rw [dice_of_letter first text, readDice?_of_letter digits]
    cases diceOf? front faces with
    | none => exact .inr ⟨rfl, rfl⟩
    | some dice => exact .inl ⟨_, rfl, rfl⟩

/-- Two dice of which one counts. -/
theorem taken_pair {c : Cursor} {kind : TokenKind} (matched : Matches kind c.last.text)
    (pair : kind = .advantage ∨ kind = .disadvantage) (e : Die → Expression Float) :
    (∃ a, dice c = .ok a ∧ (readDie? c.last.text).map e = some (e a.2)) ∨
      dice c = .error (.refused (c.error .invalidDice)) ∧ (readDie? c.last.text).map e = none := by
  obtain ⟨front, faces, marked, text⟩ : ∃ front faces, (front = ['^'] ∨ front = ['v']) ∧
      c.last.text = front ++ 'd' :: faces := by
    generalize c.last.text = cs at matched
    cases matched with
    | advantage _ => exact ⟨['^'], _, .inl rfl, rfl⟩
    | disadvantage _ => exact ⟨['v'], _, .inr rfl, rfl⟩
    | _ => simp at pair
  have first : 'd' ∉ front := by rcases marked with rfl | rfl <;> decide
  rw [dice_of_letter first text, text, readDie?_of_letter marked]
  cases diceOf? front faces with
  | none => exact .inr ⟨rfl, rfl⟩
  | some dice => exact .inl ⟨_, rfl, rfl⟩

/- Phrases. -/

/-- Behind a phrase the reader of single tokens waits for an operator on the same level. -/
abbrev Resumes (r : Descent) (level : Level) (outer : List Level) {c : Cursor}
    (p : Taken c (Expression Float)) : Except ParseError (Expression Float) :=
  State.readAll r.length ⟨level, outer, .operator p.1.1⟩ p.1.2.ahead

/-- A literal that is taken, or refused for its numbers. -/
theorem agrees_take {b c : Cursor} {kind : TokenKind} {level : Level} {outer : List Level}
    {place : Reader.Place} {α : Type} {x : Except Stop α} {e : α → Expression Float}
    {taken : Option (Expression Float)} (past : b.Past (r.advance c)) (h : c.peek = some kind)
    (read : State.read ⟨level, outer, place⟩ (r.advance c).last =
      State.take ⟨level, outer, place⟩ taken)
    (values : (∃ a, x = .ok a ∧ taken = some (e a)) ∨
      x = .error (.refused ((r.advance c).error .invalidDice)) ∧ taken = none) :
    Agrees (State.readAll r.length ⟨level, outer, place⟩ c.ahead) (r.Resumes level outer)
      (x >>= fun a => .ok (⟨(e a, r.advance c), past⟩ : Taken b (Expression Float))) := by
  rcases values with ⟨a, rfl, rfl⟩ | ⟨rfl, rfl⟩
  · exact readAll_of_read h read
  · exact readAll_of_refusal h read

theorem number_advance {c : Cursor} {kind : TokenKind} (reads : Reads r.convert)
    (lexed : c.Lexed) (h : c.peek = some kind) (numeral : Grammar.Numeral kind) :
    r.number (r.advance c) = .ok (readNumber (r.advance c).last.text) := by
  have clean : kind ≠ .error := by cases numeral <;> simp
  exact number_eq reads ⟨kind, numeral, matches_advance lexed h clean⟩

theorem agrees_consume {c : Cursor} {kind : TokenKind} {s t : State} (h : c.peek = some kind)
    (read : s.read (r.advance c).last = .ok t) (stop : ParseError → Stop) :
    Agrees (s.readAll r.length c.ahead)
      (fun d : { d // c.Past d } => t.readAll r.length d.1.ahead) (r.consume c kind stop) := by
  rw [consume, dif_pos h]
  exact readAll_of_read h read

theorem agrees_negated {c : Cursor} (reads : Reads r.convert) (lexed : c.Lexed)
    (level : Level) (outer : List Level) (h : c.peek = some .minus) :
    Agrees (State.readAll r.length ⟨level, outer, .term⟩ c.ahead) (r.Resumes level outer)
      (r.negated c) := by
  have sign : State.read ⟨level, outer, .term⟩ (r.advance c).last =
      .ok ⟨level, outer, .literal⟩ := by
    rw [State.read, State.readTerm, kind_advance h]
  unfold negated
  refine (agrees_consume h sign _).bind ?_
  rintro ⟨d, past⟩ -
  have lexed := lexed.past past
  dsimp only
  split
  · rename_i peeked
    refine agrees_take (past.trans (r.past_advance peeked)) peeked ?_
      (.inl ⟨_, number_advance reads lexed peeked .integer, rfl⟩)
    rw [State.read, State.readLiteral, kind_advance peeked]
  · rename_i peeked
    refine agrees_take (past.trans (r.past_advance peeked)) peeked ?_
      (.inl ⟨_, number_advance reads lexed peeked .decimal, rfl⟩)
    rw [State.read, State.readLiteral, kind_advance peeked]
  · rename_i peeked
    rcases taken_dice (matches_advance (r := r) lexed peeked (by decide))
      (fun p => .roll (-p.1) p.2) with ⟨⟨count, die⟩, read, value⟩ | ⟨read, value⟩
    · rw [read]
      change Agrees _ _ (opposite (count.getD 1) >>= _)
      unfold opposite
      split
      · trivial
      · refine readAll_of_read peeked ?_
        rw [State.read, State.readLiteral, kind_advance peeked, value]
        rfl
    · rw [read]
      refine readAll_of_refusal peeked ?_
      rw [State.read, State.readLiteral, kind_advance peeked, value]
      rfl
  · rename_i integer decimal dice
    refine readAll_unexpected (fun _ => rfl) fun t peeked => ?_
    rw [State.read, State.readLiteral]
    cases kind : t.kind with
    | integer => exact absurd (kind ▸ peeked) integer
    | decimal => exact absurd (kind ▸ peeked) decimal
    | dice => exact absurd (kind ▸ peeked) dice
    | _ => rfl

/-- No operator of the layer is ahead. -/
def Layer.Over (layer : Layer) (c : Cursor) : Prop :=
  c.peek.any (· ∈ layer.operators) = false

theorem Layer.Over.not_mem {layer : Layer} {c : Cursor} {kind : TokenKind} (ended : layer.Over c)
    (h : c.peek = some kind) : kind ∉ layer.operators := by
  unfold Over at ended
  rw [h] at ended
  simpa using ended

/-- Neither a term nor an operator is ahead, so a parenthesis has to be closed. -/
theorem agrees_close {c : Cursor} {level : Level} {outer : List Level} {e : Expression Float}
    (product : Layer.product.Over c) (sum : Layer.sum.Over c) :
    Agrees (State.readAll r.length ⟨{}, level :: outer, .operator e⟩ c.ahead)
      (fun d : { d // c.Past d } =>
        State.readAll r.length ⟨level, outer, .operator e⟩ d.1.ahead)
      (r.consume c .rightParen .refused) := by
  by_cases h : c.peek = some .rightParen
  · refine agrees_consume h ?_ _
    change State.readOperator _ e (r.advance c).last.kind = _
    rw [kind_advance h]
    rfl
  · rw [consume, dif_neg h]
    refine readAll_unexpected (fun _ => rfl) fun t peeked => ?_
    change State.readOperator _ e t.kind = _
    have factor := product.not_mem peeked
    have summand := sum.not_mem peeked
    cases kind : t.kind with
    | rightParen => exact absurd (kind ▸ peeked) h
    | star => exact absurd (by rw [kind]; decide) factor
    | slash => exact absurd (by rw [kind]; decide) factor
    | plus => exact absurd (by rw [kind]; decide) summand
    | minus => exact absurd (by rw [kind]; decide) summand
    | _ => rfl

/- Where a chain ends. -/

/-- What is never ahead behind an operand of the layer. -/
def Layer.Ends : Layer → Cursor → Prop
  | product, _ => True
  | sum, c => product.Over c

theorem chain_eq_ok {layer : Layer} {c : Cursor} {p : Taken c (Expression Float)}
    (h : r.chain layer c = .ok p) : ∃ first q, r.operand layer c = .ok first ∧
      r.rest layer first.1.1 first.1.2 = .ok q ∧ p.1 = q.1 := by
  unfold chain at h
  obtain ⟨⟨⟨e, d⟩, past⟩, first, h⟩ := Reader.bind_eq_ok.mp h
  obtain ⟨q, others, h⟩ := Reader.bind_eq_ok.mp h
  cases h
  exact ⟨_, q, first, others, rfl⟩

theorem rest_eq_ok {layer : Layer} {left : Expression Float} {c : Cursor}
    {p : { p : Expression Float × Cursor // p.2.ahead <:+ c.ahead }}
    (h : r.rest layer left c = .ok p) : layer.Over c ∧ p.1 = (left, c) ∨
      ∃ d right q left', c.Past d ∧ r.operand layer d = .ok right ∧
        r.rest layer left' right.1.2 = .ok q ∧ p.1 = q.1 := by
  unfold rest at h
  split at h
  · obtain ⟨⟨⟨op, d⟩, past⟩, -, h⟩ := Reader.bind_eq_ok.mp h
    obtain ⟨⟨⟨right, e⟩, past'⟩, second, h⟩ := Reader.bind_eq_ok.mp h
    obtain ⟨q, others, h⟩ := Reader.bind_eq_ok.mp h
    cases h
    exact .inr ⟨d, _, q, _, past, second, others, rfl⟩
  · rename_i last
    cases h
    exact .inl ⟨Bool.eq_false_iff.mpr last, rfl⟩

/-- A chain goes on as long as it can. -/
theorem rest_ends {layer : Layer} {left : Expression Float} {c : Cursor}
    (operands : ∀ d p, r.operand layer d = .ok p → layer.Ends p.1.2) (ends : layer.Ends c)
    {p : { p : Expression Float × Cursor // p.2.ahead <:+ c.ahead }}
    (h : r.rest layer left c = .ok p) : layer.Over p.1.2 ∧ layer.Ends p.1.2 := by
  induction c using Cursor.induction generalizing left with
  | step c ih =>
    rcases rest_eq_ok h with ⟨last, same⟩ | ⟨d, right, q, left', past, second, others, same⟩
    · rw [same]
      exact ⟨last, ends⟩
    · rw [same]
      exact ih right.1.2 (past.trans right.2) (operands d right second) others

theorem chain_ends {layer : Layer} {c : Cursor} {p : Taken c (Expression Float)}
    (operands : ∀ d p, r.operand layer d = .ok p → layer.Ends p.1.2)
    (h : r.chain layer c = .ok p) : layer.Over p.1.2 ∧ layer.Ends p.1.2 := by
  obtain ⟨first, q, read, others, same⟩ := chain_eq_ok h
  rw [same]
  exact rest_ends operands (operands c first read) others

theorem operand_ends {layer : Layer} (c : Cursor) (p : Taken c (Expression Float))
    (h : r.operand layer c = .ok p) : layer.Ends p.1.2 := by
  cases layer with
  | product => trivial
  | sum =>
    have operands (d : Cursor) (q : Taken d (Expression Float))
        (_ : r.operand .product d = .ok q) : Layer.product.Ends q.1.2 := trivial
    unfold operand at h
    exact (chain_ends operands h).1

theorem sum_ends {c : Cursor} {p : Taken c (Expression Float)} (h : r.chain .sum c = .ok p) :
    Layer.sum.Over p.1.2 ∧ Layer.product.Over p.1.2 :=
  chain_ends operand_ends h

/- Phrases. -/

def Layer.Binds : Layer → Operator → Prop
  | product, op => op = .mul ∨ op = .div
  | sum, op => op = .add ∨ op = .sub

/-- Levels on which nothing of the layer waits. -/
def Layer.Opens : Layer → Level → Prop
  | product, level => level.product = none
  | sum, level => level = {}

/-- Levels on which an operand of the layer can stand. -/
def Layer.Inner : Layer → Level → Prop
  | product, _ => True
  | sum, level => product.Opens level

def Follows (r : Descent) (allowed : Level → Prop) {c : Cursor}
    (read : Except Stop (Taken c (Expression Float))) : Prop :=
  ∀ level outer, allowed level →
    Agrees (State.readAll r.length ⟨level, outer, .term⟩ c.ahead) (r.Resumes level outer) read

theorem agrees_parentheses {c : Cursor} (level : Level) (outer : List Level)
    (h : c.peek = some .leftParen) (lexed : c.Lexed)
    (sums : ∀ d, c.Past d → d.Lexed → r.Follows Layer.sum.Opens (r.chain .sum d)) :
    Agrees (State.readAll r.length ⟨level, outer, .term⟩ c.ahead) (r.Resumes level outer)
      (r.parentheses c) := by
  have opened : State.read ⟨level, outer, .term⟩ (r.advance c).last =
      .ok ⟨{}, level :: outer, .term⟩ := by
    rw [State.read, State.readTerm, kind_advance h]
  unfold parentheses
  refine (agrees_consume h opened _).bind ?_
  rintro ⟨inside, past⟩ -
  refine (sums inside past (lexed.past past) {} _ rfl).bind ?_
  rintro ⟨⟨e, d⟩, past'⟩ read
  obtain ⟨sum, product⟩ := sum_ends read
  refine (agrees_close product sum).bind ?_
  exact fun _ _ => rfl

theorem agrees_term {c : Cursor} (reads : Reads r.convert) (lexed : c.Lexed)
    (sums : ∀ d, c.Past d → d.Lexed → r.Follows Layer.sum.Opens (r.chain .sum d)) :
    r.Follows (fun _ => True) (r.term c) := by
  intro level outer _
  unfold term
  split
  · rename_i peeked
    exact agrees_parentheses level outer peeked lexed sums
  · rename_i peeked
    exact agrees_negated reads lexed level outer peeked
  · rename_i peeked
    refine agrees_take _ peeked ?_ (.inl ⟨_, number_advance reads lexed peeked .integer, rfl⟩)
    rw [State.read, State.readTerm, kind_advance peeked]
  · rename_i peeked
    refine agrees_take _ peeked ?_ (.inl ⟨_, number_advance reads lexed peeked .decimal, rfl⟩)
    rw [State.read, State.readTerm, kind_advance peeked]
  · rename_i peeked
    have matched := matches_advance (r := r) lexed peeked (by decide)
    refine agrees_take _ peeked ?_ (taken_dice matched fun p => .roll p.1 p.2)
    rw [State.read, State.readTerm, kind_advance peeked]
  · rename_i peeked
    have matched := matches_advance (r := r) lexed peeked (by decide)
    refine agrees_take _ peeked ?_ (taken_pair matched (.inl rfl) .advantage)
    rw [State.read, State.readTerm, kind_advance peeked]
  · rename_i peeked
    have matched := matches_advance (r := r) lexed peeked (by decide)
    refine agrees_take _ peeked ?_ (taken_pair matched (.inr rfl) .disadvantage)
    rw [State.read, State.readTerm, kind_advance peeked]
  · rename_i parenthesis sign integer decimal dice advantage disadvantage
    refine readAll_unexpected (fun _ => rfl) fun t peeked => ?_
    rw [State.read, State.readTerm]
    cases kind : t.kind with
    | leftParen => exact absurd (kind ▸ peeked) parenthesis
    | minus => exact absurd (kind ▸ peeked) sign
    | integer => exact absurd (kind ▸ peeked) integer
    | decimal => exact absurd (kind ▸ peeked) decimal
    | dice => exact absurd (kind ▸ peeked) dice
    | advantage => exact absurd (kind ▸ peeked) advantage
    | disadvantage => exact absurd (kind ▸ peeked) disadvantage
    | _ => rfl

/- Chains. -/

theorem readAll_congr {c : Cursor} {s t : State} (atEnd : s.finish = t.finish)
    (atToken : ∀ token : Token, c.peek = some token.kind → s.read token = t.read token) :
    s.readAll r.length c.ahead = t.readAll r.length c.ahead := by
  cases peeked : c.peek with
  | none => rw [readAll_of_end peeked, readAll_of_end peeked, atEnd]
  | some kind =>
    have named := kind_advance (r := r) peeked
    have same := atToken (r.advance c).last (peeked.trans (congrArg some named.symm))
    cases read : s.read (r.advance c).last with
    | ok u => rw [readAll_of_read peeked read, readAll_of_read peeked (same.symm.trans read)]
    | error cause =>
      rw [readAll_of_refusal peeked read, readAll_of_refusal peeked (same.symm.trans read)]

theorem binds_of_mem {layer : Layer} {kind : TokenKind} {op : Operator}
    (member : kind ∈ layer.operators) (named : kind.operator? = some op) : layer.Binds op := by
  cases layer with
  | product =>
    rcases List.mem_pair.mp member with rfl | rfl
    · cases named
      exact .inl rfl
    · cases named
      exact .inr rfl
  | sum =>
    rcases List.mem_pair.mp member with rfl | rfl
    · cases named
      exact .inl rfl
    · cases named
      exact .inr rfl

/-- An operator belongs to one of the layers. -/
theorem binds_sum {kind : TokenKind} {op : Operator} (named : kind.operator? = some op)
    (other : kind ∉ Layer.product.operators) : Layer.sum.Binds op := by
  cases kind with
  | plus =>
    cases named
    exact .inl rfl
  | minus =>
    cases named
    exact .inr rfl
  | star => exact absurd (by decide) other
  | slash => exact absurd (by decide) other
  | _ => cases named

theorem push_push {layer : Layer} {level : Level} {left right : Expression Float}
    {kind : TokenKind} {op op' : Operator} (opens : layer.Opens level)
    (member : kind ∈ layer.operators) (named : kind.operator? = some op)
    (free : layer = .sum → layer.Binds op') :
    (level.push left op).push right op' = level.push (.math op left right) op' := by
  have binds := binds_of_mem member named
  obtain ⟨sum, product⟩ := level
  cases layer with
  | product =>
    cases opens
    rcases binds with rfl | rfl <;> cases op' <;> rfl
  | sum =>
    cases opens
    rcases binds with rfl | rfl <;> rcases free rfl with rfl | rfl <;> rfl

theorem close_push {layer : Layer} {level : Level} {left right : Expression Float}
    {kind : TokenKind} {op : Operator} (opens : layer.Opens level)
    (member : kind ∈ layer.operators) (named : kind.operator? = some op) :
    (level.push left op).close right = level.close (.math op left right) := by
  have binds := binds_of_mem member named
  obtain ⟨sum, product⟩ := level
  cases layer with
  | product =>
    cases opens
    rcases binds with rfl | rfl <;> rfl
  | sum =>
    cases opens
    rcases binds with rfl | rfl <;> rfl

/-- What waits for its right operand may be put together as soon as no tighter operator is
ahead. -/
theorem readAll_push {layer : Layer} {level : Level} {outer : List Level} {c : Cursor}
    {left right : Expression Float} {kind : TokenKind} {op : Operator}
    (opens : layer.Opens level) (member : kind ∈ layer.operators)
    (named : kind.operator? = some op) (ends : layer.Ends c) :
    State.readAll r.length ⟨level.push left op, outer, .operator right⟩ c.ahead =
      State.readAll r.length ⟨level, outer, .operator (.math op left right)⟩ c.ahead := by
  have closed : (level.push left op).close right = level.close (.math op left right) :=
    close_push opens member named
  refine readAll_congr ?_ fun token peeked => ?_
  · cases outer with
    | nil => exact congrArg Except.ok closed
    | cons next outer => rfl
  · change State.readOperator _ right token.kind = State.readOperator _ _ token.kind
    unfold State.readOperator
    split
    · rename_i op' named'
      have free (loose : layer = .sum) : layer.Binds op' := by
        subst loose
        have ended : Layer.product.Over c := ends
        exact binds_sum named' (ended.not_mem peeked)
      dsimp only
      rw [push_push opens member named free]
    · dsimp only
      rw [closed]

theorem inner_push {layer : Layer} {level : Level} {left : Expression Float} {kind : TokenKind}
    {op : Operator} (member : kind ∈ layer.operators) (named : kind.operator? = some op) :
    layer.Inner (level.push left op) := by
  have binds := binds_of_mem member named
  cases layer with
  | product => trivial
  | sum => rcases binds with rfl | rfl <;> rfl

/-- While a chain is read, all of it so far is one left operand on the level where it began. -/
theorem agrees_rest {layer : Layer} {level : Level} {outer : List Level} {c : Cursor}
    (opens : layer.Opens level) (ends : layer.Ends c) (lexed : c.Lexed) (left : Expression Float)
    (operands : ∀ d, c.Past d → d.Lexed → r.Follows layer.Inner (r.operand layer d)) :
    Agrees (State.readAll r.length ⟨level, outer, .operator left⟩ c.ahead)
      (fun p : { p : Expression Float × Cursor // p.2.ahead <:+ c.ahead } =>
        State.readAll r.length ⟨level, outer, .operator p.1.1⟩ p.1.2.ahead)
      (r.rest layer left c) := by
  induction c using Cursor.induction generalizing left with
  | step c ih =>
    unfold rest
    split
    · rename_i more
      obtain ⟨kind, op, peeked, member, named⟩ := operator_of_any more
      have pushed : State.read ⟨level, outer, .operator left⟩ (r.advance c).last =
          .ok ⟨level.push left op, outer, .term⟩ := by
        change State.readOperator _ left (r.advance c).last.kind = _
        unfold State.readOperator
        rw [kind_advance peeked, named]
      rw [operator_eq_ok peeked named, readAll_of_read peeked pushed]
      have past := r.past_advance peeked
      refine (operands _ past (lexed.past past) _ outer (inner_push member named)).bind ?_
      rintro ⟨⟨right, e⟩, past'⟩ read
      have ends := operand_ends _ _ read
      have past := past.trans past'
      -- The right operand is complete, so the longer chain is again one left operand.
      change Agrees (State.readAll r.length _ e.ahead) _ _
      rw [readAll_push opens member named ends]
      refine (ih e past ends (lexed.past past) _ fun d further =>
        operands d (past.trans further)).bind ?_
      exact fun _ _ => rfl
    · rfl

theorem follows_chain (reads : Reads r.convert) (c : Cursor) (lexed : c.Lexed) :
    r.Follows Layer.sum.Opens (r.chain .sum c) := by
  refine chain_induction
    (fun layer c => c.Lexed → r.Follows layer.Inner (r.operand layer c))
    (fun layer c => c.Lexed → r.Follows layer.Opens (r.chain layer c))
    ?term ?product ?chain c lexed
  case term =>
    intro c sums lexed
    unfold operand
    exact agrees_term reads lexed sums
  case product =>
    intro c products lexed
    unfold operand
    exact products lexed
  case chain =>
    intro layer c first operands lexed level outer opens
    have inner : layer.Inner level := by
      cases layer with
      | product => trivial
      | sum =>
        cases opens
        rfl
    unfold chain
    refine (first lexed level outer inner).bind ?_
    rintro ⟨⟨e, d⟩, past⟩ read
    have ends := operand_ends _ _ read
    refine (agrees_rest opens ends (lexed.past past) e fun f further =>
      operands f (past.trans further)).bind ?_
    exact fun _ _ => rfl

/-- Read by descent, the tokens of a text stand for the same expression, or are refused at the same
place for the same cause. -/
theorem agrees_whole (reads : Reads r.convert) {tokens : List Token}
    (lexed : ∀ t ∈ tokens, t.kind ≠ .error → Matches t.kind t.text) :
    Agrees (State.start.readAll r.length tokens) .ok (r.whole tokens) := by
  unfold whole
  refine (follows_chain reads ⟨_, tokens⟩ lexed {} [] rfl).bind ?_
  rintro ⟨⟨e, d⟩, past⟩ read
  obtain ⟨sum, product⟩ := sum_ends read
  dsimp only at sum product ⊢
  split
  · rename_i peeked
    exact readAll_of_end peeked
  · rename_i peeked
    refine readAll_of_refusal peeked ?_
    change State.readOperator _ e (r.advance d).last.kind = _
    rw [kind_advance peeked]
    rfl
  · rename_i kind clean peeked
    refine readAll_of_refusal peeked ?_
    change State.readOperator _ e (r.advance d).last.kind = _
    rw [kind_advance peeked]
    cases kind with
    | star => exact absurd (by decide) (product.not_mem peeked)
    | slash => exact absurd (by decide) (product.not_mem peeked)
    | plus => exact absurd (by decide) (sum.not_mem peeked)
    | minus => exact absurd (by decide) (sum.not_mem peeked)
    | error => exact absurd rfl clean
    | _ => rfl

end DiceNotation.Descent
