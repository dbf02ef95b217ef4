import DiceNotation.Proofs.Grammar

/-!
The reader accepts exactly the grammar and builds the derived tree. Completeness runs the reader
over a derivation; soundness keeps, for the tokens read so far, what each waiting operand has
derived. A token list derives at most one tree because the reader is a function.
-/
namespace DiceNotation

open Grammar

/- Literals. -/

theorem takeWhile_first {before after : List Char} {c : Char} (first : c ∉ before) :
    (before ++ c :: after).takeWhile (· ≠ c) = before := by
  have plain : ∀ x ∈ before, decide (x ≠ c) = true := fun x hx =>
    decide_eq_true (ne_of_mem_of_not_mem hx first)
  rw [List.takeWhile_append_of_pos plain]
  simp

theorem dropWhile_first {before after : List Char} {c : Char} (first : c ∉ before) :
    (before ++ c :: after).dropWhile (· ≠ c) = c :: after := by
  have plain : ∀ x ∈ before, decide (x ≠ c) = true := fun x hx =>
    decide_eq_true (ne_of_mem_of_not_mem hx first)
  rw [List.dropWhile_append_of_pos plain]
  simp

theorem readDie?_first {before faces : List Char} (first : 'd' ∉ before) :
    readDie? (before ++ 'd' :: faces) = Die.ofSides? (Nat.ofDigitChars 10 faces 0) := by
  simp only [readDie?, dropWhile_first first]
  rfl

theorem readDie?_none {text : List Char} (h : 'd' ∉ text) : readDie? text = none := by
  have plain : ∀ c ∈ text, decide (c ≠ 'd') = true := fun c hc =>
    decide_eq_true (ne_of_mem_of_not_mem hc h)
  have all := @List.dropWhile_append_of_pos _ _ text [] plain
  rw [List.append_nil] at all
  simp only [readDie?, all]
  rfl

theorem ofSides?_eq_some_iff {n : Nat} {die : Die} :
    Die.ofSides? n = some die ↔ die.sides = n := by
  constructor
  · intro h
    unfold Die.ofSides? at h
    split at h
    · cases h; rfl
    · contradiction
  · rintro rfl
    exact die.ofSides?_sides

theorem readDie?_eq_some_iff {text : List Char} {die : Die} :
    readDie? text = some die ↔ NamesDie text die := by
  constructor
  · intro h
    by_cases hd : 'd' ∈ text
    · obtain ⟨before, faces, rfl, first⟩ := List.eq_append_cons_of_mem hd
      rw [readDie?_first first, ofSides?_eq_some_iff] at h
      exact ⟨before, faces, first, rfl, h⟩
    · rw [readDie?_none hd] at h
      contradiction
  · rintro ⟨before, faces, first, rfl, sides⟩
    simp only [readDie?_first first, ofSides?_eq_some_iff]
    exact sides

theorem readCount?_eq_some_iff {text : List Char} {count : Int64} :
    readCount? text = some count ↔
      diceCount text ≤ 0x7fffffffffffffff ∧ count = Int64.ofInt (diceCount text) := by
  cases text with
  | nil =>
    constructor
    · intro h
      cases h
      exact ⟨by decide, rfl⟩
    · rintro ⟨-, rfl⟩
      rfl
  | cons c cs =>
    have value : diceCount (c :: cs) = Nat.ofDigitChars 10 (c :: cs) 0 := if_neg (by simp)
    simp only [value, Int64.ofInt_eq_ofNat]
    simp only [readCount?, List.isEmpty_cons, Bool.false_eq_true, if_false,
      Option.ite_none_right_eq_some, Option.some.injEq]
    constructor
    · rintro ⟨small, rfl⟩
      exact ⟨Nat.le_of_lt_succ small, rfl⟩
    · rintro ⟨small, rfl⟩
      exact ⟨Nat.lt_succ_of_le small, rfl⟩

theorem readDice?_eq_some_iff {text : List Char} {count : Int64} {die : Die} :
    readDice? text = some (count, die) ↔ ∃ n, NamesDice text n die ∧ count = Int64.ofInt n := by
  simp only [readDice?, Option.bind_eq_bind, Option.bind_eq_some_iff]
  constructor
  · rintro ⟨c, hc, d, hd, h⟩
    cases h
    obtain ⟨before, faces, first, rfl, sides⟩ := readDie?_eq_some_iff.mp hd
    rw [takeWhile_first first, readCount?_eq_some_iff] at hc
    exact ⟨_, ⟨before, faces, first, rfl, sides, rfl, hc.1⟩, hc.2⟩
  · rintro ⟨n, ⟨before, faces, first, rfl, sides, rfl, small⟩, rfl⟩
    refine ⟨_, ?_, die, readDie?_eq_some_iff.mpr ⟨before, faces, first, rfl, sides⟩, rfl⟩
    rw [takeWhile_first first, readCount?_eq_some_iff]
    exact ⟨small, rfl⟩

namespace Reader

def State.run (s : State) (ls : List Lexeme) : Except ParseError.Cause State :=
  ls.foldlM (fun s l => s.read ⟨l.1, l.2, 0⟩) s

theorem run_nil (s : State) : s.run [] = .ok s := rfl

theorem run_cons (s : State) (l : Lexeme) (ls : List Lexeme) :
    s.run (l :: ls) = (s.read ⟨l.1, l.2, 0⟩).bind fun t => t.run ls := rfl

theorem run_one (s : State) (l : Lexeme) : s.run [l] = s.read ⟨l.1, l.2, 0⟩ := by
  rw [run_cons]
  cases s.read ⟨l.1, l.2, 0⟩ <;> rfl

theorem run_append (s : State) (ls rs : List Lexeme) :
    s.run (ls ++ rs) = (s.run ls).bind fun t => t.run rs := by
  simp only [State.run, List.foldlM_append]
  rfl

theorem read_lexeme (s : State) (t : Token) : s.read t = s.read ⟨t.lexeme.1, t.lexeme.2, 0⟩ := rfl

theorem mapError_eq_ok_iff {ε φ α : Type} {f : ε → φ} {x : Except ε α} {a : α} :
    x.mapError f = .ok a ↔ x = .ok a := by
  cases x with
  | ok b => constructor <;> intro h <;> cases h <;> rfl
  | error e => constructor <;> intro h <;> cases h

theorem mapError_eq_error_iff {ε φ α : Type} {f : ε → φ} {x : Except ε α} {b : φ} :
    x.mapError f = .error b ↔ ∃ e, x = .error e ∧ b = f e := by
  cases x with
  | ok a => exact ⟨nofun, nofun⟩
  | error e =>
    constructor
    · rintro ⟨⟩
      exact ⟨e, rfl, rfl⟩
    · rintro ⟨_, ⟨⟩, rfl⟩
      rfl

theorem readAll_eq_ok_iff {length : Nat} {s : State} {ts : List Token} {e : Expression Float} :
    s.readAll length ts = .ok e ↔
      ∃ t, s.run (ts.map Token.lexeme) = .ok t ∧ t.finish = .ok e := by
  induction ts generalizing s with
  | nil => simp [State.readAll, run_nil, mapError_eq_ok_iff]
  | cons t ts ih =>
    rw [State.readAll, List.map_cons, run_cons, ← read_lexeme]
    cases s.read t with
    | ok u => exact ih
    | error cause => simp [Except.bind]

theorem bind_eq_ok {ε α β : Type} {x : Except ε α} {f : α → Except ε β} {b : β} :
    x.bind f = .ok b ↔ ∃ a, x = .ok a ∧ f a = .ok b := by
  cases x <;> simp [Except.bind]

/- Completeness. -/

/-- The reader takes the phrase from wherever it may begin, and then the operands that wait
close to the tree of the phrase. -/
def Takes : Phrase → List Lexeme → Expression Float → Prop
  | .term, ls, e => ∀ level outer,
    State.run ⟨level, outer, .term⟩ ls = .ok ⟨level, outer, .operator e⟩
  | .product, ls, e => ∀ sum outer, ∃ product r,
    State.run ⟨⟨sum, none⟩, outer, .term⟩ ls = .ok ⟨⟨sum, product⟩, outer, .operator r⟩ ∧
      product.close r = e
  | .sum, ls, e => ∀ outer, ∃ level r,
    State.run ⟨{}, outer, .term⟩ ls = .ok ⟨level, outer, .operator r⟩ ∧ level.close r = e

theorem takes_of_derives {p : Phrase} {ls : List Lexeme} {e : Expression Float}
    (h : Derives p ls e) : Takes p ls e := by
  induction h with
  | product _ ih =>
    intro outer
    obtain ⟨product, r, run, close⟩ := ih none outer
    exact ⟨⟨none, product⟩, r, run, close⟩
  | term _ ih => exact fun sum outer => ⟨none, _, ih ⟨sum, none⟩ outer, rfl⟩
  | @addition ls rs l r kind sign op _ adds _ ihl ihr =>
    intro outer
    obtain ⟨level, x, run, rfl⟩ := ihl outer
    obtain ⟨product, y, run', rfl⟩ := ihr (some (level.close x, op)) outer
    -- The whole sum so far waits while the product on its right is read.
    refine ⟨⟨some (level.close x, op), product⟩, y, ?_, rfl⟩
    rw [run_append, run, ← run']
    cases adds <;> rfl
  | @multiplication ls rs l r kind sign op _ multiplies _ ihl ihr =>
    intro sum outer
    obtain ⟨product, x, run, rfl⟩ := ihl sum outer
    -- What waits for the sum is none of the concern of a product.
    refine ⟨some (product.close x, op), r, ?_, rfl⟩
    rw [run_append, run, ← ihr ⟨sum, some (product.close x, op)⟩ outer]
    cases multiplies <;> rfl
  | number numeral =>
    intro level outer
    cases numeral <;> rfl
  | negatedNumber numeral =>
    intro level outer
    cases numeral <;> rfl
  | @dice text n die names =>
    intro level outer
    have literal := readDice?_eq_some_iff.mpr ⟨n, names, rfl⟩
    simp [run_cons, run_nil, State.read, State.readTerm, State.take, literal, Except.bind]
  | @negatedDice sign text n die names =>
    intro level outer
    have literal := readDice?_eq_some_iff.mpr ⟨n, names, rfl⟩
    simp [run_cons, run_nil, State.read, State.readTerm, State.readLiteral, State.take, literal,
      Except.bind]
  | @advantage text die names =>
    intro level outer
    have literal := readDie?_eq_some_iff.mpr names
    simp [run_cons, run_nil, State.read, State.readTerm, State.take, literal, Except.bind]
  | @disadvantage text die names =>
    intro level outer
    have literal := readDie?_eq_some_iff.mpr names
    simp [run_cons, run_nil, State.read, State.readTerm, State.take, literal, Except.bind]
  | @parentheses left right ls e _ ih =>
    intro level outer
    obtain ⟨inner, x, run, rfl⟩ := ih (level :: outer)
    simp only [List.cons_append, run_cons]
    show (State.run ⟨{}, level :: outer, .term⟩ (ls ++ _)) = _
    simp only [run_append, run]
    rfl

/- Soundness. -/

/-- An operand that waits has read its phrase and then its operator. -/
def Pending.Read (p : Phrase) (binds : TokenKind → Operator → Prop) :
    Pending → List Lexeme → Prop
  | none, ls => ls = []
  | some (e, op), ls => ∃ us kind sign, ls = us ++ [(kind, sign)] ∧ Derives p us e ∧ binds kind op

def Level.Read (l : Level) (ls : List Lexeme) : Prop :=
  ∃ us vs, ls = us ++ vs ∧ l.sum.Read .sum Adds us ∧ l.product.Read .product Multiplies vs

/-- Each outer level has read up to a parenthesis. -/
def OuterRead : List Level → List Lexeme → Prop
  | [], ls => ls = []
  | l :: outer, ls => ∃ before here left, ls = before ++ here ++ [(.leftParen, left)] ∧
      OuterRead outer before ∧ l.Read here

def Place.Read : Place → List Lexeme → Prop
  | .term, ls => ls = []
  | .literal, ls => ∃ sign, ls = [(.minus, sign)]
  | .operator e, ls => Derives .term ls e

def State.Read (s : State) (ls : List Lexeme) : Prop :=
  ∃ before here now, ls = before ++ here ++ now ∧ OuterRead s.outer before ∧
    s.level.Read here ∧ s.place.Read now

theorem read_start : State.start.Read [] :=
  ⟨[], [], [], rfl, rfl, ⟨[], [], rfl, rfl, rfl⟩, rfl⟩

theorem derives_closeProduct {level : Level} {vs now : List Lexeme} {e : Expression Float}
    (waiting : level.product.Read .product Multiplies vs) (h : Derives .term now e) :
    Derives .product (vs ++ now) (level.closeProduct e) := by
  obtain ⟨sum, product⟩ := level
  cases product with
  | none =>
    cases waiting
    exact .term h
  | some operand =>
    obtain ⟨us, kind, sign, rfl, left, multiplies⟩ := waiting
    rw [List.append_assoc]
    exact .multiplication left multiplies h

theorem derives_close {level : Level} {here now : List Lexeme} {e : Expression Float}
    (waiting : level.Read here) (h : Derives .term now e) :
    Derives .sum (here ++ now) (level.close e) := by
  obtain ⟨us, vs, rfl, sum, product⟩ := waiting
  have right := derives_closeProduct product h
  obtain ⟨pending, product'⟩ := level
  cases pending with
  | none =>
    cases sum
    exact .product right
  | some operand =>
    obtain ⟨ws, kind, sign, rfl, left, adds⟩ := sum
    simp only [List.append_assoc]
    exact .addition left adds right

theorem read_push {level : Level} {here now : List Lexeme} {e : Expression Float}
    {kind : TokenKind} {op : Operator} (sign : List Char) (waiting : level.Read here)
    (h : Derives .term now e) (operator : kind.operator? = some op) :
    (level.push e op).Read (here ++ now ++ [(kind, sign)]) := by
  have adding (adds : Adds kind op) :
      Level.Read { sum := some (level.close e, op) } (here ++ now ++ [(kind, sign)]) :=
    ⟨_, [], (List.append_nil _).symm, ⟨_, kind, sign, rfl, derives_close waiting h, adds⟩, rfl⟩
  have multiplying (multiplies : Multiplies kind op) :
      Level.Read { level with product := some (level.closeProduct e, op) }
        (here ++ now ++ [(kind, sign)]) := by
    obtain ⟨us, vs, rfl, sum, product⟩ := waiting
    refine ⟨us, vs ++ now ++ [(kind, sign)], by simp only [List.append_assoc], sum, ?_⟩
    exact ⟨_, kind, sign, rfl, derives_closeProduct product h, multiplies⟩
  cases kind <;> cases operator
  · exact adding .plus
  · exact adding .minus
  · exact multiplying .star
  · exact multiplying .slash

theorem take_eq_ok_iff {s t : State} {e : Option (Expression Float)} :
    s.take e = .ok t ↔ ∃ f, e = some f ∧ t = { s with place := .operator f } := by
  cases e with
  | none => simp [State.take]
  | some f => simp [State.take, eq_comm]

theorem readTerm_eq_ok {s t : State} {kind : TokenKind} {text : List Char}
    (h : s.readTerm ⟨kind, text, 0⟩ = .ok t) :
    (kind = .leftParen ∧ t = ⟨{}, s.level :: s.outer, .term⟩) ∨
      (kind = .minus ∧ t = { s with place := .literal }) ∨
      ∃ e, Derives .term [(kind, text)] e ∧ t = { s with place := .operator e } := by
  cases kind <;> simp only [State.readTerm, take_eq_ok_iff, Option.some.injEq,
    Option.map_eq_some_iff, Except.ok.injEq, reduceCtorEq] at h
  case leftParen => exact .inl ⟨rfl, h.symm⟩
  case minus => exact .inr (.inl ⟨rfl, h.symm⟩)
  all_goals refine .inr (.inr ?_)
  case integer =>
    obtain ⟨e, rfl, rfl⟩ := h
    exact ⟨_, .number .integer, rfl⟩
  case decimal =>
    obtain ⟨e, rfl, rfl⟩ := h
    exact ⟨_, .number .decimal, rfl⟩
  case dice =>
    obtain ⟨e, ⟨⟨count, die⟩, literal, rfl⟩, rfl⟩ := h
    obtain ⟨n, names, rfl⟩ := readDice?_eq_some_iff.mp literal
    exact ⟨_, .dice names, rfl⟩
  case advantage =>
    obtain ⟨e, ⟨die, literal, rfl⟩, rfl⟩ := h
    exact ⟨_, .advantage (readDie?_eq_some_iff.mp literal), rfl⟩
  case disadvantage =>
    obtain ⟨e, ⟨die, literal, rfl⟩, rfl⟩ := h
    exact ⟨_, .disadvantage (readDie?_eq_some_iff.mp literal), rfl⟩

theorem readLiteral_eq_ok {s t : State} {kind : TokenKind} {text : List Char}
    (h : s.readLiteral ⟨kind, text, 0⟩ = .ok t) (sign : List Char) :
    ∃ e, Derives .term [(.minus, sign), (kind, text)] e ∧
      t = { s with place := .operator e } := by
  cases kind <;> simp only [State.readLiteral, take_eq_ok_iff, Option.some.injEq,
    Option.map_eq_some_iff, reduceCtorEq] at h
  case integer =>
    obtain ⟨e, rfl, rfl⟩ := h
    exact ⟨_, .negatedNumber .integer, rfl⟩
  case decimal =>
    obtain ⟨e, rfl, rfl⟩ := h
    exact ⟨_, .negatedNumber .decimal, rfl⟩
  case dice =>
    obtain ⟨e, ⟨⟨count, die⟩, literal, rfl⟩, rfl⟩ := h
    obtain ⟨n, names, rfl⟩ := readDice?_eq_some_iff.mp literal
    refine ⟨_, .negatedDice names, ?_⟩
    rw [Int64.neg_ofInt]

theorem readOperator_eq_ok {s t : State} {e : Expression Float} {kind : TokenKind}
    (h : s.readOperator e kind = .ok t) :
    (∃ op, kind.operator? = some op ∧
        t = { s with level := s.level.push e op, place := .term }) ∨
      ∃ level outer, kind = .rightParen ∧ s.outer = level :: outer ∧
        t = ⟨level, outer, .operator (s.level.close e)⟩ := by
  unfold State.readOperator at h
  split at h
  · rename_i op operator
    exact .inl ⟨op, operator, (Except.ok.inj h).symm⟩
  · split at h
    · rename_i level outer levels
      split at h
      · rename_i right
        exact .inr ⟨level, outer, right, levels, (Except.ok.inj h).symm⟩
      · contradiction
    · split at h <;> contradiction

theorem read_preserves {s t : State} {ls : List Lexeme} {l : Lexeme} (known : s.Read ls)
    (h : s.read ⟨l.1, l.2, 0⟩ = .ok t) : t.Read (ls ++ [l]) := by
  obtain ⟨kind, text⟩ := l
  obtain ⟨before, here, now, rfl, outer, level, place⟩ := known
  obtain ⟨l, levels, p⟩ := s
  cases p with
  | term =>
    cases place
    rcases readTerm_eq_ok h with ⟨rfl, rfl⟩ | ⟨rfl, rfl⟩ | ⟨e, term, rfl⟩
    · refine ⟨_, [], [], ?_, ⟨before, here, text, rfl, outer, level⟩, ⟨[], [], rfl, rfl, rfl⟩, rfl⟩
      simp only [List.append_nil]
    · exact ⟨before, here, _, by simp only [List.append_nil], outer, level, ⟨text, rfl⟩⟩
    · exact ⟨before, here, _, by simp only [List.append_nil], outer, level, term⟩
  | literal =>
    obtain ⟨sign, rfl⟩ := place
    obtain ⟨e, term, rfl⟩ := readLiteral_eq_ok h sign
    exact ⟨before, here, _, by simp only [List.append_assoc, List.singleton_append], outer, level,
      term⟩
  | operator e =>
    rcases readOperator_eq_ok h with ⟨op, operator, rfl⟩ | ⟨level', outer', rfl, levels, rfl⟩
    · refine ⟨before, _, [], ?_, outer, read_push text level place operator, rfl⟩
      simp only [List.append_assoc, List.append_nil]
    · -- A closed parenthesis turns all that its level has read into one term of the level outside.
      cases levels
      obtain ⟨before', here', left, rfl, outer, level'⟩ := outer
      have term : Derives .term ((.leftParen, left) :: (here ++ now) ++ [(.rightParen, text)])
          (l.close e) := .parentheses (derives_close level place)
      refine ⟨before', here', _, ?_, outer, level', term⟩
      simp only [List.append_assoc, List.cons_append, List.nil_append]

theorem run_preserves {s t : State} {ls rs : List Lexeme} (known : s.Read ls)
    (h : s.run rs = .ok t) : t.Read (ls ++ rs) := by
  induction rs generalizing s ls with
  | nil =>
    cases h
    rwa [List.append_nil]
  | cons l rs ih =>
    rw [run_cons] at h
    cases step : s.read ⟨l.1, l.2, 0⟩ with
    | error cause =>
      rw [step] at h
      contradiction
    | ok u =>
      rw [step] at h
      have tail := ih (read_preserves known step) h
      rwa [List.append_assoc, List.singleton_append] at tail

theorem derives_of_finish {s : State} {ls : List Lexeme} {e : Expression Float}
    (known : s.Read ls) (h : s.finish = .ok e) : Derives .sum ls e := by
  obtain ⟨before, here, now, rfl, outer, level, place⟩ := known
  obtain ⟨l, levels, p⟩ := s
  cases p with
  | term => contradiction
  | literal => contradiction
  | operator f =>
    cases levels with
    | nil =>
      cases h
      cases outer
      exact derives_close level place
    | cons _ _ => contradiction

theorem derives_iff_run {ls : List Lexeme} {e : Expression Float} :
    Derives .sum ls e ↔ ∃ t, State.start.run ls = .ok t ∧ t.finish = .ok e := by
  constructor
  · intro h
    obtain ⟨level, r, run, rfl⟩ := takes_of_derives h []
    exact ⟨_, run, rfl⟩
  · rintro ⟨t, run, finish⟩
    exact derives_of_finish (run_preserves read_start run) finish

theorem place_of_termDue {s t : State} {ls : List Lexeme} (due : TermDue ls)
    (run : s.run ls = .ok t) (start : s.place = .term) : t.place = .term ∨ t.place = .literal := by
  rcases List.eq_nil_or_concat ls with rfl | ⟨us, ⟨kind, text⟩, rfl⟩
  · cases run
    exact .inl start
  · rw [List.concat_eq_append] at due run
    have last : kind ∈ [.leftParen, .plus, .minus, .star, .slash] := due (kind, text) (by simp)
    obtain ⟨u, -, step⟩ := bind_eq_ok.mp ((run_append s us [(kind, text)]).symm.trans run)
    rw [run_one] at step
    obtain ⟨level, outer, place⟩ := u
    cases place with
    | term =>
      cases kind <;> simp at last
      case leftParen => cases step; exact .inl rfl
      case minus => cases step; exact .inr rfl
      all_goals cases step
    | literal =>
      cases kind <;> simp at last
      all_goals cases step
    | operator e =>
      rcases readOperator_eq_ok step with ⟨op, -, rfl⟩ | ⟨_, _, right, -, -⟩
      · exact .inl rfl
      · cases right
        simp at last

theorem negatable_after_sign {ls rs : List Lexeme} {sign : List Char} {l : Lexeme}
    {e : Expression Float} (due : TermDue ls)
    (h : Derives .sum (ls ++ (.minus, sign) :: l :: rs) e) : l.1 ∈ TokenKind.negatable := by
  obtain ⟨t, run, -⟩ := derives_iff_run.mp h
  obtain ⟨s, before, run⟩ := bind_eq_ok.mp ((run_append _ _ _).symm.trans run)
  obtain ⟨u, signed, run⟩ := bind_eq_ok.mp run
  obtain ⟨v, literal, -⟩ := bind_eq_ok.mp run
  obtain ⟨level, outer, place⟩ := s
  obtain ⟨kind, text⟩ := l
  change kind ∈ TokenKind.negatable
  rcases place_of_termDue due before rfl with rfl | rfl
  · cases signed
    cases kind <;> first | decide | cases literal
  · cases signed

end Reader

theorem Expression.parse_eq_ok_iff {text : String} {e : Expression Float} :
    Expression.parse text = .ok e ↔ Derives .sum (lexemes text) e := by
  rw [Reader.derives_iff_run]
  unfold Expression.parse
  split
  · rename_i empty
    rw [String.isEmpty_iff] at empty
    subst empty
    constructor
    · intro h; cases h
    · rintro ⟨t, run, finish⟩
      cases run
      cases finish
  · exact Reader.readAll_eq_ok_iff

theorem Grammar.derives_unique {ls : List Lexeme} {e f : Expression Float}
    (he : Derives .sum ls e) (hf : Derives .sum ls f) : e = f := by
  obtain ⟨s, run, finish⟩ := Reader.derives_iff_run.mp he
  obtain ⟨t, run', finish'⟩ := Reader.derives_iff_run.mp hf
  cases run.symm.trans run'
  cases finish.symm.trans finish'
  rfl

/-- A text is read as an expression exactly when the grammar derives the expression from its
tokens. No tokens derive two expressions, an error token derives none, and a minus sign in the
place of a term needs a number or dice behind it. -/
theorem parse_exact_of_grammar :
    (∀ text e, Expression.parse text = .ok e ↔ Derives .sum (lexemes text) e) ∧
      (∀ ls e f, Derives .sum ls e → Derives .sum ls f → e = f) ∧
      (∀ ls e, Derives .sum ls e → ∀ l ∈ ls, l.1 ≠ .error) ∧
      ∀ before sign l after e, TermDue before →
        Derives .sum (before ++ (.minus, sign) :: l :: after) e → l.1 ∈ TokenKind.negatable :=
  ⟨fun _ _ => Expression.parse_eq_ok_iff, fun _ _ _ => derives_unique,
    fun _ _ => no_error_token, fun _ _ _ _ _ due h => Reader.negatable_after_sign due h⟩

theorem parse_exact_of_grouped_difference : ∃ e, Expression.parse "3-(d8-2d6)" = .ok e ∧
    Derives .sum (lexemes "3-(d8-2d6)") e ∧
    (∀ f, Derives .sum (lexemes "3-(d8-2d6)") f → f = e) ∧
    (∀ l ∈ lexemes "3-(d8-2d6)", l.1 ≠ .error) ∧ ∀ f, ¬ Derives .sum (lexemes "-(d8-2d6)") f := by
  obtain ⟨exact, unique, clean, signed⟩ := parse_exact_of_grammar
  have read : Expression.parse "3-(d8-2d6)" = .ok (.math .sub (.number (readNumber ['3']))
      (.math .sub (.roll 1 ⟨8, by decide, by decide⟩) (.roll 2 ⟨6, by decide, by decide⟩))) := rfl
  have derived := (exact _ _).mp read
  refine ⟨_, read, derived, fun f other => unique _ f _ other derived, clean _ _ derived, ?_⟩
  intro f derived
  have number : TokenKind.leftParen ∈ TokenKind.negatable :=
    signed [] ['-'] (.leftParen, ['(']) _ f (fun _ last => nomatch last) derived
  exact absurd number (by decide)

end DiceNotation
