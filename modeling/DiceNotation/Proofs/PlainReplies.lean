import DiceNotation.Proofs.Formats
import DiceNotation.Proofs.Groupings
import DiceNotation.Proofs.Transcripts

/-!
Replies in lines. A reply is a single line whatever text it quotes, and its first words say that
the text cannot be read, or that it asks for too many dice. A shown result begins with neither and
ends in a brace, so no result looks like an error, be it the error of another text.
-/
namespace DiceNotation

open Expression (flatNumbers legible_flatNumbers)

/-- Without a line feed or a carriage return. -/
def OneLine (text : String) : Prop := '\n' ∉ text.toList ∧ '\r' ∉ text.toList

instance : DecidablePred OneLine := fun _ => inferInstanceAs (Decidable (_ ∧ _))

def StartsWith (text front : String) : Prop := ∃ rest, text = front ++ rest

/- The words in front of what is wrong. -/
def unreadFront : String := "error at position "
def refusedFront : String := "too many dice rolled: "

/- Line breaks. -/

theorem OneLine.append {a b : String} (first : OneLine a) (second : OneLine b) :
    OneLine (a ++ b) := by
  unfold OneLine at *
  simp only [String.toList_append, List.mem_append, not_or]
  exact ⟨⟨first.1, second.1⟩, first.2, second.2⟩

theorem oneLine_of_mem {text : String} {p : Char → Prop} (all : ∀ c ∈ text.toList, p c)
    (feed : ¬ p '\n') (return_ : ¬ p '\r') : OneLine text :=
  ⟨fun member => feed (all _ member), fun member => return_ (all _ member)⟩

theorem oneLine_nat (n : Nat) : OneLine (toString n) := by
  refine oneLine_of_mem (p := fun c => c.isDigit) ?_ (by decide) (by decide)
  intro c member
  rw [show toString n = n.repr from rfl, Nat.toList_repr] at member
  exact (digits_toDigits n).2 c member

theorem oneLine_quoted (slice : List Char) : OneLine (String.ofList (quoted slice)) := by
  unfold OneLine
  rw [String.toList_ofList]
  exact ⟨not_mem_quoted (.inl rfl) slice, not_mem_quoted (.inr rfl) slice⟩

theorem oneLine_kind (kind : TokenKind) : OneLine kind.text := by
  cases kind <;> decide

theorem oneLine_enumeration (kinds : List TokenKind) :
    OneLine (ParseError.alternatives.enumeration kinds) := by
  induction kinds with
  | nil => decide
  | cons kind kinds ih =>
    cases kinds with
    | nil => exact .append (by decide) (oneLine_kind kind)
    | cons next kinds => exact .append (.append (oneLine_kind kind) (by decide)) ih

theorem oneLine_alternatives (kinds : List TokenKind) :
    OneLine (ParseError.alternatives kinds) := by
  unfold ParseError.alternatives
  split
  · decide
  · exact oneLine_kind _
  · exact .append (.append (oneLine_kind _) (by decide)) (oneLine_kind _)
  · exact oneLine_enumeration _

theorem ParseError.oneLine_cause (cause : Cause) : OneLine cause.message := by
  unfold Cause.message
  split
  · decide
  · exact .append (.append (.append (by decide) (oneLine_kind _)) (by decide))
      (oneLine_alternatives _)
  · exact .append (by decide) (oneLine_alternatives _)
  · exact .append (by decide) (oneLine_alternatives _)
  · exact .append (.append (by decide) (oneLine_kind _)) (by decide)
  · decide
  · decide

theorem ParseError.oneLine_message (e : ParseError) : OneLine e.message :=
  .append (.append (.append (.append (.append (by decide) (oneLine_nat _)) (by decide))
    (oneLine_quoted _)) (by decide)) (oneLine_cause _)

theorem RollError.oneLine_message (e : RollError) : OneLine e.message := by
  cases e with
  | tooManyDice count limit =>
    exact .append (.append (.append (by decide) (oneLine_nat _)) (by decide)) (oneLine_nat _)
  | unresolvedRoll => decide

theorem oneLine_write (x : Float) : OneLine (flatNumbers.write x) :=
  oneLine_of_mem (fun _ => NumberFormat.mem_write legible_flatNumbers) (by decide) (by decide)

theorem oneLine_results (faces : List Int64) :
    OneLine ("[" ++ ",".intercalate (faces.map fun r => toString r.toInt) ++ "]") := by
  refine .append (.append (by decide) ?_) (by decide)
  refine oneLine_of_mem (p := fun c => c.isDigit ∨ c = '-' ∨ c = ',') ?_ (by decide) (by decide)
  intro c member
  rcases mem_intercalate member with comma | ⟨text, face, member⟩
  · exact .inr (.inr (by simpa using comma))
  · obtain ⟨r, -, rfl⟩ := List.mem_map.mp face
    rcases mem_toString_int member with digit | sign
    · exact .inl digit
    · exact .inr (.inl sign)

theorem Expression.oneLine_flatText {e : Expression Float} {text : String}
    (shown : e.flatText = .ok text) : OneLine text := by
  induction e generalizing text with
  | number x =>
    cases shown
    exact oneLine_write x
  | rolled count die results =>
    cases shown
    exact oneLine_results results
  | math op l r ihl ihr =>
    obtain ⟨left, hl, shown⟩ := Reader.bind_eq_ok.mp shown
    obtain ⟨right, hr, shown⟩ := Reader.bind_eq_ok.mp shown
    cases shown
    have symbol : OneLine op.text := by cases op <;> decide
    exact .append (.append (.append (.append (ihl hl) (by decide)) symbol) (by decide)) (ihr hr)
  | _ => contradiction

theorem Stats.oneLine_text (s : Stats Float) : OneLine s.text :=
  .append (.append (.append (.append (.append (.append (by decide) (oneLine_write _)) (by decide))
    (oneLine_write _)) (by decide)) (oneLine_write _)) (by decide)

/- Both ends of a shown result. -/

/-- How the text of a number or of results begins. -/
def OpensResult (c : Char) : Prop := c.isDigit ∨ c ∈ ['-', '[', 'I', 'N']

instance : DecidablePred OpensResult := fun _ => inferInstanceAs (Decidable (_ ∨ _))

theorem opensResult_write (x : Float) :
    ∃ c, (flatNumbers.write x).toList.head? = some c ∧ OpensResult c := by
  by_cases finite : x.isFinite = true
  · obtain ⟨c, cs, text, digit⟩ := NumberFormat.writeDecimal_eq_cons (f := flatNumbers)
      (Decimal.shortest flatNumbers.tie (Binary.magnitude x))
    have numeral : flatNumbers.writeMagnitude (Binary.magnitude x) = c :: cs := text
    rw [toList_write finite, numeral]
    split
    · exact ⟨'-', rfl, by decide⟩
    · exact ⟨c, rfl, .inl digit⟩
  · rcases write_of_not_finite flatNumbers finite with ⟨-, word⟩ | ⟨-, word⟩ | ⟨-, word⟩ <;>
      rw [word]
    · exact ⟨'N', rfl, by decide⟩
    · exact ⟨'I', rfl, by decide⟩
    · exact ⟨'-', rfl, by decide⟩

theorem opensResult_flatText {e : Expression Float} {text : String}
    (shown : e.flatText = .ok text) :
    ∃ c, text.toList.head? = some c ∧ OpensResult c := by
  induction e generalizing text with
  | number x =>
    cases shown
    exact opensResult_write x
  | rolled count die results =>
    cases shown
    exact ⟨'[', head?_append_of_some (head?_append_of_some rfl), by decide⟩
  | math op l r ihl ihr =>
    obtain ⟨left, hl, shown⟩ := Reader.bind_eq_ok.mp shown
    obtain ⟨right, hr, shown⟩ := Reader.bind_eq_ok.mp shown
    cases shown
    obtain ⟨c, first, opens⟩ := ihl hl
    refine ⟨c, ?_, opens⟩
    iterate 4 apply head?_append_of_some
    exact first
  | _ => contradiction

theorem getLast?_append_of_some {a b : String} {c : Char} (h : b.toList.getLast? = some c) :
    (a ++ b).toList.getLast? = some c := by
  simp [h]

/-- A line that shows an outcome: its beginning is that of no error, and a brace ends it. -/
structure Shown (line : String) : Prop where
  oneLine : OneLine line
  opens : ∃ c, line.toList.head? = some c ∧ OpensResult c
  closes : line.toList.getLast? = some '\x7d'

theorem Outcome.shown_line {o : Outcome Float} {line : String} (h : o.line = .ok line) :
    Shown line := by
  obtain ⟨text, tree, h⟩ := Reader.bind_eq_ok.mp h
  cases h
  have shown := Expression.oneLine_flatText tree
  obtain ⟨c, first, opens⟩ := opensResult_flatText tree
  refine ⟨?_, ⟨c, ?_, opens⟩, ?_⟩
  · exact .append (.append (.append (.append shown (by decide)) (oneLine_write _)) (by decide))
      o.stats.oneLine_text
  · iterate 4 apply head?_append_of_some
    exact first
  · iterate 2 apply getLast?_append_of_some
    rfl

theorem Shown.not_startsWith {line front : String} {c : Char} (shown : Shown line)
    (first : front.toList.head? = some c) (other : ¬ OpensResult c) : ¬ StartsWith line front := by
  rintro ⟨rest, rfl⟩
  obtain ⟨d, opening, opens⟩ := shown.opens
  cases opening.symm.trans (head?_append_of_some first)
  exact other opens

/- Errors. -/

theorem ParseError.startsWith_message (e : ParseError) : StartsWith e.message unreadFront := by
  unfold message StartsWith unreadFront
  simp only [String.append_assoc]
  exact ⟨_, rfl⟩

theorem RollError.startsWith_message (count limit : Nat) :
    StartsWith (tooManyDice count limit).message refusedFront := by
  unfold message StartsWith refusedFront
  simp only [String.append_assoc]
  exact ⟨_, rfl⟩

theorem not_startsWith_both {text : String} (first : StartsWith text unreadFront) :
    ¬ StartsWith text refusedFront := by
  rintro ⟨more, rfl⟩
  obtain ⟨rest, same⟩ := first
  have heads := congrArg (fun t : String => t.toList.head?) same
  rw [head?_append_of_some (c := 't') rfl, head?_append_of_some (c := 'e') rfl] at heads
  exact absurd heads (by decide)

namespace Session

variable {σ : Type} [Roller σ]

theorem execute_cases (s : Session σ) (text : String) :
    (∃ e, Expression.parse text = .error e ∧ (s.execute text).1 = .error (.parse e)) ∨
      (∃ e count, Expression.parse text = .ok e ∧
        (e.evaluate s).1 = .error (.tooManyDice count s.limit) ∧
        (s.execute text).1 = .error (.roll (.tooManyDice count s.limit))) ∨
      ∃ e o, Expression.parse text = .ok e ∧ (e.evaluate s).1 = .ok o ∧
        (s.execute text).1 = .ok o := by
  unfold execute
  cases read : Expression.parse text with
  | error e => exact .inl ⟨e, rfl, rfl⟩
  | ok e =>
    dsimp only
    split
    · rename_i why t evaluated
      have refused := congrArg Prod.fst evaluated
      obtain ⟨count, rfl⟩ := evaluate_eq_error refused
      exact .inr (.inl ⟨e, count, rfl, refused, rfl⟩)
    · rename_i o t evaluated
      exact .inr (.inr ⟨e, o, rfl, congrArg Prod.fst evaluated, rfl⟩)

theorem reply_of_error {s : Session σ} {text : String} {e : CommandError}
    (h : (s.execute text).1 = .error e) (format : ReplyFormat) :
    (s.reply format text).1 = e.message := by
  have executed : s.execute text = (.error e, (s.execute text).2) := Prod.ext h rfl
  unfold reply
  rw [executed]

theorem line_of_outcome {s : Session σ} {text : String} {o : Outcome Float}
    (h : (s.execute text).1 = .ok o) : o.line = .ok (s.reply .line text).1 := by
  have executed : s.execute text = (.ok o, (s.execute text).2) := Prod.ext h rfl
  obtain ⟨line, shown⟩ := exists_line_execute h
  unfold reply
  rw [executed]
  simp only [Outcome.reply, shown]

/-- What the beginning of a reply tells. -/
structure Tells (s : Session σ) (text reply : String) : Prop where
  oneLine : OneLine reply
  unread : StartsWith reply unreadFront ↔ ∃ e, Expression.parse text = .error e
  refused : StartsWith reply refusedFront ↔ ∃ e count, Expression.parse text = .ok e ∧
    (e.evaluate s).1 = .error (.tooManyDice count s.limit)
  neither : ¬ StartsWith reply unreadFront ∧ ¬ StartsWith reply refusedFront ↔
    ∃ o, (s.execute text).1 = .ok o
  shows : ∀ o, (s.execute text).1 = .ok o →
    o.line = .ok reply ∧ reply.toList.getLast? = some '\x7d'

theorem tells_reply (s : Session σ) (text : String) : s.Tells text (s.reply .line text).1 := by
  rcases s.execute_cases text with ⟨e, read, executed⟩ | ⟨e, count, read, refused, executed⟩ |
    ⟨e, o, read, evaluated, executed⟩
  · have front := e.startsWith_message
    have other := not_startsWith_both front
    rw [reply_of_error executed]
    constructor
    · exact e.oneLine_message
    · simp [read, front, CommandError.message]
    · simp [read, other, CommandError.message]
    · simp [executed, front, CommandError.message]
    · simp [executed]
  · have front := RollError.startsWith_message count s.limit
    have other : ¬ StartsWith (RollError.tooManyDice count s.limit).message _ :=
      fun first => not_startsWith_both first front
    rw [reply_of_error executed]
    constructor
    · exact RollError.oneLine_message _
    · simp [read, other, CommandError.message]
    · simp [read, refused, front, CommandError.message]
    · simp [executed, front, CommandError.message]
    · simp [executed]
  · have shown := line_of_outcome executed
    have line := Outcome.shown_line shown
    have first : ¬ StartsWith (s.reply .line text).1 unreadFront :=
      line.not_startsWith (c := 'e') rfl (by decide)
    have second : ¬ StartsWith (s.reply .line text).1 refusedFront :=
      line.not_startsWith (c := 't') rfl (by decide)
    constructor
    · exact line.oneLine
    · simp [read, first]
    · simp [read, second, evaluated]
    · simp [executed, first, second]
    · intro o' same
      cases executed.symm.trans same
      exact ⟨shown, line.closes⟩

end Session

theorem Shown.ne_message {line : String} (shown : Shown line) (e : CommandError) :
    line ≠ e.message := by
  obtain ⟨c, first, opens⟩ := shown.opens
  have differs {d : Char} (head : e.message.toList.head? = some d) (other : ¬ OpensResult d) :
      line ≠ e.message := by
    rintro rfl
    cases first.symm.trans head
    exact other opens
  cases e with
  | parse e => exact differs e.head?_message (by decide)
  | roll e =>
    cases e with
    | tooManyDice count limit => exact differs (RollError.head?_message count limit) (by decide)
    | unresolvedRoll => exact differs (d := 'c') rfl (by decide)

/- The program. -/

theorem exitCode_runCommandLine {arguments : List String} {a : Arguments}
    (read : Arguments.read? {} arguments = some a) (chance : UInt64) (input : String) :
    (runCommandLine chance arguments input).exitCode = 0 := by
  unfold runCommandLine
  rw [read]
  dsimp only
  split <;> rfl

theorem output_runCommandLine {arguments : List String} {a : Arguments} {text : String}
    (read : Arguments.read? {} arguments = some a) (asks : a.expression = some text)
    (plain : a.format = .line) (chance : UInt64) (input : String) :
    (runCommandLine chance arguments input).output =
      ((Session.seeded (a.seed.getD chance)).reply .line text).1 ++ "\n" := by
  unfold runCommandLine
  rw [read]
  simp only [asks, plain]
  rfl

/-- A reply in lines is one line. Its first words say that the text cannot be read, or that a roll
is refused, exactly when that is so, and all others show an outcome and end in a brace. No reply
with an outcome is the message of an error, in whatever session and of whatever text, while the
program ends with the same code after all of them. -/
theorem plain_reply_tells_result :
    (∀ {σ : Type} [Roller σ] (s : Session σ) (text : String),
      s.Tells text (s.reply .line text).1) ∧
    (∀ {σ τ : Type} [Roller σ] [Roller τ] (s : Session σ) (t : Session τ) (text other : String)
      (o : Outcome Float) (e : CommandError), (s.execute text).1 = .ok o →
      (t.execute other).1 = .error e →
        (t.reply .line other).1 = e.message ∧ (s.reply .line text).1 ≠ e.message) ∧
    ∀ chance arguments input a, Arguments.read? {} arguments = some a →
      (runCommandLine chance arguments input).exitCode = 0 ∧
      ∀ text, a.expression = some text → a.format = .line →
        (runCommandLine chance arguments input).output =
          ((Session.seeded (a.seed.getD chance)).reply .line text).1 ++ "\n" := by
  refine ⟨fun s text => s.tells_reply text, ?_, ?_⟩
  · intro σ τ _ _ s t text other o e executed failed
    have shown := Outcome.shown_line (Session.line_of_outcome executed)
    exact ⟨Session.reply_of_error failed .line, shown.ne_message e⟩
  · intro chance arguments input a read
    refine ⟨exitCode_runCommandLine read chance input, ?_⟩
    intro text asks plain
    exact output_runCommandLine read asks plain chance input

/-- A text of two lines that cannot be read, a hand above the limit and a rolled difference. -/
theorem replies_of_three_kinds :
    let s : Session SteppedDice := ⟨2, ⟨4, 1⟩⟩
    OneLine (s.reply .line "1\n+ (%").1 ∧ StartsWith (s.reply .line "1\n+ (%").1 unreadFront ∧
      StartsWith (s.reply .line "2d6-3d6").1 refusedFront ∧
      (s.reply .line "2d6-^d8").1.toList.getLast? = some '\x7d' ∧
      (s.reply .line "2d6-^d8").1 ≠ (s.reply .line "2d6-3d6").1 ∧
      (runCommandLine 0 ["--", "-"] "").exitCode = 0 := by
  intro s
  obtain ⟨tells, differ, code⟩ := plain_reply_tells_result
  have first := tells s "1\n+ (%"
  have second := tells s "2d6-3d6"
  have third := tells s "2d6-^d8"
  obtain ⟨o, executed⟩ : ∃ o, (s.execute "2d6-^d8").1 = .ok o := ⟨_, rfl⟩
  have failed : (s.execute "2d6-3d6").1 = .error (.roll (.tooManyDice 3 2)) := rfl
  obtain ⟨message, other⟩ := differ s s "2d6-^d8" "2d6-3d6" o _ executed failed
  refine ⟨first.oneLine, first.unread.mpr ⟨_, rfl⟩, second.refused.mpr ⟨_, _, rfl, rfl⟩,
    (third.shows o executed).2, ?_, (code 0 ["--", "-"] "" _ rfl).1⟩
  rw [message]
  exact other

end DiceNotation
