import DiceNotation.Proofs.InputLines
import DiceNotation.Proofs.Options
import DiceNotation.Proofs.Sessions

/-!
The interactive run. It prints a prompt, and for each line its output and the next prompt, where
the output is what the line's text is answered in a session whose roller has served the dice of
the lines before. So the first text is answered like a run for that text alone, and lines that
draw nothing could as well be left out.
-/
namespace DiceNotation

/-- What is printed for a line after its prompt: its output, if it has one, and the next prompt. -/
def shown : Option String → String
  | some output => output ++ "\n" ++ prompt
  | none => prompt

namespace Session

variable {σ : Type} [Roller σ]

/-- The session once its roller has served the dice of these lines. -/
def afterServing (s : Session σ) (earlier : List (List Char)) : Session σ :=
  ⟨s.limit, DiceLeaf.serveAll ((earlier.filterMap command?).flatMap (diceOf s.limit)) s.roller⟩

/-- The answer to the text of a line that comes after the earlier ones. -/
def lineOutput (s : Session σ) (format : ReplyFormat) (earlier : List (List Char))
    (line : List Char) : Option String :=
  (command? line).map fun text => ((s.afterServing earlier).reply format text).1

def outputs (s : Session σ) (format : ReplyFormat) (lines : List (List Char)) :
    List (Option String) :=
  lines.mapIdx fun i line => s.lineOutput format (lines.take i) line

/-- A reply serves these dice, and a recorder in front of the roller sees no other requests. -/
def Draws (s : Session σ) (format : ReplyFormat) (text : String) (leaves : List DiceLeaf) : Prop :=
  (s.reply format text).2 = ⟨s.limit, DiceLeaf.serveAll leaves s.roller⟩ ∧
    ∃ draws, ((⟨s.limit, ⟨s.roller, []⟩⟩ : Session (Recorder σ)).reply format text).2 =
        ⟨s.limit, ⟨DiceLeaf.serveAll leaves s.roller, draws⟩⟩ ∧
      draws.map Draw.request = leaves.map DiceLeaf.request

/-- Without the line the others have the outputs that they have with it. -/
def Skips (s : Session σ) (format : ReplyFormat) (line : List Char) : Prop :=
  ∀ before after, (s.outputs format (before ++ line :: after)).eraseIdx before.length =
    s.outputs format (before ++ after)

/-- What changes no output. -/
structure Undisturbed (s : Session σ) (format : ReplyFormat) : Prop where
  blank : ∀ line, (∀ c ∈ line, isWhiteSpace c) → s.Skips format line
  unread : ∀ line text e, command? line = some text → Expression.parse text = .error e →
    s.Skips format line
  padded : ∀ left right, (∀ c ∈ left, isWhiteSpace c) → (∀ c ∈ right, isWhiteSpace c) →
    ∀ before line after, s.outputs format (before ++ (left ++ line ++ right) :: after) =
      s.outputs format (before ++ line :: after)

/- One line. -/

theorem session_reply_eq (s : Session σ) (format : ReplyFormat) (text : String) :
    (s.reply format text).2 =
      ⟨s.limit, DiceLeaf.serveAll (diceOf s.limit text) s.roller⟩ := by
  rw [session_reply, session_execute_eq]

theorem draws_diceOf (s : Session σ) (format : ReplyFormat) (text : String) :
    s.Draws format text (diceOf s.limit text) := by
  obtain ⟨draws, served, requests⟩ := serveAll_recorder (diceOf s.limit text) s.roller []
  refine ⟨s.session_reply_eq format text, draws, ?_, requests⟩
  rw [session_reply_eq, served]
  rfl

theorem afterServing_append (s : Session σ) (earlier more : List (List Char)) :
    s.afterServing (earlier ++ more) = (s.afterServing earlier).afterServing more := by
  simp [afterServing]

theorem afterServing_of_idle (s : Session σ) {line : List Char}
    (idle : ∀ text, command? line = some text → diceOf s.limit text = []) :
    s.afterServing [line] = s := by
  unfold afterServing
  cases h : command? line with
  | none => simp [h]
  | some text => simp [h, idle text h]

theorem answer_eq (s : Session σ) (format : ReplyFormat) (line : List Char) :
    s.answer format line = (shown (s.lineOutput format [] line), s.afterServing [line]) := by
  unfold answer lineOutput
  cases h : trim line with
  | nil =>
    have blank : command? line = none := by rw [command?, h]
    rw [afterServing_of_idle s (by simp [blank]), blank]
    rfl
  | cons c cs =>
    have asks : command? line = some (String.ofList (c :: cs)) := by rw [command?, h]
    have next := s.session_reply_eq format (String.ofList (c :: cs))
    dsimp only
    rw [asks, next]
    simp [shown, afterServing, asks]

/- Rows of lines. -/

theorem lineOutput_after (s : Session σ) (format : ReplyFormat)
    (before earlier : List (List Char)) (line : List Char) :
    s.lineOutput format (before ++ earlier) line =
      (s.afterServing before).lineOutput format earlier line := by
  rw [lineOutput, lineOutput, afterServing_append]

theorem outputs_cons (s : Session σ) (format : ReplyFormat) (line : List Char)
    (lines : List (List Char)) : s.outputs format (line :: lines) =
      s.lineOutput format [] line :: (s.afterServing [line]).outputs format lines := by
  simp only [outputs, List.mapIdx_cons, List.take_zero, List.take_succ_cons]
  refine congrArg (_ :: ·) (congrArg (List.mapIdx · lines) ?_)
  funext i later
  exact s.lineOutput_after format [line] (lines.take i) later

theorem outputs_append (s : Session σ) (format : ReplyFormat) (before after : List (List Char)) :
    s.outputs format (before ++ after) =
      s.outputs format before ++ (s.afterServing before).outputs format after := by
  induction before generalizing s with
  | nil => rfl
  | cons line before ih =>
    rw [List.cons_append, outputs_cons, outputs_cons, ih, ← afterServing_append]
    rfl

theorem length_outputs (s : Session σ) (format : ReplyFormat) (lines : List (List Char)) :
    (s.outputs format lines).length = lines.length :=
  List.length_mapIdx

theorem answers_eq (s : Session σ) (format : ReplyFormat) (lines : List (List Char)) :
    s.answers format lines = String.join ((s.outputs format lines).map shown) := by
  induction lines generalizing s with
  | nil => rfl
  | cons line lines ih =>
    rw [answers, answer_eq, outputs_cons, List.map_cons, String.join_cons, ← ih]

theorem skips_of_idle {s : Session σ} (format : ReplyFormat) {line : List Char}
    (idle : ∀ text, command? line = some text → diceOf s.limit text = []) :
    s.Skips format line := by
  intro before after
  have same : (s.afterServing before).afterServing [line] = s.afterServing before :=
    afterServing_of_idle _ idle
  rw [outputs_append, outputs_append, outputs_cons, same,
    List.eraseIdx_append_of_length_le (Nat.le_of_eq (s.length_outputs format before)),
    length_outputs, Nat.sub_self, List.eraseIdx_cons_zero]

theorem outputs_padded (s : Session σ) (format : ReplyFormat) {left right : List Char}
    (white : ∀ c ∈ left, isWhiteSpace c) (white' : ∀ c ∈ right, isWhiteSpace c)
    (before : List (List Char)) (line : List Char) (after : List (List Char)) :
    s.outputs format (before ++ (left ++ line ++ right) :: after) =
      s.outputs format (before ++ line :: after) := by
  have same := command?_padded line white white'
  rw [outputs_append, outputs_append, outputs_cons, outputs_cons]
  simp only [lineOutput, afterServing, List.filterMap_cons, List.filterMap_nil, same]

theorem getElem?_outputs (s : Session σ) (format : ReplyFormat) (before : List (List Char))
    (line : List Char) (after : List (List Char)) :
    (s.outputs format (before ++ line :: after))[before.length]? =
      some (s.lineOutput format before line) := by
  have output := s.lineOutput_after format before [] line
  rw [List.append_nil] at output
  rw [outputs_append, outputs_cons, output,
    List.getElem?_append_right (Nat.le_of_eq (s.length_outputs format before)), length_outputs,
    Nat.sub_self]
  rfl

theorem afterServing_blank (s : Session σ) {blanks : List (List Char)}
    (blank : ∀ line ∈ blanks, command? line = none) : s.afterServing blanks = s := by
  have none : blanks.filterMap command? = [] := List.filterMap_eq_nil_iff.mpr blank
  rw [afterServing, none]
  rfl

theorem undisturbed (s : Session σ) (format : ReplyFormat) : s.Undisturbed format where
  blank line white := by
    have blank := command?_eq_none_iff.mpr white
    exact skips_of_idle format (by simp [blank])
  unread line text e asks failed := by
    have none : diceOf s.limit text = [] := by rw [diceOf, failed]
    refine skips_of_idle format fun other asks' => ?_
    cases asks.symm.trans asks'
    exact none
  padded _ _ white white' := s.outputs_padded format white white'

/-- A session as the command line starts it. -/
def seeded (seed : UInt64) : Session SeededWords := ⟨defaultLimit, .ofSeed seed⟩

end Session

/- Whole runs. -/

theorem runCommandLine_interactive {arguments : List String} {format : ReplyFormat}
    {seed : UInt64} (sets : Arguments.Sets arguments format seed) (chance : UInt64)
    (input : String) : runCommandLine chance arguments input =
      ⟨prompt ++ String.join (((Session.seeded seed).outputs format (lines input)).map shown) ++
        "\n", 0⟩ := by
  unfold runCommandLine
  rw [sets.2]
  dsimp only [Option.getD_some]
  rw [Session.transcript, Session.answers_eq]
  rfl

theorem runCommandLine_text {arguments : List String} {format : ReplyFormat} {seed : UInt64}
    (sets : Arguments.Sets arguments format seed) (text : String) (chance : UInt64)
    (input : String) : runCommandLine chance (arguments ++ ["--", text]) input =
      ⟨((Session.seeded seed).reply format text).1 ++ "\n", 0⟩ := by
  unfold runCommandLine
  rw [Arguments.read?_behind text sets.1 sets.2]
  rfl

theorem first_output (s : Session SeededWords) (format : ReplyFormat)
    {blanks : List (List Char)} {line : List Char} {text : String} (later : List (List Char))
    (blank : ∀ blank ∈ blanks, command? blank = none) (asks : command? line = some text) :
    (s.outputs format (blanks ++ line :: later))[blanks.length]? =
      some (some (s.reply format text).1) := by
  rw [Session.getElem?_outputs, Session.lineOutput, asks, Session.afterServing_blank s blank]
  rfl

/-- With a seed and no expression, a run prints for each line the answer to its text in a session
whose roller has served exactly the dice of the lines before, and for the first text what a run
for that text prints. Blank lines, white space around a line and lines that cannot be read change
no other output. -/
theorem interactive_run_shares_session :
    (∀ format seed, Arguments.Sets (Arguments.options format seed) format seed) ∧
    (∀ line, Asks line (command? line)) ∧
    (∀ (s : Session SeededWords) format text, s.Draws format text (diceOf s.limit text)) ∧
    ∀ arguments format seed chance input, Arguments.Sets arguments format seed →
      let s := Session.seeded seed
      InLines input.toList (lines input) ∧
      runCommandLine chance arguments input =
        ⟨prompt ++ String.join ((s.outputs format (lines input)).map shown) ++ "\n", 0⟩ ∧
      (∀ blanks line later text, lines input = blanks ++ line :: later →
        (∀ blank ∈ blanks, command? blank = none) → command? line = some text →
        ∃ output, (s.outputs format (lines input))[blanks.length]? = some (some output) ∧
          ∀ chance' input', runCommandLine chance' (arguments ++ ["--", text]) input' =
            ⟨output ++ "\n", 0⟩) ∧
      s.Undisturbed format := by
  refine ⟨Arguments.sets_options, asks_command?, Session.draws_diceOf, ?_⟩
  intro arguments format seed chance input sets s
  refine ⟨lines_eq_iff.mp rfl, runCommandLine_interactive sets chance input, ?_,
    s.undisturbed format⟩
  intro blanks line later text parts blank asks
  refine ⟨_, ?_, runCommandLine_text sets text⟩
  rw [parts]
  exact first_output s format later blank asks

/-- A roll between white space, behind a blank line. -/
theorem padded_roll_after_blank_line :
    Arguments.Sets ["--json", "--seed=+7"] .json 7 ∧
      lines " \n 2d6\t\n(\n^d8" = [' '] :: " 2d6\t".toList :: ["(".toList, "^d8".toList] ∧
      ∃ output,
        ((Session.seeded 7).outputs .json (lines " \n 2d6\t\n(\n^d8"))[1]? =
          some (some output) ∧
        runCommandLine 0 ["--json", "--seed=+7", "--", "2d6"] "" = ⟨output ++ "\n", 0⟩ := by
  obtain ⟨-, -, -, run⟩ := interactive_run_shares_session
  have sets : Arguments.Sets ["--json", "--seed=+7"] .json 7 := ⟨by decide, rfl⟩
  have parts : lines " \n 2d6\t\n(\n^d8" =
      [' '] :: " 2d6\t".toList :: ["(".toList, "^d8".toList] := by decide
  obtain ⟨-, -, first, -⟩ := run _ _ _ 0 " \n 2d6\t\n(\n^d8" sets
  obtain ⟨output, printed, alone⟩ := first [[' ']] " 2d6\t".toList _ "2d6" parts
    (List.forall_mem_singleton.mpr rfl) rfl
  exact ⟨sets, parts, output, printed, alone 0 ""⟩

end DiceNotation
