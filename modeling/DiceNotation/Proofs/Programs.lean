import DiceNotation.Program
import DiceNotation.Proofs.InputLines

/-!
The program on a scripted terminal, where the input is a text and what is written is kept. It reads
the input line by line and writes what the command line prints for the input as a whole.
-/
namespace DiceNotation

/-- The input that has not been read, and all that has been written. -/
structure Script where
  input : List Char
  output : String
  deriving Nonempty

/-- The first line with its line feed, and the rest. -/
def splitLine : List Char → List Char × List Char
  | [] => ([], [])
  | c :: cs => if c = '\n' then ([c], cs) else (c :: (splitLine cs).1, (splitLine cs).2)

def Script.readLine (s : Script) : Option (List Char) × Script :=
  if s.input.isEmpty then (none, s)
  else (some (splitLine s.input).1, { s with input := (splitLine s.input).2 })

def Script.write (text : String) (s : Script) : Script := { s with output := s.output ++ text }

/-- Complaints are not kept. -/
def scripted : Terminal (StateM Script) where
  readLine := Script.readLine
  write text := modify (Script.write text)
  complain _ := pure ()

/- Lines. -/

theorem splitLine_last {line : List Char} (plain : '\n' ∉ line) : splitLine line = (line, []) := by
  induction line with
  | nil => rfl
  | cons c line ih =>
    obtain ⟨other, plain⟩ := List.ne_and_not_mem_of_not_mem_cons plain
    rw [splitLine, if_neg other.symm, ih plain]

theorem splitLine_append {line : List Char} (plain : '\n' ∉ line) (rest : List Char) :
    splitLine (line ++ '\n' :: rest) = (line ++ ['\n'], rest) := by
  induction line with
  | nil => rfl
  | cons c line ih =>
    obtain ⟨other, plain⟩ := List.ne_and_not_mem_of_not_mem_cons plain
    rw [List.cons_append, splitLine, if_neg other.symm, ih plain]
    rfl

theorem readLine_eq {input : List Char} (some : input ≠ []) (output : String) :
    Script.readLine ⟨input, output⟩ =
      (.some (splitLine input).1, ⟨(splitLine input).2, output⟩) := by
  cases input with
  | nil => contradiction
  | cons c cs => rfl

namespace Session

variable {σ : Type} [Roller σ]

/-- The line feed is white space. -/
theorem answer_lineFeed (s : Session σ) (format : ReplyFormat) (line : List Char) :
    s.answer format (line ++ ['\n']) = s.answer format line := by
  have none : ∀ c ∈ ([] : List Char), isWhiteSpace c := List.forall_mem_nil _
  have feed : ∀ c ∈ ['\n'], isWhiteSpace c := List.forall_mem_singleton.mpr (by decide)
  have same := trim_padded line none feed
  rw [List.nil_append] at same
  unfold answer
  rw [same]

/- Turns of the conversation. -/

theorem converse_eq (s : Session σ) (format : ReplyFormat) :
    s.converse scripted format =
      repeatM.body (converseOnce scripted format) (converse scripted format) s :=
  repeatM_eq_of_monadTail s

theorem converse_line {s : Session σ} {format : ReplyFormat} {script next : Script}
    {line : List Char} (read : script.readLine = (some line, next)) :
    (s.converse scripted format).run script =
      ((s.answer format line).2.converse scripted format).run
        (next.write (s.answer format line).1) := by
  have read : scripted.readLine.run script = (some line, next) := read
  have turn : (converseOnce scripted format s).run script =
      (.inl (s.answer format line).2, next.write (s.answer format line).1) := by
    unfold converseOnce
    rw [StateT.run_bind, read]
    rfl
  rw [converse_eq, repeatM.body, StateT.run_bind, turn]
  rfl

theorem converse_end {s : Session σ} {format : ReplyFormat} {script next : Script}
    (read : script.readLine = (none, next)) :
    (s.converse scripted format).run script = ((), next.write "\n") := by
  have read : scripted.readLine.run script = (none, next) := read
  have turn : (converseOnce scripted format s).run script = (.inr (), next.write "\n") := by
    unfold converseOnce
    rw [StateT.run_bind, read]
    rfl
  rw [converse_eq, repeatM.body, StateT.run_bind, turn]
  rfl

/-- The conversation about the lines of an input writes their answers behind what is written. -/
theorem converse_lines {input : List Char} {ls : List (List Char)} (inLines : InLines input ls)
    (s : Session σ) (format : ReplyFormat) (output : String) :
    (s.converse scripted format).run ⟨input, output⟩ =
      ((), ⟨[], output ++ s.answers format ls ++ "\n"⟩) := by
  induction inLines generalizing s output with
  | nil =>
    rw [converse_end rfl, answers, String.append_empty]
    rfl
  | @last line some plain =>
    have read : Script.readLine ⟨line, output⟩ = (.some line, ⟨[], output⟩) := by
      rw [readLine_eq some, splitLine_last plain]
    rw [converse_line read, Script.write, converse_end rfl]
    simp [answers, Script.write]
  | @cons line rest ls plain _ ih =>
    have some : line ++ '\n' :: rest ≠ [] := List.append_ne_nil_of_right_ne_nil _ nofun
    have read : Script.readLine ⟨line ++ '\n' :: rest, output⟩ =
        (.some (line ++ ['\n']), ⟨rest, output⟩) := by
      rw [readLine_eq some, splitLine_append plain]
    rw [converse_line read, Script.write, ih, answer_lineFeed]
    simp [answers, String.append_assoc]

end Session

/-- On a scripted terminal the program writes what the command line prints and returns its exit
code. What it reads of the input is all or nothing. -/
theorem program_scripted (chance : UInt64) (arguments : List String) (input : String) :
    ∃ rest, (rest = [] ∨ rest = input.toList) ∧
      (program scripted (pure chance) arguments).run ⟨input.toList, ""⟩ =
        ((runCommandLine chance arguments input).exitCode,
          ⟨rest, (runCommandLine chance arguments input).output⟩) := by
  unfold program runCommandLine
  cases Arguments.read? {} arguments with
  | none => exact ⟨input.toList, .inr rfl, rfl⟩
  | some a =>
    obtain ⟨expression, format, seed⟩ := a
    cases expression with
    | some text => cases seed <;> exact ⟨input.toList, .inr rfl, rfl⟩
    | none =>
      let session : Session SeededWords := ⟨defaultLimit, .ofSeed (seed.getD chance)⟩
      have inLines : InLines input.toList (lines input) := lines_eq_iff.mp rfl
      have talk := Session.converse_lines inLines session format ("" ++ prompt)
      have written : "" ++ prompt = prompt := String.empty_append
      have left := congrArg (fun p => ((0 : UInt32), p.2)) talk
      rw [written] at left
      refine ⟨[], .inl rfl, ?_⟩
      cases seed <;> exact left

end DiceNotation
