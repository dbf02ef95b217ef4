import DiceNotation.CommandLine

/-!
The program, over any terminal. It prompts before it waits for a line, so it reads its input one
line at a time.
-/
namespace DiceNotation

/-- What the program asks of the world. A line is read with its line feed; at the end of the input
there is none. -/
structure Terminal (m : Type → Type) where
  readLine : m (Option (List Char))
  write : String → m Unit
  complain : String → m Unit

section

variable {m : Type → Type} [Monad m] (terminal : Terminal m)

namespace Session

variable {σ : Type} [Roller σ]

/-- The session after the next line, or the end. -/
def converseOnce (format : ReplyFormat) (s : Session σ) : m (Session σ ⊕ Unit) := do
  match ← terminal.readLine with
  | some line =>
    let (text, s) := s.answer format line
    terminal.write text
    return .inl s
  | none =>
    terminal.write "\n"
    return .inr ()

def converse (format : ReplyFormat) (s : Session σ) : m Unit :=
  repeatM (converseOnce terminal format) s

end Session

def usage : String := "usage: [--json] [--seed <SEED>] [EXPRESSION]\n"

/-- `chance` is asked for a seed where none is given. -/
def program (chance : m UInt64) (arguments : List String) : m UInt32 := do
  match Arguments.read? {} arguments with
  | none =>
    terminal.complain usage
    return usageError
  | some a =>
    let seed ← a.seed.elim chance pure
    let session : Session SeededWords := ⟨defaultLimit, .ofSeed seed⟩
    match a.expression with
    | some text => terminal.write ((session.reply a.format text).1 ++ "\n")
    | none =>
      terminal.write prompt
      session.converse terminal a.format
    return 0

end

end DiceNotation
