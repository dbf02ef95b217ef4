import DiceNotation.Command
import DiceNotation.Roller.Generators
import DiceNotation.Text.WhiteSpace

/-!
The command line. With an expression it prints one reply; without, it prompts for one line after
the other and replies to each, all within one session.
-/
namespace DiceNotation

/-- A number of 64 bits in digits, after an optional plus sign. -/
def readSeed? (text : List Char) : Option UInt64 :=
  match text with
  | '+' :: digits => ofDigits? digits
  | digits => ofDigits? digits
where
  ofDigits? (digits : List Char) : Option UInt64 :=
    let n := Nat.ofDigitChars 10 digits 0
    if !digits.isEmpty && digits.all Char.isDigit && n < UInt64.size then some n.toUInt64
    else none

structure Arguments where
  expression : Option String := none
  format : ReplyFormat := .line
  seed : Option UInt64 := none

namespace Arguments

/- Each argument may be given once. -/
def addExpression (a : Arguments) (text : String) : Option Arguments :=
  if a.expression.isNone then some { a with expression := some text } else none

def addJson (a : Arguments) : Option Arguments :=
  if a.format = .line then some { a with format := .json } else none

def addSeed (a : Arguments) (text : List Char) : Option Arguments :=
  match a.seed, readSeed? text with
  | none, some seed => some { a with seed := some seed }
  | _, _ => none

def addAll (a : Arguments) : List String → Option Arguments
  | [] => some a
  | text :: texts => do (← a.addExpression text).addAll texts

/-- What starts with a hyphen is an option, up to `--`; a hyphen alone is not. -/
def isOption (text : List Char) : Bool :=
  match text with
  | '-' :: _ :: _ => true
  | _ => false

/-- Other options are refused, also those that only tell about the program. -/
def read? (a : Arguments) : List String → Option Arguments
  | [] => some a
  | "--" :: texts => a.addAll texts
  | "--json" :: texts => do (← a.addJson).read? texts
  | "--seed" :: value :: texts =>
    if isOption value.toList then none else do (← a.addSeed value.toList).read? texts
  | text :: texts =>
    match "--seed=".toList.isPrefixOf? text.toList with
    | some value => do (← a.addSeed value).read? texts
    | none =>
      if isOption text.toList then none else do (← a.addExpression text).read? texts

end Arguments

def prompt : String := "> "

namespace Session

variable {σ : Type} [Roller σ]

/-- What is printed after a line: its reply, unless it is blank, and the next prompt. -/
def answer (s : Session σ) (format : ReplyFormat) (line : List Char) : String × Session σ :=
  match trim line with
  | [] => (prompt, s)
  | text =>
    let (reply, s) := s.reply format (String.ofList text)
    (reply ++ "\n" ++ prompt, s)

def answers (s : Session σ) (format : ReplyFormat) : List (List Char) → String
  | [] => ""
  | line :: lines =>
    let (text, s) := s.answer format line
    text ++ s.answers format lines

def transcript (s : Session σ) (format : ReplyFormat) (lines : List (List Char)) : String :=
  prompt ++ s.answers format lines ++ "\n"

end Session

/-- `line` is what has been read of the current line, backwards. -/
def linesFrom (line : List Char) : List Char → List (List Char)
  | [] => if line.isEmpty then [] else [line.reverse]
  | c :: cs => if c = '\n' then line.reverse :: linesFrom [] cs else linesFrom (c :: line) cs

/-- The lines of an input; a line feed at its very end starts no further line. -/
def lines (input : String) : List (List Char) := linesFrom [] input.toList

structure Printed where
  output : String
  exitCode : UInt32

def usageError : UInt32 := 2

/-- `chance` seeds the dice where no seed is given. -/
def runCommandLine (chance : UInt64) (arguments : List String) (input : String) : Printed :=
  match Arguments.read? {} arguments with
  | none => ⟨"", usageError⟩
  | some a =>
    let session : Session SeededWords := ⟨defaultLimit, .ofSeed (a.seed.getD chance)⟩
    match a.expression with
    | some text => ⟨(session.reply a.format text).1 ++ "\n", 0⟩
    | none => ⟨session.transcript a.format (lines input), 0⟩

end DiceNotation
