import DiceNotation.Expression.Parser
import DiceNotation.Outcome.Document
import DiceNotation.Outcome.Line

/-!
Texts as commands of a session. A command is read, evaluated and answered with one text; what
goes wrong is answered in words. A text that is no expression leaves the session as it was.
-/
namespace DiceNotation

inductive CommandError where
  | parse (e : ParseError)
  | roll (e : RollError)
  deriving DecidableEq

def CommandError.message : CommandError → String
  | parse e => e.message
  | roll e => e.message

inductive ReplyFormat where
  | line
  | json
  deriving DecidableEq

def Outcome.reply (o : Outcome Float) : ReplyFormat → Except RollError String
  | .line => o.line
  | .json => .ok o.toJson.pretty

namespace Session

variable {σ : Type} [Roller σ]

def execute (s : Session σ) (text : String) :
    Except CommandError (Outcome Float) × Session σ :=
  match Expression.parse text with
  | .error e => (.error (.parse e), s)
  | .ok expression =>
    match expression.evaluate s with
    | (.error e, s) => (.error (.roll e), s)
    | (.ok outcome, s) => (.ok outcome, s)

def reply (s : Session σ) (format : ReplyFormat) (text : String) : String × Session σ :=
  match s.execute text with
  | (.error e, s) => (e.message, s)
  | (.ok outcome, s) =>
    match outcome.reply format with
    | .ok text => (text, s)
    | .error e => (e.message, s)

end Session

end DiceNotation
