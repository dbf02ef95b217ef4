import DiceNotation.Number.Format

/-!
JSON documents and their two texts: the compact one without any blank, and the indented one with
one element or field on a line. Fields keep their order.
-/
namespace DiceNotation

inductive Json where
  | int (n : Int)
  /-- A double that is not finite is written as `null`. -/
  | float (x : Float)
  | string (text : String)
  | list (elements : List Json)
  | record (fields : List (String × Json))

namespace Json

/-- From `1e-5` to below `1e16` there is no exponent. JSON numbers are finite: the rest is `null`. -/
def numbers : NumberFormat where
  positional := .between (-5) 15
  wholeMark := ".0"
  tie := .even
  infinity := "null"
  negativeInfinity := "null"
  notANumber := "null"

def escapeChar (c : Char) : List Char :=
  match c with
  | '"' => ['\\', '"']
  | '\\' => ['\\', '\\']
  | '\n' => ['\\', 'n']
  | '\r' => ['\\', 'r']
  | '\t' => ['\\', 't']
  | c =>
    if c.toNat < 0x10 then ['\\', 'u', '0', '0', '0'] ++ Nat.toDigits 16 c.toNat
    else if c.toNat < 0x20 then ['\\', 'u', '0', '0'] ++ Nat.toDigits 16 c.toNat
    else [c]

def stringText (text : String) : String :=
  "\"" ++ String.ofList (text.toList.flatMap escapeChar) ++ "\""

mutual

def compact : Json → String
  | int n => toString n
  | float x => numbers.write x
  | string s => stringText s
  | list es => "[" ++ ",".intercalate (compactAll es) ++ "]"
  | record fs => "\x7b" ++ ",".intercalate (compactFields fs) ++ "\x7d"

def compactAll : List Json → List String
  | [] => []
  | e :: es => e.compact :: compactAll es

def compactFields : List (String × Json) → List String
  | [] => []
  | (name, e) :: fs => (stringText name ++ ":" ++ e.compact) :: compactFields fs

end

/-- The items on lines of their own, two blanks deeper than the brackets around them. -/
def block (openBracket closeBracket : String) (depth : Nat) (items : List String) : String :=
  let line (n : Nat) := "\n" ++ String.ofList (List.replicate (2 * n) ' ')
  match items with
  | [] => openBracket ++ closeBracket
  | items =>
    openBracket ++ line (depth + 1) ++ ("," ++ line (depth + 1)).intercalate items ++
      line depth ++ closeBracket

mutual

def indented (depth : Nat) : Json → String
  | int n => toString n
  | float x => numbers.write x
  | string s => stringText s
  | list es => block "[" "]" depth (indentedAll (depth + 1) es)
  | record fs => block "\x7b" "\x7d" depth (indentedFields (depth + 1) fs)

def indentedAll (depth : Nat) : List Json → List String
  | [] => []
  | e :: es => e.indented depth :: indentedAll depth es

def indentedFields (depth : Nat) : List (String × Json) → List String
  | [] => []
  | (name, e) :: fs => (stringText name ++ ": " ++ e.indented depth) :: indentedFields depth fs

end

def pretty (j : Json) : String := j.indented 0

end Json

end DiceNotation
