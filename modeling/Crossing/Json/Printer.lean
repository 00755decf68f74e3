import Crossing.Json.Value

/-!
# Writing JSON

Two forms: on one line without spaces, and indented by two spaces with one member or item a line.
Doubles are written as summaries write them, so a whole one keeps its point.
-/

namespace Crossing.Json

/-- Two lower-case hexadecimal digits. -/
def hexPair (n : Nat) : String :=
  String.ofList [Nat.digitChar (n / 16), Nat.digitChar (n % 16)]

/-- One character between quotes. -/
def escapeChar (c : Char) : String :=
  if c == '"' then "\\\""
  else if c == '\\' then "\\\\"
  else if c == '\n' then "\\n"
  else if c == '\r' then "\\r"
  else if c == '\t' then "\\t"
  else if c == '\x08' then "\\b"
  else if c == '\x0C' then "\\f"
  else if c.toNat < 0x20 then "\\u00" ++ hexPair c.toNat
  else c.toString

/-- A text with its quotes. -/
def quoted (s : String) : String := "\"" ++ String.join (s.toList.map escapeChar) ++ "\""

/-- A number. -/
def Number.toText : Number → String
  | natural n => toString n.toNat
  | negative n => toString n
  | double x => Decimal.Layout.summary.render x

namespace Value

mutual

/-- A value on one line. -/
def compact : Value → String
  | null => "null"
  | bool b => if b then "true" else "false"
  | number n => n.toText
  | text s => quoted s
  | list [] => "[]"
  | list (v :: vs) => "[" ++ v.compact ++ compactItems vs ++ "]"
  | object [] => "\x7b\x7d"
  | object ((k, v) :: ms) => "\x7b" ++ quoted k ++ ":" ++ v.compact ++ compactMembers ms ++ "\x7d"

/-- The items of a list after the first. -/
def compactItems : List Value → String
  | [] => ""
  | v :: vs => "," ++ v.compact ++ compactItems vs

/-- The members of an object after the first. -/
def compactMembers : List (String × Value) → String
  | [] => ""
  | (k, v) :: ms => "," ++ quoted k ++ ":" ++ v.compact ++ compactMembers ms

end

/-- A new line indented by a level. -/
def newLine (level : Nat) : String := "\n" ++ String.ofList (List.replicate (2 * level) ' ')

mutual

/-- A value over several lines, inside `level` brackets. -/
def pretty (level : Nat) : Value → String
  | null => "null"
  | bool b => if b then "true" else "false"
  | number n => n.toText
  | text s => quoted s
  | list [] => "[]"
  | list (v :: vs) =>
    "[" ++ newLine (level + 1) ++ v.pretty (level + 1) ++ prettyItems (level + 1) vs ++
      newLine level ++ "]"
  | object [] => "\x7b\x7d"
  | object ((k, v) :: ms) =>
    "\x7b" ++ newLine (level + 1) ++ quoted k ++ ": " ++ v.pretty (level + 1) ++
      prettyMembers (level + 1) ms ++ newLine level ++ "\x7d"

/-- The items of a list after the first. -/
def prettyItems (level : Nat) : List Value → String
  | [] => ""
  | v :: vs => "," ++ newLine level ++ v.pretty level ++ prettyItems level vs

/-- The members of an object after the first. -/
def prettyMembers (level : Nat) : List (String × Value) → String
  | [] => ""
  | (k, v) :: ms =>
    "," ++ newLine level ++ quoted k ++ ": " ++ v.pretty level ++ prettyMembers level ms

end

end Value

end Crossing.Json
