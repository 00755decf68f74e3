import Crossing.Text.Printable

/-!
# Quoted text in messages

Messages show a text that they complain about with its special characters escaped. There are two
forms. `quote` puts the text between double quotes, leaves single quotes alone and escapes every
combining character. `escape` has no surrounding quotes, escapes quotes of both kinds, and escapes a
combining character only where it stands first.
-/

namespace Crossing.Text

/-- A code point in lower-case hexadecimal, between braces after `\\u`. -/
def escapeCodePoint (c : Char) : String :=
  "\\u\x7b" ++ String.ofList (Nat.toDigits 16 c.toNat) ++ "\x7d"

/-- One character of an escaped text; `combining` says whether combining characters are escaped
and `marks` which quotation marks are. -/
def escapeChar (combining : Bool) (marks : List Char) (c : Char) : String :=
  if c == '\x00' then "\\0"
  else if c == '\t' then "\\t"
  else if c == '\r' then "\\r"
  else if c == '\n' then "\\n"
  else if c == '\\' || marks.contains c then String.ofList ['\\', c]
  else if combining && isCombining c then escapeCodePoint c
  else if isPrintable c then c.toString
  else escapeCodePoint c

/-- A text between double quotes, as messages cite it. -/
def quote (s : String) : String :=
  "\"" ++ String.join (s.toList.map (escapeChar true ['"'])) ++ "\""

/-- A text on one line without surrounding quotes. -/
def escape (s : String) : String :=
  match s.toList with
  | [] => ""
  | c :: cs =>
    escapeChar true ['"', '\''] c ++ String.join (cs.map (escapeChar false ['"', '\'']))

end Crossing.Text
