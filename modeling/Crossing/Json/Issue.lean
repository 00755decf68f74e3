import Crossing.Schema

/-!
# What can be wrong with a JSON text

Either the text is not JSON, or it does not fit the schema that it is read with.
-/

namespace Crossing.Json

open Schema (Complaint Dialect)

/-- Why a JSON text could not be read. -/
inductive Issue
  | endInList
  | endInObject
  | endInText
  | endInValue
  | colonExpected
  | listEndExpected
  | objectEndExpected
  | wordExpected
  | valueExpected
  | invalidEscape
  | invalidNumber
  | numberOutOfRange
  | invalidCodePoint
  | controlCharacter
  | keyNotText
  | loneSurrogate
  | hexEscapeEnd
  | trailingComma
  | trailingCharacters
  | misfit (complaint : Complaint)

/-- How complaints about a JSON text spell values. -/
def dialect : Dialect := ⟨"null", .summary⟩

/-- An issue in words. -/
def Issue.message : Issue → String
  | endInList => "EOF while parsing a list"
  | endInObject => "EOF while parsing an object"
  | endInText => "EOF while parsing a string"
  | endInValue => "EOF while parsing a value"
  | colonExpected => "expected `:`"
  | listEndExpected => "expected `,` or `]`"
  | objectEndExpected => "expected `,` or `\x7d`"
  | wordExpected => "expected ident"
  | valueExpected => "expected value"
  | invalidEscape => "invalid escape"
  | invalidNumber => "invalid number"
  | numberOutOfRange => "number out of range"
  | invalidCodePoint => "invalid unicode code point"
  | controlCharacter => "control character (\\u0000-\\u001F) found while parsing a string"
  | keyNotText => "key must be a string"
  | loneSurrogate => "lone leading surrogate in hex escape"
  | hexEscapeEnd => "unexpected end of hex escape"
  | trailingComma => "trailing comma"
  | trailingCharacters => "trailing characters"
  | misfit c => c.message dialect

end Crossing.Json
