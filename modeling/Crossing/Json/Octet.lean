import Crossing.Json.Issue

/-!
# Octets of a JSON text

A JSON text is read as octets, so that texts which are not well-formed UTF-8 can still be read up to
the place that matters. Readers take the octets that are left and return a value and the octets
after it.
-/

namespace Crossing.Json

/-- A way to read a value from the front of a text. -/
abbrev Reader (α : Type) := List UInt8 → Except Issue (α × List UInt8)

/-- The octet of an ASCII character. -/
def ascii (c : Char) : UInt8 := c.toNat.toUInt8

/-- Space, tab, line feed and carriage return. -/
def isBlank (b : UInt8) : Bool := b == 0x20 || b == 0x0A || b == 0x09 || b == 0x0D

/-- Drops white space. -/
def skipBlank (bs : List UInt8) : List UInt8 := bs.dropWhile isBlank

/-- Whether an octet is a decimal digit. -/
def isDigit (b : UInt8) : Bool := ascii '0' ≤ b && b ≤ ascii '9'

/-- The value of a decimal digit. -/
def digitValue (b : UInt8) : Nat := b.toNat - 48

/-- The value of a hexadecimal digit. -/
def hexDigit? (b : UInt8) : Option Nat :=
  if isDigit b then some (digitValue b)
  else if ascii 'a' ≤ b && b ≤ ascii 'f' then some (b.toNat - 87)
  else if ascii 'A' ≤ b && b ≤ ascii 'F' then some (b.toNat - 55)
  else none

/-- Reads the rest of a word such as `null`. -/
def readWord : List Char → Reader Unit
  | [], bs => .ok ((), bs)
  | _ :: _, [] => .error .endInValue
  | c :: cs, b :: bs => if b == ascii c then readWord cs bs else .error .wordExpected

end Crossing.Json
