import Crossing.Text.Utf16
import Crossing.Text.Utf8

/-!
# From UTF-16 to UTF-8 in a buffer

Units are taken as characters one by one, and each character is written to the buffer as soon as it
is known. The text ends with a zero, for which there has to be room as well.
-/

namespace Crossing.Text

/-- The characters of some units, up to the first surrogate that stands alone, where `none` is. -/
def Utf16.characters : List UInt16 → List (Option Char)
  | [] => []
  | u :: r =>
    if isLeading u then
      match r with
      | v :: r =>
        if isTrailing v then
          scalar? (0x10000 + (u.toNat - 0xD800) * 1024 + (v.toNat - 0xDC00)) :: characters r
        else [none]
      | [] => [none]
    else
      match scalar? u.toNat with
      | some c => some c :: characters r
      | none => [none]

/-- Writes characters and a zero over the front of a buffer. Returns the number of octets before the
zero, or nothing if a character is missing or the buffer too short; what was written stays. -/
def writeCharacters : List (Option Char) → List UInt8 → Option Nat × List UInt8
  | [], [] => (none, [])
  | [], _ :: r => (some 0, 0 :: r)
  | none :: _, buffer => (none, buffer)
  | some c :: cs, buffer =>
    let bs := Utf8.encodeChar c
    match buffer.drop bs.length with
    | [] => (none, buffer)
    | b :: r =>
      let (n, rest) := writeCharacters cs (b :: r)
      (n.map (· + bs.length), bs ++ rest)

/-- Writes units as UTF-8 and a zero over the front of a buffer. -/
def writeTerminated (units : List UInt16) (buffer : List UInt8) : Option Nat × List UInt8 :=
  writeCharacters (Utf16.characters units) buffer

/-- The octet of a unit in ASCII; other units become question marks. -/
def asciiOctet (u : UInt16) : UInt8 := if u < 128 then u.toUInt8 else 63

/-- Writes units as ASCII over the front of a buffer, as far as the buffer goes. -/
def writeAscii : List UInt16 → List UInt8 → List UInt8
  | u :: us, _ :: r => asciiOctet u :: writeAscii us r
  | _, buffer => buffer

end Crossing.Text
