import Crossing.Text.Utf8

/-!
# UTF-16

The 16-bit units of a text and back. Characters past `U+FFFF` take a pair of surrogates; `decode?`
refuses a surrogate that stands outside such a pair.
-/

namespace Crossing.Text.Utf16

/-- The units of one character. -/
def encodeChar (c : Char) : List UInt16 :=
  let n := c.toNat
  if n < 0x10000 then [n.toUInt16]
  else [(0xD800 + (n - 0x10000) / 1024).toUInt16, (0xDC00 + (n - 0x10000) % 1024).toUInt16]

/-- The units of a text. -/
def encode (cs : List Char) : List UInt16 := cs.flatMap encodeChar

/-- The first unit of a surrogate pair. -/
def isLeading (u : UInt16) : Bool := 0xD800 ≤ u && u < 0xDC00

/-- The second unit of a surrogate pair. -/
def isTrailing (u : UInt16) : Bool := 0xDC00 ≤ u && u < 0xE000

/-- The text of a list of units, if no surrogate in it is unpaired. -/
def decode? : List UInt16 → Option (List Char)
  | [] => some []
  | u :: r =>
    if isLeading u then
      match r with
      | v :: r =>
        if isTrailing v then do
          let c ← scalar? (0x10000 + (u.toNat - 0xD800) * 1024 + (v.toNat - 0xDC00))
          return c :: (← decode? r)
        else none
      | [] => none
    else do
      let c ← scalar? u.toNat
      return c :: (← decode? r)

end Crossing.Text.Utf16
