import Crossing.Json.Octet
import Crossing.Text.Utf8

/-!
# Texts of a JSON text

A text stands between double quotes, with escapes after a backslash. Characters past `U+FFFF` may be
written as a pair of hexadecimal escapes.
-/

namespace Crossing.Json

/-- Four hexadecimal digits. -/
def readHex : Reader Nat
  | a :: b :: c :: d :: r =>
    match hexDigit? a, hexDigit? b, hexDigit? c, hexDigit? d with
    | some a, some b, some c, some d => .ok (4096 * a + 256 * b + 16 * c + d, r)
    | _, _, _, _ => .error .invalidEscape
  | _ => .error .endInText

/-- What the letter of a simple escape stands for. -/
def simpleEscape? (b : UInt8) : Option UInt8 :=
  if b == ascii '"' || b == ascii '\\' || b == ascii '/' then some b
  else if b == ascii 'b' then some 0x08
  else if b == ascii 'f' then some 0x0C
  else if b == ascii 'n' then some 0x0A
  else if b == ascii 'r' then some 0x0D
  else if b == ascii 't' then some 0x09
  else none

/-- The octets of a code point that is a scalar value. -/
def codePoint (n : Nat) : List UInt8 := Text.Utf8.encodeChar (Char.ofNat n)

/-- A hexadecimal escape after its letter, with the second escape of a surrogate pair. -/
def readHexEscape (bs : List UInt8) : Except Issue (List UInt8 × List UInt8) := do
  let (n, r) ← readHex bs
  if 0xDC00 ≤ n && n ≤ 0xDFFF then throw .loneSurrogate
  else if n < 0xD800 || 0xDBFF < n then return (codePoint n, r)
  else
    match r with
    | [] => throw .endInText
    | b :: r =>
      if b != ascii '\\' then throw .hexEscapeEnd
      match r with
      | [] => throw .endInText
      | u :: r =>
        if u != ascii 'u' then throw .hexEscapeEnd
        let (m, r) ← readHex r
        if m < 0xDC00 || 0xDFFF < m then throw .loneSurrogate
        return (codePoint ((n - 0xD800) * 1024 + (m - 0xDC00) + 0x10000), r)

/-- The octets of a text after its opening quote. -/
def readOctets : Nat → List UInt8 → Except Issue (List UInt8 × List UInt8)
  | 0, _ => .error .endInText
  | fuel + 1, bs =>
    match bs with
    | [] => .error .endInText
    | b :: r =>
      if b == ascii '"' then .ok ([], r)
      else if b == ascii '\\' then
        match r with
        | [] => .error .endInText
        | e :: r => do
          let (x, r) ←
            if e == ascii 'u' then readHexEscape r
            else match simpleEscape? e with
              | some x => .ok ([x], r)
              | none => .error .invalidEscape
          let (xs, r) ← readOctets fuel r
          return (x ++ xs, r)
      else if b < 0x20 then .error .controlCharacter
      else do
        let (xs, r) ← readOctets fuel r
        return (b :: xs, r)

/-- A text after its opening quote. -/
def readText : Reader String := fun bs ↦ do
  let (octets, r) ← readOctets (bs.length + 1) bs
  match Text.Utf8.decode? octets with
  | some cs => return (String.ofList cs, r)
  | none => throw .invalidCodePoint

/-- Passes over a text after its opening quote; what its octets and escapes mean is not checked. -/
def skipText : Nat → List UInt8 → Except Issue (List UInt8)
  | 0, _ => .error .endInText
  | fuel + 1, bs =>
    match bs with
    | [] => .error .endInText
    | b :: r =>
      if b == ascii '"' then .ok r
      else if b == ascii '\\' then
        match r with
        | [] => .error .endInText
        | e :: r =>
          if e == ascii 'u' then do
            let (_, r) ← readHex r
            skipText fuel r
          else if (simpleEscape? e).isSome then skipText fuel r
          else .error .invalidEscape
      else if b < 0x20 then .error .controlCharacter
      else skipText fuel r

end Crossing.Json
