/-!
# UTF-8

The octets of a text and back. `decode?` accepts exactly the shortest encodings of Unicode scalar
values: no overlong form, no surrogate, nothing past `U+10FFFF`.
-/

namespace Crossing.Text

/-- The character with a given code point, if that is a scalar value. -/
def scalar? (n : Nat) : Option Char :=
  if n.isValidChar then some (Char.ofNat n) else none

namespace Utf8

/-- The octets of one character. -/
def encodeChar (c : Char) : List UInt8 :=
  let n := c.toNat
  if n < 0x80 then [n.toUInt8]
  else if n < 0x800 then [(0xC0 + n / 64).toUInt8, (0x80 + n % 64).toUInt8]
  else if n < 0x10000 then
    [(0xE0 + n / 4096).toUInt8, (0x80 + n / 64 % 64).toUInt8, (0x80 + n % 64).toUInt8]
  else
    [(0xF0 + n / 262144).toUInt8, (0x80 + n / 4096 % 64).toUInt8, (0x80 + n / 64 % 64).toUInt8,
      (0x80 + n % 64).toUInt8]

/-- The octets of a text. -/
def encode (cs : List Char) : List UInt8 := cs.flatMap encodeChar

/-- The number of octets of one character. -/
def width (c : Char) : Nat :=
  let n := c.toNat
  if n < 0x80 then 1 else if n < 0x800 then 2 else if n < 0x10000 then 3 else 4

/-- The six payload bits of a continuation octet. -/
def continuation? (b : UInt8) : Option Nat :=
  if 0x80 ≤ b && b < 0xC0 then some (b.toNat - 0x80) else none

/-- The text of a list of octets, if they are well formed. -/
def decode? : List UInt8 → Option (List Char)
  | [] => some []
  | b :: r =>
    if b < 0x80 then do
      let c ← scalar? b.toNat
      return c :: (← decode? r)
    else if b < 0xE0 then
      match r with
      | b₁ :: r => do
        let n := (b.toNat - 0xC0) * 64 + (← continuation? b₁)
        guard (0xC0 ≤ b ∧ 0x80 ≤ n)
        return (← scalar? n) :: (← decode? r)
      | _ => none
    else if b < 0xF0 then
      match r with
      | b₁ :: b₂ :: r => do
        let n := (b.toNat - 0xE0) * 4096 + (← continuation? b₁) * 64 + (← continuation? b₂)
        guard (0x800 ≤ n)
        return (← scalar? n) :: (← decode? r)
      | _ => none
    else
      match r with
      | b₁ :: b₂ :: b₃ :: r => do
        let n := (b.toNat - 0xF0) * 262144 + (← continuation? b₁) * 4096 +
          (← continuation? b₂) * 64 + (← continuation? b₃)
        guard (0x10000 ≤ n)
        return (← scalar? n) :: (← decode? r)
      | _ => none

/-- Whether a list of octets is the encoding of some text. -/
def isValid (bs : List UInt8) : Bool := (decode? bs).isSome

end Utf8

end Crossing.Text
