import Crossing.Json.Octet

/-!
# Numbers of a JSON text

Digits are gathered into a significand of 64 bits; those past it only count towards the exponent. An
integer that fits stays one. Every other number is the significand as a double, multiplied or
divided by a power of ten as a double: two roundings, so the result need not be the double nearest
to the decimal.
-/

namespace Crossing.Json

/-- A number of a JSON text. -/
inductive Number
  | natural (n : UInt64)
  | negative (n : Int)
  | double (x : Float)

/-- What a number is found to be. -/
def Number.found : Number → Schema.Found
  | natural n => .integer n.toNat
  | negative n => .integer n
  | double x => .number x

/-- Adds digits to a significand as long as it fits into 64 bits. The answer has the significand,
the number of digits taken, and what is left. -/
def gather (s : Nat) : List UInt8 → Nat × Nat × List UInt8
  | [] => (s, 0, [])
  | d :: r =>
    if isDigit d && 10 * s + digitValue d < UInt64.size then
      let (t, n, r) := gather (10 * s + digitValue d) r
      (t, n + 1, r)
    else (s, 0, d :: r)

/-- A power of ten as a double. -/
def tenTo (e : Nat) : Float := Float.ofScientific 1 false e

/-- Scales a double by a power of ten, in one step where that power is a double. -/
def scale : Nat → Float → Int → Except Issue Float
  | 0, f, _ => .ok f
  | fuel + 1, f, e =>
    if e.natAbs ≤ 308 then
      if 0 ≤ e then
        let g := f * tenTo e.natAbs
        if g.isInf then .error .numberOutOfRange else .ok g
      else .ok (f / tenTo e.natAbs)
    else if f == 0 then .ok f
    else if 0 ≤ e then .error .numberOutOfRange
    else scale fuel (f / tenTo 308) (e + 308)

/-- The double of a significand and an exponent. -/
def ofParts (positive : Bool) (s : Nat) (e : Int) : Except Issue Float := do
  let f ← scale 8 s.toUInt64.toFloat e
  return if positive then f else -f

/-- The digits of an exponent after the value `n`; past 31 bits the answer is `none`. -/
def exponentDigits (n : Nat) : List UInt8 → Option Nat × List UInt8
  | [] => (some n, [])
  | d :: r =>
    if isDigit d then
      let m := 10 * n + digitValue d
      if Nat.pow 2 31 ≤ m then (none, r.dropWhile isDigit) else exponentDigits m r
    else (some n, d :: r)

/-- Keeps an exponent within 32 bits. -/
def saturate (e : Int) : Int := max (-2147483648) (min 2147483647 e)

/-- An exponent after its mark. -/
def readExponent (positive : Bool) (s : Nat) (e : Int) (bs : List UInt8) :
    Except Issue (Float × List UInt8) :=
  let signed := bs.head?.any fun b ↦ b == ascii '+' || b == ascii '-'
  let up := bs.head? != some (ascii '-')
  match if signed then bs.drop 1 else bs with
  | [] => .error .endInValue
  | d :: r =>
    if isDigit d then
      match exponentDigits (digitValue d) r with
      | (some n, r) => do
        let x ← ofParts positive s (saturate (if up then e + n else e - n))
        return (x, r)
      | (none, r) =>
        if s != 0 && up then .error .numberOutOfRange
        else .ok (if positive then 0.0 else -0.0, r)
    else .error .invalidNumber

/-- The octets that mark an exponent. -/
def isExponentMark (b : UInt8) : Bool := b == ascii 'e' || b == ascii 'E'

/-- A double whose digits have been read, with an exponent if one follows. -/
def readScaled (positive : Bool) (s : Nat) (e : Int) (bs : List UInt8) :
    Except Issue (Float × List UInt8) :=
  match bs with
  | b :: r =>
    if isExponentMark b then readExponent positive s e r
    else do return (← ofParts positive s e, bs)
  | [] => do return (← ofParts positive s e, [])

/-- A fraction after its point. -/
def readFraction (positive : Bool) (s : Nat) (e : Int) (bs : List UInt8) :
    Except Issue (Float × List UInt8) :=
  match gather s bs with
  | (t, n, r) =>
    if r.head?.any isDigit then readScaled positive t (e - n) (r.dropWhile isDigit)
    else if n == 0 then .error (if r.isEmpty then .endInValue else .invalidNumber)
    else readScaled positive t (e - n) r

/-- What follows the whole part of a number. -/
def readRest (positive : Bool) (s : Nat) (bs : List UInt8) : Except Issue (Number × List UInt8) :=
  let whole : Number :=
    if positive then .natural s.toUInt64
    else if s == 0 || Nat.pow 2 63 < s then .double (-s.toUInt64.toFloat)
    else .negative (-s)
  match bs with
  | b :: r =>
    if b == ascii '.' then (readFraction positive s 0 r).map fun x ↦ (.double x.1, x.2)
    else if isExponentMark b then (readExponent positive s 0 r).map fun x ↦ (.double x.1, x.2)
    else .ok (whole, bs)
  | [] => .ok (whole, [])

/-- What follows the first digits of a number that has more than fit into the significand. -/
def readLong (positive : Bool) (s : Nat) (bs : List UInt8) : Except Issue (Number × List UInt8) :=
  let e : Int := (bs.takeWhile isDigit).length
  let rest := bs.dropWhile isDigit
  let read :=
    match rest with
    | b :: r => if b == ascii '.' then readFraction positive s e r else readScaled positive s e rest
    | [] => readScaled positive s e rest
  read.map fun x ↦ (.double x.1, x.2)

/-- A number after its sign. -/
def readNumber (positive : Bool) : Reader Number
  | [] => .error .endInValue
  | d :: r =>
    if d == ascii '0' then
      if r.head?.any isDigit then .error .invalidNumber else readRest positive 0 r
    else if isDigit d then
      match gather (digitValue d) r with
      | (s, _, r) =>
        if r.head?.any isDigit then readLong positive s r else readRest positive s r
    else .error .invalidNumber

/-! ### Numbers that are passed over -/

/-- Passes over an exponent after its mark. -/
def skipExponent (bs : List UInt8) : Except Issue (List UInt8) :=
  let signed := bs.head?.any fun b ↦ b == ascii '+' || b == ascii '-'
  let bs := if signed then bs.drop 1 else bs
  if bs.head?.any isDigit then .ok (bs.dropWhile isDigit) else .error .invalidNumber

/-- Passes over a number after its sign; only its form is checked. -/
def skipNumber (bs : List UInt8) : Except Issue (List UInt8) := do
  let rest ←
    match bs with
    | d :: r =>
      if d == ascii '0' then
        if r.head?.any isDigit then throw .invalidNumber else pure r
      else if isDigit d then pure (r.dropWhile isDigit)
      else throw .invalidNumber
    | [] => throw .invalidNumber
  match rest with
  | b :: r =>
    if b == ascii '.' then
      if !r.head?.any isDigit then throw .invalidNumber
      match r.dropWhile isDigit with
      | e :: r' => if isExponentMark e then skipExponent r' else return e :: r'
      | [] => return []
    else if isExponentMark b then skipExponent r
    else return rest
  | [] => return []

end Crossing.Json
