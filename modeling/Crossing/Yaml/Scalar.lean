import Crossing.Schema
import Crossing.Yaml.Event
import Crossing.Yaml.Token.Text

/-!
# The meaning of a scalar

A plain scalar without a tag is null, a boolean, an integer, a number or a text, in this order.
Integers are decimal without leading zeros, or have a lower-case base mark; they may have a sign. A
tag of the core schema forces its kind.
-/

namespace Crossing.Yaml

open Schema (Found Complaint)

/-- The spellings of null. -/
def isNull (s : String) : Bool := s == "null" || s == "Null" || s == "NULL" || s == "~"

/-- The spellings of the booleans. -/
def boolean? (s : String) : Option Bool :=
  if s == "true" || s == "True" || s == "TRUE" then some true
  else if s == "false" || s == "False" || s == "FALSE" then some false
  else none

/-- Drops a leading sign of the given kinds. -/
def dropSign (signs : List Char) : List Char → List Char
  | c :: r => if signs.contains c then r else c :: r
  | [] => []

/-- Whether a text is a run of digits with a leading zero, which makes it a text. -/
def hasLeadingZero (cs : List Char) : Bool :=
  match dropSign ['-', '+'] cs with
  | '0' :: d :: r => (d :: r).all Char.isDigit
  | _ => false

/-- The base that a text is marked with, and its digits. -/
def baseMark? : List Char → Option (Nat × List Char)
  | '0' :: 'x' :: r => some (16, r)
  | '0' :: 'o' :: r => some (8, r)
  | '0' :: 'b' :: r => some (2, r)
  | _ => none

/-- An integer without a minus sign. -/
def natural? (cs : List Char) : Option Nat :=
  let body := dropSign ['+'] cs
  match baseMark? body with
  | some (base, ds) => digits? base ds
  | none => if hasLeadingZero cs then none else digits? 10 body

/-- An integer with a minus sign, as the number that is negated. -/
def negated? : List Char → Option Nat
  | '-' :: r =>
    match baseMark? r with
    | some (base, ds) => digits? base ds
    | none => if hasLeadingZero r then none else digits? 10 r
  | _ => none

/-- An integer of at most 64 bits without a minus sign. -/
def uint64? (s : String) : Option UInt64 :=
  (natural? s.toList).bind fun n ↦ if n < UInt64.size then some n.toUInt64 else none

/-- An integer of at most 128 bits, as found. -/
def integer? (s : String) : Option Found :=
  match natural? s.toList with
  | some n =>
    if n < UInt64.size then some (.integer n)
    else if n < Nat.pow 2 128 then some (.wide n)
    else none
  | none =>
    match negated? s.toList with
    | some n =>
      if n ≤ Nat.pow 2 63 then some (.integer (-n))
      else if n ≤ Nat.pow 2 127 then some (.wide (-n))
      else none
    | none => none

/-- Whole part, fraction and exponent of a decimal without a sign. -/
def decimal? (cs : List Char) : Option (Nat × Int) :=
  let whole := cs.takeWhile Char.isDigit
  let rest := cs.dropWhile Char.isDigit
  let (fraction, rest) :=
    match rest with
    | '.' :: r => (r.takeWhile Char.isDigit, r.dropWhile Char.isDigit)
    | r => ([], r)
  let value := (digits? 10 (whole ++ fraction)).map fun m ↦ (m, -(fraction.length : Int))
  match rest with
  | [] => value
  | e :: r =>
    if e == 'e' || e == 'E' then do
      let (m, k) ← value
      let n ← digits? 10 (dropSign ['+', '-'] r)
      return (m, k + if r.head? == some '-' then -(n : Int) else n)
    else none

/-- A number with or without a point, or one of the words for infinity and not-a-number. A decimal
past the largest double is no number. -/
def number? (s : String) : Option Float :=
  let cs := s.toList
  let body := dropSign ['+'] cs
  if cs.head? == some '+' && (body.head? == some '+' || body.head? == some '-') then none
  else if [".inf", ".Inf", ".INF"].contains (String.ofList body) then some (1.0 / 0.0)
  else if ["-.inf", "-.Inf", "-.INF"].contains s then some (-1.0 / 0.0)
  else if [".nan", ".NaN", ".NAN"].contains s then some (0.0 / 0.0)
  else do
    let (m, e) ← decimal? (dropSign ['-'] body)
    let x := Decimal.nearest m e
    guard x.isFinite
    return if body.head? == some '-' then -x else x

/-- What a plain scalar without a tag is. -/
def resolvePlain (s : String) : Found :=
  if s.isEmpty || isNull s then .unit
  else match boolean? s with
    | some b => .boolean b
    | none =>
      match integer? s with
      | some i => i
      | none =>
        if hasLeadingZero s.toList then .text s
        else match number? s with
          | some x => .number x
          | none => .text s

/-- The complaint that a scalar is not what was expected: of the wrong kind, or not even of the kind
that its tag names. -/
def Scalar.misfit (s : Scalar) (expected : String) : Complaint :=
  let forced (found : Option Found) (kind : String) : Complaint :=
    match found with
    | some f => .invalidType f expected
    | none => .invalidValue (.text s.text) kind
  if s.tag == some (.core "bool") then forced ((boolean? s.text).map .boolean) "a boolean"
  else if s.tag == some (.core "int") then forced (integer? s.text) "an integer"
  else if s.tag == some (.core "float") then forced ((number? s.text).map .number) "a float"
  else if s.tag == some (.core "null") then
    forced (if isNull s.text then some .unit else none) "null"
  else if s.style == .plain && s.tag.all Tag.isLocal then
    .invalidType (resolvePlain s.text) expected
  else .invalidType (.text s.text) expected

end Crossing.Yaml
