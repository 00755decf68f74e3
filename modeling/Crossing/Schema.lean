import Crossing.Decimal.Layout
import Crossing.Text.Quoted

/-!
# Values that do not fit a schema

When a document is read into a record, a value may have the wrong kind, a field may be unknown,
repeated or missing. This module has those complaints and their wording, which documents of both
formats share up to the spelling of an absent value and of numbers with a point.
-/

namespace Crossing.Schema

/-- What was found in a document. Integers that need more than 64 bits are marked by the type that
holds them. -/
inductive Found
  | boolean (b : Bool)
  | integer (n : Int)
  | wide (n : Int)
  | number (x : Float)
  | text (s : String)
  | unit
  | sequence
  | map

/-- How a document format spells an absent value and a number. -/
structure Dialect where
  unit : String
  number : Decimal.Layout

/-- A found value in words. -/
def Found.describe (d : Dialect) : Found → String
  | boolean b => "boolean `" ++ (if b then "true" else "false") ++ "`"
  | integer n => "integer `" ++ toString n ++ "`"
  | wide n => "integer `" ++ toString n ++ "` as " ++ (if n < 0 then "i128" else "u128")
  | number x => "floating point `" ++ d.number.render x ++ "`"
  | text s => "string " ++ Text.quote s
  | unit => d.unit
  | sequence => "sequence"
  | map => "map"

/-- Why a document does not fit a schema. -/
inductive Complaint
  | invalidType (found : Found) (expected : String)
  | invalidValue (found : Found) (expected : String)
  | invalidLength (length : Nat) (expected : String)
  | unknownField (name : String) (known : List String)
  | unknownVariant (name : String) (known : List String)
  | duplicateField (name : String)
  | missingField (name : String)
  | refused (message : String)

/-- A name between backticks. -/
def ticked (s : String) : String := "`" ++ s ++ "`"

/-- A choice of names: one, two joined by `or`, or a list. -/
def oneOf : List String → String
  | [] => "there are none"
  | [a] => "expected " ++ ticked a
  | [a, b] => "expected " ++ ticked a ++ " or " ++ ticked b
  | names => "expected one of " ++ ", ".intercalate (names.map ticked)

/-- A complaint in words. -/
def Complaint.message (d : Dialect) : Complaint → String
  | invalidType f e => "invalid type: " ++ f.describe d ++ ", expected " ++ e
  | invalidValue f e => "invalid value: " ++ f.describe d ++ ", expected " ++ e
  | invalidLength n e => "invalid length " ++ toString n ++ ", expected " ++ e
  | unknownField n known => "unknown field " ++ ticked n ++ ", " ++ oneOf known
  | unknownVariant n known => "unknown variant " ++ ticked n ++ ", " ++ oneOf known
  | duplicateField n => "duplicate field " ++ ticked n
  | missingField n => "missing field " ++ ticked n
  | refused m => m

end Crossing.Schema
