import Crossing.Json.Reader

/-!
# JSON values

A JSON text read as a value, and values checked against the simple schemas that need no record:
texts, unsigned integers and named variants. Objects keep the order of their members.
-/

namespace Crossing.Json

open Schema (Found Complaint)

/-- A JSON value. -/
inductive Value
  | null
  | bool (b : Bool)
  | number (n : Number)
  | text (s : String)
  | list (items : List Value)
  | object (members : List (String × Value))

namespace Value

/-- An integer. -/
def int (n : Int) : Value :=
  .number (if 0 ≤ n then .natural n.toNat.toUInt64 else .negative n)

/-- A natural number of 64 bits. -/
def nat (n : Nat) : Value := .number (.natural n.toUInt64)

/-- A double; one that is not finite has no JSON form and becomes null. -/
def double (x : Float) : Value := if x.isFinite then .number (.double x) else .null

/-- What a value is found to be. -/
def found : Value → Found
  | null => .unit
  | bool b => .boolean b
  | number n => n.found
  | text s => .text s
  | list _ => .sequence
  | object _ => .map

/-- The member of an object with a given key; the last one counts. -/
def get? : Value → String → Option Value
  | object ms, key => (ms.reverse.find? (·.1 == key)).map (·.2)
  | _, _ => none

/-! ### Reading -/

mutual

/-- A value of any kind. -/
def read : Nat → Reader Value
  | 0, _ => .error .endInValue
  | fuel + 1, bs =>
    match skipBlank bs with
    | [] => .error .endInValue
    | b :: r =>
      if b == ascii 'n' then (readWord ['u', 'l', 'l'] r).map fun x ↦ (.null, x.2)
      else if b == ascii 't' then (readWord ['r', 'u', 'e'] r).map fun x ↦ (.bool true, x.2)
      else if b == ascii 'f' then (readWord ['a', 'l', 's', 'e'] r).map fun x ↦ (.bool false, x.2)
      else if b == ascii '-' then (readNumber false r).map fun x ↦ (.number x.1, x.2)
      else if isDigit b then (readNumber true (b :: r)).map fun x ↦ (.number x.1, x.2)
      else if b == ascii '"' then (readText r).map fun x ↦ (.text x.1, x.2)
      else if b == ascii '[' then (readItems fuel true r).map fun x ↦ (.list x.1, x.2)
      else if b == ascii '{' then (readMembers fuel true r).map fun x ↦ (.object x.1, x.2)
      else .error .valueExpected

/-- The items of a list after its bracket. -/
def readItems : Nat → Bool → Reader (List Value)
  | 0, _, _ => .error .endInList
  | fuel + 1, first, bs => do
    match ← nextElement first bs with
    | none => return ([], ← endList bs)
    | some r =>
      let (a, r) ← read fuel r
      let (as, r) ← readItems fuel false r
      return (a :: as, r)

/-- The members of an object after its brace. -/
def readMembers : Nat → Bool → Reader (List (String × Value))
  | 0, _, _ => .error .endInObject
  | fuel + 1, first, bs => do
    match ← nextKey first bs with
    | (none, r) => return ([], r)
    | (some r, _) =>
      let (name, r) ← readText r
      let ((), r) ← readColon r
      let (a, r) ← read fuel r
      let (ms, r) ← readMembers fuel false r
      return ((name, a) :: ms, r)

end

/-- The value that a text holds. -/
def ofOctets (bs : List UInt8) : Except Issue Value := readWhole (read (bs.length + 1)) bs

/-! ### Values against a schema -/

/-- A text. -/
def asText : Value → Except Complaint String
  | text s => .ok s
  | v => .error (.invalidType v.found "a string")

/-- An unsigned integer of 64 bits. -/
def asUInt64 : Value → Except Complaint UInt64
  | number (.natural n) => .ok n
  | number (.negative n) => .error (.invalidValue (.integer n) "u64")
  | v => .error (.invalidType v.found "u64")

/-- One of several named values: its name, or an object of one member with its name and null. -/
def asVariant {α : Type} (variants : List (String × α)) (v : Value) : Except Complaint α :=
  let pick (name : String) : Except Complaint α :=
    match variants.find? (·.1 == name) with
    | some (_, a) => .ok a
    | none => .error (.unknownVariant name (variants.map (·.1)))
  match v with
  | text name => pick name
  | object [(name, inner)] => do
    let a ← pick name
    match inner with
    | null => return a
    | v => throw (.invalidType v.found "unit")
  | object _ => .error (.invalidValue .map "map with a single key")
  | v => .error (.invalidType v.found "string or map")

end Value

end Crossing.Json
