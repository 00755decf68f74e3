import Crossing.Json.Number
import Crossing.Json.Text

/-!
# Reading a JSON text into records

Readers follow the text and the schema together, so whichever of a flaw and a misfit comes first is
reported. A record is written as an object, whose unknown fields are passed over, or as a list of
its fields in order.
-/

namespace Crossing.Json

open Schema (Found Complaint)

/-- The issue that what comes next is not what was expected. -/
def misfit (expected : String) (bs : List UInt8) : Issue :=
  let found (f : Found) : Issue := .misfit (.invalidType f expected)
  let word (w : List Char) (f : Found) (r : List UInt8) : Issue :=
    match readWord w r with
    | .ok _ => found f
    | .error e => e
  let number (positive : Bool) (r : List UInt8) : Issue :=
    match readNumber positive r with
    | .ok (n, _) => found n.found
    | .error e => e
  match bs with
  | [] => .endInValue
  | b :: r =>
    if b == ascii 'n' then word ['u', 'l', 'l'] .unit r
    else if b == ascii 't' then word ['r', 'u', 'e'] (.boolean true) r
    else if b == ascii 'f' then word ['a', 'l', 's', 'e'] (.boolean false) r
    else if b == ascii '-' then number false r
    else if isDigit b then number true bs
    else if b == ascii '"' then
      match readText r with
      | .ok (s, _) => found (.text s)
      | .error e => e
    else if b == ascii '[' then found .sequence
    else if b == ascii '{' then found .map
    else .valueExpected

/-! ### Single values -/

/-- A number of any kind; `take` says what it makes of it. -/
def readNumeric {α : Type} (expected : String) (take : Number → Except Complaint α) : Reader α :=
  fun bs ↦
    let accept (r : Except Issue (Number × List UInt8)) : Except Issue (α × List UInt8) := do
      let (n, rest) ← r
      match take n with
      | .ok a => return (a, rest)
      | .error c => throw (.misfit c)
    match skipBlank bs with
    | [] => .error .endInValue
    | b :: r =>
      if b == ascii '-' then accept (readNumber false r)
      else if isDigit b then accept (readNumber true (b :: r))
      else .error (misfit expected (b :: r))

/-- An unsigned integer of 64 bits. -/
def readUInt64 (expected : String) : Reader UInt64 :=
  readNumeric expected fun
    | .natural n => .ok n
    | .negative n => .error (.invalidValue (.integer n) expected)
    | .double x => .error (.invalidType (.number x) expected)

/-- A double; integers are converted. -/
def readDouble : Reader Float :=
  readNumeric "f64" fun
    | .natural n => .ok n.toFloat
    | .negative n => .ok (-(n.natAbs.toUInt64.toFloat))
    | .double x => .ok x

/-- A text. -/
def readString (expected : String) : Reader String := fun bs ↦
  match skipBlank bs with
  | [] => .error .endInValue
  | b :: r => if b == ascii '"' then readText r else .error (misfit expected (b :: r))

/-- A boolean. -/
def readBool : Reader Bool := fun bs ↦
  match skipBlank bs with
  | [] => .error .endInValue
  | b :: r =>
    if b == ascii 't' then (readWord ['r', 'u', 'e'] r).map fun x ↦ (true, x.2)
    else if b == ascii 'f' then (readWord ['a', 'l', 's', 'e'] r).map fun x ↦ (false, x.2)
    else .error (misfit "a boolean" (b :: r))

/-- The word `null`, or a value. -/
def readOptional {α : Type} (reader : Reader α) : Reader (Option α) := fun bs ↦
  match skipBlank bs with
  | b :: r =>
    if b == ascii 'n' then (readWord ['u', 'l', 'l'] r).map fun x ↦ (none, x.2)
    else (reader (b :: r)).map fun x ↦ (some x.1, x.2)
  | [] => (reader []).map fun x ↦ (some x.1, x.2)

/-- The colon after a key. -/
def readColon : Reader Unit := fun bs ↦
  match skipBlank bs with
  | [] => .error .endInObject
  | b :: r => if b == ascii ':' then .ok ((), r) else .error .colonExpected

/-- One of several named values: its name as a text, or an object with its name before `null`. -/
def readVariant {α : Type} (variants : List (String × α)) : Reader α := fun bs ↦ do
  let pick (name : String) : Except Issue α :=
    match variants.find? (·.1 == name) with
    | some (_, a) => .ok a
    | none => .error (.misfit (.unknownVariant name (variants.map (·.1))))
  match skipBlank bs with
  | [] => throw .endInValue
  | b :: r =>
    if b == ascii '"' then
      let (name, r) ← readText r
      return (← pick name, r)
    else if b == ascii '{' then
      let (name, r) ← readString "variant identifier" r
      let a ← pick name
      let ((), r) ← readColon r
      let r ←
        match skipBlank r with
        | [] => throw .endInValue
        | n :: r' =>
          if n == ascii 'n' then (readWord ['u', 'l', 'l'] r').map (·.2)
          else throw (misfit "unit" (n :: r'))
      match skipBlank r with
      | [] => throw .endInObject
      | c :: r => if c == ascii '}' then return (a, r) else throw .valueExpected
    else throw .valueExpected

/-! ### Values that are passed over -/

/-- An open bracket or brace. -/
inductive Frame
  | list
  | object
  deriving DecidableEq

/-- What is expected while a value is passed over: a value, or what may follow one. -/
inductive Expect
  | value
  | follow (comma : Bool)

/-- Passes over a value, with the open frames inside it, innermost first. -/
def skipFrames : Nat → Expect → List Frame → List UInt8 → Except Issue (List UInt8)
  | 0, _, _, _ => .error .endInValue
  | fuel + 1, .value, frames, bs => do
    match skipBlank bs with
    | [] => throw .endInValue
    | b :: r =>
      if b == ascii '[' then skipFrames fuel (.follow false) (.list :: frames) r
      else if b == ascii '{' then skipFrames fuel (.follow false) (.object :: frames) r
      else
        let r ←
          if b == ascii 'n' then (readWord ['u', 'l', 'l'] r).map (·.2)
          else if b == ascii 't' then (readWord ['r', 'u', 'e'] r).map (·.2)
          else if b == ascii 'f' then (readWord ['a', 'l', 's', 'e'] r).map (·.2)
          else if b == ascii '-' then skipNumber r
          else if isDigit b then skipNumber (b :: r)
          else if b == ascii '"' then skipText (r.length + 1) r
          else throw .valueExpected
        skipFrames fuel (.follow true) frames r
  | _, .follow _, [], bs => .ok bs
  | fuel + 1, .follow comma, frame :: frames, bs => do
    match skipBlank bs with
    | [] => throw (if frame == .list then .endInList else .endInObject)
    | b :: r =>
      if frame == .list && b == ascii ']' || frame == .object && b == ascii '}' then
        skipFrames fuel (.follow true) frames r
      else if comma && b != ascii ',' then
        throw (if frame == .list then .listEndExpected else .objectEndExpected)
      else
        let r := if comma then r else b :: r
        if frame == .list then skipFrames fuel .value (frame :: frames) r
        else
          match skipBlank r with
          | [] => throw .endInObject
          | q :: r =>
            if q != ascii '"' then throw .keyNotText
            let r ← skipText (r.length + 1) r
            let ((), r) ← readColon r
            skipFrames fuel .value (frame :: frames) r

/-- Passes over a value. -/
def skipValue (bs : List UInt8) : Except Issue (List UInt8) :=
  skipFrames (2 * bs.length + 2) .value [] bs

/-! ### Lists and records -/

/-- Whether a list goes on, before its first or a further element. -/
def nextElement (first : Bool) (bs : List UInt8) : Except Issue (Option (List UInt8)) :=
  match skipBlank bs with
  | [] => .error .endInList
  | b :: r =>
    if b == ascii ']' then .ok none
    else if first then .ok (some (b :: r))
    else if b == ascii ',' then
      match skipBlank r with
      | [] => .error .endInValue
      | c :: r => if c == ascii ']' then .error .trailingComma else .ok (some (c :: r))
    else .error .listEndExpected

/-- The end of a list. -/
def endList (bs : List UInt8) : Except Issue (List UInt8) :=
  match skipBlank bs with
  | [] => .error .endInList
  | b :: r =>
    if b == ascii ']' then .ok r
    else if b == ascii ',' && (skipBlank r).head? == some (ascii ']') then .error .trailingComma
    else .error .trailingCharacters

/-- The elements of a list after its bracket. -/
def readElements {α : Type} (element : Reader α) : Nat → Bool → Reader (List α)
  | 0, _, _ => .error .endInList
  | fuel + 1, first, bs => do
    match ← nextElement first bs with
    | none => return ([], ← endList bs)
    | some r =>
      let (a, r) ← element r
      let (as, r) ← readElements element fuel false r
      return (a :: as, r)

/-- A list. -/
def readList {α : Type} (element : Reader α) : Reader (List α) := fun bs ↦
  match skipBlank bs with
  | [] => .error .endInValue
  | b :: r =>
    if b == ascii '[' then readElements element (r.length + 1) true r
    else .error (misfit "a sequence" (b :: r))

/-- A field of a record: its name and how its value updates what is known of the record. -/
structure Field (σ : Type) where
  name : String
  read : Reader (σ → σ)

/-- A field whose value is read on its own. -/
def Field.of {σ α : Type} (name : String) (reader : Reader α) (set : α → σ → σ) : Field σ :=
  ⟨name, fun bs ↦ (reader bs).map fun r ↦ (set r.1, r.2)⟩

/-- Whether an object goes on, before its first or a further key; the answer is what follows the
key's opening quote, or the object's end. -/
def nextKey (first : Bool) (bs : List UInt8) :
    Except Issue (Option (List UInt8) × List UInt8) :=
  match skipBlank bs with
  | [] => .error .endInObject
  | b :: r =>
    if b == ascii '}' then .ok (none, r)
    else if first then
      if b == ascii '"' then .ok (some r, r) else .error .keyNotText
    else if b == ascii ',' then
      match skipBlank r with
      | [] => .error .endInValue
      | c :: r =>
        if c == ascii '"' then .ok (some r, r)
        else if c == ascii '}' then .error .trailingComma
        else .error .keyNotText
    else .error .objectEndExpected

/-- The fields of an object after its brace and the keys `seen`. -/
def readFields {σ : Type} (fields : List (Field σ)) :
    Nat → Bool → List String → σ → Reader σ
  | 0, _, _, _, _ => .error .endInObject
  | fuel + 1, first, seen, acc, bs => do
    match ← nextKey first bs with
    | (none, r) => return (acc, r)
    | (some r, _) =>
      let (name, r) ← readText r
      match fields.find? (·.name == name) with
      | none =>
        let ((), r) ← readColon r
        let r ← skipValue r
        readFields fields fuel false seen acc r
      | some f =>
        if seen.contains name then throw (.misfit (.duplicateField name))
        let ((), r) ← readColon r
        let (update, r) ← f.read r
        readFields fields fuel false (name :: seen) (update acc) r

/-- The fields of a record written as a list, from the index `n` on. -/
def readOrdered {σ : Type} (expected : String) : List (Field σ) → Nat → σ → Reader σ
  | [], _, acc, bs => do return (acc, ← endList bs)
  | f :: fs, n, acc, bs => do
    match ← nextElement (n == 0) bs with
    | none => throw (.misfit (.invalidLength n expected))
    | some r =>
      let (update, r) ← f.read r
      readOrdered expected fs (n + 1) (update acc) r

/-- A record named `name`, finished from what its fields said. -/
def readRecord {σ ρ : Type} (name : String) (fields : List (Field σ)) (blank : σ)
    (finish : σ → Except Complaint ρ) : Reader ρ := fun bs ↦
  let complete (s : σ) (r : List UInt8) : Except Issue (ρ × List UInt8) :=
    match finish s with
    | .ok a => .ok (a, r)
    | .error c => .error (.misfit c)
  match skipBlank bs with
  | [] => .error .endInValue
  | b :: r => do
    if b == ascii '{' then
      let (s, r) ← readFields fields (r.length + 1) true [] blank r
      complete s r
    else if b == ascii '[' then
      let elements := name ++ " with " ++ toString fields.length ++ " elements"
      let (s, r) ← readOrdered elements fields 0 blank r
      complete s r
    else throw (misfit name (b :: r))

/-- The value of a field that must be there. -/
def required {α : Type} (name : String) : Option α → Except Complaint α
  | some a => .ok a
  | none => .error (.missingField name)

/-- Reads the one value that a text holds. -/
def readWhole {α : Type} (reader : Reader α) (bs : List UInt8) : Except Issue α := do
  let (a, r) ← reader bs
  if (skipBlank r).isEmpty then return a else throw .trailingCharacters

end Crossing.Json
