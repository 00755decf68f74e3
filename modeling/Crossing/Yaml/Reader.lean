import Crossing.Yaml.Document

/-!
# Reading a document into records

Readers take the items of a document in order and stop at the first thing that does not fit, so a
misfit before a flaw of the text is what is reported. A record is read from a mapping: its keys must
be known and distinct, and each value updates the record. An alias is read as the node that it
names.
-/

namespace Crossing.Yaml

open Schema (Found Complaint Dialect)

/-- Where in a document a value stands. -/
inductive Path
  | root
  | field (parent : Path) (key : String)
  | item (parent : Path) (index : Nat)
  | unnamed (parent : Path)
  deriving DecidableEq, Repr

namespace Path

/-- A path as text; the root has none. -/
def toText : Path → String
  | root => ""
  | field root k => k
  | field p k => p.toText ++ "." ++ k
  | item p i => p.toText ++ "[" ++ toString i ++ "]"
  | unnamed root => "?"
  | unnamed p => p.toText ++ ".?"

end Path

/-- Why a text could not be read. -/
inductive Issue
  | malformed (flaw : Malformed)
  | ended
  | severalDocuments
  | misfit (path : Path) (complaint : Complaint)

/-- How complaints about a YAML document spell values. -/
def dialect : Dialect := ⟨"unit value", .cited⟩

/-- An issue in words. -/
def Issue.message : Issue → String
  | malformed flaw => flaw.message
  | ended => "EOF while parsing a value"
  | severalDocuments =>
    "deserializing from YAML containing more than one document is not supported"
  | misfit path c =>
    let p := path.toText
    (if p.isEmpty then "" else p ++ ": ") ++ c.message dialect

/-- A way to read a value that stands at a path of a document: the value and the items after it. -/
abbrev Reader (α : Type) := Document → Path → List Item → Except Issue (α × List Item)

/-- The end of a document where more was expected. -/
def Document.atEnd (d : Document) : Issue :=
  match d.flaw with
  | some flaw => .malformed flaw
  | none => .ended

/-- Reads the node that comes next, or the one that an alias names. -/
def atNode {α : Type} (read : Item → List Item → Except Issue (α × List Item)) (d : Document) :
    List Item → Except Issue (α × List Item)
  | [] => .error d.atEnd
  | .alias number :: rest =>
    match d.target number with
    | [] => .error d.atEnd
    | i :: inner => (read i inner).map fun r ↦ (r.1, rest)
  | i :: rest => read i rest

/-- The issue that an item is not what was expected at a path. -/
def Item.misfit (i : Item) (path : Path) (expected : String) : Issue :=
  match i with
  | .scalar s => .misfit path (s.misfit expected)
  | .sequenceStart _ => .misfit path (.invalidType .sequence expected)
  | .mappingStart _ => .misfit path (.invalidType .map expected)
  | _ => .ended

/-- Whether an item stands for an empty collection: nothing, or a plain scalar without text. -/
def Item.isBare : Item → Bool
  | .nothing => true
  | .scalar s => s.text.isEmpty && s.style == .plain
  | _ => false

/-! ### Scalars -/

/-- The text of any scalar. -/
def readText (expected : String) : Reader String := fun d path ↦
  atNode (fun i rest ↦
    match i with
    | .scalar s => .ok (s.text, rest)
    | i => .error (i.misfit path expected)) d

/-- An unsigned integer of 64 bits: a plain scalar, or a literal block tagged as an integer. -/
def readUInt64 (expected : String) : Reader UInt64 := fun d path ↦
  atNode (fun i rest ↦
    match i with
    | .scalar s =>
      let taken := s.style == .plain || (s.style == .literal && s.tag == some (.core "int"))
      match if taken then uint64? s.text else none with
      | some n => .ok (n, rest)
      | none => .error (i.misfit path expected)
    | i => .error (i.misfit path expected)) d

/-- A text that may be absent: a plain null or nothing. A misfit is reported at `outer`. -/
def readOptionalText (outer : Path) (expected : String) : Reader (Option String) :=
  fun d path items ↦
    let present (items : List Item) : Except Issue (Option String × List Item) :=
      (readText expected d path items).map fun r ↦ (some r.1, r.2)
    atNode (fun i rest ↦
      match i with
      | .nothing => .ok (none, rest)
      | .scalar s =>
        if s.style != .plain then present (i :: rest)
        else match s.tag with
          | none =>
            if s.text.isEmpty || isNull s.text then .ok (none, rest) else present (i :: rest)
          | some _ =>
            if s.tag == some (.core "null") then
              if isNull s.text then .ok (none, rest)
              else .error (.misfit outer (.invalidValue (.text s.text) "null"))
            else present (i :: rest)
      | i => present (i :: rest)) d items

/-! ### Collections -/

/-- The elements of a sequence from the index `n` on. -/
def readElements {α : Type} (element : Reader α) (d : Document) (path : Path) :
    Nat → Nat → List Item → Except Issue (List α × List Item)
  | 0, _, _ => .error d.atEnd
  | fuel + 1, n, items =>
    match items with
    | [] => .error d.atEnd
    | .sequenceEnd :: rest => .ok ([], rest)
    | items => do
      let (a, rest) ← element d (.item path n) items
      let (as, rest) ← readElements element d path fuel (n + 1) rest
      return (a :: as, rest)

/-- A sequence; an empty plain scalar is an empty one. -/
def readSequence {α : Type} (element : Reader α) : Reader (List α) := fun d path ↦
  atNode (fun i rest ↦
    match i with
    | .sequenceStart _ => readElements element d path (rest.length + 1) 0 rest
    | i => if i.isBare then .ok ([], rest) else .error (i.misfit path "a sequence")) d

/-- A field of a record: its name and how its value, read at a path inside the record's, updates the
record. -/
structure Field (σ : Type) where
  name : String
  read : Path → Reader (σ → σ)

/-- A field whose value is read on its own. -/
def Field.of {σ α : Type} (name : String) (reader : Reader α) (set : α → σ → σ) : Field σ :=
  ⟨name, fun _ d path items ↦ (reader d path items).map fun r ↦ (set r.1, r.2)⟩

/-- The path of the value after a key. -/
def Item.valuePath (key : Item) (path : Path) : Path :=
  match key with
  | .scalar s => .field path s.text
  | _ => .unnamed path

/-- The fields of a record up to the end of its mapping, after the keys `seen`. -/
def readFields {σ : Type} (fields : List (Field σ)) (d : Document) (path : Path) :
    Nat → List String → σ → List Item → Except Issue (σ × List Item)
  | 0, _, _, _ => .error d.atEnd
  | fuel + 1, seen, acc, items =>
    match items with
    | [] => .error d.atEnd
    | .mappingEnd :: rest => .ok (acc, rest)
    | key :: rest => do
      let (name, rest) ← readText "field identifier" d path (key :: rest)
      match fields.find? (·.name == name) with
      | none => throw (.misfit path (.unknownField name (fields.map (·.name))))
      | some f =>
        if seen.contains name then throw (.misfit path (.duplicateField name))
        let (update, rest) ← f.read path d (key.valuePath path) rest
        readFields fields d path fuel (name :: seen) (update acc) rest

/-- A record: a mapping of its fields, each at most once; an empty plain scalar is an
empty mapping. -/
def readRecord {σ : Type} (expected : String) (fields : List (Field σ)) (blank : σ) : Reader σ :=
  fun d path ↦
    atNode (fun i rest ↦
      match i with
      | .mappingStart _ => readFields fields d path (rest.length + 1) [] blank rest
      | i => if i.isBare then .ok (blank, rest) else .error (i.misfit path expected)) d

/-- One of several named values: a scalar that is its name, or a tag that is its name on nothing. -/
def readVariant {α : Type} (variants : List (String × α)) : Reader α := fun d path ↦
  let pick (name : String) : Except Issue α :=
    match variants.find? (·.1 == name) with
    | some (_, a) => .ok a
    | none => .error (.misfit path (.unknownVariant name (variants.map (·.1))))
  let untagged : String := "a YAML tag starting with '!'"
  atNode (fun i rest ↦
    match i with
    | .scalar s =>
      match s.tag.bind Tag.name? with
      | none => (pick s.text).map (·, rest)
      | some name => do
        let a ← pick name
        if s.style == .plain && (s.text.isEmpty || isNull s.text) then return (a, rest)
        else throw (.misfit path (.invalidValue (.text s.text) "null"))
    | .sequenceStart tag => do
      match tag.bind Tag.name? with
      | none => throw (i.misfit path untagged)
      | some name =>
        let _ ← pick name
        throw (i.misfit path "unit")
    | .mappingStart tag => do
      match tag.bind Tag.name? with
      | none => throw (i.misfit path untagged)
      | some name =>
        let _ ← pick name
        throw (i.misfit path "unit")
    | _ => .error .ended) d

/-- Reads the one value that a text holds: nothing may be wrong after it, and no document may
follow. -/
def readWhole {α : Type} (reader : Reader α) (text : String) : Except Issue α := do
  let d := Document.ofText text
  let (a, _) ← reader d .root d.items
  match d.flaw with
  | some flaw => throw (.malformed flaw)
  | none => if d.more then throw .severalDocuments else return a

end Crossing.Yaml
