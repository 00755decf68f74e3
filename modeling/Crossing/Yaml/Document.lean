import Crossing.Yaml.Token.Stream
import Crossing.Yaml.Scalar

/-!
# Documents

The first document of a text: its nodes as a flat list of items, where its anchors are, the flaw
that ended it and whether anything follows it. Anchors are numbered by the distinct names before
them, so a name that is used again may share its number with the next new name; an alias means the
last node with its number.
-/

namespace Crossing.Yaml

/-- A piece of a document. -/
inductive Item
  | nothing
  | alias (number : Nat)
  | scalar (s : Scalar)
  | sequenceStart (tag : Option Tag)
  | sequenceEnd
  | mappingStart (tag : Option Tag)
  | mappingEnd
  deriving DecidableEq, Repr

/-- The first document of a text. -/
structure Document where
  items : List Item
  anchors : List (Nat × Nat)
  flaw : Option Malformed
  more : Bool

/-- What is known while a document is put together: the items in reverse, the numbers of the anchor
names, and the places of the numbers, latest first. -/
structure Assembly where
  items : List Item := []
  count : Nat := 0
  names : List (String × Nat) := []
  anchors : List (Nat × Nat) := []

namespace Assembly

/-- Adds an item, and its anchor if it has one. -/
def add (a : Assembly) (anchor : Option String) (i : Item) : Assembly :=
  let a :=
    match anchor with
    | none => a
    | some name =>
      let number := a.names.length
      { a with
        names := (name, number) :: a.names.filter (·.1 != name)
        anchors := (number, a.count) :: a.anchors }
  { a with items := i :: a.items, count := a.count + 1 }

/-- The document put together so far. -/
def document (a : Assembly) (flaw : Option Malformed) (more : Bool) : Document :=
  ⟨a.items.reverse, a.anchors, flaw, more⟩

/-- Puts the first document together from events. A stream without a document counts as one with
nothing in it. -/
def ofEvents (flaw : Option Malformed) : List Event → Assembly → Document
  | [], a => a.document (some (flaw.getD .tooLong)) false
  | e :: es, a =>
    match e with
    | .streamStart | .documentStart => ofEvents flaw es a
    | .streamEnd =>
      (if a.items.isEmpty then a.add none .nothing else a).document none false
    | .documentEnd => a.document none (es.head? != some .streamEnd)
    | .alias name =>
      match a.names.find? (·.1 == name) with
      | some (_, number) => ofEvents flaw es (a.add none (.alias number))
      | none => a.document (some .unknownAnchor) false
    | .scalar anchor s => ofEvents flaw es (a.add anchor (.scalar s))
    | .sequenceStart anchor tag => ofEvents flaw es (a.add anchor (.sequenceStart tag))
    | .sequenceEnd => ofEvents flaw es (a.add none .sequenceEnd)
    | .mappingStart anchor tag => ofEvents flaw es (a.add anchor (.mappingStart tag))
    | .mappingEnd => ofEvents flaw es (a.add none .mappingEnd)

end Assembly

namespace Document

/-- The first document of a text. -/
def ofText (text : String) : Document :=
  let events := Event.ofTokens (Token.scan text.toList)
  Assembly.ofEvents events.flaw events.items {}

/-- The items from the node with an anchor number on. -/
def target (d : Document) (number : Nat) : List Item :=
  match d.anchors.find? (·.1 == number) with
  | some (_, place) => d.items.drop place
  | none => []

end Document

end Crossing.Yaml
