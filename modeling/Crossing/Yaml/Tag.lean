import Crossing.Text.Utf8

/-!
# Tags

The kind of a node, as the document states it. A tag is a run of octets rather than a text: percent
escapes may spell octets that are the encoding of no text. It ends before the first null octet. The
tags of the core schema have names of their own; a tag that starts with an exclamation mark is
local to the document.
-/

namespace Crossing.Yaml

/-- The octets of a tag. -/
structure Tag where
  octets : List UInt8
  deriving DecidableEq, Repr

namespace Tag

/-- The tag that a run of octets spells, which a null octet ends. -/
def ofOctets (bs : List UInt8) : Tag := ⟨bs.takeWhile (· != 0)⟩

/-- The tag that a text spells. -/
def ofText (s : String) : Tag := ofOctets (Text.Utf8.encode s.toList)

/-- The tag of a kind in the core schema. -/
def core (kind : String) : Tag := ofText ("tag:yaml.org,2002:" ++ kind)

/-- An exclamation mark and nothing else, which names no kind. -/
def bare : Tag := ofText "!"

/-- One tag after another. -/
def append (t u : Tag) : Tag := ⟨t.octets ++ u.octets⟩

/-- Whether a tag has no octets. -/
def isEmpty (t : Tag) : Bool := t.octets.isEmpty

/-- Whether a tag starts with an exclamation mark. -/
def isLocal (t : Tag) : Bool := t.octets.head? == some 0x21

/-- The name that a local tag gives: what follows its mark, or the mark if nothing does. Octets that
encode no text give no name. -/
def name? (t : Tag) : Option String :=
  if t.isLocal then
    (Text.Utf8.decode? (if t == bare then t.octets else t.octets.drop 1)).map String.ofList
  else none

end Tag

end Crossing.Yaml
