import Crossing.Yaml.Token

/-!
# Events of a YAML text

The structure of a text as a flat list: documents, collections and scalars, with tags resolved and
absent nodes filled in as empty plain scalars. The reader is a machine with a stack of goals, each
one saying what may come next; every step produces one event, so the events before a flaw are all
there.
-/

namespace Crossing.Yaml

/-- A scalar: its text, how it was written and its tag. -/
structure Scalar where
  text : String
  style : Style
  tag : Option Tag
  deriving DecidableEq, Repr

/-- One step of a text's structure. -/
inductive Event
  | streamStart
  | streamEnd
  | documentStart
  | documentEnd
  | alias (name : String)
  | scalar (anchor : Option String) (s : Scalar)
  | sequenceStart (anchor : Option String) (tag : Option Tag)
  | sequenceEnd
  | mappingStart (anchor : Option String) (tag : Option Tag)
  | mappingEnd
  deriving DecidableEq, Repr

/-- An absent node. -/
def Event.empty : Event := .scalar none ⟨"", .plain, none⟩

/-- What the reader of events expects next. The flag `first` marks the first item of a collection,
whose opening token is still there. -/
inductive Goal
  | stream
  | firstDocument
  | document
  | documentContent
  | documentEnd
  | node
  | blockSequence (first : Bool)
  | bareSequence
  | blockKey (first : Bool)
  | blockValue
  | flowSequence (first : Bool)
  | pairKey
  | pairValue
  | pairEnd
  | flowKey (first : Bool)
  | flowValue
  | flowNoValue
  | done
  deriving DecidableEq, Repr

/-- The state of reading events: the tokens ahead, what ended them, the goal, the goals after it,
and the tag handles of the document. -/
structure EventReader where
  tokens : List Token
  flaw : Option Malformed
  goal : Goal := .stream
  later : List Goal := []
  handles : List (String × Tag) := []

namespace EventReader

/-- The next token. -/
def peek (r : EventReader) : Except Malformed Token :=
  match r.tokens with
  | t :: _ => .ok t
  | [] => .error (r.flaw.getD .tooLong)

/-- Steps over the next token. -/
def skip (r : EventReader) : EventReader := { r with tokens := r.tokens.drop 1 }

/-- Goes back to the goal below. -/
def pop (r : EventReader) : EventReader :=
  { r with goal := r.later.headD .done, later := r.later.drop 1 }

/-- Sets a goal to come back to. -/
def push (r : EventReader) (g : Goal) : EventReader := { r with later := g :: r.later }

/-- Changes the goal. -/
def aim (r : EventReader) (g : Goal) : EventReader := { r with goal := g }

/-- The handles that every document knows. -/
def standardHandles : List (String × Tag) := [("!", .bare), ("!!", .core "")]

/-- Reads the directives of a document. -/
def directives : Nat → EventReader → Bool → Except Malformed EventReader
  | 0, _, _ => .error .tooLong
  | fuel + 1, r, versioned => do
    match ← r.peek with
    | .version major minor =>
      if versioned then throw .duplicateDirective
      if major != 1 || (minor != 1 && minor != 2) then throw .incompatibleVersion
      directives fuel r.skip true
    | .tagDirective handle expansion =>
      if r.handles.any (·.1 == handle) then throw .duplicateDirective
      directives fuel { r.skip with handles := r.handles ++ [(handle, expansion)] } versioned
    | _ => return { r with handles := r.handles ++ standardHandles }

/-- Steps over end marks before a document. -/
def skipEnds (r : EventReader) : EventReader :=
  { r with tokens := r.tokens.dropWhile (· == .documentEnd) }

/-- Whether a token starts a document in so many words. -/
def isDocumentToken : Token → Bool
  | .version .. | .tagDirective .. | .documentStart | .streamEnd => true
  | _ => false

/-- The start of a document, or the end of the stream. Only the first document may do
without marks. -/
def readDocument (r : EventReader) (first : Bool) : Except Malformed (Event × EventReader) := do
  let r := if first then r else r.skipEnds
  let t ← r.peek
  if first && !isDocumentToken t then
    return (.documentStart,
      { (r.push .documentEnd).aim .node with handles := r.handles ++ standardHandles })
  else if t == .streamEnd then return (.streamEnd, r.skip.aim .done)
  else
    let r ← directives (r.tokens.length + 1) r false
    if (← r.peek) != .documentStart then throw .documentStartExpected
    return (.documentStart, (r.skip.push .documentEnd).aim .documentContent)

/-- The properties of a node: an anchor and a tag in either order. -/
def properties (r : EventReader) :
    Except Malformed (Option String × Option (String × Tag) × EventReader) := do
  match ← r.peek with
  | .anchor a =>
    let r := r.skip
    match ← r.peek with
    | .tag h s => return (some a, some (h, s), r.skip)
    | _ => return (some a, none, r)
  | .tag h s =>
    let r := r.skip
    match ← r.peek with
    | .anchor a => return (some a, some (h, s), r.skip)
    | _ => return (none, some (h, s), r)
  | _ => return (none, none, r)

/-- A tag in full: its handle is replaced by what the document says it stands for. -/
def resolveTag (r : EventReader) : Option (String × Tag) → Except Malformed (Option Tag)
  | none => .ok none
  | some (handle, suffix) =>
    if handle.isEmpty then .ok (some suffix)
    else match r.handles.find? (·.1 == handle) with
      | some (_, expansion) => .ok (some (expansion.append suffix))
      | none => .error .undefinedTagHandle

/-- A node. In block context it may be a block collection, after a key or a value also a sequence
that is not indented. -/
def readNode (r : EventReader) (block bare : Bool) : Except Malformed (Event × EventReader) := do
  match ← r.peek with
  | .alias name => return (.alias name, r.pop.skip)
  | _ =>
    let (anchor, written, r) ← r.properties
    let tag ← r.resolveTag written
    match ← r.peek with
    | .scalar text style => return (.scalar anchor ⟨text, style, tag⟩, r.pop.skip)
    | .flowSequenceStart => return (.sequenceStart anchor tag, r.aim (.flowSequence true))
    | .flowMappingStart => return (.mappingStart anchor tag, r.aim (.flowKey true))
    | t =>
      if bare && t == .blockEntry then return (.sequenceStart anchor tag, r.aim .bareSequence)
      else if block && t == .blockSequenceStart then
        return (.sequenceStart anchor tag, r.aim (.blockSequence true))
      else if block && t == .blockMappingStart then
        return (.mappingStart anchor tag, r.aim (.blockKey true))
      else if anchor.isSome || tag.isSome then
        return (.scalar anchor ⟨"", .plain, tag⟩, r.pop)
      else throw .nodeExpected

/-- An absent node, after which the reader goes on with `g`. -/
def readEmpty (r : EventReader) (g : Goal) : Event × EventReader := (.empty, r.aim g)

/-- An item of a block sequence, or its end. -/
def readBlockSequence (r : EventReader) : Except Malformed (Event × EventReader) := do
  match ← r.peek with
  | .blockEntry =>
    let r := r.skip
    match ← r.peek with
    | .blockEntry | .blockEnd => return r.readEmpty (.blockSequence false)
    | _ => (r.push (.blockSequence false)).readNode true false
  | .blockEnd => return (.sequenceEnd, r.pop.skip)
  | _ => throw .entryExpected

/-- An item of a sequence that is not indented, or its end. -/
def readBareSequence (r : EventReader) : Except Malformed (Event × EventReader) := do
  match ← r.peek with
  | .blockEntry =>
    let r := r.skip
    match ← r.peek with
    | .blockEntry | .key | .value | .blockEnd => return r.readEmpty .bareSequence
    | _ => (r.push .bareSequence).readNode true false
  | _ => return (.sequenceEnd, r.pop)

/-- A key of a block mapping, or the mapping's end. -/
def readBlockKey (r : EventReader) : Except Malformed (Event × EventReader) := do
  match ← r.peek with
  | .key =>
    let r := r.skip
    match ← r.peek with
    | .key | .value | .blockEnd => return r.readEmpty .blockValue
    | _ => (r.push .blockValue).readNode true true
  | .blockEnd => return (.mappingEnd, r.pop.skip)
  | _ => throw .keyExpected

/-- A value of a block mapping. -/
def readBlockValue (r : EventReader) : Except Malformed (Event × EventReader) := do
  match ← r.peek with
  | .value =>
    let r := r.skip
    match ← r.peek with
    | .key | .value | .blockEnd => return r.readEmpty (.blockKey false)
    | _ => (r.push (.blockKey false)).readNode true true
  | _ => return r.readEmpty (.blockKey false)

/-- Steps over the comma that must divide the items between brackets. -/
def separator (r : EventReader) (first : Bool) : Except Malformed EventReader := do
  if first then return r
  match ← r.peek with
  | .flowEntry => return r.skip
  | _ => throw .separatorExpected

/-- An item of a sequence in brackets, or its end. A key there starts a mapping of one pair. -/
def readFlowSequence (r : EventReader) (first : Bool) : Except Malformed (Event × EventReader) := do
  if (← r.peek) == .flowSequenceEnd then return (.sequenceEnd, r.pop.skip)
  let r ← r.separator first
  match ← r.peek with
  | .key => return (.mappingStart none none, r.skip.aim .pairKey)
  | .flowSequenceEnd => return (.sequenceEnd, r.pop.skip)
  | _ => (r.push (.flowSequence false)).readNode false false

/-- The key of a pair in a sequence; where it is absent, the token in its place is passed over. -/
def readPairKey (r : EventReader) : Except Malformed (Event × EventReader) := do
  match ← r.peek with
  | .value | .flowEntry | .flowSequenceEnd => return r.skip.readEmpty .pairValue
  | _ => (r.push .pairValue).readNode false false

/-- The value of a pair in a sequence. -/
def readPairValue (r : EventReader) : Except Malformed (Event × EventReader) := do
  match ← r.peek with
  | .value =>
    let r := r.skip
    match ← r.peek with
    | .flowEntry | .flowSequenceEnd => return r.readEmpty .pairEnd
    | _ => (r.push .pairEnd).readNode false false
  | _ => return r.readEmpty .pairEnd

/-- A key of a mapping in braces, or the mapping's end. -/
def readFlowKey (r : EventReader) (first : Bool) : Except Malformed (Event × EventReader) := do
  if (← r.peek) == .flowMappingEnd then return (.mappingEnd, r.pop.skip)
  let r ← r.separator first
  match ← r.peek with
  | .key =>
    let r := r.skip
    match ← r.peek with
    | .value | .flowEntry | .flowMappingEnd => return r.readEmpty .flowValue
    | _ => (r.push .flowValue).readNode false false
  | .flowMappingEnd => return (.mappingEnd, r.pop.skip)
  | _ => (r.push .flowNoValue).readNode false false

/-- A value of a mapping in braces. -/
def readFlowValue (r : EventReader) : Except Malformed (Event × EventReader) := do
  match ← r.peek with
  | .value =>
    let r := r.skip
    match ← r.peek with
    | .flowEntry | .flowMappingEnd => return r.readEmpty (.flowKey false)
    | _ => (r.push (.flowKey false)).readNode false false
  | _ => return r.readEmpty (.flowKey false)

/-- The next event. -/
def step (r : EventReader) : Except Malformed (Event × EventReader) :=
  match r.goal with
  | .stream => do
    let _ ← r.peek
    return (.streamStart, r.skip.aim .firstDocument)
  | .firstDocument => r.readDocument true
  | .document => r.readDocument false
  | .documentContent => do
    match ← r.peek with
    | .version .. | .tagDirective .. | .documentStart | .documentEnd | .streamEnd =>
      return (.empty, r.pop)
    | _ => r.readNode true false
  | .documentEnd => do
    let t ← r.peek
    let r := if t == .documentEnd then r.skip else r
    return (.documentEnd, { r.aim .document with handles := [] })
  | .node => r.readNode true false
  | .blockSequence first => (if first then r.skip else r).readBlockSequence
  | .bareSequence => r.readBareSequence
  | .blockKey first => (if first then r.skip else r).readBlockKey
  | .blockValue => r.readBlockValue
  | .flowSequence first => (if first then r.skip else r).readFlowSequence first
  | .pairKey => r.readPairKey
  | .pairValue => r.readPairValue
  | .pairEnd => do
    let _ ← r.peek
    return (.mappingEnd, r.aim (.flowSequence false))
  | .flowKey first => (if first then r.skip else r).readFlowKey first
  | .flowValue => r.readFlowValue
  | .flowNoValue => do
    let _ ← r.peek
    return r.readEmpty (.flowKey false)
  | .done => .error .tooLong

/-- Reads events until the end of the stream or the first flaw. -/
def run : Nat → EventReader → Partial Event
  | 0, _ => ⟨[], some .tooLong⟩
  | fuel + 1, r =>
    if r.goal == .done then ⟨[], none⟩
    else match r.step with
      | .error e => ⟨[], some e⟩
      | .ok (e, r) =>
        let rest := run fuel r
        ⟨e :: rest.items, rest.flaw⟩

end EventReader

/-- The events of a list of tokens. A token gives rise to at most four events. -/
def Event.ofTokens (ts : Partial Token) : Partial Event :=
  EventReader.run (4 * ts.items.length + 8) { tokens := ts.items, flaw := ts.flaw }

end Crossing.Yaml
