import Crossing.Yaml.Token.Text

/-!
# The tokens of a text

Indentation and simple keys. A node that starts where a key may stand is a *pending key* until a
colon follows it on the same line within 1024 octets; the colon then puts a `key` token, and
perhaps the start of a block mapping, before the node's first token. So tokens wait in a queue, and
the front one is released only when no pending key can still insert something before it. Released
tokens never change, which is why what precedes a flaw stays readable.
-/

namespace Crossing.Yaml

/-- A node that may turn out to be a key: the number of its first token, whether only a key can
stand there, and where it starts. -/
structure PendingKey where
  token : Nat
  required : Bool
  offset : Nat
  line : Nat
  column : Nat

/-- The state of reading tokens. `keys` has one entry for each open bracket and one for the block
level, the innermost first; `indents` are the columns of the open block collections, innermost
first. No more than `bound` characters are left. -/
structure Lexer where
  cursor : Cursor
  bound : Nat
  started : Bool := false
  finished : Bool := false
  indents : List Nat := []
  keyAllowed : Bool := false
  keys : List (Option PendingKey) := []
  released : Nat := 0
  queue : List Token := []

namespace Lexer

/-- The column of the innermost block collection. -/
def indent (l : Lexer) : Option Nat := l.indents.head?

/-- Whether a bracket is open. -/
def inFlow (l : Lexer) : Bool := 1 < l.keys.length

/-- Puts a token at the end of the queue. -/
def push (l : Lexer) (t : Token) : Lexer := { l with queue := l.queue ++ [t] }

/-- Puts a token before the one with a given number. -/
def insert (l : Lexer) (number : Nat) (t : Token) : Lexer :=
  { l with queue := l.queue.take (number - l.released) ++ t :: l.queue.drop (number - l.released) }

/-- Steps over `n` characters. -/
def skip (l : Lexer) (n : Nat) : Lexer := { l with cursor := l.cursor.skip n }

/-! ### Pending keys -/

/-- Whether a pending key is out of reach of a colon here. -/
def isStale (l : Lexer) (k : PendingKey) : Bool :=
  k.line < l.cursor.line || k.offset + 1024 < l.cursor.offset

/-- Gives up the pending keys that are out of reach; one that had to be a key is a flaw. -/
def dropStale (l : Lexer) : Except Malformed Lexer :=
  if l.keys.any (·.any fun k ↦ l.isStale k && k.required) then .error .missingColon
  else .ok { l with keys := l.keys.map (·.filter fun k ↦ !l.isStale k) }

/-- Gives up the pending key of the innermost level. -/
def dropKey (l : Lexer) : Except Malformed Lexer :=
  match l.keys with
  | [] => .ok l
  | k :: ks =>
    if k.any (·.required) then .error .missingColon else .ok { l with keys := none :: ks }

/-- Notes that the next token may start a key. -/
def noteKey (l : Lexer) : Except Malformed Lexer :=
  if l.keyAllowed then do
    let key : PendingKey :=
      { token := l.released + l.queue.length
        required := !l.inFlow && l.indent == some l.cursor.column
        offset := l.cursor.offset
        line := l.cursor.line
        column := l.cursor.column }
    let l ← l.dropKey
    return { l with keys := some key :: l.keys.tail }
  else .ok l

/-! ### Block collections -/

/-- Opens a block collection at a column right of the innermost one, before the token `number` or at
the end of the queue. -/
def openBlock (l : Lexer) (column : Nat) (number : Option Nat) (t : Token) : Lexer :=
  if l.inFlow || l.indent.any (column ≤ ·) then l
  else
    let l := { l with indents := column :: l.indents }
    match number with
    | some n => l.insert n t
    | none => l.push t

/-- Closes the block collections right of a column, or all of them. -/
def closeBlocks (l : Lexer) (column : Option Nat) : Lexer :=
  if l.inFlow then l
  else
    let closing := l.indents.takeWhile fun i ↦ column.all (· < i)
    { l with
      indents := l.indents.drop closing.length
      queue := l.queue ++ closing.map fun _ ↦ Token.blockEnd }

/-! ### White space -/

/-- Steps over spaces, comments and line breaks. Outside brackets a new line may start a key, and
tabs are white space only where no key may start. -/
def skipBlank : Nat → Lexer → Lexer
  | 0, l => l
  | fuel + 1, l =>
    let c := l.cursor
    let c := if c.column == 0 && c.peek 0 == some '\uFEFF' then c.skip 1 else c
    let tabs := l.inFlow || !l.keyAllowed
    let c := (c.skipWhile fun x ↦ x == ' ' || tabs && x == '\t').skipComment
    if (c.peek 0).any isBreak then
      skipBlank fuel
        { l with cursor := c.skipLine, keyAllowed := l.keyAllowed || !l.inFlow }
    else { l with cursor := c }

/-! ### Directives, anchors and tags -/

/-- A run of at most nine digits. -/
def versionNumber (c : Cursor) : Except Malformed (Nat × Cursor) :=
  let (digits, c) := c.span Char.isDigit
  if digits.isEmpty || 9 < digits.length then .error .directiveSyntax
  else .ok (digits.foldl (fun n d ↦ 10 * n + (d.toNat - '0'.toNat)) 0, c)

/-- The characters of a tag apart from the percent sign; `wide` adds the ones that only a tag in
angle brackets or a directive may hold. -/
def isTagCharacter (wide : Bool) (c : Char) : Bool :=
  isWord c || wide && [',', '[', ']'].contains c ||
    [';', '/', '?', ':', '@', '&', '=', '+', '$', '.', '!', '~', '*', '\'', '(', ')'].contains c

/-- The octets of `n` percent escapes after the first. -/
def trailingOctets : Nat → Cursor → Except Malformed (List UInt8 × Cursor)
  | 0, c => .ok ([], c)
  | n + 1, c =>
    match c.rest with
    | '%' :: a :: b :: _ =>
      match digits? 16 [a, b] with
      | none => .error .tagEscape
      | some v =>
        if 0x80 ≤ v && v < 0xC0 then do
          let (bs, c) ← trailingOctets n (c.skip 3)
          return (v.toUInt8 :: bs, c)
        else .error .tagEscape
    | _ => .error .tagEscape

/-- The octets of one character written as percent escapes. Their number must fit the first of them,
but they need not encode a character. -/
def tagEscape (c : Cursor) : Except Malformed (List UInt8 × Cursor) :=
  match c.rest with
  | '%' :: a :: b :: _ =>
    match digits? 16 [a, b] with
    | none => .error .tagEscape
    | some v => do
      let more ←
        if v < 0x80 then .ok 0
        else if 0xC0 ≤ v && v < 0xE0 then .ok 1
        else if 0xE0 ≤ v && v < 0xF0 then .ok 2
        else if 0xF0 ≤ v && v < 0xF8 then .ok 3
        else .error .tagEscape
      let (bs, c) ← trailingOctets more (c.skip 3)
      return (v.toUInt8 :: bs, c)
  | _ => .error .tagEscape

/-- The octets of a tag from here on. -/
def tagOctets (wide : Bool) : Nat → Cursor → Except Malformed (List UInt8 × Cursor)
  | 0, c => .ok ([], c)
  | fuel + 1, c =>
    match c.peek 0 with
    | some '%' => do
      let (x, c) ← tagEscape c
      let (r, c) ← tagOctets wide fuel c
      return (x ++ r, c)
    | some x =>
      if isTagCharacter wide x then do
        let (r, c) ← tagOctets wide fuel (c.skip 1)
        return (Text.Utf8.encodeChar x ++ r, c)
      else .ok ([], c)
    | none => .ok ([], c)

/-- A tag, which may be without octets here only if it goes on from a word. -/
def tagAfter (wide : Bool) (word : Option (List Char)) (c : Cursor) :
    Except Malformed (Tag × Cursor) := do
  let run := c.rest.takeWhile fun x ↦ x == '%' || isTagCharacter wide x
  let (t, c') ← tagOctets wide run.length c
  if word.isNone && c'.offset == c.offset then throw .tagSyntax
  return (.ofOctets (Text.Utf8.encode (word.getD []) ++ t), c')

/-- What may be a tag handle: an exclamation mark, a word, perhaps a second mark. -/
def tagHandle (c : Cursor) : Except Malformed (List Char × Cursor) :=
  if c.peek 0 == some '!' then
    let (word, c) := (c.skip 1).span isWord
    if c.peek 0 == some '!' then .ok ('!' :: word ++ ['!'], c.skip 1) else .ok ('!' :: word, c)
  else .error .tagSyntax

/-- A directive after its percent sign, with the rest of its line. -/
def directive (c : Cursor) : Except Malformed (Token × Cursor) := do
  let (name, c) := c.span isWord
  if name.isEmpty || !isGap (c.peek 0) then throw .directiveSyntax
  let (t, c) ←
    if String.ofList name == "YAML" then do
      let (major, c) ← versionNumber (c.skipWhile isSpace)
      if c.peek 0 != some '.' then throw .directiveSyntax
      let (minor, c) ← versionNumber (c.skip 1)
      pure (Token.version major minor, c)
    else if String.ofList name == "TAG" then do
      let (handle, c) ← tagHandle (c.skipWhile isSpace)
      if handle.getLast? != some '!' then throw .directiveSyntax
      if !(c.peek 0).any isSpace then throw .directiveSyntax
      let (expansion, c) ← tagAfter true none (c.skipWhile isSpace)
      if !isGap (c.peek 0) then throw .directiveSyntax
      pure (Token.tagDirective (String.ofList handle) expansion, c)
    else throw .unknownDirective
  let c := (c.skipWhile isSpace).skipComment
  if !isLineEnd (c.peek 0) then throw .directiveSyntax
  return (t, c.skipLine)

/-- The name of an anchor or an alias after its sign. -/
def anchorName (c : Cursor) : Except Malformed (String × Cursor) := do
  let (name, c) := c.span isWord
  c.ensure 1
  let ends := isGap (c.peek 0) ||
    (c.peek 0).any fun x ↦ ['?', ':', ',', ']', '}', '%', '@', '\x60'].contains x
  if name.isEmpty || !ends then throw .anchorName else return (String.ofList name, c)

/-- A tag, of the form `!<text>`, `!handle!suffix` or `!suffix`. -/
def tagToken (inFlow : Bool) (c : Cursor) : Except Malformed (Token × Cursor) := do
  let (t, c) ←
    if c.peek 1 == some '<' then do
      let (suffix, c) ← tagAfter true none (c.skip 2)
      if c.peek 0 != some '>' then throw .tagSyntax
      pure (Token.tag "" suffix, c.skip 1)
    else do
      let (handle, c) ← tagHandle c
      if 1 < handle.length && handle.getLast? == some '!' then
        let (suffix, c) ← tagAfter false none c
        pure (Token.tag (String.ofList handle) suffix, c)
      else
        let (suffix, c) ← tagAfter false (some (handle.drop 1)) c
        pure (if suffix.isEmpty then .tag "" .bare else .tag "!" suffix, c)
  c.ensure 1
  if !(isGap (c.peek 0) || inFlow && c.peek 0 == some ',') then throw .tagSyntax
  return (t, c)

/-! ### One more token -/

/-- Ends the block collections and the pending key of the whole text, as a document mark, a
directive and the end of the text do. -/
def endDocument (l : Lexer) : Except Malformed Lexer := do
  let l ← (l.closeBlocks none).dropKey
  return { l with keyAllowed := false }

/-- The end of the text. -/
def fetchEnd (l : Lexer) : Except Malformed Lexer := do
  let c := l.cursor
  let c := if c.column == 0 then c else { c with column := 0, line := c.line + 1 }
  let l ← { l with cursor := c }.endDocument
  return { l.push .streamEnd with finished := true }

/-- An opening bracket. -/
def fetchOpen (l : Lexer) (t : Token) : Except Malformed Lexer := do
  let l ← l.noteKey
  return ({ l with keys := none :: l.keys, keyAllowed := true }.skip 1).push t

/-- A closing bracket. -/
def fetchClose (l : Lexer) (t : Token) : Except Malformed Lexer := do
  let l ← l.dropKey
  let keys := if l.inFlow then l.keys.tail else l.keys
  return ({ l with keys, keyAllowed := false }.skip 1).push t

/-- A comma between brackets. -/
def fetchEntry (l : Lexer) : Except Malformed Lexer := do
  let l ← l.dropKey
  return ({ l with keyAllowed := true }.skip 1).push .flowEntry

/-- The dash of a block sequence. -/
def fetchDash (l : Lexer) : Except Malformed Lexer := do
  if !l.inFlow && !l.keyAllowed then throw .misplacedEntry
  let l ← (l.openBlock l.cursor.column none .blockSequenceStart).dropKey
  return ({ l with keyAllowed := true }.skip 1).push .blockEntry

/-- The question mark before a key. -/
def fetchKey (l : Lexer) : Except Malformed Lexer := do
  if !l.inFlow && !l.keyAllowed then throw .misplacedKey
  let l ← (l.openBlock l.cursor.column none .blockMappingStart).dropKey
  return ({ l with keyAllowed := !l.inFlow }.skip 1).push .key

/-- The colon before a value. It turns the pending key of its level into a key. -/
def fetchValue (l : Lexer) : Except Malformed Lexer :=
  match l.keys.head?.join with
  | some k =>
    let l := l.insert k.token .key
    let l := l.openBlock k.column (some k.token) .blockMappingStart
    .ok (({ l with keys := none :: l.keys.tail, keyAllowed := false }.skip 1).push .value)
  | none =>
    if !l.inFlow && !l.keyAllowed then .error .misplacedValue
    else
      let l := l.openBlock l.cursor.column none .blockMappingStart
      .ok (({ l with keyAllowed := !l.inFlow }.skip 1).push .value)

/-- A token that may start a key and after which none may. -/
def fetchNode (l : Lexer) (read : Cursor → Except Malformed (Token × Cursor)) :
    Except Malformed Lexer := do
  let l ← l.noteKey
  let (t, cursor) ← read l.cursor
  return { l with cursor, keyAllowed := false }.push t

/-- A quoted scalar. -/
def fetchQuoted (l : Lexer) (single : Bool) : Except Malformed Lexer :=
  l.fetchNode fun c ↦ do
    let (text, c) ← quotedWords single l.bound (c.skip 1)
    return (.scalar (String.ofList text) (if single then .singleQuoted else .doubleQuoted), c)

/-- A block scalar. -/
def fetchBlock (l : Lexer) (folded : Bool) : Except Malformed Lexer := do
  let l ← l.dropKey
  let (text, cursor) ← blockText folded l.indent (l.cursor.skip 1)
  return { l with cursor, keyAllowed := true }.push
    (.scalar (String.ofList text) (if folded then .folded else .literal))

/-- A plain scalar; after a line break a key may start again. -/
def fetchPlain (l : Lexer) : Except Malformed Lexer := do
  let l ← l.noteKey
  let indent := (l.indent.map (· + 1)).getD 0
  let (text, broken, cursor) ← plainWords l.inFlow indent l.bound l.cursor {}
  return { l with cursor, keyAllowed := broken }.push (.scalar (String.ofList text) .plain)

/-- Whether a plain scalar may start with the character `x` before `next`. -/
def startsPlain (inFlow : Bool) (x : Char) (next : Option Char) : Bool :=
  !(isSpace x || isBreak x ||
      ['-', '?', ':', ',', '[', ']', '{', '}', '#', '&', '*', '!', '|', '>', '\'', '"', '%', '@',
        '\x60'].contains x) ||
    x == '-' && !next.any isSpace ||
    !inFlow && (x == '?' || x == ':') && !isGap next

/-- Reads one more token, or several that come together, into the queue. -/
def fetch (l : Lexer) : Except Malformed Lexer := do
  l.cursor.ensure 1
  if !l.started then
    return { l.push .streamStart with started := true, keyAllowed := true, keys := [none] }
  else
    let l ← (skipBlank (l.bound + 1) l).dropStale
    let l := l.closeBlocks (some l.cursor.column)
    let c := l.cursor
    c.ensure 4
    let next := c.peek 1
    match c.peek 0 with
    | none => l.fetchEnd
    | some x =>
      if c.column == 0 && x == '%' then
        let l ← l.endDocument
        let (t, cursor) ← directive (c.skip 1)
        return { l with cursor }.push t
      else if c.atDocumentMark '-' then return ((← l.endDocument).skip 3).push .documentStart
      else if c.atDocumentMark '.' then return ((← l.endDocument).skip 3).push .documentEnd
      else if x == '[' then l.fetchOpen .flowSequenceStart
      else if x == '{' then l.fetchOpen .flowMappingStart
      else if x == ']' then l.fetchClose .flowSequenceEnd
      else if x == '}' then l.fetchClose .flowMappingEnd
      else if x == ',' then l.fetchEntry
      else if x == '-' && isGap next then l.fetchDash
      else if x == '?' && (l.inFlow || isGap next) then l.fetchKey
      else if x == ':' && (l.inFlow || isGap next) then l.fetchValue
      else if x == '*' then
        l.fetchNode fun c ↦ do
          let (name, c) ← anchorName (c.skip 1)
          return (.alias name, c)
      else if x == '&' then
        l.fetchNode fun c ↦ do
          let (name, c) ← anchorName (c.skip 1)
          return (.anchor name, c)
      else if x == '!' then l.fetchNode (tagToken l.inFlow)
      else if x == '|' && !l.inFlow then l.fetchBlock false
      else if x == '>' && !l.inFlow then l.fetchBlock true
      else if x == '\'' then l.fetchQuoted true
      else if x == '"' then l.fetchQuoted false
      else if startsPlain l.inFlow x next then l.fetchPlain
      else throw .unexpectedCharacter

/-- Takes the tokens off the front of the queue that no pending key waits for. -/
def release (l : Lexer) : Nat → List Token × Lexer
  | 0 => ([], l)
  | fuel + 1 =>
    match l.queue with
    | [] => ([], l)
    | t :: queue =>
      if l.keys.any (·.any (·.token == l.released)) then ([], l)
      else
        let (ts, l) := release { l with queue, released := l.released + 1 } fuel
        (t :: ts, l)

/-- Reads tokens until the end of the text or the first flaw. -/
def run : Nat → Lexer → Partial Token
  | 0, _ => ⟨[], some .tooLong⟩
  | fuel + 1, l =>
    if l.finished then ⟨[], none⟩
    else
      match l.fetch >>= dropStale with
      | .error e => ⟨[], some e⟩
      | .ok l =>
        let (ts, l) := l.release l.queue.length
        let rest := run fuel l
        ⟨ts ++ rest.items, rest.flaw⟩

end Lexer

/-- The tokens of a text. Each step of the reader takes a character or ends the text, so the bound
is never reached. -/
def Token.scan (text : List Char) : Partial Token :=
  let (rest, cut) := readable text.length text
  Lexer.run (rest.length + 3) { cursor := { rest, cut }, bound := rest.length }

end Crossing.Yaml
