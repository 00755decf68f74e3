import Crossing.Text.Utf8
import Crossing.Yaml.Token

/-!
# A position in a YAML text

The characters that are left, and where the next of them stands: how many octets stand before it,
and its line and column. Lines and columns count from zero; a column is a character. A carriage
return with a line feed is one line break of two characters.

A text is taken in blocks of octets, each one when a look-ahead first needs it. A block with a
character that may not stand in YAML cannot be taken: the text is cut off before it, and to look
past the cut is a flaw.
-/

namespace Crossing.Yaml

/-- Line feed, carriage return, next line, line separator and paragraph separator. -/
def isBreak (c : Char) : Bool :=
  c == '\n' || c == '\r' || c == '\u0085' || c == '\u2028' || c == '\u2029'

/-- A space or a tab. -/
def isSpace (c : Char) : Bool := c == ' ' || c == '\t'

/-- Whether a look-ahead found a space, a tab, a line break or the end of the text. -/
def isGap : Option Char → Bool
  | none => true
  | some c => isSpace c || isBreak c

/-- Whether a look-ahead found a line break or the end of the text. -/
def isLineEnd : Option Char → Bool
  | none => true
  | some c => isBreak c

/-- Letters, digits, underscore and hyphen, which make up names of anchors and directives. -/
def isWord (c : Char) : Bool := c.isAlphanum || c == '_' || c == '-'

/-- The characters a YAML text may hold. -/
def isReadable (c : Char) : Bool :=
  let n := c.toNat
  n == 9 || n == 0xA || n == 0xD || (0x20 ≤ n && n ≤ 0x7E) || n == 0x85 ||
    (0xA0 ≤ n && n ≤ 0xD7FF) || (0xE000 ≤ n && n ≤ 0xFFFD) || 0x10000 ≤ n

/-- The longest beginning of a text that has at most `room` octets, and the characters after it. -/
def takeOctets : Nat → List Char → List Char × List Char
  | _, [] => ([], [])
  | room, c :: r =>
    if Text.Utf8.width c ≤ room then
      let (taken, rest) := takeOctets (room - Text.Utf8.width c) r
      (c :: taken, rest)
    else ([], c :: r)

/-- The number of octets in a block. -/
def blockSize : Nat := 16384

/-- The blocks of a text before the first one with an unreadable character, and whether there is
one. A block has at least one character, so the length of the text bounds their number. -/
def readable : Nat → List Char → List Char × Bool
  | 0, _ => ([], false)
  | fuel + 1, text =>
    let (block, later) := takeOctets blockSize text
    if block.all isReadable then
      let (more, cut) := readable fuel later
      (block ++ more, cut)
    else ([], true)

/-- What is left of a text, whether it is cut off, and where it starts. -/
structure Cursor where
  rest : List Char
  cut : Bool := false
  offset : Nat := 0
  line : Nat := 0
  column : Nat := 0

namespace Cursor

/-- The character `n` places ahead. -/
def peek (c : Cursor) (n : Nat) : Option Char := c.rest[n]?

/-- Looks `n` characters ahead, which is a flaw past the cut of a text. -/
def ensure (n : Nat) (c : Cursor) : Except Malformed Unit :=
  if c.cut && (c.rest.drop (n - 1)).isEmpty then .error .controlCharacter else .ok ()

/-- Steps over `n` characters none of which is a line break. -/
def skip (c : Cursor) (n : Nat) : Cursor :=
  { c with
    rest := c.rest.drop n
    offset := (c.rest.take n).foldl (fun o x ↦ o + Text.Utf8.width x) c.offset
    column := c.column + n }

/-- Steps over one line break, if the text goes on with one. -/
def skipLine (c : Cursor) : Cursor :=
  match c.rest with
  | '\r' :: '\n' :: r => ⟨r, c.cut, c.offset + 2, c.line + 1, 0⟩
  | b :: r =>
    if isBreak b then ⟨r, c.cut, c.offset + Text.Utf8.width b, c.line + 1, 0⟩ else c
  | [] => c

/-- The text of a line break: separators stay themselves, all others become a line feed. -/
def lineBreak (c : Cursor) : List Char :=
  match c.rest with
  | b :: _ =>
    if b == '\u2028' || b == '\u2029' then [b] else if isBreak b then ['\n'] else []
  | [] => []

/-- The longest run of characters in a class, none of which is a line break, and what follows. -/
def span (p : Char → Bool) (c : Cursor) : List Char × Cursor :=
  let taken := c.rest.takeWhile p
  (taken, c.skip taken.length)

/-- Steps over a run of characters in a class. -/
def skipWhile (p : Char → Bool) (c : Cursor) : Cursor := (c.span p).2

/-- The number of spaces, tabs and line breaks that stand here. -/
def gapLength (c : Cursor) : Nat := (c.rest.takeWhile fun x ↦ isSpace x || isBreak x).length

/-- Steps over a comment, up to the end of its line. -/
def skipComment (c : Cursor) : Cursor :=
  if c.peek 0 == some '#' then c.skipWhile (fun x ↦ !isBreak x) else c

/-- Whether the text goes on, at the start of a line, with three times `mark` and a gap. -/
def atDocumentMark (mark : Char) (c : Cursor) : Bool :=
  c.column == 0 && c.rest.take 3 == [mark, mark, mark] && isGap (c.peek 3)

/-- Whether a line starts here that divides documents. -/
def atDivision (c : Cursor) : Bool := c.atDocumentMark '-' || c.atDocumentMark '.'

end Cursor

end Crossing.Yaml
