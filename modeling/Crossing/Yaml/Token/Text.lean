import Crossing.Text.Utf8
import Crossing.Yaml.Token.Cursor

/-!
# The text of a scalar

Plain, quoted and block scalars. In plain and quoted scalars words are divided by gaps; a gap with
line breaks is folded: one break becomes a space, further ones stay. A block scalar is read line by
line, with its indentation taken off and its line breaks kept or folded.
-/

namespace Crossing.Yaml

/-- The white space between two words of a scalar: what stands before the first line break, whether
there was one, the first break and the breaks after it. -/
structure Gap where
  spaces : List Char := []
  broken : Bool := false
  first : List Char := []
  more : List Char := []

namespace Gap

/-- The text a gap contributes between two words. -/
def text (g : Gap) : List Char :=
  if g.broken then
    if g.first == ['\n'] then if g.more.isEmpty then [' '] else g.more
    else g.first ++ g.more
  else g.spaces

/-- Adds a line break. -/
def addBreak (g : Gap) (b : List Char) : Gap :=
  if g.broken then { g with more := g.more ++ b }
  else { g with spaces := [], broken := true, first := b }

/-- Adds a space or a tab, which counts only before the first break. -/
def addSpace (g : Gap) (c : Char) : Gap :=
  if g.broken then g else { g with spaces := g.spaces ++ [c] }

/-- Reads the white space from here on. With `indent`, a tab that stands before that column on a new
line is refused. -/
def read (indent : Option Nat) : Nat → Cursor → Gap → Except Malformed (Gap × Cursor)
  | 0, c, g => .ok (g, c)
  | fuel + 1, c, g =>
    match c.peek 0 with
    | none => .ok (g, c)
    | some x =>
      if isSpace x then
        if x == '\t' && g.broken && indent.any (c.column < ·) then .error .tabIndentation
        else read indent fuel (c.skip 1) (g.addSpace x)
      else if isBreak x then read indent fuel c.skipLine (g.addBreak c.lineBreak)
      else .ok (g, c)

end Gap

/-! ### Plain scalars -/

/-- The characters that end a word inside brackets. -/
def isFlowIndicator (c : Char) : Bool :=
  c == ',' || c == '[' || c == ']' || c == '{' || c == '}'

/-- The characters of a plain word. Inside brackets it also ends at an indicator, and a colon before
an indicator is refused. -/
def plainWord (inFlow : Bool) : List Char → Except Malformed (List Char)
  | [] => .ok []
  | c :: r =>
    if isSpace c || isBreak c then .ok []
    else if inFlow && c == ':' && r.head?.any (fun x ↦ x == '?' || isFlowIndicator x) then
      .error .unexpectedColon
    else if c == ':' && isGap r.head? || inFlow && isFlowIndicator c then .ok []
    else do return c :: (← plainWord inFlow r)

/-- The words of a plain scalar from here on, with the gap `g` before the first. The flag of the
answer says whether the scalar was followed by a line break. -/
def plainWords (inFlow : Bool) (indent : Nat) :
    Nat → Cursor → Gap → Except Malformed (List Char × Bool × Cursor)
  | 0, c, g => .ok ([], g.broken, c)
  | fuel + 1, c, g => do
    c.ensure 4
    if c.atDivision || c.peek 0 == some '#' then return ([], g.broken, c)
    else
      let word ← plainWord inFlow c.rest
      if word.isEmpty then return ([], g.broken, c)
      let text := g.text ++ word
      let c := c.skip word.length
      c.ensure 2
      if !(c.peek 0).any (fun x ↦ isSpace x || isBreak x) then return (text, false, c)
      let (g, c) ← Gap.read (some indent) c.gapLength c {}
      c.ensure 1
      if !inFlow && c.column < indent then return (text, g.broken, c)
      let (more, broken, c) ← plainWords inFlow indent fuel c g
      return (text ++ more, broken, c)

/-! ### Quoted scalars -/

/-- The value of a digit in a base up to sixteen. -/
def digitIn? (base : Nat) (c : Char) : Option Nat :=
  let v :=
    if c.isDigit then some (c.toNat - '0'.toNat)
    else if 'a' ≤ c && c ≤ 'f' then some (c.toNat - 'a'.toNat + 10)
    else if 'A' ≤ c && c ≤ 'F' then some (c.toNat - 'A'.toNat + 10)
    else none
  v.filter (· < base)

/-- A non-empty run of digits in a base. -/
def digits? (base : Nat) (cs : List Char) : Option Nat :=
  if cs.isEmpty then none
  else cs.foldlM (fun n c ↦ (digitIn? base c).map (base * n + ·)) 0

/-- What stands for itself after a backslash in double quotes. -/
def simpleEscape? : Char → Option Char
  | '0' => some '\x00'
  | 'a' => some '\x07'
  | 'b' => some '\x08'
  | 't' => some '\t'
  | '\t' => some '\t'
  | 'n' => some '\n'
  | 'v' => some '\x0B'
  | 'f' => some '\x0C'
  | 'r' => some '\r'
  | 'e' => some '\x1B'
  | ' ' => some ' '
  | '"' => some '"'
  | '/' => some '/'
  | '\\' => some '\\'
  | 'N' => some '\u0085'
  | '_' => some '\u00A0'
  | 'L' => some '\u2028'
  | 'P' => some '\u2029'
  | _ => none

/-- The number of hexadecimal digits that an escape takes. -/
def escapeLength? : Char → Option Nat
  | 'x' => some 2
  | 'u' => some 4
  | 'U' => some 8
  | _ => none

/-- The character of the escape that `r` holds after its backslash, and how long it is. -/
def readEscape (r : List Char) : Except Malformed (Char × Nat) :=
  match r with
  | [] => .error .unknownEscape
  | e :: ds =>
    match simpleEscape? e, escapeLength? e with
    | some c, _ => .ok (c, 1)
    | none, none => .error .unknownEscape
    | none, some n =>
      match digits? 16 (ds.take n) with
      | none => .error .badEscape
      | some v =>
        if (ds.take n).length < n then .error .badEscape
        else match Text.scalar? v with
          | some c => .ok (c, n + 1)
          | none => .error .badEscape

/-- The characters of a word between single quotes, and where it ends. -/
def singleWord : Nat → Cursor → List Char × Cursor
  | 0, c => ([], c)
  | fuel + 1, c =>
    match c.rest with
    | [] => ([], c)
    | '\'' :: '\'' :: _ =>
      let (w, e) := singleWord fuel (c.skip 2)
      ('\'' :: w, e)
    | x :: _ =>
      if isSpace x || isBreak x || x == '\'' then ([], c)
      else
        let (w, e) := singleWord fuel (c.skip 1)
        (x :: w, e)

/-- The characters of a word between double quotes, whether an escaped line break ended it, and
where it ends. -/
def doubleWord : Nat → Cursor → Except Malformed (List Char × Bool × Cursor)
  | 0, c => .ok ([], false, c)
  | fuel + 1, c =>
    match c.rest with
    | [] => .ok ([], false, c)
    | '\\' :: r =>
      if r.head?.any isBreak then .ok ([], true, (c.skip 1).skipLine)
      else do
        let (x, n) ← readEscape r
        let (w, e) ← doubleWord fuel (c.skip (n + 1))
        return (x :: w, e)
    | x :: _ =>
      if isSpace x || isBreak x || x == '"' then .ok ([], false, c)
      else do
        let (w, e) ← doubleWord fuel (c.skip 1)
        return (x :: w, e)

/-- The words of a quoted scalar after its opening quote, up to and with the closing one. -/
def quotedWords (single : Bool) : Nat → Cursor → Except Malformed (List Char × Cursor)
  | 0, _ => .error .unclosedScalar
  | fuel + 1, c => do
    c.ensure 4
    if c.atDivision then throw .documentMarkInScalar
    if c.rest.isEmpty then throw .unclosedScalar
    let (word, escaped, c) ←
      if single then
        let (w, c) := singleWord fuel c
        .ok (w, false, c)
      else doubleWord fuel c
    if !word.isEmpty then c.ensure 2
    if c.peek 0 == some (if single then '\'' else '"') then return (word, c.skip 1)
    let (g, c) ← Gap.read none c.gapLength c { broken := escaped }
    let (more, c) ← quotedWords single fuel c
    return (word ++ g.text ++ more, c)

/-! ### Block scalars -/

/-- What happens to the line breaks at the end of a block scalar. -/
inductive Chomping
  | strip
  | clip
  | keep
  deriving DecidableEq

/-- The indicators after the sign of a block scalar: the chomping and the indentation, in either
order. -/
def blockHeader (c : Cursor) : Except Malformed (Chomping × Option Nat × Cursor) :=
  let chomping? (c : Cursor) : Option Chomping :=
    if c.peek 0 == some '+' then some .keep else if c.peek 0 == some '-' then some .strip else none
  let digit? (c : Cursor) : Option Nat :=
    (c.peek 0).bind fun x ↦ if x.isDigit then some (x.toNat - '0'.toNat) else none
  match chomping? c, digit? c with
  | some h, _ =>
    let c := c.skip 1
    match digit? c with
    | some 0 => .error .blockScalarHeader
    | some d => .ok (h, some d, c.skip 1)
    | none => .ok (h, none, c)
  | none, some 0 => .error .blockScalarHeader
  | none, some d =>
    let c := c.skip 1
    match chomping? c with
    | some h => .ok (h, some d, c.skip 1)
    | none => .ok (.clip, some d, c)
  | none, none => .ok (.clip, none, c)

/-- Steps over spaces up to the column `indent`, or over all of them where it is not known yet. -/
def skipIndentation (indent : Option Nat) (c : Cursor) : Cursor :=
  let spaces := (c.rest.takeWhile (· == ' ')).length
  match indent with
  | none => c.skip spaces
  | some i => c.skip (min spaces (i - c.column))

/-- Reads empty lines and the indentation of the next line with content. The answer has the breaks,
the largest column reached, and the cursor. -/
def blockBreaks (indent : Option Nat) :
    Nat → Cursor → Nat → List Char → Except Malformed (List Char × Nat × Cursor)
  | 0, c, deepest, acc => .ok (acc, deepest, c)
  | fuel + 1, c, deepest, acc =>
    let c := skipIndentation indent c
    let deepest := max deepest c.column
    if c.peek 0 == some '\t' && indent.all (c.column < ·) then .error .tabIndentation
    else if (c.peek 0).any isBreak then
      blockBreaks indent fuel c.skipLine deepest (acc ++ c.lineBreak)
    else .ok (acc, deepest, c)

/-- The lines of a block scalar from here on, after the break `first` that ended the line before and
the empty lines `more` after it; `spaced` says whether that line began with a space or a tab. The
answer has the text, and the break and the empty lines at its end. -/
def blockLines (folded : Bool) (indent : Nat) :
    Nat → Cursor → List Char → List Char → Bool →
      Except Malformed (List Char × List Char × List Char × Cursor)
  | 0, c, first, more, _ => .ok ([], first, more, c)
  | fuel + 1, c, first, more, spaced =>
    match c.rest with
    | [] => .ok ([], first, more, c)
    | x :: _ =>
      if c.column != indent then .ok ([], first, more, c)
      else do
        let joined :=
          if folded && first == ['\n'] && !spaced && !isSpace x then
            if more.isEmpty then [' '] else []
          else first
        let (line, c) := c.span fun x ↦ !isBreak x
        let (breaks, _, c') ← blockBreaks (some indent) fuel c.skipLine 0 []
        let (text, ending) ← blockLines folded indent fuel c' c.lineBreak breaks (isSpace x)
        return (joined ++ more ++ line ++ text, ending)

/-- A block scalar after its sign, in a collection indented by `parent` (or at the top). -/
def blockText (folded : Bool) (parent : Option Nat) (c : Cursor) :
    Except Malformed (List Char × Cursor) := do
  let (chomping, increment, c) ← blockHeader c
  let c := (c.skipWhile isSpace).skipComment
  if !isLineEnd (c.peek 0) then throw .blockScalarHeader
  let c := c.skipLine
  let given := increment.map (· + parent.getD 0)
  let (breaks, deepest, c) ← blockBreaks given c.rest.length c 0 []
  let least := (parent.map (· + 1)).getD 0
  let indent := given.getD (max (max deepest least) 1)
  let (text, first, more, c) ← blockLines folded indent c.rest.length c [] breaks false
  c.ensure 1
  return (text ++ (if chomping == .strip then [] else first) ++
    (if chomping == .keep then more else []), c)

end Crossing.Yaml
