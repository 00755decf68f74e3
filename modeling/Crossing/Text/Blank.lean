/-!
# Blanks and padding

The characters with the Unicode property `White_Space`, and trimming by them. A label or a path is
blank when nothing is left of it after trimming, which is the same as all its characters being
blank.

The other way round, a text is cut to a number of characters and filled up to a width. When it is
centred and the filling is odd, the odd character goes to the right.
-/

namespace Crossing.Text

/-- The 25 characters with the property `White_Space`. -/
def isBlank (c : Char) : Bool :=
  let n := c.toNat
  (9 ≤ n && n ≤ 13) || n == 0x20 || n == 0x85 || n == 0xA0 || n == 0x1680 ||
    (0x2000 ≤ n && n ≤ 0x200A) || n == 0x2028 || n == 0x2029 || n == 0x202F || n == 0x205F ||
    n == 0x3000

/-- Drops blank characters from the front. -/
def trimStart (cs : List Char) : List Char := cs.dropWhile isBlank

/-- Drops blank characters from the back. -/
def trimEnd (cs : List Char) : List Char := (cs.reverse.dropWhile isBlank).reverse

/-- Drops blank characters from both ends. -/
def trim (cs : List Char) : List Char := trimEnd (trimStart cs)

/-- Whether a text has no character that is not blank. -/
def isBlankText (s : String) : Bool := s.toList.all isBlank

/-! ### Padding -/

/-- Where a text stands in its field. -/
inductive Align
  | left
  | right
  | center
  deriving DecidableEq, Repr

/-- The first characters of a text. -/
def cut (n : Nat) (s : String) : String := String.ofList (s.toList.take n)

/-- Fills a text up to a width. -/
def pad (align : Align) (fill : Char) (width : Nat) (s : String) : String :=
  let missing := width - s.length
  let before :=
    match align with
    | .left => 0
    | .right => missing
    | .center => missing / 2
  String.ofList (List.replicate before fill) ++ s ++
    String.ofList (List.replicate (missing - before) fill)

/-- A text at the left of a field of spaces. -/
def padRight (width : Nat) (s : String) : String := pad .left ' ' width s

end Crossing.Text
