import Crossing.Text.Blank
import Crossing.Text.Quoted
import Crossing.Validation

/-!
# Names and categories

What a benchmark is called, and the heading it is reported under. Both are texts with a rule, and
carry the proof that they keep it.
-/

namespace Crossing

/-! ### Test names -/

/-- Letters, digits and underscores of ASCII. -/
def isNameCharacter (c : Char) : Bool := c.isAlphanum || c == '_'

/-- The rule for names: 1 to 128 name characters. -/
def isTestName (s : String) : Bool :=
  !s.isEmpty && s.utf8ByteSize ≤ 128 && s.toList.all isNameCharacter

/-- The name of a benchmark, as reports show it. -/
structure TestName where
  text : String
  valid : isTestName text = true
  deriving DecidableEq

namespace TestName

/-- The field that errors about names mention. -/
def field : String := "test_name"

/-- Checks a name. -/
def ofString (s : String) : Except ValidationError TestName :=
  if h : isTestName s = true then .ok ⟨s, h⟩
  else if s.isEmpty then .error (.invalidValue field s .emptyName)
  else if 128 < s.utf8ByteSize then .error (.invalidValue field s (.longName s.utf8ByteSize))
  else .error (.invalidValue field s .nameCharacter)

/-- Names in order of their characters. -/
def sorted (names : List TestName) : List TestName :=
  names.mergeSort fun a b ↦ a.text ≤ b.text

end TestName

/-! ### Categories -/

/-- The rule for categories: something that is not blank, on one line. -/
def isCategory (s : String) : Bool :=
  !Text.isBlankText s && !s.toList.any fun c ↦ c == '\n' || c == '\r'

/-- The heading that a benchmark is reported under. -/
structure Category where
  label : String
  valid : isCategory label = true
  deriving DecidableEq

namespace Category

/-- The field that errors about categories mention. -/
def field : String := "category"

/-- Checks a label. A label with a line break is cited in escaped form. -/
def ofString (s : String) : Except ValidationError Category :=
  if h : isCategory s = true then .ok ⟨s, h⟩
  else if Text.isBlankText s then .error (.invalidValue field s .blankCategory)
  else .error (.invalidValue field (Text.escape s) .categoryLineBreak)

end Category

end Crossing
