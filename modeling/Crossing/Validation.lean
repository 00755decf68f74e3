/-!
# Validation errors

A value that a name, a label or a configuration may not have. Each error says which field it is
about and why; the wording is in `message`.
-/

namespace Crossing

/-- Why a value is refused. -/
inductive Reason
  | emptyName
  | longName (bytes : Nat)
  | nameCharacter
  | blankCategory
  | categoryLineBreak
  | blankResultFile
  | blankSummaryFile
  | noInnerRounds
  | baseNotAscii
  | repeatsNotDistinct
  deriving DecidableEq, Repr

/-- A reason in words. -/
def Reason.message : Reason → String
  | emptyName => "Test name cannot be empty"
  | longName n => "Test name too long: " ++ toString n ++ " chars (max 128)"
  | nameCharacter =>
    "Test name must contain only ASCII alphanumeric characters and underscores"
  | blankCategory => "Category cannot be empty"
  | categoryLineBreak => "Category must fit on a single report line"
  | blankResultFile => "Result file path cannot be empty"
  | blankSummaryFile => "JSON summary path cannot be empty when present"
  | noInnerRounds => "Inner rounds must be greater than 0"
  | baseNotAscii =>
    "Test string must be non-empty ASCII so every encoding strategy sees the same characters"
  | repeatsNotDistinct => "Repeat counts must be unique and greater than 0"

/-- An error that stops a benchmark before anything is measured. -/
inductive ValidationError
  | missingField (field context : String)
  | invalidValue (field value : String) (reason : Reason)
  | outOfBounds (field : String) (value least most : UInt64)
  | duplicateName (name : String)
  deriving DecidableEq, Repr

/-- A validation error in words. -/
def ValidationError.message : ValidationError → String
  | missingField field context => "Missing required field: " ++ field ++ " in " ++ context
  | invalidValue field value reason =>
    "Invalid field value: " ++ field ++ " = " ++ value ++ " - " ++ reason.message
  | outOfBounds field value least most =>
    "Value out of bounds: " ++ field ++ " = " ++ toString value ++ " (min: " ++ toString least ++
      ", max: " ++ toString most ++ ")"
  | duplicateName name => "Duplicate test name: " ++ name

end Crossing
