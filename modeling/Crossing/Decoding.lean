import Crossing.Json.Value
import Crossing.Label
import Crossing.Rounds
import Crossing.Sample
import Crossing.Yaml.Reader

/-!
# Names, categories, rounds and tiers in documents

A checked value is read as the plain value beneath it, which is checked once its text has been read
to the end.
-/

namespace Crossing

open Schema (Complaint)

/-- A value that its rule refuses does not fit. -/
def checked {α : Type} : Except ValidationError α → Except Complaint α
  | .ok a => .ok a
  | .error e => .error (.refused e.message)

/-- Reads the one plain value that a text holds and then checks it, so what is wrong with the text
is reported before what is wrong with the value. -/
def Yaml.readChecked {α β : Type} (reader : Yaml.Reader α) (check : α → Except ValidationError β)
    (text : String) : Except Yaml.Issue β := do
  match checked (check (← Yaml.readWhole reader text)) with
  | .ok b => return b
  | .error c => throw (.misfit .root c)

namespace TestName

/-- A name from a JSON value. -/
def ofValue (v : Json.Value) : Except Complaint TestName := do checked (ofString (← v.asText))

/-- A name from a YAML text. -/
def ofYaml (text : String) : Except Yaml.Issue TestName :=
  Yaml.readChecked (Yaml.readText "a string") ofString text

end TestName

namespace Category

/-- A category from a JSON value. -/
def ofValue (v : Json.Value) : Except Complaint Category := do checked (ofString (← v.asText))

/-- A category from a YAML text. -/
def ofYaml (text : String) : Except Yaml.Issue Category :=
  Yaml.readChecked (Yaml.readText "a string") ofString text

end Category

namespace OuterRounds

/-- Rounds from a JSON value. -/
def ofValue (v : Json.Value) : Except Complaint OuterRounds := do checked (ofUInt64 (← v.asUInt64))

/-- Rounds from a YAML text. -/
def ofYaml (text : String) : Except Yaml.Issue OuterRounds :=
  Yaml.readChecked (Yaml.readUInt64 "u64") ofUInt64 text

end OuterRounds

namespace Tier

/-- A tier from a JSON value. -/
def ofValue (v : Json.Value) : Except Complaint Tier := v.asVariant variants

/-- A tier from a YAML text. -/
def ofYaml (text : String) : Except Yaml.Issue Tier :=
  Yaml.readWhole (Yaml.readVariant variants) text

end Tier

end Crossing
