import Crossing.Config
import Crossing.Error
import Crossing.Host.FileSystem
import Crossing.Text.Utf8

/-!
# Configuration documents

How a configuration is written in YAML: two sections, each a mapping of fields. A document without
content is the standard configuration. A document in a file has to be well-formed UTF-8.
-/

namespace Crossing.Config

open Host (FileSystem)
open Yaml (Reader)

/-- The fields of the section on running. -/
def runnerFields : List (Yaml.Field RunnerDraft) :=
  [ .of "outer_rounds" (Yaml.readUInt64 "u64") fun v r ↦ { r with outerRounds := v },
    .of "warmup_rounds" (Yaml.readUInt64 "u64") fun v r ↦ { r with warmupRounds := v },
    .of "result_file" (Yaml.readText "a string") fun v r ↦ { r with resultFile := v },
    ⟨"json_summary", fun outer d path items ↦
      (Yaml.readOptionalText outer "a string" d path items).map fun x ↦
        (fun r ↦ { r with jsonSummary := x.1 }, x.2)⟩ ]

/-- The fields of the section on strategies. -/
def strategyFields : List (Yaml.Field StrategyConfig) :=
  [ .of "primary_inner_rounds" (Yaml.readUInt64 "u64") fun v s ↦ { s with primaryInnerRounds := v },
    .of "boundary_inner_rounds" (Yaml.readUInt64 "u64") fun v s ↦
      { s with boundaryInnerRounds := v },
    .of "string_base" (Yaml.readText "a string") fun v s ↦ { s with stringBase := v },
    .of "string_repeats" (Yaml.readSequence (Yaml.readUInt64 "usize")) fun v s ↦
      { s with stringRepeats := v },
    .of "buffer_capacity" (Yaml.readUInt64 "usize") fun v s ↦ { s with bufferCapacity := v } ]

/-- The sections of a configuration. -/
def sections : List (Yaml.Field Draft) :=
  [ .of "runner" (Yaml.readRecord "struct RawRunnerConfig" runnerFields {}) fun v d ↦
      { d with runner := v },
    .of "strategies" (Yaml.readRecord "struct RawStrategyConfig" strategyFields {}) fun v d ↦
      { d with strategies := v } ]

/-- Reads a draft from a document. -/
def readDraft : Reader Draft := Yaml.readRecord "struct RawConfig" sections {}

/-- The draft that a text describes. -/
def draftOfText (text : String) : Except Yaml.Issue Draft :=
  if Text.isBlankText text then .ok {} else Yaml.readWhole readDraft text

/-- The configuration that a text describes. -/
def ofText (text : String) : Except Error Config :=
  match draftOfText text with
  | .error issue => .error (.configParse issue)
  | .ok draft =>
    match draft.check with
    | .error e => .error (.validation e)
    | .ok c => .ok c

/-! ### Files -/

/-- The text of a configuration file, which must be well-formed. -/
def textOfOctets (bs : List UInt8) : Except Error String :=
  match Text.Utf8.decode? bs with
  | some cs => .ok (String.ofList cs)
  | none => .error (.io "reading config file" (.file .notUtf8))

/-- The configuration in a file. -/
def ofFile {m : Type → Type} [Monad m] (files : FileSystem m) (path : String) :
    m (Except Error Config) := do
  if ← files.isPresent path then
    match ← files.read path with
    | .ok bs => return textOfOctets bs >>= ofText
    | .error e => return .error (.io "reading config file" (.file e))
  else
    return .error (.configNotFound path)

end Crossing.Config
