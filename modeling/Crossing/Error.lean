import Crossing.Fault
import Crossing.Host.FileSystem
import Crossing.Json.Issue
import Crossing.Validation
import Crossing.Yaml.Reader

/-!
# Errors of a benchmark

Everything that can stop a benchmark or keep a report from being written. Only two of the errors
arise while samples are collected; they are the measurement faults.
-/

namespace Crossing

open Host (FileError)

/-- What was wrong underneath an error of reading or writing. -/
inductive Source
  | file (e : FileError)
  | json (e : Json.Issue)

/-- A source in words. -/
def Source.message : Source → String
  | file e => e.message
  | json e => e.message

/-- An error of a benchmark. -/
inductive Error
  | validation (e : ValidationError)
  | configNotFound (path : String)
  | configParse (issue : Yaml.Issue)
  | invalidCount (test : String) (returned : UInt64)
  | invocation (test : String) (fault : Fault)
  | reportWrite (path : String) (source : FileError)
  | io (context : String) (source : Source)

namespace Error

/-- An error in words. -/
def message : Error → String
  | validation e => "Hard validation error: " ++ e.message
  | configNotFound path => "Configuration file not found: " ++ path
  | configParse issue => "Configuration parse error: YAML parse error: " ++ issue.message
  | invalidCount test returned =>
    "Test '" ++ test ++ "' returned an invalid iteration count: " ++ toString returned
  | invocation test fault =>
    "Boundary invocation fault in test '" ++ test ++ "': " ++ fault.message
  | reportWrite path source => "Failed to write report to " ++ path ++ ": " ++ source.message
  | io context source => "IO error: " ++ context ++ " - " ++ source.message

/-- The error underneath, in words, if there is one. -/
def cause? : Error → Option String
  | validation e => some e.message
  | invocation _ fault => some fault.message
  | reportWrite _ source => some source.message
  | io _ source => some source.message
  | _ => none

/-- Whether an error arose while samples were collected. -/
def isMeasurementFault : Error → Bool
  | invalidCount .. | invocation .. => true
  | _ => false

end Error

end Crossing
