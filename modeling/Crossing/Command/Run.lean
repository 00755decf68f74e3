import Crossing.Command.Options
import Crossing.Config.Document
import Crossing.Report.File
import Crossing.Runner
import Crossing.Suite
import Crossing.Text.Blank

/-!
# Running the suite from the command line

The configuration is loaded and changed by the options, the catalogue is built, and then either
listed or run. After a run the primary section goes to the output, and both sections go to the
result file; the summary is written if it is asked for, also when the result file could not be
written.
-/

namespace Crossing.Command

open Boundary (Machines)
open Host (FileSystem)
open Report (SystemInfo Summary)

/-- What running the suite needs from the machine it runs on. -/
structure Machine (m : Type → Type) (M : Type) where
  files : FileSystem m
  bench : Bench m M
  print : String → m Unit
  pin : Nat → m Unit
  timestamp : m Timestamp
  systemInfo : m SystemInfo

/-- Why the suite did not run to its end. -/
inductive Failure
  | refused (e : ValidationError)
  | failed (e : Error)
  | unwritten

namespace Failure

/-- A failure in words. -/
def message : Failure → String
  | refused e => e.message
  | failed e => e.message
  | unwritten => "one or more reports could not be written"

/-- What is underneath a failure, in words. -/
def cause? : Failure → Option String
  | failed e => e.cause?
  | _ => none

/-- Lines after the first are set in as far as the first. -/
def setIn (s : String) : String :=
  String.ofList ((s.toList).flatMap fun c ↦ if c == '\n' then "\n    ".toList else [c])

/-- A failure as it is reported. -/
def report (f : Failure) : String :=
  "Error: " ++ f.message ++
    match f.cause? with
    | some c => "\n\nCaused by:\n    " ++ setIn c
    | none => ""

end Failure

/-! ### The configuration in effect -/

/-- Rounds of a quick run. -/
def quickRounds : OuterRounds := ⟨10, by decide, by decide⟩

/-- By how much inner loops are cut in a quick run. -/
def quickDivisor : UInt64 := 10

/-- A quick run has few rounds and short inner loops. -/
def quicken (c : Config) : Config :=
  { runner := { c.runner with outerRounds := quickRounds }
    strategies := c.strategies.scaledDown quickDivisor }

/-- The configuration that options make of another. -/
def Options.applyTo (o : Options) (c : Config) : Except ValidationError Config := do
  let c := if o.quick then quicken c else c
  let outerRounds ← match o.rounds with
    | some n => OuterRounds.ofUInt64 n
    | none => pure c.runner.outerRounds
  return { c with runner := { c.runner with
    outerRounds
    resultFile := o.output.getD c.runner.resultFile
    jsonSummary := o.json.or c.runner.jsonSummary } }

/-- What options make of a configuration that was loaded or not. -/
def Options.settle (o : Options) : Except Error Config → Except Failure Config
  | .error e => .error (.failed e)
  | .ok c =>
    match o.applyTo c with
    | .error e => .error (.refused e)
    | .ok c => .ok c

section

variable {m : Type → Type} [Monad m]

/-- The configuration in effect. -/
def loadConfig (files : FileSystem m) (o : Options) : m (Except Failure Config) := do
  match o.config with
  | some path => return o.settle (← Config.ofFile files path)
  | none => return o.settle (.ok {})

/-! ### Listing and running -/

/-- A line of the listing. -/
def listingLine (e : Entry) : String :=
  Text.padRight 9 (Tier.ofPrimary e.isPrimary).label ++ " " ++
    Text.padRight 28 ((e.category.map (·.label)).getD "-") ++ " " ++ e.name.text ++ "\n"

/-- The listing of a catalogue. -/
def listing (entries : List Entry) : String := String.join (entries.map listingLine)

/-- What is printed after a run. -/
def announcement (report : Report.TextReport) (resultFile : String) : String :=
  report.primary ++ "Writing more performance test results to: " ++ resultFile ++ "\n"

/-- Writes the summary, if there is a path for it. -/
def writeSummary [Platform] {M : Type} (machine : Machine m M) (config : RunnerConfig)
    (records : List Record) : m (Except Error Unit) := do
  match config.jsonSummary with
  | none => return .ok ()
  | some path =>
    let (summary, _) := Summary.ofRecords records config.outerRounds.count
      (← machine.timestamp) (← machine.systemInfo)
    summary.save machine.files path

/-- The reports are written if both are. -/
def bothWritten : Except Error Unit → Except Error Unit → Except Failure Unit
  | .ok (), .ok () => .ok ()
  | _, _ => .error .unwritten

/-- Reports a run. -/
def reportRun [Platform] {M : Type} (machine : Machine m M) (config : RunnerConfig)
    (records : List Record) : m (Except Failure Unit) := do
  let (report, records) := Report.render records
  machine.print (announcement report config.resultFile)
  let text ← report.writeTo machine.files config.resultFile
  let summary ← writeSummary machine config records
  return bothWritten text summary

section

variable {A M : Type}

/-- Ties the thread to a processor, if that is asked for. -/
def pinAsked (machine : Machine m M) (o : Options) : m Unit :=
  match o.pinCpu with
  | some cpu => machine.pin cpu.toNat
  | none => pure ()

variable [Invocable A M]

/-- Lists a catalogue or runs it and reports the run. -/
def use [Platform] (machine : Machine m M) (o : Options) (config : Config) (catalog : Catalog A) :
    m (Except Failure Unit) := do
  if o.list then
    machine.print (listing catalog.entries)
    machine.bench.enter fun s ↦ ((), catalog.drop s)
    return .ok ()
  else
    pinAsked machine o
    match ← (Runner.ofConfig config.runner).run machine.bench catalog with
    | .error e => return .error (.failed e)
    | .ok records => reportRun machine config.runner records

/-- Does what the options ask for, with the catalogue that `build` makes of a configuration. -/
def runWith [Platform] (build : StrategyConfig → StateM M (Except Error (Catalog A)))
    (machine : Machine m M) (o : Options) : m (Except Failure Unit) := do
  match ← loadConfig machine.files o with
  | .error f => return .error f
  | .ok config =>
    match ← machine.bench.enter (build config.strategies) with
    | .error e => return .error (.failed e)
    | .ok catalog => use machine o config catalog

end

/-- Memory with the holders of the suite and no others. -/
abbrev Store (S C P : Type) := Suite.Store (nofun : Empty → Type) S C P

/-- Makes the catalogue of the suite, without benchmarks from elsewhere. -/
def buildSuite {S C P : Type} [Machines S C] (c : StrategyConfig) :
    StateM (Store S C P) (Except Error (Catalog Target)) :=
  (Suite.build c).run

/-- Does what the options ask for. -/
def run [Platform] {S C P : Type} [Machines S C] (machine : Machine m (Store S C P)) (o : Options) :
    m (Except Failure Unit) :=
  runWith buildSuite machine o

end

/-- What the process that ran the suite leaves: its exit code and its last words. -/
structure Exit where
  code : UInt32
  words : Option String
  deriving DecidableEq, Repr

/-- The exit of a command line that ended in a way. -/
def Exit.of : Except Failure Unit → Exit
  | .ok () => ⟨0, none⟩
  | .error f => ⟨1, some f.report⟩

end Crossing.Command
