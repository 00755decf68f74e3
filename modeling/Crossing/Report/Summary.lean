import Crossing.Json.Printer
import Crossing.Sample
import Crossing.Timestamp

/-!
# The machine-readable summary

A summary of a run with its results in the order of the catalogue. It is written as indented JSON,
and can be read again. A double that is not finite is written as null, and null is no double when it
is read.
-/

namespace Crossing.Report

open Json (Value Reader readRecord required)
open Schema (Complaint)

/-- The machine that a summary was made on. -/
structure SystemInfo where
  os : String
  osVersion : String
  kernelVersion : Option String
  cpuModel : String
  cpuCores : UInt64
  memoryBytes : UInt64
  hostname : String
  arch : String
  hardwareCounter : Bool
  deriving DecidableEq, Repr

/-- What the samples of one benchmark come down to. -/
structure Result where
  name : String
  category : Option String
  tier : Tier
  median : Float
  min : Float
  max : Float
  totalTime : UInt64
  totalIterations : UInt64
  throughput : Float

/-- A summary. -/
structure Summary where
  suite : String
  version : String
  timestamp : Timestamp
  systemInfo : SystemInfo
  outerRounds : UInt64
  results : List Result

/-- The result of a record. Its samples are put in order first. -/
def Result.ofRecord [Platform] (r : Record) : Result :=
  let s := r.series.sort
  { name := r.name.text
    category := r.category.map (·.label)
    tier := .ofPrimary r.isPrimary
    median := r.series.median
    min := s.least
    max := s.greatest
    totalTime := s.totalTime
    totalIterations := s.totalIterations
    throughput := s.throughput }

/-- The name of the suite. -/
def suiteName : String := "marshalbench"

/-- The version of the suite. -/
def suiteVersion : String := "1.0.0"

/-- The summary of some records, and the records as they are left: with their samples in order. -/
def Summary.ofRecords [Platform] (records : List Record) (outerRounds : UInt64)
    (timestamp : Timestamp) (systemInfo : SystemInfo) : Summary × List Record :=
  ({ suite := suiteName, version := suiteVersion, timestamp, systemInfo, outerRounds
     results := records.map Result.ofRecord }, records.map Record.sort)

/-! ### Writing -/

/-- A text that may be absent. -/
def optionalText : Option String → Value
  | some s => .text s
  | none => .null

/-- The machine as an object. -/
def SystemInfo.toValue (i : SystemInfo) : Value :=
  .object
    [("os", .text i.os), ("os_version", .text i.osVersion),
      ("kernel_version", optionalText i.kernelVersion), ("cpu_model", .text i.cpuModel),
      ("cpu_cores", .nat i.cpuCores.toNat), ("memory_bytes", .nat i.memoryBytes.toNat),
      ("hostname", .text i.hostname), ("arch", .text i.arch),
      ("hardware_counter", .bool i.hardwareCounter)]

/-- A result as an object; an absent category is left out. -/
def Result.toValue (r : Result) : Value :=
  .object
    ([("name", .text r.name)] ++
      (match r.category with
        | some c => [("category", .text c)]
        | none => []) ++
      [("tier", .text r.tier.label), ("median", .double r.median), ("min", .double r.min),
        ("max", .double r.max), ("total_time", .nat r.totalTime.toNat),
        ("total_iterations", .nat r.totalIterations.toNat), ("throughput", .double r.throughput)])

/-- A summary as an object. -/
def Summary.toValue (s : Summary) : Value :=
  .object
    [("benchmark_suite", .text s.suite), ("version", .text s.version),
      ("timestamp", .text s.timestamp.toText), ("system_info", s.systemInfo.toValue),
      ("outer_rounds", .nat s.outerRounds.toNat), ("results", .list (s.results.map Result.toValue))]

/-- A summary as text. -/
def Summary.toText (s : Summary) : String := s.toValue.pretty 0

/-! ### Reading -/

/-- What is known of a machine while it is read. -/
structure SystemInfoDraft where
  os : Option String := none
  osVersion : Option String := none
  kernelVersion : Option String := none
  cpuModel : Option String := none
  cpuCores : Option UInt64 := none
  memoryBytes : Option UInt64 := none
  hostname : Option String := none
  arch : Option String := none
  hardwareCounter : Option Bool := none

/-- The fields of a machine. -/
def systemInfoFields : List (Json.Field SystemInfoDraft) :=
  [ .of "os" (Json.readString "a string") fun v d ↦ { d with os := some v },
    .of "os_version" (Json.readString "a string") fun v d ↦ { d with osVersion := some v },
    .of "kernel_version" (Json.readOptional (Json.readString "a string")) fun v d ↦
      { d with kernelVersion := v },
    .of "cpu_model" (Json.readString "a string") fun v d ↦ { d with cpuModel := some v },
    .of "cpu_cores" (Json.readUInt64 "usize") fun v d ↦ { d with cpuCores := some v },
    .of "memory_bytes" (Json.readUInt64 "u64") fun v d ↦ { d with memoryBytes := some v },
    .of "hostname" (Json.readString "a string") fun v d ↦ { d with hostname := some v },
    .of "arch" (Json.readString "a string") fun v d ↦ { d with arch := some v },
    .of "hardware_counter" Json.readBool fun v d ↦ { d with hardwareCounter := some v } ]

/-- A machine whose fields are all there. -/
def SystemInfoDraft.finish (d : SystemInfoDraft) : Except Complaint SystemInfo := do
  let os ← required "os" d.os
  let osVersion ← required "os_version" d.osVersion
  let cpuModel ← required "cpu_model" d.cpuModel
  let cpuCores ← required "cpu_cores" d.cpuCores
  let memoryBytes ← required "memory_bytes" d.memoryBytes
  let hostname ← required "hostname" d.hostname
  let arch ← required "arch" d.arch
  let hardwareCounter ← required "hardware_counter" d.hardwareCounter
  return { os, osVersion, kernelVersion := d.kernelVersion, cpuModel, cpuCores, memoryBytes,
           hostname, arch, hardwareCounter }

/-- Reads a machine. -/
def SystemInfo.read : Reader SystemInfo :=
  readRecord "struct SystemInfo" systemInfoFields {} SystemInfoDraft.finish

/-- What is known of a result while it is read. -/
structure ResultDraft where
  name : Option String := none
  category : Option String := none
  tier : Option Tier := none
  median : Option Float := none
  min : Option Float := none
  max : Option Float := none
  totalTime : Option UInt64 := none
  totalIterations : Option UInt64 := none
  throughput : Option Float := none

/-- The fields of a result. -/
def resultFields : List (Json.Field ResultDraft) :=
  [ .of "name" (Json.readString "a string") fun v d ↦ { d with name := some v },
    .of "category" (Json.readOptional (Json.readString "a string")) fun v d ↦
      { d with category := v },
    .of "tier" (Json.readVariant Tier.variants) fun v d ↦ { d with tier := some v },
    .of "median" Json.readDouble fun v d ↦ { d with median := some v },
    .of "min" Json.readDouble fun v d ↦ { d with min := some v },
    .of "max" Json.readDouble fun v d ↦ { d with max := some v },
    .of "total_time" (Json.readUInt64 "u64") fun v d ↦ { d with totalTime := some v },
    .of "total_iterations" (Json.readUInt64 "u64") fun v d ↦ { d with totalIterations := some v },
    .of "throughput" Json.readDouble fun v d ↦ { d with throughput := some v } ]

/-- A result whose fields are all there. -/
def ResultDraft.finish (d : ResultDraft) : Except Complaint Result := do
  let name ← required "name" d.name
  let tier ← required "tier" d.tier
  let median ← required "median" d.median
  let min ← required "min" d.min
  let max ← required "max" d.max
  let totalTime ← required "total_time" d.totalTime
  let totalIterations ← required "total_iterations" d.totalIterations
  let throughput ← required "throughput" d.throughput
  return { name, category := d.category, tier, median, min, max, totalTime, totalIterations,
           throughput }

/-- Reads a result. -/
def Result.read : Reader Result :=
  readRecord "struct BenchmarkResult" resultFields {} ResultDraft.finish

/-- Reads a timestamp. -/
def readTimestamp : Reader Timestamp := fun bs ↦ do
  let (s, r) ← Json.readString "an RFC 3339 formatted date and time string" bs
  match Timestamp.ofString s with
  | .ok t => return (t, r)
  | .error flaw => throw (.misfit (.refused flaw.message))

/-- What is known of a summary while it is read. -/
structure SummaryDraft where
  suite : Option String := none
  version : Option String := none
  timestamp : Option Timestamp := none
  systemInfo : Option SystemInfo := none
  outerRounds : Option UInt64 := none
  results : Option (List Result) := none

/-- The fields of a summary. -/
def summaryFields : List (Json.Field SummaryDraft) :=
  [ .of "benchmark_suite" (Json.readString "a string") fun v d ↦ { d with suite := some v },
    .of "version" (Json.readString "a string") fun v d ↦ { d with version := some v },
    .of "timestamp" readTimestamp fun v d ↦ { d with timestamp := some v },
    .of "system_info" SystemInfo.read fun v d ↦ { d with systemInfo := some v },
    .of "outer_rounds" (Json.readUInt64 "u64") fun v d ↦ { d with outerRounds := some v },
    .of "results" (Json.readList Result.read) fun v d ↦ { d with results := some v } ]

/-- A summary whose fields are all there. -/
def SummaryDraft.finish (d : SummaryDraft) : Except Complaint Summary := do
  let suite ← required "benchmark_suite" d.suite
  let version ← required "version" d.version
  let timestamp ← required "timestamp" d.timestamp
  let systemInfo ← required "system_info" d.systemInfo
  let outerRounds ← required "outer_rounds" d.outerRounds
  let results ← required "results" d.results
  return { suite, version, timestamp, systemInfo, outerRounds, results }

/-- Reads the summary that a text holds. -/
def Summary.ofOctets (bs : List UInt8) : Except Json.Issue Summary :=
  Json.readWhole (readRecord "struct BenchmarkReport" summaryFields {} SummaryDraft.finish) bs

end Crossing.Report
