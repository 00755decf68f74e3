import Crossing.Rounds
import Crossing.Text.Blank

/-!
# Configurations

A draft holds what a document says, field by field, with defaults where it says nothing.
`Draft.check` turns it into a configuration or names the first rule that is violated: those of the
runner first, in the order of its fields, then those of the strategies.
-/

namespace Crossing

/-- What a document says about running. -/
structure RunnerDraft where
  outerRounds : UInt64 := 100
  warmupRounds : UInt64 := 0
  resultFile : String := "perf_test_result.txt"
  jsonSummary : Option String := none
  deriving DecidableEq, Repr

/-- The inner loop lengths, the texts and the scratch space of the strategies. Each text is
`stringBase` repeated. -/
structure StrategyConfig where
  primaryInnerRounds : UInt64 := 10000
  boundaryInnerRounds : UInt64 := 1000
  stringBase : String := "abcde12345"
  stringRepeats : List UInt64 := [1, 100]
  bufferCapacity : UInt64 := 16384
  deriving DecidableEq, Repr

/-- What a document says, not yet checked. -/
structure Draft where
  runner : RunnerDraft := {}
  strategies : StrategyConfig := {}
  deriving DecidableEq, Repr

/-- How a catalogue is run and where its reports go. -/
structure RunnerConfig where
  outerRounds : OuterRounds := .standard
  warmupRounds : UInt64 := 0
  resultFile : String := "perf_test_result.txt"
  jsonSummary : Option String := none
  deriving DecidableEq

/-- A configuration. -/
structure Config where
  runner : RunnerConfig := {}
  strategies : StrategyConfig := {}
  deriving DecidableEq

/-! ### Checking -/

/-- Fails with an error unless a condition holds. -/
def ensure (b : Bool) (e : ValidationError) : Except ValidationError Unit :=
  if b then .ok () else .error e

/-- The rules for running. -/
def RunnerDraft.check (r : RunnerDraft) : Except ValidationError RunnerConfig := do
  let outerRounds ← OuterRounds.ofUInt64 r.outerRounds
  ensure (r.warmupRounds ≤ 10000) (.outOfBounds "warmup_rounds" r.warmupRounds 0 10000)
  ensure (!Text.isBlankText r.resultFile)
    (.invalidValue "result_file" r.resultFile .blankResultFile)
  match r.jsonSummary with
  | some path =>
    ensure (!Text.isBlankText path) (.invalidValue "json_summary" path .blankSummaryFile)
  | none => pure ()
  return ⟨outerRounds, r.warmupRounds, r.resultFile, r.jsonSummary⟩

/-- The first entry that is zero or equal to an earlier one. -/
def firstBadRepeat? : List UInt64 → List UInt64 → Option UInt64
  | _, [] => none
  | seen, r :: rs => if r == 0 || seen.contains r then some r else firstBadRepeat? (r :: seen) rs

/-- Whether a text has only ASCII characters. -/
def isAscii (s : String) : Bool := s.toList.all fun c ↦ c.toNat < 128

/-- The rules for strategies. -/
def StrategyConfig.check (s : StrategyConfig) : Except ValidationError Unit := do
  ensure (s.primaryInnerRounds != 0) (.invalidValue "primary_inner_rounds" "0" .noInnerRounds)
  ensure (s.boundaryInnerRounds != 0) (.invalidValue "boundary_inner_rounds" "0" .noInnerRounds)
  ensure (!s.stringBase.isEmpty && isAscii s.stringBase)
    (.invalidValue "string_base" s.stringBase .baseNotAscii)
  ensure (!s.stringRepeats.isEmpty) (.missingField "string_repeats" "strategies section")
  match firstBadRepeat? [] s.stringRepeats with
  | some r => throw (.invalidValue "string_repeats" (toString r) .repeatsNotDistinct)
  | none => pure ()
  ensure (64 ≤ s.bufferCapacity)
    (.outOfBounds "buffer_capacity" s.bufferCapacity 64 18446744073709551615)

/-- Checks a draft. -/
def Draft.check (d : Draft) : Except ValidationError Config := do
  let runner ← d.runner.check
  d.strategies.check
  return ⟨runner, d.strategies⟩

/-! ### What a configuration means -/

namespace StrategyConfig

/-- The texts that the strategies carry, one for each repeat. -/
def texts (s : StrategyConfig) : List String :=
  s.stringRepeats.map fun r ↦
    String.ofList (List.replicate r.toNat s.stringBase.toList).flatten

/-- The number of octets that all texts have together. -/
def textSize (s : StrategyConfig) : Nat :=
  s.stringRepeats.foldr (fun r n ↦ s.stringBase.utf8ByteSize * r.toNat + n) 0

/-- Divides a number of rounds, but keeps at least one. -/
def scaleRounds (divisor rounds : UInt64) : UInt64 := max (rounds / max divisor 1) 1

/-- Shortens both inner loops. -/
def scaledDown (s : StrategyConfig) (divisor : UInt64) : StrategyConfig :=
  { s with
    primaryInnerRounds := scaleRounds divisor s.primaryInnerRounds
    boundaryInnerRounds := scaleRounds divisor s.boundaryInnerRounds }

end StrategyConfig

end Crossing
