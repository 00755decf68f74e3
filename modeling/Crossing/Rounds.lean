import Crossing.Validation

/-!
# Rounds and iterations

How often a catalogue is gone through, and how many elementary iterations one invocation says it
made.
-/

namespace Crossing

/-- The number of timed passes over a catalogue, from 1 to 100000. -/
structure OuterRounds where
  count : UInt64
  least : 1 ≤ count
  most : count ≤ 100000
  deriving DecidableEq

namespace OuterRounds

/-- The field that errors about outer rounds mention. -/
def field : String := "outer_rounds"

/-- Checks a number of rounds. -/
def ofUInt64 (n : UInt64) : Except ValidationError OuterRounds :=
  if h : 1 ≤ n ∧ n ≤ 100000 then .ok ⟨n, h.1, h.2⟩
  else .error (.outOfBounds field n 1 100000)

/-- The rounds of a run that nobody configured. -/
def standard : OuterRounds := ⟨100, by decide, by decide⟩

end OuterRounds

/-- A number of iterations that is not zero. -/
structure IterationCount where
  count : UInt64
  positive : count ≠ 0
  deriving DecidableEq

/-- Checks a number of iterations. -/
def IterationCount.ofUInt64? (n : UInt64) : Option IterationCount :=
  if h : n ≠ 0 then some ⟨n, h⟩ else none

end Crossing
