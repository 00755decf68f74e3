import Crossing.Catalog
import Crossing.Clock
import Crossing.Config
import Crossing.Sample

/-!
# Running a catalogue

All benchmarks are invoked once in each round, in the order of the catalogue, first in rounds that
only warm up and then in rounds that are timed. The clock is read before and after each timed
invocation, also if it fails, and never in between. The first invocation that fails ends the run,
and there are no records then. When the run is over, the benchmarks are dropped, however it ended.
-/

namespace Crossing

/-- What a run needs: a clock, and access to the state that benchmarks work on. -/
structure Bench (m : Type → Type) (M : Type) where
  now : m UInt64
  enter : {α : Type} → (M → α × M) → m α

/-- How a catalogue is run. -/
structure Runner where
  outerRounds : OuterRounds := .standard
  warmupRounds : UInt64 := 0

namespace Runner

/-- The runner that a configuration asks for. -/
def ofConfig (c : RunnerConfig) : Runner := ⟨c.outerRounds, c.warmupRounds⟩

section

variable {m : Type → Type} [Monad m] {A M : Type}

/-! ### One pass -/

/-- Visits benchmarks in order, until a visit fails. -/
def visitEach {α : Type} (visit : Benchmark A → m (Except Error α)) :
    List (Benchmark A) → m (Except Error (List α))
  | [] => pure (.ok [])
  | b :: bs => do
    match ← visit b with
    | .error e => return .error e
    | .ok a => return (← visitEach visit bs).map (a :: ·)

variable [Invocable A M]

/-- An invocation that is not timed. -/
def warm (bench : Bench m M) (b : Benchmark A) : m (Except Error IterationCount) :=
  bench.enter b.invoke

/-- The time that an invocation took, and its iterations. -/
structure Timing where
  elapsed : UInt64
  count : IterationCount

/-- An invocation between two readings of the clock. -/
def timed (bench : Bench m M) (b : Benchmark A) : m (Except Error Timing) := do
  let start ← bench.now
  let r ← bench.enter b.invoke
  let stop ← bench.now
  return r.map fun count ↦ ⟨elapsed start stop, count⟩

/-! ### All rounds -/

/-- A number of rounds that only warm up. -/
def warmRounds (bench : Bench m M) (bs : List (Benchmark A)) : Nat → m (Except Error Unit)
  | 0 => pure (.ok ())
  | k + 1 => do
    match ← visitEach (warm bench) bs with
    | .error e => return .error e
    | .ok _ => warmRounds bench bs k

/-- Adds a timing to a record. -/
def addTiming (r : Record) (t : Timing) : Record := r.add t.elapsed t.count.count

/-- A number of timed rounds. -/
def timedRounds (bench : Bench m M) (bs : List (Benchmark A)) :
    Nat → List Record → m (Except Error (List Record))
  | 0, records => pure (.ok records)
  | k + 1, records => do
    match ← visitEach (timed bench) bs with
    | .error e => return .error e
    | .ok timings => timedRounds bench bs k (List.zipWith addTiming records timings)

/-- A record without samples. -/
def blankRecord (e : Entry) : Record :=
  { name := e.name, category := e.category, isPrimary := e.isPrimary, series := {} }

/-- All rounds of a run. -/
def measure (runner : Runner) (bench : Bench m M) (c : Catalog A) :
    m (Except Error (List Record)) := do
  match ← warmRounds bench c.benchmarks runner.warmupRounds.toNat with
  | .error e => return .error e
  | .ok () =>
    timedRounds bench c.benchmarks runner.outerRounds.count.toNat (c.entries.map blankRecord)

/-- Runs a catalogue, and drops its benchmarks. -/
def run (runner : Runner) (bench : Bench m M) (c : Catalog A) : m (Except Error (List Record)) := do
  let r ← runner.measure bench c
  bench.enter fun s ↦ ((), c.drop s)
  return r

end

end Runner

end Crossing
