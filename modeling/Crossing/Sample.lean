import Crossing.Label

/-!
# Samples

A sample is the elapsed time of one invocation divided by the iterations it made. A series has the
samples of one benchmark and their totals, which wrap around. Asking for the median sorts the
samples, and the median is the one in the middle, the upper one of two.

Samples are sorted in the total order of doubles, which goes by their bits: negative ones come
before positive ones, and those that are not numbers at the ends. At which end `0 / 0` comes is up
to the platform.
-/

namespace Crossing

/-! ### The total order of doubles -/

/-- What the arithmetic of a platform decides for itself: the bits of `0 / 0`. There are many for a
double that is not a number, with and without a sign. -/
class Platform where
  nanBits : UInt64
  isNaN : (Float.ofBits nanBits).isNaN = true

namespace Platform

/-- A platform on which `0 / 0` has a sign. -/
@[reducible] def signed : Platform := ⟨0xFFF8000000000000, by decide⟩

/-- The bits of a double on the platform. -/
def bits [Platform] (x : Float) : UInt64 := if x.isNaN then nanBits else x.toBits

end Platform

/-- A number that grows with the place of a double in the total order. -/
def totalKey (bits : UInt64) : UInt64 :=
  if bits < 0x8000000000000000 then bits + 0x8000000000000000 else ~~~bits

/-- Sorts values by the total order of the doubles whose bits they show. -/
def sortTotal {α : Type} (bits : α → UInt64) (xs : List α) : List α :=
  xs.mergeSort fun a b ↦ totalKey (bits a) ≤ totalKey (bits b)

/-- The element in the middle of a list, or a default for an empty one. -/
def middle {α : Type} (default : α) (xs : List α) : α := xs.getD (xs.length / 2) default

/-! ### Series -/

/-- The samples of one benchmark. -/
structure Series where
  times : Array Float := #[]
  totalTime : UInt64 := 0
  totalIterations : UInt64 := 0

namespace Series

/-- Time for one iteration. If there were none, this is infinite, or not a number if there was no
time either. -/
def quotient (elapsed iterations : UInt64) : Float := elapsed.toFloat / iterations.toFloat

/-- Adds an invocation. -/
def record (s : Series) (elapsed iterations : UInt64) : Series :=
  { times := s.times.push (quotient elapsed iterations)
    totalTime := s.totalTime + elapsed
    totalIterations := s.totalIterations + iterations }

/-- The number of samples. -/
def size (s : Series) : Nat := s.times.size

/-- The series with its samples in order. -/
def sort [Platform] (s : Series) : Series :=
  { s with times := (sortTotal Platform.bits s.times.toList).toArray }

/-- The median of the samples, zero if there are none. -/
def median [Platform] (s : Series) : Float := middle 0.0 s.sort.times.toList

/-- The smaller of two doubles, or the one that is a number. -/
def lesser (a b : Float) : Float := if a.isNaN then b else if b < a then b else a

/-- The larger of two doubles, or the one that is a number. -/
def greater (a b : Float) : Float := if a.isNaN then b else if a < b then b else a

/-- Joins the samples by an operation, zero if there are none. -/
def reduce (f : Float → Float → Float) : List Float → Float
  | [] => 0.0
  | x :: xs => xs.foldl f x

/-- The least sample. -/
def least (s : Series) : Float := reduce lesser s.times.toList

/-- The greatest sample. -/
def greatest (s : Series) : Float := reduce greater s.times.toList

/-- The time of the whole run for one iteration. -/
def throughput (s : Series) : Float :=
  if s.totalIterations == 0 then 0.0 else quotient s.totalTime s.totalIterations

end Series

/-- The section of a report that a benchmark belongs to. -/
inductive Tier
  | primary
  | secondary
  deriving DecidableEq, Repr

namespace Tier

/-- The name of a tier. -/
def label : Tier → String
  | primary => "primary"
  | secondary => "secondary"

/-- The tiers by their names. -/
def variants : List (String × Tier) := [("primary", primary), ("secondary", secondary)]

/-- The tier of a benchmark that is, or is not, a primary one. -/
def ofPrimary (isPrimary : Bool) : Tier := if isPrimary then primary else secondary

end Tier

/-- What was learned about one benchmark. -/
structure Record where
  name : TestName
  category : Option Category
  isPrimary : Bool
  series : Series

/-- The record with the samples of one more invocation. -/
def Record.add (r : Record) (elapsed iterations : UInt64) : Record :=
  { r with series := r.series.record elapsed iterations }

/-- The record with its samples in order. -/
def Record.sort [Platform] (r : Record) : Record := { r with series := r.series.sort }

end Crossing
