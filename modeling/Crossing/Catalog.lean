import Crossing.Error
import Crossing.Label
import Crossing.Method
import Crossing.Rounds

/-!
# Catalogues of benchmarks

A benchmark has a name, and possibly a category and a place in the primary tier. What it does when
it is invoked is behind its *action*, which is all that a catalogue knows of it. A catalogue is a
list of benchmarks. They may be from anywhere, and move from one catalogue to another as they are.

Whoever has a benchmark drops it when it is not needed any more, and its action may have something
to do then.
-/

namespace Crossing

/-- Actions `A` that can be invoked on a state `M`, and are dropped once. -/
class Invocable (A M : Type) where
  call : A → StateM M (Except Fault UInt64)
  drop : A → M → M

/-- What can be seen of a benchmark without invoking it. -/
structure Entry where
  name : TestName
  category : Option Category
  isPrimary : Bool
  deriving DecidableEq

/-- What an invocation comes to: a fault and a count of zero are errors. -/
def Entry.outcome (e : Entry) : Except Fault UInt64 → Except Error IterationCount
  | .error fault => .error (.invocation e.name.text fault)
  | .ok n =>
    match IterationCount.ofUInt64? n with
    | some count => .ok count
    | none => .error (.invalidCount e.name.text n)

/-- A benchmark with an action `A`. -/
structure Benchmark (A : Type) where
  name : TestName
  category : Option Category := none
  isPrimary : Bool := false
  action : A

namespace Benchmark

variable {A M : Type}

/-- A benchmark as it can be seen. -/
def entry (b : Benchmark A) : Entry := ⟨b.name, b.category, b.isPrimary⟩

/-- The same benchmark with another action. -/
def withAction {B : Type} (b : Benchmark A) (action : B) : Benchmark B :=
  ⟨b.name, b.category, b.isPrimary, action⟩

/-- Invokes a benchmark. -/
def invoke [Invocable A M] (b : Benchmark A) : StateM M (Except Error IterationCount) :=
  return b.entry.outcome (← Invocable.call b.action)

end Benchmark

/-- A list of benchmarks. -/
structure Catalog (A : Type) where
  benchmarks : List (Benchmark A) := []

/-! ### Discovery -/

/-- What the names of benchmark methods start with. -/
def methodMarker : String := "test_"

/-- The name of a method without the marker, if it has it. -/
def unmarked? (method : String) : Option String :=
  if methodMarker.toList.isPrefixOf method.toList then
    some (String.ofList (method.toList.drop methodMarker.length))
  else none

/-- The benchmarks among some methods, in order, none of which may have a name that was
seen before. -/
def discoverAfter {A : Type} : List TestName → List (String × A) →
    Except ValidationError (List (Benchmark A))
  | _, [] => .ok []
  | seen, (m, action) :: rest =>
    match unmarked? m with
    | none => discoverAfter seen rest
    | some s => do
      let name ← TestName.ofString s
      if seen.contains name then throw (.duplicateName name.text)
      let bs ← discoverAfter (name :: seen) rest
      return { name, action } :: bs

namespace Catalog

variable {A M : Type}

/-! ### Changes -/

/-- Gives all benchmarks a category. -/
def withCategory (c : Catalog A) (category : Category) : Catalog A :=
  ⟨c.benchmarks.map fun b ↦ { b with category := some category }⟩

/-- Moves all benchmarks to the primary tier. -/
def intoPrimary (c : Catalog A) : Catalog A :=
  ⟨c.benchmarks.map fun b ↦ { b with isPrimary := true }⟩

/-- One catalogue after the other. -/
def append (c d : Catalog A) : Catalog A := ⟨c.benchmarks ++ d.benchmarks⟩

/-- Adds a benchmark at the end. -/
def push (c : Catalog A) (b : Benchmark A) : Catalog A := ⟨c.benchmarks ++ [b]⟩

/-! ### Views -/

/-- The benchmarks as they can be seen, in order. -/
def entries (c : Catalog A) : List Entry := c.benchmarks.map Benchmark.entry

/-- The number of benchmarks. -/
def size (c : Catalog A) : Nat := c.benchmarks.length

/-! ### Effects -/

variable [Invocable A M]

/-- Drops all benchmarks, in order. -/
def drop (c : Catalog A) (m : M) : M :=
  c.benchmarks.foldl (fun m b ↦ Invocable.drop b.action m) m

/-- Invokes the benchmark at an index, if there is one. -/
def invoke (c : Catalog A) (i : Nat) : StateM M (Option (Except Error IterationCount)) :=
  match c.benchmarks[i]? with
  | some b => return some (← b.invoke)
  | none => return none

/-- Gives all benchmarks a category with a label. A label that is refused costs the catalogue. -/
def retag (c : Catalog A) (label : String) : ExceptT Error (StateM M) (Catalog A) := fun m ↦
  match Category.ofString label with
  | .ok category => (.ok (c.withCategory category), m)
  | .error e => (.error (.validation e), c.drop m)

/-- Appends a catalogue that is still to be made. If there is none in the end, the first one is lost
as well. -/
def andThen (c : Catalog A) (next : ExceptT Error (StateM M) (Catalog A)) :
    ExceptT Error (StateM M) (Catalog A) := fun m ↦
  match next m with
  | (.ok d, m) => (.ok (c.append d), m)
  | (.error e, m) => (.error e, c.drop m)

end Catalog

end Crossing
