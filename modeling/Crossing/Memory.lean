import Crossing.Catalog

/-!
# Holders in memory

Holders are kept in memory, one for each discovery, and stay there until nobody needs them. The
benchmarks of a discovery share its holder: a benchmark does not have the holder but the number that
it has in memory, and the place of its method. So benchmarks may go where they like, and a holder is
released when the last benchmark that shares it is dropped.

`Holder` says what the holder of each kind is, and `N` is what all holders work on.
-/

namespace Crossing

/-- A holder in memory, with the methods that were found on it. As long as it has shares, somebody
needs it; with the last share it is released. -/
structure Family {K : Type} (Holder : K → Type) (N : Type) where
  kind : K
  holder : Holder kind
  release : Holder kind → N → N
  methods : List (Method (Holder kind) N)
  shares : Nat

/-- All families there ever were, in the order in which they came, and what their holders work
on. -/
structure Memory {K : Type} (Holder : K → Type) (N : Type) where
  families : List (Family Holder N) := []
  world : N

/-- A method in memory: the number of its family, and its place there. -/
structure Target where
  family : Nat
  place : Nat
  deriving DecidableEq, Repr

/-- The fault of a method that is not there. -/
def danglingFault : Fault := ⟨"method", .nullPointer⟩

namespace Memory

variable {K : Type} {Holder : K → Type} {N : Type}

/-- Works on what all holders work on. -/
def onWorld {α : Type} (f : StateM N α) : StateM (Memory Holder N) α := fun m ↦
  let (a, world) := f m.world
  (a, { m with world })

/-- Runs the method at a place of a family, on the holder of that family. -/
def call (t : Target) : StateM (Memory Holder N) (Except Fault UInt64) := fun m ↦
  match m.families[t.family]? with
  | none => (.error danglingFault, m)
  | some family =>
    match family.methods[t.place]? with
    | none => (.error danglingFault, m)
    | some method =>
      let (r, (holder, world)) := method.run (family.holder, m.world)
      (r, ⟨m.families.set t.family { family with holder }, world⟩)

/-- Drops a share of a family, and releases the holder if it was the last one. -/
def dropShare (number : Nat) (m : Memory Holder N) : Memory Holder N :=
  match m.families[number]? with
  | none => m
  | some family =>
    { families := m.families.set number { family with shares := family.shares - 1 }
      world := if family.shares = 1 then family.release family.holder m.world else m.world }

instance : Invocable Target (Memory Holder N) where
  call := call
  drop t := dropShare t.family

/-- Takes in a family, which has the next number then. -/
def adopt (m : Memory Holder N) (family : Family Holder N) : Memory Holder N :=
  { m with families := m.families ++ [family] }

/-- Benchmarks by their methods, as benchmarks of the family with a number. -/
def settled {A : Type} (number : Nat) (found : List (Benchmark A)) : List (Benchmark Target) :=
  found.mapIdx fun place b ↦ b.withAction ⟨number, place⟩

/-- The catalogue of the benchmarks among the methods of a holder. Each of them gets a share of the
holder, and in the end discovery gives up its own. -/
def discover (kind : K) (holder : Holder kind) (release : Holder kind → N → N)
    (methods : List (String × Method (Holder kind) N)) :
    ExceptT Error (StateM (Memory Holder N)) (Catalog Target) := fun m ↦
  match discoverAfter [] methods with
  | .error e => (.error (.validation e), { m with world := release holder m.world })
  | .ok found =>
    let number := m.families.length
    let family : Family Holder N :=
      ⟨kind, holder, release, found.map Benchmark.action, found.length + 1⟩
    (.ok ⟨settled number found⟩, (m.adopt family).dropShare number)

/-- A benchmark without category and tier, on a holder of its own. -/
def wrap (kind : K) (holder : Holder kind) (release : Holder kind → N → N) (name : TestName)
    (method : Method (Holder kind) N) : StateM (Memory Holder N) (Benchmark Target) := fun m ↦
  ({ name, action := ⟨m.families.length, 0⟩ }, m.adopt ⟨kind, holder, release, [method], 1⟩)

end Memory

end Crossing
