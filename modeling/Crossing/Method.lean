import Crossing.Boundary.Native
import Crossing.Fault

/-!
# Methods of holders

A holder has a state of its own and works on what is behind the boundary. A step changes both and
may fail with a fault; what it changed before that stays changed. A method is a step that says how
many iterations it made.
-/

namespace Crossing

/-- A step of a holder `H` that works on `N`. -/
abbrev Step (H N : Type) : Type → Type := ExceptT Fault (StateM (H × N))

/-- A step that returns a number of iterations. -/
abbrev Method (H N : Type) : Type := Step H N UInt64

namespace Step

variable {H N α : Type}

/-- The holder as it is. -/
def holder : Step H N H := return (← get).1

/-- Changes the holder. -/
def changeHolder (f : H → H) : Step H N Unit := modify fun s ↦ (f s.1, s.2)

/-- A transition on the other side of the boundary. -/
def cross (f : StateM N α) : Step H N α := ExceptT.lift fun s ↦
  let (a, n) := f s.2
  (a, (s.1, n))

/-- Calls an entry point by its name. A failure becomes a fault of that entry point. -/
def call (entryPoint : String) (f : Boundary.Call N α) : Step H N α := do
  match ← cross f.run with
  | .ok a => return a
  | .error cause => throw ⟨entryPoint, cause⟩

/-- Does a step `n` times, each with the result of the one before. -/
def iterate (step : α → Step H N α) : Nat → α → Step H N α
  | 0, a => pure a
  | n + 1, a => do iterate step n (← step a)

/-- Does a step `n` times. -/
def times (n : Nat) (step : Step H N Unit) : Step H N Unit := iterate (fun _ ↦ step) n ()

end Step

end Crossing
