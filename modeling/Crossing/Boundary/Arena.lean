/-!
# Things behind handles

An arena holds things that are known by handles. A handle is given out once and never again.
Releasing a handle that holds nothing changes no thing, but is counted.
-/

namespace Crossing.Boundary

/-- Things by their handles. -/
structure Arena (α : Type) where
  /-- The number of handles given out, which is the next handle. -/
  issued : Nat := 0
  live : List (Nat × α) := []
  /-- How often a handle was released that held nothing. -/
  strayed : Nat := 0

namespace Arena

variable {α : Type}

/-- Puts a thing behind a new handle. -/
def insert (a : Arena α) (x : α) : Nat × Arena α :=
  (a.issued, { a with issued := a.issued + 1, live := (a.issued, x) :: a.live })

/-- The thing behind a handle. -/
def get? (a : Arena α) (handle : Nat) : Option α := a.live.lookup handle

/-- Whether there is something behind a handle. -/
def isLive (a : Arena α) (handle : Nat) : Bool := (a.get? handle).isSome

/-- Puts another thing behind a handle that is in use. -/
def set (a : Arena α) (handle : Nat) (x : α) : Arena α :=
  { a with live := a.live.map fun p ↦ if p.1 == handle then (handle, x) else p }

/-- Releases a handle. -/
def release (a : Arena α) (handle : Nat) : Arena α :=
  if a.isLive handle then { a with live := a.live.filter fun p ↦ p.1 != handle }
  else { a with strayed := a.strayed + 1 }

/-- The number of handles that were released. -/
def released (a : Arena α) : Nat := a.issued - a.live.length

end Arena

end Crossing.Boundary
