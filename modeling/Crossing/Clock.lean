/-!
# Clocks

A clock shows a counter of 64 bits that wraps around. A scripted clock shows given readings one
after the other and then repeats the last one.
-/

namespace Crossing

/-- The time between two readings, across a wrap-around of the counter. -/
def elapsed (start stop : UInt64) : UInt64 := stop - start

/-- A clock that shows `pending` readings; `last` is what it showed last. -/
structure ScriptedClock where
  pending : List UInt64 := []
  last : UInt64 := 0
  deriving DecidableEq, Repr

namespace ScriptedClock

/-- The next reading. -/
def now (c : ScriptedClock) : UInt64 × ScriptedClock :=
  match c.pending with
  | r :: rs => (r, ⟨rs, r⟩)
  | [] => (c.last, c)

/-- The number of readings still to come. -/
def remaining (c : ScriptedClock) : Nat := c.pending.length

/-- A clock whose readings come in pairs that are `step` apart. -/
def stepping (step : UInt64) (pairs : Nat) : ScriptedClock :=
  { pending := (List.range pairs).flatMap fun i ↦
      [i.toUInt64 * step * 2, i.toUInt64 * step * 2 + step] }

end ScriptedClock

/-- Why a thread could not be tied to a processor. -/
structure PinError where
  cpu : Nat
  deriving DecidableEq, Repr

/-- The failure in words. -/
def PinError.message (e : PinError) : String :=
  "Failed to pin thread to CPU " ++ toString e.cpu ++ ": Invalid argument (os error 22)"

/-- A set of processors has room for 1024 of them. -/
def checkCpu (cpu : Nat) : Except PinError Unit := if cpu < 1024 then .ok () else .error ⟨cpu⟩

end Crossing
