/-!
# Scratch buffers

A pool has a buffer of octets, which grows when more is asked for, and a buffer of units, which
keeps its size. What was written stays until it is written over.
-/

namespace Crossing.Strategy

/-- Scratch buffers. -/
structure Pool where
  bytes : List UInt8
  units : List UInt16
  deriving DecidableEq, Repr

namespace Pool

/-- A pool for a number of octets, and half as many units. -/
def ofCapacity (n : Nat) : Pool := ⟨List.replicate n 0, List.replicate (n / 2) 0⟩

/-- The size of the buffer of octets. -/
def capacity (p : Pool) : Nat := p.bytes.length

/-- The pool with room for some octets. -/
def grow (p : Pool) (n : Nat) : Pool :=
  { p with bytes := p.bytes ++ List.replicate (n - p.bytes.length) 0 }

/-- The first octets of the buffer. -/
def front (p : Pool) (n : Nat) : List UInt8 := p.bytes.take n

/-- Writes octets to the front of the buffer. -/
def setFront (p : Pool) (bs : List UInt8) : Pool :=
  { p with bytes := bs ++ p.bytes.drop bs.length }

/-- Writes all units. -/
def setUnits (p : Pool) (us : List UInt16) : Pool := { p with units := us }

end Pool

end Crossing.Strategy
