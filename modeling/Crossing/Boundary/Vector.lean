/-!
# Packed vectors

Vectors of four and of two single-precision numbers, as they cross the boundary by value or by
pointer.
-/

namespace Crossing.Boundary

/-- Four numbers. -/
structure Vector4 where
  x : Float32 := 0
  y : Float32 := 0
  z : Float32 := 0
  w : Float32 := 0

/-- Two numbers. -/
structure Vector2 where
  x : Float32 := 0
  y : Float32 := 0

namespace Vector4

/-- Adds place by place. -/
def add (a b : Vector4) : Vector4 := ⟨a.x + b.x, a.y + b.y, a.z + b.z, a.w + b.w⟩

instance : Add Vector4 := ⟨add⟩

/-- All numbers added up, first to last. -/
def sum (v : Vector4) : Float32 := v.x + v.y + v.z + v.w

/-- Whether all numbers agree. -/
def same (a b : Vector4) : Bool := a.x == b.x && a.y == b.y && a.z == b.z && a.w == b.w

/-- The vector that the native side returns. -/
def sample : Vector4 := ⟨1, 2, 3, 4⟩

end Vector4

/-- The integer that the native side returns. -/
def sampleInt : Int32 := 1

/-- The double that the native side returns. -/
def sampleDouble : Float := 1

/-- Writes a value to a place, if there is one. -/
def writeTo {α : Type} (value : α) (place : Option α) : Option α := place.map fun _ ↦ value

end Crossing.Boundary
