import Crossing.Boundary.Arena

/-!
# Buffers

Texts come back across the boundary in three kinds of places: in a buffer that the native side made
and the caller has to free, in the text that the native side stores, or in the caller's own buffer.
-/

namespace Crossing.Boundary

/-- Where a text came back. -/
inductive Place
  | issued (handle : Nat)
  | stored
  | caller
  deriving DecidableEq, Repr

/-- The buffers that were handed out. -/
structure Buffers extends Arena Unit where
  /-- The places that were given to be freed, the last one first. -/
  freed : List Place := []

/-- Elements that came back, and where they are. -/
structure Span (α : Type) where
  place : Place
  items : List α
  deriving DecidableEq, Repr

namespace Buffers

/-- Hands out a buffer with some elements. -/
def issue {α : Type} (b : Buffers) (items : List α) : Span α × Buffers :=
  let (handle, arena) := b.insert ()
  (⟨.issued handle, items⟩, { b with toArena := arena })

/-- Frees a place. Only buffers that were handed out can be freed. -/
def free (b : Buffers) (place : Place) : Buffers where
  toArena :=
    match place with
    | .issued handle => b.release handle
    | _ => { b.toArena with strayed := b.strayed + 1 }
  freed := place :: b.freed

end Buffers

/-- The elements up to the first zero. -/
def untilZero {α : Type} [BEq α] [OfNat α 0] (items : List α) : List α := items.takeWhile (· != 0)

end Crossing.Boundary
