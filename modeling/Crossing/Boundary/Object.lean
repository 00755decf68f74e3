import Crossing.Boundary.Native
import Crossing.Boundary.Vector

/-!
# Named objects

Objects behind handles that have a name, which is UTF-8.
-/

namespace Crossing.Boundary

/-- The live objects and their names. -/
abbrev Objects := Arena (List UInt8)

namespace Objects

open Call

/-- Makes an object with a name. -/
def create (name : Option (List UInt8)) (os : Objects) : Option Nat × Objects :=
  match name with
  | none => (none, os)
  | some bytes =>
    if Text.Utf8.isValid bytes then
      let (handle, os) := os.insert bytes
      (some handle, os)
    else (none, os)

/-- Releases an object; nothing happens to none. -/
def drop (object : Option Nat) (os : Objects) : Objects :=
  match object with
  | some handle => os.release handle
  | none => os

/-- The name of an object that has to be there. -/
def name (os : Objects) (object : Option Nat) : Option (List UInt8) := object.bind os.get?

/-- Renames an object. -/
def setName (object : Option Nat) (name : Option (List UInt8)) : Call Objects Unit := do
  let handle ← demand object
  let _ ← demand ((← get).get? handle)
  let bytes ← demand name
  let _ ← demandText (Text.Utf8.decode? bytes)
  modify (Arena.set · handle bytes)

/-- The name of an object in a new buffer. -/
def getName (os : Objects) (object : Option Nat) (pointerOut lengthOut : Bool) :
    Call Buffers (Span UInt8) := do
  let bytes ← demand (os.name object)
  demandOut (pointerOut && lengthOut)
  modifyGet (Buffers.issue · bytes)

/-- Two views, one after the other, in a new buffer. A null view is empty. -/
def concatenate (os : Objects) (object : Option Nat) (a b : Option (List UInt8))
    (pointerOut lengthOut : Bool) : Call Buffers (Span UInt8) := do
  let _ ← demand (os.name object)
  demandOut (pointerOut && lengthOut)
  modifyGet (Buffers.issue · (a.getD [] ++ b.getD []))

end Objects

/-- Adds two vectors into a third, all given by pointers that may be null. -/
def addByRef {σ : Type} (a b : Option Vector4) (out : Bool) : Call σ Vector4 := do
  let x ← Call.demand a
  let y ← Call.demand b
  Call.demandOut out
  return x + y

end Crossing.Boundary
