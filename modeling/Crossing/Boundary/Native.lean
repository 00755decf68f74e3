import Crossing.Boundary.Buffer
import Crossing.Fault
import Crossing.Text.Utf16
import Crossing.Text.Utf8

/-!
# The native state of a thread

The native side stores one test text, which it can give back in several ways, copies of the last
texts it was asked to own, and at most one callback of each kind. Each entry point is a state
transition that may fail; where it fails, the state is as it was.

* A stateless callback is a function, or a machine that may call back across the boundary.
* A stateful callback is called with the address of its context.
* A caller that is lent the stored text may pass a part of it back. Storing a text frees the one
  before, and reads what was passed once more after that.
-/

namespace Crossing.Boundary

/-- Where a context is. Zero is the null pointer. -/
abbrev Address := Nat

/-- A callback without a context. -/
inductive Stateless (S : Type)
  | function (f : Int32 → Int32)
  | machine (s : S)

/-- A callback with a context: the one that calls the closure there, or a function of
the address. -/
inductive Stateful
  | closure
  | function (f : Address → Int32 → Int32)

/-- The native state of a thread. -/
structure Native (S : Type) where
  testBytes : List UInt8 := []
  testUnits : List UInt16 := []
  ownedNarrow : List UInt8 := []
  ownedWide : List UInt16 := []
  staticSlot : Option (Stateless S) := none
  dynamicSlot : Option (Stateful × Address) := none

/-- Octets that a caller passes: its own, or a part of the stored text that it was lent. Once that
text is freed, nothing is known of what is there, and `remains` are the units read from it then. -/
inductive Octets
  | own (octets : List UInt8)
  | lent (start length : Nat) (remains : List UInt16)
  deriving DecidableEq, Repr

namespace Octets

/-- Whether the octets belong to the caller. -/
def isOwn : Octets → Bool
  | own _ => true
  | lent .. => false

/-- The octets, as long as `stored` is the stored text. -/
def read (stored : List UInt8) : Octets → List UInt8
  | own octets => octets
  | lent start length _ => (stored.drop start).take length

/-- The units of the characters that the octets had, read after the stored text was freed. -/
def unitsAfterFree (chars : List Char) : Octets → List UInt16
  | own _ => Text.Utf16.encode chars
  | lent _ _ remains => if chars.isEmpty then [] else remains

end Octets

/-- A call of an entry point that works on a state. -/
abbrev Call (σ : Type) : Type → Type := ExceptT Cause (StateM σ)

namespace Call

variable {σ α : Type}

/-- Demands a pointer that is not null. -/
def demand : Option α → Call σ α
  | some a => pure a
  | none => throw .nullPointer

/-- Demands that a pointer for a result was given. -/
def demandOut (given : Bool) : Call σ Unit := if given then pure () else throw .nullPointer

/-- Demands that a text could be decoded. -/
def demandText : Option α → Call σ α
  | some a => pure a
  | none => throw .invalidEncoding

/-- A transition that cannot fail. -/
def always (f : StateM σ α) : Call σ α := ExceptT.lift f

/-- The status that a caller sees. -/
def status : Except Cause α → Status
  | .ok _ => .success
  | .error c => .failure c

end Call

namespace Native

variable {S : Type}

open Call

/-! ### Texts that come in -/

/-- Stores the test text, which has to be UTF-8. -/
def setTestString (data : Option Octets) : Call (Native S) Unit := do
  let octets ← demand data
  let bytes := octets.read (← get).testBytes
  let chars ← demandText (Text.Utf8.decode? bytes)
  -- this frees the text that was stored
  modify fun n ↦ { n with testBytes := bytes }
  modify fun n ↦ { n with testUnits := octets.unitsAfterFree chars }

/-- Owns a copy of a narrow text that has to be UTF-8. -/
def ownNarrow (data : Option (List UInt8)) : Call (Native S) Unit := do
  let bytes ← demand data
  let _ ← demandText (Text.Utf8.decode? bytes)
  modify fun n ↦ { n with ownedNarrow := bytes }

/-- Owns a copy of the narrow text that starts at a pointer and ends before a zero. -/
def ownTerminated (memory : Option (List UInt8)) : Call (Native S) Unit :=
  ownNarrow (memory.map untilZero)

/-- Owns a copy of any wide text. -/
def ownWide (data : Option (List UInt16)) : Call (Native S) Unit := do
  let units ← demand data
  modify fun n ↦ { n with ownedWide := units }

/-- Owns the narrow form of a wide text that has to be UTF-16. -/
def ownTranscoded (data : Option (List UInt16)) : Call (Native S) Unit := do
  let units ← demand data
  let chars ← demandText (Text.Utf16.decode? units)
  modify fun n ↦ { n with ownedNarrow := Text.Utf8.encode chars }

/-- The number of elements that are owned. -/
def ownedSize (n : Native S) : Nat := n.ownedNarrow.length + n.ownedWide.length

/-! ### The test text on its way out -/

/-- A new buffer with the octets and a zero. -/
def allocNarrow (n : Native S) (b : Buffers) : Span UInt8 × Buffers := b.issue (n.testBytes ++ [0])

/-- A new buffer with the units and a zero. -/
def allocWide (n : Native S) (b : Buffers) : Span UInt16 × Buffers := b.issue (n.testUnits ++ [0])

/-- The stored octets themselves. -/
def lendNarrow (pointerOut lengthOut : Bool) : Call (Native S) (Span UInt8) := do
  demandOut (pointerOut && lengthOut)
  return ⟨.stored, (← get).testBytes⟩

/-- The stored units themselves. -/
def lendWide (pointerOut lengthOut : Bool) : Call (Native S) (Span UInt16) := do
  demandOut (pointerOut && lengthOut)
  return ⟨.stored, (← get).testUnits⟩

/-- The units in the caller's buffer if they fit, else in a new one; and the caller's buffer after
it. -/
def fillOrAlloc (n : Native S) (buffer : Option (List UInt16)) (capacity : Nat)
    (pointerOut lengthOut : Bool) : Call Buffers (Span UInt16 × Option (List UInt16)) := do
  demandOut (pointerOut && lengthOut)
  match buffer with
  | some old =>
    if n.testUnits.length ≤ capacity then
      return (⟨.caller, n.testUnits⟩, some (n.testUnits ++ old.drop n.testUnits.length))
    else
      return (← modifyGet (Buffers.issue · n.testUnits), some old)
  | none => return (← modifyGet (Buffers.issue · n.testUnits), none)

/-- The units in a new buffer. -/
def allocBuffer (n : Native S) (pointerOut lengthOut : Bool) : Call Buffers (Span UInt16) := do
  demandOut (pointerOut && lengthOut)
  modifyGet (Buffers.issue · n.testUnits)

/-! ### Callbacks -/

/-- Stores a stateless callback, or none. -/
def setStatic (callback : Option (Stateless S)) (n : Native S) : Native S :=
  { n with staticSlot := callback }

/-- Stores a stateful callback with its context, or none. -/
def setDynamic (callback : Option Stateful) (context : Address) (n : Native S) : Native S :=
  { n with dynamicSlot := callback.map (·, context) }

/-- Forgets both callbacks. -/
def clearCallbacks (n : Native S) : Native S := { n with staticSlot := none, dynamicSlot := none }

/-- Forgets a stateful callback that was stored with a context. -/
def forget (context : Address) (n : Native S) : Native S :=
  match n.dynamicSlot with
  | some (_, a) => if a == context then { n with dynamicSlot := none } else n
  | none => n

end Native

end Crossing.Boundary
