import Crossing.Boundary.CallbackTest
import Crossing.Boundary.Object
import Crossing.Boundary.Thread

/-!
# Everything behind the boundary

The thread, the objects, the callback tests and the buffers together, and the entry points as
transitions of the whole.
-/

namespace Crossing.Boundary

/-- All that is behind the boundary. The parameters are the machines that callbacks may be. -/
structure World (S C P : Type) where
  thread : Thread S C := {}
  objects : Objects := {}
  tests : CallbackTests P := {}
  buffers : Buffers := {}

namespace World

variable {S C P α : Type}

/-- The native state of the thread. -/
def native (w : World S C P) : Native S := w.thread.native

/-- Works on the thread alone. -/
def onThread (f : Call (Thread S C) α) : Call (World S C P) α := fun w ↦
  let (r, thread) := f w.thread
  (r, { w with thread })

/-- Works on the native state alone. -/
def onNative (f : Call (Native S) α) : Call (World S C P) α :=
  onThread fun t ↦
    let (r, native) := f t.native
    (r, { t with native })

/-- Changes the native state. -/
def changeNative (f : Native S → Native S) : Call (World S C P) Unit := onNative (modify f)

/-- Works on the objects alone. -/
def onObjects (f : Call Objects α) : Call (World S C P) α := fun w ↦
  let (r, objects) := f w.objects
  (r, { w with objects })

/-- Works on the callback tests alone. -/
def onTests (f : Call (CallbackTests P) α) : Call (World S C P) α := fun w ↦
  let (r, tests) := f w.tests
  (r, { w with tests })

/-- Works on the buffers alone, with a view of the whole. -/
def onBuffers (f : World S C P → Call Buffers α) : Call (World S C P) α := fun w ↦
  let (r, buffers) := f w w.buffers
  (r, { w with buffers })

/-! ### Texts that come back in buffers -/

/-- The test text in a new buffer, ended by a zero. -/
def allocNarrow : Call (World S C P) (Span UInt8) :=
  onBuffers fun w ↦ modifyGet w.native.allocNarrow

/-- The wide test text in a new buffer, ended by a zero. -/
def allocWide : Call (World S C P) (Span UInt16) :=
  onBuffers fun w ↦ modifyGet w.native.allocWide

/-- The wide test text in the caller's buffer or in a new one. -/
def fillOrAlloc (buffer : Option (List UInt16)) (capacity : Nat) (pointerOut lengthOut : Bool) :
    Call (World S C P) (Span UInt16 × Option (List UInt16)) :=
  onBuffers fun w ↦ w.native.fillOrAlloc buffer capacity pointerOut lengthOut

/-- The wide test text in a new buffer. -/
def allocBuffer (pointerOut lengthOut : Bool) : Call (World S C P) (Span UInt16) :=
  onBuffers fun w ↦ w.native.allocBuffer pointerOut lengthOut

/-- The name of an object in a new buffer. -/
def objectName (object : Option Nat) (pointerOut lengthOut : Bool) :
    Call (World S C P) (Span UInt8) :=
  onBuffers fun w ↦ w.objects.getName object pointerOut lengthOut

/-- Two views in a new buffer. -/
def concatenate (object : Option Nat) (a b : Option (List UInt8)) (pointerOut lengthOut : Bool) :
    Call (World S C P) (Span UInt8) :=
  onBuffers fun w ↦ w.objects.concatenate object a b pointerOut lengthOut

/-- Frees a place. -/
def free (place : Place) : Call (World S C P) Unit :=
  onBuffers fun _ ↦ modify (Buffers.free · place)

end World

end Crossing.Boundary
