import Crossing.Boundary.Vector
import Crossing.Strategy.Holder

/-!
# Strategies on plain values and callbacks

Numbers and vectors by value and by pointer, and callbacks from an integer to an integer, given with
the call or stored before it.
-/

namespace Crossing.Strategy

open Boundary
open Step

/-- The holder of the strategies on values. -/
structure ValueCalls where
  rounds : UInt64
  sink : Sink := {}

instance : Holder ValueCalls where
  rounds := ValueCalls.rounds
  sink := ValueCalls.sink
  setSink h s := { h with sink := s }

namespace ValueCalls

variable {S C P : Type}

/-- Forgets the stored callbacks. -/
def release (_ : ValueCalls) (w : World S C P) : World S C P :=
  { w with thread := { w.thread with native := w.thread.native.clearCallbacks } }

/-- Steps of this holder. -/
abbrev Task (S C P : Type) : Type → Type := Step ValueCalls (World S C P)

/-! ### Values -/

/-- Hands a value in. -/
def give {α : Type} (entryPoint : String) (value : α) : Task S C P UInt64 :=
  eachRound (call entryPoint (consume value))

/-- Gets a number back by value. -/
def receive (value : Float) : Task S C P UInt64 := eachRound (keep value)

/-- Gets a value back by pointer, in a place that holds something else before. -/
def receiveAt {α : Type} (value before : α) (number : α → Float) : Task S C P UInt64 :=
  eachRound (keep (number ((writeTo value (some before)).getD before)))

/-- A vector by value. -/
def paramVector4Direct : Task S C P UInt64 := give "mb_vector4_param_direct" Vector4.sample

/-- A vector by pointer. -/
def paramVector4Ptr : Task S C P UInt64 := give "mb_vector4_param_ptr" (some Vector4.sample)

/-- A short vector by value. -/
def paramVector2Direct : Task S C P UInt64 := give "mb_vector2_param_direct" (Vector2.mk 1 2)

/-- A short vector by pointer. -/
def paramVector2Ptr : Task S C P UInt64 := give "mb_vector2_param_ptr" (some (Vector2.mk 1 2))

/-- A vector back by value. -/
def returnVector4Direct : Task S C P UInt64 := receive Vector4.sample.sum.toFloat

/-- A vector back by pointer. -/
def returnVector4Ptr : Task S C P UInt64 := receiveAt Vector4.sample {} (·.sum.toFloat)

/-- An integer back by value. -/
def returnIntDirect : Task S C P UInt64 := receive (Float.ofInt sampleInt.toInt)

/-- An integer back by pointer. -/
def returnIntPtr : Task S C P UInt64 := receiveAt sampleInt 0 (Float.ofInt ·.toInt)

/-- A double back by value. -/
def returnDoubleDirect : Task S C P UInt64 := receive sampleDouble

/-- A double back by pointer. -/
def returnDoublePtr : Task S C P UInt64 := receiveAt sampleDouble 0.0 id

/-! ### Callbacks -/

variable [Machines S C]

/-- Keeps an integer. -/
def keepInt (n : Int32) : Task S C P Unit := keep (Float.ofInt n.toInt)

/-- Works on the thread. -/
def onThread {α : Type} (f : StateM (Thread S C) α) : Task S C P α := cross fun w ↦
  let (a, thread) := f w.thread
  (a, { w with thread })

/-- Does something with a handle, which is dropped in the end, whatever happens. -/
def withHandle {α : Type} (c : Closure C) (body : Address → Task S C P α) : Task S C P α := do
  let a := (← cross get).thread.freshAddress
  onThread (modify (Thread.create a c))
  let result ← ExceptT.lift (body a).run
  onThread (modify (Thread.drop a))
  ofExcept result

/-- A stateless callback given with the call. -/
def callbackGivenStatic : Task S C P UInt64 :=
  eachRound do keepInt (← onThread (Thread.runStateless (.function id) 1))

/-- A stateless callback stored before. -/
def callbackStoredStatic : Task S C P UInt64 := do
  onThread (Thread.onNative (modify (Native.setStatic (some (.function id)))))
  eachRound do
    keepInt (← call "mb_invoke_stored_static_callback"
      (World.onThread (Thread.invokeStatic 1 true)))

/-- A closure in a new handle, given with the call. -/
def callbackGivenDynamic : Task S C P UInt64 :=
  eachRound do
    keepInt (← withHandle (.function (· + 10)) fun a ↦
      onThread (Thread.runStateful .closure a 1))

/-- A closure in a handle, stored before. -/
def storedClosure (c : Closure C) : Task S C P UInt64 :=
  withHandle c fun a ↦ do
    onThread (modify (Thread.store a))
    eachRound do
      keepInt (← call "mb_invoke_stored_dynamic_callback"
        (World.onThread (Thread.invokeDynamic a 1 true)))

/-- A closure behind a pointer, stored before. -/
def callbackStoredDynamic : Task S C P UInt64 := storedClosure (.function id)

/-- A closure that is called directly, stored before. -/
def callbackStoredDynamicDirect : Task S C P UInt64 := storedClosure (.function id)

/-- The methods of the holder, in order. -/
def methods : List (String × Task S C P UInt64) :=
  [ ("test_param_vector4_direct", paramVector4Direct),
    ("test_param_vector4_ptr", paramVector4Ptr),
    ("test_param_vector2_direct", paramVector2Direct),
    ("test_param_vector2_ptr", paramVector2Ptr),
    ("test_return_vector4_direct", returnVector4Direct),
    ("test_return_vector4_ptr", returnVector4Ptr),
    ("test_return_int_direct", returnIntDirect),
    ("test_return_int_ptr", returnIntPtr),
    ("test_return_double_direct", returnDoubleDirect),
    ("test_return_double_ptr", returnDoublePtr),
    ("test_callback_given_static", callbackGivenStatic),
    ("test_callback_stored_static", callbackStoredStatic),
    ("test_callback_given_dynamic", callbackGivenDynamic),
    ("test_callback_stored_dynamic", callbackStoredDynamic),
    ("test_callback_stored_dynamic_direct", callbackStoredDynamicDirect) ]

end ValueCalls

end Crossing.Strategy
