import Crossing.Strategy.Holder

/-!
# Strategies on objects

Calls on a named object and on a callback test, which the holder makes when it is made and releases
when it is released.
-/

namespace Crossing.Strategy

open Boundary
open Step

/-- The holder of the strategies on objects. -/
structure ObjectCalls where
  rounds : UInt64
  object : Nat
  test : Nat
  sink : Sink := {}

instance : Holder ObjectCalls where
  rounds := ObjectCalls.rounds
  sink := ObjectCalls.sink
  setSink h s := { h with sink := s }

namespace ObjectCalls

variable {S C P : Type}

/-- The name of the object at first. -/
def objectName : String := "test"

/-- Makes a holder with its object and its callback test. -/
def create (rounds : UInt64) : StateM (World S C P) (Except Fault ObjectCalls) := fun w ↦
  match w.objects.create (some (octetsOf objectName)) with
  | (none, objects) => (.error ⟨"mb_test_object_create", .nullPointer⟩, { w with objects })
  | (some object, objects) =>
    let (test, tests) := w.tests.create
    (.ok { rounds, object, test }, { w with objects, tests })

/-- Releases the callback test and the object. -/
def release (h : ObjectCalls) (w : World S C P) : World S C P :=
  { w with tests := w.tests.drop (some h.test), objects := w.objects.drop (some h.object) }

/-- Steps of this holder. -/
abbrev Task (S C P : Type) : Type → Type := Step ObjectCalls (World S C P)

/-- The number of rounds as a signed number, at most the greatest one. -/
def signedRounds (h : ObjectCalls) : Int64 :=
  Int64.ofNat (min h.rounds.toNat 9223372036854775807)

/-- A call that does nothing. -/
def emptyFunction : Task S C P UInt64 := eachRound (call "mb_empty_function" (consume ()))

/-- Adds a vector over and over, each time by a step, and keeps the sum of its numbers. -/
def addOver (add : Vector4 → Task S C P Vector4) : Task S C P UInt64 := do
  let h ← holder
  let v ← iterate add h.rounds.toNat {}
  keep v.sum.toFloat
  return h.rounds

/-- Adds vectors by value. -/
def addVectors : Task S C P UInt64 := addOver fun v ↦ pure (v + .sample)

/-- Adds vectors by value, with a guard around the addition. -/
def addVectorsGuarded : Task S C P UInt64 := addOver fun v ↦ pure (v + .sample)

/-- Adds vectors by pointer. -/
def addVectorsByRef : Task S C P UInt64 :=
  addOver fun v ↦ call "mb_test_object_add_float_vectors_by_ref"
    (addByRef (some v) (some .sample) true)

/-- Renames the object. -/
def setName : Task S C P UInt64 :=
  eachRound do
    let h ← holder
    call "mb_test_object_set_name"
      (World.onObjects (Objects.setName (some h.object) (some (octetsOf "abc"))))

/-- Takes the name of the object over. -/
def getName : Task S C P UInt64 :=
  eachRound do
    let h ← holder
    let entryPoint := "mb_test_object_get_name"
    let span ← call entryPoint (World.objectName (some h.object) true true)
    keepLength (← takeOver entryPoint whenMade span narrowSize?)

/-- Joins two texts and takes the result over. -/
def concatenateStrings : Task S C P UInt64 :=
  eachRound do
    let h ← holder
    let entryPoint := "mb_test_object_concatenate_strings"
    let span ← call entryPoint
      (World.concatenate (some h.object) (some (octetsOf "abc")) (some (octetsOf "def")) true true)
    keepLength (← takeOver entryPoint whenMade span narrowSize?)

/-- Hands a new callback over to the callback test. -/
def replaceCallback : Task S C P UInt64 :=
  eachRound do
    let h ← holder
    call "mb_callback_test_set_callback" (World.onTests do
      let context ← modifyGet (CallbackTests.createContext (.function (· ++ ·)))
      CallbackTests.setCallback (some h.test) context)

/-- Runs a loop of the callback test and keeps its sum. -/
def keepLoop (entryPoint : String)
    (loop : (object out : Bool) → Int64 → Call (World S C P) Int64) : Task S C P UInt64 := do
  let h ← holder
  let isThere := (← cross get).tests.objects.isLive h.test
  let sum ← call entryPoint (loop isThere true h.signedRounds)
  keep sum.toFloat
  return h.rounds

/-- Has a callback on integers called over and over. -/
def invokeIntCallback : Task S C P UInt64 :=
  keepLoop "mb_callback_test_invoke_int_callback_repeatedly" fun object out rounds ↦
    repeatInt object out rounds fun a b ↦ pure (a + b)

/-- Has a callback on a text called over and over. -/
def invokeStringParamCallback : Task S C P UInt64 :=
  keepLoop "mb_callback_test_invoke_string_param_callback_repeatedly" fun object out rounds ↦
    repeatTextParameter object out rounds fun s ↦ pure (Int32.ofNat (octetsOf s).length)

/-- Has a callback that returns a text called over and over. -/
def invokeStringReturnCallback : Task S C P UInt64 :=
  keepLoop "mb_callback_test_invoke_string_return_callback_repeatedly" fun object out rounds ↦
    repeatTextReturn object out rounds (pure (some (octetsOf "abcdef")))

/-- The methods of the holder, in order. -/
def methods : List (String × Task S C P UInt64) :=
  [ ("test_empty_function", emptyFunction),
    ("test_add_float_vectors", addVectors),
    ("test_add_float_vectors_guarded", addVectorsGuarded),
    ("test_add_float_vectors_by_ref", addVectorsByRef),
    ("test_set_name", setName),
    ("test_get_name", getName),
    ("test_concatenate_strings", concatenateStrings),
    ("test_replace_callback", replaceCallback),
    ("test_invoke_int_callback", invokeIntCallback),
    ("test_invoke_string_param_callback", invokeStringParamCallback),
    ("test_invoke_string_return_value_callback", invokeStringReturnCallback) ]

end ObjectCalls

end Crossing.Strategy
