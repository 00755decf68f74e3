import Crossing.Boundary.Native

/-!
# Callbacks and the contexts they need

A thread has its native state and the contexts that live handles own. A context is a closure: a
function, or a machine with a state of its own that may call back across the boundary. While a
callback runs, the native state is free to be changed by it.

A handle is known by its address. A new handle may get the address of one that was dropped, never
that of a live one. Dropping a handle makes the native side forget a callback that was stored with
its address.
-/

namespace Crossing.Boundary

/-- What stands at a context: a function, or a machine. -/
inductive Closure (C : Type)
  | function (f : Int32 → Int32)
  | machine (c : C)

/-- What machines do when they are called. -/
class Machines (S C : Type) where
  runStateless : S → Int32 → Native S → Int32 × Native S
  runClosure : C → Int32 → Native S → Int32 × C × Native S

instance : Machines Empty Empty := ⟨nofun, nofun⟩

/-- The native state and the live contexts of a thread. -/
structure Thread (S C : Type) where
  native : Native S := {}
  contexts : List (Address × Closure C) := []

namespace Thread

variable {S C : Type}

/-- Works on the native state alone. -/
def onNative {α : Type} (f : StateM (Native S) α) : StateM (Thread S C) α := fun t ↦
  let (a, n) := f t.native
  (a, { t with native := n })

/-! ### Stateless callbacks -/

section

variable [Machines S C]

/-- Runs a stateless callback. -/
def runStateless (f : Stateless S) (value : Int32) : StateM (Thread S C) Int32 :=
  match f with
  | .function f => pure (f value)
  | .machine s => onNative (Machines.runStateless C s value)

/-- Runs the stored stateless callback. -/
def invokeStatic (value : Int32) (out : Bool) : Call (Thread S C) Int32 := do
  Call.demandOut out
  match (← get).native.staticSlot with
  | none => throw .callbackNotSet
  | some f => Call.always (runStateless f value)

/-! ### Stateful callbacks -/

/-- The closure at an address. -/
def closure? (t : Thread S C) (context : Address) : Option (Closure C) := t.contexts.lookup context

/-- Changes the closure at an address. -/
def setClosure (t : Thread S C) (context : Address) (c : Closure C) : Thread S C :=
  { t with contexts := t.contexts.map fun p ↦ if p.1 == context then (context, c) else p }

/-- Calls the closure at an address. -/
def runClosure (context : Address) (value : Int32) : StateM (Thread S C) Int32 := fun t ↦
  match t.closure? context with
  | some (.function f) => (f value, t)
  | some (.machine c) =>
    let (r, c, n) := Machines.runClosure c value t.native
    (r, { t with native := n }.setClosure context (.machine c))
  | none => (0, t)

/-- Runs a stateful callback with a context. -/
def runStateful (f : Stateful) (context : Address) (value : Int32) : StateM (Thread S C) Int32 :=
  match f with
  | .closure => runClosure context value
  | .function f => pure (f context value)

/-- Runs the stored stateful callback, if it was stored with the caller's context. -/
def invokeDynamic (context : Address) (value : Int32) (out : Bool) : Call (Thread S C) Int32 := do
  Call.demandOut out
  match (← get).native.dynamicSlot with
  | none => throw .callbackNotSet
  | some (f, stored) =>
    if stored == context then Call.always (runStateful f stored value)
    else throw .callbackMismatch

end

/-! ### Handles -/

/-- Whether an address belongs to a live handle. -/
def isLive (t : Thread S C) (a : Address) : Bool := t.contexts.any (·.1 == a)

/-- Below this address there are no contexts. -/
def heapStart : Address := 0x7f0000000000

/-- An address beyond those of all live handles. -/
def freshAddress (t : Thread S C) : Address :=
  16 + (t.contexts.map (·.1)).foldl max heapStart

/-- Makes a handle at an address that no live handle has. -/
def create (a : Address) (c : Closure C) (t : Thread S C) : Thread S C :=
  { t with contexts := (a, c) :: t.contexts }

/-- Drops the handle at an address. -/
def drop (a : Address) (t : Thread S C) : Thread S C :=
  { native := t.native.forget a, contexts := t.contexts.filter fun p ↦ p.1 != a }

/-- Stores the callback of a handle. -/
def store (a : Address) (t : Thread S C) : Thread S C :=
  { t with native := t.native.setDynamic (some .closure) a }

end Thread

end Crossing.Boundary
