import Crossing.Boundary.Native

/-!
# Objects that keep a callback

A callback test owns at most one pair callback, which joins two texts to a third. The context of the
callback goes over to the object, which releases it when it is replaced or when the object is
released. Besides, an object calls a given callback over and over and adds up what comes back.
-/

namespace Crossing.Boundary

/-- A callback on two texts: a function, or a machine. -/
inductive PairClosure (P : Type)
  | function (f : String → String → String)
  | machine (p : P)

/-- What machines on two texts do when they are called. -/
class PairMachine (P : Type) where
  combine : P → String → String → String × P

instance : PairMachine Empty := ⟨nofun⟩

/-- The live objects with the contexts of their callbacks, and the live contexts. -/
structure CallbackTests (P : Type) where
  objects : Arena (Option Nat) := {}
  contexts : Arena (PairClosure P) := {}

/-- A view as text; what is not UTF-8 counts as nothing. -/
def textOfView (view : Option (List UInt8)) : String :=
  match Text.Utf8.decode? (view.getD []) with
  | some cs => String.ofList cs
  | none => ""

/-- A text as the octets of a view. -/
def octetsOf (s : String) : List UInt8 := Text.Utf8.encode s.toList

namespace CallbackTests

variable {P : Type}

/-- Makes an object without a callback. -/
def create (ts : CallbackTests P) : Nat × CallbackTests P :=
  let (handle, objects) := ts.objects.insert none
  (handle, { ts with objects })

/-- Makes a context. -/
def createContext (p : PairClosure P) (ts : CallbackTests P) : Nat × CallbackTests P :=
  let (handle, contexts) := ts.contexts.insert p
  (handle, { ts with contexts })

/-- Releases a context. -/
def releaseContext (context : Nat) (ts : CallbackTests P) : CallbackTests P :=
  { ts with contexts := ts.contexts.release context }

/-- Releases the context that an object keeps. -/
def releaseKept (kept : Option Nat) (ts : CallbackTests P) : CallbackTests P :=
  match kept with
  | some context => ts.releaseContext context
  | none => ts

/-- Releases an object with the context it keeps; nothing happens to none. -/
def drop (object : Option Nat) (ts : CallbackTests P) : CallbackTests P :=
  match object with
  | none => ts
  | some handle =>
    match ts.objects.get? handle with
    | some kept => { ts.releaseKept kept with objects := ts.objects.release handle }
    | none => { ts with objects := ts.objects.release handle }

/-- Hands a context over to an object. Without an object it is released at once. -/
def setCallback (object : Option Nat) (context : Nat) : Call (CallbackTests P) Unit := do
  let ts ← get
  match object.bind fun handle ↦ (ts.objects.get? handle).map (handle, ·) with
  | none =>
    set (ts.releaseContext context)
    throw .nullPointer
  | some (handle, kept) =>
    set { ts.releaseKept kept with objects := ts.objects.set handle (some context) }

/-- Calls a context with two texts. -/
def runContext [PairMachine P] (context : Nat) (a b : String) : StateM (CallbackTests P) String :=
  fun ts ↦
    match ts.contexts.get? context with
    | some (.function f) => (f a b, ts)
    | some (.machine p) =>
      let (r, p) := PairMachine.combine p a b
      (r, { ts with contexts := ts.contexts.set context (.machine p) })
    | none => ("", ts)

/-- Calls the callback that an object keeps. -/
def invokeStored [PairMachine P] (object : Option Nat) (a b : Option (List UInt8)) (out : Bool) :
    Call (CallbackTests P) (List UInt8) := do
  let kept ← Call.demand (object.bind (← get).objects.get?)
  Call.demandOut out
  match kept with
  | none => throw .callbackNotSet
  | some context =>
    return octetsOf (← Call.always (runContext context (textOfView a) (textOfView b)))

end CallbackTests

/-! ### Calling over and over -/

section

variable {σ : Type}

/-- Adds up what `n` calls contribute, in 64 bits; a call that fails ends it. -/
def addUp (step : Call σ Int64) : Nat → Int64 → Call σ Int64
  | 0, sum => pure sum
  | n + 1, sum => do
    let v ← step
    addUp step n (sum + v)

/-- How often a loop runs for a signed number of rounds. -/
def roundCount (rounds : Int64) : Nat := rounds.toInt.toNat

/-- Adds up what a callback contributes; the object and the place for the sum have to be there. -/
def repeatedly (object out : Bool) (rounds : Int64) (step : Call σ Int64) : Call σ Int64 := do
  Call.demandOut (object && out)
  addUp step (roundCount rounds) 0

/-- The sum of a callback on two integers, which are 1 and 2. -/
def repeatInt (object out : Bool) (rounds : Int64) (callback : Int32 → Int32 → StateM σ Int32) :
    Call σ Int64 :=
  repeatedly object out rounds do return (← Call.always (callback 1 2)).toInt64

/-- The text that callbacks on a text get. -/
def textParameter : String := "abc"

/-- The sum of a callback on a text. -/
def repeatTextParameter (object out : Bool) (rounds : Int64) (callback : String → StateM σ Int32) :
    Call σ Int64 :=
  repeatedly object out rounds do return (← Call.always (callback textParameter)).toInt64

/-- The total size of the texts that a callback returns, which have to be UTF-8. -/
def repeatTextReturn (object out : Bool) (rounds : Int64)
    (callback : StateM σ (Option (List UInt8))) : Call σ Int64 :=
  repeatedly object out rounds do
    let bytes := (← Call.always callback).getD []
    let _ ← Call.demandText (Text.Utf8.decode? bytes)
    return Int64.ofNat bytes.length

end

end Crossing.Boundary
