/-!
# Faults at the boundary

What an entry point of the native side reports when it cannot do its work, and the status it returns
for it. A status becomes a fault once it is known which entry point returned it.
-/

namespace Crossing

/-- Why an entry point failed. -/
inductive Cause
  | nullPointer
  | callbackNotSet
  | callbackMismatch
  | allocationFailed
  | invalidEncoding
  deriving DecidableEq, Repr

/-- A cause in words. -/
def Cause.message : Cause → String
  | nullPointer => "null pointer passed across the boundary"
  | callbackNotSet => "no callback has been stored"
  | callbackMismatch => "the stored callback belongs to another context"
  | allocationFailed => "native allocation failed"
  | invalidEncoding => "string was not valid in the expected encoding"

/-- A failure of a named entry point. -/
structure Fault where
  entryPoint : String
  cause : Cause
  deriving DecidableEq, Repr

/-- A fault in words. -/
def Fault.message (f : Fault) : String := f.entryPoint ++ ": " ++ f.cause.message

/-- What an entry point returns. -/
inductive Status
  | success
  | failure (cause : Cause)
  deriving DecidableEq, Repr

namespace Status

/-- The number that stands for a status across the boundary. -/
def code : Status → Nat
  | success => 0
  | failure .nullPointer => 1
  | failure .callbackNotSet => 2
  | failure .allocationFailed => 3
  | failure .invalidEncoding => 4
  | failure .callbackMismatch => 5

/-- All statuses, by their numbers. -/
def all : List Status :=
  [success, failure .nullPointer, failure .callbackNotSet, failure .allocationFailed,
    failure .invalidEncoding, failure .callbackMismatch]

/-- The status with a number. -/
def ofCode? (n : Nat) : Option Status := all[n]?

/-- Whether the entry point did its work. -/
def isSuccess (s : Status) : Bool := s == success

/-- A status of a named entry point as an outcome. -/
def toExcept (entryPoint : String) : Status → Except Fault Unit
  | success => .ok ()
  | failure cause => .error ⟨entryPoint, cause⟩

end Status

end Crossing
