import Crossing.Boundary.World
import Crossing.Method

/-!
# Holders of strategies

What all holders have: a number of rounds that each of their methods makes, and a sink. Whatever a
strategy gets back is added to the sink, so that no work is left out because nobody looks at it.
-/

namespace Crossing.Strategy

open Boundary (World Call Span Place)
open Step

/-- A running total. -/
structure Sink where
  total : Float := 0.0

namespace Sink

/-- Adds a value. -/
def add (s : Sink) (x : Float) : Sink := ⟨s.total + x⟩

/-- Adds a length. -/
def addLength (s : Sink) (n : UInt64) : Sink := s.add n.toFloat

end Sink

/-- A holder with rounds and a sink. -/
class Holder (H : Type) where
  rounds : H → UInt64
  sink : H → Sink
  setSink : H → Sink → H

section

variable {H N : Type} [Holder H]

/-- Adds a value to the sink. -/
def keep (x : Float) : Step H N Unit :=
  changeHolder fun h ↦ Holder.setSink h ((Holder.sink h).add x)

/-- Adds a length to the sink. -/
def keepLength (n : Nat) : Step H N Unit :=
  changeHolder fun h ↦ Holder.setSink h ((Holder.sink h).addLength n.toUInt64)

/-- Does a step once each round. -/
def eachRound (step : Step H N Unit) : Step H N UInt64 := do
  let rounds := Holder.rounds (← holder)
  times rounds.toNat step
  return rounds

end

/-- An entry point that takes something and does nothing with it. -/
@[noinline]
def consume {α N : Type} (_ : α) : Call N Unit := pure ()

/-- The caller frees every place: what comes back was made for it. -/
def whenMade (_ : Place) : Bool := true

/-- The caller frees no place: what comes back is lent to it. -/
def whenLent (_ : Place) : Bool := false

/-- The caller frees every place but its own buffer, in which what comes back may be. -/
def unlessOwn (place : Place) : Bool := place != .caller

/-- Frees a place, if the caller frees it. -/
def freeIf {H S C P : Type} (entryPoint : String) (frees : Place → Bool) (place : Place) :
    Step H (World S C P) Unit :=
  if frees place then call entryPoint (World.free place) else pure ()

/-- The size of a text that came back, which has to be well-formed. Its place is freed first, if
the caller frees it. -/
def takeOver {H S C P α : Type} (entryPoint : String) (frees : Place → Bool) (span : Span α)
    (size? : List α → Option Nat) : Step H (World S C P) Nat := do
  freeIf entryPoint frees span.place
  match size? span.items with
  | some n => return n
  | none => throw ⟨entryPoint, .invalidEncoding⟩

/-- The size of octets that are UTF-8. -/
def narrowSize? (bs : List UInt8) : Option Nat :=
  (Text.Utf8.decode? bs).map fun _ ↦ bs.length

/-- The size in UTF-8 of units that are UTF-16. -/
def wideSize? (us : List UInt16) : Option Nat :=
  (Text.Utf16.decode? us).map fun cs ↦ (Text.Utf8.encode cs).length

end Crossing.Strategy
