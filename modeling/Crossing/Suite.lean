import Crossing.Config
import Crossing.Memory
import Crossing.Strategy.ObjectCalls
import Crossing.Strategy.TextCalls
import Crossing.Strategy.ValueCalls

/-!
# The catalogue of all strategies

First the strategies on objects, which make up the primary tier and have no category, then those on
values, and then one family for each text that is configured.
-/

namespace Crossing.Suite

open Boundary
open Strategy

/-- The kinds of holders: those of the suite, and others that a caller may add. -/
inductive Kind (K : Type)
  | objects
  | values
  | texts
  | other (k : K)

/-- The holders of each kind. -/
def Holder {K : Type} (Other : K → Type) : Kind K → Type
  | .objects => ObjectCalls
  | .values => ValueCalls
  | .texts => TextCalls
  | .other k => Other k

/-- The category of the strategies on values. -/
def valueCategory : String := "PInvoke tests"

/-- The category of the strategies on a text of some length. -/
def textCategory (length : Nat) : String := "String tests (length " ++ toString length ++ ")"

section

variable {S C P K : Type} {Other : K → Type}

/-- Memory with the holders of this suite. -/
abbrev Store (Other : K → Type) (S C P : Type) := Memory (Holder Other) (World S C P)

/-- Steps towards a catalogue of this suite. -/
abbrev Making (Other : K → Type) (S C P : Type) : Type → Type :=
  ExceptT Error (StateM (Store Other S C P))

/-- The benchmarks on objects. -/
def objectFamily (h : ObjectCalls) : Making Other S C P (Catalog Target) :=
  Memory.discover (.objects : Kind K) h ObjectCalls.release ObjectCalls.methods

/-- The benchmarks on values. -/
def valueFamily [Machines S C] (h : ValueCalls) : Making Other S C P (Catalog Target) :=
  Memory.discover (.values : Kind K) h ValueCalls.release ValueCalls.methods

/-- The benchmarks on a text. -/
def textFamily (h : TextCalls) : Making Other S C P (Catalog Target) :=
  Memory.discover (.texts : Kind K) h (fun _ w ↦ w) TextCalls.methods

/-- The benchmarks on values of a configuration, under their category. -/
def valueChapter [Machines S C] (c : StrategyConfig) : Making Other S C P (Catalog Target) := do
  (← valueFamily ⟨c.boundaryInnerRounds, {}⟩).retag valueCategory

/-- The benchmarks on a text of a configuration, under their category. -/
def textChapter (c : StrategyConfig) (text : String) : Making Other S C P (Catalog Target) := do
  let h := TextCalls.create text c.boundaryInnerRounds c.bufferCapacity.toNat
  (← textFamily h).retag (textCategory h.length)

/-- A catalogue, and then the benchmarks on each of some texts. -/
def withTexts (c : StrategyConfig) :
    List String → Catalog Target → Making Other S C P (Catalog Target)
  | [], catalog => pure catalog
  | text :: rest, catalog => do withTexts c rest (← catalog.andThen (textChapter c text))

/-- All benchmarks of a configuration, on a given holder of the strategies on objects. -/
def assemble [Machines S C] (c : StrategyConfig) (objects : ObjectCalls) :
    Making Other S C P (Catalog Target) := do
  let primary := (← objectFamily objects).intoPrimary
  withTexts c c.texts (← primary.andThen (valueChapter c))

/-- Makes the catalogue of a configuration. -/
def build [Machines S C] (c : StrategyConfig) : Making Other S C P (Catalog Target) := do
  match ← ExceptT.lift (Memory.onWorld (ObjectCalls.create c.primaryInnerRounds)) with
  | .error fault => throw (.invocation "object_binding_setup" fault)
  | .ok objects => assemble c objects

end

end Crossing.Suite
