import Crossing.Proofs.Boundary.Handles
import Crossing.Proofs.Strategy.Logic
import Crossing.Strategy.ValueCalls

/-!
# Strategies on values never fail

Whatever is stored on the thread before, each method of the holder makes its rounds: callbacks that
have to be stored are stored first, and nothing replaces them while the method runs.

A closure has to be on the thread while it is called, so a method that needs one makes a handle
first and drops it at the end (`withHandle_yields`). Dropping the handle also clears the slot, if
the closure is stored there. Main statements: `methods_yield`, that no method fails, and
`methods_vacate`, that no closure is left in the slot by a method that stores one.
-/

namespace Crossing.Strategy.ValueCalls

open Boundary Step

variable {S C P α : Type} {h : ValueCalls} {w : World S C P}

/-- What all methods come to: as many iterations as the holder has rounds. -/
def Made (h : ValueCalls) (w : World S C P) (n : UInt64) (s : ValueCalls × World S C P) : Prop :=
  n = h.rounds ∧ s.1.rounds = h.rounds ∧ w.Aside s.2

/-- All rounds of a step that keeps the number of rounds, and some condition on the world. -/
theorem eachRound_made {step : Task S C P Unit} {J : World S C P → Prop}
    {s : ValueCalls × World S C P} (hs : s.1.rounds = h.rounds) (haside : w.Aside s.2) (hJ : J s.2)
    (hstep : ∀ s : ValueCalls × World S C P, J s.2 → step.Yields s fun _ s' ↦
      s'.1.rounds = s.1.rounds ∧ s.2.Aside s'.2 ∧ J s'.2) :
    (eachRound step).Yields s fun n s' ↦ Made h w n s' ∧ J s'.2 := by
  refine (eachRound_yields (fun _ s' ↦ s'.1.rounds = h.rounds ∧ w.Aside s'.2 ∧ J s'.2)
    ⟨hs, haside, hJ⟩ fun _ _ s' ⟨hs', haside', hJ'⟩ ↦ ?_).mono ?_
  · exact (hstep s' hJ').mono fun _ s'' ⟨hrounds, hw, hJ''⟩ ↦
      ⟨hrounds.trans hs', haside'.trans hw, hJ''⟩
  · rintro n s' ⟨hn, hs', haside', hJ'⟩
    exact ⟨⟨hn.trans hs, hs', haside'⟩, hJ'⟩

/-! ### Values -/

/-- A value is given away in each round. -/
theorem give_yields (entryPoint : String) (value : α) :
    (give entryPoint value : Task S C P UInt64).Yields (h, w) (Made h w) :=
  (eachRound_made (J := fun _ ↦ True) rfl (.refl w) trivial fun s _ ↦
    Yields.call rfl ⟨rfl, .refl s.2, trivial⟩).mono fun _ _ ↦ And.left

/-- A value comes back in each round, and is kept. -/
theorem receive_yields (value : Float) :
    (receive value : Task S C P UInt64).Yields (h, w) (Made h w) :=
  (eachRound_made (J := fun _ ↦ True) rfl (.refl w) trivial fun s _ ↦
    keep_yields ⟨rfl, .refl s.2, trivial⟩).mono fun _ _ ↦ And.left

/-! ### Callbacks -/

theorem onThread_yields {f : StateM (Thread S C) α} {s : ValueCalls × World S C P}
    {Q : α → ValueCalls × World S C P → Prop}
    (h : Q (f s.2.thread).1 (s.1, { s.2 with thread := (f s.2.thread).2 })) :
    (onThread f : Task S C P α).Yields s Q :=
  Yields.cross rfl h

/-- Something with a handle comes to what it comes to between the making and the dropping of the
handle. -/
theorem withHandle_yields {c : Closure C} {body : Address → Task S C P α}
    {s : ValueCalls × World S C P} {Q : α → ValueCalls × World S C P → Prop}
    (hbody : (body s.2.thread.freshAddress).Yields
      (s.1, { s.2 with thread := s.2.thread.create s.2.thread.freshAddress c }) fun a s' ↦
        Q a (s'.1, { s'.2 with thread := s'.2.thread.drop s.2.thread.freshAddress })) :
    (withHandle c body).Yields s Q := by
  obtain ⟨a, after, hrun, hQ⟩ := hbody
  refine Yields.bind_cross_get ?_
  refine (onThread_yields (Q := fun _ s' ↦
    s' = (s.1, { s.2 with thread := s.2.thread.create s.2.thread.freshAddress c })) rfl).bind ?_
  rintro _ s' hs'
  rw [hs']
  refine (Yields.lift (Q := fun r s' ↦ r = .ok a ∧ s' = after) hrun ⟨rfl, rfl⟩).bind ?_
  rintro r s' ⟨hr, hs'⟩
  rw [hr, hs']
  exact (onThread_yields hQ).bind fun _ _ ↦ Yields.ofExcept

variable [Machines S C]

/-- A stateless callback that is passed along is called in each round. -/
theorem callbackGivenStatic_yields :
    (callbackGivenStatic : Task S C P UInt64).Yields (h, w) (Made h w) :=
  (eachRound_made (J := fun _ ↦ True) rfl (.refl w) trivial fun s _ ↦
    (onThread_yields (Q := fun _ s' ↦ s' = s) rfl).bind fun _ s' hs' ↦ by
      rw [hs']
      exact keep_yields ⟨rfl, .refl s.2, trivial⟩).mono fun _ _ ↦ And.left

/-- The callback is stored first, and stays stored. -/
theorem callbackStoredStatic_yields :
    (callbackStoredStatic : Task S C P UInt64).Yields (h, w) (Made h w) := by
  refine (onThread_yields (Q := fun _ s ↦ s.1 = h ∧ w.Aside s.2 ∧
    s.2.thread.native.staticSlot = some (.function id)) ⟨rfl, ⟨rfl, rfl⟩, rfl⟩).bind ?_
  rintro _ s ⟨hs, haside, hslot⟩
  refine (eachRound_made (J := fun w ↦ w.thread.native.staticSlot = some (.function id))
    (by rw [hs]) haside hslot fun s hslot ↦ ?_).mono fun _ _ ↦ And.left
  have hcall : (World.onThread (Thread.invokeStatic 1 true)).run s.2 = (.ok 1, s.2) := by
    rw [World.run_onThread, Thread.invokeStatic_run, hslot]
    rfl
  exact Yields.bind_call hcall (keep_yields ⟨rfl, .refl s.2, hslot⟩)

theorem callbackGivenDynamic_yields :
    (callbackGivenDynamic : Task S C P UInt64).Yields (h, w) (Made h w) :=
  (eachRound_made (J := fun _ ↦ True) rfl (.refl w) trivial fun s _ ↦
    (withHandle_yields (Q := fun _ s' ↦ s'.1 = s.1 ∧ s.2.Aside s'.2)
      (onThread_yields ⟨rfl, rfl, rfl⟩)).bind fun _ s' ⟨hs', haside⟩ ↦ by
        have hrounds : s'.1.rounds = s.1.rounds := congrArg rounds hs'
        exact keep_yields ⟨hrounds, haside, trivial⟩).mono fun _ _ ↦ And.left

/-- The closure is in a handle of its own, which is stored first, and stays stored until the handle
is dropped. Then nothing is stored. -/
theorem storedClosure_yields (f : Int32 → Int32) :
    (storedClosure (.function f) : Task S C P UInt64).Yields (h, w) fun n s ↦
      Made h w n s ∧ s.2.native.dynamicSlot = none := by
  refine withHandle_yields ?_
  set a := w.thread.freshAddress
  have hstore : (onThread (modify (Thread.store a)) : Task S C P Unit).Yields
      (h, { w with thread := w.thread.create a (.function f) }) fun _ s ↦ s.1 = h ∧ w.Aside s.2 ∧
        s.2.thread.native.dynamicSlot = some (.closure, a) ∧
        s.2.thread.closure? a = some (.function f) :=
    onThread_yields ⟨rfl, ⟨rfl, rfl⟩, rfl, List.lookup_cons_self⟩
  refine hstore.bind ?_
  rintro _ s ⟨hs, haside, hstored⟩
  refine (eachRound_made (J := fun w ↦ w.thread.native.dynamicSlot = some (.closure, a) ∧
    w.thread.closure? a = some (.function f)) (by rw [hs]) haside hstored
    fun s ⟨hslot, hclosure⟩ ↦ ?_).mono fun n s ⟨hmade, hslot, _⟩ ↦ ⟨hmade, ?_⟩
  case refine_2 =>
    show (s.2.thread.native.forget a).dynamicSlot = none
    rw [Native.forget, hslot]
    simp
  have hcall : (World.onThread (Thread.invokeDynamic a 1 true)).run s.2 = (.ok (f 1), s.2) := by
    rw [World.run_onThread, Thread.invokeDynamic_run, hslot]
    simp only [if_true, Thread.runStateful, Thread.runClosure, hclosure]
  exact Yields.bind_call hcall (keep_yields ⟨rfl, .refl s.2, hslot, hclosure⟩)

/-- **No method of the holder fails**, whatever is on the other side of the boundary. -/
theorem methods_yield : ∀ p ∈ (methods : List (String × Task S C P UInt64)),
    ∀ (h : ValueCalls) (w : World S C P), p.2.Yields (h, w) (Made h w) := by
  simp only [methods, List.forall_mem_cons]
  refine ⟨?_, ?_, ?_, ?_, ?_, ?_, ?_, ?_, ?_, ?_, ?_, ?_, ?_, ?_, ?_, ?_⟩
  · exact fun h w ↦ give_yields _ _
  · exact fun h w ↦ give_yields _ _
  · exact fun h w ↦ give_yields _ _
  · exact fun h w ↦ give_yields _ _
  · exact fun h w ↦ receive_yields _
  · exact fun h w ↦ receive_yields _
  · exact fun h w ↦ receive_yields _
  · exact fun h w ↦ receive_yields _
  · exact fun h w ↦ receive_yields _
  · exact fun h w ↦ receive_yields _
  · exact fun h w ↦ callbackGivenStatic_yields
  · exact fun h w ↦ callbackStoredStatic_yields
  · exact fun h w ↦ callbackGivenDynamic_yields
  · exact fun h w ↦ (storedClosure_yields id).mono fun _ _ ↦ And.left
  · exact fun h w ↦ (storedClosure_yields id).mono fun _ _ ↦ And.left
  · exact fun p hp ↦ absurd hp List.not_mem_nil

/-- The methods that store a closure before they have it called. -/
def storing : List String :=
  ["test_callback_stored_dynamic", "test_callback_stored_dynamic_direct"]

/-- **After a method that stores a closure, none is stored**, whatever was stored before. -/
theorem methods_vacate : ∀ p ∈ (methods : List (String × Task S C P UInt64)), p.1 ∈ storing →
    ∀ (h : ValueCalls) (w : World S C P), (p.2.run (h, w)).2.2.native.dynamicSlot = none := by
  have hvacates (h : ValueCalls) (w : World S C P) :
      ((storedClosure (.function id) : Task S C P UInt64).run (h, w)).2.2.native.dynamicSlot =
        none := by
    obtain ⟨n, s, hrun, -, hslot⟩ := storedClosure_yields (h := h) (w := w) id
    rw [hrun]
    exact hslot
  simp only [methods, List.forall_mem_cons]
  refine ⟨?_, ?_, ?_, ?_, ?_, ?_, ?_, ?_, ?_, ?_, ?_, ?_, ?_, ?_, ?_, ?_⟩
  case refine_14 => exact fun _ ↦ hvacates
  case refine_15 => exact fun _ ↦ hvacates
  case refine_16 => exact fun p hp ↦ absurd hp List.not_mem_nil
  all_goals exact fun h ↦ absurd h (by decide)

end Crossing.Strategy.ValueCalls
