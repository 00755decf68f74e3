import Crossing.Proofs.Boundary.KeptContexts
import Crossing.Proofs.Strategy.Logic
import Crossing.Proofs.Text.Encoding
import Crossing.Strategy.ObjectCalls

/-!
# Strategies on objects never fail

The holder has an object and a callback test. As long as both are there, and the name of the object
is a text, each method makes its rounds, and leaves it at that: `Ready` is kept by all methods.

Each round is executed symbolically with the rules of `Yields`: the object is found, the entry point
does its part, and what comes back is taken over. The invariant of the loop is that the holder has
the same object and the same test, and that both are `Ready` (`eachRound_made`). Main statement:
`methods_yield`, for the whole table of methods.
-/

namespace Crossing

namespace Boundary

/-- Octets of a text are a text. -/
theorem decode?_octetsOf (s : String) : Text.Utf8.decode? (octetsOf s) = some s.toList :=
  Text.Utf8.decode?_encode s.toList

/-- The octets of a text are well-formed. -/
theorem isValid_octetsOf (s : String) : Text.Utf8.isValid (octetsOf s) := by
  rw [Text.Utf8.isValid, decode?_octetsOf]
  rfl

/-- An object that is in use gets the new name. -/
theorem Objects.setName_run {os : Objects} {handle : Nat} {old bytes : List UInt8} {cs : List Char}
    (hold : os.get? handle = some old) (hbytes : Text.Utf8.decode? bytes = some cs) :
    (Objects.setName (some handle) (some bytes)).run os = (.ok (), os.set handle bytes) := by
  simp only [setName, run_bind, Call.run_demand_some, run_get, hold, hbytes,
    Call.run_demandText_some, run_modify]

/-- A sum of calls that all succeed and change nothing is there, and changes nothing. -/
theorem addUp_run {σ : Type} {step : Call σ Int64} {s : σ} (h : ∃ v, step.run s = (.ok v, s))
    (n : Nat) (sum : Int64) : ∃ v, (addUp step n sum).run s = (.ok v, s) := by
  induction n generalizing sum with
  | zero => exact ⟨sum, rfl⟩
  | succ n ih =>
    obtain ⟨v, hv⟩ := h
    obtain ⟨v', hv'⟩ := ih (sum + v)
    refine ⟨v', ?_⟩
    rw [addUp, run_bind, hv]
    exact hv'

end Boundary

namespace Strategy.ObjectCalls

open Boundary Step

variable {S C P : Type} {h : ObjectCalls} {w : World S C P}

/-- An object with a name that is a text, and a callback test, are behind two handles. -/
def Ready (object test : Nat) (w : World S C P) : Prop :=
  (∃ name, w.objects.get? object = some name ∧ Text.Utf8.isValid name) ∧
    (w.tests.objects.get? test).isSome

/-- An object is ready whatever happens to the rest of the world. -/
theorem Ready.of_aside {object test : Nat} {w' : World S C P} (hw : Ready object test w)
    (h : w.Aside w') : Ready object test w' := by
  rw [Ready, h.1, h.2]
  exact hw

/-- A holder is always made, with the next object and the next callback test. -/
theorem create_run (rounds : UInt64) (w : World S C P) :
    (create rounds).run w =
      (.ok { rounds, object := w.objects.issued, test := w.tests.objects.issued },
        { w with
          objects := (w.objects.insert (octetsOf objectName)).2, tests := w.tests.create.2 }) := by
  have hobject : w.objects.create (some (octetsOf objectName)) =
      (some w.objects.issued, (w.objects.insert (octetsOf objectName)).2) := by
    rw [Objects.create]
    dsimp only
    rw [if_pos (isValid_octetsOf objectName)]
    rfl
  show create rounds w = _
  rw [create, hobject]
  rfl

/-- A holder that was just made is ready. -/
theorem create_ready (rounds : UInt64) (w : World S C P) :
    ∃ h w', (create rounds).run w = (.ok h, w') ∧ h.rounds = rounds ∧
      Ready h.object h.test w' := by
  refine ⟨_, _, create_run rounds w, rfl,
    ⟨_, List.lookup_cons_self, isValid_octetsOf objectName⟩, ?_⟩
  show (List.lookup w.tests.objects.issued ((w.tests.objects.issued, none) :: _)).isSome
  rw [List.lookup_cons_self]
  rfl

/-- What a method leaves alone. -/
def Same (h h' : ObjectCalls) : Prop :=
  h'.rounds = h.rounds ∧ h'.object = h.object ∧ h'.test = h.test

/-- What all methods come to: as many iterations as the holder has rounds, and all is ready for
more. -/
def Made (h : ObjectCalls) (n : UInt64) (s : ObjectCalls × World S C P) : Prop :=
  n = h.rounds ∧ Same h s.1 ∧ Ready h.object h.test s.2

/-- Where a round leaves objects ready, all rounds are made. -/
theorem eachRound_made {step : Task S C P Unit} (hw : Ready h.object h.test w)
    (hstep : ∀ s : ObjectCalls × World S C P, Ready s.1.object s.1.test s.2 →
      step.Yields s fun _ s' ↦ Same s.1 s'.1 ∧ Ready s.1.object s.1.test s'.2) :
    (eachRound step).Yields (h, w) (Made h) := by
  refine (eachRound_yields (fun _ s ↦ Same h s.1 ∧ Ready h.object h.test s.2)
    ⟨⟨rfl, rfl, rfl⟩, hw⟩ fun _ _ s ⟨⟨hrounds, hobject, htest⟩, hready⟩ ↦ ?_).mono
    fun n s ⟨hn, hs⟩ ↦ ⟨hn, hs⟩
  rw [← hobject, ← htest] at hready
  refine (hstep s hready).mono fun _ s' ⟨⟨hrounds', hobject', htest'⟩, hready'⟩ ↦ ?_
  rw [hobject, htest] at hready'
  exact ⟨⟨hrounds'.trans hrounds, hobject'.trans hobject, htest'.trans htest⟩, hready'⟩

theorem emptyFunction_yields (hw : Ready h.object h.test w) :
    (emptyFunction : Task S C P UInt64).Yields (h, w) (Made h) :=
  eachRound_made hw fun _ hready ↦ Yields.call rfl ⟨⟨rfl, rfl, rfl⟩, hready⟩

/-! ### Vectors -/

/-- An addition succeeds in each round. -/
theorem addOver_yields {add : Vector4 → Task S C P Vector4} (hw : Ready h.object h.test w)
    (hadd : ∀ v s, (add v).Yields s fun _ s' ↦ s' = s) :
    (addOver add).Yields (h, w) (Made h) := by
  refine Yields.bind_holder ?_
  refine (Yields.iterate (fun _ _ s ↦ s = (h, w)) rfl fun _ _ v s hs ↦ ?_).bind fun v s hs ↦ ?_
  · exact (hadd v s).mono fun _ s' hs' ↦ hs'.trans hs
  · rw [hs]
    exact (keep_yields (Q := fun _ s' ↦ Same h s'.1 ∧ s'.2 = w) ⟨⟨rfl, rfl, rfl⟩, rfl⟩).bind
      fun _ s' ⟨hsame, hs'⟩ ↦ Yields.pure ⟨rfl, hsame, hs' ▸ hw⟩

/-! ### Names -/

/-- A name is set in each round, as the object is there. -/
theorem setName_yields (hw : Ready h.object h.test w) :
    (setName : Task S C P UInt64).Yields (h, w) (Made h) := by
  refine eachRound_made hw fun s hready ↦ Yields.bind_holder ?_
  obtain ⟨⟨name, hname, -⟩, htest⟩ := hready
  have hcall : (World.onObjects (Objects.setName (some s.1.object) (some (octetsOf "abc")))).run
      s.2 = (.ok (), { s.2 with objects := s.2.objects.set s.1.object (octetsOf "abc") }) := by
    rw [World.run_onObjects, Objects.setName_run hname (decode?_octetsOf "abc")]
  have hlive : (s.2.objects.get? s.1.object).isSome := by rw [hname]; rfl
  exact Yields.call hcall ⟨⟨rfl, rfl, rfl⟩,
    ⟨octetsOf "abc", Arena.get?_set_self hlive _, isValid_octetsOf "abc"⟩, htest⟩

/-- A text that comes back in a buffer is taken over, and only buffers change. -/
theorem takeOver_keepLength {entryPoint : String} {frees : Place → Bool} {span : Span UInt8}
    {s : ObjectCalls × World S C P} (hready : Ready s.1.object s.1.test s.2)
    (hvalid : Text.Utf8.isValid span.items) :
    (takeOver entryPoint frees span narrowSize? >>= keepLength : Task S C P Unit).Yields s
      fun _ s' ↦ Same s.1 s'.1 ∧ Ready s.1.object s.1.test s'.2 := by
  obtain ⟨cs, hcs⟩ := Option.isSome_iff_exists.1 hvalid
  have hsize : narrowSize? span.items = some span.items.length := by
    rw [narrowSize?, hcs, Option.map_some]
  refine (takeOver_yields hsize).bind ?_
  rintro m s' ⟨-, hs', buffers, hw'⟩
  refine keepLength_yields ⟨?_, ?_⟩
  · rw [hs']
    exact ⟨rfl, rfl, rfl⟩
  · rw [hw']
    exact hready

/-- The name comes back in each round. -/
theorem getName_yields (hw : Ready h.object h.test w) :
    (getName : Task S C P UInt64).Yields (h, w) (Made h) := by
  refine eachRound_made hw fun s hready ↦ Yields.bind_holder ?_
  obtain ⟨name, hname, hvalid⟩ := hready.1
  have hcall : (World.objectName (some s.1.object) true true).run s.2 =
      (.ok (s.2.buffers.issue name).1, { s.2 with buffers := (s.2.buffers.issue name).2 }) := by
    have hname' : Objects.name s.2.objects (some s.1.object) = some name := hname
    simp only [World.objectName, World.run_onBuffers, Objects.getName, run_bind, hname',
      Call.run_demand_some, Bool.and_true, Call.run_demandOut_true, run_modifyGet]
  exact Yields.bind_call hcall (takeOver_keepLength hready hvalid)

/-- Both parts come back in each round. -/
theorem concatenateStrings_yields (hw : Ready h.object h.test w) :
    (concatenateStrings : Task S C P UInt64).Yields (h, w) (Made h) := by
  refine eachRound_made hw fun s hready ↦ Yields.bind_holder ?_
  obtain ⟨name, hname, -⟩ := hready.1
  have hcall : (World.concatenate (some s.1.object) (some (octetsOf "abc"))
      (some (octetsOf "def")) true true).run s.2 =
        (.ok (s.2.buffers.issue (octetsOf "abc" ++ octetsOf "def")).1,
          { s.2 with buffers := (s.2.buffers.issue (octetsOf "abc" ++ octetsOf "def")).2 }) := by
    have hname' : Objects.name s.2.objects (some s.1.object) = some name := hname
    simp only [World.concatenate, World.run_onBuffers, Objects.concatenate, run_bind, hname',
      Call.run_demand_some, Bool.and_true, Call.run_demandOut_true, run_modifyGet, Option.getD_some]
  have hvalid : Text.Utf8.isValid (octetsOf "abc" ++ octetsOf "def") := by
    rw [octetsOf, octetsOf, ← Text.Utf8.encode_append, Text.Utf8.isValid, Text.Utf8.decode?_encode]
    rfl
  exact Yields.bind_call hcall (takeOver_keepLength hready hvalid)

/-! ### Callbacks -/

/-- The callback is replaced in each round, and the new one is in its place. -/
theorem replaceCallback_yields (hw : Ready h.object h.test w) :
    (replaceCallback : Task S C P UInt64).Yields (h, w) (Made h) := by
  refine eachRound_made hw fun s ⟨hobject, htest⟩ ↦ Yields.bind_holder ?_
  obtain ⟨kept, hkept⟩ := Option.isSome_iff_exists.1 htest
  -- the new context goes over to the callback test, and the one it kept is released
  set made := CallbackTests.createContext (.function (· ++ ·)) s.2.tests
  have hcall : (World.onTests do
      let context ← modifyGet (CallbackTests.createContext (.function (· ++ ·)))
      CallbackTests.setCallback (some s.1.test) context).run s.2 =
        (.ok (), { s.2 with
          tests := { made.2.releaseKept kept with
            objects := made.2.objects.set s.1.test (some made.1) } }) := by
    have hkept' : made.2.objects.get? s.1.test = some kept := hkept
    simp only [World.run_onTests, run_bind, run_modifyGet]
    rw [CallbackTests.setCallback_run hkept' made.1]
  have hlive := Arena.get?_set_self (a := made.2.objects) htest (some made.1)
  exact Yields.call hcall ⟨⟨rfl, rfl, rfl⟩, hobject, Option.isSome_iff_exists.2 ⟨_, hlive⟩⟩

/-- A loop over a callback that never fails makes its rounds. -/
theorem keepLoop_yields {entryPoint : String}
    {loop : (object out : Bool) → Int64 → Call (World S C P) Int64}
    (hw : Ready h.object h.test w)
    (hloop : ∀ rounds, ∃ v, (loop true true rounds).run w = (.ok v, w)) :
    (keepLoop entryPoint loop).Yields (h, w) (Made h) := by
  obtain ⟨v, hv⟩ := hloop h.signedRounds
  have hlive : w.tests.objects.isLive h.test = true := hw.2
  refine Yields.bind_holder (Yields.bind_cross_get ?_)
  rw [hlive]
  refine Yields.bind_call hv ?_
  exact (keep_yields (Q := fun _ s' ↦ Same h s'.1 ∧ s'.2 = w) ⟨⟨rfl, rfl, rfl⟩, rfl⟩).bind
    fun _ s' ⟨hsame, hs'⟩ ↦ Yields.pure ⟨rfl, hsame, hs' ▸ hw⟩

/-- Adding up what never fails never fails. -/
theorem repeatedly_run {step : Call (World S C P) Int64} (hstep : ∃ v, step.run w = (.ok v, w))
    (rounds : Int64) : ∃ v, (repeatedly true true rounds step).run w = (.ok v, w) := by
  obtain ⟨v, hv⟩ := addUp_run hstep (roundCount rounds) 0
  refine ⟨v, ?_⟩
  rw [repeatedly, Bool.and_true, run_bind, Call.run_demandOut_true]
  exact hv

/-- **No method of the holder fails**, and all is ready for more afterwards. -/
theorem methods_yield : ∀ p ∈ (methods : List (String × Task S C P UInt64)),
    ∀ (h : ObjectCalls) (w : World S C P), Ready h.object h.test w →
      p.2.Yields (h, w) (Made h) := by
  simp only [methods, List.forall_mem_cons]
  refine ⟨?_, ?_, ?_, ?_, ?_, ?_, ?_, ?_, ?_, ?_, ?_, ?_⟩
  · exact fun h w ↦ emptyFunction_yields
  · exact fun h w hw ↦ addOver_yields hw fun v s ↦ Yields.pure rfl
  · exact fun h w hw ↦ addOver_yields hw fun v s ↦ Yields.pure rfl
  · exact fun h w hw ↦ addOver_yields hw fun v s ↦ Yields.call rfl rfl
  · exact fun h w ↦ setName_yields
  · exact fun h w ↦ getName_yields
  · exact fun h w ↦ concatenateStrings_yields
  · exact fun h w ↦ replaceCallback_yields
  · exact fun h w hw ↦ keepLoop_yields hw (repeatedly_run ⟨_, rfl⟩)
  · exact fun h w hw ↦ keepLoop_yields hw (repeatedly_run ⟨_, rfl⟩)
  · refine fun h w hw ↦ keepLoop_yields hw
      (repeatedly_run ⟨Int64.ofNat (octetsOf "abcdef").length, ?_⟩)
    rw [run_bind, Call.run_always]
    show ((Call.demandText (Text.Utf8.decode? (octetsOf "abcdef")) >>= fun _ ↦
      pure (Int64.ofNat (octetsOf "abcdef").length) : Call (World S C P) Int64).run w) = _
    rw [run_bind, decode?_octetsOf, Call.run_demandText_some]
    rfl
  · exact fun p hp ↦ absurd hp List.not_mem_nil

end Strategy.ObjectCalls

end Crossing
