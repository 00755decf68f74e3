import Crossing.Proofs.Boundary.Handles
import Crossing.Proofs.Boundary.Transcoding
import Crossing.Proofs.Strategy.Logic

/-!
# Requests to the native state

A session is any sequence of calls of the entry points that work on the native state, with any
pointers and any texts, whether or not there is memory for the buffers they ask for. What a call can
do to the native state is said once, in `Effect`, and everything else follows from that:

* `Request.perform_leaves`: a call that fails leaves the native state as it was, and a call that
  succeeds has its effect, after what a callback did if it runs one (`perform_leaves_within`);
* `Effect.agree`: an effect stays within the parts that belong to the request;
* `Session.Sound`: the test text is well-formed and the same in both forms, and what is owned is
  what was last copied.

In sessions callbacks are quiet: they do not call back across the boundary.

A caller may store a part of the test text that it was lent, though it was lent only until the next
text is stored. Nothing is known of the units after that, until a text of the caller's own is stored
(`StoredOwn`); the octets are what they should be all the time.
-/

namespace Crossing.Boundary

open Call Text

variable {S C P α : Type}

/-! ### Requests and answers -/

/-- A call of an entry point, with what the caller passes. A pointer may be null, and pointers for
results may be missing. -/
inductive Request (S : Type)
  | setTestString (data : Option Octets)
  | passTerminated (memory : Option (List UInt8))
  | passNarrow (data : Option (List UInt8))
  | passWide (memory : Option (List UInt16))
  | ownTerminated (memory : Option (List UInt8))
  | ownNarrow (data : Option (List UInt8))
  | ownWide (data : Option (List UInt16))
  | ownTranscoded (data : Option (List UInt16))
  | allocNarrow
  | allocWide
  | lendNarrow (pointerOut lengthOut : Bool)
  | lendWide (pointerOut lengthOut : Bool)
  | fillOrAlloc (buffer : Option (List UInt16)) (capacity : Nat) (pointerOut lengthOut : Bool)
  | allocBuffer (pointerOut lengthOut : Bool)
  | setStatic (callback : Option (Stateless S))
  | setDynamic (callback : Option Stateful) (context : Address)
  | clearCallbacks
  | invokeGivenStatic (callback : Stateless S) (value : Int32)
  | invokeStoredStatic (value : Int32) (out : Bool)
  | invokeGivenDynamic (callback : Stateful) (context : Address) (value : Int32)
  | invokeStoredDynamic (context : Address) (value : Int32) (out : Bool)
  | ownedSize

/-- What a call gives back. -/
inductive Answer
  | done
  | narrow (span : Span UInt8)
  | wide (span : Span UInt16)
  | filled (span : Span UInt16) (buffer : Option (List UInt16))
  | value (v : Int32)
  | size (n : Nat)

/-- Whether the answer is in a buffer that was made for it. -/
def Answer.isIssued : Answer → Bool
  | narrow ⟨.issued _, _⟩ => true
  | wide ⟨.issued _, _⟩ => true
  | filled ⟨.issued _, _⟩ _ => true
  | _ => false

/-- Makes an answer of what a call returns. -/
def Call.answer {σ : Type} (call : Call σ α) (f : α → Answer) : Call σ Answer := do
  return f (← call)

namespace Request

variable [Machines S C]

/-- The call of the entry point, as long as there is memory. -/
def entry : Request S → Call (World S C P) Answer
  | setTestString data => (World.onNative (Native.setTestString data)).answer fun _ ↦ .done
  | passTerminated memory => (Strategy.consume memory).answer fun _ ↦ .done
  | passNarrow data => (Strategy.consume data).answer fun _ ↦ .done
  | passWide memory => (Strategy.consume memory).answer fun _ ↦ .done
  | ownTerminated memory => (World.onNative (Native.ownTerminated memory)).answer fun _ ↦ .done
  | ownNarrow data => (World.onNative (Native.ownNarrow data)).answer fun _ ↦ .done
  | ownWide data => (World.onNative (Native.ownWide data)).answer fun _ ↦ .done
  | ownTranscoded data => (World.onNative (Native.ownTranscoded data)).answer fun _ ↦ .done
  | allocNarrow => World.allocNarrow.answer .narrow
  | allocWide => World.allocWide.answer .wide
  | lendNarrow pointerOut lengthOut =>
    (World.onNative (Native.lendNarrow pointerOut lengthOut)).answer .narrow
  | lendWide pointerOut lengthOut =>
    (World.onNative (Native.lendWide pointerOut lengthOut)).answer .wide
  | fillOrAlloc buffer capacity pointerOut lengthOut =>
    (World.fillOrAlloc buffer capacity pointerOut lengthOut).answer fun r ↦ .filled r.1 r.2
  | allocBuffer pointerOut lengthOut => (World.allocBuffer pointerOut lengthOut).answer .wide
  | setStatic callback => (World.changeNative (.setStatic callback)).answer fun _ ↦ .done
  | setDynamic callback context =>
    (World.changeNative (.setDynamic callback context)).answer fun _ ↦ .done
  | clearCallbacks => (World.changeNative .clearCallbacks).answer fun _ ↦ .done
  | invokeGivenStatic callback value =>
    (World.onThread (Call.always (Thread.runStateless callback value))).answer .value
  | invokeStoredStatic value out => (World.onThread (Thread.invokeStatic value out)).answer .value
  | invokeGivenDynamic callback context value =>
    (World.onThread (Call.always (Thread.runStateful callback context value))).answer .value
  | invokeStoredDynamic context value out =>
    (World.onThread (Thread.invokeDynamic context value out)).answer .value
  | ownedSize => (World.onNative get).answer fun n ↦ .size n.ownedSize

/-- The call of the entry point. Where memory is not granted, no buffer is made, and a call that
needs one fails. -/
def perform (granted : Bool) (r : Request S) : Call (World S C P) Answer := fun w ↦
  match r.entry.run w with
  | (.ok answer, w') =>
    if answer.isIssued && !granted then (.error .allocationFailed, w) else (.ok answer, w')
  | (.error cause, w') => (.error cause, w')

end Request

/-! ### What a call leaves behind -/

/-- A call fails and leaves the native state as it was, or succeeds and leaves it as said. -/
def Leaves (call : Call (World S C P) α) (w : World S C P) (Q : Native S → Prop) : Prop :=
  (∃ cause w', call.run w = (.error cause, w') ∧ w'.native = w.native) ∨
    ∃ a w', call.run w = (.ok a, w') ∧ Q w'.native

namespace Leaves

variable {call : Call (World S C P) α} {w : World S C P} {Q : Native S → Prop}

/-- What a call leaves may be said with less precision. -/
theorem mono {Q' : Native S → Prop} (h : Leaves call w Q) (hQ : ∀ n, Q n → Q' n) :
    Leaves call w Q' := by
  obtain hfailed | ⟨a, w', hrun, hw'⟩ := h
  · exact .inl hfailed
  · exact .inr ⟨a, w', hrun, hQ _ hw'⟩

/-- How an answer is shown does not change what the call leaves. -/
theorem answer (h : Leaves call w Q) (f : α → Answer) : Leaves (call.answer f) w Q := by
  obtain ⟨cause, w', hrun, hw'⟩ | ⟨a, w', hrun, hw'⟩ := h
  · refine .inl ⟨cause, w', ?_, hw'⟩
    rw [Call.answer, run_bind, hrun]
  · refine .inr ⟨f a, w', ?_, hw'⟩
    rw [Call.answer, run_bind, hrun]
    rfl

/-- A call that never touches the native state. -/
theorem of_native_eq (hnative : (call.run w).2.native = w.native) (hQ : Q w.native) :
    Leaves call w Q := by
  rcases hrun : call.run w with ⟨cause | a, w'⟩
  · rw [hrun] at hnative
    exact .inl ⟨cause, w', hrun, hnative⟩
  · rw [hrun] at hnative
    exact .inr ⟨a, w', hrun, hnative.symm ▸ hQ⟩

/-- For a call on the native state, it is enough to look at that state. -/
theorem onNative {f : Call (Native S) α}
    (h : (∃ cause, f.run w.native = (.error cause, w.native)) ∨
      ∃ a n, f.run w.native = (.ok a, n) ∧ Q n) : Leaves (World.onNative f) w Q := by
  obtain ⟨cause, hrun⟩ | ⟨a, n, hrun, hn⟩ := h
  · refine .inl ⟨cause, w, ?_, rfl⟩
    rw [World.run_onNative, hrun]
    rfl
  · refine .inr ⟨a, { w with thread := { w.thread with native := n } }, ?_, hn⟩
    rw [World.run_onNative, hrun]

/-- A call that issues buffers leaves the native state as it is. -/
theorem onBuffers {f : World S C P → Call Buffers α} (hQ : Q w.native) :
    Leaves (World.onBuffers f) w Q :=
  of_native_eq rfl hQ

/-- For a call on a thread, its native state is the one that counts. -/
theorem onThread {f : Call (Thread S C) α}
    (h : (∃ cause, f.run w.thread = (.error cause, w.thread)) ∨
      ∃ a t, f.run w.thread = (.ok a, t) ∧ Q t.native) : Leaves (World.onThread f) w Q := by
  obtain ⟨cause, hrun⟩ | ⟨a, t, hrun, ht⟩ := h
  · refine .inl ⟨cause, w, ?_, rfl⟩
    rw [World.run_onThread, hrun]
  · refine .inr ⟨a, { w with thread := t }, ?_, ht⟩
    rw [World.run_onThread, hrun]

/-- Memory that is not granted is one more way to fail. -/
theorem perform [Machines S C] {r : Request S} (h : Leaves (r.entry : Call (World S C P) _) w Q)
    (granted : Bool) : Leaves (r.perform granted) w Q := by
  obtain ⟨cause, w', hrun, hw'⟩ | ⟨answer, w', hrun, hw'⟩ := h
  · refine .inl ⟨cause, w', ?_, hw'⟩
    show r.perform granted w = _
    rw [Request.perform, hrun]
  · by_cases hrefused : answer.isIssued && !granted
    · refine .inl ⟨.allocationFailed, w, ?_, rfl⟩
      show r.perform granted w = _
      rw [Request.perform, hrun]
      exact if_pos hrefused
    · refine .inr ⟨answer, w', ?_, hw'⟩
      show r.perform granted w = _
      rw [Request.perform, hrun]
      exact if_neg hrefused

end Leaves

/-! ### Effects -/

/-- The parts of the native state. The two forms of the test text are one part. -/
inductive Part
  | testText
  | ownedNarrow
  | ownedWide
  | staticSlot
  | dynamicSlot
  deriving DecidableEq, Repr

/-- The states have the same in a part. -/
def Native.Agree (n n' : Native S) : Part → Prop
  | .testText => n.testBytes = n'.testBytes ∧ n.testUnits = n'.testUnits
  | .ownedNarrow => n.ownedNarrow = n'.ownedNarrow
  | .ownedWide => n.ownedWide = n'.ownedWide
  | .staticSlot => n.staticSlot = n'.staticSlot
  | .dynamicSlot => n.dynamicSlot = n'.dynamicSlot

namespace Request

/-- The parts that a request is there to change. -/
def parts : Request S → List Part
  | setTestString _ => [.testText]
  | ownTerminated _ | ownNarrow _ | ownTranscoded _ => [.ownedNarrow]
  | ownWide _ => [.ownedWide]
  | setStatic _ => [.staticSlot]
  | setDynamic .. => [.dynamicSlot]
  | clearCallbacks => [.staticSlot, .dynamicSlot]
  | _ => []

/-- Whether a request runs a callback. -/
def invokes : Request S → Bool
  | invokeGivenStatic .. | invokeStoredStatic .. | invokeGivenDynamic .. | invokeStoredDynamic .. =>
    true
  | _ => false

/-- What a request stores as the test text if it succeeds. -/
def stored? : Request S → Option Octets
  | setTestString data => data
  | _ => none

/-- The narrow text that a request copies if it succeeds. -/
def narrowCopy? : Request S → Option (List UInt8)
  | ownTerminated memory => memory.map untilZero
  | ownNarrow data => data
  | ownTranscoded data => (data.bind Utf16.decode?).map Utf8.encode
  | _ => none

/-- The wide text that a request copies if it succeeds. -/
def wideCopy? : Request S → Option (List UInt16)
  | ownWide data => data
  | _ => none

end Request

/-- What a request that succeeds does to the native state. -/
inductive Effect : Request S → Native S → Native S → Prop
  | setTestString {octets : Octets} {cs : List Char} {n : Native S}
      (h : octets.read n.testBytes = Utf8.encode cs) :
    Effect (.setTestString (some octets)) n
      { n with testBytes := Utf8.encode cs, testUnits := octets.unitsAfterFree cs }
  | ownTerminated {memory : List UInt8} {cs : List Char} (h : untilZero memory = Utf8.encode cs)
      (n : Native S) :
    Effect (.ownTerminated (some memory)) n { n with ownedNarrow := Utf8.encode cs }
  | ownNarrow (cs : List Char) (n : Native S) :
    Effect (.ownNarrow (some (Utf8.encode cs))) n { n with ownedNarrow := Utf8.encode cs }
  | ownTranscoded (cs : List Char) (n : Native S) :
    Effect (.ownTranscoded (some (Utf16.encode cs))) n { n with ownedNarrow := Utf8.encode cs }
  | ownWide (us : List UInt16) (n : Native S) :
    Effect (.ownWide (some us)) n { n with ownedWide := us }
  | setStatic (callback : Option (Stateless S)) (n : Native S) :
    Effect (.setStatic callback) n { n with staticSlot := callback }
  | setDynamic (callback : Option Stateful) (context : Address) (n : Native S) :
    Effect (.setDynamic callback context) n { n with dynamicSlot := callback.map (·, context) }
  | clearCallbacks (n : Native S) :
    Effect .clearCallbacks n { n with staticSlot := none, dynamicSlot := none }
  | nothing {r : Request S} (h : r.parts = []) (n : Native S) : Effect r n n

namespace Effect

variable {r : Request S} {n n' : Native S}

/-- **An effect stays within its parts.** -/
theorem agree (h : Effect r n n') {p : Part} (hp : p ∉ r.parts) : n.Agree n' p := by
  cases h <;> cases p <;> simp_all [Request.parts, Native.Agree]

/-- The octets are what was passed, if a text was stored. -/
theorem testBytes (h : Effect r n n') :
    n'.testBytes = (r.stored?.map (·.read n.testBytes)).getD n.testBytes := by
  cases h with
  | setTestString hread => exact hread.symm
  | nothing hparts => cases r <;> simp_all [Request.parts, Request.stored?]
  | _ => rfl

/-- The two forms of the test text are changed together, if the text is the caller's own. -/
theorem testText (h : Effect r n n') {own : Prop}
    (hn : ∃ cs, n.testBytes = Utf8.encode cs ∧ (own → n.testUnits = Utf16.encode cs)) :
    ∃ cs, n'.testBytes = Utf8.encode cs ∧
      ((r.stored?.map (·.isOwn = true)).getD own → n'.testUnits = Utf16.encode cs) := by
  cases h with
  | @setTestString octets cs =>
    refine ⟨cs, rfl, fun hown ↦ ?_⟩
    cases octets with
    | own bs => rfl
    | lent start length remains => cases hown
  | nothing hparts =>
    have hnone : r.stored? = none := by
      cases r <;> simp_all [Request.parts, Request.stored?]
    rw [hnone]
    exact hn
  | _ => exact hn

/-- Whatever copy is made, what is owned stays well-formed. -/
theorem ownedNarrow_encode (h : Effect r n n') (hn : ∃ cs, n.ownedNarrow = Utf8.encode cs) :
    ∃ cs, n'.ownedNarrow = Utf8.encode cs := by
  cases h with
  | ownTerminated | ownNarrow cs | ownTranscoded cs => exact ⟨_, rfl⟩
  | _ => exact hn

/-- What is owned is the copy that was made, if one was. -/
theorem ownedNarrow (h : Effect r n n') : n'.ownedNarrow = r.narrowCopy?.getD n.ownedNarrow := by
  cases h with
  | ownTerminated htext => exact htext.symm
  | ownTranscoded cs => simp [Request.narrowCopy?, Utf16.decode?_encode]
  | nothing hparts => cases r <;> simp_all [Request.parts, Request.narrowCopy?]
  | _ => rfl

theorem ownedWide (h : Effect r n n') : n'.ownedWide = r.wideCopy?.getD n.ownedWide := by
  cases h with
  | nothing hparts => cases r <;> simp_all [Request.parts, Request.wideCopy?]
  | _ => rfl

end Effect

/-! ### What each entry point does -/

/-- A text that has to be there and has to be well-formed, and what is then done with it. -/
theorem Leaves.decoding {β : Type} {data : Option α} {decode? : α → Option β}
    {f : α → β → Native S → Native S} {w : World S C P} {Q : Native S → Prop}
    (hQ : ∀ a b, data = some a → decode? a = some b → Q (f a b w.native)) :
    Leaves (World.onNative (do
      let a ← demand data
      let b ← demandText (decode? a)
      modify (f a b))) w Q := by
  refine Leaves.onNative ?_
  rcases data with - | a
  · exact .inl ⟨.nullPointer, rfl⟩
  · simp only [run_bind, run_demand_some]
    rcases hb : decode? a with - | b
    · exact .inl ⟨.invalidEncoding, rfl⟩
    · exact .inr ⟨(), _, rfl, hQ a b rfl hb⟩

/-- Machines that do not call back across the boundary. -/
structure Machines.Quiet (S C : Type) [Machines S C] : Prop where
  stateless : ∀ (s : S) (value : Int32) (n : Native S),
    (Machines.runStateless C s value n).2 = n
  closure : ∀ (c : C) (value : Int32) (n : Native S), (Machines.runClosure c value n).2.2 = n

/-- Machines that change the native state only as a relation allows. -/
structure Machines.Within (S C : Type) [Machines S C] (R : Native S → Native S → Prop) : Prop where
  stateless : ∀ (s : S) (value : Int32) (n : Native S), R n (Machines.runStateless C s value n).2
  closure : ∀ (c : C) (value : Int32) (n : Native S), R n (Machines.runClosure c value n).2.2

/-- Quiet machines allow no change at all. -/
theorem Machines.Quiet.within [Machines S C] (hquiet : Machines.Quiet S C) :
    Machines.Within S C fun n m ↦ m = n :=
  ⟨hquiet.stateless, hquiet.closure⟩

namespace Machines.Within

variable [Machines S C] {R : Native S → Native S → Prop} (hR : Machines.Within S C R)
  (t : Thread S C) (value : Int32)

include hR

/-- A stateless callback changes the native state only if it is a machine. -/
theorem native_runStateless (f : Stateless S) : (t.runStateless f value).2.native = t.native ∨
    R t.native (t.runStateless f value).2.native := by
  cases f with
  | function f => exact .inl rfl
  | machine s => exact .inr (hR.stateless s value t.native)

/-- A stateful one only if it is a closure that is there. -/
theorem native_runStateful (f : Stateful) (context : Address) :
    (t.runStateful f context value).2.native = t.native ∨
      R t.native (t.runStateful f context value).2.native := by
  cases f with
  | function f => exact .inl rfl
  | closure =>
    show (Thread.runClosure context value t).2.native = t.native ∨
      R t.native (Thread.runClosure context value t).2.native
    rw [Thread.runClosure]
    split
    · exact .inl rfl
    · exact .inr (hR.closure _ value t.native)
    · exact .inl rfl

/-- An invocation through a slot is refused, or does no more than the machines may do. -/
theorem invokeStatic_leaves (out : Bool) :
    (∃ cause, (Thread.invokeStatic value out).run t = (.error cause, t)) ∨
      ∃ a t', (Thread.invokeStatic value out).run t = (.ok a, t') ∧
        (t'.native = t.native ∨ R t.native t'.native) := by
  cases out with
  | false => exact .inl ⟨_, rfl⟩
  | true =>
    rw [Thread.invokeStatic_run]
    split
    · exact .inl ⟨_, rfl⟩
    · exact .inr ⟨_, _, rfl, hR.native_runStateless t value _⟩

theorem invokeDynamic_leaves (context : Address) (out : Bool) :
    (∃ cause, (Thread.invokeDynamic context value out).run t = (.error cause, t)) ∨
      ∃ a t', (Thread.invokeDynamic context value out).run t = (.ok a, t') ∧
        (t'.native = t.native ∨ R t.native t'.native) := by
  cases out with
  | false => exact .inl ⟨_, rfl⟩
  | true =>
    rw [Thread.invokeDynamic_run]
    split
    · exact .inl ⟨_, rfl⟩
    · split
      · exact .inr ⟨_, _, rfl, hR.native_runStateful t value _ _⟩
      · exact .inl ⟨_, rfl⟩

end Machines.Within

namespace Request

/-- A request that runs no callback has its effect, if it succeeds. -/
theorem entry_leaves [Machines S C] {r : Request S} (hr : r.invokes = false) (w : World S C P) :
    Leaves r.entry w (Effect r w.native) := by
  cases r with
  | setTestString data =>
    refine Leaves.answer (Leaves.onNative ?_) _
    rcases data with - | octets
    · exact .inl ⟨.nullPointer, rfl⟩
    · by_cases hread : ∃ cs, octets.read w.native.testBytes = Utf8.encode cs
      · obtain ⟨cs, hread⟩ := hread
        exact .inr ⟨(), _, w.native.setTestString_of_read hread, .setTestString hread⟩
      · exact .inl ⟨.invalidEncoding, w.native.setTestString_malformed (not_exists.1 hread)⟩
  | ownTerminated memory =>
    refine Leaves.answer (Leaves.decoding fun bs cs hbs hcs ↦ ?_) _
    obtain ⟨memory, rfl, hmemory⟩ := Option.map_eq_some_iff.1 hbs
    obtain rfl := Utf8.eq_encode_of_decode? hcs
    exact .ownTerminated hmemory _
  | ownNarrow data =>
    refine Leaves.answer (Leaves.decoding fun bs cs hbs hcs ↦ ?_) _
    obtain rfl := Utf8.eq_encode_of_decode? hcs
    exact hbs ▸ .ownNarrow cs _
  | ownTranscoded data =>
    refine Leaves.answer (Leaves.decoding fun us cs hus hcs ↦ ?_) _
    obtain rfl := Utf16.eq_encode_of_decode? hcs
    exact hus ▸ .ownTranscoded cs _
  | ownWide data =>
    refine Leaves.answer (Leaves.onNative ?_) _
    rcases data with - | us
    · exact .inl ⟨.nullPointer, rfl⟩
    · exact .inr ⟨(), _, rfl, .ownWide us _⟩
  | lendNarrow pointerOut lengthOut | lendWide pointerOut lengthOut =>
    refine Leaves.answer (Leaves.of_native_eq ?_ (.nothing rfl _)) _
    cases pointerOut <;> cases lengthOut <;> rfl
  | setStatic callback =>
    refine Leaves.answer (Leaves.onNative ?_) _
    exact .inr ⟨(), _, rfl, .setStatic callback _⟩
  | setDynamic callback context =>
    refine Leaves.answer (Leaves.onNative ?_) _
    exact .inr ⟨(), _, rfl, .setDynamic callback context _⟩
  | clearCallbacks =>
    refine Leaves.answer (Leaves.onNative ?_) _
    exact .inr ⟨(), _, rfl, .clearCallbacks _⟩
  | passTerminated | passNarrow | passWide | ownedSize =>
    exact Leaves.answer (Leaves.of_native_eq rfl (.nothing rfl _)) _
  | allocNarrow | allocWide | fillOrAlloc | allocBuffer =>
    exact Leaves.answer (Leaves.onBuffers (.nothing rfl _)) _
  | invokeGivenStatic | invokeStoredStatic | invokeGivenDynamic | invokeStoredDynamic => cases hr

/-- A request that runs a callback does only what the callback does, if it succeeds. -/
theorem entry_leaves_of_invokes [Machines S C] {R : Native S → Native S → Prop}
    (hR : Machines.Within S C R) {r : Request S} (hr : r.invokes = true) (w : World S C P) :
    Leaves r.entry w fun n ↦ n = w.native ∨ R w.native n := by
  cases r with
  | invokeGivenStatic f value =>
    refine Leaves.answer (Leaves.onThread ?_) _
    exact .inr ⟨_, _, rfl, hR.native_runStateless w.thread value f⟩
  | invokeStoredStatic value out =>
    exact Leaves.answer (Leaves.onThread (hR.invokeStatic_leaves w.thread value out)) _
  | invokeGivenDynamic f context value =>
    refine Leaves.answer (Leaves.onThread ?_) _
    exact .inr ⟨_, _, rfl, hR.native_runStateful w.thread value f context⟩
  | invokeStoredDynamic context value out =>
    exact Leaves.answer (Leaves.onThread (hR.invokeDynamic_leaves w.thread value context out)) _
  | _ => cases hr

/-- An invocation by itself writes to no part of the native state. -/
theorem parts_of_invokes {r : Request S} (hr : r.invokes = true) : r.parts = [] := by
  cases r <;> first | rfl | cases hr

/-- What a call comes to, whatever callbacks do: it fails and changes nothing, or it succeeds and
has its effect, after what a callback did if it runs one. -/
theorem perform_leaves_within [Machines S C] {R : Native S → Native S → Prop}
    (hR : Machines.Within S C R) (granted : Bool) (r : Request S) (w : World S C P) :
    Leaves (r.perform granted) w fun n ↦
      ∃ m, (m = w.native ∨ r.invokes = true ∧ R w.native m) ∧ Effect r m n := by
  refine Leaves.perform ?_ granted
  rcases hr : r.invokes
  · exact (entry_leaves hr w).mono fun n heffect ↦ ⟨w.native, .inl rfl, heffect⟩
  · refine (entry_leaves_of_invokes hR hr w).mono fun n hn ↦ ?_
    exact ⟨n, hn.imp_right fun h ↦ ⟨rfl, h⟩, .nothing (parts_of_invokes hr) n⟩

/-- **What a call comes to**: it fails and changes nothing, or it succeeds and has its effect. -/
theorem perform_leaves [Machines S C] (hquiet : Machines.Quiet S C) (granted : Bool)
    (r : Request S) (w : World S C P) : Leaves (r.perform granted) w (Effect r w.native) := by
  refine (r.perform_leaves_within hquiet.within granted w).mono ?_
  rintro n ⟨m, rfl | ⟨-, rfl⟩, heffect⟩ <;> exact heffect

/-- The size of what is owned can always be asked for. -/
theorem perform_ownedSize [Machines S C] (granted : Bool) (w : World S C P) :
    (ownedSize.perform granted).run w = (.ok (.size w.native.ownedSize), w) := rfl

end Request

/-! ### Sessions -/

/-- What calls so far have led to: the world after them, and each request with the status that its
caller saw, in order. -/
structure Session (S C P : Type) where
  world : World S C P
  log : List (Request S × Status) := []

/-- The requests of a log that succeeded, in order. -/
def done (log : List (Request S × Status)) : List (Request S) :=
  (log.filter (·.2.isSuccess)).map (·.1)

/-- What the last request has to show that has something to show. -/
def lastOf (f : Request S → Option α) (rs : List (Request S)) : Option α :=
  (rs.filterMap f).getLast?

/-- The test text was not stored from a part of the text before it. -/
def StoredOwn (rs : List (Request S)) : Prop :=
  ∀ octets ∈ lastOf Request.stored? rs, octets.isOwn = true

/-- Where nobody stores a part of the text before, the test text is the caller's own. -/
theorem storedOwn_of_forall {rs : List (Request S)}
    (h : ∀ r ∈ rs, ∀ octets ∈ r.stored?, octets.isOwn = true) : StoredOwn rs := by
  intro octets hlast
  obtain ⟨r, hr, hoctets⟩ := List.mem_filterMap.1 (List.mem_of_getLast? hlast)
  exact h r hr octets hoctets

section

variable (log : List (Request S × Status)) (rs : List (Request S)) (r : Request S)

theorem done_concat_failure (cause : Cause) : done (log ++ [(r, .failure cause)]) = done log := by
  simp [done, Status.isSuccess]

theorem done_concat_success : done (log ++ [(r, .success)]) = done log ++ [r] := by
  simp [done, Status.isSuccess]

theorem lastOf_concat (f : Request S → Option α) :
    lastOf f (rs ++ [r]) = (f r).or (lastOf f rs) := by
  rcases hr : f r with - | a <;> simp [lastOf, hr]

/-- Only a request that stores a text decides anew whether it is the caller's own. -/
theorem storedOwn_concat :
    StoredOwn (rs ++ [r]) ↔ (r.stored?.map (·.isOwn = true)).getD (StoredOwn rs) := by
  rw [StoredOwn, lastOf_concat]
  rcases hr : r.stored? with - | octets
  · rfl
  · simp

end

namespace Session

variable [Machines S C]

/-- Makes a request, where memory is granted or not. -/
def make (s : Session S C P) (call : Bool × Request S) : Session S C P :=
  let (answer, world) := (call.2.perform call.1).run s.world
  ⟨world, s.log ++ [(call.2, Call.status answer)]⟩

/-- What holds after any calls. -/
structure Sound (s : Session S C P) : Prop where
  testText : ∃ cs, s.world.native.testBytes = Utf8.encode cs ∧
    (StoredOwn (done s.log) → s.world.native.testUnits = Utf16.encode cs)
  narrow_encode : ∃ cs, s.world.native.ownedNarrow = Utf8.encode cs
  narrow : s.world.native.ownedNarrow = (lastOf Request.narrowCopy? (done s.log)).getD []
  wide : s.world.native.ownedWide = (lastOf Request.wideCopy? (done s.log)).getD []

/-- **One call keeps a session sound.** -/
theorem Sound.make (hquiet : Machines.Quiet S C) {s : Session S C P} (hs : s.Sound)
    (call : Bool × Request S) : (s.make call).Sound := by
  obtain ⟨granted, r⟩ := call
  obtain ⟨cause, w, hrun, hw⟩ | ⟨a, w, hrun, heffect⟩ :=
    r.perform_leaves hquiet granted s.world
  · have hmake : s.make (granted, r) = ⟨w, s.log ++ [(r, .failure cause)]⟩ := by
      rw [Session.make, hrun]
      rfl
    have hdone : done (s.make (granted, r)).log = done s.log := by
      rw [hmake, done_concat_failure]
    have hnative : (s.make (granted, r)).world.native = s.world.native := by rw [hmake, hw]
    refine ⟨?_, hnative ▸ hs.narrow_encode, ?_, ?_⟩
    · rw [hdone, hnative]
      exact hs.testText
    · rw [hdone, hnative, hs.narrow]
    · rw [hdone, hnative, hs.wide]
  · have hmake : s.make (granted, r) = ⟨w, s.log ++ [(r, .success)]⟩ := by
      rw [Session.make, hrun]
      rfl
    have hdone : done (s.make (granted, r)).log = done s.log ++ [r] := by
      rw [hmake, done_concat_success]
    have heffect : Effect r s.world.native (s.make (granted, r)).world.native := by rwa [hmake]
    refine ⟨?_, heffect.ownedNarrow_encode hs.narrow_encode, ?_, ?_⟩
    · rw [hdone, storedOwn_concat]
      exact heffect.testText hs.testText
    · rw [hdone, lastOf_concat, heffect.ownedNarrow, hs.narrow, Option.getD_or]
    · rw [hdone, lastOf_concat, heffect.ownedWide, hs.wide, Option.getD_or]

/-- **Every session that starts with a new native state is sound.** -/
theorem Sound.foldl (hquiet : Machines.Quiet S C) {s : Session S C P} (hs : s.Sound)
    (calls : List (Bool × Request S)) : (calls.foldl Session.make s).Sound := by
  induction calls generalizing s with
  | nil => exact hs
  | cons call calls ih => exact ih (hs.make hquiet call)

omit [Machines S C] in
/-- Before any request, everything is empty. -/
theorem sound_start {w : World S C P} (hw : w.native = {}) : (⟨w, []⟩ : Session S C P).Sound := by
  refine ⟨⟨[], ?_, fun _ ↦ ?_⟩, ⟨[], ?_⟩, ?_, ?_⟩
  all_goals
    show _ = _
    rw [hw]
    rfl

/-- Once a part of the stored text is stored, its octets are the test text, and the units are
whatever was left where the text had been. -/
theorem units_of_lent_text (remains : List UInt16) :
    let calls : List (Bool × Request Empty) :=
      [(true, .setTestString (some (.own [97, 98]))),
        (true, .setTestString (some (.lent 1 1 remains)))]
    let s : Session Empty Empty Empty := calls.foldl Session.make ⟨{}, []⟩
    s.world.native.testBytes = [98] ∧ s.world.native.testUnits = remains :=
  ⟨rfl, rfl⟩

end Session

end Crossing.Boundary
