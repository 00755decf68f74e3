import Crossing.Proofs.Boundary.Ownership
import Crossing.Proofs.Strategy.Logic
import Crossing.Proofs.Text.Encoding
import Crossing.Strategy.TextCalls
import Mathlib.Logic.Function.Iterate

/-!
# Strategies on texts, and the one text they cannot carry

A holder has a text, which crosses the boundary as octets or as units. Every method makes its rounds
for every text, with two exceptions: where octets are copied and ended by a zero, the text must not
have a `U+0000` of its own. Those two methods fail for such a text, and only for such a text.

It does not matter which text the native side has stored before, as each method that gets a text
back stores the text of its holder first. So what it keeps each round is the size of that text
(`methods_return`).
-/

namespace Crossing.Strategy.TextCalls

open Boundary Step Text

variable {S C P α : Type} {h h' : TextCalls} {w : World S C P}

/-! ### Conversions -/

theorem length_bytes (h : TextCalls) : h.bytes.length = h.text.utf8ByteSize := by
  rw [bytes, octetsOf, Utf8.length_encode, String.ofList_toList]

theorem decode?_units (h : TextCalls) : Utf16.decode? h.units = some h.text.toList :=
  Utf16.decode?_encode h.text.toList

/-- Copies are there exactly for texts without a zero. -/
theorem copied_eq (h : TextCalls) :
    h.copied = if nul ∈ h.text.toList then .error unfit else .ok (h.bytes ++ [0]) := by
  have hmem : h.bytes.contains 0 = true ↔ nul ∈ h.text.toList := by
    rw [List.contains_iff_mem, bytes, octetsOf, Utf8.zero_mem_encode_iff]
  rw [copied]
  simp only [hmem]

/-- A text that is encoded afresh is its octets and a zero. -/
theorem utf8Fresh_eq (h : TextCalls) : h.utf8Fresh = .ok (h.bytes ++ [0]) := by
  rw [utf8Fresh, decode?_units]
  rfl

/-- The octets of the text and a zero fit wherever there is room for three octets a unit and one
more. -/
theorem writeTerminated_units (h : TextCalls) {buffer : List UInt8}
    (hroom : h.utf8Room ≤ buffer.length) :
    writeTerminated h.units buffer =
      (some h.bytes.length, h.bytes ++ 0 :: buffer.drop (h.bytes.length + 1)) := by
  have hlen := length_encode_le h.text.toList
  refine writeTerminated_encode h.text.toList buffer ?_
  have hroom' : (Utf16.encode h.text.toList).length * 3 + 1 ≤ buffer.length := hroom
  omega

/-- The pool grows until there is room. -/
theorem utf8Room_le_pool (h : TextCalls) :
    h.utf8Room ≤ ((h.pool.grow h.utf8Room).front h.utf8Room).length := by
  rw [Pool.front, Pool.grow, List.length_take, List.length_append, List.length_replicate]
  omega

/-- In the pool, something of an earlier round may follow on the zero. -/
theorem utf8Pooled_ok (h : TextCalls) : ∃ rest, h.utf8Pooled.1 = .ok (h.bytes ++ 0 :: rest) := by
  rw [utf8Pooled, writeTerminated_units h h.utf8Room_le_pool]
  exact ⟨_, rfl⟩

theorem utf8Stack_ok (h : TextCalls) : ∃ rest, h.utf8Stack = .ok (h.bytes ++ 0 :: rest) := by
  have hroom : h.utf8Room ≤ (List.replicate h.stackRoom (0 : UInt8)).length := by
    rw [List.length_replicate, stackRoom, utf8Room]
    split <;> omega
  rw [utf8Stack, writeTerminated_units h hroom]
  exact ⟨_, rfl⟩

/-! ### Rounds -/

/-- What a method leaves alone: the text and the rounds of the holder, and all objects. -/
def Kept (s s' : TextCalls × World S C P) : Prop :=
  s'.1.text = s.1.text ∧ s'.1.rounds = s.1.rounds ∧ s.2.Aside s'.2

theorem Kept.refl (s : TextCalls × World S C P) : Kept s s := ⟨rfl, rfl, .refl s.2⟩

theorem Kept.trans {s s' s'' : TextCalls × World S C P} (h : Kept s s') (h' : Kept s' s'') :
    Kept s s'' :=
  ⟨h'.1.trans h.1, h'.2.1.trans h.2.1, h.2.2.trans h'.2.2⟩

/-- What a method that does not fail comes to: as many iterations as the holder has rounds. -/
def Made (s : TextCalls × World S C P) (n : UInt64) (s' : TextCalls × World S C P) : Prop :=
  n = s.1.rounds ∧ Kept s s'

/-- All rounds of a step that leaves alone what a method has to leave alone. -/
theorem eachRound_made {step : Task S C P Unit} {s : TextCalls × World S C P}
    (hstep : ∀ s' : TextCalls × World S C P, s'.1.text = s.1.text →
      step.Yields s' fun _ s'' ↦ Kept s' s'') :
    (eachRound step).Yields s (Made s) := by
  refine (eachRound_yields (fun _ s' ↦ Kept s s') (.refl s) ?_).mono fun n s' h ↦ h
  intro _ _ s' hkept
  exact (hstep s' hkept.1).mono fun _ s'' hkept' ↦ hkept.trans hkept'

/-! ### Texts as parameters -/

/-- What is handed over without a check is handed over in each round. -/
theorem handOver_yields {entryPoint : String} {make : TextCalls → α}
    (s : TextCalls × World S C P) :
    (handOver entryPoint make : Task S C P UInt64).Yields s (Made s) :=
  eachRound_made fun s' _ ↦ Yields.bind_holder (Yields.call rfl (.refl s'))

/-- What is checked before it is handed over is handed over in each round, if the text passes. -/
theorem handOverNarrow_yields {make : TextCalls → Except Fault (List UInt8)}
    {s : TextCalls × World S C P}
    (hmake : ∀ h : TextCalls, h.text = s.1.text → ∃ bs, make h = .ok bs) :
    (handOverNarrow make : Task S C P UInt64).Yields s (Made s) := by
  refine eachRound_made fun s' htext ↦ Yields.bind_holder ?_
  obtain ⟨bs, hbs⟩ := hmake s'.1 htext
  rw [hbs]
  exact (Yields.ofExcept (Q := fun _ s'' ↦ s'' = s') rfl).bind fun _ s'' hs'' ↦ by
    rw [hs'']
    exact Yields.call rfl (.refl s')

/-- Where the text of the holder does not pass, the first round fails. -/
theorem handOverNarrow_error {make : TextCalls → Except Fault (List UInt8)} {fault : Fault}
    {s : TextCalls × World S C P} (hrounds : s.1.rounds ≠ 0) (hmake : make s.1 = .error fault) :
    (handOverNarrow make : Task S C P UInt64).run s = (.error fault, s) := by
  refine eachRound_error hrounds ?_
  have hholder : (holder : Task S C P TextCalls).run s = (.ok s.1, s) := rfl
  rw [run_bind_ok hholder, hmake]
  rfl

/-- The pool may change from round to round, and each of them succeeds. -/
theorem handOverPooled_yields {make : TextCalls → Except Fault (List UInt8) × Pool}
    (hmake : ∀ h : TextCalls, ∃ bs, (make h).1 = .ok bs) (s : TextCalls × World S C P) :
    (handOverPooled make : Task S C P UInt64).Yields s (Made s) := by
  refine eachRound_made fun s' _ ↦ Yields.bind_holder ?_
  obtain ⟨bs, hbs⟩ := hmake s'.1
  rcases hmade : make s'.1 with ⟨r, pool⟩
  rw [hmade] at hbs
  dsimp only at hbs ⊢
  rw [hbs]
  refine Yields.bind_changeHolder ?_
  exact (Yields.ofExcept (Q := fun _ s'' ↦ s'' = ({ s'.1 with pool }, s'.2)) rfl).bind
    fun _ s'' hs'' ↦ by
      rw [hs'']
      exact Yields.call rfl ⟨rfl, rfl, rfl, rfl⟩

/-- A copy is made in each round, if the text of the holder can be copied. -/
theorem ownEachRound_yields {entryPoint : String}
    {own : TextCalls → Except Fault (Call (Native S) Unit)} {s : TextCalls × World S C P}
    (hown : ∀ h : TextCalls, h.text = s.1.text →
      ∃ f, own h = .ok f ∧ ∀ n, ∃ n', f.run n = (.ok (), n')) :
    (ownEachRound entryPoint own : Task S C P UInt64).Yields s (Made s) := by
  have hloop : (eachRound do
      call entryPoint (World.onNative (← MonadExcept.ofExcept (own (← holder)))) :
      Task S C P UInt64).Yields s (Made s) := by
    refine eachRound_made fun s' htext ↦ Yields.bind_holder ?_
    obtain ⟨f, hf, hrun⟩ := hown s'.1 htext
    obtain ⟨n', hn'⟩ := hrun s'.2.native
    rw [hf]
    refine (Yields.ofExcept (Q := fun g s'' ↦ g = f ∧ s'' = s') ⟨rfl, rfl⟩).bind ?_
    rintro g s'' ⟨hg, hs''⟩
    rw [hg, hs'']
    have hcall : (World.onNative f).run s'.2 =
        (.ok (), { s'.2 with thread := { s'.2.thread with native := n' } }) := by
      rw [World.run_onNative, hn']
    exact Yields.call hcall ⟨rfl, rfl, rfl, rfl⟩
  refine hloop.bind fun n s' ⟨hn, hkept⟩ ↦ ?_
  exact Yields.bind_cross_get ((keepLength_yields (Q := fun _ s'' ↦ Kept s' s'')
    ⟨rfl, rfl, rfl, rfl⟩).bind fun _ s'' hkept' ↦ Yields.pure ⟨hn, hkept.trans hkept'⟩)

/-- Where the text of the holder cannot be copied, the first round fails. -/
theorem ownEachRound_error {entryPoint : String}
    {own : TextCalls → Except Fault (Call (Native S) Unit)} {fault : Fault}
    {s : TextCalls × World S C P} (hrounds : s.1.rounds ≠ 0) (hown : own s.1 = .error fault) :
    (ownEachRound entryPoint own : Task S C P UInt64).run s = (.error fault, s) := by
  refine run_bind_error (eachRound_error hrounds ?_) _
  have hholder : (holder : Task S C P TextCalls).run s = (.ok s.1, s) := rfl
  rw [run_bind_ok hholder, hown]
  rfl

theorem ownNarrow_run (h : TextCalls) (n : Native S) :
    (Native.ownNarrow (some h.bytes)).run n = (.ok (), { n with ownedNarrow := h.bytes }) :=
  n.ownNarrow_encode h.text.toList

/-- Up to the zero that was added, a text without zeros is there in full. -/
theorem ownTerminated_run (hnul : nul ∉ h.text.toList) (n : Native S) :
    (Native.ownTerminated (some (h.bytes ++ [0]))).run n =
      (.ok (), { n with ownedNarrow := h.bytes }) := by
  have hzero : 0 ∉ h.bytes := fun hmem ↦ hnul (Utf8.zero_mem_encode_iff.1 hmem)
  rw [n.ownTerminated_append hzero, ownNarrow_run]

theorem ownTranscoded_run (h : TextCalls) (n : Native S) :
    (Native.ownTranscoded (some h.units)).run n = (.ok (), { n with ownedNarrow := h.bytes }) :=
  n.ownTranscoded_encode h.text.toList

/-! ### Texts that come back -/

/-- The native side has stored the text of the holder, in both forms. -/
def Installed (h : TextCalls) (n : Native S) : Prop := n.testBytes = h.bytes ∧ n.testUnits = h.units

/-- What is installed depends on the text only. -/
theorem Installed.of_text {n : Native S} (hn : Installed h n) (htext : h'.text = h.text) :
    Installed h' n := by
  rw [Installed, bytes, units, htext]
  exact hn

/-- Before it is asked for, the text of the holder is stored in the library. -/
theorem install_yields (s : TextCalls × World S C P) :
    (install : Task S C P Unit).Yields s fun _ s' ↦
      s'.1 = s.1 ∧ s.2.Aside s'.2 ∧ Installed s.1 s'.2.native := by
  refine Yields.bind_holder ?_
  have hcall : (World.onNative (Native.setTestString (some (.own s.1.bytes)))).run s.2 =
      (.ok (), { s.2 with thread := { s.2.thread with
        native := { s.2.native with testBytes := s.1.bytes, testUnits := s.1.units } } }) := by
    rw [World.run_onNative, bytes, octetsOf, Native.setTestString_encode]
    rfl
  exact Yields.call hcall ⟨rfl, ⟨rfl, rfl⟩, rfl, rfl⟩

/-- What getting a text back comes to: all rounds are made, and in each of them a length is added to
the sink of the holder. -/
def Returned (n : Nat) (s : TextCalls × World S C P) (m : UInt64) (s' : TextCalls × World S C P) :
    Prop :=
  Made s m s' ∧ s'.1.sink = (Sink.addLength · n.toUInt64)^[s.1.rounds.toNat] s.1.sink

/-- Getting the text back succeeds where each round gets it in well-formed form, and keeps the size
that it has there. -/
theorem getBack_yields {entryPoint : String} {receive : Task S C P (Span α)}
    {frees : Place → Bool} {size? : List α → Option Nat} {n : Nat} {s : TextCalls × World S C P}
    (hreceive : ∀ s' : TextCalls × World S C P, s'.1.text = s.1.text →
      Installed s'.1 s'.2.native → receive.Yields s' fun span s'' ↦
        (Kept s' s'' ∧ s''.1.sink = s'.1.sink ∧ s''.2.thread = s'.2.thread) ∧
          size? span.items = some n) :
    (getBack entryPoint receive frees size?).Yields s (Returned n s) := by
  refine (install_yields s).bind ?_
  rintro _ ⟨_, w₁⟩ ⟨rfl, haside, hinstalled⟩
  -- after `k` rounds the text is still the one that was stored, and its size was kept `k` times
  refine (eachRound_yields (s := (s.1, w₁)) (fun k s₂ ↦ Kept s s₂ ∧ Installed s.1 s₂.2.native ∧
    s₂.1.sink = (Sink.addLength · n.toUInt64)^[k] s.1.sink)
    ⟨⟨rfl, rfl, haside⟩, hinstalled, rfl⟩ ?_).mono
    fun m s' ⟨hm, hkept, _, hsink⟩ ↦ ⟨⟨hm, hkept⟩, hsink⟩
  rintro k - s₂ ⟨hkept₂, hinstalled₂, hsink₂⟩
  refine (hreceive s₂ hkept₂.1 (hinstalled₂.of_text hkept₂.1)).bind ?_
  rintro span s₃ ⟨⟨hkept₃, hsink₃, hthread⟩, hsize⟩
  refine (takeOver_yields hsize).bind ?_
  rintro m ⟨_, _⟩ ⟨rfl, rfl, buffers, rfl⟩
  refine keepLength_yields ⟨(hkept₂.trans hkept₃).trans ⟨rfl, rfl, rfl, rfl⟩, ?_, ?_⟩
  · show Installed s.1 s₃.2.thread.native
    rw [hthread]
    exact hinstalled₂
  · rw [Function.iterate_succ_apply', ← hsink₂, ← hsink₃]
    rfl

/-- The size of octets that come back is their number. -/
theorem narrowSize?_encode (cs : List Char) :
    narrowSize? (Utf8.encode cs) = some (Utf8.encode cs).length := by
  rw [narrowSize?, Utf8.decode?_encode]
  rfl

/-- The size of units that come back is that of the text as octets. -/
theorem wideSize?_encode (cs : List Char) :
    wideSize? (Utf16.encode cs) = some (Utf8.encode cs).length := by
  rw [wideSize?, Utf16.decode?_encode]
  rfl

/-- The size of the text before its first zero. -/
def sizeBeforeZero (h : TextCalls) : Nat :=
  (Utf8.encode (h.text.toList.takeWhile (· != nul))).length

/-- Without NUL, nothing of the text is cut off. -/
theorem sizeBeforeZero_eq (hnul : nul ∉ h.text.toList) : h.sizeBeforeZero = h.bytes.length := by
  rw [sizeBeforeZero, takeWhile_ne_nul hnul, bytes, octetsOf]

/-- Up to the first NUL, the text comes back as octets. -/
theorem returnNarrowAlloc_yields (s : TextCalls × World S C P) :
    (returnNarrowAlloc : Task S C P UInt64).Yields s (Returned s.1.sizeBeforeZero s) := by
  refine getBack_yields fun s' htext hinstalled ↦
    Yields.call rfl ⟨⟨⟨rfl, rfl, rfl, rfl⟩, rfl, rfl⟩, ?_⟩
  show narrowSize? (untilZero (s'.2.native.testBytes ++ [0])) = _
  rw [hinstalled.1, bytes, octetsOf, Utf8.untilZero_encode, narrowSize?_encode, htext,
    sizeBeforeZero]

/-- Up to the first NUL, the text comes back as units. -/
theorem returnUtf16Alloc_yields (s : TextCalls × World S C P) :
    (returnUtf16Alloc : Task S C P UInt64).Yields s (Returned s.1.sizeBeforeZero s) := by
  refine getBack_yields fun s' htext hinstalled ↦
    Yields.call rfl ⟨⟨⟨rfl, rfl, rfl, rfl⟩, rfl, rfl⟩, ?_⟩
  show wideSize? (untilZero (s'.2.native.testUnits ++ [0])) = _
  rw [hinstalled.2, units, Utf16.untilZero_encode, wideSize?_encode, htext, sizeBeforeZero]

/-- With its length, the whole text comes back. -/
theorem returnBytePtr_yields (s : TextCalls × World S C P) :
    (returnBytePtr : Task S C P UInt64).Yields s (Returned s.1.bytes.length s) := by
  refine getBack_yields fun s' htext hinstalled ↦
    Yields.call rfl ⟨⟨⟨rfl, rfl, rfl, rfl⟩, rfl, rfl⟩, ?_⟩
  show narrowSize? s'.2.native.testBytes = _
  rw [hinstalled.1, bytes, htext]
  exact narrowSize?_encode _

/-- The stored units are those of the text, and have its size in UTF-8. -/
theorem wideSize?_of_installed {n : Native S} (hn : Installed h' n) (htext : h'.text = h.text) :
    wideSize? n.testUnits = some h.bytes.length := by
  rw [hn.2, units, htext]
  exact wideSize?_encode _

theorem returnUtf16Ptr_yields (s : TextCalls × World S C P) :
    (returnUtf16Ptr : Task S C P UInt64).Yields s (Returned s.1.bytes.length s) :=
  getBack_yields fun _ htext hinstalled ↦
    Yields.call rfl ⟨⟨⟨rfl, rfl, rfl, rfl⟩, rfl, rfl⟩, wideSize?_of_installed hinstalled htext⟩

/-- In new memory, the whole text comes back as units. -/
theorem returnAllocateBuffer_yields (s : TextCalls × World S C P) :
    (returnAllocateBuffer : Task S C P UInt64).Yields s (Returned s.1.bytes.length s) :=
  getBack_yields fun _ htext hinstalled ↦
    Yields.call rfl ⟨⟨⟨rfl, rfl, rfl, rfl⟩, rfl, rfl⟩, wideSize?_of_installed hinstalled htext⟩

/-- The units come back in the pool or in a new buffer, and are the same in both. -/
theorem fillOrAlloc_run (w : World S C P) (buffer : List UInt16) (capacity : Nat) :
    ∃ span after buffers, (World.fillOrAlloc (some buffer) capacity true true).run w =
      (.ok (span, after), { w with buffers }) ∧ span.items = w.native.testUnits := by
  simp only [World.fillOrAlloc, World.run_onBuffers, Native.fillOrAlloc, run_bind, Bool.and_true,
    Call.run_demandOut_true]
  split
  · exact ⟨_, _, _, rfl, rfl⟩
  · exact ⟨_, _, _, rfl, rfl⟩

/-- The whole text comes back as units in the pool, or in new memory if it does not fit. -/
theorem returnReuseBuffer_yields (s : TextCalls × World S C P) :
    (returnReuseBuffer : Task S C P UInt64).Yields s (Returned s.1.bytes.length s) := by
  refine getBack_yields fun s' htext hinstalled ↦ Yields.bind_holder ?_
  obtain ⟨span, after, buffers, hcall, hitems⟩ :=
    fillOrAlloc_run s'.2 s'.1.pool.units s'.1.pool.units.length
  refine Yields.bind_call hcall ?_
  refine Yields.bind_changeHolder (Yields.pure ⟨⟨⟨rfl, rfl, rfl, rfl⟩, rfl, rfl⟩, ?_⟩)
  rw [hitems]
  exact wideSize?_of_installed hinstalled htext

/-! ### All methods -/

/-- The methods that copy octets and end them with a zero. -/
def copying : List String :=
  ["test_param_string_narrow_copy", "test_param_string_narrow_copy_create_owned"]

/-- **A method that copies octets fails for a text with a zero in it.** -/
theorem methods_fail {p : String × Task S C P UInt64} (hp : p ∈ methods) (hcopying : p.1 ∈ copying)
    {s : TextCalls × World S C P} (hnul : nul ∈ s.1.text.toList) (hrounds : s.1.rounds ≠ 0) :
    p.2.run s = (.error unfit, s) := by
  have hcopied : s.1.copied = .error unfit := by rw [copied_eq, if_pos hnul]
  have hall : ∀ p ∈ (methods : List (String × Task S C P UInt64)), p.1 ∈ copying →
      p.2.run s = (.error unfit, s) := by
    simp only [methods, List.forall_mem_cons]
    refine ⟨?_, ?_, ?_, ?_, ?_, ?_, ?_, ?_, ?_, ?_, ?_, ?_, ?_, ?_, ?_, ?_, ?_, ?_, ?_, ?_⟩
    case refine_2 => exact fun _ ↦ handOverNarrow_error hrounds hcopied
    case refine_3 => exact fun _ ↦ ownEachRound_error hrounds (by rw [hcopied]; rfl)
    case refine_20 => exact fun p hp ↦ absurd hp List.not_mem_nil
    all_goals exact fun h ↦ absurd h (by decide)
  exact hall p hp hcopying

/-- **No other method fails, and no method does for a text without zeros.** -/
theorem methods_yield {p : String × Task S C P UInt64} (hp : p ∈ methods)
    {s : TextCalls × World S C P} (hnul : nul ∈ s.1.text.toList → p.1 ∉ copying) :
    p.2.Yields s (Made s) := by
  have hcopied : nul ∉ s.1.text.toList → ∀ h : TextCalls, h.text = s.1.text →
      h.copied = .ok (h.bytes ++ [0]) := fun hnul h htext ↦ by
    rw [copied_eq, htext, if_neg hnul]
  have hall : ∀ p ∈ (methods : List (String × Task S C P UInt64)),
      (nul ∈ s.1.text.toList → p.1 ∉ copying) → p.2.Yields s (Made s) := by
    simp only [methods, List.forall_mem_cons]
    refine ⟨?_, ?_, ?_, ?_, ?_, ?_, ?_, ?_, ?_, ?_, ?_, ?_, ?_, ?_, ?_, ?_, ?_, ?_, ?_, ?_⟩
    · exact fun _ ↦ handOver_yields s
    · intro hnul
      have hnul' : nul ∉ s.1.text.toList := fun h ↦ hnul h (by decide)
      exact handOverNarrow_yields fun h htext ↦ ⟨_, hcopied hnul' h htext⟩
    · intro hnul
      have hnul' : nul ∉ s.1.text.toList := fun h ↦ hnul h (by decide)
      refine ownEachRound_yields fun h htext ↦ ⟨_, by rw [hcopied hnul' h htext]; rfl, fun n ↦ ?_⟩
      exact ⟨_, ownTerminated_run (htext ▸ hnul') n⟩
    · exact fun _ ↦ handOver_yields s
    · exact fun _ ↦ ownEachRound_yields fun h _ ↦ ⟨_, rfl, fun n ↦ ⟨_, ownNarrow_run h n⟩⟩
    · exact fun _ ↦ handOver_yields s
    · exact fun _ ↦ ownEachRound_yields fun h _ ↦ ⟨_, rfl, fun n ↦ ⟨_, rfl⟩⟩
    · exact fun _ ↦ ownEachRound_yields fun h _ ↦ ⟨_, rfl, fun n ↦ ⟨_, ownTranscoded_run h n⟩⟩
    · exact fun _ ↦ handOver_yields s
    · exact fun _ ↦ handOverPooled_yields (fun h ↦ ⟨_, rfl⟩) s
    · exact fun _ ↦ handOverNarrow_yields fun h _ ↦ ⟨_, h.utf8Fresh_eq⟩
    · exact fun _ ↦ handOverPooled_yields (fun h ↦ h.utf8Pooled_ok.imp' _ fun _ ↦ id) s
    · exact fun _ ↦ handOverNarrow_yields fun h _ ↦ h.utf8Stack_ok.imp' _ fun _ ↦ id
    · exact fun _ ↦ (returnNarrowAlloc_yields s).mono fun _ _ ↦ And.left
    · exact fun _ ↦ (returnUtf16Alloc_yields s).mono fun _ _ ↦ And.left
    · exact fun _ ↦ (returnBytePtr_yields s).mono fun _ _ ↦ And.left
    · exact fun _ ↦ (returnUtf16Ptr_yields s).mono fun _ _ ↦ And.left
    · exact fun _ ↦ (returnReuseBuffer_yields s).mono fun _ _ ↦ And.left
    · exact fun _ ↦ (returnAllocateBuffer_yields s).mono fun _ _ ↦ And.left
    · exact fun p hp ↦ absurd hp List.not_mem_nil
  exact hall p hp hnul

/-- What the names of the methods that get the text back start with. -/
def returnMarker : String := "test_return_"

/-- The tasks that get the text back. -/
def gettingBack : List (Task S C P UInt64) :=
  [returnNarrowAlloc, returnUtf16Alloc, returnBytePtr, returnUtf16Ptr, returnReuseBuffer,
    returnAllocateBuffer]

/-- The methods with the marker are those that get the text back. -/
theorem mem_gettingBack {p : String × Task S C P UInt64} (hp : p ∈ methods)
    (hreturn : returnMarker.toList <+: p.1.toList) : p.2 ∈ gettingBack := by
  have hall : ∀ p ∈ (methods : List (String × Task S C P UInt64)),
      returnMarker.toList <+: p.1.toList → p.2 ∈ gettingBack := by
    simp only [methods, List.forall_mem_cons]
    refine ⟨?_, ?_, ?_, ?_, ?_, ?_, ?_, ?_, ?_, ?_, ?_, ?_, ?_, ?_, ?_, ?_, ?_, ?_, ?_, ?_⟩
    case refine_14 | refine_15 | refine_16 | refine_17 | refine_18 | refine_19 =>
      simp [gettingBack]
    case refine_20 => exact fun p hp ↦ absurd hp List.not_mem_nil
    all_goals exact fun h ↦ absurd h (by decide +kernel)
  exact hall p hp hreturn

/-- **A method that gets the text back keeps the size of the text each round**, if there are no
zeros in the text. -/
theorem methods_return {p : String × Task S C P UInt64} (hp : p ∈ methods)
    (hreturn : returnMarker.toList <+: p.1.toList) {s : TextCalls × World S C P}
    (hnul : nul ∉ s.1.text.toList) : p.2.Yields s (Returned s.1.bytes.length s) := by
  have hsize := sizeBeforeZero_eq hnul
  have hall : ∀ task ∈ (gettingBack : List (Task S C P UInt64)),
      task.Yields s (Returned s.1.bytes.length s) := by
    simp only [gettingBack, List.forall_mem_cons]
    exact ⟨hsize ▸ returnNarrowAlloc_yields s, hsize ▸ returnUtf16Alloc_yields s,
      returnBytePtr_yields s, returnUtf16Ptr_yields s, returnReuseBuffer_yields s,
      returnAllocateBuffer_yields s, List.forall_mem_nil _⟩
  exact hall p.2 (mem_gettingBack hp hreturn)

end Crossing.Strategy.TextCalls
