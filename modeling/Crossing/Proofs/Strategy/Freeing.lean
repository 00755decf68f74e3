import Crossing.Proofs.Strategy.Custody

/-!
# Every buffer that was received is freed once

A text comes back in a buffer that was made for the caller, in memory that is lent to it, or in its
own scratch buffer. The strategies differ in which of these they free: all places, none, or all but
their own buffer. What is freed is recorded, whatever it is, so that freeing too little, too much or
the wrong place shows in the record.

Main statement: `received_freed_once`. From any world in which new handles are not in use, a method
leaves the buffers *turned over*: some were handed out and freed again, each once, and that is all,
whether the method fails or not.

What one round does to the buffers is decided by what it receives (`Receipt`). So for each strategy
it is enough that the places it frees are those that were made for it (`Receives`).
-/

namespace Crossing

namespace Boundary.Buffers

variable {b : Buffers}

/-- New handles are not in use: a buffer that is handed out is another one than those in use. -/
def Fresh (b : Buffers) : Prop := ∀ handle ∈ b.handles, handle < b.issued

/-- The buffers after `n` more were handed out and freed again, each of them once. No other place
was freed, no free went astray, and those in use are those that were. -/
def turnedOver (b : Buffers) (n : Nat) : Buffers :=
  { b with
    issued := b.issued + n
    freed := ((List.range' b.issued n).map Place.issued).reverse ++ b.freed }

/-- What is turned over twice is turned over once for both. -/
theorem turnedOver_turnedOver (b : Buffers) (m n : Nat) :
    (b.turnedOver m).turnedOver n = b.turnedOver (m + n) := by
  simp only [turnedOver, Nat.add_assoc, ← List.append_assoc, ← List.reverse_append,
    ← List.map_append, List.range'_append_1]

theorem Fresh.turnedOver (hb : b.Fresh) (n : Nat) : (b.turnedOver n).Fresh :=
  fun handle hmem ↦ Nat.lt_add_right n (hb handle hmem)

/-- A buffer that is handed out and freed at once leaves the others alone. -/
theorem Fresh.free_issue {α : Type} (hb : b.Fresh) (items : List α) :
    (b.issue items).2.free (.issued b.issued) = b.turnedOver 1 := by
  have hlive : (b.insert ()).2.isLive b.issued := by
    rw [Arena.isLive, Arena.get?_insert, if_pos rfl]
    rfl
  have hothers : b.live.filter (fun p ↦ p.1 != b.issued) = b.live := by
    refine List.filter_eq_self.2 fun p hp ↦ bne_iff_ne.2 ?_
    exact Nat.ne_of_lt (hb p.1 (List.mem_map_of_mem hp))
  have hrelease : (b.insert ()).2.release b.issued = { b.toArena with issued := b.issued + 1 } := by
    rw [Arena.release, if_pos hlive]
    simp [Arena.insert, hothers]
  exact congrArg (Buffers.mk · _) hrelease

end Boundary.Buffers

namespace Strategy

open Boundary Step

variable {H S C P α ε : Type} {frees : Place → Bool}

/-! ### One round -/

/-- What a caller that frees some places may receive. If it receives nothing, or something that it
does not free, no buffer was handed out; if it frees what it receives, that was handed out to it. -/
inductive Receipt (frees : Place → Bool) (b : Buffers) : Except ε (Span α) → Buffers → Prop
  | nothing (e : ε) : Receipt frees b (.error e) b
  | lent (span : Span α) (h : frees span.place = false) : Receipt frees b (.ok span) b
  | made (items : List α) (h : frees (.issued b.issued) = true) :
    Receipt frees b (.ok (b.issue items).1) (b.issue items).2

/-- A step receives what a caller that frees some places may receive. -/
def Receives (receive : Step H (World S C P) (Span α)) (frees : Place → Bool) : Prop :=
  ∀ s, Receipt frees s.2.buffers (receive.run s).1 (receive.run s).2.2.buffers

/-- What a call comes to is what its entry point comes to, with the name of the entry point at its
failures. -/
theorem call_run (entryPoint : String) (f : Call (World S C P) α) (s : H × World S C P) :
    (call entryPoint f : Step H (World S C P) α).run s =
      ((f.run s.2).1.mapError (Fault.mk entryPoint), (s.1, (f.run s.2).2)) := by
  have hcross : (cross f.run : Step H (World S C P) _).run s =
      (.ok (f.run s.2).1, (s.1, (f.run s.2).2)) := rfl
  rw [call, run_bind_ok hcross]
  cases (f.run s.2).1 <;> rfl

/-- A receipt does not depend on how errors are named. -/
theorem Receipt.mapError {b b' : Buffers} {r : Except ε (Span α)} (h : Receipt frees b r b')
    (f : ε → Fault) : Receipt frees b (r.mapError f) b' := by
  cases h with
  | nothing e => exact .nothing (f e)
  | lent span hspan => exact .lent span hspan
  | made items hmade => exact .made items hmade

/-- A call that gives a receipt is received. -/
theorem receives_call {entryPoint : String} {f : Call (World S C P) (Span α)}
    (h : ∀ w, Receipt frees w.buffers (f.run w).1 (f.run w).2.buffers) :
    Receives (call entryPoint f : Step H (World S C P) (Span α)) frees := by
  intro s
  rw [call_run]
  exact (h s.2).mapError _

/-- The buffers are those of before, turned over. -/
def Turned (b : Buffers) (s : H × World S C P) : Prop := ∃ n, s.2.buffers = b.turnedOver n

/-- Whether or not a text is well-formed, its place is freed if the caller frees it. -/
theorem buffers_takeOver [Holder H] (entryPoint : String) (span : Span α)
    (size? : List α → Option Nat) (s : H × World S C P) :
    ((takeOver entryPoint frees span size? >>= keepLength : Step H (World S C P) Unit).run
      s).2.2.buffers =
        if frees span.place then s.2.buffers.free span.place else s.2.buffers := by
  rw [run_bind, takeOver_run]
  cases size? span.items <;> rfl

variable {b b' : Buffers} {s : H × World S C P}

/-- A call that fails has issued nothing. -/
theorem Receipt.buffers_of_error {e : ε} (h : Receipt frees b (.error e : Except ε (Span α)) b') :
    b' = b := by
  cases h with
  | nothing => rfl

/-- Freeing what was received, if the caller frees it, turns the buffers over. -/
theorem Receipt.exists_turnedOver {span : Span α}
    (h : Receipt frees b (.ok span : Except ε (Span α)) b') (hb : b.Fresh) :
    ∃ k, (if frees span.place then b'.free span.place else b') = b.turnedOver k := by
  cases h with
  | lent _ hspan => exact ⟨0, by rw [hspan]; rfl⟩
  | made items hmade =>
    refine ⟨1, ?_⟩
    rw [← hb.free_issue items]
    exact if_pos hmade

/-- **One round turns the buffers over**, whether it fails or not: it frees the buffer that it was
handed, if it was. -/
theorem Receives.round_keeps [Holder H] {receive : Step H (World S C P) (Span α)}
    (hreceive : Receives receive frees) (entryPoint : String) (size? : List α → Option Nat)
    (hb : b.Fresh) (hs : Turned b s) :
    (receive >>= fun span ↦ takeOver entryPoint frees span size? >>= keepLength :
      Step H (World S C P) Unit).Keeps s (Turned b) := by
  obtain ⟨n, hn⟩ := hs
  have hreceipt := hreceive s
  rw [hn] at hreceipt
  rw [Keeps, run_bind]
  rcases hrun : receive.run s with ⟨fault | span, s'⟩ <;> rw [hrun] at hreceipt
  · exact ⟨n, hreceipt.buffers_of_error⟩
  · obtain ⟨k, hk⟩ := hreceipt.exists_turnedOver (hb.turnedOver n)
    refine ⟨n + k, ?_⟩
    rw [← Buffers.turnedOver_turnedOver, ← hk]
    exact buffers_takeOver entryPoint span size? s'

/-! ### Texts -/

namespace TextCalls

variable {s : TextCalls × World S C P}

/-- What is received is freed again, so buffers are only turned over. -/
theorem getBack_keeps {entryPoint : String} {receive : Task S C P (Span α)}
    (hreceive : Receives receive frees) (size? : List α → Option Nat) (hb : b.Fresh)
    (hs : Turned b s) : (getBack entryPoint receive frees size?).Keeps s (Turned b) := by
  have hinstall : (install : Task S C P Unit).Keeps s (Turned b) :=
    Keeps.bind_holder (Keeps.call hs)
  exact hinstall.bind fun _ _ hs' ↦ Keeps.eachRound hs' fun _ hs'' ↦
    hreceive.round_keeps entryPoint size? hb hs''

/-- The units come back in the buffer that was given, or else in one that was made. -/
theorem fillOrAlloc_receipt (buffer : List UInt16) (capacity : Nat) (w : World S C P) :
    ∃ span after w', (World.fillOrAlloc (some buffer) capacity true true).run w =
      (.ok (span, after), w') ∧
        Receipt unlessOwn w.buffers (.ok span : Except Fault _) w'.buffers := by
  simp only [World.fillOrAlloc, World.run_onBuffers, Native.fillOrAlloc, run_bind, Bool.and_true,
    Call.run_demandOut_true]
  split
  · exact ⟨_, _, _, rfl, .lent _ rfl⟩
  · exact ⟨_, _, _, rfl, .made _ rfl⟩

/-- The pool is filled, or a buffer is issued, which is to be freed. -/
theorem fillPool_receives (entryPoint : String) :
    Receives (fillPool entryPoint : Task S C P (Span UInt16)) unlessOwn := by
  intro s
  obtain ⟨span, after, w', hrun, hreceipt⟩ :=
    fillOrAlloc_receipt s.1.pool.units s.1.pool.units.length s.2
  have hholder : (holder : Task S C P TextCalls).run s = (.ok s.1, s) := rfl
  have hcall : (call entryPoint (World.fillOrAlloc (some s.1.pool.units) s.1.pool.units.length
      true true) : Task S C P _).run s = (.ok (span, after), (s.1, w')) := by
    rw [call_run, hrun]
    rfl
  rw [fillPool, run_bind_ok hholder, run_bind_ok hcall]
  exact hreceipt

/-- **The methods that get the text back turn the buffers over.** -/
theorem methods_turn_over {p : String × Task S C P UInt64} (hp : p ∈ methods)
    (hreturn : returnMarker.toList <+: p.1.toList) (hb : b.Fresh) (hs : Turned b s) :
    p.2.Keeps s (Turned b) := by
  have hall : ∀ task ∈ (gettingBack : List (Task S C P UInt64)), task.Keeps s (Turned b) := by
    simp only [gettingBack, List.forall_mem_cons]
    refine ⟨?_, ?_, ?_, ?_, ?_, ?_, List.forall_mem_nil _⟩
    · exact getBack_keeps (receives_call fun _ ↦ .made _ rfl) _ hb hs
    · exact getBack_keeps (receives_call fun _ ↦ .made _ rfl) _ hb hs
    · exact getBack_keeps (receives_call fun _ ↦ .lent _ rfl) _ hb hs
    · exact getBack_keeps (receives_call fun _ ↦ .lent _ rfl) _ hb hs
    · exact getBack_keeps (fillPool_receives _) _ hb hs
    · exact getBack_keeps (receives_call fun _ ↦ .made _ rfl) _ hb hs
  exact hall p.2 (mem_gettingBack hp hreturn)

end TextCalls

/-! ### Names -/

namespace ObjectCalls

variable {s : ObjectCalls × World S C P}

/-- The methods that get something back. -/
def returning : List String := ["test_get_name", "test_concatenate_strings"]

/-- Without an object nothing comes back, and with one a new buffer does. -/
theorem objectName_receipt (object : Option Nat) (w : World S C P) :
    Receipt whenMade w.buffers ((World.objectName object true true).run w).1
      ((World.objectName object true true).run w).2.buffers := by
  simp only [World.objectName, World.run_onBuffers, Objects.getName, run_bind]
  rcases w.objects.name object with - | name
  · exact .nothing _
  · exact .made name rfl

/-- A concatenation issues one buffer. -/
theorem concatenate_receipt (object : Option Nat) (x y : Option (List UInt8)) (w : World S C P) :
    Receipt whenMade w.buffers ((World.concatenate object x y true true).run w).1
      ((World.concatenate object x y true true).run w).2.buffers := by
  simp only [World.concatenate, World.run_onBuffers, Objects.concatenate, run_bind]
  rcases w.objects.name object with - | name
  · exact .nothing _
  · exact .made (x.getD [] ++ y.getD []) rfl

/-- **The methods that get a name or a joined text back turn the buffers over.** -/
theorem methods_turn_over {p : String × Task S C P UInt64} (hp : p ∈ methods)
    (hreturning : p.1 ∈ returning) (hb : b.Fresh) (hs : Turned b s) : p.2.Keeps s (Turned b) := by
  have hall : ∀ p ∈ (methods : List (String × Task S C P UInt64)), p.1 ∈ returning →
      p.2.Keeps s (Turned b) := by
    simp only [methods, List.forall_mem_cons]
    refine ⟨?_, ?_, ?_, ?_, ?_, ?_, ?_, ?_, ?_, ?_, ?_, ?_⟩
    case refine_6 =>
      exact fun _ ↦ Keeps.eachRound hs fun _ hs' ↦ Keeps.bind_holder
        ((receives_call (objectName_receipt _)).round_keeps _ _ hb hs')
    case refine_7 =>
      exact fun _ ↦ Keeps.eachRound hs fun _ hs' ↦ Keeps.bind_holder
        ((receives_call (concatenate_receipt _ _ _)).round_keeps _ _ hb hs')
    case refine_12 => exact fun p hp ↦ absurd hp List.not_mem_nil
    all_goals exact fun h ↦ absurd h (by decide)
  exact hall p hp hreturning

end ObjectCalls

/-- **Every buffer that was received is freed once, and nothing else is.** Whatever the holder, the
text, the number of rounds, the scratch buffers, the object and its name, and whatever is behind the
boundary: each method that gets something back leaves the buffers turned over, whether it fails or
not. -/
theorem received_freed_once {w : World S C P} (hw : w.buffers.Fresh) :
    (∀ p ∈ (TextCalls.methods : List (String × TextCalls.Task S C P UInt64)),
      TextCalls.returnMarker.toList <+: p.1.toList → ∀ h : TextCalls,
        ∃ n, (p.2.run (h, w)).2.2.buffers = w.buffers.turnedOver n) ∧
    ∀ p ∈ (ObjectCalls.methods : List (String × ObjectCalls.Task S C P UInt64)),
      p.1 ∈ ObjectCalls.returning → ∀ h : ObjectCalls,
        ∃ n, (p.2.run (h, w)).2.2.buffers = w.buffers.turnedOver n :=
  ⟨fun _ hp hreturn _ ↦ TextCalls.methods_turn_over hp hreturn hw ⟨0, rfl⟩,
    fun _ hp hreturning _ ↦ ObjectCalls.methods_turn_over hp hreturning hw ⟨0, rfl⟩⟩

/-- A name that is no text, and a buffer in use: the method fails in its first round, and the buffer
that it received by then is freed. Three units and room for two: each of two rounds receives a
buffer and frees it. -/
theorem received_freed_once_in_use :
    let w : World Empty Empty Empty :=
      { objects := { issued := 1, live := [(0, [0xFF])] },
        buffers := { issued := 7, live := [(4, ())] } }
    w.buffers.Fresh ∧
    (ObjectCalls.getName.run ({ rounds := 3, object := 0, test := 0 }, w)).1 =
      .error ⟨"mb_test_object_get_name", .invalidEncoding⟩ ∧
    (ObjectCalls.getName.run ({ rounds := 3, object := 0, test := 0 }, w)).2.2.buffers =
      { issued := 8, live := [(4, ())], freed := [.issued 7] } ∧
    (TextCalls.returnReuseBuffer.run (.create "abc" 2 4, w)).2.2.buffers =
      { issued := 9, live := [(4, ())], freed := [.issued 8, .issued 7] } := by
  intro w
  have hw : w.buffers.Fresh := by
    intro handle hmem
    obtain rfl : handle = 4 := List.mem_singleton.1 hmem
    decide
  obtain ⟨htexts, hobjects⟩ := received_freed_once hw
  refine ⟨hw, rfl, ?_, ?_⟩
  · obtain ⟨n, hn⟩ := hobjects ("test_get_name", ObjectCalls.getName)
      (by simp [ObjectCalls.methods]) (by decide) { rounds := 3, object := 0, test := 0 }
    have hissued : 8 = 7 + n := congrArg (·.issued) hn
    obtain rfl : n = 1 := by omega
    exact hn
  · obtain ⟨n, hn⟩ := htexts ("test_return_string_reuse_buffer_utf16", TextCalls.returnReuseBuffer)
      (by simp [TextCalls.methods]) (by decide +kernel) (.create "abc" 2 4)
    have hrun :
        (TextCalls.returnReuseBuffer.run (.create "abc" 2 4, w)).2.2.buffers.issued = 9 := by
      decide +kernel
    have hissued : 9 = 7 + n := hrun.symm.trans (congrArg (·.issued) hn)
    obtain rfl : n = 2 := by omega
    exact hn

end Strategy

end Crossing
