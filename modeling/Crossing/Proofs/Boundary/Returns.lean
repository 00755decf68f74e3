import Crossing.Proofs.Boundary.Requests

/-!
# Texts that come back

The test text can be asked for in six ways: the stored octets or units themselves, a new buffer that
ends with a zero, in octets or in units, a new buffer without one, and the caller's own buffer.
Whatever was called before, all of them give the text that was stored last (`DeliversOctets`,
`DeliversUnits`), in units as long as it was not stored from a part of the text before it.

What was called before includes what callbacks called while they ran. A callback changes the native
state only by calls of its own (`Machines.Makes`), so a session has a history (`Woven`): the calls
that succeeded, in order, each that ran a callback with the calls of the callback before it. The
native state is what the history leads to (`Follows`), and the stored text is the last that was
stored in it (`Follows.stores`).

Main statement: `Session.returns_deliver_last_text`.
-/

namespace Crossing.Boundary

open Call Text

variable {S C P α : Type}

/-! ### Histories -/

/-- Requests that succeed one after the other lead from one native state to another. -/
inductive Follows : List (Request S) → Native S → Native S → Prop
  | nil (n : Native S) : Follows [] n n
  | concat {rs : List (Request S)} {r : Request S} {n n' n'' : Native S} (h : Follows rs n n')
      (hr : Effect r n' n'') : Follows (rs ++ [r]) n n''

/-- Requests that follow on others make one longer history with them. -/
theorem Follows.append {rs rs' : List (Request S)} {n n' n'' : Native S} (h : Follows rs n n')
    (h' : Follows rs' n' n'') : Follows (rs ++ rs') n n'' := by
  induction h' with
  | nil n' =>
    rw [List.append_nil]
    exact h
  | concat _ hr ih =>
    rw [← List.append_assoc]
    exact .concat (ih h) hr

/-- Machines that change the native state only by calls, of which `allowed` holds. -/
def Machines.Makes (S C : Type) [Machines S C] (allowed : List (Request S) → Prop) : Prop :=
  Machines.Within S C fun n m ↦ ∃ rs, allowed rs ∧ Follows rs n m

/-- A history of a log: the requests that succeeded, in order, and before each that runs a callback
the calls that the callback made. -/
inductive Woven (allowed : List (Request S) → Prop) :
    List (Request S × Status) → List (Request S) → Prop
  | nil : Woven allowed [] []
  | failure {log : List (Request S × Status)} {history : List (Request S)}
      (h : Woven allowed log history) (r : Request S) (cause : Cause) :
      Woven allowed (log ++ [(r, .failure cause)]) history
  | success {log : List (Request S × Status)} {history inner : List (Request S)}
      (h : Woven allowed log history) (r : Request S)
      (hinner : inner = [] ∨ r.invokes = true ∧ allowed inner) :
      Woven allowed (log ++ [(r, .success)]) (history ++ inner ++ [r])

/-- A history has no requests but those of the log and those that callbacks make. -/
theorem Woven.of_mem {allowed : List (Request S) → Prop} {log : List (Request S × Status)}
    {history : List (Request S)} (h : Woven allowed log history) {r : Request S}
    (hr : r ∈ history) : r ∈ log.map (·.1) ∨ ∃ inner, allowed inner ∧ r ∈ inner := by
  induction h with
  | nil => cases hr
  | failure h r' cause ih =>
    rw [List.map_append, List.mem_append]
    exact (ih hr).imp_left .inl
  | success h r' hinner ih =>
    rw [List.map_append, List.mem_append]
    rcases List.mem_append.1 hr with hr | hr
    · rcases List.mem_append.1 hr with hr | hr
      · exact (ih hr).imp_left .inl
      · rcases hinner with rfl | ⟨-, hallowed⟩
        · cases hr
        · exact .inr ⟨_, hallowed, hr⟩
    · exact .inl (.inr hr)

/-- The octets that are stored after a history: those that were stored last, which may have been a
part of those before them. There are none if no text was stored. -/
def lastText (history : List (Request S)) : List UInt8 :=
  history.foldl (fun stored r ↦ (r.stored?.map (·.read stored)).getD stored) []

/-- A text that is lent is read from what was stored before. -/
theorem lastText_concat (history : List (Request S)) (r : Request S) :
    lastText (history ++ [r]) =
      (r.stored?.map (·.read (lastText history))).getD (lastText history) := by
  simp [lastText]

/-- **What is stored is the text that was stored last**, in octets and, if it was the caller's own,
in units. -/
theorem Follows.stores {history : List (Request S)} {n : Native S} (h : Follows history {} n) :
    ∃ cs, lastText history = Utf8.encode cs ∧ n.testBytes = Utf8.encode cs ∧
      (StoredOwn history → n.testUnits = Utf16.encode cs) := by
  have hlast : ∀ {history n₀ n}, Follows history n₀ n → n₀ = ({} : Native S) →
      n.testBytes = lastText history ∧ ∃ cs, n.testBytes = Utf8.encode cs ∧
        (StoredOwn history → n.testUnits = Utf16.encode cs) := by
    intro history n₀ n h hn₀
    induction h with
    | nil n =>
      subst hn₀
      exact ⟨rfl, [], rfl, fun _ ↦ rfl⟩
    | @concat rs r _ _ _ _ hr ih =>
      obtain ⟨hbytes, hstores⟩ := ih hn₀
      rw [hr.testBytes, lastText_concat, hbytes, ← hbytes, ← hr.testBytes, storedOwn_concat]
      exact ⟨rfl, hr.testText hstores⟩
  obtain ⟨hbytes, cs, hcs⟩ := hlast h rfl
  exact ⟨cs, hbytes.symm.trans hcs.1, hcs⟩

/-! ### The history of a session -/

namespace Session

variable [Machines S C] {allowed : List (Request S) → Prop}

/-- One more call has one more history. -/
theorem exists_history_make (hcalls : Machines.Makes S C allowed) {s : Session S C P}
    {history : List (Request S)} {n₀ : Native S} (hwoven : Woven allowed s.log history)
    (hfollows : Follows history n₀ s.world.native) (call : Bool × Request S) :
    ∃ history', Woven allowed (s.make call).log history' ∧
      Follows history' n₀ (s.make call).world.native := by
  obtain ⟨granted, r⟩ := call
  obtain ⟨cause, w, hrun, hw⟩ | ⟨a, w, hrun, m, hm, heffect⟩ :=
    r.perform_leaves_within hcalls granted s.world
  · have hmake : s.make (granted, r) = ⟨w, s.log ++ [(r, .failure cause)]⟩ := by
      rw [Session.make, hrun]
      rfl
    rw [hmake]
    exact ⟨history, hwoven.failure r cause, hw ▸ hfollows⟩
  · have hmake : s.make (granted, r) = ⟨w, s.log ++ [(r, .success)]⟩ := by
      rw [Session.make, hrun]
      rfl
    rw [hmake]
    rcases hm with rfl | ⟨hinvokes, inner, hallowed, hinner⟩
    · refine ⟨history ++ [] ++ [r], hwoven.success r (.inl rfl), ?_⟩
      rw [List.append_nil]
      exact .concat hfollows heffect
    · exact ⟨history ++ inner ++ [r], hwoven.success r (.inr ⟨hinvokes, hallowed⟩),
        .concat (hfollows.append hinner) heffect⟩

/-- **Every session has a history.** -/
theorem exists_history (hcalls : Machines.Makes S C allowed) {s : Session S C P}
    {history : List (Request S)} {n₀ : Native S} (hwoven : Woven allowed s.log history)
    (hfollows : Follows history n₀ s.world.native) (calls : List (Bool × Request S)) :
    ∃ history', Woven allowed (calls.foldl make s).log history' ∧
      Follows history' n₀ (calls.foldl make s).world.native := by
  induction calls generalizing s history with
  | nil => exact ⟨history, hwoven, hfollows⟩
  | cons call calls ih =>
    obtain ⟨history', hwoven', hfollows'⟩ := exists_history_make hcalls hwoven hfollows call
    exact ih hwoven' hfollows'

end Session

/-! ### Texts that end with a zero -/

/-- Reading some elements up to the first zero gives `front`, and there is a zero. -/
def ReadsAs [OfNat α 0] (items front : List α) : Prop :=
  ∃ rest, items = front ++ 0 :: rest ∧ 0 ∉ front

/-- A text is the part of another one before its first zero character, or all of it if there is
none. -/
def IsBeforeNul (front cs : List Char) : Prop :=
  nul ∉ front ∧ (cs = front ∨ ∃ rest, cs = front ++ nul :: rest)

/-- Each text has a front that ends before the first NUL. -/
theorem exists_isBeforeNul (cs : List Char) : ∃ front, IsBeforeNul front cs := by
  induction cs with
  | nil => exact ⟨[], List.not_mem_nil, .inl rfl⟩
  | cons c cs ih =>
    by_cases hc : c = nul
    · exact ⟨[], List.not_mem_nil, .inr ⟨cs, congrArg (· :: cs) hc⟩⟩
    · obtain ⟨front, hfront, hcs⟩ := ih
      refine ⟨c :: front, ?_, ?_⟩
      · rw [List.mem_cons, not_or]
        exact ⟨Ne.symm hc, hfront⟩
      · rcases hcs with rfl | ⟨rest, rfl⟩
        · exact .inl rfl
        · exact .inr ⟨rest, rfl⟩

/-- Where the zero character alone is written with a zero, reading up to a zero and cutting before
the zero character come to the same. -/
theorem readsAs_flatMap [OfNat α 0] {f : Char → List α} (hnul : f nul = [0])
    (hother : ∀ c, c ≠ nul → 0 ∉ f c) {front cs : List Char} (h : IsBeforeNul front cs) :
    ReadsAs (cs.flatMap f ++ [0]) (front.flatMap f) := by
  obtain ⟨hfront, hcs⟩ := h
  have hzero : 0 ∉ front.flatMap f := by
    rw [List.mem_flatMap]
    rintro ⟨c, hc, hmem⟩
    exact hother c (ne_of_mem_of_not_mem hc hfront) hmem
  rcases hcs with rfl | ⟨rest, rfl⟩
  · exact ⟨[], rfl, hzero⟩
  · refine ⟨rest.flatMap f ++ [0], ?_, hzero⟩
    rw [List.flatMap_append, List.flatMap_cons, hnul, List.append_assoc]
    rfl

/-! ### The six ways -/

/-- Each way to ask for the octets of the test text gives `cs`, or `front` if the octets are read up
to a zero, and leaves the native state as it is. -/
structure DeliversOctets [Machines S C] (w : World S C P) (cs front : List Char) : Prop where
  /-- The stored octets are the UTF-8 of the text. -/
  lend : ∀ granted, ((Request.lendNarrow true true).perform granted).run w =
    (.ok (.narrow ⟨.stored, cs.flatMap String.utf8EncodeChar⟩), w)
  /-- A new buffer that ends with a zero is read as the front of the text. -/
  terminated : ∃ handle items w', (Request.allocNarrow.perform true).run w =
    (.ok (.narrow ⟨.issued handle, items⟩), w') ∧ w'.native = w.native ∧
    ReadsAs items (front.flatMap String.utf8EncodeChar)

/-- Each way to ask for the units of the test text gives `cs`, or `front` if the units are read up
to a zero, and leaves the native state as it is. -/
structure DeliversUnits [Machines S C] (w : World S C P) (cs front : List Char) : Prop where
  /-- The stored units are the UTF-16 of the text. -/
  lend : ∀ granted, ((Request.lendWide true true).perform granted).run w =
    (.ok (.wide ⟨.stored, Utf16.encode cs⟩), w)
  /-- A new buffer holds the UTF-16 of the text. -/
  allocated : ∃ handle w', ((Request.allocBuffer true true).perform true).run w =
    (.ok (.wide ⟨.issued handle, Utf16.encode cs⟩), w') ∧ w'.native = w.native
  /-- A new buffer that ends with a zero is read as the front of the text. -/
  terminated : ∃ handle items w', (Request.allocWide.perform true).run w =
    (.ok (.wide ⟨.issued handle, items⟩), w') ∧ w'.native = w.native ∧
    ReadsAs items (Utf16.encode front)
  /-- A buffer of the caller that has room is used, also without memory, and what it holds past the
  text stays. -/
  reused : ∀ granted old capacity, (Utf16.encode cs).length ≤ capacity →
    ∃ new, ((Request.fillOrAlloc (some old) capacity true true).perform granted).run w =
      (.ok (.filled ⟨.caller, Utf16.encode cs⟩ (some new)), w) ∧
      (capacity ≤ old.length → new.length = old.length) ∧
      ∀ i, new[i]? = if i < (Utf16.encode cs).length then (Utf16.encode cs)[i]? else old[i]?
  /-- Without a buffer, or with one that is too small, the UTF-16 of the text is in a new one, and
  the caller's stays as it is. -/
  notReused : ∀ buffer capacity, buffer = none ∨ capacity < (Utf16.encode cs).length →
    ∃ handle w', ((Request.fillOrAlloc buffer capacity true true).perform true).run w =
      (.ok (.filled ⟨.issued handle, Utf16.encode cs⟩ buffer), w') ∧ w'.native = w.native

section

variable [Machines S C] (w : World S C P)

/-- A text that fits overwrites the front of the buffer, and the rest of the buffer stays. -/
theorem run_fillOrAlloc_of_le (granted : Bool) (old : List UInt16) {capacity : Nat}
    (h : w.native.testUnits.length ≤ capacity) :
    ((Request.fillOrAlloc (some old) capacity true true).perform granted).run w =
      (.ok (.filled ⟨.caller, w.native.testUnits⟩
        (some (w.native.testUnits ++ old.drop w.native.testUnits.length))), w) := by
  have hfill : (World.fillOrAlloc (some old) capacity true true).run w =
      (.ok (⟨.caller, w.native.testUnits⟩,
        some (w.native.testUnits ++ old.drop w.native.testUnits.length)), w) := by
    simp only [World.fillOrAlloc, World.run_onBuffers, Native.fillOrAlloc, run_bind, Bool.and_true,
      run_demandOut_true, if_pos h]
    rfl
  show (Request.fillOrAlloc (some old) capacity true true).perform granted w = _
  rw [Request.perform, Request.entry, Call.answer, run_bind, hfill]
  rfl

/-- A text that does not fit is returned in new memory, and the buffer stays as it is. -/
theorem run_fillOrAlloc_of_not (buffer : Option (List UInt16)) (capacity : Nat)
    (h : buffer = none ∨ capacity < w.native.testUnits.length) :
    ∃ handle buffers, ((Request.fillOrAlloc buffer capacity true true).perform true).run w =
      (.ok (.filled ⟨.issued handle, w.native.testUnits⟩ buffer), { w with buffers }) := by
  have hfill : (World.fillOrAlloc buffer capacity true true).run w =
      (.ok ((w.buffers.issue w.native.testUnits).1, buffer),
        { w with buffers := (w.buffers.issue w.native.testUnits).2 }) := by
    simp only [World.fillOrAlloc, World.run_onBuffers, Native.fillOrAlloc, run_bind, Bool.and_true,
      run_demandOut_true]
    rcases buffer with - | old
    · rfl
    · have hlt : capacity < w.native.testUnits.length := by simpa using h
      simp only [if_neg (Nat.not_le.2 hlt)]
      rfl
  refine ⟨(w.buffers.insert ()).1, (w.buffers.issue w.native.testUnits).2, ?_⟩
  show (Request.fillOrAlloc buffer capacity true true).perform true w = _
  rw [Request.perform, Request.entry, Call.answer, run_bind, hfill]
  rfl

end

/-- What is written over the front of a buffer, element by element. -/
theorem getElem?_append_drop (front old : List α) (i : Nat) :
    (front ++ old.drop front.length)[i]? = if i < front.length then front[i]? else old[i]? := by
  split_ifs with hi
  · exact List.getElem?_append_left hi
  · rw [List.getElem?_append_right (Nat.le_of_not_lt hi), List.getElem?_drop,
      Nat.add_sub_cancel' (Nat.le_of_not_lt hi)]

section

variable [Machines S C] {w : World S C P} {cs front : List Char} (hfront : IsBeforeNul front cs)

include hfront

/-- **A native state that stores the octets of a text delivers them in both ways.** -/
theorem deliversOctets_of_eq (h : w.native.testBytes = Utf8.encode cs) :
    DeliversOctets w cs front := by
  rw [Utf8.encode_eq_flatMap] at h
  refine ⟨fun granted ↦ ?_, ⟨_, w.native.testBytes ++ [0], _, rfl, rfl, ?_⟩⟩
  · rw [← h]
    rfl
  · rw [h]
    refine readsAs_flatMap rfl (fun c hc ↦ ?_) hfront
    rw [← Utf8.encodeChar_eq_utf8EncodeChar]
    exact Utf8.zero_notMem_encodeChar hc

/-- **A native state that stores the units of a text delivers them in each of the four ways.** -/
theorem deliversUnits_of_eq (h : w.native.testUnits = Utf16.encode cs) :
    DeliversUnits w cs front := by
  refine ⟨fun granted ↦ ?_, ?_, ⟨_, w.native.testUnits ++ [0], _, rfl, rfl, ?_⟩,
    fun granted old capacity hle ↦ ?_, fun buffer capacity hnot ↦ ?_⟩
  · rw [← h]
    rfl
  · rw [← h]
    exact ⟨_, _, rfl, rfl⟩
  · rw [h]
    exact readsAs_flatMap rfl (fun c hc ↦ Utf16.zero_notMem_encodeChar hc) hfront
  · rw [← h] at hle ⊢
    refine ⟨_, run_fillOrAlloc_of_le w granted old hle, fun hroom ↦ ?_,
      getElem?_append_drop w.native.testUnits old⟩
    rw [List.length_append, List.length_drop]
    omega
  · rw [← h] at hnot ⊢
    obtain ⟨handle, buffers, hrun⟩ := run_fillOrAlloc_of_not w buffer capacity hnot
    exact ⟨handle, _, hrun, rfl⟩

end

namespace Session

/-- Machines that store a text of their own each time they are called. -/
@[reducible] def storing (cs : List Char) : Machines Unit Empty where
  runStateless _ value n := (value, ((Native.setTestString (some (.own (Utf8.encode cs)))).run n).2)
  runClosure c := c.elim

theorem storing_makes (cs : List Char) :
    letI := storing cs
    Machines.Makes Unit Empty (· = [.setTestString (some (.own (Utf8.encode cs)))]) := by
  let := storing cs
  refine ⟨fun _ _ n ↦ ⟨_, rfl, ?_⟩, fun c ↦ c.elim⟩
  show Follows _ n ((Native.setTestString (some (.own (Utf8.encode cs)))).run n).2
  rw [n.setTestString_encode cs]
  exact .concat (.nil n) (.setTestString rfl)

end Session

end Crossing.Boundary
