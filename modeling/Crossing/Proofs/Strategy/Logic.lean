import Crossing.Proofs.Boundary.Execution
import Crossing.Strategy.Holder
import Mathlib.Tactic.Common

/-!
# What steps come to

A step of a holder *yields* something if it succeeds, and what it returns and leaves behind is as
said. So `Yields` is a claim of total correctness: a fault refutes it. Each way to make a step of
other steps has its rule here, and the rule for a loop takes what each round keeps.

The rules are used backwards, from what a whole method should yield to what its first call has to
come to. What is left then are equations on single calls, one for each part of the world that a call
may change (`World.run_onNative` and its like), and the facts that the invariant of the loop
supplies.
-/

namespace Crossing.Step

variable {H N α β : Type}

/-- From a state, a step succeeds, and what it returns and leaves behind is as `Q` says. -/
def Yields (step : Step H N α) (s : H × N) (Q : α → H × N → Prop) : Prop :=
  ∃ a s', step.run s = (.ok a, s') ∧ Q a s'

/-! ### Steps after each other -/

theorem run_bind_ok {step : Step H N α} {s s' : H × N} {a : α} (h : step.run s = (.ok a, s'))
    (f : α → Step H N β) : (step >>= f).run s = (f a).run s' := by
  rw [run_bind, h]

theorem run_bind_error {step : Step H N α} {s s' : H × N} {fault : Fault}
    (h : step.run s = (.error fault, s')) (f : α → Step H N β) :
    (step >>= f).run s = (.error fault, s') := by
  rw [run_bind, h]

namespace Yields

variable {step : Step H N α} {s : H × N} {Q : α → H × N → Prop}

/-- What a step yields may be said with less precision. -/
theorem mono {R : α → H × N → Prop} (h : step.Yields s Q) (hQ : ∀ a s', Q a s' → R a s') :
    step.Yields s R := by
  obtain ⟨a, s', hrun, h⟩ := h
  exact ⟨a, s', hrun, hQ a s' h⟩

theorem pure {a : α} (h : Q a s) : (Pure.pure a : Step H N α).Yields s Q := ⟨a, s, rfl, h⟩

/-- What follows on a step may rely on what it yields. -/
theorem bind {f : α → Step H N β} {R : β → H × N → Prop} (h : step.Yields s Q)
    (hf : ∀ a s', Q a s' → (f a).Yields s' R) : (step >>= f).Yields s R := by
  obtain ⟨a, s', hrun, h⟩ := h
  obtain ⟨b, s'', hrun', h'⟩ := hf a s' h
  exact ⟨b, s'', (run_bind_ok hrun f).trans hrun', h'⟩

/-! ### Single steps -/

theorem holder {Q : H → H × N → Prop} (h : Q s.1 s) : (Step.holder : Step H N H).Yields s Q :=
  ⟨s.1, s, rfl, h⟩

theorem changeHolder {f : H → H} {Q : Unit → H × N → Prop} (h : Q () (f s.1, s.2)) :
    (Step.changeHolder f : Step H N Unit).Yields s Q :=
  ⟨(), (f s.1, s.2), rfl, h⟩

theorem cross {f : StateM N α} {a : α} {n : N} (hf : f s.2 = (a, n)) (h : Q a (s.1, n)) :
    (Step.cross f : Step H N α).Yields s Q := by
  refine ⟨a, (s.1, n), ?_, h⟩
  show (Except.ok (f s.2).1, (s.1, (f s.2).2)) = _
  rw [hf]

/-- A call that succeeds across the boundary succeeds. -/
theorem call {entryPoint : String} {f : Boundary.Call N α} {a : α} {n : N}
    (hf : f.run s.2 = (.ok a, n)) (h : Q a (s.1, n)) :
    (Step.call entryPoint f : Step H N α).Yields s Q :=
  bind (cross (Q := fun r s' ↦ r = .ok a ∧ s' = (s.1, n)) hf ⟨rfl, rfl⟩)
    fun r s' ⟨hr, hs'⟩ ↦ by
      rw [hr, hs']
      exact pure h

/-- What comes after a look at the holder has it at hand. -/
theorem bind_holder {f : H → Step H N β} {R : β → H × N → Prop} (h : (f s.1).Yields s R) :
    (Step.holder >>= f).Yields s R :=
  (holder (Q := fun h' s' ↦ h' = s.1 ∧ s' = s) ⟨rfl, rfl⟩).bind fun _ _ ⟨hh', hs'⟩ ↦ by
    rwa [hh', hs']

/-- What comes after a change to the holder finds it changed. -/
theorem bind_changeHolder {f : H → H} {g : Unit → Step H N β} {R : β → H × N → Prop}
    (h : (g ()).Yields (f s.1, s.2) R) : (Step.changeHolder f >>= g).Yields s R :=
  (changeHolder (Q := fun _ s' ↦ s' = (f s.1, s.2)) rfl).bind fun _ _ hs' ↦ by
    rwa [hs']

/-- What comes after a look at the other side has it at hand. -/
theorem bind_cross_get {f : N → Step H N β} {R : β → H × N → Prop} (h : (f s.2).Yields s R) :
    (Step.cross get >>= f).Yields s R := by
  have hget : (Step.cross get : Step H N N).run s = (.ok s.2, s) := rfl
  obtain ⟨b, s', hrun, h⟩ := h
  exact ⟨b, s', (run_bind_ok hget f).trans hrun, h⟩

/-- What comes after a call that succeeds has its result at hand. -/
theorem bind_call {entryPoint : String} {f : Boundary.Call N α} {a : α} {n : N}
    {g : α → Step H N β} {R : β → H × N → Prop} (hf : f.run s.2 = (.ok a, n))
    (h : (g a).Yields (s.1, n) R) : (Step.call entryPoint f >>= g).Yields s R :=
  (call (Q := fun a' s' ↦ a' = a ∧ s' = (s.1, n)) hf ⟨rfl, rfl⟩).bind fun _ _ ⟨ha', hs'⟩ ↦ by
    rwa [ha', hs']

theorem ofExcept {a : α} (h : Q a s) : (MonadExcept.ofExcept (.ok a : Except Fault α) :
    Step H N α).Yields s Q :=
  pure h

/-- A step whose fault is looked at later always succeeds. -/
theorem lift {s' : H × N} {r : Except Fault α} {Q : Except Fault α → H × N → Prop}
    (hrun : step.run s = (r, s')) (h : Q r s') :
    Yields (ExceptT.lift step.run : Step H N (Except Fault α)) s Q := by
  refine ⟨r, s', ?_, h⟩
  show (Except.ok (step.run s).1, (step.run s).2) = _
  rw [hrun]

/-! ### Loops -/

/-- A loop keeps what each round keeps. -/
theorem iterate {step : α → Step H N α} {n : Nat} (I : Nat → α → H × N → Prop) {a : α}
    (h : I 0 a s) (hstep : ∀ k < n, ∀ a s', I k a s' → (step a).Yields s' (I (k + 1))) :
    (Step.iterate step n a).Yields s (I n) := by
  induction n generalizing I a s with
  | zero => exact pure h
  | succ n ih =>
    refine bind (hstep 0 (Nat.succ_pos n) a s h) fun a' s' h' ↦ ?_
    exact ih (fun k ↦ I (k + 1)) h' fun k hk ↦ hstep (k + 1) (Nat.succ_lt_succ hk)

/-- A step that leads from each stage to the next leads through all of them. -/
theorem times {step : Step H N Unit} {n : Nat} (I : Nat → H × N → Prop) (h : I 0 s)
    (hstep : ∀ k < n, ∀ s', I k s' → step.Yields s' fun _ ↦ I (k + 1)) :
    (Step.times n step).Yields s fun _ ↦ I n :=
  iterate (fun k _ ↦ I k) h fun k hk _ ↦ hstep k hk

end Yields

/-- A loop that fails in its first round fails. -/
theorem times_error {step : Step H N Unit} {n : Nat} {s s' : H × N} {fault : Fault} (hn : n ≠ 0)
    (h : step.run s = (.error fault, s')) : (times n step).run s = (.error fault, s') := by
  obtain ⟨n, rfl⟩ := Nat.exists_eq_succ_of_ne_zero hn
  exact run_bind_error h _

end Crossing.Step

namespace Crossing.Boundary.World

variable {S C P : Type} {w w' w'' : World S C P}

/-! ### Calls on a part of the world -/

section

variable {α : Type} (w : World S C P)

theorem run_onThread (f : Call (Thread S C) α) :
    (onThread f).run w = ((f.run w.thread).1, { w with thread := (f.run w.thread).2 }) := rfl

theorem run_onNative (f : Call (Native S) α) :
    (onNative f).run w = ((f.run w.native).1,
      { w with thread := { w.thread with native := (f.run w.native).2 } }) := rfl

theorem run_onObjects (f : Call Objects α) :
    (onObjects f).run w = ((f.run w.objects).1, { w with objects := (f.run w.objects).2 }) := rfl

theorem run_onTests (f : Call (CallbackTests P) α) :
    (onTests f).run w = ((f.run w.tests).1, { w with tests := (f.run w.tests).2 }) := rfl

/-- A call on the buffers sees the whole world, and changes the buffers. -/
theorem run_onBuffers (f : World S C P → Call Buffers α) :
    (onBuffers f).run w =
      (((f w).run w.buffers).1, { w with buffers := ((f w).run w.buffers).2 }) := rfl

end

/-- Nothing happened to the objects and the callback tests, whatever happened to the rest. -/
def Aside (w w' : World S C P) : Prop := w'.objects = w.objects ∧ w'.tests = w.tests

theorem Aside.refl (w : World S C P) : w.Aside w := ⟨rfl, rfl⟩

theorem Aside.trans (h : w.Aside w') (h' : w'.Aside w'') : w.Aside w'' :=
  ⟨h'.1.trans h.1, h'.2.trans h.2⟩

end Crossing.Boundary.World

namespace Crossing.Strategy

open Step

variable {H N : Type} [Holder H] {s : H × N}

theorem keep_yields {x : Float} {Q : Unit → H × N → Prop}
    (h : Q () (Holder.setSink s.1 ((Holder.sink s.1).add x), s.2)) :
    (keep x : Step H N Unit).Yields s Q :=
  Yields.changeHolder h

theorem keepLength_yields {n : Nat} {Q : Unit → H × N → Prop}
    (h : Q () (Holder.setSink s.1 ((Holder.sink s.1).addLength n.toUInt64), s.2)) :
    (keepLength n : Step H N Unit).Yields s Q :=
  Yields.changeHolder h

/-- A step once each round: it returns the number of rounds, and keeps what each round keeps. -/
theorem eachRound_yields {step : Step H N Unit} (I : Nat → H × N → Prop) (h : I 0 s)
    (hstep : ∀ k < (Holder.rounds s.1).toNat, ∀ s', I k s' → step.Yields s' fun _ ↦ I (k + 1)) :
    (eachRound step).Yields s fun r s' ↦
      r = Holder.rounds s.1 ∧ I (Holder.rounds s.1).toNat s' :=
  Yields.bind_holder ((Yields.times I h hstep).bind fun _ _ h' ↦ Yields.pure ⟨rfl, h'⟩)

/-- If a step fails and there is at least one round, all rounds together fail. -/
theorem eachRound_error {step : Step H N Unit} {s' : H × N} {fault : Fault}
    (hrounds : Holder.rounds s.1 ≠ 0) (h : step.run s = (.error fault, s')) :
    (eachRound step).run s = (.error fault, s') := by
  have hne : (Holder.rounds s.1).toNat ≠ 0 := fun h0 ↦ hrounds (UInt64.toNat_inj.1 h0)
  have hholder : (holder : Step H N H).run s = (.ok s.1, s) := rfl
  rw [eachRound, run_bind_ok hholder]
  exact run_bind_error (times_error hne h) _

section

variable {H S C P α : Type} {entryPoint : String} {frees : Boundary.Place → Bool}
  {span : Boundary.Span α} {size? : List α → Option Nat} (s : H × Boundary.World S C P)

/-- What has to be freed is released, and nothing fails. -/
theorem freeIf_run (place : Boundary.Place) :
    (freeIf entryPoint frees place : Step H (Boundary.World S C P) Unit).run s =
      (.ok (), (s.1, { s.2 with
        buffers := if frees place then s.2.buffers.free place else s.2.buffers })) := by
  rw [freeIf]
  cases frees place <;> rfl

/-- Taking a text over fails exactly where the text is not well-formed. Whether it does or not, the
place of the text is freed if the caller frees it, and all else stays. -/
theorem takeOver_run :
    (takeOver entryPoint frees span size? : Step H (Boundary.World S C P) Nat).run s =
      ((size? span.items).elim (.error ⟨entryPoint, .invalidEncoding⟩) .ok, (s.1, { s.2 with
        buffers := if frees span.place then s.2.buffers.free span.place else s.2.buffers })) := by
  rw [takeOver, run_bind_ok (freeIf_run s span.place)]
  cases size? span.items <;> rfl

variable {s}

/-- Taking a text over succeeds where the text is well-formed; it changes no more than buffers. -/
theorem takeOver_yields {n : Nat} (hsize : size? span.items = some n) :
    (takeOver entryPoint frees span size? : Step H (Boundary.World S C P) Nat).Yields s
      fun m s' ↦ m = n ∧ s'.1 = s.1 ∧ ∃ buffers, s'.2 = { s.2 with buffers } := by
  have hrun : (takeOver entryPoint frees span size?).run s = _ := takeOver_run s
  rw [hsize] at hrun
  exact ⟨n, _, hrun, rfl, rfl, _, rfl⟩

end

end Crossing.Strategy
