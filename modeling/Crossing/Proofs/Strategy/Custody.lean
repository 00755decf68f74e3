import Crossing.Proofs.Strategy.ObjectCalls
import Crossing.Proofs.Strategy.TextCalls
import Crossing.Proofs.Strategy.ValueCalls

/-!
# Who looks after what is behind the boundary

The holder of the strategies on objects has an object and a callback test, and through the test the
context that was handed over last. It is in *custody* of them: nothing else was added to what was
there before the holder was made, and nothing was taken away. All methods of all holders keep that,
whether they fail or not, and the release of the holder ends it, so that everything is as it was
before.

What is kept by steps that may fail is said by `Step.Keeps`, which does not ask whether they do.
-/

namespace Crossing

namespace Step

variable {H N α β : Type}

/-- From a state, whether a step fails or not, what it leaves behind is as said. -/
def Keeps (step : Step H N α) (s : H × N) (I : H × N → Prop) : Prop := I (step.run s).2

namespace Keeps

variable {step : Step H N α} {s : H × N} {I : H × N → Prop}

/-- What each of two steps keeps, both keep. -/
theorem bind {f : α → Step H N β} (h : step.Keeps s I) (hf : ∀ a s', I s' → (f a).Keeps s' I) :
    (step >>= f).Keeps s I := by
  rw [Keeps, run_bind]
  rw [Keeps] at h
  rcases hrun : step.run s with ⟨fault | a, s'⟩
  · rwa [hrun] at h
  · rw [hrun] at h
    exact hf a s' h

/-- What comes after a look at the holder has it at hand. -/
theorem bind_holder {f : H → Step H N β} (h : (f s.1).Keeps s I) :
    (Step.holder >>= f).Keeps s I := by
  have hholder : (Step.holder : Step H N H).run s = (.ok s.1, s) := rfl
  rw [Keeps, run_bind_ok hholder]
  exact h

/-- What comes after a look at the other side has it at hand. -/
theorem bind_cross_get {f : N → Step H N β} (h : (f s.2).Keeps s I) :
    (Step.cross get >>= f).Keeps s I := by
  have hget : (Step.cross get : Step H N N).run s = (.ok s.2, s) := rfl
  rw [Keeps, run_bind_ok hget]
  exact h

/-- A check keeps whatever there was, whether it fails or not. -/
theorem ofExcept {r : Except Fault α} (h : I s) :
    (MonadExcept.ofExcept r : Step H N α).Keeps s I := by
  cases r with
  | error fault => exact h
  | ok a => exact h

/-- A call across the boundary keeps what holds of the state that it leaves, whether it fails or
not. -/
theorem call {entryPoint : String} {f : Boundary.Call N α} (h : I (s.1, (f.run s.2).2)) :
    (Step.call entryPoint f : Step H N α).Keeps s I := by
  have hcross : (Step.cross f.run : Step H N (Except Cause α)).run s =
      (.ok (f.run s.2).1, (s.1, (f.run s.2).2)) := rfl
  rw [Keeps, Step.call, run_bind_ok hcross]
  cases (f.run s.2).1 with
  | error cause => exact h
  | ok a => exact h

/-- What one step keeps, any number of steps keeps. -/
theorem iterate {step : α → Step H N α} (hstep : ∀ a s, I s → (step a).Keeps s I) (n : Nat)
    (a : α) (h : I s) : (Step.iterate step n a).Keeps s I := by
  induction n generalizing a s with
  | zero => exact h
  | succ n ih => exact (hstep a s h).bind fun a' s' h' ↦ ih a' h'

/-- What a round keeps, a strategy keeps. -/
theorem eachRound [Strategy.Holder H] {step : Step H N Unit} (h : I s)
    (hstep : ∀ s, I s → step.Keeps s I) : (Strategy.eachRound step).Keeps s I :=
  bind_holder ((iterate (fun _ ↦ hstep) _ () h).bind fun _ _ ↦ id)

end Keeps

end Step

namespace Boundary

variable {S C P α : Type}

/-- The state after adding up is that of before, if each call leaves it alone. -/
theorem addUp_state {σ : Type} {step : Call σ Int64} {s : σ} (h : (step.run s).2 = s) (n : Nat)
    (sum : Int64) : ((addUp step n sum).run s).2 = s := by
  induction n generalizing sum with
  | zero => rfl
  | succ n ih =>
    rw [addUp, run_bind]
    rcases hrun : step.run s with ⟨cause | v, s'⟩
    · rwa [hrun] at h
    · rw [hrun] at h
      obtain rfl : s' = s := h
      exact ih (sum + v)

/-- A loop over calls that leave the state as it is leaves it as it is. -/
theorem repeatedly_state {σ : Type} {step : Call σ Int64} {s : σ} (h : (step.run s).2 = s)
    (object out : Bool) (rounds : Int64) : ((repeatedly object out rounds step).run s).2 = s := by
  rw [repeatedly]
  cases object && out with
  | false => rfl
  | true => exact addUp_state h _ _

theorem demandText_state {σ β : Type} (text : Option α) (b : β) (s : σ) :
    ((Call.demandText text >>= fun _ ↦ pure b : Call σ β).run s).2 = s := by
  cases text with
  | none => rfl
  | some a => rfl

/-- Renaming an object is all that can happen. -/
theorem Objects.setName_state (os : Objects) (handle : Nat) (bytes : List UInt8) :
    ((Objects.setName (some handle) (some bytes)).run os).2 = os ∨
      ((Objects.setName (some handle) (some bytes)).run os).2 = os.set handle bytes := by
  simp only [setName, run_bind, Call.run_demand_some, run_get]
  rcases os.get? handle with - | name
  · exact .inl rfl
  · simp only [Call.run_demand_some]
    rcases Text.Utf8.decode? bytes with - | cs
    · exact .inl rfl
    · exact .inr rfl

/-- Compared with a world of before, there are one more object and one more callback test, and the
context that this test keeps; all else that is live was live before. -/
structure Custody (w₀ : World S C P) (object test : Nat) (w : World S C P) : Prop where
  objects : w₀.objects.Grown w.objects [object]
  tests : w₀.tests.objects.Grown w.tests.objects [test]
  contexts : ∃ kept, w.tests.objects.get? test = some kept ∧
    w₀.tests.contexts.Grown w.tests.contexts kept.toList

namespace CallbackTests

variable {ts ts₀ : CallbackTests P} {kept : Option Nat} {extra : List Nat}

/-- The context that was kept is released, and nothing else. -/
theorem grown_releaseKept (h : ts₀.contexts.Grown ts.contexts (kept.toList ++ extra)) :
    ts₀.contexts.Grown (ts.releaseKept kept).contexts extra := by
  cases kept with
  | none => exact h
  | some context => exact h.release

end CallbackTests

namespace Custody

variable {w₀ w w' : World S C P} {object test : Nat}

/-- Custody is of objects and tests, whatever happens to the rest of the world. -/
theorem of_aside (h : Custody w₀ object test w) (haside : w.Aside w') :
    Custody w₀ object test w' := by
  obtain ⟨hobjects, htests, hcontexts⟩ := h
  rw [← haside.1] at hobjects
  rw [← haside.2] at htests hcontexts
  exact ⟨hobjects, htests, hcontexts⟩

/-- Another name for the object. -/
theorem rename (h : Custody w₀ object test w) (bytes : List UInt8) :
    Custody w₀ object test { w with objects := w.objects.set object bytes } :=
  ⟨h.objects.set object bytes, h.tests, h.contexts⟩

/-- A new context for the callback test: the one that it kept is released, and it keeps the new
one. -/
theorem replace (h : Custody w₀ object test w) (p : PairClosure P) :
    ∃ ts, (do
        let context ← modifyGet (CallbackTests.createContext p)
        CallbackTests.setCallback (some test) context : Call (CallbackTests P) Unit).run w.tests =
          (.ok (), ts) ∧ Custody w₀ object test { w with tests := ts } := by
  obtain ⟨kept, hkept, hcontexts⟩ := h.contexts
  let made := w.tests.createContext p
  have hmade : w₀.tests.contexts.Grown made.2.contexts (kept.toList ++ [made.1]) :=
    (hcontexts.insert p).perm (List.perm_append_singleton _ _).symm
  have hkept' : made.2.objects.get? test = some kept := hkept
  have hlive : (made.2.objects.get? test).isSome := by rw [hkept']; rfl
  refine ⟨{ made.2.releaseKept kept with objects := made.2.objects.set test (some made.1) }, ?_,
    h.objects, h.tests.set test (some made.1), some made.1, Arena.get?_set_self hlive _,
    CallbackTests.grown_releaseKept hmade⟩
  rw [run_bind, run_modifyGet]
  exact CallbackTests.setCallback_run hkept' made.1

/-- **Releasing the callback test and the object ends the custody**: nothing is left of what was
made since, and no handle was released twice. -/
theorem release (h : Custody w₀ object test w) :
    w₀.objects.Grown (w.objects.release object) [] ∧
      w₀.tests.objects.Grown (w.tests.drop (some test)).objects [] ∧
      w₀.tests.contexts.Grown (w.tests.drop (some test)).contexts [] := by
  obtain ⟨kept, hkept, hcontexts⟩ := h.contexts
  rw [CallbackTests.drop_some hkept]
  refine ⟨h.objects.release, h.tests.release, ?_⟩
  rw [← List.append_nil kept.toList] at hcontexts
  exact CallbackTests.grown_releaseKept hcontexts

end Custody

end Boundary

namespace Strategy

open Boundary Step

variable {S C P : Type}

/-! ### Objects -/

namespace ObjectCalls

variable {w₀ : World S C P} {object test : Nat} {s : ObjectCalls × World S C P}

/-- The holder has an object and a callback test in its custody. -/
def Keeper (w₀ : World S C P) (object test : Nat) (s : ObjectCalls × World S C P) : Prop :=
  s.1.object = object ∧ s.1.test = test ∧ Custody w₀ object test s.2

theorem Keeper.of_aside {w : World S C P} (h : Keeper w₀ object test s) (haside : s.2.Aside w) :
    Keeper w₀ object test (s.1, w) :=
  ⟨h.1, h.2.1, h.2.2.of_aside haside⟩

/-- A new holder has its object and its callback test in its custody. -/
theorem custody_create (w : World S C P) (hobjects : w.objects.Tidy)
    (htests : w.tests.objects.Tidy) (hcontexts : w.tests.contexts.Tidy) :
    Custody w w.objects.issued w.tests.objects.issued
      { w with objects := (w.objects.insert (octetsOf objectName)).2, tests := w.tests.create.2 }
    where
  objects := (Arena.Grown.refl hobjects).insert _
  tests := (Arena.Grown.refl htests).insert none
  contexts := by
    refine ⟨none, ?_, .refl hcontexts⟩
    show (w.tests.objects.insert none).2.get? w.tests.objects.issued = some none
    rw [Arena.get?_insert, if_pos rfl]

/-- An empty call keeps all handles. -/
theorem emptyFunction_keeps (h : Keeper w₀ object test s) :
    (emptyFunction : Task S C P UInt64).Keeps s (Keeper w₀ object test) :=
  Keeps.eachRound h fun _ h ↦ Keeps.call h

theorem addOver_keeps {add : Vector4 → Task S C P Vector4}
    (hadd : ∀ v s, Keeper w₀ object test s → (add v).Keeps s (Keeper w₀ object test))
    (h : Keeper w₀ object test s) : (addOver add).Keeps s (Keeper w₀ object test) :=
  Keeps.bind_holder ((Keeps.iterate hadd _ _ h).bind fun _ _ h ↦ h)

/-- A name that is set is that of the object in custody. -/
theorem setName_keeps (h : Keeper w₀ object test s) :
    (setName : Task S C P UInt64).Keeps s (Keeper w₀ object test) := by
  refine Keeps.eachRound h fun s h ↦ Keeps.bind_holder (Keeps.call ?_)
  obtain ⟨hobject, htest, hcustody⟩ := h
  rw [World.run_onObjects]
  rcases Objects.setName_state s.2.objects s.1.object (octetsOf "abc") with hsame | hset
  · rw [hsame]
    exact ⟨hobject, htest, hcustody⟩
  · rw [hset, hobject]
    exact ⟨hobject, htest, hcustody.rename _⟩

/-- A text that comes back in a buffer is taken over or not; only buffers change. -/
theorem takeOver_keeps {entryPoint : String} {frees : Place → Bool} {span : Span UInt8}
    (h : Keeper w₀ object test s) :
    (takeOver entryPoint frees span narrowSize? >>= keepLength : Task S C P Unit).Keeps s
      (Keeper w₀ object test) := by
  refine Keeps.bind ?_ fun _ _ h ↦ h
  rw [Keeps, takeOver_run]
  exact h.of_aside ⟨rfl, rfl⟩

theorem getName_keeps (h : Keeper w₀ object test s) :
    (getName : Task S C P UInt64).Keeps s (Keeper w₀ object test) :=
  Keeps.eachRound h fun _ h ↦ Keeps.bind_holder
    ((Keeps.call (h.of_aside ⟨rfl, rfl⟩)).bind fun _ _ h ↦ takeOver_keeps h)

theorem concatenateStrings_keeps (h : Keeper w₀ object test s) :
    (concatenateStrings : Task S C P UInt64).Keeps s (Keeper w₀ object test) :=
  Keeps.eachRound h fun _ h ↦ Keeps.bind_holder
    ((Keeps.call (h.of_aside ⟨rfl, rfl⟩)).bind fun _ _ h ↦ takeOver_keeps h)

/-- A callback that is replaced is released, and the new one is kept in its place. -/
theorem replaceCallback_keeps (h : Keeper w₀ object test s) :
    (replaceCallback : Task S C P UInt64).Keeps s (Keeper w₀ object test) := by
  refine Keeps.eachRound h fun s h ↦ Keeps.bind_holder (Keeps.call ?_)
  obtain ⟨hobject, htest, hcustody⟩ := h
  obtain ⟨ts, hrun, hcustody'⟩ := hcustody.replace (.function (· ++ ·))
  rw [World.run_onTests, htest, hrun]
  exact ⟨hobject, htest, hcustody'⟩

/-- A loop over a callback that leaves the world alone. -/
theorem keepLoop_keeps {entryPoint : String}
    {loop : (object out : Bool) → Int64 → Call (World S C P) Int64}
    (hloop : ∀ object out rounds w, ((loop object out rounds).run w).2 = w)
    (h : Keeper w₀ object test s) : (keepLoop entryPoint loop).Keeps s (Keeper w₀ object test) := by
  refine Keeps.bind_holder (Keeps.bind_cross_get ((Keeps.call ?_).bind fun _ _ h ↦ h))
  rw [hloop]
  exact h

/-- **All methods of the holder keep the custody.** -/
theorem methods_keep : ∀ p ∈ (methods : List (String × Task S C P UInt64)),
    ∀ s, Keeper w₀ object test s → p.2.Keeps s (Keeper w₀ object test) := by
  simp only [methods, List.forall_mem_cons]
  refine ⟨?_, ?_, ?_, ?_, ?_, ?_, ?_, ?_, ?_, ?_, ?_, ?_⟩
  · exact fun s ↦ emptyFunction_keeps
  · exact fun s ↦ addOver_keeps fun _ _ h ↦ h
  · exact fun s ↦ addOver_keeps fun _ _ h ↦ h
  · exact fun s ↦ addOver_keeps fun _ _ h ↦ Keeps.call h
  · exact fun s ↦ setName_keeps
  · exact fun s ↦ getName_keeps
  · exact fun s ↦ concatenateStrings_keeps
  · exact fun s ↦ replaceCallback_keeps
  · exact fun s ↦ keepLoop_keeps fun object out rounds w ↦ repeatedly_state rfl object out rounds
  · exact fun s ↦ keepLoop_keeps fun object out rounds w ↦ repeatedly_state rfl object out rounds
  · refine fun s ↦ keepLoop_keeps fun object out rounds w ↦ repeatedly_state ?_ object out rounds
    rw [run_bind, Call.run_always]
    exact demandText_state _ _ w
  · exact fun p hp ↦ absurd hp List.not_mem_nil

end ObjectCalls

/-! ### Values and texts -/

/-- **No method of the holder touches an object or a callback test.** -/
theorem ValueCalls.methods_aside [Machines S C] {p : String × Task S C P UInt64}
    (hp : p ∈ methods) (s : ValueCalls × World S C P) : s.2.Aside (p.2.run s).2.2 := by
  obtain ⟨n, s', hrun, -, -, haside⟩ := methods_yield p hp s.1 s.2
  rw [hrun]
  exact haside

namespace TextCalls

/-- To hand a text over does nothing to the objects. -/
theorem handOverNarrow_aside (make : TextCalls → Except Fault (List UInt8))
    (s : TextCalls × World S C P) :
    s.2.Aside ((handOverNarrow make : Task S C P UInt64).run s).2.2 :=
  Keeps.eachRound (I := fun s' ↦ s.2.Aside s'.2) (.refl s.2) fun _ h ↦
    Keeps.bind_holder ((Keeps.ofExcept h).bind fun _ _ h ↦ Keeps.call h)

/-- To make a copy in each round does nothing to the objects. -/
theorem ownEachRound_aside (entryPoint : String)
    (own : TextCalls → Except Fault (Call (Native S) Unit)) (s : TextCalls × World S C P) :
    s.2.Aside ((ownEachRound entryPoint own : Task S C P UInt64).run s).2.2 :=
  Keeps.bind (I := fun s' ↦ s.2.Aside s'.2)
    (Keeps.eachRound (.refl s.2) fun _ h ↦ Keeps.bind_holder
      ((Keeps.ofExcept h).bind fun _ _ h ↦ Keeps.call (h.trans ⟨rfl, rfl⟩)))
    fun _ _ h ↦ h

/-- **No method of the holder touches an object or a callback test**, whether it fails or not. -/
theorem methods_aside {p : String × Task S C P UInt64} (hp : p ∈ methods)
    (s : TextCalls × World S C P) : s.2.Aside (p.2.run s).2.2 := by
  by_cases hcopying : p.1 ∈ copying
  · have hall : ∀ p ∈ (methods : List (String × Task S C P UInt64)), p.1 ∈ copying →
        s.2.Aside (p.2.run s).2.2 := by
      simp only [methods, List.forall_mem_cons]
      refine ⟨?_, ?_, ?_, ?_, ?_, ?_, ?_, ?_, ?_, ?_, ?_, ?_, ?_, ?_, ?_, ?_, ?_, ?_, ?_, ?_⟩
      case refine_2 => exact fun _ ↦ handOverNarrow_aside _ s
      case refine_3 => exact fun _ ↦ ownEachRound_aside _ _ s
      case refine_20 => exact fun p hp ↦ absurd hp List.not_mem_nil
      all_goals exact fun h ↦ absurd h (by decide)
    exact hall p hp hcopying
  · obtain ⟨n, s', hrun, -, -, -, haside⟩ := methods_yield hp (s := s) fun _ ↦ hcopying
    rw [hrun]
    exact haside

end TextCalls

end Strategy

end Crossing
