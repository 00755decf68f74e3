import Crossing.Boundary.CallbackTest
import Crossing.Proofs.Boundary.Arena
import Crossing.Proofs.Boundary.Handles
import Mathlib.Data.List.Count
import Mathlib.Logic.Function.Basic

/-!
# Who releases the contexts that objects keep

A context that is handed to a callback test belongs to that object from then on. A *scene* has the
objects and contexts as they are, together with the acts so far that say to whom contexts went:
which context was handed to which object, and which objects were released.

* The objects and contexts of a scene are changed by the operations of `CallbackTests`.
* By its acts alone, an object `Keeps` the context that it was handed last, and a context is `Spent`
  if its object was handed another one or was released, or if there was no object in the first
  place.

Main statement: `Scene.Reachable.releases_once`. In every scene that can be reached, no context was
released twice, and those that were released are those that are spent. The contexts that were handed
over and not released are as many as the objects that keep one, and an object calls the context that
it keeps, which is there.

The invariant behind it, `Scene.Sound`, is a conservation law: every live context is either pending,
that is not handed over yet, or is kept by exactly one live object.
-/

namespace Crossing.Boundary

open scoped List

variable {P : Type}

/-- Calls a pair callback once. -/
def PairClosure.call [PairMachine P] (p : PairClosure P) (a b : String) : String × PairClosure P :=
  match p with
  | .function f => (f a b, .function f)
  | .machine p =>
    let (r, p) := PairMachine.combine p a b
    (r, .machine p)

namespace CallbackTests

/-! ### What the operations come to -/

variable {ts : CallbackTests P} {object : Option Nat} {o c : Nat} {kept : Option Nat}

/-- An object that gets another context releases the one that it kept. -/
theorem setCallback_run (hkept : ts.objects.get? o = some kept) (context : Nat) :
    (setCallback (some o) context).run ts =
      (.ok (), { ts.releaseKept kept with objects := ts.objects.set o (some context) }) := by
  simp only [setCallback, run_bind, run_get, Option.bind_some, hkept, Option.map_some, run_set]

/-- An object that is dropped releases the context that it kept. -/
theorem drop_some (hkept : ts.objects.get? o = some kept) :
    ts.drop (some o) = { ts.releaseKept kept with objects := ts.objects.release o } := by
  simp only [drop, hkept]

/-- What an object kept is released, and the other contexts stay. -/
theorem releaseKept_perm {rest : List Nat} (hts : ts.contexts.Tidy)
    (hperm : ts.contexts.handles.Perm (kept.toList ++ rest)) :
    (ts.releaseKept kept).contexts.Tidy ∧ (ts.releaseKept kept).contexts.handles.Perm rest ∧
      (ts.releaseKept kept).contexts.issued = ts.contexts.issued := by
  cases kept with
  | none => exact ⟨hts, hperm, rfl⟩
  | some context =>
    have hmem : context ∈ ts.contexts.handles := hperm.mem_iff.2 List.mem_cons_self
    refine ⟨hts.release hmem, hts.handles_release hperm, ?_⟩
    show (ts.contexts.release context).issued = _
    rw [Arena.release, if_pos (Arena.isLive_iff.2 hmem)]

section

variable [PairMachine P] {p : PairClosure P}

/-- An object that keeps a context calls it. -/
theorem invokeStored_run (hts : ts.contexts.Tidy) (ho : ts.objects.get? o = some (some c))
    (hc : ts.contexts.get? c = some p) (a b : Option (List UInt8)) :
    (invokeStored (some o) a b true).run ts =
      (.ok (octetsOf (p.call (textOfView a) (textOfView b)).1),
        { ts with contexts := ts.contexts.set c (p.call (textOfView a) (textOfView b)).2 }) := by
  simp only [invokeStored, run_bind, run_get, Option.bind_some, ho, Call.run_demand_some,
    Call.run_demandOut_true, Call.run_always]
  cases p with
  | function f =>
    simp only [runContext, hc, PairClosure.call, hts.set_self hc]
    rfl
  | machine p =>
    simp only [runContext, hc]
    rfl

/-- Without an object, a callback or a place for the result, nothing is called. -/
theorem invokeStored_run_of_not {a b : Option (List UInt8)} {out : Bool}
    (h : out = false ∨ ∀ o c, object = some o → ts.objects.get? o ≠ some (some c)) :
    ∃ cause, (invokeStored object a b out).run ts = (.error cause, ts) := by
  simp only [invokeStored, run_bind, run_get]
  rcases hkept : object.bind ts.objects.get? with - | - | c
  · exact ⟨_, rfl⟩
  · cases out <;> exact ⟨_, rfl⟩
  · rcases h with rfl | h
    · exact ⟨_, rfl⟩
    · obtain ⟨o, rfl, ho⟩ := Option.bind_eq_some_iff.1 hkept
      exact absurd ho (h o c rfl)

end

/-! ### Acts -/

/-- Something that happened and matters for who keeps a context. -/
inductive Act
  | hand (c : Nat) (object : Option Nat)
  | drop (o : Nat)
  deriving DecidableEq

/-- The context that is handed over. -/
def Act.context? : Act → Option Nat
  | hand c _ => some c
  | drop _ => none

/-- The contexts that were handed over, in this order. -/
def handed (acts : List Act) : List Nat := acts.filterMap Act.context?

/-- By these acts, an object keeps a context: it was handed the context, and later neither another
one, nor was it released. -/
def Keeps (acts : List Act) (o c : Nat) : Prop :=
  ∃ before after, acts = before ++ .hand c (some o) :: after ∧
    (∀ c', .hand c' (some o) ∉ after) ∧ .drop o ∉ after

/-- By these acts, a context is spent: it was handed over without an object, or its object was later
handed another one, or was released. -/
def Spent (acts : List Act) (c : Nat) : Prop :=
  ∃ before object after, acts = before ++ .hand c object :: after ∧
    (object = none ∨ ∃ o, object = some o ∧ ((∃ c', .hand c' (some o) ∈ after) ∨ .drop o ∈ after))

/-- What each object keeps after an act. -/
def Act.next (kept : Nat → Option Nat) : Act → Nat → Option Nat
  | hand _ none => kept
  | hand c (some o) => Function.update kept o (some c)
  | drop o => Function.update kept o none

/-- What each object keeps after some acts. -/
def keptAfter (acts : List Act) : Nat → Option Nat := acts.foldl Act.next fun _ ↦ none

/-- What objects keep after one more act follows from what they kept before it. -/
@[simp] theorem keptAfter_concat (acts : List Act) (act : Act) :
    keptAfter (acts ++ [act]) = act.next (keptAfter acts) := by
  rw [keptAfter, List.foldl_append, keptAfter]
  rfl

@[simp] theorem handed_hand (acts : List Act) (c : Nat) (object : Option Nat) :
    handed (acts ++ [.hand c object]) = handed acts ++ [c] := by
  rw [handed, List.filterMap_append]
  rfl

@[simp] theorem handed_drop (acts : List Act) (o : Nat) :
    handed (acts ++ [.drop o]) = handed acts := by
  rw [handed, List.filterMap_append]
  exact List.append_nil _

/-- A context was handed over if there is an act that says so, whoever it went to. -/
theorem mem_handed_iff {acts : List Act} : c ∈ handed acts ↔ ∃ object, .hand c object ∈ acts := by
  rw [handed, List.mem_filterMap]
  constructor
  · rintro ⟨act, hact, heq⟩
    cases act with
    | hand c' object => exact ⟨object, Option.some_inj.1 heq ▸ hact⟩
    | drop o => exact absurd heq nofun
  · rintro ⟨object, hact⟩
    exact ⟨_, hact, rfl⟩

/-- One act more either hands the context over, or leaves it where it was. -/
theorem keeps_concat {acts : List Act} {act : Act} :
    Keeps (acts ++ [act]) o c ↔ act = .hand c (some o) ∨
      Keeps acts o c ∧ (∀ c', act ≠ .hand c' (some o)) ∧ act ≠ .drop o := by
  rw [Keeps, exists_concat_eq_append_cons, Keeps]
  simp only [List.mem_append, List.mem_singleton]
  grind

/-- What an object keeps can be worked out act by act. -/
theorem keptAfter_eq_some_iff {acts : List Act} : keptAfter acts o = some c ↔ Keeps acts o c := by
  induction acts using List.reverseRecOn generalizing o c with
  | nil => simp [keptAfter, Keeps]
  | append_singleton acts act ih =>
    rw [keptAfter_concat, keeps_concat, ← ih]
    rcases act with ⟨c', - | o'⟩ | o'
    · simp [Act.next]
    · by_cases ho : o = o'
      · simp [Act.next, ho]
      · simp [Act.next, ho, Ne.symm ho]
    · by_cases ho : o = o'
      · simp [Act.next, ho]
      · simp [Act.next, ho, Ne.symm ho]

/-- A context that was handed over is spent unless an object keeps it. -/
theorem spent_iff {acts : List Act} (hnodup : (handed acts).Nodup) (hc : c ∈ handed acts) :
    Spent acts c ↔ ∀ o, ¬Keeps acts o c := by
  constructor
  · rintro ⟨before, object, after, heq, hspent⟩ o ⟨before', after', heq', hhand, hdrop⟩
    -- a context is handed over once, so both speak of the same act
    have hhanded : handed acts = handed before ++ c :: handed after := by
      rw [heq, handed, List.filterMap_append]
      rfl
    rw [hhanded, List.nodup_middle, List.nodup_cons, List.mem_append, not_or] at hnodup
    obtain ⟨⟨hbefore, hafter⟩, -⟩ := hnodup
    obtain ⟨rfl, hact, rfl⟩ := (List.append_cons_inj_of_notMem
      (fun hmem ↦ hbefore (mem_handed_iff.2 ⟨_, hmem⟩))
      (fun hmem ↦ hafter (mem_handed_iff.2 ⟨_, hmem⟩))).1 (heq.symm.trans heq')
    obtain ⟨-, rfl⟩ := Act.hand.inj hact
    rcases hspent with hnone | ⟨o', ho', hspent⟩
    · exact absurd hnone nofun
    · obtain rfl := Option.some_inj.1 ho'
      exact hspent.elim (fun ⟨c', hmem⟩ ↦ hhand c' hmem) hdrop
  · intro hkeeps
    obtain ⟨object, hmem⟩ := mem_handed_iff.1 hc
    obtain ⟨before, after, heq⟩ := List.append_of_mem hmem
    refine ⟨before, object, after, heq, ?_⟩
    cases object with
    | none => exact .inl rfl
    | some o =>
      refine .inr ⟨o, rfl, ?_⟩
      by_contra hnot
      rw [not_or, not_exists] at hnot
      exact hkeeps o ⟨before, after, heq, hnot⟩

/-! ### Scenes -/

/-- Objects and contexts, and the acts so far. -/
structure Scene (P : Type) where
  tests : CallbackTests P := {}
  acts : List Act := []

namespace Scene

/-- Makes an object. -/
def create (s : Scene P) : Scene P := { s with tests := s.tests.create.2 }

/-- Makes a context, to be handed over. -/
def make (s : Scene P) (p : PairClosure P) : Scene P :=
  { s with tests := (s.tests.createContext p).2 }

/-- Hands a context over to an object, or to none. -/
def hand (s : Scene P) (c : Nat) (object : Option Nat) : Scene P :=
  ⟨((setCallback object c).run s.tests).2, s.acts ++ [.hand c object]⟩

/-- Calls what an object keeps. -/
def invoke [PairMachine P] (s : Scene P) (object : Option Nat) (a b : Option (List UInt8))
    (out : Bool) : Scene P :=
  { s with tests := ((invokeStored object a b out).run s.tests).2 }

/-- Releases an object, or none. -/
def drop (s : Scene P) (object : Option Nat) : Scene P :=
  ⟨s.tests.drop object, s.acts ++ object.toList.map .drop⟩

/-- No object is given, or one that is there. -/
def Valid (s : Scene P) (object : Option Nat) : Prop := ∀ o ∈ object, s.tests.objects.isLive o

/-- The scenes that any sequence of operations can lead to. A context is handed over once, and an
object that was released is not used again. -/
inductive Reachable [PairMachine P] : Scene P → Prop
  | start : Reachable {}
  | create {s : Scene P} : Reachable s → Reachable s.create
  | make {s : Scene P} {p : PairClosure P} : Reachable s → Reachable (s.make p)
  | hand {s : Scene P} {c : Nat} {object : Option Nat} : Reachable s →
      s.tests.contexts.isLive c → c ∉ handed s.acts → s.Valid object → Reachable (s.hand c object)
  | invoke {s : Scene P} {object : Option Nat} {a b : Option (List UInt8)} {out : Bool} :
      Reachable s → s.Valid object → Reachable (s.invoke object a b out)
  | drop {s : Scene P} {object : Option Nat} : Reachable s → s.Valid object →
      Reachable (s.drop object)

/-! ### Conservation of contexts -/

/-- The contexts that the live objects keep. -/
def keptBy (objects : Arena (Option Nat)) : List Nat := objects.live.filterMap Prod.snd

/-- The context of an object, and those of the others. -/
theorem keptBy_perm {objects : Arena (Option Nat)} (hobjects : objects.Tidy)
    (ho : objects.get? o = some kept) :
    (keptBy objects).Perm (kept.toList ++ keptBy (objects.release o)) := by
  have hperm := (hobjects.perm_release ho).filterMap Prod.snd
  cases kept <;> exact hperm

/-- An object that gets a context keeps it in place of whatever it kept. -/
theorem keptBy_set_perm {objects : Arena (Option Nat)} (hobjects : objects.Tidy)
    (ho : objects.get? o = some kept) (c : Nat) :
    (keptBy (objects.set o (some c))).Perm (c :: keptBy (objects.release o)) :=
  (hobjects.perm_set ho (some c)).filterMap Prod.snd

/-- A scene in which every context that was made is pending or was handed over, and every live one
is pending or kept by one object, the one that keeps it by the acts. -/
structure Sound (s : Scene P) (pending : List Nat) : Prop where
  objects : s.tests.objects.Tidy
  contexts : s.tests.contexts.Tidy
  made : (List.range s.tests.contexts.issued).Perm (pending ++ handed s.acts)
  owned : s.tests.contexts.handles.Perm (pending ++ keptBy s.tests.objects)
  kept : ∀ o, (s.tests.objects.get? o).join = keptAfter s.acts o

namespace Sound

variable {s : Scene P} {pending : List Nat}

theorem start : Sound ({} : Scene P) [] where
  objects := Arena.tidy_empty
  contexts := Arena.tidy_empty
  made := .nil
  owned := .nil
  kept _ := rfl

/-- A new object keeps nothing. -/
theorem create (hs : Sound s pending) : Sound s.create pending where
  objects := hs.objects.insert none
  contexts := hs.contexts
  made := hs.made
  owned := hs.owned
  kept o := by
    show ((s.tests.objects.insert none).2.get? o).join = keptAfter s.acts o
    rw [Arena.get?_insert, ← hs.kept]
    by_cases ho : o = s.tests.objects.issued
    · rw [if_pos ho, ho, hs.objects.get?_issued]
      rfl
    · rw [if_neg ho]

/-- A new context is pending: it is live, and no object keeps it. -/
theorem make (hs : Sound s pending) (p : PairClosure P) :
    Sound (s.make p) (s.tests.contexts.issued :: pending) where
  objects := hs.objects
  contexts := hs.contexts.insert p
  made := by
    show (List.range (s.tests.contexts.issued + 1)).Perm _
    rw [List.range_succ]
    exact (List.perm_append_singleton _ _).trans (hs.made.cons _)
  owned := hs.owned.cons _
  kept := hs.kept

/-- A context that is live and was not handed over is pending. -/
theorem mem_pending (hs : Sound s pending) (hc : s.tests.contexts.isLive c)
    (hnew : c ∉ handed s.acts) : c ∈ pending := by
  have hlt := hs.contexts.lt_issued c (Arena.isLive_iff.1 hc)
  have hmem := hs.made.mem_iff.1 (List.mem_range.2 hlt)
  exact (List.mem_append.1 hmem).resolve_right hnew

/-- Handing over takes a context from the pending ones. -/
theorem made_hand (hs : Sound s pending) (hc : c ∈ pending) (object : Option Nat) :
    (List.range s.tests.contexts.issued).Perm
      (pending.erase c ++ handed (s.acts ++ [.hand c object])) := by
  rw [handed_hand, ← List.append_assoc]
  calc List.range s.tests.contexts.issued
    _ ~ pending ++ handed s.acts := hs.made
    _ ~ c :: pending.erase c ++ handed s.acts := (List.perm_cons_erase hc).append_right _
    _ ~ pending.erase c ++ handed s.acts ++ [c] := (List.perm_append_singleton _ _).symm

/-- Without an object, the context is gone at once. -/
theorem hand_none (hs : Sound s pending) (hc : c ∈ pending) :
    Sound (s.hand c none) (pending.erase c) := by
  have howned : s.tests.contexts.handles ~
      c :: (pending.erase c ++ keptBy s.tests.objects) :=
    hs.owned.trans ((List.perm_cons_erase hc).append_right _)
  obtain ⟨hcontexts, hhandles, hissued⟩ :=
    releaseKept_perm hs.contexts (show _ ~ (some c).toList ++ _ from howned)
  refine ⟨hs.objects, hcontexts, ?_, hhandles, fun o ↦ ?_⟩
  · exact hissued ▸ hs.made_hand hc none
  · show _ = keptAfter (s.acts ++ [.hand c none]) o
    rw [keptAfter_concat]
    exact hs.kept o

/-- The context goes from the pending ones to the object, whose own is released. -/
theorem hand_some (hs : Sound s pending) (hc : c ∈ pending)
    (ho : s.tests.objects.get? o = some kept) :
    Sound (s.hand c (some o)) (pending.erase c) := by
  have hscene : s.hand c (some o) =
      ⟨{ s.tests.releaseKept kept with objects := s.tests.objects.set o (some c) },
        s.acts ++ [.hand c (some o)]⟩ := by
    rw [Scene.hand, setCallback_run ho]
  have howned : s.tests.contexts.handles ~
      kept.toList ++ (pending.erase c ++ c :: keptBy (s.tests.objects.release o)) := by
    refine hs.owned.trans (((List.perm_cons_erase hc).append (keptBy_perm hs.objects ho)).trans ?_)
    -- both sides have the same contexts, only in other places
    rw [List.perm_iff_count]
    intro k
    simp only [List.cons_append, List.count_cons, List.count_append]
    omega
  obtain ⟨hcontexts, hhandles, hissued⟩ := releaseKept_perm hs.contexts howned
  rw [hscene]
  refine ⟨hs.objects.set o (some c), hcontexts, ?_, ?_, fun k ↦ ?_⟩
  · exact hissued ▸ hs.made_hand hc (some o)
  · exact hhandles.trans ((keptBy_set_perm hs.objects ho c).symm.append_left _)
  · rw [keptAfter_concat, Act.next]
    by_cases hk : k = o
    · rw [hk, Function.update_self, Arena.get?_set_self (Option.isSome_of_mem ho)]
      rfl
    · rw [Function.update_of_ne hk, Arena.get?_set, if_neg hk]
      exact hs.kept k

/-- A pending context is kept by the object that it is handed to, or is released at once. -/
theorem hand (hs : Sound s pending) (hc : c ∈ pending) (hobject : s.Valid object) :
    Sound (s.hand c object) (pending.erase c) := by
  cases object with
  | none => exact hs.hand_none hc
  | some o =>
    obtain ⟨kept, ho⟩ := Option.isSome_iff_exists.1 (hobject o rfl)
    exact hs.hand_some hc ho

/-- An object takes its context along. -/
theorem drop (hs : Sound s pending) (hobject : s.Valid object) : Sound (s.drop object) pending := by
  cases object with
  | none =>
    rw [Scene.drop, Option.toList_none, List.map_nil, List.append_nil]
    exact hs
  | some o =>
    obtain ⟨kept, ho⟩ := Option.isSome_iff_exists.1 (hobject o rfl)
    have hscene : s.drop (some o) =
        ⟨{ s.tests.releaseKept kept with objects := s.tests.objects.release o },
          s.acts ++ [.drop o]⟩ :=
      congrArg (Scene.mk · _) (drop_some ho)
    have howned : s.tests.contexts.handles ~
        kept.toList ++ (pending ++ keptBy (s.tests.objects.release o)) := by
      refine hs.owned.trans (((keptBy_perm hs.objects ho).append_left pending).trans ?_)
      rw [← List.append_assoc, ← List.append_assoc]
      exact List.perm_append_comm.append_right _
    obtain ⟨hcontexts, hhandles, hissued⟩ := releaseKept_perm hs.contexts howned
    rw [hscene]
    refine ⟨hs.objects.release (Arena.isLive_iff.1 (hobject o rfl)), hcontexts, ?_, hhandles,
      fun k ↦ ?_⟩
    · rw [handed_drop]
      exact hissued ▸ hs.made
    · rw [keptAfter_concat, Act.next]
      by_cases hk : k = o
      · rw [hk, Function.update_self, Arena.get?_release, if_pos rfl]
        rfl
      · rw [Function.update_of_ne hk, Arena.get?_release, if_neg hk]
        exact hs.kept k

/-- What an object keeps is there. -/
theorem exists_context (hs : Sound s pending) (ho : s.tests.objects.get? o = some (some c)) :
    ∃ p, s.tests.contexts.get? c = some p := by
  have hkept : c ∈ keptBy s.tests.objects :=
    (keptBy_perm hs.objects ho).mem_iff.2 List.mem_cons_self
  have hlive := hs.owned.mem_iff.2 (List.mem_append_right pending hkept)
  exact Option.isSome_iff_exists.1 (Arena.isLive_iff.2 hlive)

theorem invoke [PairMachine P] (hs : Sound s pending) (object : Option Nat)
    (a b : Option (List UInt8)) (out : Bool) : Sound (s.invoke object a b out) pending := by
  by_cases hnone : out = false ∨ ∀ o c, object = some o → s.tests.objects.get? o ≠ some (some c)
  · obtain ⟨cause, hrun⟩ := invokeStored_run_of_not (a := a) (b := b) hnone
    rw [Scene.invoke, hrun]
    exact hs
  · push Not at hnone
    obtain ⟨hout, o, c, rfl, ho⟩ := hnone
    obtain ⟨p, hp⟩ := hs.exists_context ho
    obtain rfl : out = true := by simpa using hout
    rw [Scene.invoke, invokeStored_run hs.contexts ho hp]
    -- the call may change the callback, but no handle
    refine ⟨hs.objects, hs.contexts.set c _, hs.made, ?_, hs.kept⟩
    rw [Arena.handles_set]
    exact hs.owned

end Sound

/-- By induction over the operations: in each scene, live contexts are the pending ones and those
that objects keep. -/
theorem Reachable.exists_sound [PairMachine P] {s : Scene P} (hs : s.Reachable) :
    ∃ pending, Sound s pending := by
  induction hs with
  | start => exact ⟨[], .start⟩
  | create _ ih =>
    obtain ⟨pending, hs⟩ := ih
    exact ⟨pending, hs.create⟩
  | make _ ih =>
    obtain ⟨pending, hs⟩ := ih
    exact ⟨_, hs.make _⟩
  | hand _ hlive hnew hobject ih =>
    obtain ⟨pending, hs⟩ := ih
    exact ⟨_, hs.hand (hs.mem_pending hlive hnew) hobject⟩
  | invoke _ _ ih =>
    obtain ⟨pending, hs⟩ := ih
    exact ⟨pending, hs.invoke _ _ _ _⟩
  | drop _ hobject ih =>
    obtain ⟨pending, hs⟩ := ih
    exact ⟨pending, hs.drop hobject⟩

/-! ### What the acts say is so -/

namespace Sound

variable {s : Scene P} {pending : List Nat}

/-- What an object has and what it keeps by the acts agree. -/
theorem get?_eq_some_iff (hs : Sound s pending) :
    s.tests.objects.get? o = some (some c) ↔ Keeps s.acts o c := by
  rw [← keptAfter_eq_some_iff, ← hs.kept, Option.join_eq_some_iff]

/-- No context is handed over twice, and a pending one was not handed over yet. -/
theorem nodup_handed (hs : Sound s pending) : (pending ++ handed s.acts).Nodup :=
  hs.made.nodup_iff.1 List.nodup_range

/-- A context that was handed over is live as long as an object keeps it. -/
theorem isLive_iff (hs : Sound s pending) (hc : c ∈ handed s.acts) :
    s.tests.contexts.isLive c ↔ ∃ o, Keeps s.acts o c := by
  -- what was handed over is not pending any more, so if it is live, an object keeps it
  have hpending : c ∉ pending := fun hmem ↦
    (List.nodup_append.1 hs.nodup_handed).2.2 c hmem c hc rfl
  rw [Arena.isLive_iff, hs.owned.mem_iff, List.mem_append, or_iff_right hpending, keptBy,
    List.mem_filterMap]
  constructor
  · rintro ⟨⟨o, kept⟩, hmem, rfl⟩
    exact ⟨o, hs.get?_eq_some_iff.1 (hs.objects.get?_eq_some_iff.2 hmem)⟩
  · rintro ⟨o, hkeeps⟩
    exact ⟨_, hs.objects.get?_eq_some_iff.1 (hs.get?_eq_some_iff.2 hkeeps), rfl⟩

/-- Of the contexts that were handed over, those are gone that are spent. -/
theorem not_isLive_iff (hs : Sound s pending) (hc : c ∈ handed s.acts) :
    ¬s.tests.contexts.isLive c ↔ Spent s.acts c := by
  rw [hs.isLive_iff hc, spent_iff (List.nodup_append.1 hs.nodup_handed).2.1 hc, not_exists]

/-- What was handed over was released or is kept. -/
theorem length_handed (hs : Sound s pending) :
    (handed s.acts).length =
      s.tests.contexts.released + s.tests.objects.live.countP (·.2.isSome) := by
  have hkept : (keptBy s.tests.objects).length = s.tests.objects.live.countP (·.2.isSome) :=
    List.length_filterMap_eq_countP
  have hmade := hs.made.length_eq
  have howned := hs.owned.length_eq
  have hreleased := hs.contexts.released_add_length
  rw [List.length_range, List.length_append] at hmade
  rw [List.length_append] at howned
  omega

end Sound

/-- In every scene that can be reached, **no context was released twice, and those that were handed
over were released exactly if they are spent**; the others are as many as the objects that keep one;
and an object calls what it keeps, which was not released, or else nothing is called. -/
theorem Reachable.releases_once [PairMachine P] {s : Scene P} (hs : s.Reachable) :
    s.tests.contexts.strayed = 0 ∧
    (∀ c ∈ handed s.acts, ¬s.tests.contexts.isLive c ↔ Spent s.acts c) ∧
    (handed s.acts).length =
      s.tests.contexts.released + s.tests.objects.live.countP (·.2.isSome) ∧
    (∀ o c, Keeps s.acts o c → ¬Spent s.acts c ∧ ∃ p, s.tests.contexts.get? c = some p ∧
      ∀ a b, (invokeStored (some o) a b true).run s.tests =
        (.ok (octetsOf (p.call (textOfView a) (textOfView b)).1),
          { s.tests with
            contexts := s.tests.contexts.set c (p.call (textOfView a) (textOfView b)).2 })) ∧
    ∀ object a b out, (out = false ∨ ∀ o c, object = some o → ¬Keeps s.acts o c) →
      ∃ cause, (invokeStored object a b out).run s.tests = (.error cause, s.tests) := by
  obtain ⟨pending, hs⟩ := hs.exists_sound
  refine ⟨hs.contexts.strayed_eq, fun c ↦ hs.not_isLive_iff, hs.length_handed, ?_, ?_⟩
  · intro o c hkeeps
    obtain ⟨p, hp⟩ := hs.exists_context (hs.get?_eq_some_iff.2 hkeeps)
    have hlive : s.tests.contexts.isLive c := by rw [Arena.isLive, hp]; rfl
    have hc : c ∈ handed s.acts := by
      obtain ⟨before, after, heq, -⟩ := hkeeps
      exact mem_handed_iff.2 ⟨some o, by simp [heq]⟩
    refine ⟨fun hspent ↦ (hs.not_isLive_iff hc).2 hspent hlive, p, hp, fun a b ↦ ?_⟩
    exact invokeStored_run hs.contexts (hs.get?_eq_some_iff.2 hkeeps) hp a b
  · intro object a b out hnot
    exact invokeStored_run_of_not
      (hnot.imp_right fun h o c heq ho ↦ h o c heq (hs.get?_eq_some_iff.1 ho))

/-- An object is handed one context and then another: the first is released, and the second is the
one that is called. -/
theorem releases_once_of_replaced :
    let s := (((({} : Scene Empty).create.make (.function fun a _ ↦ a)).make
      (.function fun _ b ↦ b)).hand 1 (some 0)).hand 0 (some 0)
    s.tests.contexts.strayed = 0 ∧ ¬s.tests.contexts.isLive 1 ∧
      (invokeStored (some 0) (some [65]) none true).run s.tests =
        (.ok (octetsOf (textOfView (some [65]))), s.tests) := by
  intro s
  have hvalid : ∀ s : Scene Empty, s.tests.objects.isLive 0 → s.Valid (some 0) := by
    intro s hlive o ho
    exact Option.mem_some_iff.1 ho ▸ hlive
  have hs : s.Reachable :=
    (Reachable.start.create.make.make.hand rfl (by decide) (hvalid _ rfl)).hand rfl (by decide)
      (hvalid _ rfl)
  obtain ⟨hstrayed, hspent, -, hkeeps, -⟩ := Reachable.releases_once hs
  have hfirst : Spent s.acts 1 :=
    ⟨[], some 0, [.hand 0 (some 0)], rfl, .inr ⟨0, rfl, .inl ⟨0, List.mem_singleton_self _⟩⟩⟩
  have hsecond : Keeps s.acts 0 0 := ⟨[.hand 1 (some 0)], [], rfl, by simp, by simp⟩
  refine ⟨hstrayed, (hspent 1 (by decide)).2 hfirst, ?_⟩
  obtain ⟨-, p, hp, hrun⟩ := hkeeps 0 0 hsecond
  obtain rfl : p = .function fun a _ ↦ a := (Option.some_inj.1 hp).symm
  exact hrun (some [65]) none

end Scene

end CallbackTests

end Crossing.Boundary
