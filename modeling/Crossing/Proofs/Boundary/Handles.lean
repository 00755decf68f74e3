import Crossing.Boundary.Thread
import Crossing.Proofs.Boundary.Execution
import Mathlib.Data.List.Induction
import Mathlib.Data.List.Nodup

/-!
# Who owns the stored callback

The native side knows a context by its address only, and addresses are used again. Here handles have
*names* as well, which are never used twice, and a *scene* is a thread together with what was meant
by what happened on it: the live handles, each with the closure that is its own, and the acts so far
that matter for the stored callback.

* The thread of a scene is changed by the operations of `Thread` and `Native`, which see addresses.
* The handles and acts of a scene are changed by name, and see neither addresses nor the slot.

Main statement: `Scene.Reachable.invokeDynamic_by_name`. In every scene that can be reached, the two
tell the same story: the slot is that of the handle which `Holds` it by the acts alone, and an
invocation through a handle runs the closure of that handle and no other.

While a callback runs it may itself store callbacks of live handles and clear the slot; `Reenters`
says which acts that comes to. A callback that writes some other pair into the slot is left out.
-/

namespace Crossing.Boundary

/-! ### Names and acts -/

/-- What a handle is called. -/
abbrev Name := Nat

/-- Something that happened and may matter for the stored callback. -/
inductive Act
  | create (h : Name)
  | drop (h : Name)
  | store (h : Name)
  | clear
  deriving DecidableEq

/-- By these acts, a handle is the one whose callback is stored: it stored it, and later no handle
did, nor was anything cleared, nor the handle dropped. -/
def Holds (acts : List Act) (h : Name) : Prop :=
  ∃ before after, acts = before ++ .store h :: after ∧
    (∀ h', .store h' ∉ after) ∧ .clear ∉ after ∧ .drop h ∉ after

/-- Who holds the slot after an act. -/
def Act.next (held : Option Name) : Act → Option Name
  | create _ => held
  | drop h => if held = some h then none else held
  | store h => some h
  | clear => none

/-- Who holds the slot after some acts. -/
def holder (acts : List Act) : Option Name := acts.foldl Act.next none

@[simp] theorem holder_nil : holder [] = none := rfl

/-- Only the last act and who held the slot before it matter. -/
@[simp] theorem holder_concat (acts : List Act) (act : Act) :
    holder (acts ++ [act]) = act.next (holder acts) := by
  rw [holder, List.foldl_append, holder]
  rfl

theorem not_holds_nil (h : Name) : ¬Holds [] h := by
  rintro ⟨before, after, heq, -⟩
  simp at heq

/-- Where an element stands in a list with one more at the end: there, or where it stood before. -/
theorem exists_concat_eq_append_cons {α : Type} {l : List α} {a x : α} {Q : List α → Prop} :
    (∃ before after, l ++ [a] = before ++ x :: after ∧ Q after) ↔
      a = x ∧ Q [] ∨ ∃ before after, l = before ++ x :: after ∧ Q (after ++ [a]) := by
  constructor
  · rintro ⟨before, after, heq, hafter⟩
    rcases List.eq_nil_or_concat after with rfl | ⟨after, last, rfl⟩
    · obtain ⟨-, hlast⟩ := List.append_inj' heq rfl
      exact .inl ⟨List.singleton_inj.1 hlast, hafter⟩
    · rw [List.concat_eq_append] at heq hafter
      rw [← List.cons_append, ← List.append_assoc] at heq
      obtain ⟨rfl, hlast⟩ := List.append_inj' heq rfl
      obtain rfl := List.singleton_inj.1 hlast
      exact .inr ⟨before, after, rfl, hafter⟩
  · rintro (⟨rfl, hnil⟩ | ⟨before, after, rfl, hafter⟩)
    · exact ⟨l, [], rfl, hnil⟩
    · exact ⟨before, after ++ [a], by simp, hafter⟩

/-- One act more either is the store that counts, or leaves the one before it in force. -/
theorem holds_concat {acts : List Act} {act : Act} {h : Name} :
    Holds (acts ++ [act]) h ↔
      act = .store h ∨ Holds acts h ∧ (∀ h', act ≠ .store h') ∧ act ≠ .clear ∧ act ≠ .drop h := by
  rw [Holds, exists_concat_eq_append_cons, Holds]
  simp only [List.mem_append, List.mem_singleton]
  grind

/-- The handle that holds the slot can be worked out act by act. -/
theorem holder_eq_some_iff {acts : List Act} {h : Name} :
    holder acts = some h ↔ Holds acts h := by
  induction acts using List.reverseRecOn generalizing h with
  | nil => simp [not_holds_nil]
  | append_singleton acts act ih =>
    rw [holder_concat, holds_concat, ← ih]
    cases act with
    | create h' => simp [Act.next]
    | drop h' =>
      by_cases hheld : holder acts = some h'
      · simp only [Act.next, hheld, if_true]
        grind
      · simp only [Act.next, hheld, if_false]
        grind
    | store h' => simp [Act.next, eq_comm]
    | clear => simp [Act.next]

/-- The slot is empty exactly if no handle holds it. -/
theorem holder_eq_none_iff {acts : List Act} : holder acts = none ↔ ∀ h, ¬Holds acts h := by
  rw [Option.eq_none_iff_forall_ne_some]
  exact forall_congr' fun h ↦ not_congr holder_eq_some_iff

/-! ### Scenes -/

variable {S C α : Type}

/-- A live handle: its name, where its context is, and the closure that is its own. -/
structure Handle (C : Type) where
  name : Name
  address : Address
  closure : Closure C

/-- A handle as the thread knows it. -/
def Handle.context (h : Handle C) : Address × Closure C := (h.address, h.closure)

/-- Calls a closure once. -/
def Closure.call [Machines S C] (c : Closure C) (value : Int32) (n : Native S) :
    Int32 × Closure C × Native S :=
  match c with
  | .function f => (f value, .function f, n)
  | .machine c =>
    let (r, c, n) := Machines.runClosure c value n
    (r, .machine c, n)

/-- Handles, one of which has a new closure. -/
def rebind (handles : List (Handle C)) (h : Name) (c : Closure C) : List (Handle C) :=
  handles.map fun k ↦ if k.name = h then { k with closure := c } else k

/-- A thread, its live handles by name, and the acts so far. -/
structure Scene (S C : Type) where
  thread : Thread S C := {}
  handles : List (Handle C) := []
  acts : List Act := []

namespace Scene

/-- The stored stateful callback. -/
def slot (s : Scene S C) : Option (Stateful × Address) := s.thread.native.dynamicSlot

/-- Makes a handle with a closure. -/
def create (s : Scene S C) (name : Name) (a : Address) (c : Closure C) : Scene S C :=
  ⟨s.thread.create a c, ⟨name, a, c⟩ :: s.handles, s.acts ++ [.create name]⟩

/-- Drops a handle. -/
def drop (s : Scene S C) (h : Handle C) : Scene S C :=
  ⟨s.thread.drop h.address, s.handles.filter (·.name ≠ h.name), s.acts ++ [.drop h.name]⟩

/-- Stores the callback of a handle. -/
def store (s : Scene S C) (h : Handle C) : Scene S C :=
  ⟨s.thread.store h.address, s.handles, s.acts ++ [.store h.name]⟩

/-- Forgets both callbacks. -/
def clear (s : Scene S C) : Scene S C :=
  ⟨{ s.thread with native := s.thread.native.clearCallbacks }, s.handles, s.acts ++ [.clear]⟩

/-- Does something that runs no closure of a handle; what it runs instead may take acts. -/
def within (s : Scene S C) (f : StateM (Thread S C) α) (nested : List Act) : Scene S C :=
  ⟨(f s.thread).2, s.handles, s.acts ++ nested⟩

variable [Machines S C]

/-- One call of the closure of a handle: what it returns, and the thread after it, in which nothing
but that closure and the native state has changed. -/
def called (s : Scene S C) (h : Handle C) (value : Int32) : Int32 × Thread S C :=
  let (r, c, n) := h.closure.call value s.thread.native
  (r, ⟨n, (rebind s.handles h.name c).map Handle.context⟩)

/-- Gives the callback of a handle to the native side, which runs it. -/
def invokeGiven (s : Scene S C) (h : Handle C) (value : Int32) (nested : List Act) : Scene S C where
  thread := (Thread.runStateful .closure h.address value s.thread).2
  handles := rebind s.handles h.name (h.closure.call value s.thread.native).2.1
  acts := s.acts ++ nested

/-- Has the native side run what it stored, if that is the callback of the handle. -/
def invokeStored (s : Scene S C) (h : Handle C) (value : Int32) (nested : List Act) :
    Scene S C where
  thread := ((Thread.invokeDynamic h.address value true).run s.thread).2
  handles :=
    if holder s.acts = some h.name then
      rebind s.handles h.name (h.closure.call value s.thread.native).2.1
    else s.handles
  acts := s.acts ++ nested

end Scene

/-- What a callback did to the slot while it ran: it stored callbacks of live handles, and cleared
the slot, in this order. -/
inductive Reenters (handles : List (Handle C)) (slot : Option (Stateful × Address)) :
    List Act → Option (Stateful × Address) → Prop
  | quiet : Reenters handles slot [] slot
  | store {acts slot'} {h : Handle C} : Reenters handles slot acts slot' → h ∈ handles →
      Reenters handles slot (acts ++ [.store h.name]) (some (.closure, h.address))
  | clear {acts slot'} : Reenters handles slot acts slot' →
      Reenters handles slot (acts ++ [.clear]) none

namespace Scene

variable [Machines S C]

/-- The scenes that any sequence of operations on handles can lead to. A new handle has a name that
no handle had, and an address that no live handle has. -/
inductive Reachable : Scene S C → Prop
  | start {n : Native S} : n.dynamicSlot = none → Reachable ⟨⟨n, []⟩, [], []⟩
  | create {s : Scene S C} {name : Name} {a : Address} {c : Closure C} : Reachable s →
      .create name ∉ s.acts → (∀ h ∈ s.handles, h.address ≠ a) → Reachable (s.create name a c)
  | drop {s : Scene S C} {h : Handle C} : Reachable s → h ∈ s.handles → Reachable (s.drop h)
  | store {s : Scene S C} {h : Handle C} : Reachable s → h ∈ s.handles → Reachable (s.store h)
  | clear {s : Scene S C} : Reachable s → Reachable s.clear
  | invokeGiven {s : Scene S C} {h : Handle C} {value : Int32} {nested : List Act} :
      Reachable s → h ∈ s.handles →
      Reenters s.handles s.slot nested (s.invokeGiven h value nested).slot →
      Reachable (s.invokeGiven h value nested)
  | invokeStored {s : Scene S C} {h : Handle C} {value : Int32} {nested : List Act} :
      Reachable s → h ∈ s.handles →
      Reenters s.handles s.slot nested (s.invokeStored h value nested).slot →
      Reachable (s.invokeStored h value nested)
  | storeStateless {s : Scene S C} {f : Stateless S} : Reachable s →
      Reachable (s.within (Thread.onNative (modify (Native.setStatic (some f)))) [])
  | invokeGivenStateless {s : Scene S C} {f : Stateless S} {value : Int32} {nested : List Act} :
      Reachable s →
      Reenters s.handles s.slot nested (s.within (Thread.runStateless f value) nested).slot →
      Reachable (s.within (Thread.runStateless f value) nested)
  | invokeStoredStateless {s : Scene S C} {value : Int32} {nested : List Act} : Reachable s →
      Reenters s.handles s.slot nested
        (s.within (Thread.invokeStatic value true).run nested).slot →
      Reachable (s.within (Thread.invokeStatic value true).run nested)

end Scene

/-! ### Names and addresses -/

/-- The slot is as it has to be by the acts: empty, or that of the live handle which holds it. -/
def Tracks (handles : List (Handle C)) (acts : List Act) (slot : Option (Stateful × Address)) :
    Prop :=
  match holder acts with
  | none => slot = none
  | some name => ∃ h ∈ handles, h.name = name ∧ slot = some (.closure, h.address)

/-- The slot is still accounted for after what a callback did to it while it was called. -/
theorem Tracks.reenters {handles : List (Handle C)} {acts nested : List Act}
    {slot slot' : Option (Stateful × Address)} (h : Tracks handles acts slot)
    (hnested : Reenters handles slot nested slot') : Tracks handles (acts ++ nested) slot' := by
  cases hnested with
  | quiet => rwa [List.append_nil]
  | @store acts' _ k _ hk =>
    rw [← List.append_assoc, Tracks, holder_concat]
    exact ⟨k, hk, rfl, rfl⟩
  | clear _ =>
    rw [← List.append_assoc, Tracks, holder_concat]
    rfl

/-- Which closures are where does not matter for the slot. -/
theorem Tracks.rebind {handles : List (Handle C)} {acts : List Act}
    {slot : Option (Stateful × Address)} (h : Tracks handles acts slot) (name : Name)
    (c : Closure C) : Tracks (rebind handles name c) acts slot := by
  rw [Tracks] at h ⊢
  rcases hheld : holder acts with - | held
  · rwa [hheld] at h
  · rw [hheld] at h
    obtain ⟨k, hk, hname, hslot⟩ := h
    refine ⟨_, List.mem_map_of_mem hk, ?_⟩
    split <;> exact ⟨hname, hslot⟩

/-- Nested acts neither make nor drop handles. -/
theorem Reenters.not_mem {handles : List (Handle C)} {acts : List Act}
    {slot slot' : Option (Stateful × Address)} (h : Reenters handles slot acts slot')
    (name : Name) :
    .create name ∉ acts ∧ .drop name ∉ acts := by
  induction h with
  | quiet => simp
  | store _ _ ih => simpa using ih
  | clear _ ih => simpa using ih

/-- Live handles have their own names and their own addresses. -/
structure Distinct (handles : List (Handle C)) : Prop where
  names : (handles.map Handle.name).Nodup
  addresses : (handles.map Handle.address).Nodup

namespace Distinct

variable {handles : List (Handle C)} {h k : Handle C}

/-- A name belongs to one live handle only. -/
theorem eq_of_name (hd : Distinct handles) (hh : h ∈ handles) (hk : k ∈ handles)
    (heq : k.name = h.name) : k = h :=
  List.inj_on_of_nodup_map hd.names hk hh heq

theorem eq_of_address (hd : Distinct handles) (hh : h ∈ handles) (hk : k ∈ handles)
    (heq : k.address = h.address) : k = h :=
  List.inj_on_of_nodup_map hd.addresses hk hh heq

/-- Names and addresses tell live handles apart in the same way. -/
theorem name_eq_iff (hd : Distinct handles) (hh : h ∈ handles) (hk : k ∈ handles) :
    k.name = h.name ↔ k.address = h.address :=
  ⟨fun heq ↦ by rw [hd.eq_of_name hh hk heq], fun heq ↦ by rw [hd.eq_of_address hh hk heq]⟩

/-- Handles differ by name and address, so it does not matter what they stand for. -/
theorem rebind (hd : Distinct handles) (name : Name) (c : Closure C) :
    Distinct (rebind handles name c) := by
  have hname : (Boundary.rebind handles name c).map Handle.name = handles.map Handle.name := by
    rw [Boundary.rebind, List.map_map]
    refine List.map_congr_left fun k _ ↦ ?_
    rw [Function.comp_apply]
    split <;> rfl
  have haddress : (Boundary.rebind handles name c).map Handle.address =
      handles.map Handle.address := by
    rw [Boundary.rebind, List.map_map]
    refine List.map_congr_left fun k _ ↦ ?_
    rw [Function.comp_apply]
    split <;> rfl
  exact ⟨hname ▸ hd.names, haddress ▸ hd.addresses⟩

/-- The closure at the address of a live handle is its own. -/
theorem lookup_context (hd : Distinct handles) (hh : h ∈ handles) :
    (handles.map Handle.context).lookup h.address = some h.closure := by
  induction handles with
  | nil => simp at hh
  | cons front rest ih =>
    rw [List.map_cons, Handle.context, List.lookup_cons]
    by_cases heq : h.address = front.address
    · rw [heq, BEq.rfl, hd.eq_of_address List.mem_cons_self hh heq]
    · have hrest : h ∈ rest := (List.mem_cons.1 hh).resolve_left fun h' ↦ heq (h' ▸ rfl)
      rw [beq_false_of_ne heq]
      exact ih ⟨(List.nodup_cons.1 hd.names).2, (List.nodup_cons.1 hd.addresses).2⟩ hrest

/-- By address and by name, the same handle gets a new closure. -/
theorem map_context_rebind (hd : Distinct handles) (hh : h ∈ handles) (c : Closure C) :
    (handles.map Handle.context).map (fun p ↦ if p.1 == h.address then (h.address, c) else p) =
      (Boundary.rebind handles h.name c).map Handle.context := by
  rw [Boundary.rebind, List.map_map, List.map_map]
  refine List.map_congr_left fun k hk ↦ ?_
  simp only [Function.comp_apply, Handle.context, beq_iff_eq, ← hd.name_eq_iff hh hk]
  split
  · next heq => rw [hd.eq_of_name hh hk heq]
  · rfl

/-- By address and by name, the same handle is dropped. -/
theorem filter_context (hd : Distinct handles) (hh : h ∈ handles) :
    (handles.map Handle.context).filter (fun p ↦ p.1 != h.address) =
      (handles.filter (·.name ≠ h.name)).map Handle.context := by
  rw [List.filter_map]
  refine congrArg _ (List.filter_congr fun k hk ↦ ?_)
  rw [Bool.eq_iff_iff]
  simp [Handle.context, hd.name_eq_iff hh hk]

/-- To put the closure back that is there changes nothing. -/
theorem rebind_self (hd : Distinct handles) (hh : h ∈ handles) :
    Boundary.rebind handles h.name h.closure = handles := by
  refine (List.map_congr_left fun k hk ↦ ?_).trans (List.map_id handles)
  split
  · next heq =>
    rw [hd.eq_of_name hh hk heq]
    rfl
  · rfl

end Distinct

/-! ### What every operation keeps -/

/-- What comes of an invocation of the stored stateless callback. -/
theorem Thread.invokeStatic_run [Machines S C] (t : Thread S C) (value : Int32) :
    (Thread.invokeStatic value true).run t =
      match t.native.staticSlot with
      | none => (.error .callbackNotSet, t)
      | some f => (.ok (t.runStateless f value).1, (t.runStateless f value).2) := by
  simp only [invokeStatic, run_bind, Call.run_demandOut_true, run_get]
  rcases t.native.staticSlot with - | f <;> rfl

/-- What comes of an invocation of the stored stateful callback. -/
theorem Thread.invokeDynamic_run [Machines S C] (t : Thread S C) (a : Address) (value : Int32) :
    (Thread.invokeDynamic a value true).run t =
      match t.native.dynamicSlot with
      | none => (.error .callbackNotSet, t)
      | some (f, stored) =>
        if stored = a then
          (.ok (t.runStateful f stored value).1, (t.runStateful f stored value).2)
        else (.error .callbackMismatch, t) := by
  simp only [invokeDynamic, run_bind, Call.run_demandOut_true, run_get]
  rcases t.native.dynamicSlot with - | ⟨f, stored⟩
  · rfl
  · by_cases heq : stored = a
    · simp only [heq, BEq.rfl, if_true]
      rfl
    · simp only [heq, beq_false_of_ne heq, if_false]
      rfl

namespace Scene

/-- Addresses and names tell the same about a scene. -/
structure Sound (s : Scene S C) : Prop where
  contexts_eq : s.thread.contexts = s.handles.map Handle.context
  distinct : Distinct s.handles
  created : ∀ h ∈ s.handles, .create h.name ∈ s.acts
  not_dropped : ∀ h ∈ s.handles, .drop h.name ∉ s.acts
  dropped_created : ∀ name, .drop name ∈ s.acts → .create name ∈ s.acts
  tracks : Tracks s.handles s.acts s.slot

namespace Sound

variable {s : Scene S C}

/-- A new handle has a name and an address of its own, and does not hold the slot. -/
theorem create (hs : s.Sound) {name : Name} {a : Address} (c : Closure C)
    (hname : .create name ∉ s.acts) (ha : ∀ h ∈ s.handles, h.address ≠ a) :
    (s.create name a c).Sound where
  contexts_eq := congrArg ((a, c) :: ·) hs.contexts_eq
  distinct := by
    refine ⟨List.nodup_cons.2 ⟨fun hmem ↦ ?_, hs.distinct.names⟩,
      List.nodup_cons.2 ⟨fun hmem ↦ ?_, hs.distinct.addresses⟩⟩
    · obtain ⟨h, hh, rfl⟩ := List.mem_map.1 hmem
      exact hname (hs.created h hh)
    · obtain ⟨h, hh, heq⟩ := List.mem_map.1 hmem
      exact ha h hh heq
  created h hh := by
    rcases List.mem_cons.1 hh with rfl | hh
    · exact List.mem_append_right _ (List.mem_singleton_self _)
    · exact List.mem_append_left _ (hs.created h hh)
  not_dropped h hh hmem := by
    have hmem : .drop h.name ∈ s.acts := by simpa [Scene.create] using hmem
    rcases List.mem_cons.1 hh with rfl | hh
    · exact hname (hs.dropped_created name hmem)
    · exact hs.not_dropped h hh hmem
  dropped_created name' hmem :=
    List.mem_append_left _ (hs.dropped_created name' (by simpa [Scene.create] using hmem))
  tracks := by
    have htracks := hs.tracks
    rw [Tracks, Scene.create, holder_concat, Act.next]
    rw [Tracks] at htracks
    rcases hheld : holder s.acts with - | held
    · rwa [hheld] at htracks
    · rw [hheld] at htracks
      obtain ⟨h, hh, hname, hslot⟩ := htracks
      exact ⟨h, List.mem_cons_of_mem _ hh, hname, hslot⟩

/-- With a handle its context goes, and the slot is cleared if the handle holds it. -/
theorem drop (hs : s.Sound) {h : Handle C} (hh : h ∈ s.handles) : (s.drop h).Sound where
  contexts_eq := by
    show s.thread.contexts.filter _ = _
    rw [hs.contexts_eq]
    exact hs.distinct.filter_context hh
  distinct :=
    ⟨(List.filter_sublist.map Handle.name).nodup hs.distinct.names,
      (List.filter_sublist.map Handle.address).nodup hs.distinct.addresses⟩
  created k hk := List.mem_append_left _ (hs.created k (List.mem_filter.1 hk).1)
  not_dropped k hk hmem := by
    obtain ⟨hk, hne⟩ := List.mem_filter.1 hk
    rcases List.mem_append.1 hmem with hmem | hmem
    · exact hs.not_dropped k hk hmem
    · have heq : k.name = h.name := by simpa using hmem
      simp [heq] at hne
  dropped_created name hmem := by
    refine List.mem_append_left _ ?_
    rcases List.mem_append.1 hmem with hmem | hmem
    · exact hs.dropped_created name hmem
    · have heq : name = h.name := by simpa using hmem
      exact heq ▸ hs.created h hh
  tracks := by
    have htracks := hs.tracks
    rw [Tracks, Scene.drop, holder_concat, Act.next]
    rw [Tracks] at htracks
    show match if holder s.acts = some h.name then none else holder s.acts with
      | none => (s.thread.native.forget h.address).dynamicSlot = none
      | some name => ∃ k ∈ s.handles.filter (·.name ≠ h.name), k.name = name ∧
          (s.thread.native.forget h.address).dynamicSlot = some (.closure, k.address)
    rcases hheld : holder s.acts with - | held
    · rw [hheld] at htracks
      simp [Native.forget, show s.thread.native.dynamicSlot = none from htracks]
    · rw [hheld] at htracks
      obtain ⟨k, hk, rfl, hslot⟩ := htracks
      have hslot : s.thread.native.dynamicSlot = some (.closure, k.address) := hslot
      by_cases heq : k.name = h.name
      -- the handle that is dropped holds the slot, and its address is in it
      · simp [Native.forget, hslot, heq, (hs.distinct.name_eq_iff hh hk).1 heq]
      -- another handle holds it, at another address
      · have hne : k.address ≠ h.address := fun h' ↦ heq ((hs.distinct.name_eq_iff hh hk).2 h')
        simp only [Option.some.injEq, heq, if_false]
        refine ⟨k, List.mem_filter.2 ⟨hk, by simpa using heq⟩, rfl, ?_⟩
        simp [Native.forget, hslot, hne]

/-- What neither makes nor drops a handle is sound if it reenters by the rules. -/
theorem reenter (hs : s.Sound) {t : Thread S C} {nested : List Act}
    (hcontexts : t.contexts = s.thread.contexts)
    (hnested : Reenters s.handles s.slot nested t.native.dynamicSlot) :
    (⟨t, s.handles, s.acts ++ nested⟩ : Scene S C).Sound where
  contexts_eq := hcontexts.trans hs.contexts_eq
  distinct := hs.distinct
  created h hh := List.mem_append_left _ (hs.created h hh)
  not_dropped h hh hmem := by
    rcases List.mem_append.1 hmem with hmem | hmem
    · exact hs.not_dropped h hh hmem
    · exact (hnested.not_mem h.name).2 hmem
  dropped_created name hmem := by
    rcases List.mem_append.1 hmem with hmem | hmem
    · exact List.mem_append_left _ (hs.dropped_created name hmem)
    · exact absurd hmem (hnested.not_mem name).2
  tracks := hs.tracks.reenters hnested

/-- A call of the closure of a handle is sound: it changes that closure, in the thread and by name,
and may reenter. -/
theorem ran (hs : s.Sound) (name : Name) (c : Closure C) {n : Native S} {nested : List Act}
    (hnested : Reenters s.handles s.slot nested n.dynamicSlot) :
    (⟨⟨n, (rebind s.handles name c).map Handle.context⟩, rebind s.handles name c,
      s.acts ++ nested⟩ : Scene S C).Sound :=
  have hs' := hs.reenter (t := ⟨n, s.thread.contexts⟩) rfl hnested
  { contexts_eq := rfl
    distinct := hs'.distinct.rebind name c
    created := fun k hk ↦ by
      obtain ⟨k, hk', rfl⟩ := List.mem_map.1 hk
      split <;> exact hs'.created k hk'
    not_dropped := fun k hk ↦ by
      obtain ⟨k, hk', rfl⟩ := List.mem_map.1 hk
      split <;> exact hs'.not_dropped k hk'
    dropped_created := hs'.dropped_created
    tracks := hs'.tracks.rebind name c }

variable [Machines S C] {h : Handle C}

/-- Running the closure at the address of a live handle is one call of its own closure. -/
theorem runClosure_handle (hs : s.Sound) (hh : h ∈ s.handles) (value : Int32) :
    Thread.runClosure h.address value s.thread = s.called h value := by
  have hclosure : s.thread.closure? h.address = some h.closure := by
    rw [Thread.closure?, hs.contexts_eq, hs.distinct.lookup_context hh]
  rw [Thread.runClosure, hclosure, called]
  rcases hown : h.closure with f | c
  · show (f value, s.thread) =
      (f value, ⟨s.thread.native, (rebind s.handles h.name (.function f)).map Handle.context⟩)
    rw [← hown, hs.distinct.rebind_self hh, ← hs.contexts_eq]
  · simp only [Closure.call, Thread.setClosure, hs.contexts_eq, hs.distinct.map_context_rebind hh]

/-- The native side runs the callback of the handle that holds the slot. -/
theorem invokeDynamic_of_holder (hs : s.Sound) (hh : h ∈ s.handles)
    (hheld : holder s.acts = some h.name) (value : Int32) :
    (Thread.invokeDynamic h.address value true).run s.thread =
      (.ok (s.called h value).1, (s.called h value).2) := by
  have htracks := hs.tracks
  rw [Tracks, hheld] at htracks
  obtain ⟨k, hk, hname, hslot⟩ := htracks
  rw [hs.distinct.eq_of_name hh hk hname] at hslot
  have hslot : s.thread.native.dynamicSlot = some (.closure, h.address) := hslot
  rw [Thread.invokeDynamic_run, hslot]
  simp only [if_true, Thread.runStateful, hs.runClosure_handle hh]

/-- Whoever does not hold the slot is refused, and nothing changes. -/
theorem invokeDynamic_of_other (hs : s.Sound) (hh : h ∈ s.handles) {name : Name}
    (hheld : holder s.acts = some name) (hne : name ≠ h.name) (value : Int32) :
    (Thread.invokeDynamic h.address value true).run s.thread =
      (.error .callbackMismatch, s.thread) := by
  have htracks := hs.tracks
  rw [Tracks, hheld] at htracks
  obtain ⟨k, hk, rfl, hslot⟩ := htracks
  have haddress : k.address ≠ h.address := fun heq ↦
    hne ((hs.distinct.name_eq_iff hh hk).2 heq)
  have hslot : s.thread.native.dynamicSlot = some (.closure, k.address) := hslot
  rw [Thread.invokeDynamic_run, hslot]
  simp only [haddress, if_false]

/-- Where nobody holds the slot, everybody is refused. -/
theorem invokeDynamic_of_none (hs : s.Sound) (hheld : holder s.acts = none) (a : Address)
    (value : Int32) :
    (Thread.invokeDynamic a value true).run s.thread = (.error .callbackNotSet, s.thread) := by
  have htracks := hs.tracks
  rw [Tracks, hheld] at htracks
  have hslot : s.thread.native.dynamicSlot = none := htracks
  rw [Thread.invokeDynamic_run, hslot]

/-- A closure that is passed along may change itself and the slot, and nothing else. -/
theorem invokeGiven (hs : s.Sound) (hh : h ∈ s.handles) {value : Int32} {nested : List Act}
    (hnested : Reenters s.handles s.slot nested (s.invokeGiven h value nested).slot) :
    (s.invokeGiven h value nested).Sound := by
  have hrun := hs.runClosure_handle hh value
  rw [Scene.slot, Scene.invokeGiven, Thread.runStateful, hrun] at hnested
  rw [Scene.invokeGiven, Thread.runStateful, hrun]
  exact hs.ran h.name _ hnested

/-- A closure that is invoked through the slot may change itself and the slot, and nothing else. -/
theorem invokeStored (hs : s.Sound) (hh : h ∈ s.handles) {value : Int32} {nested : List Act}
    (hnested : Reenters s.handles s.slot nested (s.invokeStored h value nested).slot) :
    (s.invokeStored h value nested).Sound := by
  by_cases hheld : holder s.acts = some h.name
  · have hrun := hs.invokeDynamic_of_holder hh hheld value
    rw [Scene.slot, Scene.invokeStored, hrun] at hnested
    rw [Scene.invokeStored, hrun, if_pos hheld]
    exact hs.ran h.name _ hnested
  · have hrun : ((Thread.invokeDynamic h.address value true).run s.thread).2 = s.thread := by
      rcases hother : holder s.acts with - | name
      · rw [hs.invokeDynamic_of_none hother]
      · rw [hs.invokeDynamic_of_other hh hother fun heq ↦ hheld (heq ▸ hother)]
    rw [Scene.slot, Scene.invokeStored, hrun] at hnested
    rw [Scene.invokeStored, hrun, if_neg hheld]
    exact hs.reenter rfl hnested

end Sound

/-- Stateless callbacks leave the contexts alone. -/
theorem contexts_runStateless [Machines S C] (f : Stateless S) (value : Int32) (t : Thread S C) :
    (Thread.runStateless f value t).2.contexts = t.contexts := by
  cases f <;> rfl

/-- A stateless callback gets at no context. -/
theorem contexts_invokeStatic [Machines S C] (value : Int32) (t : Thread S C) :
    ((Thread.invokeStatic value true).run t).2.contexts = t.contexts := by
  rw [Thread.invokeStatic_run]
  rcases t.native.staticSlot with - | f
  · rfl
  · exact contexts_runStateless f value t

/-- **Every scene that can be reached is sound.** -/
theorem Reachable.sound [Machines S C] {s : Scene S C} (hs : s.Reachable) : s.Sound := by
  induction hs with
  | start hslot =>
    exact ⟨rfl, ⟨List.nodup_nil, List.nodup_nil⟩, by simp, by simp, by simp, hslot⟩
  | create _ hname ha ih => exact ih.create _ hname ha
  | drop _ hh ih => exact ih.drop hh
  | store _ hh ih => exact ih.reenter rfl (.store .quiet hh)
  | clear _ ih => exact ih.reenter rfl (.clear .quiet)
  | invokeGiven _ hh hnested ih => exact ih.invokeGiven hh hnested
  | invokeStored _ hh hnested ih => exact ih.invokeStored hh hnested
  | storeStateless _ ih => exact ih.reenter rfl .quiet
  | invokeGivenStateless _ hnested ih => exact ih.reenter (contexts_runStateless _ _ _) hnested
  | invokeStoredStateless _ hnested ih => exact ih.reenter (contexts_invokeStatic _ _) hnested

/-- **The stored callback is known by name.** In every scene that can be reached, the slot is empty
if no handle holds it by the acts alone, and otherwise has the callback and the address of the one
live handle that does; a handle that was dropped never does, whoever has its address now.

So an invocation of the stored callback through a live handle runs the closure of this handle, once,
exactly if the handle holds the slot. It is a mismatch exactly if another live handle does, and
there is nothing to run exactly if the slot is empty; in both cases nothing changes. -/
theorem Reachable.invokeDynamic_by_name [Machines S C] {s : Scene S C} (hs : s.Reachable) :
    ((s.slot = none ∧ ∀ name, ¬Holds s.acts name) ∨
      ∃ h ∈ s.handles, (∀ name, Holds s.acts name ↔ name = h.name) ∧
        s.slot = some (.closure, h.address)) ∧
    (∀ name, .drop name ∈ s.acts → ¬Holds s.acts name ∧ ∀ h ∈ s.handles, h.name ≠ name) ∧
    ∀ h ∈ s.handles, ∀ value,
      Thread.runStateful .closure h.address value s.thread = s.called h value ∧
      (Holds s.acts h.name → (Thread.invokeDynamic h.address value true).run s.thread =
        (.ok (s.called h value).1, (s.called h value).2)) ∧
      (¬Holds s.acts h.name →
        ((Thread.invokeDynamic h.address value true).run s.thread).2 = s.thread) ∧
      ((∃ r, ((Thread.invokeDynamic h.address value true).run s.thread).1 = .ok r) ↔
        Holds s.acts h.name) ∧
      (((Thread.invokeDynamic h.address value true).run s.thread).1 = .error .callbackMismatch ↔
        ∃ k ∈ s.handles, k.name ≠ h.name ∧ Holds s.acts k.name) ∧
      (((Thread.invokeDynamic h.address value true).run s.thread).1 = .error .callbackNotSet ↔
        s.slot = none) := by
  have hsound := hs.sound
  have htracks := hsound.tracks
  refine ⟨?_, fun name hdropped ↦ ⟨fun hholds ↦ ?_, fun h hh heq ↦ ?_⟩, fun h hh value ↦ ?_⟩
  · rw [Tracks] at htracks
    rcases hheld : holder s.acts with - | held
    · rw [hheld] at htracks
      exact .inl ⟨htracks, holder_eq_none_iff.1 hheld⟩
    · rw [hheld] at htracks
      obtain ⟨h, hh, rfl, hslot⟩ := htracks
      refine .inr ⟨h, hh, fun name ↦ ?_, hslot⟩
      rw [← holder_eq_some_iff, hheld, Option.some.injEq, eq_comm]
  · rw [Tracks, holder_eq_some_iff.2 hholds] at htracks
    obtain ⟨h, hh, rfl, -⟩ := htracks
    exact hsound.not_dropped h hh hdropped
  · exact hsound.not_dropped h hh (heq ▸ hdropped)
  · refine ⟨hsound.runClosure_handle hh value, ?_⟩
    rcases hheld : holder s.acts with - | held
    · have hnone : ∀ name, ¬Holds s.acts name := holder_eq_none_iff.1 hheld
      rw [Tracks, hheld] at htracks
      rw [hsound.invokeDynamic_of_none hheld]
      simp [hnone, show s.slot = none from htracks]
    · have hholds : ∀ name, Holds s.acts name ↔ name = held := fun name ↦ by
        rw [← holder_eq_some_iff, hheld, Option.some.injEq, eq_comm]
      rw [Tracks, hheld] at htracks
      obtain ⟨k, hk, rfl, hslot⟩ := htracks
      by_cases heq : h.name = k.name
      · rw [hsound.invokeDynamic_of_holder hh (heq ▸ hheld)]
        simp [hholds, heq, hslot]
      · rw [hsound.invokeDynamic_of_other hh hheld (Ne.symm heq)]
        refine ⟨fun h' ↦ absurd ((hholds _).1 h') heq, fun _ ↦ rfl, ?_, ?_, ?_⟩
        · simp [hholds, heq]
        · exact iff_of_true rfl ⟨k, hk, Ne.symm heq, (hholds _).2 rfl⟩
        · simp [hslot]

/-- A handle is stored and dropped, and a new one gets its address: there is nothing to run. -/
theorem invokeDynamic_reused_address :
    ∃ s : Scene Empty Empty, s.Reachable ∧ .drop 0 ∈ s.acts ∧
      s.handles.map (·.address) = [16] ∧
      ((Thread.invokeDynamic 16 7 true).run s.thread).1 = .error .callbackNotSet := by
  let stored : Scene Empty Empty :=
    ((⟨⟨{}, []⟩, [], []⟩ : Scene Empty Empty).create 0 16 (.function (· + 1))).store
      ⟨0, 16, .function (· + 1)⟩
  let reused : Scene Empty Empty :=
    (stored.drop ⟨0, 16, .function (· + 1)⟩).create 1 16 (.function (· * 1000))
  have hreused : reused.Reachable := by
    refine .create (.drop (.store (.create (.start rfl) ?_ ?_) ?_) ?_) ?_ ?_
    · simp
    · simp
    · exact List.mem_cons_self
    · exact List.mem_cons_self
    · simp [stored, Scene.drop, Scene.store, Scene.create]
    · simp [stored, Scene.drop, Scene.store, Scene.create]
  refine ⟨reused, hreused, ?_, rfl, ?_⟩
  · simp [reused, stored, Scene.drop, Scene.store, Scene.create]
  · exact (hreused.invokeDynamic_by_name.2.2 ⟨1, 16, .function (· * 1000)⟩
      List.mem_cons_self 7).2.2.2.2.2.2 rfl

end Scene

end Crossing.Boundary
