import Crossing.Proofs.Catalog.Memory
import Mathlib.Data.List.Nodup

/-!
# Benchmarks that share holders

Benchmarks are in many hands, but whoever has them, memory can be told from three things: from the
discoveries that were made, from the invocations that were made, and from the benchmarks that are
left, which are the *stock*. The holder of a discovery is what the invocations of its own benchmarks
have made of it, in their order, and it has as many shares as there are benchmarks of the discovery
in the stock (`Accounts`).

Where benchmarks are and what tags they have does not matter, so the accounts depend on the stock
only up to its order (`Accounts.perm`), and everything that is done is one of three changes: a
discovery adds to the stock (`Accounts.found`), a drop takes from it (`Accounts.drop`), and an
invocation leaves it as it is (`Accounts.call`).
-/

namespace Crossing

variable {A K : Type} {Holder : K → Type} {N : Type}

/-- What a benchmark keeps, whatever tags it gets. -/
def Benchmark.signature (b : Benchmark A) : TestName × A := (b.name, b.action)

/-! ### Discoveries and invocations -/

/-- A discovery: the holder as it was then, and the benchmarks that were found, by their methods. -/
structure Origin {K : Type} (Holder : K → Type) (N : Type) where
  kind : K
  holder : Holder kind
  release : Holder kind → N → N
  found : List (Benchmark (Method (Holder kind) N))

/-- An invocation that was made: what was called, and what holders worked on before it. -/
structure Invocation (N : Type) where
  target : Target
  world : N

/-- The invocations of benchmarks of the discovery with a number, in their order. -/
def callsOf (calls : List (Invocation N)) (number : Nat) : List (Invocation N) :=
  calls.filter (·.target.family = number)

/-- An invocation counts for the family that it goes to. -/
theorem callsOf_concat_self (calls : List (Invocation N)) (call : Invocation N) :
    callsOf (calls ++ [call]) call.target.family = callsOf calls call.target.family ++ [call] := by
  simp [callsOf]

theorem callsOf_concat_of_ne (calls : List (Invocation N)) {call : Invocation N} {number : Nat}
    (h : call.target.family ≠ number) :
    callsOf (calls ++ [call]) number = callsOf calls number := by
  simp [callsOf, h]

/-- There are no invocations of benchmarks that are not there yet. -/
theorem callsOf_of_lt {calls : List (Invocation N)} {number : Nat}
    (h : ∀ call ∈ calls, call.target.family < number) : callsOf calls number = [] := by
  refine List.filter_eq_nil_iff.2 fun call hcall ↦ ?_
  simpa using Nat.ne_of_lt (h call hcall)

/-- How many benchmarks of the discovery with a number there are. -/
def sharesOf (stock : List (TestName × Target)) (number : Nat) : Nat :=
  stock.countP (·.2.family = number)

theorem sharesOf_append (stock stock' : List (TestName × Target)) (number : Nat) :
    sharesOf (stock ++ stock') number = sharesOf stock number + sharesOf stock' number :=
  List.countP_append

/-- A family has no share where no benchmark goes to it. -/
theorem sharesOf_eq_zero {stock : List (TestName × Target)} {number : Nat}
    (h : ∀ p ∈ stock, p.2.family ≠ number) : sharesOf stock number = 0 :=
  List.countP_eq_zero.2 fun p hp ↦ by simpa using h p hp

/-- What discovery adds to the stock: names as they were found, and targets with one number. -/
theorem mem_map_signature_settled {number : Nat} {found : List (Benchmark A)}
    {p : TestName × Target} :
    p ∈ (Memory.settled number found).map Benchmark.signature ↔
      ∃ (place : Nat) (b : Benchmark A), found[place]? = some b ∧
        p = (b.name, ⟨number, place⟩) := by
  simp only [List.mem_map, mem_settled]
  constructor
  · rintro ⟨-, ⟨place, b, hb, rfl⟩, rfl⟩
    exact ⟨place, b, hb, rfl⟩
  · rintro ⟨place, b, hb, rfl⟩
    exact ⟨_, ⟨place, b, hb, rfl⟩, rfl⟩

/-- All that discovery adds to the stock goes to one family. -/
theorem family_of_mem_signatures {number : Nat} {found : List (Benchmark A)}
    {p : TestName × Target} (hp : p ∈ (Memory.settled number found).map Benchmark.signature) :
    p.2.family = number := by
  obtain ⟨place, b, -, rfl⟩ := mem_map_signature_settled.1 hp
  rfl

/-- What was just discovered has one share for each benchmark. -/
theorem sharesOf_settled_self (number : Nat) (found : List (Benchmark A)) :
    sharesOf ((Memory.settled number found).map Benchmark.signature) number = found.length := by
  rw [sharesOf, List.countP_eq_length.2 fun p hp ↦ ?_, List.length_map, length_settled]
  exact decide_eq_true (family_of_mem_signatures hp)

/-- The benchmarks of one discovery go to different places. -/
theorem nodup_targets_settled (number : Nat) (found : List (Benchmark A)) :
    (((Memory.settled number found).map Benchmark.signature).map Prod.snd).Nodup := by
  have htargets : ((Memory.settled number found).map Benchmark.signature).map Prod.snd =
      (List.range found.length).map (Target.mk number) := by
    refine List.ext_getElem? fun i ↦ ?_
    simp only [Memory.settled, List.getElem?_map, List.getElem?_mapIdx, Option.map_map]
    rcases Nat.lt_or_ge i found.length with hlt | hle
    · rw [List.getElem?_eq_getElem hlt, List.getElem?_range hlt]
      rfl
    · rw [List.getElem?_eq_none hle, List.getElem?_eq_none (by simpa using hle)]
      rfl
  rw [htargets]
  exact List.nodup_range.map fun _ _ heq ↦ congrArg Target.place heq

namespace Origin

/-- What invocations make of the holder: each runs the method that was found at its place, whatever
comes of it. -/
def replay (o : Origin Holder N) (calls : List (Invocation N)) : Holder o.kind :=
  calls.foldl (fun h call ↦
    match o.found[call.target.place]? with
    | some b => (b.action.run (h, call.world)).2.1
    | none => h) o.holder

/-- The family of a discovery, after some invocations and with some shares. -/
def family (o : Origin Holder N) (calls : List (Invocation N)) (shares : Nat) : Family Holder N :=
  ⟨o.kind, o.replay calls, o.release, o.found.map Benchmark.action, shares⟩

/-- One more invocation. -/
theorem replay_concat (o : Origin Holder N) (calls : List (Invocation N)) {call : Invocation N}
    {b : Benchmark (Method (Holder o.kind) N)} (hb : o.found[call.target.place]? = some b) :
    o.replay (calls ++ [call]) = (b.action.run (o.replay calls, call.world)).2.1 := by
  rw [replay, List.foldl_append, List.foldl_cons, List.foldl_nil, hb]
  rfl

end Origin

/-! ### Accounts -/

/-- Families are what discoveries, invocations and the benchmarks that are left make of them. Each
benchmark has the name that it was found with, and none is there twice. -/
structure Accounts (origins : List (Origin Holder N)) (calls : List (Invocation N))
    (stock : List (TestName × Target)) (families : List (Family Holder N)) : Prop where
  families_eq : families = origins.mapIdx fun number o ↦
    o.family (callsOf calls number) (sharesOf stock number)
  registered : ∀ p ∈ stock, ∃ o b, origins[p.2.family]? = some o ∧
    o.found[p.2.place]? = some b ∧ b.name = p.1
  nodup : (stock.map Prod.snd).Nodup
  calls_lt : ∀ call ∈ calls, call.target.family < origins.length

namespace Accounts

variable {origins : List (Origin Holder N)} {calls : List (Invocation N)}
  {stock stock' : List (TestName × Target)} {families : List (Family Holder N)}
  {m : Memory Holder N}

theorem empty : Accounts ([] : List (Origin Holder N)) [] [] [] :=
  ⟨rfl, nofun, List.nodup_nil, nofun⟩

/-- The order of the stock does not matter. -/
theorem perm (h : Accounts origins calls stock families) (hstock : stock'.Perm stock) :
    Accounts origins calls stock' families where
  families_eq := by
    have hshares : sharesOf stock' = sharesOf stock := funext fun _ ↦ hstock.countP_eq _
    rw [hshares]
    exact h.families_eq
  registered p hp := h.registered p (hstock.mem_iff.1 hp)
  nodup := ((hstock.map _).nodup_iff).2 h.nodup
  calls_lt := h.calls_lt

/-- Benchmarks have numbers of discoveries that were made. -/
theorem family_lt (h : Accounts origins calls stock families) {p : TestName × Target}
    (hp : p ∈ stock) : p.2.family < origins.length := by
  obtain ⟨o, b, ho, -⟩ := h.registered p hp
  exact (List.getElem?_eq_some_iff.1 ho).1

/-- There is one family for each discovery. -/
theorem length_families (h : Accounts origins calls stock families) :
    families.length = origins.length := by
  rw [h.families_eq, List.length_mapIdx]

/-- The family of a discovery. -/
theorem getElem?_families (h : Accounts origins calls stock families) {number : Nat}
    {o : Origin Holder N} (ho : origins[number]? = some o) :
    families[number]? = some (o.family (callsOf calls number) (sharesOf stock number)) := by
  rw [h.families_eq, List.getElem?_mapIdx, ho, Option.map_some]

/-- One family changes, and the accounts change for it alone. -/
theorem set_families (h : Accounts origins calls stock families) {number : Nat}
    {o : Origin Holder N} (ho : origins[number]? = some o) {family : Family Holder N}
    {calls' : List (Invocation N)}
    (hself : family = o.family (callsOf calls' number) (sharesOf stock' number))
    (hcalls : ∀ other ≠ number, callsOf calls' other = callsOf calls other)
    (hshares : ∀ other ≠ number, sharesOf stock' other = sharesOf stock other) :
    families.set number family = origins.mapIdx fun number o ↦
      o.family (callsOf calls' number) (sharesOf stock' number) := by
  refine List.ext_getElem? fun i ↦ ?_
  rw [List.getElem?_mapIdx]
  rcases eq_or_ne number i with rfl | hne
  · have hlt : number < families.length :=
      (List.getElem?_eq_some_iff.1 (h.getElem?_families ho)).1
    rw [List.getElem?_set_self hlt, ho, hself, Option.map_some]
  · rw [List.getElem?_set_ne hne, h.families_eq, List.getElem?_mapIdx, hcalls i hne.symm,
      hshares i hne.symm]

/-- **A call runs the method that was found**, on what the holder has become, and is accounted for,
whatever comes of it. -/
theorem call (h : Accounts origins calls stock m.families) {p : TestName × Target}
    (hp : p ∈ stock) :
    ∃ o b, origins[p.2.family]? = some o ∧ o.found[p.2.place]? = some b ∧ b.name = p.1 ∧
      let calls' := calls ++ [⟨p.2, m.world⟩]
      let ran := b.action.run (o.replay (callsOf calls p.2.family), m.world)
      o.replay (callsOf calls' p.2.family) = ran.2.1 ∧
      Memory.call p.2 m = (ran.1,
        ⟨m.families.set p.2.family
          (o.family (callsOf calls' p.2.family) (sharesOf stock p.2.family)), ran.2.2⟩) ∧
      Accounts origins calls' stock (Memory.call p.2 m).2.families := by
  obtain ⟨o, b, ho, hb, hname⟩ := h.registered p hp
  refine ⟨o, b, ho, hb, hname, ?_⟩
  intro calls' ran
  have hmethod : (o.found.map Benchmark.action)[p.2.place]? = some b.action := by
    rw [List.getElem?_map, hb, Option.map_some]
  have hreplay : o.replay (callsOf calls' p.2.family) = ran.2.1 := by
    rw [callsOf_concat_self calls ⟨p.2, m.world⟩, o.replay_concat _ hb]
  have hcall := Memory.call_eq (h.getElem?_families ho) hmethod
  dsimp only [Origin.family] at hcall
  rw [show (b.action.run (o.replay _, _)).2.1 = _ from hreplay.symm] at hcall
  refine ⟨hreplay, hcall, ?_, h.registered, h.nodup, ?_⟩
  · rw [hcall]
    exact h.set_families ho rfl (fun other hne ↦ callsOf_concat_of_ne _ hne.symm) fun _ _ ↦ rfl
  · intro call hcall
    rcases List.mem_append.1 hcall with hold | hnew
    · exact h.calls_lt call hold
    · obtain rfl := List.mem_singleton.1 hnew
      exact h.family_lt hp

/-- A benchmark is dropped, and its share with it. -/
theorem dropShare {p : TestName × Target} (h : Accounts origins calls (p :: stock) m.families) :
    Accounts origins calls stock (m.dropShare p.2.family).families := by
  obtain ⟨o, b, ho, -⟩ := h.registered p List.mem_cons_self
  have hself : sharesOf (p :: stock) p.2.family = sharesOf stock p.2.family + 1 :=
    List.countP_cons_of_pos (decide_eq_true rfl)
  rw [Memory.dropShare_eq (h.getElem?_families ho)]
  refine ⟨h.set_families ho ?_ (fun _ _ ↦ rfl) fun other hne ↦ ?_,
    fun q hq ↦ h.registered q (List.mem_cons_of_mem _ hq), (List.nodup_cons.1 h.nodup).2,
    h.calls_lt⟩
  · rw [Origin.family, Origin.family, hself, Nat.add_sub_cancel]
  · exact (List.countP_cons_of_neg (by simpa using hne.symm)).symm

/-- All benchmarks of a catalogue are dropped. -/
theorem drop {bs : List (Benchmark Target)}
    (h : Accounts origins calls (bs.map Benchmark.signature ++ stock) m.families) :
    Accounts origins calls stock (Catalog.drop ⟨bs⟩ m).families := by
  induction bs generalizing m with
  | nil => exact h
  | cons b bs ih => exact ih h.dropShare

/-- **A discovery adds what it found to the stock**, with a number that no benchmark has. -/
theorem found (h : Accounts origins calls stock m.families) (o : Origin Holder N) :
    Accounts (origins ++ [o]) calls
      (stock ++ (Memory.settled origins.length o.found).map Benchmark.signature)
      (m.found o.kind o.holder o.release o.found).families where
  families_eq := by
    have hnew : ∀ number ≠ origins.length, sharesOf
        ((Memory.settled origins.length o.found).map Benchmark.signature) number = 0 := by
      intro number hne
      refine sharesOf_eq_zero fun p hp ↦ ?_
      rw [family_of_mem_signatures hp]
      exact hne.symm
    have hold : sharesOf stock origins.length = 0 :=
      sharesOf_eq_zero fun p hp ↦ Nat.ne_of_lt (h.family_lt hp)
    rw [List.mapIdx_concat, callsOf_of_lt h.calls_lt, sharesOf_append, hold, Nat.zero_add,
      sharesOf_settled_self, Memory.found, h.families_eq]
    refine congrArg (· ++ _) (List.mapIdx_eq_mapIdx_iff.2 fun number hlt ↦ ?_)
    rw [sharesOf_append, hnew number (Nat.ne_of_lt hlt), Nat.add_zero]
  registered p hp := by
    rcases List.mem_append.1 hp with hold | hnew
    · obtain ⟨o', b, ho', hb, hname⟩ := h.registered p hold
      exact ⟨o', b, by rw [List.getElem?_append_left (h.family_lt hold), ho'], hb, hname⟩
    · obtain ⟨place, b, hb, rfl⟩ := mem_map_signature_settled.1 hnew
      exact ⟨o, b, List.getElem?_concat_length .., hb, rfl⟩
  nodup := by
    rw [List.map_append]
    refine h.nodup.append (nodup_targets_settled _ _) fun t ht ht' ↦ ?_
    obtain ⟨p, hp, rfl⟩ := List.mem_map.1 ht
    obtain ⟨q, hq, heq⟩ := List.mem_map.1 ht'
    have hlt := h.family_lt hp
    rw [← heq, family_of_mem_signatures hq] at hlt
    exact Nat.lt_irrefl _ hlt
  calls_lt call hcall := by
    rw [List.length_append]
    exact Nat.lt_add_right _ (h.calls_lt call hcall)

end Accounts

end Crossing
