import Crossing.Memory
import Crossing.Proofs.Catalog.Discovery

/-!
# What is done to memory

Each operation on memory concerns one family, and is told here as one equation: a call runs a method
on the holder of its family, a share that is dropped may release a holder, and a discovery adds a
family at the end, with as many shares as it found benchmarks.

The equations are what the laws of catalogues and of whole shelves are proved from, and the only
place where the operations on memory are unfolded. Main statements: `drop_of_forall_family`, for all
shares of one family, and `discover_of_discoverable` and `discover_of_error`, for the two ways that
a discovery can end.
-/

namespace Crossing

variable {A K : Type} {Holder : K → Type} {N : Type}

/-! ### Benchmarks of a family -/

/-- A benchmark that settles in memory goes to the place that it has in its family. -/
theorem mem_settled {number : Nat} {found : List (Benchmark A)} {b : Benchmark Target} :
    b ∈ Memory.settled number found ↔ ∃ (place : Nat) (b₀ : Benchmark A),
      found[place]? = some b₀ ∧ b = b₀.withAction ⟨number, place⟩ := by
  rw [Memory.settled, List.mem_mapIdx]
  constructor
  · rintro ⟨place, hplace, rfl⟩
    exact ⟨place, found[place], List.getElem?_eq_getElem hplace, rfl⟩
  · rintro ⟨place, b₀, hb₀, rfl⟩
    obtain ⟨hplace, rfl⟩ := List.getElem?_eq_some_iff.1 hb₀
    exact ⟨place, hplace, rfl⟩

/-- All benchmarks that settle together go to one family. -/
theorem family_of_mem_settled {number : Nat} {found : List (Benchmark A)} {b : Benchmark Target}
    (hb : b ∈ Memory.settled number found) : b.action.family = number := by
  obtain ⟨place, b₀, -, rfl⟩ := mem_settled.1 hb
  rfl

@[simp] theorem length_settled (number : Nat) (found : List (Benchmark A)) :
    (Memory.settled number found).length = found.length := List.length_mapIdx

/-- What can be seen of benchmarks does not depend on where their methods are. -/
@[simp] theorem map_entry_settled (number : Nat) (found : List (Benchmark A)) :
    (Memory.settled number found).map Benchmark.entry = found.map Benchmark.entry := by
  refine List.ext_getElem? fun i ↦ ?_
  rw [List.getElem?_map, Memory.settled, List.getElem?_mapIdx, List.getElem?_map, Option.map_map]
  rfl

/-- Tags may be put on before or after benchmarks get their targets. -/
theorem map_settled {number : Nat} {found : List (Benchmark A)} {f : Benchmark A → Benchmark A}
    {g : Benchmark Target → Benchmark Target}
    (h : ∀ (b : Benchmark A) (t : Target), g (b.withAction t) = (f b).withAction t) :
    (Memory.settled number found).map g = Memory.settled number (found.map f) := by
  refine List.ext_getElem? fun i ↦ ?_
  rw [List.getElem?_map, Memory.settled, List.getElem?_mapIdx, Memory.settled, List.getElem?_mapIdx,
    List.getElem?_map, Option.map_map, Option.map_map]
  exact congrArg (Option.map · _) (funext fun b ↦ h b _)

namespace Memory

variable {m : Memory Holder N} {family : Family Holder N}

/-! ### Calls and shares -/

/-- A call runs the method on the holder of its family. -/
theorem call_eq {t : Target} {method : Method (Holder family.kind) N}
    (hfamily : m.families[t.family]? = some family)
    (hmethod : family.methods[t.place]? = some method) :
    call t m = ((method.run (family.holder, m.world)).1,
      ⟨m.families.set t.family
        { family with holder := (method.run (family.holder, m.world)).2.1 },
        (method.run (family.holder, m.world)).2.2⟩) := by
  rw [call, hfamily]
  dsimp only
  rw [hmethod]
  rfl

/-- One share less, and the holder is released with the last one. -/
theorem dropShare_eq {number : Nat} (hfamily : m.families[number]? = some family) :
    m.dropShare number =
      ⟨m.families.set number { family with shares := family.shares - 1 },
        if family.shares = 1 then family.release family.holder m.world else m.world⟩ := by
  rw [dropShare, hfamily]

/-- There is no share to drop where there is no family. -/
theorem dropShare_of_le {number : Nat} (h : m.families.length ≤ number) :
    m.dropShare number = m := by
  rw [dropShare, List.getElem?_eq_none h]

/-- The shares of one family are all dropped, one after the other: its holder is released with the
last one, and nothing else happens. -/
theorem drop_of_forall_family {number : Nat} {bs : List (Benchmark Target)} (hne : bs ≠ [])
    (hbs : ∀ b ∈ bs, b.action.family = number) (hfamily : m.families[number]? = some family)
    (hshares : family.shares = bs.length) :
    Catalog.drop ⟨bs⟩ m = ⟨m.families.set number { family with shares := 0 },
      family.release family.holder m.world⟩ := by
  induction bs generalizing m family with
  | nil => exact absurd rfl hne
  | cons b bs ih =>
    obtain ⟨hb, hbs⟩ := List.forall_mem_cons.1 hbs
    show Catalog.drop ⟨bs⟩ (m.dropShare b.action.family) = _
    rw [hb, dropShare_eq hfamily]
    rw [List.length_cons] at hshares
    rcases eq_or_ne bs [] with rfl | hrest
    · rw [if_pos (by simpa using hshares), hshares]
      rfl
    · have hpos : bs.length ≠ 0 := fun h ↦ hrest (List.length_eq_zero_iff.1 h)
      have hlt : number < m.families.length := (List.getElem?_eq_some_iff.1 hfamily).1
      have hleft : family.shares - 1 = bs.length := by omega
      rw [if_neg (by omega), ih hrest hbs (List.getElem?_set_self hlt) hleft, List.set_set]

/-! ### Discoveries -/

section

variable (m) (kind : K) (holder : Holder kind) (release : Holder kind → N → N)

/-- Memory after a discovery: there is one more family, with a share for each benchmark, and if
there is none, the holder is gone already. -/
def found (bs : List (Benchmark (Method (Holder kind) N))) : Memory Holder N :=
  ⟨m.families ++ [⟨kind, holder, release, bs.map Benchmark.action, bs.length⟩],
    if bs.isEmpty then release holder m.world else m.world⟩

variable {kind}

/-- A call of a benchmark that was just found runs its method on the holder as it was. -/
theorem call_found {bs : List (Benchmark (Method (Holder kind) N))} {place : Nat}
    {b : Benchmark (Method (Holder kind) N)} (hb : bs[place]? = some b) :
    call ⟨m.families.length, place⟩ (m.found kind holder release bs) =
      ((b.action.run (holder, m.world)).1,
        ({ m with world := (b.action.run (holder, m.world)).2.2 } : Memory Holder N).found kind
          (b.action.run (holder, m.world)).2.1 release bs) := by
  have hsome : bs.isEmpty = false := by
    cases bs with
    | nil => cases hb
    | cons => rfl
  have hmethod : (bs.map Benchmark.action)[place]? = some b.action := by
    rw [List.getElem?_map, hb, Option.map_some]
  have hfamily : (m.found kind holder release bs).families[m.families.length]? =
      some ⟨kind, holder, release, bs.map Benchmark.action, bs.length⟩ :=
    List.getElem?_concat_length ..
  rw [call_eq (t := ⟨m.families.length, place⟩) hfamily hmethod, found, found, hsome]
  dsimp only
  rw [List.set_append_right _ _ (Nat.le_refl _), Nat.sub_self]
  rfl

variable {methods : List (String × Method (Holder kind) N)}

/-- **A discovery that succeeds** leaves one family in memory, and its benchmarks have the places of
their methods there. -/
theorem discover_of_discoverable (h : DiscoverableAfter [] (methods.map Prod.fst)) :
    (discover kind holder release methods).run m =
      (.ok ⟨settled m.families.length (benchmarksOf methods)⟩,
        m.found kind holder release (benchmarksOf methods)) := by
  show discover kind holder release methods m = _
  rw [discover, discoverAfter_eq_ok_iff.2 ⟨h, rfl⟩]
  dsimp only
  rw [dropShare_eq (List.getElem?_concat_length ..), adopt, found]
  dsimp only
  rw [List.set_append_right _ _ (Nat.le_refl _), Nat.sub_self, List.set_cons_zero,
    Nat.add_sub_cancel]
  simp only [Nat.add_eq_right, List.length_eq_zero_iff, List.isEmpty_iff]

/-- A discovery that fails releases its holder. -/
theorem discover_of_error {e : ValidationError} (h : discoverAfter [] methods = .error e) :
    (discover kind holder release methods).run m =
      (.error (.validation e), { m with world := release holder m.world }) := by
  show discover kind holder release methods m = _
  rw [discover, h]

end

end Memory

end Crossing
