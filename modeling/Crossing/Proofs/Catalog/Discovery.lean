import Crossing.Catalog
import Mathlib.Data.List.Nodup

/-!
# What discovery finds

Discovery looks at names only: a method stands for a benchmark if its name is the marker and then
the name of the benchmark. It succeeds exactly if all that follows the marker are names, no two of
them alike (`discoverAfter_eq_ok_iff`), and finds one benchmark for each, in order.

Discovery is a loop over the methods that carries the names which it has seen. So its laws are about
one more method: without the marker, with a name that is not valid, or with a name, new or not.
There is one law of each kind for what is discovered, for what can be discovered
(`DiscoverableAfter`) and for what is found (`benchmarksOf`), and the theorem puts them together by
induction over the methods.
-/

namespace Crossing

variable {A : Type}

/-! ### Names of methods -/

/-- The marker is cut off where it stands in front, and only there. -/
theorem unmarked?_eq_some_iff {m s : String} : unmarked? m = some s ↔ m = methodMarker ++ s := by
  have hlength : methodMarker.length = methodMarker.toList.length := rfl
  rw [unmarked?, ← String.toList_inj, String.toList_append, hlength]
  split
  case isTrue h =>
    obtain ⟨t, ht⟩ := List.isPrefixOf_iff_prefix.1 h
    rw [← ht, List.drop_left, List.append_cancel_left_eq, Option.some.injEq, ← String.toList_inj,
      String.toList_ofList]
  case isFalse h =>
    refine iff_of_false nofun fun hm ↦ h ?_
    exact List.isPrefixOf_iff_prefix.2 ⟨s.toList, hm.symm⟩

/-- A name is accepted as it is written. -/
theorem TestName.ofString_eq_ok_iff {s : String} {name : TestName} :
    TestName.ofString s = .ok name ↔ s = name.text := by
  constructor
  · intro h
    rw [ofString] at h
    split at h
    case isTrue => rw [← Except.ok.inj h]
    case isFalse =>
      split at h
      · cases h
      · split at h <;> cases h
  · rintro rfl
    rw [ofString, dif_pos name.valid]

/-- The name of the benchmark that a method stands for, if it stands for one. -/
def nameOf? (m : String) : Option TestName :=
  (unmarked? m).bind fun s ↦ (TestName.ofString s).toOption

/-- A method stands for a benchmark if its name is the marker and then the name of the benchmark. -/
theorem nameOf?_eq_some_iff {m : String} {name : TestName} :
    nameOf? m = some name ↔ m = methodMarker ++ name.text := by
  rw [nameOf?, Option.bind_eq_some_iff, ← unmarked?_eq_some_iff]
  constructor
  · rintro ⟨s, hs, hname⟩
    rcases hs' : TestName.ofString s with e | name'
    · rw [hs'] at hname
      cases hname
    · rw [hs'] at hname
      obtain rfl : name' = name := Option.some.inj hname
      rw [hs, TestName.ofString_eq_ok_iff.1 hs']
  · intro hm
    exact ⟨name.text, hm, by rw [TestName.ofString_eq_ok_iff.2 rfl]; rfl⟩

/-! ### Methods that stand for benchmarks -/

/-- All that follows a marker are names, no two of them alike and none of them seen before. -/
def DiscoverableAfter (seen : List TestName) (ms : List String) : Prop :=
  (∀ m ∈ ms, ∀ s ∈ unmarked? m, isTestName s = true) ∧ (ms.filterMap nameOf?).Nodup ∧
    ∀ name ∈ seen, name ∉ ms.filterMap nameOf?

instance (seen : List TestName) (ms : List String) : Decidable (DiscoverableAfter seen ms) :=
  inferInstanceAs (Decidable (_ ∧ _ ∧ _))

/-- The benchmarks that methods stand for. -/
def benchmarksOf (methods : List (String × A)) : List (Benchmark A) :=
  methods.filterMap fun p ↦ (nameOf? p.1).map fun name ↦ { name, action := p.2 }

/-- There is one benchmark for each method with a name, not tagged yet. -/
theorem mem_benchmarksOf {methods : List (String × A)} {b : Benchmark A} :
    b ∈ benchmarksOf methods ↔
      ∃ name action, (methodMarker ++ name.text, action) ∈ methods ∧ b = { name, action } := by
  simp only [benchmarksOf, List.mem_filterMap, Option.map_eq_some_iff, nameOf?_eq_some_iff]
  constructor
  · rintro ⟨⟨m, action⟩, hp, name, rfl, rfl⟩
    exact ⟨name, action, hp, rfl⟩
  · rintro ⟨name, action, hp, rfl⟩
    exact ⟨_, hp, name, rfl, rfl⟩

/-! ### One more method -/

section

variable {m : String} {ms : List String} {seen : List TestName} {action : A}
  {rest : List (String × A)}

theorem nameOf?_of_unmarked (h : unmarked? m = none) : nameOf? m = none := by
  rw [nameOf?, h, Option.bind_none]

/-- A method without the marker puts no condition on the others. -/
theorem discoverableAfter_cons_of_unmarked (h : unmarked? m = none) :
    DiscoverableAfter seen (m :: ms) ↔ DiscoverableAfter seen ms := by
  rw [DiscoverableAfter, DiscoverableAfter, List.forall_mem_cons,
    List.filterMap_cons_none (nameOf?_of_unmarked h), h]
  simp

/-- A name must be new, and is not new any more afterwards. -/
theorem discoverableAfter_cons_of_name {name : TestName} (h : m = methodMarker ++ name.text) :
    DiscoverableAfter seen (m :: ms) ↔ name ∉ seen ∧ DiscoverableAfter (name :: seen) ms := by
  have hvalid : ∀ s ∈ unmarked? m, isTestName s = true := by
    rw [unmarked?_eq_some_iff.2 h]
    rintro s ⟨⟩
    exact name.valid
  rw [DiscoverableAfter, DiscoverableAfter, List.forall_mem_cons, List.forall_mem_cons,
    List.filterMap_cons_some (nameOf?_eq_some_iff.2 h), List.nodup_cons]
  constructor
  · rintro ⟨⟨-, hms⟩, ⟨hnew, hnodup⟩, hseen⟩
    exact ⟨fun hname ↦ hseen name hname List.mem_cons_self, hms, hnodup, hnew,
      fun n hn h ↦ hseen n hn (List.mem_cons_of_mem _ h)⟩
  · rintro ⟨hname, hms, hnodup, hnew, hseen⟩
    refine ⟨⟨hvalid, hms⟩, ⟨hnew, hnodup⟩, fun n hn h ↦ ?_⟩
    rcases List.mem_cons.1 h with rfl | h
    · exact hname hn
    · exact hseen n hn h

/-- A method without the marker is passed over. -/
theorem discoverAfter_cons_of_unmarked (h : unmarked? m = none) :
    discoverAfter seen ((m, action) :: rest) = discoverAfter seen rest := by
  rw [discoverAfter, h]

/-- The discovery ends at the first name that is not valid. -/
theorem discoverAfter_cons_of_invalid {s : String} {e : ValidationError} (h : unmarked? m = some s)
    (hs : TestName.ofString s = .error e) :
    discoverAfter seen ((m, action) :: rest) = .error e := by
  rw [discoverAfter, h]
  dsimp only
  rw [hs]
  rfl

/-- A name that was seen before ends it too. Otherwise there is a benchmark more, and a name that
was seen. -/
theorem discoverAfter_cons_of_name {name : TestName} (h : m = methodMarker ++ name.text) :
    discoverAfter seen ((m, action) :: rest) =
      if name ∈ seen then .error (.duplicateName name.text)
      else (discoverAfter (name :: seen) rest).map (⟨name, none, false, action⟩ :: ·) := by
  rw [discoverAfter, unmarked?_eq_some_iff.2 h]
  dsimp only
  rw [TestName.ofString_eq_ok_iff.2 rfl]
  by_cases hseen : name ∈ seen
  · have hcontains : seen.contains name = true := List.contains_iff_mem.2 hseen
    rw [if_pos hseen]
    show (if seen.contains name = true then _ else _) = _
    rw [if_pos hcontains]
    rfl
  · have hcontains : ¬seen.contains name = true := fun h ↦ hseen (List.contains_iff_mem.1 h)
    rw [if_neg hseen]
    show (if seen.contains name = true then _ else _) = _
    rw [if_neg hcontains]
    rfl

theorem benchmarksOf_cons_of_unmarked (h : unmarked? m = none) :
    benchmarksOf ((m, action) :: rest) = benchmarksOf rest :=
  List.filterMap_cons_none (by rw [nameOf?_of_unmarked h]; rfl)

/-- The benchmarks stand in the order of the methods. -/
theorem benchmarksOf_cons_of_name {name : TestName} (h : m = methodMarker ++ name.text) :
    benchmarksOf ((m, action) :: rest) = ⟨name, none, false, action⟩ :: benchmarksOf rest :=
  List.filterMap_cons_some (by rw [nameOf?_eq_some_iff.2 h]; rfl)

end

/-- **Discovery succeeds** exactly if the names after the markers are in order, and then it finds
the benchmarks that the methods stand for. -/
theorem discoverAfter_eq_ok_iff {seen : List TestName} {methods : List (String × A)}
    {bs : List (Benchmark A)} :
    discoverAfter seen methods = .ok bs ↔
      DiscoverableAfter seen (methods.map Prod.fst) ∧ bs = benchmarksOf methods := by
  induction methods generalizing seen bs with
  | nil =>
    rw [discoverAfter, Except.ok.injEq, eq_comm]
    simp [DiscoverableAfter, benchmarksOf]
  | cons p rest ih =>
    obtain ⟨m, action⟩ := p
    rw [List.map_cons]
    rcases hm : unmarked? m with - | s
    · rw [discoverAfter_cons_of_unmarked hm, discoverableAfter_cons_of_unmarked hm,
        benchmarksOf_cons_of_unmarked hm]
      exact ih
    rcases hs : TestName.ofString s with e | name
    · rw [discoverAfter_cons_of_invalid hm hs]
      refine iff_of_false nofun fun h ↦ ?_
      have hvalid : isTestName s = true := h.1.1 m List.mem_cons_self s hm
      rw [TestName.ofString, dif_pos hvalid] at hs
      cases hs
    · have hname : m = methodMarker ++ name.text := by
        rw [← TestName.ofString_eq_ok_iff.1 hs]
        exact unmarked?_eq_some_iff.1 hm
      rw [discoverAfter_cons_of_name hname, discoverableAfter_cons_of_name hname,
        benchmarksOf_cons_of_name hname]
      by_cases hseen : name ∈ seen
      · rw [if_pos hseen]
        exact iff_of_false nofun fun h ↦ h.1.1 hseen
      · rw [if_neg hseen, and_iff_right hseen]
        rcases hrest : discoverAfter (name :: seen) rest with e | found
        · refine iff_of_false nofun fun h ↦ ?_
          have hok := ih.2 ⟨h.1, rfl⟩
          rw [hrest] at hok
          cases hok
        · obtain ⟨hcond, rfl⟩ := ih.1 hrest
          rw [Except.map, Except.ok.injEq, eq_comm]
          exact (and_iff_right hcond).symm

end Crossing
