import Crossing.Proofs.Catalog.Memory
import Crossing.Proofs.Label
import Mathlib.Data.List.Forall2

/-!
# Methods as they are registered

Discovery goes through the methods of a holder once and stops at the first one it cannot take. Here
the outcome is told from the places of the methods alone. A method is *at fault* if its name is
marked, and what follows the marker is no name of a benchmark or is what follows the marker at an
earlier place (`AtFault`). Main statement: `Memory.discover_by_places`.

The proof cuts the list of methods at the first one at fault. Up to there discovery goes on, and
then it stops with the objection to that method, whatever comes after it. If none is at fault, all
methods can be taken. Methods without the marker could as well be left out (`discover_marked`).
-/

namespace Crossing

variable {A : Type}

/-! ### Names and what is wrong with them -/

/-- The rule for the names of benchmarks: 1 to 128 bytes, all of them letters, digits or underscores
of ASCII. -/
def IsName (s : String) : Prop :=
  1 ≤ s.utf8ByteSize ∧ s.utf8ByteSize ≤ 128 ∧ ∀ c ∈ s.toList, c.isAlphanum = true ∨ c = '_'

/-- What is checked for a name is what is said of it here. -/
theorem isTestName_iff_isName {s : String} : isTestName s = true ↔ IsName s := by
  have hsize : s ≠ "" ↔ 1 ≤ s.utf8ByteSize := by
    rw [Nat.one_le_iff_ne_zero, ne_eq, ne_eq, String.utf8ByteSize_eq_zero_iff]
  simp only [isTestName_iff, IsName, hsize, isNameCharacter, Bool.or_eq_true, beq_iff_eq]

/-- What is said about a text after a marker that cannot be taken: it is empty, or it is too long,
or it has a character that names do not have, or else it is a name that was there before. -/
def objection (s : String) : ValidationError :=
  if s = "" then .invalidValue "test_name" s .emptyName
  else if 128 < s.utf8ByteSize then .invalidValue "test_name" s (.longName s.utf8ByteSize)
  else if s.toList.any fun c ↦ !c.isAlphanum && c != '_' then
    .invalidValue "test_name" s .nameCharacter
  else .duplicateName s

/-- A name by its three checks, in the order in which they are made. -/
theorem isName_iff {s : String} : IsName s ↔
    s ≠ "" ∧ ¬128 < s.utf8ByteSize ∧ ¬(s.toList.any fun c ↦ !c.isAlphanum && c != '_') = true := by
  rw [← isTestName_iff_isName, isTestName_iff, Nat.not_lt]
  simp only [isNameCharacter, Bool.or_eq_true, beq_iff_eq, List.any_eq_true, Bool.and_eq_true,
    Bool.not_eq_true', bne_iff_ne, not_exists, not_and, ne_eq, not_not, Bool.eq_false_iff,
    or_iff_not_imp_left]

/-- All that can be said against a valid name is that it is not new. -/
theorem objection_of_isName {s : String} (h : IsName s) : objection s = .duplicateName s := by
  obtain ⟨hempty, hlong, hchar⟩ := isName_iff.1 h
  rw [objection, if_neg hempty, if_neg hlong, if_neg hchar]

/-- A text that is no name is refused with the objection to it. -/
theorem TestName.ofString_of_not_isName {s : String} (h : ¬IsName s) :
    TestName.ofString s = .error (objection s) := by
  rw [ofString, dif_neg (isTestName_iff_isName.not.2 h), objection]
  by_cases hempty : s = ""
  · rw [if_pos (String.isEmpty_iff.2 hempty), if_pos hempty]
    rfl
  rw [if_neg (String.isEmpty_iff.not.2 hempty), if_neg hempty]
  by_cases hlong : 128 < s.utf8ByteSize
  · rw [if_pos hlong, if_pos hlong]
    rfl
  rw [if_neg hlong, if_neg hlong]
  -- neither empty nor too long, so there is a character that names do not have
  by_cases hchar : (s.toList.any fun c ↦ !c.isAlphanum && c != '_') = true
  · rw [if_pos hchar]
    rfl
  · exact absurd (isName_iff.2 ⟨hempty, hlong, hchar⟩) h

/-! ### Methods at fault -/

/-- The method at a place has a marked name, and what follows the marker is no name or follows the
marker at an earlier place. -/
def AtFault (names : List String) (i : Nat) (s : String) : Prop :=
  names[i]? = some (methodMarker ++ s) ∧
    (¬IsName s ∨ ∃ j < i, names[j]? = some (methodMarker ++ s))

/-- No method is at fault if all names are valid and none comes twice. -/
theorem forall_not_atFault_iff {names : List String} :
    (∀ i s, ¬AtFault names i s) ↔
      (∀ s, methodMarker ++ s ∈ names → IsName s) ∧
        ∀ (i j : Nat) (s : String), names[i]? = some (methodMarker ++ s) →
          names[j]? = some (methodMarker ++ s) → i = j := by
  constructor
  · intro hnone
    refine ⟨fun s hs ↦ ?_, fun i j s hi hj ↦ ?_⟩
    · obtain ⟨i, hi⟩ := List.getElem?_of_mem hs
      by_contra hname
      exact hnone i s ⟨hi, .inl hname⟩
    · rcases Nat.lt_trichotomy i j with hlt | heq | hlt
      · exact absurd ⟨hj, .inr ⟨i, hlt, hi⟩⟩ (hnone j s)
      · exact heq
      · exact absurd ⟨hi, .inr ⟨j, hlt, hj⟩⟩ (hnone i s)
  · rintro ⟨hnames, hplaces⟩ i s ⟨hi, hname | ⟨j, hlt, hj⟩⟩
    · exact hname (hnames s (List.mem_of_getElem? hi))
    · exact Nat.ne_of_lt hlt (hplaces j i s hj hi)

/-- Where one method is at fault, there is a first one. -/
theorem exists_first_atFault {names : List String} (h : ¬∀ i s, ¬AtFault names i s) :
    ∃ i s, AtFault names i s ∧ ∀ j < i, ∀ t, ¬AtFault names j t := by
  by_contra hnone
  refine h fun i ↦ ?_
  induction i using Nat.strongRecOn with
  | ind i ih => exact fun s hs ↦ hnone ⟨i, s, hs, ih⟩

/-- A method is at fault because of itself and those before it, not because of those after it. -/
theorem AtFault.of_take {names : List String} {i k : Nat} {s : String}
    (h : AtFault (names.take k) i s) : i < k ∧ AtFault names i s := by
  obtain ⟨hi, hcause⟩ := h
  have hget : ∀ {j : Nat} {m : String},
      (names.take k)[j]? = some m → j < k ∧ names[j]? = some m := by
    intro j m hj
    rw [List.getElem?_take] at hj
    split at hj
    case isTrue hlt => exact ⟨hlt, hj⟩
    case isFalse => cases hj
  refine ⟨(hget hi).1, (hget hi).2, hcause.imp_right ?_⟩
  rintro ⟨j, hlt, hj⟩
  exact ⟨j, hlt, (hget hj).2⟩

/-- Names that are marked and differ where they are marked are names that differ. -/
theorem nodup_filterMap_nameOf?_iff {names : List String}
    (hnames : ∀ s, methodMarker ++ s ∈ names → IsName s) :
    (names.filterMap nameOf?).Nodup ↔
      ∀ (i j : Nat) (s : String), names[i]? = some (methodMarker ++ s) →
        names[j]? = some (methodMarker ++ s) → i = j := by
  rw [List.Nodup, List.pairwise_filterMap, List.pairwise_iff_getElem]
  simp only [nameOf?_eq_some_iff]
  constructor
  · intro hpairs i j s hi hj
    obtain ⟨hi', hi⟩ := List.getElem?_eq_some_iff.1 hi
    obtain ⟨hj', hj⟩ := List.getElem?_eq_some_iff.1 hj
    have hname : isTestName s = true :=
      isTestName_iff_isName.2 (hnames s (hi ▸ List.getElem_mem hi'))
    rcases Nat.lt_trichotomy i j with hlt | heq | hlt
    · exact absurd rfl (hpairs i j hi' hj' hlt ⟨s, hname⟩ hi ⟨s, hname⟩ hj)
    · exact heq
    · exact absurd rfl (hpairs j i hj' hi' hlt ⟨s, hname⟩ hj ⟨s, hname⟩ hi)
  · rintro hplaces i j hi hj hlt name hname _ hname' rfl
    refine Nat.ne_of_lt hlt (hplaces i j name.text ?_ ?_)
    · rw [List.getElem?_eq_getElem hi, hname]
    · rw [List.getElem?_eq_getElem hj, hname']

/-- Discovery can take all methods exactly where none is at fault. -/
theorem discoverableAfter_nil_iff {names : List String} :
    DiscoverableAfter [] names ↔ ∀ i s, ¬AtFault names i s := by
  have hvalid : (∀ m ∈ names, ∀ s ∈ unmarked? m, isTestName s = true) ↔
      ∀ s, methodMarker ++ s ∈ names → IsName s := by
    simp only [Option.mem_def, unmarked?_eq_some_iff, isTestName_iff_isName]
    exact ⟨fun h s hs ↦ h _ hs s rfl, fun h m hm s hs ↦ h s (hs ▸ hm)⟩
  rw [forall_not_atFault_iff, DiscoverableAfter, hvalid]
  refine and_congr_right fun hnames ↦ ?_
  rw [and_iff_left (List.forall_mem_nil _), nodup_filterMap_nameOf?_iff hnames]

/-! ### Up to a method at fault -/

/-- Methods that discovery can take come before the others, and their names have been seen then. -/
theorem discoverAfter_append {before rest : List (String × A)} {seen : List TestName}
    (h : DiscoverableAfter seen (before.map Prod.fst)) :
    discoverAfter seen (before ++ rest) =
      (discoverAfter (((before.map Prod.fst).filterMap nameOf?).reverse ++ seen) rest).map
        (benchmarksOf before ++ ·) := by
  induction before generalizing seen with
  | nil =>
    show discoverAfter seen rest = (discoverAfter seen rest).map fun bs ↦ bs
    cases discoverAfter seen rest <;> rfl
  | cons p before ih =>
    obtain ⟨m, action⟩ := p
    rw [List.map_cons] at h ⊢
    rw [List.cons_append]
    rcases hm : unmarked? m with - | s
    · rw [discoverAfter_cons_of_unmarked hm, ih ((discoverableAfter_cons_of_unmarked hm).1 h),
        List.filterMap_cons_none (nameOf?_of_unmarked hm), benchmarksOf_cons_of_unmarked hm]
    · let name : TestName := ⟨s, h.1 m List.mem_cons_self s hm⟩
      have hname : m = methodMarker ++ name.text := unmarked?_eq_some_iff.1 hm
      obtain ⟨hnew, hbefore⟩ := (discoverableAfter_cons_of_name hname).1 h
      rw [discoverAfter_cons_of_name hname, if_neg hnew, ih hbefore,
        List.filterMap_cons_some (nameOf?_eq_some_iff.2 hname), benchmarksOf_cons_of_name hname,
        List.reverse_cons, List.append_assoc, List.singleton_append]
      rcases discoverAfter (((before.map Prod.fst).filterMap nameOf?).reverse ++ name :: seen) rest
        <;> rfl

/-- Discovery stops at the first method that is at fault, and objects to it. -/
theorem discoverAfter_of_first_atFault {methods : List (String × A)} {i : Nat} {s : String}
    (hfault : AtFault (methods.map Prod.fst) i s)
    (hfirst : ∀ j < i, ∀ t, ¬AtFault (methods.map Prod.fst) j t) :
    discoverAfter [] methods = .error (objection s) := by
  obtain ⟨hi, hcause⟩ := hfault
  rw [List.getElem?_map, Option.map_eq_some_iff] at hi
  obtain ⟨⟨m, action⟩, hp, hm⟩ := hi
  obtain ⟨hlt, hp⟩ := List.getElem?_eq_some_iff.1 hp
  -- the methods before it can all be taken
  have hsplit : methods = methods.take i ++ (m, action) :: methods.drop (i + 1) := by
    rw [← hp, ← List.drop_eq_getElem_cons hlt, List.take_append_drop]
  have hbefore : DiscoverableAfter [] ((methods.take i).map Prod.fst) := by
    rw [List.map_take, discoverableAfter_nil_iff]
    exact fun j t hj ↦ hfirst j hj.of_take.1 t hj.of_take.2
  rw [hsplit, discoverAfter_append hbefore]
  by_cases hname : IsName s
  · let name : TestName := ⟨s, isTestName_iff_isName.2 hname⟩
    obtain ⟨j, hji, hj⟩ := hcause.resolve_left (not_not_intro hname)
    have hseen : name ∈ (((methods.take i).map Prod.fst).filterMap nameOf?).reverse ++ [] := by
      rw [List.append_nil, List.mem_reverse, List.mem_filterMap]
      refine ⟨methodMarker ++ s, List.mem_of_getElem? (i := j) ?_, nameOf?_eq_some_iff.2 rfl⟩
      rw [List.map_take, List.getElem?_take, if_pos hji, hj]
    have hm : m = methodMarker ++ name.text := hm
    rw [discoverAfter_cons_of_name hm, if_pos hseen, objection_of_isName hname]
    rfl
  · rw [discoverAfter_cons_of_invalid (unmarked?_eq_some_iff.2 hm)
      (TestName.ofString_of_not_isName hname)]
    rfl

/-! ### Methods with a marker -/

/-- The name of a method starts with the marker. -/
def isMarked (m : String) : Bool := methodMarker.toList <+: m.toList

/-- A marker that is there can be cut off. -/
theorem isMarked_iff {m : String} : isMarked m = true ↔ ∃ s, unmarked? m = some s := by
  simp only [isMarked, decide_eq_true_iff, unmarked?_eq_some_iff, ← String.toList_inj,
    String.toList_append]
  constructor
  · rintro ⟨t, ht⟩
    exact ⟨String.ofList t, by rw [String.toList_ofList, ht]⟩
  · rintro ⟨s, hs⟩
    exact ⟨s.toList, hs.symm⟩

/-- The methods whose names start with the marker. -/
def marked (methods : List (String × A)) : List (String × A) :=
  methods.filter fun p ↦ isMarked p.1

section

variable {m s : String} {action : A} {rest : List (String × A)}

/-- Methods without the marker do not count. -/
theorem marked_cons_of_unmarked (h : unmarked? m = none) :
    marked ((m, action) :: rest) = marked rest := by
  refine List.filter_cons_of_neg fun hmarked ↦ ?_
  obtain ⟨s, hs⟩ := isMarked_iff.1 hmarked
  rw [h] at hs
  cases hs

/-- Methods with the marker count, valid or not. -/
theorem marked_cons_of_marked (h : unmarked? m = some s) :
    marked ((m, action) :: rest) = (m, action) :: marked rest :=
  List.filter_cons_of_pos (p := fun p : String × A ↦ isMarked p.1)
    (isMarked_iff.2 ⟨s, h⟩)

/-- Whether a method counts depends on its name only. -/
theorem map_fst_marked (methods : List (String × A)) :
    (marked methods).map Prod.fst = (methods.map Prod.fst).filter isMarked := by
  rw [List.filter_map]
  rfl

end

/-- Only methods with a marker count. -/
theorem discoverAfter_marked (seen : List TestName) (methods : List (String × A)) :
    discoverAfter seen (marked methods) = discoverAfter seen methods := by
  induction methods generalizing seen with
  | nil => rfl
  | cons p rest ih =>
    obtain ⟨m, action⟩ := p
    rcases hm : unmarked? m with - | s
    · rw [marked_cons_of_unmarked hm, discoverAfter_cons_of_unmarked hm, ih]
    · rw [marked_cons_of_marked hm, discoverAfter, discoverAfter]
      simp only [ih]

/-- A benchmark is what a method stands for: it has the name after the marker, no category, no place
in the primary tier, and the method itself. -/
def StandsFor (p : String × A) (b : Benchmark A) : Prop :=
  p.1 = methodMarker ++ b.name.text ∧ b.category = none ∧ b.isPrimary = false ∧ b.action = p.2

/-- Each method with a marker stands for one benchmark, in order. -/
theorem forall₂_benchmarksOf {methods : List (String × A)}
    (h : ∀ s, methodMarker ++ s ∈ methods.map Prod.fst → IsName s) :
    List.Forall₂ StandsFor (marked methods) (benchmarksOf methods) := by
  induction methods with
  | nil => exact .nil
  | cons p rest ih =>
    obtain ⟨m, action⟩ := p
    rw [List.map_cons] at h
    have hrest := ih fun s hs ↦ h s (List.mem_cons_of_mem _ hs)
    rcases hm : unmarked? m with - | s
    · rw [marked_cons_of_unmarked hm, benchmarksOf_cons_of_unmarked hm]
      exact hrest
    · have hs : m = methodMarker ++ s := unmarked?_eq_some_iff.1 hm
      let name : TestName := ⟨s, isTestName_iff_isName.2 (h s (hs ▸ List.mem_cons_self))⟩
      have hname : m = methodMarker ++ name.text := hs
      rw [marked_cons_of_marked hm, benchmarksOf_cons_of_name hname]
      exact .cons ⟨hname, rfl, rfl, rfl⟩ hrest

/-! ### Discoveries in memory -/

namespace Memory

variable {K : Type} {Holder : K → Type} {N : Type} {kind : K} {holder : Holder kind}
  {release : Holder kind → N → N} {methods : List (String × Method (Holder kind) N)}
  {m : Memory Holder N}

/-- A discovery that meets a fault releases the holder, and reports the first one. -/
theorem discover_of_first_atFault {i : Nat} {s : String}
    (hfault : AtFault (methods.map Prod.fst) i s)
    (hfirst : ∀ j < i, ∀ t, ¬AtFault (methods.map Prod.fst) j t) :
    (discover kind holder release methods).run m =
      (.error (.validation (objection s)), { m with world := release holder m.world }) :=
  discover_of_error m holder release (discoverAfter_of_first_atFault hfault hfirst)

/-- Where no method is at fault, discovery finds the benchmarks that methods stand for. -/
theorem discover_of_not_atFault (hnone : ∀ i s, ¬AtFault (methods.map Prod.fst) i s) :
    (discover kind holder release methods).run m =
      (.ok ⟨settled m.families.length (benchmarksOf methods)⟩,
        m.found kind holder release (benchmarksOf methods)) :=
  discover_of_discoverable m holder release (discoverableAfter_nil_iff.2 hnone)

/-- A discovery succeeds exactly if no method is at fault. -/
theorem exists_discover_eq_ok_iff :
    (∃ c, ((discover kind holder release methods).run m).1 = .ok c) ↔
      ∀ i s, ¬AtFault (methods.map Prod.fst) i s := by
  constructor
  · rintro ⟨c, hc⟩
    by_contra hsome
    obtain ⟨i, s, hfault, hfirst⟩ := exists_first_atFault hsome
    rw [discover_of_first_atFault hfault hfirst] at hc
    cases hc
  · intro hnone
    exact ⟨_, congrArg Prod.fst (discover_of_not_atFault hnone)⟩

/-- A discovery that fails does so with the objection to the first method at fault. -/
theorem discover_eq_error_iff {e : Error} :
    ((discover kind holder release methods).run m).1 = .error e ↔
      ∃ i s, AtFault (methods.map Prod.fst) i s ∧
        (∀ j < i, ∀ t, ¬AtFault (methods.map Prod.fst) j t) ∧ e = .validation (objection s) := by
  constructor
  · intro herror
    have hsome : ¬∀ i s, ¬AtFault (methods.map Prod.fst) i s := fun hnone ↦ by
      rw [discover_of_not_atFault hnone] at herror
      cases herror
    obtain ⟨i, s, hfault, hfirst⟩ := exists_first_atFault hsome
    rw [discover_of_first_atFault hfault hfirst] at herror
    exact ⟨i, s, hfault, hfirst, (Except.error.inj herror).symm⟩
  · rintro ⟨i, s, hfault, hfirst, rfl⟩
    rw [discover_of_first_atFault hfault hfirst]

/-- Methods without the marker could as well not be there. -/
theorem discover_marked (methods : List (String × Method (Holder kind) N)) :
    (discover kind holder release (marked methods) :
      ExceptT Error (StateM (Memory Holder N)) _) = discover kind holder release methods := by
  funext m
  rw [discover, discover, discoverAfter_marked]

/-- **Discovery is decided by names and their places**, and methods are only handed on.

* It succeeds exactly if all that follows a marker is the name of a benchmark, and follows the
  marker at one place only.
* Then memory has a new family with the holder as it was, and the catalogue has one benchmark for
  each method with a marker, in order, with the name that follows the marker and with that very
  method, which runs on that holder when the benchmark is called. Nothing else has changed, unless
  there is no benchmark: then the holder is released.
* Otherwise it fails because of the first method at fault, with the objection to its name, and the
  holder is released.
* Methods without a marker have no influence at all, and other methods under the same marked names
  fail for the same reason. -/
theorem discover_by_places (m : Memory Holder N) (holder : Holder kind)
    (release : Holder kind → N → N) (methods : List (String × Method (Holder kind) N)) :
    let names := methods.map Prod.fst
    let discovered := (discover kind holder release methods).run m
    ((∃ c, discovered.1 = .ok c) ↔
      (∀ s, methodMarker ++ s ∈ names → IsName s) ∧
        ∀ (i j : Nat) (s : String), names[i]? = some (methodMarker ++ s) →
          names[j]? = some (methodMarker ++ s) → i = j) ∧
    (∀ c, discovered.1 = .ok c → ∃ bs, List.Forall₂ StandsFor (marked methods) bs ∧
      c = ⟨settled m.families.length bs⟩ ∧ discovered.2 = m.found kind holder release bs ∧
      ∀ (i : Nat) (p : String × Method (Holder kind) N), (marked methods)[i]? = some p →
        ∃ b, c.benchmarks[i]? = some b ∧ call b.action discovered.2 =
          ((p.2.run (holder, m.world)).1,
            ({ m with world := (p.2.run (holder, m.world)).2.2 } : Memory Holder N).found kind
              (p.2.run (holder, m.world)).2.1 release bs)) ∧
    (∀ e, discovered.1 = .error e ↔
      ∃ i s, AtFault names i s ∧ (∀ j < i, ∀ t, ¬AtFault names j t) ∧
        e = .validation (objection s)) ∧
    (∀ e, discovered.1 = .error e → discovered.2 = { m with world := release holder m.world }) ∧
    (∀ others, marked others = marked methods →
      (discover kind holder release others).run m = discovered) ∧
    ∀ others : List (String × Method (Holder kind) N),
      (others.map Prod.fst).filter isMarked = names.filter isMarked →
        ∀ e, ((discover kind holder release others).run m).1 = .error e ↔
          discovered.1 = .error e := by
  intro names discovered
  refine ⟨?_, fun c hc ↦ ?_, fun e ↦ discover_eq_error_iff, fun e he ↦ ?_, fun others hsame ↦ ?_,
    fun others hsame e ↦ ?_⟩
  · rw [← forall_not_atFault_iff]
    exact exists_discover_eq_ok_iff
  · have hnone : ∀ i s, ¬AtFault names i s := exists_discover_eq_ok_iff.1 ⟨c, hc⟩
    have hfound : discovered = _ := discover_of_not_atFault hnone
    rw [hfound] at hc ⊢
    have hstands := forall₂_benchmarksOf (forall_not_atFault_iff.1 hnone).1
    refine ⟨_, hstands, (Except.ok.inj hc).symm, rfl, fun i p hp ↦ ?_⟩
    obtain ⟨hi, rfl⟩ := List.getElem?_eq_some_iff.1 hp
    have hi' : i < (benchmarksOf methods).length := hstands.length_eq ▸ hi
    have hb := List.getElem?_eq_getElem hi'
    obtain ⟨-, -, -, haction⟩ : StandsFor (marked methods)[i] (benchmarksOf methods)[i] :=
      hstands.get hi hi'
    refine ⟨(benchmarksOf methods)[i].withAction ⟨m.families.length, i⟩, ?_, ?_⟩
    · rw [← Except.ok.inj hc, settled, List.getElem?_mapIdx, hb]
      rfl
    · rw [← haction]
      exact call_found m holder release hb
  · obtain ⟨i, s, hfault, hfirst, -⟩ := discover_eq_error_iff.1 he
    exact congrArg Prod.snd (discover_of_first_atFault hfault hfirst)
  · show _ = (discover kind holder release methods).run m
    rw [← discover_marked others, hsame, discover_marked]
  · -- of both, only the methods with a marker count, and these have the same names
    show _ ↔ ((discover kind holder release methods).run m).1 = .error e
    rw [← discover_marked others, ← discover_marked methods, discover_eq_error_iff,
      discover_eq_error_iff, map_fst_marked, map_fst_marked, hsame]

end Memory

end Crossing
