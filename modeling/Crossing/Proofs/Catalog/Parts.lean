import Crossing.Proofs.Catalog.Memory
import Crossing.Proofs.Outcome
import Crossing.Proofs.Runner.Steady

/-!
# Catalogues that are made of parts

A *part* is a discovery together with the tags that its benchmarks get. A catalogue that is made of
parts has their benchmarks one part after the other, and memory has their families in a row. As
benchmarks are invoked, holders change, but for each part there may be something that its holder
keeps to: this is its *role*.

* `keeps_of_sustains`: if each method of each part sustains its role, the catalogue keeps all of
  them, whatever is invoked.
* `Hosts.drop`: when all benchmarks of the catalogue are dropped, the holder of each part is
  released, one after the other, and no share is left.
-/

namespace Crossing

open Memory (settled)

variable {A K : Type} {Holder : K → Type} {N : Type}

/-! ### Tags -/

/-- The benchmarks that methods stand for, with a category and a tier. -/
def tagged (category : Option Category) (isPrimary : Bool) (methods : List (String × A)) :
    List (Benchmark A) :=
  (benchmarksOf methods).map fun b ↦ { b with category, isPrimary }

/-- The tags of a benchmark are those of its part. -/
theorem mem_tagged {category : Option Category} {isPrimary : Bool}
    {methods : List (String × A)} {b : Benchmark A} :
    b ∈ tagged category isPrimary methods ↔
      ∃ name action, (methodMarker ++ name.text, action) ∈ methods ∧
        b = ⟨name, category, isPrimary, action⟩ := by
  simp only [tagged, List.mem_map, mem_benchmarksOf]
  constructor
  · rintro ⟨-, ⟨name, action, hmem, rfl⟩, rfl⟩
    exact ⟨name, action, hmem, rfl⟩
  · rintro ⟨name, action, hmem, rfl⟩
    exact ⟨_, ⟨name, action, hmem, rfl⟩, rfl⟩

/-- Benchmarks that were just discovered have neither category nor tier, so tags may be put on one
by one. -/
theorem map_benchmarksOf {f : Benchmark A → Benchmark A} {category : Option Category}
    {isPrimary : Bool} (methods : List (String × A))
    (hf : ∀ name action, f ⟨name, none, false, action⟩ = ⟨name, category, isPrimary, action⟩) :
    (benchmarksOf methods).map f = tagged category isPrimary methods := by
  refine List.map_congr_left fun b hb ↦ ?_
  obtain ⟨name, action, -, rfl⟩ := mem_benchmarksOf.1 hb
  exact hf name action

/-- A catalogue made primary right after its discovery has the tags of a primary part. -/
theorem intoPrimary_settled (number : Nat) (methods : List (String × A)) :
    Catalog.intoPrimary ⟨settled number (benchmarksOf methods)⟩ =
      ⟨settled number (tagged none true methods)⟩ := by
  rw [← map_benchmarksOf (f := fun b ↦ { b with isPrimary := true }) methods fun _ _ ↦ rfl,
    ← map_settled (g := fun b ↦ { b with isPrimary := true }) fun _ _ ↦ rfl]
  rfl

/-- A catalogue with a category right after its discovery has the tags of a part with it. -/
theorem withCategory_settled (number : Nat) (methods : List (String × A)) (category : Category) :
    Catalog.withCategory ⟨settled number (benchmarksOf methods)⟩ category =
      ⟨settled number (tagged (some category) false methods)⟩ := by
  rw [← map_benchmarksOf (f := fun b ↦ { b with category := some category }) methods
    fun _ _ ↦ rfl, ← map_settled (g := fun b ↦ { b with category := some category }) fun _ _ ↦ rfl]
  rfl

/-- A label that is a category is not refused. -/
theorem Catalog.retag_label {M : Type} [Invocable A M] (c : Catalog A) (category : Category)
    (m : M) : c.retag category.label m = (.ok (c.withCategory category), m) := by
  rw [retag, Category.ofString, dif_pos category.valid]

/-- A part that is built is appended to what is there. -/
theorem Catalog.andThen_of_ok {M : Type} [Invocable A M] {c d : Catalog A} {m m' : M}
    {next : ExceptT Error (StateM M) (Catalog A)} (h : next m = (.ok d, m')) :
    c.andThen next m = (.ok (c.append d), m') := by
  rw [andThen, h]

/-! ### Parts -/

/-- A discovery, and the tags that its benchmarks get. -/
structure Part (Holder : K → Type) (N : Type) where
  kind : K
  holder : Holder kind
  release : Holder kind → N → N
  methods : List (String × Method (Holder kind) N)
  category : Option Category
  isPrimary : Bool

namespace Part

/-- The benchmarks of a part, by their methods. -/
def found (p : Part Holder N) : List (Benchmark (Method (Holder p.kind) N)) :=
  tagged p.category p.isPrimary p.methods

/-- The family that a part leaves in memory. -/
def family (p : Part Holder N) : Family Holder N :=
  ⟨p.kind, p.holder, p.release, p.found.map Benchmark.action, p.found.length⟩

/-- The discovery of a part that has benchmarks leaves its family. -/
theorem discover_eq (p : Part Holder N) (m : Memory Holder N)
    (h : DiscoverableAfter [] (p.methods.map Prod.fst)) (hsome : p.found ≠ []) :
    Memory.discover p.kind p.holder p.release p.methods m =
      (.ok ⟨settled m.families.length (benchmarksOf p.methods)⟩, m.adopt p.family) := by
  have hempty : (benchmarksOf p.methods).isEmpty = false := by
    rw [List.isEmpty_eq_false_iff]
    exact fun hnil ↦ hsome (List.map_eq_nil_iff.2 hnil)
  refine (Memory.discover_of_discoverable m p.holder p.release h).trans ?_
  rw [Memory.found, hempty, Memory.adopt, family, found, tagged, List.map_map, List.length_map]
  rfl

/-- The discovery of a part that gets a category. -/
theorem retag_eq {p : Part Holder N} {c : Category} (hcategory : p.category = some c)
    (htier : p.isPrimary = false) (m : Memory Holder N)
    (h : DiscoverableAfter [] (p.methods.map Prod.fst)) (hsome : p.found ≠ []) :
    (do (← Memory.discover p.kind p.holder p.release p.methods).retag c.label :
      ExceptT Error (StateM (Memory Holder N)) _) m =
        (.ok ⟨settled m.families.length p.found⟩, m.adopt p.family) := by
  rw [bind_of_ok (p.discover_eq m h hsome), Catalog.retag_label, withCategory_settled, found,
    hcategory, htier]

end Part

/-- The benchmarks of some parts, whose families are in a row from a number on. -/
def benchmarksFrom : Nat → List (Part Holder N) → List (Benchmark Target)
  | _, [] => []
  | number, p :: ps => settled number p.found ++ benchmarksFrom (number + 1) ps

/-- A benchmark of the suite was discovered in one of the parts, which have their families one after
the other. -/
theorem mem_benchmarksFrom {number : Nat} {ps : List (Part Holder N)} {b : Benchmark Target}
    (hb : b ∈ benchmarksFrom number ps) :
    ∃ (j : Nat) (p : Part Holder N), ps[j]? = some p ∧ b ∈ settled (number + j) p.found := by
  induction ps generalizing number with
  | nil => cases hb
  | cons p ps ih =>
    rcases List.mem_append.1 hb with hb | hb
    · exact ⟨0, p, rfl, hb⟩
    · obtain ⟨j, q, hq, hb⟩ := ih hb
      rw [Nat.add_assoc, Nat.add_comm 1] at hb
      exact ⟨j + 1, q, hq, hb⟩

/-- The benchmarks of some parts go to families from their number on. -/
theorem le_family_of_mem_benchmarksFrom {number : Nat} {ps : List (Part Holder N)}
    {b : Benchmark Target} (hb : b ∈ benchmarksFrom number ps) : number ≤ b.action.family := by
  obtain ⟨j, p, -, hb⟩ := mem_benchmarksFrom hb
  rw [family_of_mem_settled hb]
  exact Nat.le_add_right number j

/-- Where families are does not show in the entries. -/
theorem entries_benchmarksFrom (number : Nat) (ps : List (Part Holder N)) :
    Catalog.entries ⟨benchmarksFrom number ps⟩ =
      ps.flatMap fun p ↦ p.found.map Benchmark.entry := by
  induction ps generalizing number with
  | nil => rfl
  | cons p ps ih =>
    have hrest := ih (number + 1)
    rw [Catalog.entries] at hrest ⊢
    rw [benchmarksFrom, List.map_append, map_entry_settled, hrest, List.flatMap_cons]

/-! ### Roles -/

/-- A part, and what its holder keeps to. -/
structure Role (Holder : K → Type) (N : Type) where
  part : Part Holder N
  keeps : Holder part.kind → Prop

/-- The methods of a part sustain its role and what holds of the world, whether they fail or not,
and reply and leave the world as `R` says. -/
def Role.Sustains (role : Role Holder N) (W : N → Prop)
    (R : Entry → Except Fault UInt64 → N → Prop) : Prop :=
  ∀ name method, (methodMarker ++ name.text, method) ∈ role.part.methods →
    ∀ h n, role.keeps h → W n →
      let s := method.run (h, n)
      role.keeps s.2.1 ∧ W s.2.2 ∧ R ⟨name, role.part.category, role.part.isPrimary⟩ s.1 s.2.2

namespace Memory

/-- The families from a number on are those of some parts, with holders that keep to their roles. -/
def Hosts (m : Memory Holder N) (number : Nat) (roles : List (Role Holder N)) : Prop :=
  ∀ (j : Nat) (role : Role Holder N), roles[j]? = some role → ∃ h, role.keeps h ∧
    m.families[number + j]? = some { role.part.family with holder := h }

/-- New families have the holders of their parts. -/
theorem hosts_append (families : List (Family Holder N)) (world : N)
    {roles : List (Role Holder N)} (h : ∀ role ∈ roles, role.keeps role.part.holder) :
    Hosts ⟨families ++ (roles.map Role.part).map Part.family, world⟩ families.length roles := by
  intro j role hrole
  refine ⟨role.part.holder, h role (List.mem_of_getElem? hrole), ?_⟩
  show (families ++ _)[families.length + j]? = _
  rw [List.getElem?_append_right (Nat.le_add_right _ _), Nat.add_sub_cancel_left,
    List.getElem?_map, List.getElem?_map, hrole]
  rfl

variable {m : Memory Holder N} {number : Nat} {roles : List (Role Holder N)}

/-- A call of a benchmark of one part keeps all roles. -/
theorem Hosts.call (hm : m.Hosts number roles) {W : N → Prop} (hW : W m.world)
    {R : Entry → Except Fault UInt64 → N → Prop} {j : Nat} {role : Role Holder N}
    (hrole : roles[j]? = some role) (hsustains : role.Sustains W R) {b : Benchmark Target}
    (hb : b ∈ settled (number + j) role.part.found) :
    (Memory.call b.action m).2.Hosts number roles ∧ W (Memory.call b.action m).2.world ∧
      R b.entry (Memory.call b.action m).1 (Memory.call b.action m).2.world := by
  obtain ⟨place, b₀, hb₀, rfl⟩ := mem_settled.1 hb
  obtain ⟨name, method, hmem, rfl⟩ := mem_tagged.1 (List.mem_of_getElem? hb₀)
  obtain ⟨h, hkeeps, hfamily⟩ := hm j role hrole
  have hmethod : ({ role.part.family with holder := h } : Family Holder N).methods[place]? =
      some method := by
    show (role.part.found.map Benchmark.action)[place]? = some method
    rw [List.getElem?_map, hb₀, Option.map_some]
  obtain ⟨hkeeps', hW', hR⟩ := hsustains name method hmem h m.world hkeeps hW
  have hcall := call_eq (t := ⟨number + j, place⟩) hfamily hmethod
  rw [Benchmark.withAction, hcall]
  refine ⟨fun i other hother ↦ ?_, hW', hR⟩
  rcases eq_or_ne j i with rfl | hne
  · obtain rfl : role = other := Option.some.inj (hrole.symm.trans hother)
    exact ⟨_, hkeeps', List.getElem?_set_self (List.getElem?_eq_some_iff.1 hfamily).1⟩
  · obtain ⟨h', hkeeps'', hfamily'⟩ := hm i other hother
    refine ⟨h', hkeeps'', ?_⟩
    show (m.families.set (number + j) _)[number + i]? = _
    rw [List.getElem?_set_ne (by omega), hfamily']

end Memory

/-- **A catalogue keeps the roles that its parts sustain.** -/
theorem keeps_of_sustains {number : Nat} {roles : List (Role Holder N)} {W : N → Prop}
    {R : Entry → Except Fault UInt64 → N → Prop} (h : ∀ role ∈ roles, role.Sustains W R) :
    Catalog.Keeps ⟨benchmarksFrom number (roles.map Role.part)⟩
      (fun m : Memory Holder N ↦ m.Hosts number roles ∧ W m.world)
      fun e r m ↦ R e r m.world := by
  rintro b hb m ⟨hm, hW⟩
  obtain ⟨j, p, hp, hb⟩ := mem_benchmarksFrom hb
  rw [List.getElem?_map] at hp
  obtain ⟨role, hrole, rfl⟩ := Option.map_eq_some_iff.1 hp
  obtain ⟨hm', hW', hR⟩ := hm.call hW hrole (h role (List.mem_of_getElem? hrole)) hb
  exact ⟨⟨hm', hW'⟩, hR⟩

/-! ### The end of all parts -/

/-- What the world is after the holders of some parts were released one after the other, each with
what it keeps to. -/
inductive Released : List (Role Holder N) → N → N → Prop
  | nil (n : N) : Released [] n n
  | cons {role : Role Holder N} {roles : List (Role Holder N)} {n n' : N}
    (h : Holder role.part.kind) (hkeeps : role.keeps h)
    (hrest : Released roles (role.part.release h n) n') : Released (role :: roles) n n'

namespace Memory

variable {m : Memory Holder N} {number : Nat} {roles : List (Role Holder N)}

/-- Dropping shares of some families does not concern another one. -/
theorem getElem?_families_drop {bs : List (Benchmark Target)} {i : Nat}
    (h : ∀ b ∈ bs, b.action.family ≠ i) :
    (Catalog.drop ⟨bs⟩ m).families[i]? = m.families[i]? := by
  induction bs generalizing m with
  | nil => rfl
  | cons b bs ih =>
    obtain ⟨hb, hbs⟩ := List.forall_mem_cons.1 h
    show (Catalog.drop ⟨bs⟩ (m.dropShare b.action.family)).families[i]? = _
    rw [ih hbs]
    rcases hfamily : m.families[b.action.family]? with - | family
    · rw [dropShare_of_le (List.getElem?_eq_none_iff.1 hfamily)]
    · rw [dropShare_eq hfamily]
      exact List.getElem?_set_ne hb

/-- The benchmarks of one part are dropped: its holder is released, and no share is left. -/
theorem drop_settled {p : Part Holder N} {h : Holder p.kind} (hsome : p.found ≠ [])
    (hfamily : m.families[number]? = some { p.family with holder := h }) :
    Catalog.drop ⟨settled number p.found⟩ m =
      ⟨m.families.set number { p.family with holder := h, shares := 0 },
        p.release h m.world⟩ := by
  have hne : settled number p.found ≠ [] := fun hnil ↦ hsome (List.mapIdx_eq_nil_iff.1 hnil)
  exact drop_of_forall_family hne (fun _ hb ↦ family_of_mem_settled hb) hfamily
    (length_settled number p.found).symm

/-- What happens to the first family and to the world does not concern the other parts. -/
theorem Hosts.tail {role : Role Holder N} (hm : m.Hosts number (role :: roles))
    (family : Family Holder N) (world : N) :
    Hosts ⟨m.families.set number family, world⟩ (number + 1) roles := by
  intro j other hother
  obtain ⟨h, hkeeps, hfamily⟩ := hm (j + 1) other hother
  refine ⟨h, hkeeps, ?_⟩
  show (m.families.set number family)[number + 1 + j]? = _
  rw [List.getElem?_set_ne (by omega), Nat.add_assoc, Nat.add_comm 1, hfamily]

/-- **Whoever drops all benchmarks releases all holders**, and no share is left. -/
theorem Hosts.drop (hm : m.Hosts number roles) (hsome : ∀ role ∈ roles, role.part.found ≠ []) :
    Released roles m.world
        (Catalog.drop ⟨benchmarksFrom number (roles.map Role.part)⟩ m).world ∧
      ∀ j < roles.length, ∃ family, family.shares = 0 ∧
        (Catalog.drop ⟨benchmarksFrom number (roles.map Role.part)⟩ m).families[number + j]? =
          some family := by
  induction roles generalizing m number with
  | nil => exact ⟨.nil _, nofun⟩
  | cons role roles ih =>
    obtain ⟨hrole, hroles⟩ := List.forall_mem_cons.1 hsome
    obtain ⟨h, hkeeps, hfamily⟩ := hm 0 role rfl
    rw [Nat.add_zero] at hfamily
    have hsplit : Catalog.drop ⟨benchmarksFrom number ((role :: roles).map Role.part)⟩ m =
        Catalog.drop ⟨benchmarksFrom (number + 1) (roles.map Role.part)⟩
          (⟨m.families.set number { role.part.family with holder := h, shares := 0 },
            role.part.release h m.world⟩ : Memory Holder N) := by
      rw [← drop_settled hrole hfamily]
      exact List.foldl_append
    obtain ⟨hreleased, hshares⟩ := ih (hm.tail _ (role.part.release h m.world)) hroles
    rw [hsplit]
    refine ⟨.cons h hkeeps hreleased, fun j hj ↦ ?_⟩
    cases j with
    | zero =>
      -- the other parts have families further on, so this one stays as it was left
      refine ⟨{ role.part.family with holder := h, shares := 0 }, rfl, ?_⟩
      have helsewhere : ∀ b ∈ benchmarksFrom (number + 1) (roles.map Role.part),
          b.action.family ≠ number := fun b hb ↦ Nat.ne_of_gt (le_family_of_mem_benchmarksFrom hb)
      exact (getElem?_families_drop helsewhere).trans
        (List.getElem?_set_self (List.getElem?_eq_some_iff.1 hfamily).1)
    | succ j =>
      rw [List.length_cons] at hj
      obtain ⟨family, hzero, hget⟩ := hshares j (by omega)
      refine ⟨family, hzero, ?_⟩
      rw [← hget, Nat.add_assoc, Nat.add_comm 1]

end Memory

end Crossing
