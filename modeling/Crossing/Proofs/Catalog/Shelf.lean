import Crossing.Proofs.Catalog.Accounts
import Crossing.Proofs.Catalog.Parts
import Mathlib.Data.List.Perm.Basic

/-!
# Many catalogues and their holders

Catalogues are on a *shelf*, each in a slot of its own. They are made by discovery, benchmarks are
added to them and get tags, and benchmarks go from one catalogue to another, all of them at once or
one by one, so those of one discovery may end up anywhere. All the time benchmarks are invoked. The
shelf also remembers the discoveries that were made, which have numbers in their order, and the
invocations.

Main statement: `Shelf.holders_kept_apart`. Whatever was done, each holder is what the invocations
of the benchmarks of its own discovery have made of it, in their order, starting with the holder as
it was discovered. Neither tags nor moves change the name or the method of a benchmark, nor anything
about a benchmark in a catalogue that they do not concern.
-/

namespace Crossing

variable {K : Type} {Holder : K → Type} {N : Type}

/-- Catalogues in slots and the memory that they share, with the discoveries and the invocations so
far. -/
structure Shelf (Holder : K → Type) (N : Type) where
  catalogs : List (Catalog Target) := []
  memory : Memory Holder N
  origins : List (Origin Holder N) := []
  calls : List (Invocation N) := []

/-- Something that is done with the catalogues of a shelf. -/
inductive Operation (Holder : K → Type) (N : Type)
  /-- An empty catalogue in a new slot. -/
  | create
  /-- A discovery, whose catalogue is in a new slot. -/
  | discover (kind : K) (holder : Holder kind) (release : Holder kind → N → N)
    (methods : List (String × Method (Holder kind) N))
  /-- A new benchmark at the end of a catalogue, on a holder of its own. -/
  | wrap (slot : Nat) (kind : K) (holder : Holder kind) (release : Holder kind → N → N)
    (name : TestName) (method : Method (Holder kind) N)
  /-- One benchmark is taken out of a catalogue and added at the end of another. -/
  | move (source index destination : Nat)
  /-- A catalogue is dropped, and an empty one is left in its slot. -/
  | drop (slot : Nat)
  | retag (slot : Nat) (label : String)
  | intoPrimary (slot : Nat)
  /-- All benchmarks of another catalogue are added at the end of a catalogue. -/
  | append (slot other : Nat)
  | invoke (slot index : Nat)

/-- What catalogues have, by names and targets. -/
def stockOf (catalogs : List (Catalog Target)) : List (TestName × Target) :=
  catalogs.flatMap (·.benchmarks.map Benchmark.signature)

namespace Shelf

/-- Puts a catalogue into a slot. -/
def put (s : Shelf Holder N) (slot : Nat) (c : Catalog Target) : Shelf Holder N :=
  { s with catalogs := s.catalogs.set slot c }

/-- Does something with the catalogues. There may be no such slot or no such benchmark. -/
def perform? (s : Shelf Holder N) : Operation Holder N → Option (Shelf Holder N)
  | .create => some { s with catalogs := s.catalogs ++ [{}] }
  | .discover kind holder release methods =>
    match Memory.discover kind holder release methods s.memory with
    | (.ok c, memory) => some { s with
        catalogs := s.catalogs ++ [c]
        memory
        origins := s.origins ++ [⟨kind, holder, release, benchmarksOf methods⟩] }
    | (.error _, memory) => some { s with memory }
  | .wrap slot kind holder release name method => do
    let c ← s.catalogs[slot]?
    let (b, memory) := Memory.wrap kind holder release name method s.memory
    return { s.put slot (c.push b) with
      memory
      origins := s.origins ++ [⟨kind, holder, release, [{ name, action := method }]⟩] }
  | .move source index destination => do
    let c ← s.catalogs[source]?
    let b ← c.benchmarks[index]?
    let s := s.put source ⟨c.benchmarks.eraseIdx index⟩
    let d ← s.catalogs[destination]?
    return s.put destination (d.push b)
  | .drop slot => do
    let c ← s.catalogs[slot]?
    return { s.put slot {} with memory := c.drop s.memory }
  | .retag slot label => do
    let c ← s.catalogs[slot]?
    match c.retag label s.memory with
    | (.ok c, memory) => return { s.put slot c with memory }
    | (.error _, memory) => return { s.put slot {} with memory }
  | .intoPrimary slot => do
    let c ← s.catalogs[slot]?
    return s.put slot c.intoPrimary
  | .append slot other =>
    if slot = other then none else do
      let c ← s.catalogs[slot]?
      let d ← s.catalogs[other]?
      return (s.put other {}).put slot (c.append d)
  | .invoke slot index => do
    let c ← s.catalogs[slot]?
    let b ← c.benchmarks[index]?
    return { s with
      memory := (c.invoke index s.memory).2
      calls := s.calls ++ [⟨b.action, s.memory.world⟩] }

/-- Does something if it can be done. -/
def perform (s : Shelf Holder N) (op : Operation Holder N) : Shelf Holder N :=
  (s.perform? op).getD s

/-- Does one thing after the other. -/
def run (s : Shelf Holder N) (program : List (Operation Holder N)) : Shelf Holder N :=
  program.foldl perform s

/-! ### The stock of a shelf -/

/-- A catalogue comes into a slot in place of another. -/
theorem count_stockOf_set {catalogs : List (Catalog Target)} {slot : Nat} {c : Catalog Target}
    (hc : catalogs[slot]? = some c) (d : Catalog Target) (p : TestName × Target) :
    (stockOf (catalogs.set slot d)).count p + (c.benchmarks.map Benchmark.signature).count p =
      (stockOf catalogs).count p + (d.benchmarks.map Benchmark.signature).count p := by
  induction catalogs generalizing slot with
  | nil => cases hc
  | cons first rest ih =>
    cases slot with
    | zero =>
      obtain rfl : first = c := Option.some.inj hc
      simp only [stockOf, List.set_cons_zero, List.flatMap_cons, List.count_append]
      omega
    | succ slot =>
      have hrest := ih hc
      simp only [stockOf, List.set_cons_succ, List.flatMap_cons, List.count_append] at hrest ⊢
      omega

theorem mem_stockOf {catalogs : List (Catalog Target)} {slot i : Nat} {c : Catalog Target}
    {b : Benchmark Target} (hc : catalogs[slot]? = some c) (hb : c.benchmarks[i]? = some b) :
    b.signature ∈ stockOf catalogs :=
  List.mem_flatMap.2 ⟨c, List.mem_of_getElem? hc, List.mem_map_of_mem (List.mem_of_getElem? hb)⟩

/-! ### What operations do -/

section

variable (s : Shelf Holder N) {slot : Nat} {c : Catalog Target}

/-- A discovery that succeeds adds a catalogue, and notes where it came from. -/
theorem perform?_discover {kind : K} (holder : Holder kind) (release : Holder kind → N → N)
    {methods : List (String × Method (Holder kind) N)}
    (h : DiscoverableAfter [] (methods.map Prod.fst)) :
    s.perform? (.discover kind holder release methods) = some { s with
      catalogs := s.catalogs ++ [⟨Memory.settled s.memory.families.length (benchmarksOf methods)⟩]
      memory := s.memory.found kind holder release (benchmarksOf methods)
      origins := s.origins ++ [⟨kind, holder, release, benchmarksOf methods⟩] } := by
  have hdiscover : Memory.discover kind holder release methods s.memory = _ :=
    Memory.discover_of_discoverable s.memory holder release h
  rw [perform?, hdiscover]

/-- One that fails adds nothing, but its holder was there and is released. -/
theorem perform?_discover_of_not {kind : K} (holder : Holder kind)
    (release : Holder kind → N → N) {methods : List (String × Method (Holder kind) N)}
    (h : ¬DiscoverableAfter [] (methods.map Prod.fst)) :
    s.perform? (.discover kind holder release methods) =
      some { s with memory := { s.memory with world := release holder s.memory.world } } := by
  rw [perform?, Memory.discover]
  rcases hfound : discoverAfter [] methods with e | bs
  · rfl
  · exact absurd (discoverAfter_eq_ok_iff.1 hfound).1 h

/-- A label that is a category is given to each benchmark of the catalog. -/
theorem perform?_retag (hc : s.catalogs[slot]? = some c) (category : Category) :
    s.perform? (.retag slot category.label) = some (s.put slot (c.withCategory category)) := by
  rw [perform?, hc]
  show (match c.retag category.label s.memory with
    | (.ok c, memory) => some { s.put slot c with memory }
    | (.error _, memory) => some { s.put slot {} with memory }) = _
  rw [Catalog.retag_label]
  rfl

/-- A label that is refused costs the catalogue. -/
theorem perform?_retag_of_not (hc : s.catalogs[slot]? = some c) {label : String}
    (h : ¬isCategory label = true) :
    s.perform? (.retag slot label) = some { s.put slot {} with memory := c.drop s.memory } := by
  obtain ⟨e, he⟩ : ∃ e, Category.ofString label = .error e := by
    rw [Category.ofString, dif_neg h]
    split <;> exact ⟨_, rfl⟩
  have hretag : c.retag label s.memory = (.error (.validation e), c.drop s.memory) := by
    rw [Catalog.retag, he]
  rw [perform?, hc]
  show (match c.retag label s.memory with
    | (.ok c, memory) => some { s.put slot c with memory }
    | (.error _, memory) => some { s.put slot {} with memory }) = _
  rw [hretag]

end

/-! ### What holds of every shelf -/

/-- Whatever was done, families are what discoveries, invocations and the benchmarks on the shelf
make of them. -/
def Sound (s : Shelf Holder N) : Prop :=
  Accounts s.origins s.calls (stockOf s.catalogs) s.memory.families

namespace Sound

variable {s : Shelf Holder N} {slot : Nat} {c : Catalog Target}

theorem empty (n : N) : Sound ({ memory := { world := n } } : Shelf Holder N) := Accounts.empty

/-- Other catalogues with the same benchmarks, but for tags and order. -/
theorem withCatalogs (hs : s.Sound) {catalogs : List (Catalog Target)}
    (h : ∀ p, (stockOf catalogs).count p = (stockOf s.catalogs).count p) :
    Sound { s with catalogs } :=
  hs.perm (List.perm_iff_count.2 h)

/-- Tags do not matter. -/
theorem putTagged (hs : s.Sound) (hc : s.catalogs[slot]? = some c) {d : Catalog Target}
    (hd : d.benchmarks.map Benchmark.signature = c.benchmarks.map Benchmark.signature) :
    (s.put slot d).Sound := by
  refine hs.withCatalogs fun p ↦ ?_
  have hcount := count_stockOf_set hc d p
  rw [hd] at hcount
  omega

/-- A catalogue is dropped. -/
theorem dropped (hs : s.Sound) (hc : s.catalogs[slot]? = some c) :
    Sound { s.put slot {} with memory := c.drop s.memory } := by
  refine Accounts.drop (hs.perm (List.perm_iff_count.2 fun p ↦ ?_))
  have hcount := count_stockOf_set hc {} p
  show (c.benchmarks.map Benchmark.signature ++ stockOf (s.catalogs.set slot {})).count p = _
  rw [List.count_append]
  simp only [List.map_nil, List.count_nil] at hcount
  omega

/-- All benchmarks move from one catalogue to the end of another. -/
theorem appended (hs : s.Sound) {other : Nat} {d : Catalog Target} (hne : slot ≠ other)
    (hc : s.catalogs[slot]? = some c) (hd : s.catalogs[other]? = some d) :
    ((s.put other {}).put slot (c.append d)).Sound := by
  refine hs.withCatalogs fun p ↦ ?_
  have hleft := count_stockOf_set hd {} p
  have hkept : (s.catalogs.set other {})[slot]? = some c := by
    rw [List.getElem?_set_ne hne.symm, hc]
  have hgrown := count_stockOf_set hkept (c.append d) p
  simp only [List.map_nil, List.count_nil] at hleft
  rw [Catalog.append, List.map_append, List.count_append] at hgrown
  show (stockOf ((s.catalogs.set other {}).set slot _)).count p = _
  rw [Catalog.append]
  omega

/-- One benchmark moves to the end of a catalogue. -/
theorem moved (hs : s.Sound) {i destination : Nat} {d : Catalog Target} {b : Benchmark Target}
    (hc : s.catalogs[slot]? = some c) (hb : c.benchmarks[i]? = some b)
    (hd : (s.catalogs.set slot ⟨c.benchmarks.eraseIdx i⟩)[destination]? = some d) :
    ((s.put slot ⟨c.benchmarks.eraseIdx i⟩).put destination (d.push b)).Sound := by
  refine hs.withCatalogs fun p ↦ ?_
  obtain ⟨hi, rfl⟩ := List.getElem?_eq_some_iff.1 hb
  have htaken := ((List.getElem_cons_eraseIdx_perm hi).map Benchmark.signature).count_eq p
  have hleft := count_stockOf_set hc ⟨c.benchmarks.eraseIdx i⟩ p
  have hgrown := count_stockOf_set hd (d.push c.benchmarks[i]) p
  rw [List.map_cons, List.count_cons] at htaken
  simp only [Catalog.push, List.map_append, List.map_singleton, List.count_append,
    List.count_singleton] at hleft hgrown
  show (stockOf ((s.catalogs.set slot _).set destination _)).count p = _
  rw [Catalog.push]
  omega

/-- A discovery, whose catalogue comes last. -/
theorem discovered (hs : s.Sound) (o : Origin Holder N) :
    Sound { s with
      catalogs := s.catalogs ++ [⟨Memory.settled s.memory.families.length o.found⟩]
      memory := s.memory.found o.kind o.holder o.release o.found
      origins := s.origins ++ [o] } := by
  have hfound := Accounts.found hs o
  rw [← hs.length_families] at hfound
  refine hfound.perm (List.Perm.of_eq ?_)
  rw [stockOf, List.flatMap_append, List.flatMap_singleton]
  rfl

/-- A benchmark on a holder of its own. -/
theorem wrapped (hs : s.Sound) (hc : s.catalogs[slot]? = some c) {kind : K}
    (holder : Holder kind) (release : Holder kind → N → N) (name : TestName)
    (method : Method (Holder kind) N) :
    Sound { s.put slot (c.push { name, action := ⟨s.memory.families.length, 0⟩ }) with
      memory := s.memory.adopt ⟨kind, holder, release, [method], 1⟩
      origins := s.origins ++ [⟨kind, holder, release, [{ name, action := method }]⟩] } := by
  let b : Benchmark Target := { name, action := ⟨s.memory.families.length, 0⟩ }
  have hfound := Accounts.found hs ⟨kind, holder, release, [{ name, action := method }]⟩
  rw [← hs.length_families] at hfound
  refine hfound.perm (List.perm_iff_count.2 fun p ↦ ?_)
  have hcount := count_stockOf_set hc (c.push b) p
  rw [Catalog.push, List.map_append, List.map_singleton, List.count_append] at hcount
  show (stockOf (s.catalogs.set slot (c.push b))).count p =
    (stockOf s.catalogs ++ [b.signature]).count p
  rw [List.count_append, Catalog.push]
  omega

/-- A benchmark is invoked. -/
theorem invoked (hs : s.Sound) {i : Nat} {b : Benchmark Target} (hc : s.catalogs[slot]? = some c)
    (hb : c.benchmarks[i]? = some b) :
    Sound { s with
      memory := (c.invoke i s.memory).2
      calls := s.calls ++ [⟨b.action, s.memory.world⟩] } := by
  obtain ⟨o, b₀, -, -, -, -, -, hcall⟩ := Accounts.call hs (mem_stockOf hc hb)
  rw [Catalog.invoke_of_getElem? hb]
  exact hcall

/-- Whatever is done, memory is accounted for. -/
theorem perform? (hs : s.Sound) {op : Operation Holder N} {s' : Shelf Holder N}
    (h : s.perform? op = some s') : s'.Sound := by
  cases op with
  | create =>
    obtain rfl := Option.some.inj h
    refine hs.withCatalogs fun p ↦ ?_
    simp [stockOf]
  | discover kind holder release methods =>
    by_cases hnames : DiscoverableAfter [] (methods.map Prod.fst)
    · rw [s.perform?_discover holder release hnames] at h
      obtain rfl := Option.some.inj h
      exact hs.discovered ⟨kind, holder, release, benchmarksOf methods⟩
    · rw [s.perform?_discover_of_not holder release hnames] at h
      obtain rfl := Option.some.inj h
      exact hs
  | wrap slot kind holder release name method =>
    obtain ⟨c, hc, h⟩ := Option.bind_eq_some_iff.1 h
    obtain rfl := Option.some.inj h
    exact hs.wrapped hc holder release name method
  | move source i destination =>
    obtain ⟨c, hc, h⟩ := Option.bind_eq_some_iff.1 h
    obtain ⟨b, hb, h⟩ := Option.bind_eq_some_iff.1 h
    obtain ⟨d, hd, h⟩ := Option.bind_eq_some_iff.1 h
    obtain rfl := Option.some.inj h
    exact hs.moved hc hb hd
  | drop slot =>
    obtain ⟨c, hc, h⟩ := Option.bind_eq_some_iff.1 h
    obtain rfl := Option.some.inj h
    exact hs.dropped hc
  | retag slot label =>
    obtain ⟨c, hc, -⟩ := Option.bind_eq_some_iff.1 h
    by_cases hlabel : isCategory label = true
    · rw [s.perform?_retag hc ⟨label, hlabel⟩] at h
      obtain rfl := Option.some.inj h
      refine hs.putTagged hc ?_
      rw [Catalog.withCategory, List.map_map]
      rfl
    · rw [s.perform?_retag_of_not hc hlabel] at h
      obtain rfl := Option.some.inj h
      exact hs.dropped hc
  | intoPrimary slot =>
    obtain ⟨c, hc, h⟩ := Option.bind_eq_some_iff.1 h
    obtain rfl := Option.some.inj h
    refine hs.putTagged hc ?_
    rw [Catalog.intoPrimary, List.map_map]
    rfl
  | append slot other =>
    rw [Shelf.perform?] at h
    split at h
    · cases h
    next hne =>
    obtain ⟨c, hc, h⟩ := Option.bind_eq_some_iff.1 h
    obtain ⟨d, hd, h⟩ := Option.bind_eq_some_iff.1 h
    obtain rfl := Option.some.inj h
    exact hs.appended hne hc hd
  | invoke slot i =>
    obtain ⟨c, hc, h⟩ := Option.bind_eq_some_iff.1 h
    obtain ⟨b, hb, h⟩ := Option.bind_eq_some_iff.1 h
    obtain rfl := Option.some.inj h
    exact hs.invoked hc hb

/-- By cases on the operation: each of them keeps the accounts, also where it does nothing. -/
theorem perform (hs : s.Sound) (op : Operation Holder N) : (s.perform op).Sound := by
  rw [Shelf.perform]
  rcases h : s.perform? op with - | s'
  · exact hs
  · exact hs.perform? h

/-- By induction over the program. -/
theorem run (hs : s.Sound) (program : List (Operation Holder N)) : (s.run program).Sound := by
  induction program generalizing s with
  | nil => exact hs
  | cons op program ih => exact ih (hs.perform op)

end Sound

/-! ### Tags and moves -/

/-- Nothing differs but the tags in one slot. -/
structure TagsOnly (s s' : Shelf Holder N) (slot : Nat) : Prop where
  signatures : (s'.catalogs[slot]?).map (·.benchmarks.map Benchmark.signature) =
    (s.catalogs[slot]?).map (·.benchmarks.map Benchmark.signature)
  others : ∀ other ≠ slot, s'.catalogs[other]? = s.catalogs[other]?
  rest : s' = { s with catalogs := s'.catalogs }

/-- Some benchmarks have arrived at the end of a catalogue, and others were left in the one that
they are from. Nothing else differs. -/
structure Moved (s s' : Shelf Holder N) (source destination : Nat)
    (left arrived : List (Benchmark Target)) : Prop where
  left : s'.catalogs[source]? = some ⟨left⟩
  arrived : ∃ d, s.catalogs[destination]? = some d ∧
    s'.catalogs[destination]? = some ⟨d.benchmarks ++ arrived⟩
  others : ∀ other, other ≠ source → other ≠ destination →
    s'.catalogs[other]? = s.catalogs[other]?
  rest : s' = { s with catalogs := s'.catalogs }

section

variable {s : Shelf Holder N} {slot : Nat} {c : Catalog Target}

/-- To replace a catalogue by one with the same signatures changes tags only. -/
theorem tagsOnly_put (hc : s.catalogs[slot]? = some c) {d : Catalog Target}
    (hd : d.benchmarks.map Benchmark.signature = c.benchmarks.map Benchmark.signature) :
    TagsOnly s (s.put slot d) slot where
  signatures := by
    show ((s.catalogs.set slot d)[slot]?).map _ = _
    rw [List.getElem?_set_self (List.getElem?_eq_some_iff.1 hc).1, hc, Option.map_some, hd,
      Option.map_some]
  others _ hne := List.getElem?_set_ne hne.symm
  rest := rfl

/-- To put benchmarks from one catalogue into another one changes no third catalog. -/
theorem moved_put {source destination : Nat} (hne : source ≠ destination) {d : Catalog Target}
    (hc : s.catalogs[source]? = some c) (hd : s.catalogs[destination]? = some d)
    (left arrived : List (Benchmark Target)) :
    Moved s ((s.put source ⟨left⟩).put destination ⟨d.benchmarks ++ arrived⟩) source destination
      left arrived where
  left := by
    show ((s.catalogs.set source ⟨left⟩).set destination _)[source]? = _
    rw [List.getElem?_set_ne hne.symm,
      List.getElem?_set_self (List.getElem?_eq_some_iff.1 hc).1]
  arrived := by
    refine ⟨d, hd, List.getElem?_set_self ?_⟩
    show destination < (s.catalogs.set source ⟨left⟩).length
    rw [List.length_set]
    exact (List.getElem?_eq_some_iff.1 hd).1
  others other hsource hdestination := by
    show ((s.catalogs.set source ⟨left⟩).set destination _)[other]? = _
    rw [List.getElem?_set_ne hdestination.symm, List.getElem?_set_ne hsource.symm]
  rest := rfl

/-- To append a catalogue moves all that is in it. -/
theorem perform_append {other : Nat} (hne : slot ≠ other) {d : Catalog Target}
    (hc : s.catalogs[slot]? = some c) (hd : s.catalogs[other]? = some d) :
    s.perform (.append slot other) = (s.put other {}).put slot (c.append d) := by
  rw [perform, perform?, if_neg hne, hc, hd]
  rfl

/-- A move takes one benchmark out of a catalogue and puts it at the end of another. -/
theorem perform_move {source i destination : Nat} (hne : source ≠ destination)
    {b : Benchmark Target} {d : Catalog Target} (hc : s.catalogs[source]? = some c)
    (hb : c.benchmarks[i]? = some b) (hd : s.catalogs[destination]? = some d) :
    s.perform (.move source i destination) =
      (s.put source ⟨c.benchmarks.eraseIdx i⟩).put destination (d.push b) := by
  have hd' : (s.put source ⟨c.benchmarks.eraseIdx i⟩).catalogs[destination]? = some d := by
    show (s.catalogs.set source _)[destination]? = some d
    rw [List.getElem?_set_ne hne, hd]
  rw [perform, perform?, hc]
  show (Option.bind c.benchmarks[i]? _).getD s = _
  rw [hb]
  show (Option.bind (s.put source ⟨c.benchmarks.eraseIdx i⟩).catalogs[destination]? _).getD s = _
  rw [hd']
  rfl

/-- An invocation reaches the holder through the benchmark's target, and is noted. -/
theorem perform_invoke {i : Nat} {b : Benchmark Target} (hc : s.catalogs[slot]? = some c)
    (hb : c.benchmarks[i]? = some b) :
    s.perform (.invoke slot i) = { s with
      memory := (c.invoke i s.memory).2
      calls := s.calls ++ [⟨b.action, s.memory.world⟩] } := by
  rw [perform, perform?, hc]
  show (Option.bind c.benchmarks[i]? _).getD s = _
  rw [hb]
  rfl

end

/-- What an invocation of a benchmark does: it runs the method that was found under the name of the
benchmark, on what the holder of that discovery has become, whatever comes of it. All other holders
and all catalogues stay as they are. -/
structure Invoked (s s' : Shelf Holder N) (b : Benchmark Target) (r : Except Fault UInt64)
    (o : Origin Holder N) (method : Method (Holder o.kind) N) : Prop where
  origin : s.origins[b.action.family]? = some o
  found : ∃ b₀, o.found[b.action.place]? = some b₀ ∧ b₀.name = b.name ∧ b₀.action = method
  calls : s'.calls = s.calls ++ [⟨b.action, s.memory.world⟩]
  ran : method.run (o.replay (callsOf s.calls b.action.family), s.memory.world) =
    (r, (o.replay (callsOf s'.calls b.action.family), s'.memory.world))
  others : ∀ number ≠ b.action.family, s'.memory.families[number]? = s.memory.families[number]?
  rest : s' = { s with memory := s'.memory, calls := s'.calls }

/-- A benchmark that is invoked finds the holder as the calls on it have left it, with the method
that it was discovered for. -/
theorem Sound.invoke {s : Shelf Holder N} (hs : s.Sound) {slot i : Nat} {c : Catalog Target}
    {b : Benchmark Target} (hc : s.catalogs[slot]? = some c) (hb : c.benchmarks[i]? = some b) :
    ∃ r o method, (c.invoke i s.memory).1 = some (b.entry.outcome r) ∧
      Invoked s (s.perform (.invoke slot i)) b r o method := by
  obtain ⟨o, b₀, ho, hb₀, hname, hreplay, hcall, -⟩ := Accounts.call hs (mem_stockOf hc hb)
  have hinvoke := Catalog.invoke_of_getElem? hb s.memory
  rw [show Invocable.call b.action s.memory = _ from hcall] at hinvoke
  refine ⟨_, o, b₀.action, congrArg Prod.fst hinvoke, ?_⟩
  rw [s.perform_invoke hc hb, hinvoke]
  exact
    { origin := ho
      found := ⟨b₀, hb₀, hname, rfl⟩
      calls := rfl
      ran := Prod.ext rfl (Prod.ext hreplay.symm rfl)
      others := fun number hne ↦ List.getElem?_set_ne hne.symm
      rest := rfl }

/-- **Each holder is its own discovery's.** After any program, memory is accounted for by the
discoveries and the invocations: each holder is what the methods of its own benchmarks have made of
it, in the order of their invocations. Each benchmark on the shelf has the name and the method that
it was found with, and none is there twice.

* A discovery gets a number that no benchmark on the shelf has, all its benchmarks have that number,
  and no other catalogue changes.
* An invocation runs the method of the benchmark on the holder of its own discovery, also if it ends
  in a fault or with a count of zero, and leaves all other holders as they are.
* Tags change nothing but tags, and in one slot only; a label that is refused costs the catalogue.
* A move of one benchmark or of all of a catalogue changes nothing but where they are. -/
theorem holders_kept_apart (n : N) (program : List (Operation Holder N)) :
    let s : Shelf Holder N := Shelf.run { memory := { world := n } } program
    s.Sound ∧
    (∀ kind holder release methods,
      (∀ c ∈ s.catalogs, ∀ b ∈ c.benchmarks, b.action.family ≠ s.origins.length) ∧
      s.perform (.discover kind holder release methods) =
        if DiscoverableAfter [] (methods.map Prod.fst) then
          { s with
            catalogs := s.catalogs ++ [⟨Memory.settled s.origins.length (benchmarksOf methods)⟩]
            memory := s.memory.found kind holder release (benchmarksOf methods)
            origins := s.origins ++ [⟨kind, holder, release, benchmarksOf methods⟩] }
        else { s with memory := { s.memory with world := release holder s.memory.world } }) ∧
    (∀ slot i c b, s.catalogs[slot]? = some c → c.benchmarks[i]? = some b →
      ∃ r o method, (c.invoke i s.memory).1 = some (b.entry.outcome r) ∧
        Invoked s (s.perform (.invoke slot i)) b r o method) ∧
    (∀ slot c, s.catalogs[slot]? = some c →
      (∀ label, if isCategory label = true then TagsOnly s (s.perform (.retag slot label)) slot
        else s.perform (.retag slot label) = s.perform (.drop slot)) ∧
      TagsOnly s (s.perform (.intoPrimary slot)) slot) ∧
    ∀ source destination c d, source ≠ destination → s.catalogs[source]? = some c →
      s.catalogs[destination]? = some d →
      Moved s (s.perform (.append destination source)) source destination [] c.benchmarks ∧
      ∀ i b, c.benchmarks[i]? = some b →
        Moved s (s.perform (.move source i destination)) source destination
          (c.benchmarks.eraseIdx i) [b] := by
  intro s
  have hs : s.Sound := (Sound.empty n).run program
  refine ⟨hs, fun kind holder release methods ↦ ⟨fun c hc b hb ↦ ?_, ?_⟩,
    fun slot i c b hc hb ↦ hs.invoke hc hb, fun slot c hc ↦ ⟨fun label ↦ ?_, ?_⟩,
    fun source destination c d hne hc hd ↦ ⟨?_, fun i b hb ↦ ?_⟩⟩
  · have hmem : b.signature ∈ stockOf s.catalogs :=
      List.mem_flatMap.2 ⟨c, hc, List.mem_map_of_mem hb⟩
    exact Nat.ne_of_lt (hs.family_lt hmem)
  · rw [perform]
    split
    · next h =>
      rw [s.perform?_discover holder release h, ← hs.length_families]
      rfl
    · next h =>
      rw [s.perform?_discover_of_not holder release h]
      rfl
  · split
    · next h =>
      have hretag := s.perform?_retag hc ⟨label, h⟩
      rw [perform, hretag]
      refine tagsOnly_put hc ?_
      rw [Catalog.withCategory, List.map_map]
      rfl
    · next h =>
      rw [perform, s.perform?_retag_of_not hc h, perform, perform?, hc]
      rfl
  · rw [perform, perform?, hc]
    refine tagsOnly_put hc ?_
    rw [Catalog.intoPrimary, List.map_map]
    rfl
  · rw [perform_append hne.symm hd hc]
    exact moved_put hne hc hd [] c.benchmarks
  · rw [perform_move hne hc hb hd]
    exact moved_put hne hc hd _ [b]

/-- A method of a holder that is a number: it changes the number and ends in some way. -/
def numeric (f : Nat → Nat) (r : Except Fault UInt64) : Method Nat Unit :=
  fun s ↦ (r, (f s.1, s.2))

/-- Two discoveries with a name in common. One benchmark of the first is moved to a catalogue of its
own and gets a tag there, and the other one is appended to the second catalogue. There are
invocations before and after, one of which ends in a fault, and one with a count of zero. -/
def splitDiscovery : List (Operation (fun _ : Unit ↦ Nat) Unit) :=
  [.discover () 1 (fun _ ↦ id)
      [("test_scale", numeric (2 * ·) (.ok 7)), ("helper", numeric id (.ok 1)),
        ("test_fault", numeric (· + 5) (.error ⟨"call", .nullPointer⟩))],
    .discover () 1 (fun _ ↦ id) [("test_scale", numeric (3 * ·) (.ok 0))],
    .create, .invoke 0 1, .move 0 0 2, .retag 2 "Moved", .append 1 0, .invoke 1 1, .invoke 2 0,
    .invoke 1 0, .intoPrimary 1, .invoke 2 0]

theorem holders_kept_apart_after_move :
    let s : Shelf (fun _ : Unit ↦ Nat) Unit :=
      Shelf.run { memory := { world := () } } splitDiscovery
    (s.memory.families.map fun family ↦ ((family.holder : Nat), family.shares)) =
      [((1 + 5 + 5) * 2 * 2, 2), (3, 1)] ∧
    (s.catalogs.map fun c ↦ c.benchmarks.map fun b ↦ (b.name.text, b.action)) =
      [[], [("scale", ⟨1, 0⟩), ("fault", ⟨0, 1⟩)], [("scale", ⟨0, 0⟩)]] ∧
    s.Sound ∧
    ∃ c d b, s.catalogs[2]? = some c ∧ s.catalogs[0]? = some d ∧ c.benchmarks[0]? = some b ∧
      (∃ r o method, (c.invoke 0 s.memory).1 = some (b.entry.outcome r) ∧
        Invoked s (s.perform (.invoke 2 0)) b r o method) ∧
      TagsOnly s (s.perform (.intoPrimary 2)) 2 ∧
      Moved s (s.perform (.move 2 0 0)) 2 0 (c.benchmarks.eraseIdx 0) [b] := by
  intro s
  obtain ⟨hs, -, hinvoke, htags, hmoves⟩ := holders_kept_apart () splitDiscovery
  have hfirst : ((s.catalogs[2]?).bind (·.benchmarks[0]?)).isSome := by decide +kernel
  obtain ⟨b, hb⟩ := Option.isSome_iff_exists.1 hfirst
  obtain ⟨c, hc, hb⟩ := Option.bind_eq_some_iff.1 hb
  obtain ⟨d, hd⟩ := Option.isSome_iff_exists.1 (by decide +kernel : (s.catalogs[0]?).isSome)
  exact ⟨by decide +kernel, by decide +kernel, hs, c, d, b, hc, hd, hb, hinvoke 2 0 c b hc hb,
    (htags 2 c hc).2, (hmoves 2 0 c d (by decide) hc hd).2 0 b hb⟩

end Shelf

end Crossing
