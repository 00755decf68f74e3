import Crossing.Proofs.Runner.Watching
import Crossing.Proofs.Strategy.Custody
import Crossing.Proofs.Suite.Assembly

/-!
# What a run of the suite leaves behind

Nothing. The suite makes one object and one callback test when it is built, and a context each time
that a callback is replaced, and it stores callbacks on the thread. When a run of the suite is over,
however it ended, all of that is gone, each thing having been released once, and no callback is
stored, not even one that was stored before (`run_leaves_nothing`).

While the run goes on, the object and the callback test are there all the time, and no closure is
stored after a benchmark that stores one.
-/

namespace Crossing

open Strategy

/-- The benchmark stores a closure before it has it called. -/
def Entry.StoresClosure (e : Entry) : Prop := methodMarker ++ e.name.text ∈ ValueCalls.storing

instance (e : Entry) : Decidable e.StoresClosure := inferInstanceAs (Decidable (_ ∈ _))

namespace Suite

open Boundary

variable {S C P K : Type} {Other : K → Type}

/-! ### Closures that are stored -/

/-- No call on objects stores a closure. -/
theorem not_storing_objectCalls :
    ∀ p ∈ (ObjectCalls.methods : List (String × ObjectCalls.Task S C P UInt64)),
      p.1 ∉ ValueCalls.storing := by
  have hnames : ∀ m ∈ (ObjectCalls.methods :
      List (String × ObjectCalls.Task Empty Empty Empty UInt64)).map Prod.fst,
      m ∉ ValueCalls.storing := by decide +kernel
  exact fun p hp ↦ hnames p.1 (List.mem_map_of_mem hp)

theorem not_storing_textCalls :
    ∀ p ∈ (TextCalls.methods : List (String × TextCalls.Task S C P UInt64)),
      p.1 ∉ ValueCalls.storing := by
  have hnames : ∀ m ∈ (TextCalls.methods :
      List (String × TextCalls.Task Empty Empty Empty UInt64)).map Prod.fst,
      m ∉ ValueCalls.storing := by decide +kernel
  exact fun p hp ↦ hnames p.1 (List.mem_map_of_mem hp)

/-! ### The holders in the course of a run -/

/-- The part on objects, with a given object and callback test. -/
def objectKeeper (objects : ObjectCalls) : Role (Holder Other) (World S C P) :=
  ⟨objectPart objects, fun h : ObjectCalls ↦ h.object = objects.object ∧ h.test = objects.test⟩

/-- The part on values, with any holder. -/
def valueKeeper [Machines S C] (c : StrategyConfig) : Role (Holder Other) (World S C P) :=
  ⟨valuePart c, fun _ ↦ True⟩

/-- The part on a text, with any holder. -/
def textKeeper (c : StrategyConfig) (text : String) : Role (Holder Other) (World S C P) :=
  ⟨textPart c text, fun _ ↦ True⟩

/-- The parts of the suite, apart from what their holders remember. -/
def keepers [Machines S C] (c : StrategyConfig) (objects : ObjectCalls) :
    List (Role (Holder Other) (World S C P)) :=
  objectKeeper objects :: valueKeeper c :: c.texts.map (textKeeper c)

/-- No closure is stored after a benchmark that stores one. -/
def Vacates (e : Entry) (_ : Except Fault UInt64) (w : World S C P) : Prop :=
  e.StoresClosure → w.native.dynamicSlot = none

section

variable {c : StrategyConfig} {objects : ObjectCalls} {w₀ : World S C P}

/-- The keepers are those of the parts of the suite. -/
theorem map_part_keepers [Machines S C] :
    (keepers c objects : List (Role (Holder Other) (World S C P))).map Role.part =
      parts c objects := by
  rw [keepers, List.map_cons, List.map_cons, List.map_map]
  rfl

/-- Calls on objects keep custody of them. -/
theorem sustains_objectKeeper :
    (objectKeeper objects : Role (Holder Other) (World S C P)).Sustains
      (Custody w₀ objects.object objects.test) Vacates := by
  rintro name method hmem h w ⟨hobject, htest⟩ hw
  obtain ⟨hobject', htest', hw'⟩ :=
    ObjectCalls.methods_keep _ hmem (h, w) ⟨hobject, htest, hw⟩
  exact ⟨⟨hobject', htest'⟩, hw', fun hstores ↦ absurd hstores (not_storing_objectCalls _ hmem)⟩

/-- Calls with values do not touch the objects, and vacate the slots that they use. -/
theorem sustains_valueKeeper [Machines S C] {object test : Nat} :
    (valueKeeper c : Role (Holder Other) (World S C P)).Sustains
      (Custody w₀ object test) Vacates := by
  intro name method hmem h w _ hw
  exact ⟨trivial, hw.of_aside (ValueCalls.methods_aside hmem (h, w)),
    fun hstores ↦ ValueCalls.methods_vacate _ hmem hstores h w⟩

/-- Calls with texts do not touch the objects or the slots. -/
theorem sustains_textKeeper (text : String) {object test : Nat} :
    (textKeeper c text : Role (Holder Other) (World S C P)).Sustains
      (Custody w₀ object test) Vacates := by
  intro name method hmem h w _ hw
  exact ⟨trivial, hw.of_aside (TextCalls.methods_aside hmem (h, w)),
    fun hstores ↦ absurd hstores (not_storing_textCalls _ hmem)⟩

/-- All parts of the suite keep custody of the objects. -/
theorem sustains_keepers [Machines S C] :
    ∀ role ∈ (keepers c objects : List (Role (Holder Other) (World S C P))),
      role.Sustains (Custody w₀ objects.object objects.test) Vacates := by
  intro role hrole
  rcases List.mem_cons.1 hrole with rfl | hrole
  · exact sustains_objectKeeper
  rcases List.mem_cons.1 hrole with rfl | hrole
  · exact sustains_valueKeeper
  · obtain ⟨text, -, rfl⟩ := List.mem_map.1 hrole
    exact sustains_textKeeper text

/-- No part of the suite is empty. -/
theorem found_of_mem_keepers [Machines S C] {role : Role (Holder Other) (World S C P)}
    (hrole : role ∈ keepers c objects) : role.part.found ≠ [] := by
  rcases List.mem_cons.1 hrole with rfl | hrole
  · exact found_objectPart objects
  rcases List.mem_cons.1 hrole with rfl | hrole
  · exact found_valuePart c
  · obtain ⟨text, -, rfl⟩ := List.mem_map.1 hrole
    exact found_textPart c text

/-- Holders on texts release nothing. -/
theorem eq_of_released_texts {texts : List String} {w w' : World S C P}
    (h : Released (texts.map (textKeeper c) : List (Role (Holder Other) (World S C P))) w w') :
    w' = w := by
  induction texts with
  | nil =>
    cases h
    rfl
  | cons text texts ih =>
    obtain - | ⟨_, _, hrest⟩ := h
    exact ih hrest

/-- The release of the suite: the callback test and the object are released, and callbacks are
forgotten. -/
theorem eq_of_released [Machines S C] {w w' : World S C P}
    (h : Released (keepers c objects : List (Role (Holder Other) (World S C P))) w w') :
    w' = { w with
      thread := { w.thread with native := w.thread.native.clearCallbacks }
      objects := w.objects.release objects.object
      tests := w.tests.drop (some objects.test) } := by
  obtain - | ⟨h, ⟨hobject, htest⟩, - | ⟨_, _, htexts⟩⟩ := h
  rw [eq_of_released_texts htexts, ← hobject, ← htest]
  rfl

end

/-! ### Runs -/

/-- The suite is always built, and then has an object and a callback test in its custody. -/
theorem build_custody [Machines S C] (c : StrategyConfig) {m : Store Other S C P}
    (hobjects : m.world.objects.Tidy) (htests : m.world.tests.objects.Tidy)
    (hcontexts : m.world.tests.contexts.Tidy) :
    ∃ (objects : ObjectCalls) (m' : Store Other S C P),
      (build c).run m =
        (.ok ⟨benchmarksFrom m.families.length (parts c objects : Parts Other S C P)⟩, m') ∧
      objects.object = m.world.objects.issued ∧ objects.test = m.world.tests.objects.issued ∧
      m'.Hosts m.families.length (keepers c objects) ∧
      Custody m.world objects.object objects.test m'.world := by
  refine ⟨_, _, build_of_create m c (ObjectCalls.create_run c.primaryInnerRounds m.world), rfl,
    rfl, ?_, ObjectCalls.custody_create m.world hobjects htests hcontexts⟩
  rw [← map_part_keepers]
  refine Memory.hosts_append _ _ fun role hrole ↦ ?_
  rcases List.mem_cons.1 hrole with rfl | hrole
  · exact ⟨rfl, rfl⟩
  rcases List.mem_cons.1 hrole with rfl | hrole
  · trivial
  · obtain ⟨text, -, rfl⟩ := List.mem_map.1 hrole
    trivial

/-- When all benchmarks of the suite are dropped, what was made for it is released, and no share of
a holder is left. -/
theorem drop_parts [Machines S C] {c : StrategyConfig} {objects : ObjectCalls} {number : Nat}
    {m : Store Other S C P} (h : m.Hosts number (keepers c objects)) :
    let book : Catalog Target := ⟨benchmarksFrom number (parts c objects : Parts Other S C P)⟩
    (book.drop m).world = { m.world with
        thread := { m.world.thread with native := m.world.thread.native.clearCallbacks }
        objects := m.world.objects.release objects.object
        tests := m.world.tests.drop (some objects.test) } ∧
      ∀ b ∈ book.benchmarks, ∃ family, (book.drop m).families[b.action.family]? = some family ∧
        family.shares = 0 := by
  obtain ⟨hreleased, hshares⟩ := h.drop fun _ ↦ found_of_mem_keepers
  rw [map_part_keepers] at hreleased hshares
  refine ⟨eq_of_released hreleased, fun b hb ↦ ?_⟩
  obtain ⟨j, p, hp, hb⟩ := mem_benchmarksFrom hb
  rw [family_of_mem_settled hb]
  have hj : j < (keepers c objects : List (Role (Holder Other) (World S C P))).length := by
    rw [← List.length_map (f := Role.part), map_part_keepers]
    exact (List.getElem?_eq_some_iff.1 hp).1
  obtain ⟨family, hzero, hfamily⟩ := hshares j hj
  exact ⟨family, hfamily, hzero⟩

/-- **A run of the suite leaves nothing behind.** The suite is built in any world, whatever
callbacks are stored there, with an object and a callback test that were not there before. However a
run of it ends, when it is over

* no callback is stored, neither a stateless nor a stateful one;
* no object, no callback test and no context is left that was made for the suite, the older ones are
  there, and no handle was released that held nothing, so each was released once;
* no share of the holder of a benchmark is left.

What is seen in between, after each invocation: the object and the callback test are there, and
after a benchmark that stores a closure, none is stored. -/
theorem run_leaves_nothing [Machines S C] (c : StrategyConfig) {m : Store Other S C P}
    (hobjects : m.world.objects.Tidy) (htests : m.world.tests.objects.Tidy)
    (hcontexts : m.world.tests.contexts.Tidy) :
    ∃ (book : Catalog Target) (m' : Store Other S C P) (object test : Nat),
      (build c).run m = (.ok book, m') ∧
      (m'.world.objects.isLive object ∧ ¬m.world.objects.isLive object) ∧
      (m'.world.tests.objects.isLive test ∧ ¬m.world.tests.objects.isLive test) ∧
      ∀ (T : Type) (runner : Runner) (tick : T → UInt64 × T) (t : T), ∃ r seen final t',
        runner.run (Bench.ofClock tick) book (m', t) = (r, (final, t')) ∧
        runner.run (Bench.watching tick) book (m', [], t) = (r, (final, seen ++ [final], t')) ∧
        (final.world.native.staticSlot = none ∧ final.world.native.dynamicSlot = none) ∧
        (¬final.world.objects.isLive object ∧ m.world.objects.Grown final.world.objects []) ∧
        (¬final.world.tests.objects.isLive test ∧
          m.world.tests.objects.Grown final.world.tests.objects []) ∧
        ((∀ context ≥ m.world.tests.contexts.issued,
            ¬final.world.tests.contexts.isLive context) ∧
          m.world.tests.contexts.Grown final.world.tests.contexts []) ∧
        (∀ b ∈ book.benchmarks, ∃ family, final.families[b.action.family]? = some family ∧
          family.shares = 0) ∧
        (∀ v ∈ seen, v.world.objects.isLive object ∧ v.world.tests.objects.isLive test) ∧
        ∀ k v e, seen[k]? = some v → book.entries[k % book.size]? = some e →
          e.StoresClosure → v.world.native.dynamicSlot = none := by
  obtain ⟨objects, m', hbuild, hobject, htest, hhosts, hcustody⟩ :=
    build_custody c hobjects htests hcontexts
  have hfresh {α : Type} {a : Arena α} (ha : a.Tidy) : ¬a.isLive a.issued :=
    (Arena.Grown.refl ha).not_isLive ha (Nat.le_refl _)
  refine ⟨_, m', objects.object, objects.test, hbuild,
    ⟨hcustody.objects.isLive, hobject ▸ hfresh hobjects⟩,
    ⟨hcustody.tests.isLive, htest ▸ hfresh htests⟩, fun T runner tick t ↦ ?_⟩
  let s : Stage Target (Store Other S C P) :=
    ⟨⟨benchmarksFrom m.families.length (parts c objects : Parts Other S C P)⟩, m'⟩
  obtain ⟨r, k, t', hrun, hwatched⟩ := s.exists_watched_run tick t runner
  have hkeeps : s.catalog.Keeps
      (fun n : Store Other S C P ↦ n.Hosts m.families.length (keepers c objects) ∧
        Custody m.world objects.object objects.test n.world)
      fun e r n ↦ Vacates e r n.world := by
    show Catalog.Keeps ⟨benchmarksFrom _ (parts c objects : Parts Other S C P)⟩ _ _
    rw [← map_part_keepers]
    exact keeps_of_sustains sustains_keepers
  have hstages := Stage.after_of_keeps hkeeps ⟨hhosts, hcustody⟩
  obtain ⟨hhosts', hcustody'⟩ := hstages k
  obtain ⟨hworld, hshares⟩ := drop_parts hhosts'
  obtain ⟨hobjects', htests', hcontexts'⟩ := hcustody'.release
  refine ⟨r, s.seen k, _, t', hrun, hwatched, ?_, ?_, ?_, ?_, hshares, ?_, ?_⟩
  · rw [hworld]
    exact ⟨rfl, rfl⟩
  · rw [hworld]
    exact ⟨hobjects'.not_isLive hobjects hobject.ge, hobjects'⟩
  · rw [hworld]
    exact ⟨htests'.not_isLive htests htest.ge, htests'⟩
  · rw [hworld]
    exact ⟨fun context hcontext ↦ hcontexts'.not_isLive hcontexts hcontext, hcontexts'⟩
  · intro v hv
    obtain ⟨j, -, rfl⟩ := List.mem_map.1 hv
    exact ⟨(hstages (j + 1)).2.objects.isLive, (hstages (j + 1)).2.tests.isLive⟩
  · intro j v e hv he hstores
    obtain ⟨_, -, hvacates⟩ := Stage.reply_of_keeps hkeeps ⟨hhosts, hcustody⟩ he
    rw [s.eq_of_getElem?_seen hv]
    exact hvacates hstores

/-- Callbacks of both kinds are stored, there is an older object, and the text has a zero that makes
benchmarks fail: when a run is over, no callback is stored, and the older object is the only one. -/
theorem run_leaves_nothing_but_older :
    let c : StrategyConfig := { primaryInnerRounds := 3, stringBase := "a\x00b" }
    let w : World Empty Empty Empty :=
      { thread := ⟨{ staticSlot := some (.function id), dynamicSlot := some (.closure, 16) },
          [(16, .function id)]⟩
        objects := (({} : Objects).insert (octetsOf "older")).2 }
    ∃ (book : Catalog Target) (m : Store (nofun : Empty → Type) Empty Empty Empty),
      (build c).run { world := w } = (.ok book, m) ∧
      ∀ (runner : Runner) (tick : Unit → UInt64 × Unit), ∃ r final,
        runner.run (Bench.ofClock tick) book (m, ()) = (r, (final, ())) ∧
        final.world.native.staticSlot = none ∧ final.world.native.dynamicSlot = none ∧
        final.world.objects.handles.Perm [0] ∧ final.world.tests.objects.handles.Perm [] := by
  intro c w
  have hobjects : w.objects.Tidy := Arena.tidy_empty.insert _
  obtain ⟨book, m, object, test, hbuild, -, -, hruns⟩ :=
    run_leaves_nothing (m := (⟨[], w⟩ : Store (nofun : Empty → Type) Empty Empty Empty)) c
      hobjects Arena.tidy_empty Arena.tidy_empty
  refine ⟨book, m, hbuild, fun runner tick ↦ ?_⟩
  obtain ⟨r, _, final, _, hrun, -, ⟨hstatic, hdynamic⟩, ⟨-, hobjects'⟩, ⟨-, htests'⟩, -⟩ :=
    hruns Unit runner tick ()
  exact ⟨r, final, hrun, hstatic, hdynamic, hobjects'.handles_perm, htests'.handles_perm⟩

end Suite

end Crossing
