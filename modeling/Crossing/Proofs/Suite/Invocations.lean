import Crossing.Proofs.Config.Rules
import Crossing.Proofs.Runner.Steady
import Crossing.Proofs.Strategy.ObjectCalls
import Crossing.Proofs.Strategy.TextCalls
import Crossing.Proofs.Strategy.ValueCalls
import Crossing.Proofs.Suite.Assembly

/-!
# Invocations of the suite

The catalogue of a configuration that was accepted is steady: whatever was invoked before, each
benchmark replies with the rounds that are configured for its tier. There is one exception. The
rules let a zero into the text that strategies carry, and the two benchmarks that copy octets and
end them with a zero cannot carry such a text; they fail whenever they are invoked. So a run of the
catalogue has records exactly if there is no zero in the text.
-/

namespace Crossing

open Text (nul)
open Strategy

/-- The benchmark copies octets and ends them with a zero. -/
def Entry.CopiesText (e : Entry) : Prop := methodMarker ++ e.name.text ∈ TextCalls.copying

instance (e : Entry) : Decidable e.CopiesText := inferInstanceAs (Decidable (_ ∈ _))

namespace StrategyConfig

/-- The rounds that are configured for the tier of an entry. -/
def innerRounds (c : StrategyConfig) (e : Entry) : UInt64 :=
  if e.isPrimary then c.primaryInnerRounds else c.boundaryInnerRounds

/-- What the benchmark with an entry replies. -/
def reply (c : StrategyConfig) (e : Entry) : Except Fault UInt64 :=
  if nul ∈ c.stringBase.toList ∧ e.CopiesText then .error TextCalls.unfit
  else .ok (c.innerRounds e)

section

variable {c : StrategyConfig} {name : TestName} {category : Option Category} {isPrimary : Bool}

/-- A strategy that copies a text with NUL in it fails. -/
theorem reply_of_fails
    (h : nul ∈ c.stringBase.toList ∧ methodMarker ++ name.text ∈ TextCalls.copying) :
    c.reply ⟨name, category, isPrimary⟩ = .error TextCalls.unfit :=
  if_pos h

/-- All others reply with the rounds of their tier. -/
theorem reply_of_not_fails
    (h : ¬(nul ∈ c.stringBase.toList ∧ methodMarker ++ name.text ∈ TextCalls.copying)) :
    c.reply ⟨name, category, isPrimary⟩ =
      .ok (if isPrimary then c.primaryInnerRounds else c.boundaryInnerRounds) :=
  if_neg h

end

variable {c : StrategyConfig}

/-- A configuration that was checked asks for a round at least. -/
theorem Sound.innerRounds_ne_zero (hc : c.Sound) (e : Entry) : c.innerRounds e ≠ 0 := by
  rw [innerRounds]
  split
  · exact hc.primaryInnerRounds
  · exact hc.boundaryInnerRounds

/-- What a benchmark replies is counted as it is, or is the failure of a copy. -/
theorem Sound.map_outcome_reply (hc : c.Sound) (e : Entry) :
    (e.outcome (c.reply e)).map IterationCount.count =
      if nul ∈ c.stringBase.toList ∧ e.CopiesText then
        .error (.invocation e.name.text TextCalls.unfit)
      else .ok (c.innerRounds e) := by
  rw [reply]
  split
  · rfl
  · rw [Entry.outcome, IterationCount.ofUInt64?, dif_pos (hc.innerRounds_ne_zero e)]
    rfl

/-- Texts have a zero exactly if the base has. -/
theorem Sound.nul_mem_iff (hc : c.Sound) {text : String} (htext : text ∈ c.texts) :
    nul ∈ text.toList ↔ nul ∈ c.stringBase.toList := by
  obtain ⟨r, hr, rfl⟩ := List.mem_map.1 htext
  have hpos : r.toNat ≠ 0 := fun h ↦ hc.repeats_positive r hr (UInt64.toNat.inj h)
  rw [String.toList_ofList, List.mem_flatten]
  constructor
  · rintro ⟨cs, hcs, hnul⟩
    rwa [← (List.mem_replicate.1 hcs).2]
  · intro hnul
    exact ⟨_, List.mem_replicate.2 ⟨hpos, rfl⟩, hnul⟩

end StrategyConfig

namespace Suite

open Boundary

/-! ### Steady parts -/

section

variable {S C P K : Type} {Other : K → Type} {c : StrategyConfig} {objects : ObjectCalls}

/-- No call on objects copies a text. -/
theorem not_copying_objectCalls :
    ∀ p ∈ (ObjectCalls.methods : List (String × ObjectCalls.Task S C P UInt64)),
      p.1 ∉ TextCalls.copying := by
  have hnames : ∀ m ∈ (ObjectCalls.methods :
      List (String × ObjectCalls.Task Empty Empty Empty UInt64)).map Prod.fst,
      m ∉ TextCalls.copying := by decide +kernel
  exact fun p hp ↦ hnames p.1 (List.mem_map_of_mem hp)

theorem not_copying_valueCalls [Machines S C] :
    ∀ p ∈ (ValueCalls.methods : List (String × ValueCalls.Task S C P UInt64)),
      p.1 ∉ TextCalls.copying := by
  have hnames : ∀ m ∈ (ValueCalls.methods :
      List (String × ValueCalls.Task Empty Empty Empty UInt64)).map Prod.fst,
      m ∉ TextCalls.copying := by decide +kernel
  exact fun p hp ↦ hnames p.1 (List.mem_map_of_mem hp)

/-- The part on objects works on one object and one callback test all the time. -/
def objectRole (objects : ObjectCalls) : Role (Holder Other) (World S C P) :=
  ⟨objectPart objects, ObjectCalls.Same objects⟩

/-- The part on values makes the same number of rounds all the time. -/
def valueRole [Machines S C] (c : StrategyConfig) : Role (Holder Other) (World S C P) :=
  ⟨valuePart c, fun h : ValueCalls ↦ h.rounds = c.boundaryInnerRounds⟩

/-- The part on a text keeps its text, and makes the same number of rounds all the time. -/
def textRole (c : StrategyConfig) (text : String) : Role (Holder Other) (World S C P) :=
  ⟨textPart c text, fun h : TextCalls ↦ h.text = text ∧ h.rounds = c.boundaryInnerRounds⟩

/-- The parts of the suite, and what their replies depend on. -/
def roles [Machines S C] (c : StrategyConfig) (objects : ObjectCalls) :
    List (Role (Holder Other) (World S C P)) :=
  objectRole objects :: valueRole c :: c.texts.map (textRole c)

/-- The roles are those of the parts of the suite. -/
theorem map_part_roles [Machines S C] :
    (roles c objects : List (Role (Holder Other) (World S C P))).map Role.part =
      parts c objects := by
  rw [roles, List.map_cons, List.map_cons, List.map_map]
  rfl

/-- What a benchmark replies is what its entry says. -/
def Replies (c : StrategyConfig) (e : Entry) (r : Except Fault UInt64) (_ : World S C P) : Prop :=
  r = c.reply e

/-- Calls on objects reply with their rounds, and leave the objects ready. -/
theorem sustains_objectRole (hrounds : objects.rounds = c.primaryInnerRounds) :
    (objectRole objects : Role (Holder Other) (World S C P)).Sustains
      (ObjectCalls.Ready objects.object objects.test) (Replies c) := by
  rintro name method hmem h w ⟨hr, ho, ht⟩ hw
  have hready : ObjectCalls.Ready h.object h.test w := by rwa [ho, ht]
  obtain ⟨n, ⟨h', w'⟩, hrun, hn, ⟨hr', ho', ht'⟩, hw'⟩ :=
    ObjectCalls.methods_yield _ hmem h w hready
  have hreply : c.reply ⟨name, none, true⟩ = .ok n := by
    rw [StrategyConfig.reply_of_not_fails fun h ↦ not_copying_objectCalls _ hmem h.2, if_pos rfl,
      hn, hr, hrounds]
  have hrun : method.run (h, w) = (.ok n, (h', w')) := hrun
  rw [hrun]
  refine ⟨⟨hr'.trans hr, ho'.trans ho, ht'.trans ht⟩, ?_, hreply.symm⟩
  rwa [ho, ht] at hw'

/-- Calls with values reply with their rounds, and leave the objects alone. -/
theorem sustains_valueRole [Machines S C] {object test : Nat} :
    (valueRole c : Role (Holder Other) (World S C P)).Sustains
      (ObjectCalls.Ready object test) (Replies c) := by
  intro name method hmem h w hr hw
  obtain ⟨n, ⟨h', w'⟩, hrun, hn, hr', haside⟩ := ValueCalls.methods_yield _ hmem h w
  have hreply : c.reply ⟨name, some valueHeading, false⟩ = .ok n := by
    rw [StrategyConfig.reply_of_not_fails fun h ↦ not_copying_valueCalls _ hmem h.2,
      if_neg Bool.false_ne_true, hn]
    exact congrArg Except.ok hr.symm
  have hrun : method.run (h, w) = (.ok n, (h', w')) := hrun
  rw [hrun]
  -- no callback of this part gets at the object and the test that the first part works on
  exact ⟨hr'.trans hr, hw.of_aside haside, hreply.symm⟩

/-- Calls with texts reply with their rounds unless they copy a NUL, and leave the objects alone. -/
theorem sustains_textRole (hc : c.Sound) {text : String} (htext : text ∈ c.texts)
    {object test : Nat} :
    (textRole c text : Role (Holder Other) (World S C P)).Sustains
      (ObjectCalls.Ready object test) (Replies c) := by
  have hnul := hc.nul_mem_iff htext
  rintro name method hmem (h : TextCalls) w ⟨ht, hr⟩ hw
  rw [← ht] at hnul
  -- a copy that fails does so in its first round, before anything has crossed the boundary
  by_cases hfail : nul ∈ c.stringBase.toList ∧ methodMarker ++ name.text ∈ TextCalls.copying
  · have hrounds : h.rounds ≠ 0 := by
      rw [hr]
      exact hc.boundaryInnerRounds
    have hrun : method.run (h, w) = (.error TextCalls.unfit, (h, w)) :=
      TextCalls.methods_fail (s := (h, w)) hmem hfail.2 (hnul.2 hfail.1) hrounds
    rw [hrun]
    exact ⟨⟨ht, hr⟩, hw, (StrategyConfig.reply_of_fails hfail).symm⟩
  · obtain ⟨n, ⟨h', w'⟩, hrun, hn, ht', hr', haside⟩ :=
      TextCalls.methods_yield (s := (h, w)) hmem fun h hcopying ↦ hfail ⟨hnul.1 h, hcopying⟩
    have hrun : method.run (h, w) = (.ok n, (h', w')) := hrun
    have hrounds : n = c.boundaryInnerRounds := hn.trans hr
    have hreply : c.reply ⟨name, (textPart c text : Part (Holder Other) (World S C P)).category,
        false⟩ = .ok n := by
      rw [StrategyConfig.reply_of_not_fails hfail, if_neg Bool.false_ne_true, hrounds]
    rw [hrun]
    exact ⟨⟨ht'.trans ht, hr'.trans hr⟩, hw.of_aside haside, hreply.symm⟩

/-- All parts of the suite sustain their roles, and leave the objects ready for each other. -/
theorem sustains_roles [Machines S C] (hc : c.Sound)
    (hrounds : objects.rounds = c.primaryInnerRounds) :
    ∀ role ∈ (roles c objects : List (Role (Holder Other) (World S C P))),
      role.Sustains (ObjectCalls.Ready objects.object objects.test) (Replies c) := by
  intro role hrole
  rcases List.mem_cons.1 hrole with rfl | hrole
  · exact sustains_objectRole hrounds
  rcases List.mem_cons.1 hrole with rfl | hrole
  · exact sustains_valueRole
  · obtain ⟨text, htext, rfl⟩ := List.mem_map.1 hrole
    exact sustains_textRole hc htext

/-- What holds of memory as long as nothing but benchmarks of the suite is invoked: the families of
the suite are there from a number on, and so is what they work on. -/
def Prepared [Machines S C] (c : StrategyConfig) (objects : ObjectCalls) (number : Nat)
    (m : Store Other S C P) : Prop :=
  m.Hosts number (roles c objects) ∧ ObjectCalls.Ready objects.object objects.test m.world

/-- **The catalogue of the suite is steady.** -/
theorem steady_parts [Machines S C] (hc : c.Sound)
    (hrounds : objects.rounds = c.primaryInnerRounds) (number : Nat) :
    Catalog.Steady ⟨benchmarksFrom number (parts c objects : Parts Other S C P)⟩
      (Prepared c objects number : Store Other S C P → Prop) c.reply := by
  rw [← map_part_roles]
  exact keeps_of_sustains (sustains_roles hc hrounds)

/-! ### The suite as it is built -/

/-- The suite is always built, and is prepared then. -/
theorem build_eq [Machines S C] (c : StrategyConfig) (m : Store Other S C P) :
    ∃ objects m', (build c).run m =
        (.ok ⟨benchmarksFrom m.families.length (parts c objects : Parts Other S C P)⟩, m') ∧
      objects.rounds = c.primaryInnerRounds ∧ Prepared c objects m.families.length m' := by
  obtain ⟨objects, w, hcreate, hrounds, hready⟩ :=
    ObjectCalls.create_ready c.primaryInnerRounds m.world
  refine ⟨objects, _, build_of_create m c hcreate, hrounds, ?_, hready⟩
  rw [← map_part_roles]
  refine Memory.hosts_append _ _ fun role hrole ↦ ?_
  rcases List.mem_cons.1 hrole with rfl | hrole
  · exact ⟨rfl, rfl, rfl⟩
  rcases List.mem_cons.1 hrole with rfl | hrole
  · rfl
  · obtain ⟨text, -, rfl⟩ := List.mem_map.1 hrole
    exact ⟨rfl, rfl⟩

/-- The name of one of the benchmarks that copy octets. -/
def narrowCopy : TestName := ⟨"param_string_narrow_copy", by decide⟩

/-- In each suite, there is a strategy that copies a text. -/
theorem exists_narrowCopy_mem_entries [Machines S C] (hc : c.Sound) (number : Nat) :
    ∃ category, ⟨narrowCopy, category, false⟩ ∈
      Catalog.entries ⟨benchmarksFrom number (parts c objects : Parts Other S C P)⟩ := by
  have hname : methodMarker ++ narrowCopy.text = "test_param_string_narrow_copy" := by decide
  have hmethod : (methodMarker ++ narrowCopy.text, TextCalls.paramNarrowCopy) ∈
      (TextCalls.methods : List (String × TextCalls.Task S C P UInt64)) := by
    rw [hname]
    exact List.mem_cons_of_mem _ List.mem_cons_self
  have htexts : c.texts ≠ [] := fun h ↦ hc.repeats_nonempty (List.map_eq_nil_iff.1 h)
  obtain ⟨text, htext⟩ := List.exists_mem_of_ne_nil c.texts htexts
  have hpart : textPart c text ∈ (parts c objects : Parts Other S C P) :=
    List.mem_cons_of_mem _ (List.mem_cons_of_mem _ (List.mem_map_of_mem htext))
  rw [entries_benchmarksFrom]
  exact ⟨_, List.mem_flatMap.2 ⟨_, hpart,
    List.mem_map_of_mem (mem_tagged.2 ⟨narrowCopy, _, hmethod, rfl⟩)⟩⟩

theorem copiesText_narrowCopy (category : Option Category) (isPrimary : Bool) :
    Entry.CopiesText ⟨narrowCopy, category, isPrimary⟩ := by
  show methodMarker ++ narrowCopy.text ∈ TextCalls.copying
  decide

/-- No benchmark fails exactly if there is no zero in the text. -/
theorem forall_reply_iff [Machines S C] (hc : c.Sound) (number : Nat) :
    (∀ e ∈ Catalog.entries ⟨benchmarksFrom number (parts c objects : Parts Other S C P)⟩,
      ∃ n, c.reply e = .ok n ∧ n ≠ 0) ↔ nul ∉ c.stringBase.toList := by
  constructor
  · intro h hnul
    obtain ⟨category, hmem⟩ := exists_narrowCopy_mem_entries (S := S) (C := C) hc number
    obtain ⟨n, hn, -⟩ := h _ hmem
    rw [StrategyConfig.reply_of_fails ⟨hnul, copiesText_narrowCopy category false⟩] at hn
    cases hn
  · intro hnul e _
    exact ⟨c.innerRounds e, if_neg fun h ↦ hnul h.1, hc.innerRounds_ne_zero e⟩

/-- A part of a configuration that can be evaluated tells that there is one. -/
theorem exists_config_of_map {α : Type} (f : Config → α) (text : String) (a : α)
    (h : (Config.ofText text).toOption.map f = some a) :
    ∃ config, Config.ofText text = .ok config ∧ f config = a := by
  rcases hconfig : Config.ofText text with e | config
  · rw [hconfig] at h
    cases h
  · rw [hconfig] at h
    exact ⟨config, rfl, Option.some.inj h⟩

theorem exists_config_of_base (text base : String)
    (h : (Config.ofText text).toOption.map (·.strategies.stringBase) = some base) :
    ∃ config, Config.ofText text = .ok config ∧ config.strategies.stringBase = base :=
  exists_config_of_map (·.strategies.stringBase) text base h

/-- **The suite replies alike in any order.** For each configuration that is accepted there is a
catalogue. However its benchmarks are invoked, each comes to the rounds of its tier, but for those
that copy a text in which there is a zero. So a run has records exactly if there is none. -/
theorem build_replies_in_any_order [Machines S C] {text : String} {config : Config}
    (haccepted : Config.ofText text = .ok config) (m : Store Other S C P) :
    ∃ (book : Catalog Target) (m' : Store Other S C P),
      (build config.strategies).run m = (.ok book, m') ∧
      (∀ is : List Nat, (book.invokeEach m' is).map (·.map (·.map IterationCount.count)) =
        is.map fun i ↦ book.entries[i]?.map fun e ↦
          if nul ∈ config.strategies.stringBase.toList ∧ e.CopiesText then
            .error (.invocation e.name.text TextCalls.unfit)
          else .ok (config.strategies.innerRounds e)) ∧
      ∀ (T : Type) (runner : Runner) (tick : T → UInt64 × T) (t : T),
        (∃ records, (runner.run (Bench.ofClock tick) book (m', t)).1 = .ok records) ↔
          nul ∉ config.strategies.stringBase.toList := by
  have hsound : config.strategies.Sound := Config.sound_of_ofText haccepted
  obtain ⟨objects, m', hbuild, hrounds, hprepared⟩ := build_eq config.strategies m
  have hsteady : Catalog.Steady _ (Prepared config.strategies objects m.families.length :
      Store Other S C P → Prop) _ := steady_parts hsound hrounds _
  refine ⟨_, m', hbuild, fun is ↦ ?_, fun T runner tick t ↦ ?_⟩
  · rw [hsteady.invokeEach hprepared, List.map_map]
    refine List.map_congr_left fun i _ ↦ ?_
    rw [Function.comp_apply, Option.map_map]
    refine congrArg (Option.map · _) (funext fun e ↦ ?_)
    exact hsound.map_outcome_reply e
  · rw [hsteady.exists_records_iff hprepared, forall_reply_iff hsound]

end

/-- A text with a blank in it and two repeats is accepted, and no run of its catalogue fails. -/
theorem build_replies_spaced_text :
    ∃ config, Config.ofText
        "strategies:\n  primary_inner_rounds: 7\n  string_base: a b\n  string_repeats: [3, 1]\n" =
        .ok config ∧ config.strategies.stringBase = "a b" ∧
      ∃ (book : Catalog Target) (m : Store (nofun : Empty → Type) Empty Empty Empty),
        (build config.strategies).run { world := {} } = (.ok book, m) ∧
        ∀ (runner : Runner) (tick : Unit → UInt64 × Unit),
          ∃ records, (runner.run (Bench.ofClock tick) book (m, ())).1 = .ok records := by
  obtain ⟨config, hconfig, hbase⟩ := exists_config_of_base
    "strategies:\n  primary_inner_rounds: 7\n  string_base: a b\n  string_repeats: [3, 1]\n" "a b"
    (by decide +kernel)
  obtain ⟨book, m, hbuild, -, hrun⟩ := build_replies_in_any_order hconfig
    ({ world := {} } : Store (nofun : Empty → Type) Empty Empty Empty)
  have hnul : nul ∉ config.strategies.stringBase.toList := by
    rw [hbase]
    decide
  exact ⟨config, hconfig, hbase, book, m, hbuild, fun runner tick ↦
    (hrun Unit runner tick ()).2 hnul⟩

/-- A text with a zero in it is accepted too, but one of the benchmarks of its catalogue fails, and
with it each run. -/
theorem build_fails_on_nul :
    ∃ config, Config.ofText
        "strategies:\n  boundary_inner_rounds: 1\n  string_base: \"a\\0b\"\n  string_repeats: [1]" =
        .ok config ∧
      ∃ (book : Catalog Target) (m : Store (nofun : Empty → Type) Empty Empty Empty),
        (build config.strategies).run { world := {} } = (.ok book, m) ∧
        (∃ i, book.invokeEach m [i] =
          [some (.error (.invocation "param_string_narrow_copy" TextCalls.unfit))]) ∧
        ∀ (runner : Runner) (tick : Unit → UInt64 × Unit),
          ¬∃ records, (runner.run (Bench.ofClock tick) book (m, ())).1 = .ok records := by
  obtain ⟨config, hconfig, hbase⟩ := exists_config_of_base
    "strategies:\n  boundary_inner_rounds: 1\n  string_base: \"a\\0b\"\n  string_repeats: [1]"
    "a\x00b" (by decide +kernel)
  have hsound : config.strategies.Sound := Config.sound_of_ofText hconfig
  have hnul : nul ∈ config.strategies.stringBase.toList := by
    rw [hbase]
    decide
  obtain ⟨objects, m, hbuild, hrounds, hprepared⟩ := build_eq config.strategies
    ({ world := {} } : Store (nofun : Empty → Type) Empty Empty Empty)
  have hsteady : Catalog.Steady _ (Prepared config.strategies objects 0 :
      Store (nofun : Empty → Type) Empty Empty Empty → Prop) _ := steady_parts hsound hrounds 0
  refine ⟨config, hconfig, _, m, hbuild, ?_, fun runner tick ↦ ?_⟩
  · obtain ⟨category, hmem⟩ := exists_narrowCopy_mem_entries (S := Empty) (C := Empty) hsound 0
    obtain ⟨i, hi⟩ := List.mem_iff_getElem?.1 hmem
    refine ⟨i, ?_⟩
    refine (hsteady.invokeEach hprepared [i]).trans ?_
    rw [List.map_singleton, hi, Option.map_some,
      StrategyConfig.reply_of_fails ⟨hnul, copiesText_narrowCopy category false⟩]
    rfl
  · intro h
    have hreplies := (hsteady.exists_records_iff hprepared runner tick ()).1 h
    exact (forall_reply_iff hsound 0).1 hreplies hnul

end Suite

end Crossing
