import Crossing.Proofs.Config.Sections

/-!
# What a document gives to the fields

A configuration document is a mapping of sections, each a mapping of fields. It describes a draft
(`Describes`): each setting is what its field reads of the value that the document gives to it, or
else its default. A document is read as the draft that it describes, and cannot be read if it
describes none (`fill_sections_iff_describes`). So what it is loaded as does not depend on the order
of sections and fields, nor on whether a default is written down or left out.

A key that is unknown at its level or comes twice spoils the document, whatever the other values
are, since keys are looked at before any value is checked.

Main statement: `Config.ofText_by_values`.
-/

namespace Crossing.Config

open Yaml (Node Reader fill named Gives)

/-- A document gives a value to a field of a section. -/
def Given (es : List (Node × Node)) (name field : String) (v : Node) : Prop :=
  ∃ e ∈ fieldsOf es name, e.1.name? = some field ∧ e.2 = v

/-- A document is another one with its sections, and the fields of each, in another order. -/
def Rearranged (es es' : List (Node × Node)) : Prop :=
  ∃ mid, List.Forall₂ (fun e e' ↦ e'.1 = e.1 ∧ ∃ tag fs fs', e.2 = .mapping tag fs ∧
    e'.2 = .mapping tag fs' ∧ fs.Perm fs') es mid ∧ mid.Perm es'

/-- A key has none of some names, or the name of another entry. -/
def Spoils (names : List String) (key : Node) (others : List (Node × Node)) : Prop :=
  (∀ name ∈ names, key.name? ≠ some name) ∨ ∃ e ∈ others, e.1.name? = key.name?

/-- A setting of a configuration: its section and field, how a value for it is read, what it is if
it is not given, and where a draft has it. -/
structure Setting (α : Type) where
  home : String
  field : String
  reader : Yaml.Path → Reader α
  default : α
  get : Draft → α

/-- The settings of a configuration. -/
def settings : List (Sigma Setting) :=
  [ ⟨_, "runner", "outer_rounds", fun _ ↦ Yaml.readUInt64 "u64", 100, (·.runner.outerRounds)⟩,
    ⟨_, "runner", "warmup_rounds", fun _ ↦ Yaml.readUInt64 "u64", 0, (·.runner.warmupRounds)⟩,
    ⟨_, "runner", "result_file", fun _ ↦ Yaml.readText "a string", "perf_test_result.txt",
      (·.runner.resultFile)⟩,
    ⟨_, "runner", "json_summary", (Yaml.readOptionalText · "a string"), none,
      (·.runner.jsonSummary)⟩,
    ⟨_, "strategies", "primary_inner_rounds", fun _ ↦ Yaml.readUInt64 "u64", 10000,
      (·.strategies.primaryInnerRounds)⟩,
    ⟨_, "strategies", "boundary_inner_rounds", fun _ ↦ Yaml.readUInt64 "u64", 1000,
      (·.strategies.boundaryInnerRounds)⟩,
    ⟨_, "strategies", "string_base", fun _ ↦ Yaml.readText "a string", "abcde12345",
      (·.strategies.stringBase)⟩,
    ⟨_, "strategies", "string_repeats", fun _ ↦ Yaml.readSequence (Yaml.readUInt64 "usize"),
      [1, 100], (·.strategies.stringRepeats)⟩,
    ⟨_, "strategies", "buffer_capacity", fun _ ↦ Yaml.readUInt64 "usize", 16384,
      (·.strategies.bufferCapacity)⟩ ]

/-- A value is read as `a` where it is given to a setting. -/
def Setting.ReadAs {α : Type} (s : Setting α) (v : Node) (a : α) : Prop :=
  (s.reader (.field .root s.home)).on v (.field (.field .root s.home) s.field) = .ok a

/-- A document tells that a setting is `a`: it gives a value that is read so, or it gives none and
`a` is the default. -/
def Setting.Tells {α : Type} (s : Setting α) (es : List (Node × Node)) (a : α) : Prop :=
  (∃ v, Given es s.home s.field v ∧ s.ReadAs v a) ∨
    (∀ v, ¬Given es s.home s.field v) ∧ a = s.default

/-- A document describes a draft: it tells what each setting is. -/
def Describes (es : List (Node × Node)) (d : Draft) : Prop :=
  ∀ s ∈ settings, s.2.Tells es (s.2.get d)

/-- A value is read as the default of a field of a section. -/
def SpellsDefault (name field : String) (v : Node) : Prop :=
  ∃ s ∈ settings, s.2.home = name ∧ s.2.field = field ∧ s.2.ReadAs v s.2.default

/-- Two loads have the same outcome, up to what is said about a document that cannot be read. -/
def Alike (x y : Except Error Config) : Prop :=
  x = y ∨ ∃ i j, x = .error (.configParse i) ∧ y = .error (.configParse j)

variable {text text' : String} {tag tag' : Option Yaml.Tag} {es es' : List (Node × Node)}

/-! ### Settings -/

/-- A setting sits in a section of the draft: its field sets a part of the section, and the blank
section has the default there. -/
structure Setting.Sits {α σ : Type} (s : Setting α) (home : String) (fields : List (Yaml.Field σ))
    (sectionOf : Draft → σ) (blank : σ) (set : α → σ → σ) (get : σ → α) : Prop where
  home_eq : s.home = home
  part : Yaml.Part fields s.field s.reader set get
  get_eq : ∀ d, s.get d = get (sectionOf d)
  get_blank : get blank = s.default

/-- A part of the section is left alone by all fields but its own, if it is by each of the four. -/
theorem leaves_runner {α : Type} {name : String} {get : RunnerDraft → α}
    (houter : name = "outer_rounds" ∨ ∀ x r, get { r with outerRounds := x } = get r)
    (hwarmup : name = "warmup_rounds" ∨ ∀ x r, get { r with warmupRounds := x } = get r)
    (hresult : name = "result_file" ∨ ∀ x r, get { r with resultFile := x } = get r)
    (hsummary : name = "json_summary" ∨ ∀ x r, get { r with jsonSummary := x } = get r) :
    ∀ f ∈ runnerFields, f.name ≠ name → f.Leaves get := by
  simp only [runnerFields_eq, List.forall_mem_cons]
  exact ⟨fun hne ↦ Yaml.leaves_setting (houter.resolve_left hne.symm),
    fun hne ↦ Yaml.leaves_setting (hwarmup.resolve_left hne.symm),
    fun hne ↦ Yaml.leaves_setting (hresult.resolve_left hne.symm),
    fun hne ↦ Yaml.leaves_setting (hsummary.resolve_left hne.symm), List.forall_mem_nil _⟩

theorem leaves_strategy {α : Type} {name : String} {get : StrategyConfig → α}
    (hprimary : name = "primary_inner_rounds" ∨
      ∀ x s, get { s with primaryInnerRounds := x } = get s)
    (hboundary : name = "boundary_inner_rounds" ∨
      ∀ x s, get { s with boundaryInnerRounds := x } = get s)
    (hbase : name = "string_base" ∨ ∀ x s, get { s with stringBase := x } = get s)
    (hrepeats : name = "string_repeats" ∨ ∀ x s, get { s with stringRepeats := x } = get s)
    (hcapacity : name = "buffer_capacity" ∨ ∀ x s, get { s with bufferCapacity := x } = get s) :
    ∀ f ∈ strategyFields, f.name ≠ name → f.Leaves get := by
  simp only [strategyFields_eq, List.forall_mem_cons]
  exact ⟨fun hne ↦ Yaml.leaves_setting (hprimary.resolve_left hne.symm),
    fun hne ↦ Yaml.leaves_setting (hboundary.resolve_left hne.symm),
    fun hne ↦ Yaml.leaves_setting (hbase.resolve_left hne.symm),
    fun hne ↦ Yaml.leaves_setting (hrepeats.resolve_left hne.symm),
    fun hne ↦ Yaml.leaves_setting (hcapacity.resolve_left hne.symm), List.forall_mem_nil _⟩

/-- Each setting sits in one of the two sections. -/
theorem settings_sit : ∀ s ∈ settings,
    (∃ set get, s.2.Sits "runner" runnerFields Draft.runner {} set get) ∨
    ∃ set get, s.2.Sits "strategies" strategyFields Draft.strategies {} set get := by
  simp only [settings, List.forall_mem_cons]
  refine ⟨.inl ⟨fun v r ↦ { r with outerRounds := v }, RunnerDraft.outerRounds, rfl,
      ⟨rfl, fun _ _ ↦ rfl, fun _ ↦ rfl, ?_⟩, fun _ ↦ rfl, rfl⟩,
    .inl ⟨fun v r ↦ { r with warmupRounds := v }, RunnerDraft.warmupRounds, rfl,
      ⟨rfl, fun _ _ ↦ rfl, fun _ ↦ rfl, ?_⟩, fun _ ↦ rfl, rfl⟩,
    .inl ⟨fun v r ↦ { r with resultFile := v }, RunnerDraft.resultFile, rfl,
      ⟨rfl, fun _ _ ↦ rfl, fun _ ↦ rfl, ?_⟩, fun _ ↦ rfl, rfl⟩,
    .inl ⟨fun v r ↦ { r with jsonSummary := v }, RunnerDraft.jsonSummary, rfl,
      ⟨rfl, fun _ _ ↦ rfl, fun _ ↦ rfl, ?_⟩, fun _ ↦ rfl, rfl⟩,
    .inr ⟨fun v s ↦ { s with primaryInnerRounds := v }, StrategyConfig.primaryInnerRounds, rfl,
      ⟨rfl, fun _ _ ↦ rfl, fun _ ↦ rfl, ?_⟩, fun _ ↦ rfl, rfl⟩,
    .inr ⟨fun v s ↦ { s with boundaryInnerRounds := v }, StrategyConfig.boundaryInnerRounds, rfl,
      ⟨rfl, fun _ _ ↦ rfl, fun _ ↦ rfl, ?_⟩, fun _ ↦ rfl, rfl⟩,
    .inr ⟨fun v s ↦ { s with stringBase := v }, StrategyConfig.stringBase, rfl,
      ⟨rfl, fun _ _ ↦ rfl, fun _ ↦ rfl, ?_⟩, fun _ ↦ rfl, rfl⟩,
    .inr ⟨fun v s ↦ { s with stringRepeats := v }, StrategyConfig.stringRepeats, rfl,
      ⟨rfl, fun _ _ ↦ rfl, fun _ ↦ rfl, ?_⟩, fun _ ↦ rfl, rfl⟩,
    .inr ⟨fun v s ↦ { s with bufferCapacity := v }, StrategyConfig.bufferCapacity, rfl,
      ⟨rfl, fun _ _ ↦ rfl, fun _ ↦ rfl, ?_⟩, fun _ ↦ rfl, rfl⟩,
    List.forall_mem_nil _⟩
  · exact leaves_runner (.inl rfl) (.inr fun _ _ ↦ rfl) (.inr fun _ _ ↦ rfl) (.inr fun _ _ ↦ rfl)
  · exact leaves_runner (.inr fun _ _ ↦ rfl) (.inl rfl) (.inr fun _ _ ↦ rfl) (.inr fun _ _ ↦ rfl)
  · exact leaves_runner (.inr fun _ _ ↦ rfl) (.inr fun _ _ ↦ rfl) (.inl rfl) (.inr fun _ _ ↦ rfl)
  · exact leaves_runner (.inr fun _ _ ↦ rfl) (.inr fun _ _ ↦ rfl) (.inr fun _ _ ↦ rfl) (.inl rfl)
  · exact leaves_strategy (.inl rfl) (.inr fun _ _ ↦ rfl) (.inr fun _ _ ↦ rfl)
      (.inr fun _ _ ↦ rfl) (.inr fun _ _ ↦ rfl)
  · exact leaves_strategy (.inr fun _ _ ↦ rfl) (.inl rfl) (.inr fun _ _ ↦ rfl)
      (.inr fun _ _ ↦ rfl) (.inr fun _ _ ↦ rfl)
  · exact leaves_strategy (.inr fun _ _ ↦ rfl) (.inr fun _ _ ↦ rfl) (.inl rfl)
      (.inr fun _ _ ↦ rfl) (.inr fun _ _ ↦ rfl)
  · exact leaves_strategy (.inr fun _ _ ↦ rfl) (.inr fun _ _ ↦ rfl) (.inr fun _ _ ↦ rfl)
      (.inl rfl) (.inr fun _ _ ↦ rfl)
  · exact leaves_strategy (.inr fun _ _ ↦ rfl) (.inr fun _ _ ↦ rfl) (.inr fun _ _ ↦ rfl)
      (.inr fun _ _ ↦ rfl) (.inl rfl)

/-- A setting of the `runner` section sits in it. -/
theorem sits_runner {s : Sigma Setting} (hs : s ∈ settings) (hhome : s.2.home = "runner") :
    ∃ set get, s.2.Sits "runner" runnerFields Draft.runner {} set get := by
  rcases settings_sit s hs with hsits | ⟨set, get, hsits⟩
  · exact hsits
  · exact absurd (hhome.symm.trans hsits.home_eq) (by decide)

theorem sits_strategies {s : Sigma Setting} (hs : s ∈ settings) (hhome : s.2.home = "strategies") :
    ∃ set get, s.2.Sits "strategies" strategyFields Draft.strategies {} set get := by
  rcases settings_sit s hs with ⟨set, get, hsits⟩ | hsits
  · exact absurd (hhome.symm.trans hsits.home_eq) (by decide)
  · exact hsits

/-- There is a setting for each field of the layout. -/
theorem exists_setting : ∀ l ∈ layout, ∀ field ∈ l.2,
    ∃ s ∈ settings, s.2.home = l.1 ∧ s.2.field = field := by
  decide

/-- Each setting belongs to a section of the layout. -/
theorem exists_home : ∀ s ∈ settings, ∃ l ∈ layout, l.1 = s.2.home := by decide

/-- No two settings have one field. -/
theorem nodup_settings : (settings.map fun s ↦ (s.2.home, s.2.field)).Nodup := by decide

/-- No field is given two values. -/
theorem IsConfig.given_unique (h : IsConfig es) {s : Sigma Setting} (hs : s ∈ settings) {v w : Node}
    (hv : Given es s.2.home s.2.field v) (hw : Given es s.2.home s.2.field w) : v = w := by
  obtain ⟨l, hl, hhome⟩ := exists_home s hs
  obtain ⟨e, he, hname, rfl⟩ := hv
  obtain ⟨e', he', hname', rfl⟩ := hw
  have hnodup := (hhome ▸ h.fields l hl).2
  rw [List.inj_on_of_nodup_map hnodup he he' (hname.trans hname'.symm)]

/-- A document tells one thing about a setting at most. -/
theorem IsConfig.tells_unique (h : IsConfig es) {s : Sigma Setting} (hs : s ∈ settings) {a b : s.1}
    (ha : s.2.Tells es a) (hb : s.2.Tells es b) : a = b := by
  rcases ha with ⟨v, hv, hread⟩ | ⟨hnone, rfl⟩
  · rcases hb with ⟨w, hw, hread'⟩ | ⟨hnone, -⟩
    · obtain rfl := h.given_unique hs hv hw
      exact Except.ok.inj (hread.symm.trans hread')
    · exact absurd hv (hnone v)
  · rcases hb with ⟨w, hw, -⟩ | ⟨-, rfl⟩
    · exact absurd hw (hnone w)
    · rfl

/-- The settings are all there is to a draft. -/
theorem eq_of_forall_get_eq {d d' : Draft} (h : ∀ s ∈ settings, s.2.get d = s.2.get d') :
    d = d' := by
  obtain ⟨⟨_, _, _, _⟩, ⟨_, _, _, _, _⟩⟩ := d
  obtain ⟨⟨_, _, _, _⟩, ⟨_, _, _, _, _⟩⟩ := d'
  simpa [settings, and_assoc] using h

/-- A document describes one draft at most. -/
theorem IsConfig.describes_unique (h : IsConfig es) {d d' : Draft} (hd : Describes es d)
    (hd' : Describes es d') : d = d' :=
  eq_of_forall_get_eq fun s hs ↦ h.tells_unique hs (hd s hs) (hd' s hs)

section

variable {α σ : Type} {s : Setting α} {home : String} {fields : List (Yaml.Field σ)}
  {sectionOf : Draft → σ} {blank : σ} {set : α → σ → σ} {get : σ → α} {d : Draft}

/-- What is read of a section is what the document tells about its settings. -/
theorem Setting.Sits.tells (hs : s.Sits home fields sectionOf blank set get)
    (h : fill fields (.field .root home) [] blank (fieldsOf es home) = .ok (sectionOf d)) :
    s.Tells es (s.get d) := by
  obtain rfl := hs.home_eq
  rw [hs.get_eq]
  rcases hs.part.get_of_fill h with ⟨e, he, hname, hon⟩ | ⟨hnone, hget⟩
  · exact .inl ⟨e.2, ⟨e, he, hname, rfl⟩, hon⟩
  · refine .inr ⟨?_, hget.trans hs.get_blank⟩
    rintro v ⟨e, he, hname, -⟩
    exact hnone e he hname

/-- Writing down a default in a section that does not give the field changes nothing. -/
theorem Setting.Sits.fill_of_default (hs : s.Sits home fields sectionOf blank set get)
    {fs gs : List (Node × Node)} {k v : Node} (hk : k.name? = some s.field)
    (hread : s.ReadAs v s.default) (hnew : ∀ e ∈ fs ++ gs, e.1.name? ≠ some s.field) :
    fill fields (.field .root home) [] blank (fs ++ (k, v) :: gs) =
      fill fields (.field .root home) [] blank (fs ++ gs) := by
  obtain rfl := hs.home_eq
  exact hs.part.fill_of_default hk (hs.get_blank ▸ hread) hnew

theorem Setting.Sits.gives (hs : s.Sits home fields sectionOf blank set get) {v : Node} {a : α}
    (h : s.ReadAs v a) :
    Gives fields (.field .root home) (some s.field, v) (s.field, set a) := by
  obtain rfl := hs.home_eq
  exact Yaml.gives_setting hs.part.find_eq h

end

/-- **A section can be read** if the document tells what its settings are. -/
theorem IsConfig.exists_fill (h : IsConfig es) {σ : Type} {fields : List (Yaml.Field σ)}
    {sectionOf : Draft → σ} {blank : σ} {l : String × List String} (hl : l ∈ layout)
    (hsit : ∀ s ∈ settings, s.2.home = l.1 →
      ∃ set get, s.2.Sits l.1 fields sectionOf blank set get)
    {d : Draft} (hd : Describes es d) :
    ∃ r, fill fields (.field .root l.1) [] blank (fieldsOf es l.1) = .ok r := by
  obtain ⟨hnames, hnodup⟩ := h.fields l hl
  refine Yaml.exists_fill hnodup (fun e he ↦ ?_) blank
  obtain ⟨field, hfield, hname⟩ := hnames e he
  obtain ⟨s, hs, hhome, rfl⟩ := exists_setting l hl field hfield
  obtain ⟨set, get, hsits⟩ := hsit s hs hhome
  have hgiven : Given es s.2.home s.2.field e.2 := ⟨e, hhome ▸ he, hname, rfl⟩
  rcases hd s hs with ⟨v, hv, hread⟩ | ⟨hnone, -⟩
  · obtain rfl := h.given_unique hs hv hgiven
    refine ⟨(s.2.field, set (s.2.get d)), ?_⟩
    rw [named, hname]
    exact hsits.gives hread
  · exact absurd hgiven (hnone e.2)

/-- **A document is read as the draft that it describes.** -/
theorem fill_sections_iff_describes (h : IsConfig es) {d : Draft} :
    fill sections .root [] {} es = .ok d ↔ Describes es d := by
  have hdescribes : ∀ {d : Draft}, fill sections .root [] {} es = .ok d → Describes es d := by
    intro d hd s hs
    obtain ⟨hrunner, hstrategies⟩ := (fill_sections h).1 hd
    rcases settings_sit s hs with ⟨set, get, hsits⟩ | ⟨set, get, hsits⟩
    · exact hsits.tells hrunner
    · exact hsits.tells hstrategies
  refine ⟨hdescribes, fun hd ↦ ?_⟩
  obtain ⟨r, hr⟩ := h.exists_fill List.mem_cons_self (fun s ↦ sits_runner) hd
  obtain ⟨t, ht⟩ := h.exists_fill (List.mem_cons_of_mem _ List.mem_cons_self)
    (fun s ↦ sits_strategies) hd
  have hfill : fill sections .root [] {} es = .ok ⟨r, t⟩ := (fill_sections h).2 ⟨hr, ht⟩
  rw [hfill, h.describes_unique hd (hdescribes hfill)]

/-! ### Order and defaults -/

/-- A value spells a default if it is read as the default. -/
theorem spellsDefault_iff {s : Sigma Setting} (hs : s ∈ settings) {v : Node} :
    SpellsDefault s.2.home s.2.field v ↔ s.2.ReadAs v s.2.default := by
  constructor
  · rintro ⟨s', hs', hhome, hfield, hread⟩
    obtain rfl := List.inj_on_of_nodup_map nodup_settings hs' hs (Prod.ext hhome hfield)
    exact hread
  · intro hread
    exact ⟨s, hs, rfl, rfl, hread⟩

/-- Documents that give the same values, apart from defaults, tell the same about a setting. -/
theorem IsConfig.tells_of_given (h : IsConfig es)
    (hgiven : ∀ name field v, ¬SpellsDefault name field v →
      (Given es name field v ↔ Given es' name field v))
    {s : Sigma Setting} (hs : s ∈ settings) {a : s.1} (ha : s.2.Tells es a) : s.2.Tells es' a := by
  have hother : ∀ w, Given es' s.2.home s.2.field w → ¬s.2.ReadAs w s.2.default →
      Given es s.2.home s.2.field w := fun w hw hread ↦
    (hgiven _ _ w (mt (spellsDefault_iff hs).1 hread)).2 hw
  -- where the first document has the default, the second spells it out or gives nothing
  have hdefault : (∀ w, Given es s.2.home s.2.field w → s.2.ReadAs w s.2.default) →
      s.2.Tells es' s.2.default := by
    intro hall
    by_cases hw : ∃ w, Given es' s.2.home s.2.field w
    · obtain ⟨w, hw⟩ := hw
      refine .inl ⟨w, hw, ?_⟩
      by_contra hread
      exact hread (hall w (hother w hw hread))
    · exact .inr ⟨not_exists.1 hw, rfl⟩
  rcases ha with ⟨v, hv, hread⟩ | ⟨hnone, rfl⟩
  · by_cases hspelled : s.2.ReadAs v s.2.default
    · obtain rfl := Except.ok.inj (hspelled.symm.trans hread)
      refine hdefault fun w hw ↦ ?_
      obtain rfl := h.given_unique hs hv hw
      exact hspelled
    · exact .inl ⟨v, (hgiven _ _ v (mt (spellsDefault_iff hs).1 hspelled)).1 hv, hread⟩
  · exact hdefault fun w hw ↦ absurd hw (hnone w)

/-- **Documents that give the same values**, apart from defaults, are loaded alike. -/
theorem alike_of_given (hwrites : Writes text (.mapping tag es))
    (hwrites' : Writes text' (.mapping tag' es')) (h : IsConfig es) (h' : IsConfig es')
    (hgiven : ∀ name field v, ¬SpellsDefault name field v →
      (Given es name field v ↔ Given es' name field v)) : Alike (ofText text) (ofText text') := by
  have hdescribes : ∀ {d : Draft}, Describes es d ↔ Describes es' d := by
    intro d
    constructor
    · intro hd s hs
      exact h.tells_of_given hgiven hs (hd s hs)
    · intro hd s hs
      exact h'.tells_of_given (fun name field v hv ↦ (hgiven name field v hv).symm) hs (hd s hs)
  have hread : ∀ {d : Draft},
      fill sections .root [] {} es = .ok d ↔ fill sections .root [] {} es' = .ok d := by
    intro d
    rw [fill_sections_iff_describes h, fill_sections_iff_describes h', hdescribes]
  rw [ofText_of_writes hwrites, ofText_of_writes hwrites']
  rcases hfill : fill sections .root [] {} es with issue | d
  · rcases hfill' : fill sections .root [] {} es' with issue' | d
    · exact .inr ⟨issue, issue', rfl, rfl⟩
    · cases hfill.symm.trans (hread.2 hfill')
  · rw [hread.1 hfill]
    exact .inl rfl

/-- Whether keys are proper does not depend on their order. -/
theorem Proper.of_perm {names : List String} (h : Proper names es)
    (hperm : (es.map (·.1.name?)).Perm (es'.map (·.1.name?))) : Proper names es' := by
  refine ⟨fun e he ↦ ?_, hperm.nodup_iff.1 h.2⟩
  obtain ⟨e', he', hname⟩ := List.mem_map.1 (hperm.mem_iff.2 (List.mem_map_of_mem he))
  obtain ⟨name, hmem, hname'⟩ := h.1 e' he'
  exact ⟨name, hmem, hname.symm.trans hname'⟩

/-- A document and a rearranged one have the same keys and, for each section, the same entries. -/
theorem Rearranged.perm (h : Rearranged es es') :
    (es.map (·.1.name?)).Perm (es'.map (·.1.name?)) ∧
      ∀ name, (fieldsOf es name).Perm (fieldsOf es' name) := by
  obtain ⟨mid, hmid, hperm⟩ := h
  have hsections : es.map (·.1.name?) = mid.map (·.1.name?) ∧
      ∀ name, (fieldsOf es name).Perm (fieldsOf mid name) := by
    clear hperm
    induction hmid with
    | nil => exact ⟨rfl, fun _ ↦ .rfl⟩
    | @cons e e' _ _ he _ ih =>
      obtain ⟨hkey, tag, fs, fs', hvalue, hvalue', hfs⟩ := he
      refine ⟨congrArg₂ List.cons (congrArg Node.name? hkey.symm) ih.1, fun name ↦ ?_⟩
      rw [fieldsOf, fieldsOf, List.flatMap_cons, List.flatMap_cons, hkey, hvalue, hvalue']
      refine List.Perm.append ?_ (ih.2 name)
      split_ifs
      · exact hfs
      · exact .rfl
  refine ⟨hsections.1 ▸ hperm.map _, fun name ↦ (hsections.2 name).trans ?_⟩
  exact hperm.flatMap_right _

/-- Sections stay mappings when a document is rearranged. -/
theorem Rearranged.mappings (h : Rearranged es es') :
    ∀ e ∈ es', ∃ tag fs, e.2 = .mapping tag fs := by
  obtain ⟨mid, hmid, hperm⟩ := h
  intro e he
  obtain ⟨e', -, -, tag, -, fs, -, hvalue, -⟩ :=
    exists_rel_of_mem hmid.flip (hperm.mem_iff.2 he)
  exact ⟨tag, fs, hvalue⟩

/-- A configuration can be rearranged. -/
theorem IsConfig.rearranged (h : IsConfig es) (hes : Rearranged es es') : IsConfig es' where
  sections := h.sections.of_perm hes.perm.1
  mappings := hes.mappings
  fields s hs := (h.fields s hs).of_perm ((hes.perm.2 s.1).map _)

theorem Rearranged.given_iff {name field : String} {v : Node} (h : Rearranged es es') :
    Given es name field v ↔ Given es' name field v := by
  simp only [Given, (h.perm.2 name).mem_iff]

/-- In a whole document, a default may be written down or left out. -/
theorem fill_sections_of_default {before after fs gs : List (Node × Node)} {key k v : Node}
    {name field : String} (hkey : key.name? = some name) (hk : k.name? = some field)
    (hv : SpellsDefault name field v) (hnew : ∀ e ∈ fs ++ gs, e.1.name? ≠ some field) :
    fill sections .root [] {} (before ++ (key, .mapping tag (fs ++ (k, v) :: gs)) :: after) =
      fill sections .root [] {} (before ++ (key, .mapping tag' (fs ++ gs)) :: after) := by
  have hentry : ∀ seen,
      Yaml.readEntry sections .root seen (key, .mapping tag (fs ++ (k, v) :: gs)) =
        Yaml.readEntry sections .root seen (key, .mapping tag' (fs ++ gs)) := by
    intro seen
    obtain ⟨s, hs, rfl, rfl, hread⟩ := hv
    rcases settings_sit s hs with ⟨set, get, hsits⟩ | ⟨set, get, hsits⟩
    · exact isSection_runner.readEntry_congr (hkey.trans (congrArg some hsits.home_eq))
        (hsits.fill_of_default hk hread hnew)
    · exact isSection_strategies.readEntry_congr (hkey.trans (congrArg some hsits.home_eq))
        (hsits.fill_of_default hk hread hnew)
  rw [Yaml.fill_append, Yaml.fill_append]
  rcases fill sections .root [] {} before with issue | d
  · rfl
  · rw [ok_bind, ok_bind, fill, fill, hentry]

/-! ### Unknown and repeated keys -/

/-- A mapping with an unknown or repeated key is not read. -/
theorem fill_ne_ok_of_spoils {σ : Type} {fields : List (Yaml.Field σ)} {path : Yaml.Path}
    {seen : List String} {acc r : σ} {k v : Node}
    (h : Spoils (fields.map (·.name)) k (es ++ es')) :
    fill fields path seen acc (es ++ (k, v) :: es') ≠ .ok r := by
  intro hfill
  obtain ⟨hnodup, hgives⟩ := Yaml.keys_of_fill hfill
  rcases h with hunknown | ⟨e, he, hname⟩
  · obtain ⟨u, hkey, f, hfind, -⟩ := hgives (k, v) (by simp)
    have hf : f.name = u.1 := by simpa using List.find?_some hfind
    exact hunknown u.1 (List.mem_map.2 ⟨f, List.mem_of_find?_eq_some hfind, hf⟩) hkey
  · have hperm : ((es ++ (k, v) :: es').map (·.1.name?)).Perm
        (k.name? :: (es ++ es').map (·.1.name?)) := List.perm_middle.map _
    exact (List.nodup_cons.1 (hperm.nodup_iff.1 hnodup)).1 (List.mem_map.2 ⟨e, he, hname⟩)

/-- Entries that cannot be read are reported as such. -/
theorem exists_configParse (hwrites : Writes text (.mapping tag es))
    (h : ∀ d, fill sections .root [] {} es ≠ .ok d) :
    ∃ issue, ofText text = .error (.configParse issue) := by
  rw [ofText_of_writes hwrites]
  rcases hfill : fill sections .root [] {} es with issue | d
  · exact ⟨issue, rfl⟩
  · exact absurd hfill (h d)

/-- **Loading depends on which value is given to which field.** A configuration document is loaded
as the draft that it describes, after a check of that draft, and cannot be read if it describes
none. So documents that give the same values, apart from defaults, are loaded alike; rearranging a
document changes nothing; and a field may as well be given its default as be left out. A document
with a key that is unknown at its level or comes twice is refused as one that cannot be read,
whatever its values are. -/
theorem ofText_by_values :
    (∀ text tag es, Writes text (.mapping tag es) → IsConfig es →
      (∀ d, Describes es d → ofText text = d.check.mapError .validation) ∧
      ((∀ d, ¬Describes es d) → ∃ issue, ofText text = .error (.configParse issue))) ∧
    (∀ text text' tag tag' es es', Writes text (.mapping tag es) →
      Writes text' (.mapping tag' es') → IsConfig es → IsConfig es' →
      (∀ name field v, ¬SpellsDefault name field v →
        (Given es name field v ↔ Given es' name field v)) →
      Alike (ofText text) (ofText text')) ∧
    (∀ text text' tag tag' es es', Writes text (.mapping tag es) →
      Writes text' (.mapping tag' es') → IsConfig es → Rearranged es es' →
      Alike (ofText text) (ofText text')) ∧
    (∀ text text' tag tag' t t' before key fs k v gs after name field,
      Writes text (.mapping tag (before ++ (key, .mapping t (fs ++ (k, v) :: gs)) :: after)) →
      Writes text' (.mapping tag' (before ++ (key, .mapping t' (fs ++ gs)) :: after)) →
      key.name? = some name → k.name? = some field → SpellsDefault name field v →
      (∀ e ∈ fs ++ gs, e.1.name? ≠ some field) → ofText text = ofText text') ∧
    (∀ text tag before k v after, Writes text (.mapping tag (before ++ (k, v) :: after)) →
      Spoils (layout.map Prod.fst) k (before ++ after) →
      ∃ issue, ofText text = .error (.configParse issue)) ∧
    ∀ text tag t before key fs k v gs after,
      Writes text (.mapping tag (before ++ (key, .mapping t (fs ++ (k, v) :: gs)) :: after)) →
      ∀ s ∈ layout, key.name? = some s.1 → Spoils s.2 k (fs ++ gs) →
      ∃ issue, ofText text = .error (.configParse issue) := by
  refine ⟨?described, ?given, ?rearranged, ?default, ?root, ?inner⟩
  case described =>
    intro text tag es hwrites h
    constructor
    · intro d hd
      rw [ofText_of_writes hwrites, (fill_sections_iff_describes h).2 hd, ofReading]
      cases d.check <;> rfl
    · intro hnone
      exact exists_configParse hwrites fun d hfill ↦
        hnone d ((fill_sections_iff_describes h).1 hfill)
  case given =>
    intro text text' tag tag' es es' hwrites hwrites' h h' hgiven
    exact alike_of_given hwrites hwrites' h h' hgiven
  case rearranged =>
    intro text text' tag tag' es es' hwrites hwrites' h hes
    exact alike_of_given hwrites hwrites' h (h.rearranged hes) fun _ _ _ _ ↦ hes.given_iff
  case default =>
    intro text text' tag tag' t t' before key fs k v gs after name field hwrites hwrites' hkey hk hv
      hnew
    rw [ofText_of_writes hwrites, ofText_of_writes hwrites',
      fill_sections_of_default hkey hk hv hnew]
  case root =>
    intro text tag before k v after hwrites hspoils
    exact exists_configParse hwrites fun d ↦ fill_ne_ok_of_spoils hspoils
  case inner =>
    intro text tag t before key fs k v gs after hwrites s hs hkey hspoils
    refine exists_configParse hwrites fun d hfill ↦ ?_
    have hmem : (key, Node.mapping t (fs ++ (k, v) :: gs)) ∈
        before ++ (key, .mapping t (fs ++ (k, v) :: gs)) :: after :=
      List.mem_append_right before List.mem_cons_self
    rcases List.mem_pair.1 hs with rfl | rfl
    · obtain ⟨r, hr⟩ := isSection_runner.exists_fill hfill hmem hkey
      exact absurd hr (fill_ne_ok_of_spoils hspoils)
    · obtain ⟨r, hr⟩ := isSection_strategies.exists_fill hfill hmem hkey
      exact absurd hr (fill_ne_ok_of_spoils hspoils)

/-- A plain scalar. -/
def plain (text : String) : Node := .scalar ⟨text, .plain, none⟩

theorem name?_plain (text : String) : (plain text).name? = some text := rfl

theorem writes_of_parts {text : String} {v : Node} (h : Text.isBlankText text = false ∧
    (Yaml.Document.ofText text).items = v.items ∧ (Yaml.Document.ofText text).anchors = [] ∧
    (Yaml.Document.ofText text).flaw.isNone = true ∧ (Yaml.Document.ofText text).more = false) :
    Writes text v := by
  obtain ⟨hblank, hitems, hanchors, hflaw, hmore⟩ := h
  refine ⟨hblank, ?_⟩
  rcases hd : Yaml.Document.ofText text with ⟨items, anchors, flaw, more⟩
  rw [hd] at hitems hanchors hflaw hmore
  rw [← hitems, ← hanchors, ← hmore, ← Option.isNone_iff_eq_none.1 hflaw]

theorem ofText_by_values_outOfOrder :
    ofText "runner:\n  warmup_rounds: 5\nstrategies:\n  string_base: xy\n" =
      ({ runner := { warmupRounds := 5 }, strategies := { stringBase := "xy" } } :
        Draft).check.mapError .validation ∧
    Alike
      (ofText "strategies:\n  string_base: xy\nrunner:\n  outer_rounds: 100\n  warmup_rounds: 5\n")
      (ofText "runner:\n  warmup_rounds: 5\nstrategies:\n  string_base: xy\n") ∧
    Alike
      (ofText "strategies:\n  string_base: xy\nrunner:\n  outer_rounds: 100\n  warmup_rounds: 5\n")
      (ofText
        "runner:\n  warmup_rounds: 5\n  outer_rounds: 100\nstrategies:\n  string_base: xy\n") ∧
    ofText "runner:\n  warmup_rounds: 5\n  outer_rounds: 100\nstrategies:\n  string_base: xy\n" =
      ofText "runner:\n  warmup_rounds: 5\nstrategies:\n  string_base: xy\n" ∧
    (∃ issue, ofText "runner:\n  warmup_rounds: 20000\nstrategy:\n  string_base: xy\n" =
      .error (.configParse issue)) ∧
    ∃ issue, ofText "runner:\n  warmup_rounds: 20000\n  warmup_rounds: 5\n" =
      .error (.configParse issue) := by
  obtain ⟨hdescribed, hgiven, hrearranged, hdefault, hroot, hinner⟩ := ofText_by_values
  let base : List (Node × Node) :=
    [(plain "runner", .mapping none [(plain "warmup_rounds", plain "5")]),
      (plain "strategies", .mapping none [(plain "string_base", plain "xy")])]
  let spelled : List (Node × Node) :=
    [(plain "runner", .mapping none
        [(plain "warmup_rounds", plain "5"), (plain "outer_rounds", plain "100")]),
      (plain "strategies", .mapping none [(plain "string_base", plain "xy")])]
  let moved : List (Node × Node) :=
    [(plain "strategies", .mapping none [(plain "string_base", plain "xy")]),
      (plain "runner", .mapping none
        [(plain "outer_rounds", plain "100"), (plain "warmup_rounds", plain "5")])]
  have hbase : Writes "runner:\n  warmup_rounds: 5\nstrategies:\n  string_base: xy\n"
      (.mapping none base) := writes_of_parts (by decide +kernel)
  have hspelled : Writes
      "runner:\n  warmup_rounds: 5\n  outer_rounds: 100\nstrategies:\n  string_base: xy\n"
      (.mapping none spelled) := writes_of_parts (by decide +kernel)
  have hmoved : Writes
      "strategies:\n  string_base: xy\nrunner:\n  outer_rounds: 100\n  warmup_rounds: 5\n"
      (.mapping none moved) := writes_of_parts (by decide +kernel)
  have hbaseConfig : IsConfig base := ⟨by decide, by simp [base], by decide⟩
  have hmovedConfig : IsConfig moved := ⟨by decide, by simp [moved], by decide⟩
  have hhundred : SpellsDefault "runner" "outer_rounds" (plain "100") :=
    ⟨_, List.mem_cons_self, rfl, rfl, rfl⟩
  refine ⟨(hdescribed _ _ _ hbase hbaseConfig).1 _ ?_,
    hgiven _ _ _ _ _ _ hmoved hbase hmovedConfig hbaseConfig ?_,
    hrearranged _ _ _ _ _ _ hmoved hspelled hmovedConfig ?_,
    hdefault _ _ _ _ _ _ [] _ [_] _ _ [] _ "runner" "outer_rounds" hspelled hbase rfl rfl hhundred
      (by decide),
    hroot _ none [(plain "runner", .mapping none [(plain "warmup_rounds", plain "20000")])]
      (plain "strategy") (.mapping none [(plain "string_base", plain "xy")]) []
      (writes_of_parts (by decide +kernel)) (.inl (by decide)),
    hinner _ none none [] (plain "runner") [(plain "warmup_rounds", plain "20000")]
      (plain "warmup_rounds") (plain "5") [] [] (writes_of_parts (by decide +kernel)) _
      List.mem_cons_self rfl (.inr ⟨_, List.mem_cons_self, rfl⟩)⟩
  · exact (fill_sections_iff_describes hbaseConfig).1 rfl
  · intro name field v hv
    simp only [base, moved, Given, fieldsOf, entriesOf, List.flatMap_cons, name?_plain,
      Option.some.injEq, List.flatMap_nil, List.append_nil, List.mem_append,
      List.mem_ite_nil_right, List.mem_cons, List.not_mem_nil, or_false, Prod.exists,
      Prod.mk.injEq, exists_eq_right_right]
    constructor
    · rintro ⟨a, ⟨hname, ha, hvalue⟩ | ⟨rfl, ⟨rfl, rfl⟩ | ⟨ha, hvalue⟩⟩, hfield⟩
      · exact ⟨a, .inr ⟨hname, ha, hvalue⟩, hfield⟩
      · obtain rfl : "outer_rounds" = field := Option.some.inj hfield
        exact absurd hhundred hv
      · exact ⟨a, .inl ⟨rfl, ha, hvalue⟩, hfield⟩
    · rintro ⟨a, ⟨hname, ha, hvalue⟩ | ⟨hname, ha, hvalue⟩, hfield⟩
      · exact ⟨a, .inr ⟨hname, .inr ⟨ha, hvalue⟩⟩, hfield⟩
      · exact ⟨a, .inl ⟨hname, ha, hvalue⟩, hfield⟩
  · refine ⟨[_, _], ?_, .swap _ _ []⟩
    exact .cons ⟨rfl, _, _, _, rfl, rfl, .rfl⟩ (.cons ⟨rfl, _, _, _, rfl, rfl, .swap _ _ []⟩ .nil)

end Crossing.Config
