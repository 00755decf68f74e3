import Crossing.Proofs.Config.Rules
import Crossing.Proofs.Yaml.Nodes

/-!
# Sections of a document

A configuration document is a mapping of sections, each a mapping of fields (`IsConfig`). A draft is
read from it exactly if each section is read, from the entries that the document has for it
(`fill_sections`): a section that is left out counts as one without entries. What holds of both
sections alike is said once, for any section (`IsSection`).
-/

namespace Crossing.Config

open Yaml (Node Issue fill)

/-! ### The fields -/

/-- The table of the `runner` section, field by field. -/
theorem runnerFields_eq : runnerFields =
    [ .setting "outer_rounds" (fun _ ↦ Yaml.readUInt64 "u64") fun v r ↦ { r with outerRounds := v },
      .setting "warmup_rounds" (fun _ ↦ Yaml.readUInt64 "u64") fun v r ↦
        { r with warmupRounds := v },
      .setting "result_file" (fun _ ↦ Yaml.readText "a string") fun v r ↦
        { r with resultFile := v },
      .setting "json_summary" (Yaml.readOptionalText · "a string") fun v r ↦
        { r with jsonSummary := v } ] :=
  rfl

theorem strategyFields_eq : strategyFields =
    [ .setting "primary_inner_rounds" (fun _ ↦ Yaml.readUInt64 "u64") fun v s ↦
        { s with primaryInnerRounds := v },
      .setting "boundary_inner_rounds" (fun _ ↦ Yaml.readUInt64 "u64") fun v s ↦
        { s with boundaryInnerRounds := v },
      .setting "string_base" (fun _ ↦ Yaml.readText "a string") fun v s ↦
        { s with stringBase := v },
      .setting "string_repeats" (fun _ ↦ Yaml.readSequence (Yaml.readUInt64 "usize")) fun v s ↦
        { s with stringRepeats := v },
      .setting "buffer_capacity" (fun _ ↦ Yaml.readUInt64 "usize") fun v s ↦
        { s with bufferCapacity := v } ] :=
  rfl

theorem sections_eq : sections =
    [ .setting "runner" (fun _ ↦ Yaml.readRecord "struct RawRunnerConfig" runnerFields {})
        fun v d ↦ { d with runner := v },
      .setting "strategies" (fun _ ↦ Yaml.readRecord "struct RawStrategyConfig" strategyFields {})
        fun v d ↦ { d with strategies := v } ] :=
  rfl

/-- All readers of the section take one node and leave the rest of the document alone. -/
theorem localFields_runnerFields : Yaml.LocalFields runnerFields := by
  simp only [Yaml.LocalFields, runnerFields_eq, List.forall_mem_cons]
  exact ⟨fun _ ↦ Yaml.local_setting (Yaml.local_readUInt64 _),
    fun _ ↦ Yaml.local_setting (Yaml.local_readUInt64 _),
    fun _ ↦ Yaml.local_setting (Yaml.local_readText _),
    fun outer ↦ Yaml.local_setting (Yaml.local_readOptionalText outer _), List.forall_mem_nil _⟩

theorem localFields_strategyFields : Yaml.LocalFields strategyFields := by
  simp only [Yaml.LocalFields, strategyFields_eq, List.forall_mem_cons]
  exact ⟨fun _ ↦ Yaml.local_setting (Yaml.local_readUInt64 _),
    fun _ ↦ Yaml.local_setting (Yaml.local_readUInt64 _),
    fun _ ↦ Yaml.local_setting (Yaml.local_readText _),
    fun _ ↦ Yaml.local_setting (Yaml.local_readSequence (Yaml.local_readUInt64 _)),
    fun _ ↦ Yaml.local_setting (Yaml.local_readUInt64 _), List.forall_mem_nil _⟩

theorem localFields_sections : Yaml.LocalFields sections := by
  simp only [Yaml.LocalFields, sections_eq, List.forall_mem_cons]
  exact ⟨fun _ ↦ Yaml.local_setting (Yaml.local_readRecord localFields_runnerFields _ _),
    fun _ ↦ Yaml.local_setting (Yaml.local_readRecord localFields_strategyFields _ _),
    List.forall_mem_nil _⟩

/-! ### Documents -/

/-- A text writes a node: it is one document, with the items of the node and without anchors. -/
def Writes (text : String) (v : Node) : Prop :=
  Text.isBlankText text = false ∧ Yaml.Document.ofText text = ⟨v.items, [], none, false⟩

/-- The sections of a configuration and the fields of each. -/
def layout : List (String × List String) :=
  [("runner", ["outer_rounds", "warmup_rounds", "result_file", "json_summary"]),
    ("strategies", ["primary_inner_rounds", "boundary_inner_rounds", "string_base",
      "string_repeats", "buffer_capacity"])]

/-- The keys of a mapping are among some names, and no two are the same. -/
def Proper (names : List String) (es : List (Node × Node)) : Prop :=
  (∀ e ∈ es, ∃ name ∈ names, e.1.name? = some name) ∧ (es.map (·.1.name?)).Nodup

instance (names : List String) (es : List (Node × Node)) : Decidable (Proper names es) :=
  inferInstanceAs (Decidable (_ ∧ _))

/-- The entries of a mapping; other nodes have none. -/
def entriesOf : Node → List (Node × Node)
  | .mapping _ es => es
  | _ => []

/-- The entries that a document has for a section. -/
def fieldsOf (es : List (Node × Node)) (name : String) : List (Node × Node) :=
  es.flatMap fun e ↦ if e.1.name? = some name then entriesOf e.2 else []

/-- The entries of a configuration document: each is a section, and each section a mapping of its
own fields. -/
structure IsConfig (es : List (Node × Node)) : Prop where
  sections : Proper (layout.map Prod.fst) es
  mappings : ∀ e ∈ es, ∃ tag fs, e.2 = .mapping tag fs
  fields : ∀ s ∈ layout, Proper s.2 (fieldsOf es s.1)

/-! ### From sections to the draft -/

variable {text text' : String} {tag tag' : Option Yaml.Tag} {es es' : List (Node × Node)}

/-- What a text is loaded as, from what is read of it. -/
def ofReading : Except Issue Draft → Except Error Config
  | .error issue => .error (.configParse issue)
  | .ok draft =>
    match draft.check with
    | .error e => .error (.validation e)
    | .ok c => .ok c

/-- A text that writes a mapping is loaded as its entries are read. -/
theorem ofText_of_writes (h : Writes text (.mapping tag es)) :
    ofText text = ofReading (fill sections .root [] {} es) := by
  have hread := Yaml.readRecord_mapping localFields_sections "struct RawConfig" {}
    ⟨(Node.mapping tag es).items, [], none, false⟩ .root tag es []
  rw [List.append_nil] at hread
  have hdraft : draftOfText text = fill sections .root [] {} es := by
    rw [draftOfText, h.1, Yaml.readWhole, h.2]
    show (readDraft _ _ _ >>= _) = _
    rw [readDraft, hread]
    cases fill sections .root [] {} es <;> rfl
  rw [ofText, hdraft]
  cases fill sections .root [] {} es <;> rfl

/-- A section of a document is read as a record with fields of its own, which becomes a part of the
draft. -/
structure IsSection {σ : Type} (name : String) (fields : List (Yaml.Field σ)) (blank : σ)
    (set : σ → Draft → Draft) : Prop where
  localFields : Yaml.LocalFields fields
  find_eq : ∃ expected, sections.find? (·.name == name) =
    some (.setting name (fun _ ↦ Yaml.readRecord expected fields blank) set)

theorem isSection_runner :
    IsSection "runner" runnerFields {} fun v d ↦ { d with runner := v } :=
  ⟨localFields_runnerFields, "struct RawRunnerConfig", congrArg _ sections_eq⟩

theorem isSection_strategies :
    IsSection "strategies" strategyFields {} fun v d ↦ { d with strategies := v } :=
  ⟨localFields_strategyFields, "struct RawStrategyConfig", congrArg _ sections_eq⟩

namespace IsSection

variable {σ : Type} {name : String} {fields : List (Yaml.Field σ)} {blank : σ}
  {set : σ → Draft → Draft} {d d' : Draft} {seen : List String} {key : Node}
  {fs fs' : List (Node × Node)}

/-- A section is read by its own fields, and the rest goes on with what it has set. -/
theorem fill_cons (h : IsSection name fields blank set) (hkey : key.name? = some name)
    (hseen : name ∉ seen) :
    fill sections .root seen d ((key, .mapping tag fs) :: es) = (do
      let r ← fill fields (.field .root name) [] blank fs
      fill sections .root (name :: seen) (set r d) es) := by
  obtain ⟨hlocal, expected, hfind⟩ := h
  rw [Yaml.fill_cons_of_setting hkey hfind hseen, Yaml.on_readRecord hlocal]

/-- What the entry of a section comes to depends on what is read of its fields. -/
theorem readEntry_congr (h : IsSection name fields blank set) (hkey : key.name? = some name)
    (hfs : fill fields (.field .root name) [] blank fs =
      fill fields (.field .root name) [] blank fs') :
    Yaml.readEntry sections .root seen (key, .mapping tag fs) =
      Yaml.readEntry sections .root seen (key, .mapping tag' fs') := by
  obtain ⟨hlocal, expected, hfind⟩ := h
  refine Yaml.readEntry_congr_value fun name' f hname hf ↦ ?_
  obtain rfl : name = name' := Option.some.inj (hkey.symm.trans hname)
  obtain rfl := Option.some.inj (hfind.symm.trans hf)
  rw [Yaml.on_setting, Yaml.on_setting, Yaml.on_readRecord hlocal, Yaml.on_readRecord hlocal, hfs]

/-- The sections of a document that was read were read. -/
theorem exists_fill (h : IsSection name fields blank set)
    (hfill : fill sections .root seen d es = .ok d') (hmem : (key, .mapping tag fs) ∈ es)
    (hkey : key.name? = some name) : ∃ r, fill fields (.field .root name) [] blank fs = .ok r := by
  obtain ⟨hlocal, expected, hfind⟩ := h
  obtain ⟨⟨name', u⟩, hname, f, hf, hon⟩ := (Yaml.keys_of_fill hfill).2 _ hmem
  obtain rfl : name = name' := Option.some.inj (hkey.symm.trans hname)
  obtain rfl := Option.some.inj (hfind.symm.trans hf)
  obtain ⟨r, hr, -⟩ := Yaml.exists_of_on_setting hon
  exact ⟨r, (Yaml.on_readRecord hlocal expected blank tag fs _).symm.trans hr⟩

end IsSection

theorem fieldsOf_nil {name : String} : fieldsOf [] name = [] := rfl

/-- An entry with the name of a section adds its fields to it. -/
theorem fieldsOf_cons_self {key : Node} {name : String} {fs : List (Node × Node)}
    (hkey : key.name? = some name) :
    fieldsOf ((key, .mapping tag fs) :: es) name = fs ++ fieldsOf es name := by
  rw [fieldsOf, List.flatMap_cons, if_pos hkey]
  rfl

/-- An entry with another name does not count for a section. -/
theorem fieldsOf_cons_of_ne {key v : Node} {name : String} (hkey : key.name? ≠ some name) :
    fieldsOf ((key, v) :: es) name = fieldsOf es name := by
  rw [fieldsOf, List.flatMap_cons, if_neg hkey]
  rfl

/-- The shapes that a document can have. -/
theorem IsConfig.cases (h : IsConfig es) : es = [] ∨
    (∃ k t fs, es = [(k, .mapping t fs)] ∧ k.name? = some "runner") ∨
    (∃ k t fs, es = [(k, .mapping t fs)] ∧ k.name? = some "strategies") ∨
    (∃ k t fs k' t' fs', es = [(k, .mapping t fs), (k', .mapping t' fs')] ∧
      k.name? = some "runner" ∧ k'.name? = some "strategies") ∨
    ∃ k t fs k' t' fs', es = [(k, .mapping t fs), (k', .mapping t' fs')] ∧
      k.name? = some "strategies" ∧ k'.name? = some "runner" := by
  obtain ⟨⟨hnames, hnodup⟩, hmappings, -⟩ := h
  have hentry : ∀ e ∈ es, ∃ k t fs, e = (k, .mapping t fs) ∧
      (k.name? = some "runner" ∨ k.name? = some "strategies") := by
    intro e he
    obtain ⟨t, fs, hvalue⟩ := hmappings e he
    obtain ⟨name, hname, hkey⟩ := hnames e he
    refine ⟨e.1, t, fs, Prod.ext rfl hvalue, ?_⟩
    rcases List.mem_pair.1 hname with rfl | rfl
    · exact .inl hkey
    · exact .inr hkey
  rcases es with - | ⟨e₁, - | ⟨e₂, - | ⟨e₃, es⟩⟩⟩
  · exact .inl rfl
  · obtain ⟨k, t, fs, rfl, hk | hk⟩ := hentry e₁ (by simp)
    · exact .inr (.inl ⟨k, t, fs, rfl, hk⟩)
    · exact .inr (.inr (.inl ⟨k, t, fs, rfl, hk⟩))
  · obtain ⟨k, t, fs, rfl, hk⟩ := hentry e₁ (by simp)
    obtain ⟨k', t', fs', rfl, hk'⟩ := hentry e₂ (by simp)
    rcases hk with hk | hk <;> rcases hk' with hk' | hk'
    · simp [hk, hk'] at hnodup
    · exact .inr (.inr (.inr (.inl ⟨k, t, fs, k', t', fs', rfl, hk, hk'⟩)))
    · exact .inr (.inr (.inr (.inr ⟨k, t, fs, k', t', fs', rfl, hk, hk'⟩)))
    · simp [hk, hk'] at hnodup
  · obtain ⟨k₁, t₁, fs₁, rfl, hk₁⟩ := hentry e₁ (by simp)
    obtain ⟨k₂, t₂, fs₂, rfl, hk₂⟩ := hentry e₂ (by simp)
    obtain ⟨k₃, t₃, fs₃, rfl, hk₃⟩ := hentry e₃ (by simp)
    -- three keys, and only two names
    rcases hk₁ with hk₁ | hk₁ <;> rcases hk₂ with hk₂ | hk₂ <;> rcases hk₃ with hk₃ | hk₃ <;>
      simp [hk₁, hk₂, hk₃] at hnodup

/-- Both sections have to be read, in this order or in the other. -/
theorem eq_ok_iff_of_runner_first {x : Except Issue RunnerDraft} {y : Except Issue StrategyConfig}
    {d : Draft} : (do let r ← x; let s ← y; Except.ok (Draft.mk r s)) = .ok d ↔
      x = .ok d.runner ∧ y = .ok d.strategies := by
  obtain ⟨runner, strategies⟩ := d
  cases x <;> cases y <;> simp [ok_bind, error_bind]

theorem eq_ok_iff_of_strategies_first {x : Except Issue RunnerDraft}
    {y : Except Issue StrategyConfig} {d : Draft} :
    (do let s ← y; let r ← x; Except.ok (Draft.mk r s)) = .ok d ↔
      x = .ok d.runner ∧ y = .ok d.strategies := by
  obtain ⟨runner, strategies⟩ := d
  cases x <;> cases y <;> simp [ok_bind, error_bind]

/-- **A draft is read section by section**, each from the entries that the document has for it. -/
theorem fill_sections (h : IsConfig es) {d : Draft} : fill sections .root [] {} es = .ok d ↔
    fill runnerFields (.field .root "runner") [] {} (fieldsOf es "runner") = .ok d.runner ∧
    fill strategyFields (.field .root "strategies") [] {} (fieldsOf es "strategies") =
      .ok d.strategies := by
  have hne : ∀ {k : Node}, k.name? = some "runner" → k.name? ≠ some "strategies" := by
    intro k hk
    rw [hk]
    decide
  rcases h.cases with rfl | ⟨k, t, fs, rfl, hk⟩ | ⟨k, t, fs, rfl, hk⟩ |
    ⟨k, t, fs, k', t', fs', rfl, hk, hk'⟩ | ⟨k, t, fs, k', t', fs', rfl, hk, hk'⟩
  · exact eq_ok_iff_of_runner_first (x := .ok {}) (y := .ok {})
  · rw [isSection_runner.fill_cons hk List.not_mem_nil, fieldsOf_cons_self hk,
      fieldsOf_cons_of_ne (hne hk), fieldsOf_nil, fieldsOf_nil, List.append_nil]
    exact eq_ok_iff_of_runner_first (y := .ok {})
  · rw [isSection_strategies.fill_cons hk List.not_mem_nil, fieldsOf_cons_self hk,
      fieldsOf_cons_of_ne fun h ↦ hne h hk, fieldsOf_nil, fieldsOf_nil, List.append_nil]
    exact eq_ok_iff_of_strategies_first (x := .ok {})
  · have hseen : "strategies" ∉ ["runner"] := by decide
    simp only [isSection_runner.fill_cons hk List.not_mem_nil,
      isSection_strategies.fill_cons hk' hseen,
      fieldsOf_cons_self hk, fieldsOf_cons_of_ne (hne hk), fieldsOf_cons_self hk',
      fieldsOf_cons_of_ne fun h ↦ hne h hk', fieldsOf_nil, List.append_nil]
    exact eq_ok_iff_of_runner_first
  · have hseen : "runner" ∉ ["strategies"] := by decide
    simp only [isSection_strategies.fill_cons hk List.not_mem_nil,
      isSection_runner.fill_cons hk' hseen,
      fieldsOf_cons_self hk, fieldsOf_cons_of_ne fun h ↦ hne h hk, fieldsOf_cons_self hk',
      fieldsOf_cons_of_ne (hne hk'), fieldsOf_nil, List.append_nil]
    exact eq_ok_iff_of_strategies_first

end Crossing.Config
