import Crossing.Proofs.Catalog.Parts
import Crossing.Proofs.Label
import Crossing.Suite

/-!
# What the suite is made of

All methods of the suite have names that discovery accepts, which are listed here once more without
the marker, and all headings are categories. So whatever is configured, there is a catalogue
(`assemble_eq`). It is made of parts: one on objects in the primary tier, one on values, and one for
each text.

A part knows which holder its benchmarks share, with which methods, under which category and in
which tier. So what the suite does to memory is said once for a list of parts, and the names of its
benchmarks can be read off the parts (`map_name_benchmarksOf`).
-/

namespace Crossing.Suite

open Boundary
open Memory (settled)
open Strategy

/-! ### Names -/

/-- The names of the benchmarks on objects. -/
def objectNames : List String :=
  [ "empty_function", "add_float_vectors", "add_float_vectors_guarded", "add_float_vectors_by_ref",
    "set_name", "get_name", "concatenate_strings", "replace_callback", "invoke_int_callback",
    "invoke_string_param_callback", "invoke_string_return_value_callback" ]

/-- The names of the benchmarks on values. -/
def valueNames : List String :=
  [ "param_vector4_direct", "param_vector4_ptr", "param_vector2_direct", "param_vector2_ptr",
    "return_vector4_direct", "return_vector4_ptr", "return_int_direct", "return_int_ptr",
    "return_double_direct", "return_double_ptr", "callback_given_static", "callback_stored_static",
    "callback_given_dynamic", "callback_stored_dynamic", "callback_stored_dynamic_direct" ]

/-- The names of the benchmarks on a text. -/
def textNames : List String :=
  [ "param_string_utf16_copy", "param_string_narrow_copy", "param_string_narrow_copy_create_owned",
    "param_string_utf8_borrowed", "param_string_utf8_borrowed_create_owned",
    "param_string_utf16_borrowed", "param_string_utf16_borrowed_create_owned_utf16",
    "param_string_utf16_borrowed_create_owned_narrow", "param_string_to_ascii_fresh",
    "param_string_to_ascii_pooled", "param_string_to_utf8_fresh", "param_string_to_utf8_pooled",
    "param_string_to_utf8_stack", "return_string_narrow_alloc", "return_string_utf16_alloc",
    "return_string_byte_ptr", "return_string_utf16_ptr", "return_string_reuse_buffer_utf16",
    "return_string_allocate_buffer_utf16" ]

example : objectNames.length = 11 ∧ valueNames.length = 15 ∧ textNames.length = 19 := by decide

/-- Methods that all have the marker, and behind it names that are valid and differ. -/
structure Names {A : Type} (methods : List (String × A)) (names : List String) : Prop where
  marked : methods.map Prod.fst = names.map (methodMarker ++ ·)
  valid : ∀ s ∈ names, isTestName s = true
  nodup : names.Nodup

section

variable {A : Type} {methods : List (String × A)} {names : List String}

/-- The names that are discovered are those behind the marker. -/
theorem Names.map_text_filterMap (h : Names methods names) :
    ((methods.map Prod.fst).filterMap nameOf?).map TestName.text = names := by
  have hname : ∀ s ∈ names, (nameOf? (methodMarker ++ s)).map TestName.text = some s := by
    intro s hs
    have hmarked : methodMarker ++ s = methodMarker ++ (⟨s, h.valid s hs⟩ : TestName).text := rfl
    rw [nameOf?_eq_some_iff.2 hmarked]
    rfl
  rw [List.map_filterMap, h.marked, List.filterMap_map]
  exact (List.filterMap_congr hname).trans List.filterMap_some

/-- Methods with different names can be discovered. -/
theorem Names.discoverable (h : Names methods names) :
    DiscoverableAfter [] (methods.map Prod.fst) := by
  refine ⟨fun m hm s hs ↦ ?_, ?_, nofun⟩
  · rw [h.marked] at hm
    obtain ⟨name, hname, rfl⟩ := List.mem_map.1 hm
    have hsame : name = s := (String.append_right_inj _).1 (unmarked?_eq_some_iff.1 hs)
    exact hsame ▸ h.valid name hname
  · refine List.Nodup.of_map TestName.text ?_
    rw [h.map_text_filterMap]
    exact h.nodup

/-- Benchmarks have the names of their methods, in the same order. -/
theorem map_name_benchmarksOf (methods : List (String × A)) :
    (benchmarksOf methods).map (·.name) = (methods.map Prod.fst).filterMap nameOf? := by
  rw [benchmarksOf, List.map_filterMap, List.filterMap_map]
  refine List.filterMap_congr fun p _ ↦ ?_
  rw [Option.map_map]
  exact Option.map_id'

end

/-! ### Headings -/

/-- The category for texts of a length is a valid one. -/
theorem isCategory_textCategory (length : Nat) : isCategory (textCategory length) = true := by
  have hplain : ∀ s : String, (s.toList.all fun c ↦ c != '\n' && c != '\r') = true →
      ∀ c ∈ s.toList, c ≠ '\n' ∧ c ≠ '\r' := fun s h c hc ↦ by
    simpa only [Bool.and_eq_true, bne_iff_ne] using List.all_eq_true.1 h c hc
  have hleft := hplain "String tests (length " (by decide)
  have hright := hplain ")" (by decide)
  have hdigits : ∀ c ∈ length.repr.toList, c ≠ '\n' ∧ c ≠ '\r' := by
    intro c hc
    rw [Nat.toList_repr] at hc
    have hdigit : c.isDigit = true := Nat.isDigit_of_mem_toDigits (by decide) (by decide) hc
    constructor
    · rintro rfl
      exact absurd hdigit (by decide)
    · rintro rfl
      exact absurd hdigit (by decide)
  have hchars : (textCategory length).toList =
      "String tests (length ".toList ++ length.repr.toList ++ ")".toList := by
    show ("String tests (length " ++ length.repr ++ ")").toList = _
    rw [String.toList_append, String.toList_append]
  rw [isCategory_iff, hchars]
  refine ⟨⟨'S', ?_, by decide⟩, fun c hc ↦ ?_⟩
  · exact List.mem_append_left _ (List.mem_append_left _ (by decide))
  · rcases List.mem_append.1 hc with hc | hc
    · rcases List.mem_append.1 hc with hc | hc
      · exact hleft c hc
      · exact hdigits c hc
    · exact hright c hc

/-- The heading of the strategies on values. -/
def valueHeading : Category := ⟨valueCategory, by decide⟩

/-- The heading of the strategies on a text of some length. -/
def textHeading (length : Nat) : Category := ⟨textCategory length, isCategory_textCategory length⟩

/-! ### Parts -/

section

variable {S C P K : Type} {Other : K → Type}

/-- Parts of this suite. -/
abbrev Parts (Other : K → Type) (S C P : Type) := List (Part (Holder Other) (World S C P))

/-- The part on objects. -/
def objectPart (h : ObjectCalls) : Part (Holder Other) (World S C P) :=
  ⟨.objects, h, ObjectCalls.release, ObjectCalls.methods, none, true⟩

/-- The part on values. -/
def valuePart [Machines S C] (c : StrategyConfig) : Part (Holder Other) (World S C P) :=
  ⟨.values, (⟨c.boundaryInnerRounds, {}⟩ : ValueCalls), ValueCalls.release, ValueCalls.methods,
    some valueHeading, false⟩

/-- The part on a text. -/
def textPart (c : StrategyConfig) (text : String) : Part (Holder Other) (World S C P) :=
  let h := TextCalls.create text c.boundaryInnerRounds c.bufferCapacity.toNat
  ⟨.texts, h, fun _ w ↦ w, TextCalls.methods, some (textHeading h.length), false⟩

/-- All parts of a configuration. -/
def parts [Machines S C] (c : StrategyConfig) (objects : ObjectCalls) : Parts Other S C P :=
  objectPart objects :: valuePart c :: c.texts.map (textPart c)

/-- The names of calls on objects, as they stand in the suite. -/
theorem names_objectCalls :
    Names (ObjectCalls.methods : List (String × ObjectCalls.Task S C P UInt64)) objectNames :=
  ⟨rfl, by decide +kernel, by decide +kernel⟩

theorem names_valueCalls [Machines S C] :
    Names (ValueCalls.methods : List (String × ValueCalls.Task S C P UInt64)) valueNames :=
  ⟨rfl, by decide +kernel, by decide +kernel⟩

theorem names_textCalls :
    Names (TextCalls.methods : List (String × TextCalls.Task S C P UInt64)) textNames :=
  ⟨rfl, by decide +kernel, by decide +kernel⟩

/-- A part whose methods have names has benchmarks. -/
theorem Names.found_ne_nil {K N : Type} {Holder : K → Type} {p : Part Holder N}
    {names : List String} (h : Names p.methods names) (hnames : names ≠ []) : p.found ≠ [] := by
  intro hnil
  rw [Part.found, tagged, List.map_eq_nil_iff] at hnil
  have hlist := h.map_text_filterMap
  rw [← map_name_benchmarksOf, hnil] at hlist
  exact hnames hlist.symm

theorem found_objectPart (h : ObjectCalls) :
    (objectPart h : Part (Holder Other) (World S C P)).found ≠ [] :=
  Names.found_ne_nil (p := objectPart h) names_objectCalls (List.cons_ne_nil _ _)

theorem found_valuePart [Machines S C] (c : StrategyConfig) :
    (valuePart c : Part (Holder Other) (World S C P)).found ≠ [] :=
  Names.found_ne_nil (p := valuePart c) names_valueCalls (List.cons_ne_nil _ _)

theorem found_textPart (c : StrategyConfig) (text : String) :
    (textPart c text : Part (Holder Other) (World S C P)).found ≠ [] :=
  Names.found_ne_nil (p := textPart c text) names_textCalls (List.cons_ne_nil _ _)

/-! ### The catalogue -/

section

variable (m : Store Other S C P) (c : StrategyConfig)

/-- The chapter of calls with values is built as its part says. -/
theorem valueChapter_eq [Machines S C] :
    valueChapter c m = (.ok ⟨settled m.families.length
      (valuePart c : Part (Holder Other) (World S C P)).found⟩, m.adopt (valuePart c).family) :=
  Part.retag_eq (p := valuePart c) (c := valueHeading) rfl rfl m names_valueCalls.discoverable
    (found_valuePart c)

/-- A chapter of calls with texts is built as its part says. -/
theorem textChapter_eq (text : String) :
    textChapter c text m = (.ok ⟨settled m.families.length
      (textPart c text : Part (Holder Other) (World S C P)).found⟩,
        m.adopt (textPart c text).family) :=
  Part.retag_eq (p := textPart c text) (c := textHeading _) rfl rfl m names_textCalls.discoverable
    (found_textPart c text)

/-- The parts on texts come one after the other. -/
theorem withTexts_eq (texts : List String) (catalog : Catalog Target) :
    withTexts c texts catalog m =
      (.ok ⟨catalog.benchmarks ++ benchmarksFrom m.families.length
        (texts.map (textPart c) : Parts Other S C P)⟩,
        { m with families := m.families ++ (texts.map (textPart c)).map Part.family }) := by
  induction texts generalizing m catalog with
  | nil =>
    rw [withTexts, List.map_nil, benchmarksFrom, List.append_nil, List.map_nil, List.append_nil]
    rfl
  | cons text rest ih =>
    have hchapter := Catalog.andThen_of_ok (c := catalog) (textChapter_eq m c text)
    rw [withTexts, bind_of_ok hchapter, ih]
    simp [benchmarksFrom, Memory.adopt, Catalog.append]

/-- **There is a catalogue for each configuration**, and its families come last in memory. -/
theorem assemble_eq [Machines S C] (objects : ObjectCalls) :
    assemble c objects m =
      (.ok ⟨benchmarksFrom m.families.length (parts c objects : Parts Other S C P)⟩,
        { m with families := m.families ++ (parts c objects).map Part.family }) := by
  have hobjects : objectFamily objects m = _ := (objectPart objects).discover_eq m
    names_objectCalls.discoverable (found_objectPart objects)
  rw [assemble, bind_of_ok hobjects, intoPrimary_settled,
    bind_of_ok (Catalog.andThen_of_ok (valueChapter_eq _ c)), withTexts_eq]
  simp [parts, benchmarksFrom, Memory.adopt, Catalog.append, Part.found, objectPart]

/-- Making the holder on objects is the only thing that is done to the world. -/
theorem build_of_create [Machines S C] {objects : ObjectCalls} {w : World S C P}
    (h : ObjectCalls.create c.primaryInnerRounds m.world = (.ok objects, w)) :
    (build c).run m =
      (.ok ⟨benchmarksFrom m.families.length (parts c objects : Parts Other S C P)⟩,
        ⟨m.families ++ (parts c objects).map Part.family, w⟩) := by
  have hcreate : ExceptT.lift (Memory.onWorld (ObjectCalls.create c.primaryInnerRounds)) m =
      ((.ok (.ok objects), { m with world := w }) : Except Error _ × Store Other S C P) := by
    show (Except.ok (ObjectCalls.create c.primaryInnerRounds m.world).1,
      ({ m with world := (ObjectCalls.create c.primaryInnerRounds m.world).2 } :
        Store Other S C P)) = _
    rw [h]
  show build c m = _
  rw [build, bind_of_ok hcreate]
  exact assemble_eq _ c objects

end

end

end Crossing.Suite
