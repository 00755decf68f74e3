import Crossing.Proofs.Outcome
import Crossing.Proofs.Report.Sections
import Crossing.Proofs.Suite.Invocations
import Mathlib.Data.List.Flatten

/-!
# What the catalogue lists

The catalogue of a configuration is a list of *chapters*: one of the primary tier, without a
category, one for the strategies on values, and one for each text. Within a chapter names differ,
and no two chapters have the same category, since texts of different repeats differ in length. So no
two benchmarks agree in both.

A run leaves one record for each benchmark, in order. So in a report the chapters can be seen, each
under one heading: `build_lists_chapters`.
-/

namespace Crossing

open Report Strategy

namespace Suite

open Boundary

/-! ### Chapters -/

/-- Benchmarks that have a category and a tier in common, by their names. -/
structure Chapter where
  category : Option Category
  isPrimary : Bool
  names : List String

/-- What a chapter lists. -/
def Chapter.rows (ch : Chapter) : List (Option Category × String × Bool) :=
  ch.names.map (ch.category, ·, ch.isPrimary)

/-- An entry as it is listed. -/
def row (e : Entry) : Option Category × String × Bool := (e.category, e.name.text, e.isPrimary)

/-- The size of the text with a number of repeats, in octets. -/
def repeatedSize (c : StrategyConfig) (r : UInt64) : Nat := c.stringBase.utf8ByteSize * r.toNat

/-- The categories of a configuration, in order. -/
def headings (c : StrategyConfig) : List Category :=
  valueHeading :: c.stringRepeats.map fun r ↦ textHeading (repeatedSize c r)

/-- The chapters of a configuration. -/
def chapters (c : StrategyConfig) : List Chapter :=
  ⟨none, true, objectNames⟩ :: ⟨some valueHeading, false, valueNames⟩ ::
    c.stringRepeats.map fun r ↦ ⟨some (textHeading (repeatedSize c r)), false, textNames⟩

/-- The primary chapter has no category, and the others have their headings. -/
theorem map_category_chapters (c : StrategyConfig) :
    (chapters c).map Chapter.category = none :: (headings c).map some := by
  rw [chapters, headings, List.map_cons, List.map_cons, List.map_cons, List.map_map, List.map_map]
  rfl

/-- Only the chapter of the primary tier has no category. -/
theorem isPrimary_of_mem_chapters {c : StrategyConfig} {ch : Chapter} (hch : ch ∈ chapters c) :
    ch.isPrimary = ch.category.isNone := by
  rcases List.mem_cons.1 hch with rfl | hch
  · rfl
  rcases List.mem_cons.1 hch with rfl | hch
  · rfl
  · obtain ⟨r, -, rfl⟩ := List.mem_map.1 hch
    rfl

section

variable {S C P K : Type} {Other : K → Type} {c : StrategyConfig} {objects : ObjectCalls}

/-- Benchmarks with tags make up a chapter. -/
theorem Names.map_row_tagged {A : Type} {methods : List (String × A)} {names : List String}
    (h : Names methods names) (category : Option Category) (isPrimary : Bool) :
    ((tagged category isPrimary methods).map Benchmark.entry).map row =
      Chapter.rows ⟨category, isPrimary, names⟩ := by
  have hnames := h.map_text_filterMap
  rw [← map_name_benchmarksOf, List.map_map] at hnames
  rw [Chapter.rows, ← hnames, tagged, List.map_map, List.map_map, List.map_map]
  rfl

/-- The length of a text of ASCII is its size. -/
theorem length_text (hc : c.Sound) (r : UInt64) :
    (TextCalls.create (String.ofList (List.replicate r.toNat c.stringBase.toList).flatten)
      c.boundaryInnerRounds c.bufferCapacity.toNat).length = repeatedSize c r := by
  have hbase : ∀ x ∈ c.stringBase.toList, x.toNat < 128 := by
    simpa [isAscii] using hc.base_ascii
  have htext : ∀ x ∈ (List.replicate r.toNat c.stringBase.toList).flatten, x.toNat < 128 := by
    intro x hx
    obtain ⟨cs, hcs, hx⟩ := List.mem_flatten.1 hx
    exact hbase x ((List.mem_replicate.1 hcs).2 ▸ hx)
  have hsize : c.stringBase.utf8ByteSize = c.stringBase.toList.length := by
    rw [← (Text.length_encode_of_ascii hbase).1, Text.Utf8.length_encode, String.ofList_toList]
  show (Text.Utf16.encode (String.ofList _).toList).length = _
  rw [String.toList_ofList, (Text.length_encode_of_ascii htext).2, List.length_flatten,
    List.map_replicate, List.sum_replicate_nat, repeatedSize, hsize, Nat.mul_comm]

/-- The catalogue lists its chapters. -/
theorem map_row_entries [Machines S C] (hc : c.Sound) (number : Nat) :
    (Catalog.entries ⟨benchmarksFrom number (parts c objects : Parts Other S C P)⟩).map row =
      (chapters c).flatMap Chapter.rows := by
  have htexts : c.texts.map (textPart c : String → Part (Holder Other) (World S C P)) =
      c.stringRepeats.map fun r ↦
        textPart c (String.ofList (List.replicate r.toNat c.stringBase.toList).flatten) :=
    List.map_map
  have htext : ∀ r ∈ c.stringRepeats,
      (((textPart c (String.ofList (List.replicate r.toNat c.stringBase.toList).flatten) :
        Part (Holder Other) (World S C P)).found.map Benchmark.entry).map row) =
        Chapter.rows ⟨some (textHeading (repeatedSize c r)), false, textNames⟩ := by
    intro r _
    -- the heading has the units of the text, which are its octets only since it is ASCII
    rw [← length_text hc r]
    exact names_textCalls.map_row_tagged _ _
  rw [entries_benchmarksFrom, parts, htexts, chapters, List.map_flatMap, List.flatMap_cons,
    List.flatMap_cons, List.flatMap_map, List.flatMap_cons, List.flatMap_cons, List.flatMap_map,
    List.flatMap_congr htext]
  exact congrArg₂ _ (names_objectCalls.map_row_tagged _ _)
    (congrArg₂ _ (names_valueCalls.map_row_tagged _ _) rfl)

/-- The same list, spelled out. -/
theorem map_label_entries [Machines S C] (hc : c.Sound) (number : Nat) :
    ((Catalog.entries ⟨benchmarksFrom number (parts c objects : Parts Other S C P)⟩).map
      fun e ↦ (e.category.map (·.label), e.name.text, e.isPrimary)) =
      objectNames.map (none, ·, true) ++
      valueNames.map (some "PInvoke tests", ·, false) ++
      c.stringRepeats.flatMap fun r ↦ textNames.map (some ("String tests (length " ++
        toString (c.stringBase.utf8ByteSize * r.toNat) ++ ")"), ·, false) := by
  have hentries : (Catalog.entries ⟨benchmarksFrom number
      (parts c objects : Parts Other S C P)⟩).map row = (chapters c).flatMap Chapter.rows :=
    map_row_entries hc number
  have hrows := congrArg (List.map fun p ↦ (p.1.map (·.label), p.2)) hentries
  rw [List.map_map, chapters, List.flatMap_cons, List.flatMap_cons, List.flatMap_map,
    List.map_append, List.map_append, List.map_flatMap, ← List.append_assoc] at hrows
  exact hrows

/-! ### Categories differ -/

theorem label_textHeading (n : Nat) :
    (textHeading n).label = "String tests (length " ++ n.repr ++ ")" := rfl

/-- Texts of different lengths have different headings. -/
theorem textHeading_injective : Function.Injective textHeading := by
  intro m n h
  have hlabel : (textHeading m).label = (textHeading n).label := by rw [h]
  rw [label_textHeading, label_textHeading] at hlabel
  have hrepr : m.repr = n.repr :=
    (String.append_right_inj _).1 ((String.append_left_inj _).1 hlabel)
  have hdigits : Nat.toDigits 10 m = Nat.toDigits 10 n := by
    rw [← Nat.toList_repr, hrepr, Nat.toList_repr]
  have hread (k : Nat) : Nat.ofDigitChars 10 (Nat.toDigits 10 k) 0 = k :=
    Nat.ofDigitChars_toDigits (by decide) (by decide)
  rw [← hread m, hdigits, hread n]

/-- The two kinds of categories differ in their first letter. -/
theorem textHeading_ne_valueHeading (n : Nat) : textHeading n ≠ valueHeading := by
  intro h
  have htext : (textHeading n).label.toList.head? = some 'S' := by
    rw [label_textHeading, String.toList_append, String.toList_append]
    rfl
  have hvalue : valueHeading.label.toList.head? = some 'P' := by decide
  rw [h, hvalue] at htext
  cases htext

/-- Different repeats make texts of different lengths, as the base is not empty. -/
theorem repeatedSize_injective (hc : c.Sound) : Function.Injective (repeatedSize c) := by
  intro r r' h
  have hpos : c.stringBase.utf8ByteSize ≠ 0 := by
    have hbase := hc.base_nonempty
    rwa [String.isEmpty, beq_eq_false_iff_ne] at hbase
  exact UInt64.toNat.inj (Nat.eq_of_mul_eq_mul_left (Nat.pos_of_ne_zero hpos) h)

/-- No heading comes twice. -/
theorem nodup_headings (hc : c.Sound) : (headings c).Nodup := by
  refine List.nodup_cons.2 ⟨?_, ?_⟩
  · intro hmem
    obtain ⟨r, -, hr⟩ := List.mem_map.1 hmem
    exact textHeading_ne_valueHeading _ hr
  · exact hc.repeats_distinct.map (textHeading_injective.comp (repeatedSize_injective hc))

theorem nodup_category_chapters (hc : c.Sound) : ((chapters c).map Chapter.category).Nodup := by
  rw [map_category_chapters]
  refine List.nodup_cons.2 ⟨?_, (nodup_headings hc).map fun _ _ ↦ Option.some.inj⟩
  intro hmem
  obtain ⟨h, -, hnone⟩ := List.mem_map.1 hmem
  cases hnone

/-- No chapter is empty. -/
theorem names_ne_nil_of_mem_chapters {ch : Chapter} (hch : ch ∈ chapters c) : ch.names ≠ [] := by
  rcases List.mem_cons.1 hch with rfl | hch
  · exact List.cons_ne_nil _ _
  rcases List.mem_cons.1 hch with rfl | hch
  · exact List.cons_ne_nil _ _
  · obtain ⟨r, -, rfl⟩ := List.mem_map.1 hch
    exact List.cons_ne_nil _ _

theorem nodup_names_of_mem_chapters {ch : Chapter} (hch : ch ∈ chapters c) : ch.names.Nodup := by
  rcases List.mem_cons.1 hch with rfl | hch
  · exact (names_objectCalls (S := Empty) (C := Empty) (P := Empty)).nodup
  rcases List.mem_cons.1 hch with rfl | hch
  · exact (names_valueCalls (S := Empty) (C := Empty) (P := Empty)).nodup
  · obtain ⟨r, -, rfl⟩ := List.mem_map.1 hch
    exact (names_textCalls (S := Empty) (C := Empty) (P := Empty)).nodup

/-- No two rows agree in category and name. -/
theorem nodup_category_name [Machines S C] (hc : c.Sound) (number : Nat) :
    ((Catalog.entries ⟨benchmarksFrom number (parts c objects : Parts Other S C P)⟩).map
      fun e ↦ (e.category, e.name)).Nodup := by
  have hrows : (((chapters c).flatMap Chapter.rows).map fun p ↦ (p.1, p.2.1)).Nodup := by
    rw [List.map_flatMap, List.nodup_flatMap]
    -- within a chapter it is the names that differ, and between chapters the categories
    constructor
    · intro ch hch
      rw [Chapter.rows, List.map_map]
      exact (nodup_names_of_mem_chapters hch).map fun _ _ ↦ congrArg Prod.snd
    · have hdiffer := nodup_category_chapters hc
      rw [List.Nodup, List.pairwise_map] at hdiffer
      refine hdiffer.imp fun {ch ch'} hne p hp hp' ↦ ?_
      obtain ⟨q, hq, rfl⟩ := List.mem_map.1 hp
      obtain ⟨q', hq', heq⟩ := List.mem_map.1 hp'
      obtain ⟨name, -, rfl⟩ := List.mem_map.1 hq
      obtain ⟨name', -, rfl⟩ := List.mem_map.1 hq'
      exact hne (congrArg Prod.fst heq).symm
  have hentries : (((Catalog.entries ⟨benchmarksFrom number
      (parts c objects : Parts Other S C P)⟩).map row).map fun p ↦ (p.1, p.2.1)).Nodup := by
    rwa [map_row_entries hc]
  refine List.Nodup.of_map (fun p ↦ (p.1, p.2.text)) ?_
  rw [List.map_map] at hentries ⊢
  exact hentries

/-! ### Reports -/

section

variable [Machines S C] {number : Nat} {records : List Record}
  (hrecords : records.map Record.entry =
    Catalog.entries ⟨benchmarksFrom number (parts c objects : Parts Other S C P)⟩)

include hrecords

theorem map_row_records (hc : c.Sound) :
    (records.map Record.entry).map row = (chapters c).flatMap Chapter.rows := by
  rw [hrecords, map_row_entries hc]

/-- The categories of the records are those of the chapters. -/
theorem map_category_records (hc : c.Sound) :
    records.map (·.category) =
      (chapters c).flatMap fun ch ↦ ch.names.map fun _ ↦ ch.category := by
  have hfirst := congrArg (List.map Prod.fst) (map_row_records hrecords hc)
  rw [List.map_map, List.map_map, List.map_flatMap] at hfirst
  refine hfirst.trans (List.flatMap_congr fun ch _ ↦ ?_)
  rw [Chapter.rows, List.map_map]
  rfl

/-- Only the records of the primary tier have no category. -/
theorem isPrimary_of_mem_records (hc : c.Sound) {r : Record} (hr : r ∈ records) :
    r.isPrimary = r.category.isNone := by
  have hmem : row r.entry ∈ (chapters c).flatMap Chapter.rows := by
    rw [← map_row_records hrecords hc]
    exact List.mem_map_of_mem (List.mem_map_of_mem hr)
  obtain ⟨ch, hch, hmem⟩ := List.mem_flatMap.1 hmem
  obtain ⟨name, -, heq⟩ := List.mem_map.1 hmem
  have hprimary : ch.isPrimary = r.isPrimary := congrArg (·.2.2) heq
  have hcategory : ch.category = r.category := congrArg (·.1) heq
  rw [← hprimary, ← hcategory]
  exact isPrimary_of_mem_chapters hch

/-- The records of the primary tier come first, and then those of each category. -/
theorem records_eq_append (hc : c.Sound) :
    records = records.filter (·.category = none) ++
      (headings c).flatMap fun h ↦ records.filter (·.category = some h) := by
  have hblock : ∀ ch ∈ chapters c, ∀ k ∈ ch.names.map fun _ ↦ ch.category, k = ch.category := by
    intro ch _ k hk
    obtain ⟨name, -, rfl⟩ := List.mem_map.1 hk
    rfl
  have hsplit := eq_flatMap_filter (map_category_records hrecords hc) hblock
    (nodup_category_chapters hc)
  rw [← List.flatMap_map Chapter.category fun k ↦ records.filter fun r ↦ r.category = k,
    map_category_chapters, List.flatMap_cons, List.flatMap_map] at hsplit
  exact hsplit

/-- Each heading has a record below it. -/
theorem exists_record_of_heading (hc : c.Sound) {h : Category} (hh : h ∈ headings c) :
    ∃ r ∈ records, r.category = some h := by
  have hchapter : some h ∈ (chapters c).map Chapter.category := by
    rw [map_category_chapters]
    exact List.mem_cons_of_mem _ (List.mem_map_of_mem hh)
  obtain ⟨ch, hch, hcategory⟩ := List.mem_map.1 hchapter
  have hmem : some h ∈ records.map (·.category) := by
    rw [map_category_records hrecords hc]
    refine List.mem_flatMap.2 ⟨ch, hch, ?_⟩
    obtain ⟨name, hname⟩ := List.exists_mem_of_ne_nil _ (names_ne_nil_of_mem_chapters hch)
    exact List.mem_map.2 ⟨name, hname, hcategory⟩
  exact List.mem_map.1 hmem

/-- **The report of a run shows the chapters**, each under its heading. -/
theorem render_records [Platform] (hc : c.Sound) :
    (render records).1 =
      ⟨title ++ Builder.lines (records.filter (·.isPrimary)),
        String.join ((headings c).map fun h ↦ Builder.heading (some h) ++
          Builder.lines (records.filter (·.category = some h)))⟩ := by
  have htier : ∀ r ∈ records, r.tier = .ofPrimary r.category.isNone := fun r hr ↦
    congrArg Tier.ofPrimary (isPrimary_of_mem_records hrecords hc hr)
  have hprimary : records.filter (·.category = none) = records.filter (·.isPrimary) := by
    refine List.filter_congr fun r hr ↦ ?_
    rw [isPrimary_of_mem_records hrecords hc hr]
    cases r.category <;> rfl
  have hplain : ∀ r ∈ records.filter (·.category = none),
      r.tier = .primary ∧ r.category = none := by
    intro r hr
    obtain ⟨hr, hnone⟩ := List.mem_filter.1 hr
    have hnone : r.category = none := of_decide_eq_true hnone
    exact ⟨(htier r hr).trans (by rw [hnone]; rfl), hnone⟩
  have hsecondary : ∀ h ∈ headings c, ∀ r ∈ records.filter (·.category = some h),
      r.tier = .secondary ∧ r.category = some h := by
    intro h _ r hr
    obtain ⟨hr, hsome⟩ := List.mem_filter.1 hr
    have hsome : r.category = some h := of_decide_eq_true hsome
    exact ⟨(htier r hr).trans (by rw [hsome]; rfl), hsome⟩
  have hne : ∀ h ∈ headings c, records.filter (·.category = some h) ≠ [] := by
    intro h hh
    obtain ⟨r, hr, hcategory⟩ := exists_record_of_heading hrecords hc hh
    exact List.ne_nil_of_mem (List.mem_filter.2 ⟨hr, decide_eq_true hcategory⟩)
  have hrender := render_groups hplain hne hsecondary (nodup_headings hc)
  rw [← records_eq_append hrecords hc, hprimary] at hrender
  exact hrender

end

end

end Suite

end Crossing
