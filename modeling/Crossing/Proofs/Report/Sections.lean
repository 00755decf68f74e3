import Crossing.Report.Text
import Mathlib.Data.List.Chain
import Mathlib.Data.List.Nodup

/-!
# The sections of a report

A report is written record by record, and the heading over a record depends on the one before it.
Here the text that is written is given by recursion on the records: `body` for records of one tier,
which the builder puts at the end of the section of that tier and nowhere else (`foldl_push`). Where
records of a category stand together, `body` has one heading for them, and their lines under it
(`body_flatMap`). So a report of groups is laid out group by group (`render_groups`).
-/

namespace Crossing

/-- The tier of a record. -/
def Record.tier (r : Record) : Tier := .ofPrimary r.isPrimary

namespace Report

/-- The section of a tier. -/
def TextReport.sectionOf (r : TextReport) : Tier → String
  | .primary => r.primary
  | .secondary => r.secondary

namespace Builder

variable {b : Builder} {tier : Tier} {last : Option Category} {rs : List Record}

/-! ### Records of one tier -/

/-- What a record comes to, after one of the category `last`. -/
def piece [Platform] (last : Option Category) (r : Record) : String :=
  (if r.category == last then "" else heading r.category) ++ line r

/-- What some records come to, after one of the category `last`. -/
def body [Platform] (last : Option Category) : List Record → String
  | [] => ""
  | r :: rs => piece last r ++ body r.category rs

/-- The category of the last record. -/
def lastCategory (last : Option Category) : List Record → Option Category
  | [] => last
  | r :: rs => lastCategory r.category rs

/-- The builder with a text at the end of one section, whose last category is `last`. -/
def extend (b : Builder) (tier : Tier) (text : String) (last : Option Category) : Builder :=
  match tier with
  | .primary => { b with primary := b.primary ++ text, last }
  | .secondary => { b with secondary := b.secondary ++ text, last }

/-- To push a record extends the section of its tier by a piece. -/
theorem push_eq_extend [Platform] (b : Builder) (r : Record) :
    b.push r = b.extend r.tier (piece b.last r) r.category := by
  rw [push, Record.tier, Tier.ofPrimary, piece]
  by_cases hr : r.category = b.last
  · -- without a heading, the category that was headed last is that of the record
    rw [if_pos (beq_iff_eq.2 hr), if_pos (beq_iff_eq.2 hr), hr, String.empty_append]
    cases r.isPrimary <;> rfl
  · rw [if_neg (mt beq_iff_eq.1 hr), if_neg (mt beq_iff_eq.1 hr)]
    cases r.isPrimary <;> simp [write, extend, String.append_assoc]

@[simp] theorem last_extend (b : Builder) (tier : Tier) (text : String) (last : Option Category) :
    (b.extend tier text last).last = last := by
  cases tier <;> rfl

theorem extend_empty (b : Builder) (tier : Tier) : b.extend tier "" b.last = b := by
  cases tier <;> simp [extend]

theorem extend_extend (b : Builder) (tier : Tier) (text text' : String)
    (last last' : Option Category) :
    (b.extend tier text last).extend tier text' last' = b.extend tier (text ++ text') last' := by
  cases tier <;> simp [extend, String.append_assoc]

/-- Records of one tier only add to the section of that tier. -/
theorem foldl_push [Platform] (hrs : ∀ r ∈ rs, r.tier = tier) :
    rs.foldl push b = b.extend tier (body b.last rs) (lastCategory b.last rs) := by
  induction rs generalizing b with
  | nil => exact (b.extend_empty tier).symm
  | cons r rs ih =>
    have hr : r.tier = tier := hrs r List.mem_cons_self
    have hrest : ∀ r ∈ rs, r.tier = tier := fun r hmem ↦ hrs r (List.mem_cons_of_mem _ hmem)
    rw [List.foldl_cons, ih hrest, push_eq_extend, hr, last_extend, extend_extend]
    rfl

/-! ### Records of one category -/

/-- The lines of some records, without a heading. -/
def lines [Platform] (rs : List Record) : String := String.join (rs.map line)

theorem lines_cons [Platform] (r : Record) (rs : List Record) :
    lines (r :: rs) = line r ++ lines rs := by
  rw [lines, List.map_cons, String.join_cons]
  rfl

/-- Under the heading of their category, records are their lines. -/
theorem body_eq_lines [Platform] (hrs : ∀ r ∈ rs, r.category = last) : body last rs = lines rs := by
  induction rs with
  | nil => rfl
  | cons r rs ih =>
    have hr : r.category = last := hrs r List.mem_cons_self
    have hrest : ∀ r ∈ rs, r.category = last := fun r hmem ↦ hrs r (List.mem_cons_of_mem _ hmem)
    rw [body, piece, hr, ih hrest, BEq.rfl, if_pos rfl, String.empty_append, lines_cons]

/-- A body goes on with the category that it has come to. -/
theorem body_append [Platform] (rs rs' : List Record) :
    body last (rs ++ rs') = body last rs ++ body (lastCategory last rs) rs' := by
  induction rs generalizing last with
  | nil => exact (String.empty_append).symm
  | cons r rs ih =>
    rw [List.cons_append, body, body, ih, String.append_assoc]
    rfl

/-- Records of one category lead to it. -/
theorem lastCategory_of_forall {c : Option Category} (hne : rs ≠ [])
    (hrs : ∀ r ∈ rs, r.category = c) : lastCategory last rs = c := by
  induction rs generalizing last with
  | nil => exact absurd rfl hne
  | cons r rs ih =>
    rw [lastCategory]
    rcases rs with - | ⟨r', rs⟩
    · exact hrs r List.mem_cons_self
    · exact ih nofun fun r hmem ↦ hrs r (List.mem_cons_of_mem _ hmem)

/-- The first record of a new category brings its heading. -/
theorem body_eq_heading_append [Platform] {c : Option Category} (hne : rs ≠ [])
    (hrs : ∀ r ∈ rs, r.category = c) (hc : c ≠ last) : body last rs = heading c ++ lines rs := by
  rcases rs with - | ⟨r, rs⟩
  · exact absurd rfl hne
  have hr : r.category = c := hrs r List.mem_cons_self
  rw [body, piece, hr, beq_false_of_ne hc, if_neg Bool.false_ne_true,
    body_eq_lines fun r hmem ↦ hrs r (List.mem_cons_of_mem _ hmem), String.append_assoc, lines_cons]

/-- **Categories whose records stand together have one heading each**, with their own lines under
it, if no two that follow each other are the same. -/
theorem body_flatMap [Platform] {α : Type} {groups : List α} {category : α → Option Category}
    {records : α → List Record} (hne : ∀ g ∈ groups, records g ≠ [])
    (hrecords : ∀ g ∈ groups, ∀ r ∈ records g, r.category = category g)
    (hchain : (last :: groups.map category).IsChain (· ≠ ·)) :
    body last (groups.flatMap records) =
      String.join (groups.map fun g ↦ heading (category g) ++ lines (records g)) := by
  induction groups generalizing last with
  | nil => rfl
  | cons g groups ih =>
    have hg := hrecords g List.mem_cons_self
    have hg' := hne g List.mem_cons_self
    rw [List.map_cons, List.isChain_cons_cons] at hchain
    -- a group is not empty, so it leaves its own category behind for the next one
    rw [List.flatMap_cons, body_append, body_eq_heading_append hg' hg hchain.1.symm,
      lastCategory_of_forall hg' hg, List.map_cons, String.join_cons,
      ih (fun g hmem ↦ hne g (List.mem_cons_of_mem _ hmem))
        (fun g hmem ↦ hrecords g (List.mem_cons_of_mem _ hmem)) hchain.2]

/-- Records of the category at hand stay with it. -/
theorem lastCategory_eq_self (hrs : ∀ r ∈ rs, r.category = last) : lastCategory last rs = last := by
  rcases rs with - | ⟨r, rs⟩
  · rfl
  · exact lastCategory_of_forall nofun hrs

end Builder

/-- **The report of records that stand in groups**: those of the primary tier have no heading, and
each category has one, with its own lines under it. -/
theorem render_groups [Platform] {plain : List Record} {categories : List Category}
    {records : Category → List Record}
    (hplain : ∀ r ∈ plain, r.tier = .primary ∧ r.category = none)
    (hne : ∀ c ∈ categories, records c ≠ [])
    (hrecords : ∀ c ∈ categories, ∀ r ∈ records c, r.tier = .secondary ∧ r.category = some c)
    (hnodup : categories.Nodup) :
    (render (plain ++ categories.flatMap records)).1 =
      ⟨title ++ Builder.lines plain, String.join (categories.map fun c ↦
        Builder.heading (some c) ++ Builder.lines (records c))⟩ := by
  have hnone : ∀ r ∈ plain, r.category = none := fun r hr ↦ (hplain r hr).2
  have hsecondary : ∀ r ∈ categories.flatMap records, r.tier = .secondary := by
    intro r hr
    obtain ⟨c, hc, hr⟩ := List.mem_flatMap.1 hr
    exact (hrecords c hc r hr).1
  -- the first of the other records has a category, so it brings a heading, too
  have hchain : ((none : Option Category) :: categories.map some).IsChain (· ≠ ·) := by
    have hsome : (categories.map some).Nodup := hnodup.map fun _ _ ↦ Option.some.inj
    refine List.Pairwise.isChain (List.pairwise_cons.2 ⟨?_, hsome⟩)
    intro c hc hnone
    obtain ⟨c, -, rfl⟩ := List.mem_map.1 hc
    cases hnone
  have hcategory : ∀ c ∈ categories, ∀ r ∈ records c, r.category = some c :=
    fun c hc r hr ↦ (hrecords c hc r hr).2
  rw [render, List.foldl_append, Builder.foldl_push fun r hr ↦ (hplain r hr).1,
    Builder.foldl_push hsecondary, Builder.last_extend, Builder.body_eq_lines hnone,
    Builder.lastCategory_eq_self hnone, Builder.body_flatMap hne hcategory hchain]
  exact congrArg (TextReport.mk _) String.empty_append

end Report

end Crossing
