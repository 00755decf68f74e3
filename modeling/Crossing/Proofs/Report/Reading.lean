import Crossing.Proofs.Decimal.Layout
import Crossing.Proofs.Label
import Crossing.Proofs.Report.Sections
import Mathlib.Data.List.Forall2

/-!
# Reading a report back

A section is a list of lines, and what its records show can be read off them. The reader keeps the
category in force, as the builder does: an empty line says that a heading follows, and every other
line is that of a record, with its name up to the first colon. It cannot be misled:

* the line of a record is not empty, since its name is not;
* a heading stands right after an empty line, so it may look like the line of a record;
* a category is not empty, so a heading without one is that of no category;
* nothing that is printed has a line break, so lines are as they were written.

Main statements: `readSection_render`, the reader gets back what is shown of each record, and
`forall₂_of_sectionOf_eq`, records of one tier with the same section show the same.
-/

namespace Crossing.Report

variable {last : Option Category} {rs rs' : List Record} {tier : Tier}

/-- The median of a record as it is printed. -/
def printedMedian [Platform] (r : Record) : String := Decimal.Layout.report.render r.series.median

/-- What a report shows of a record. -/
structure Shown where
  category : Option String
  name : String
  median : String
  deriving DecidableEq

/-- What is shown of a record. -/
def shown [Platform] (r : Record) : Shown :=
  ⟨r.category.map (·.label), r.name.text, printedMedian r⟩

/-! ### Lines -/

/-- The text of some lines. -/
def unlines (ls : List (List Char)) : List Char := ls.flatMap (· ++ ['\n'])

/-- The lines of a text. -/
def linesOf (cs : List Char) : List (List Char) := (cs.splitOn '\n').dropLast

/-- Lines without line breaks can be told apart again. -/
theorem linesOf_unlines {ls : List (List Char)} (hls : ∀ l ∈ ls, '\n' ∉ l) :
    linesOf (unlines ls) = ls := by
  induction ls with
  | nil => rfl
  | cons l ls ih =>
    have hl : ∀ c ∈ l, (c == '\n') = false := fun c hc ↦
      beq_false_of_ne (ne_of_mem_of_not_mem hc (hls l List.mem_cons_self))
    have hcons : unlines (l :: ls) = l ++ '\n' :: unlines ls := by
      rw [unlines, List.flatMap_cons, List.append_assoc]
      rfl
    rw [linesOf, hcons, List.splitOn, List.splitOnP_append_cons_of_forall_mem hl _ BEq.rfl,
      List.dropLast_cons_of_ne_nil (List.splitOnP_ne_nil _ _)]
    exact congrArg (l :: ·) (ih fun l hmem ↦ hls l (List.mem_cons_of_mem _ hmem))

/-- The line of a heading. -/
def headingLine (c : Option Category) : List Char := ((c.map (·.label)).getD "").toList ++ [':']

/-- The line of a record. -/
def recordLine [Platform] (r : Record) : List Char :=
  r.name.text.toList ++ ':' :: ' ' :: (printedMedian r).toList

/-- The lines of some records, after one of the category `last`. -/
def bodyLines [Platform] (last : Option Category) : List Record → List (List Char)
  | [] => []
  | r :: rs =>
    (if r.category = last then [] else [[], headingLine r.category]) ++
      recordLine r :: bodyLines r.category rs

theorem toList_heading (c : Option Category) :
    (Builder.heading c).toList = unlines [[], headingLine c] := by
  rw [Builder.heading, String.toList_append, String.toList_append, unlines, headingLine]
  simp

theorem toList_line [Platform] (r : Record) : (Builder.line r).toList = unlines [recordLine r] := by
  rw [Builder.line, String.toList_append, String.toList_append, String.toList_append, unlines,
    recordLine, printedMedian]
  simp

/-- The body of a section as lines. -/
theorem toList_body [Platform] (last : Option Category) (rs : List Record) :
    (Builder.body last rs).toList = unlines (bodyLines last rs) := by
  induction rs generalizing last with
  | nil => rfl
  | cons r rs ih =>
    rw [Builder.body, Builder.piece, bodyLines, String.toList_append, String.toList_append,
      toList_line, ih]
    by_cases hr : r.category = last
    · rw [if_pos hr, if_pos (beq_iff_eq.2 hr)]
      simp [unlines]
    · rw [if_neg hr, if_neg (mt beq_iff_eq.1 hr), toList_heading]
      simp [unlines]

theorem newline_notMem_headingLine (c : Option Category) : '\n' ∉ headingLine c := by
  rw [headingLine, List.mem_append, not_or]
  refine ⟨?_, by decide⟩
  cases c with
  | none => exact List.not_mem_nil
  | some c => exact c.newline_notMem_toList

/-- A name and a number stay on one line. -/
theorem newline_notMem_recordLine [Platform] (r : Record) : '\n' ∉ recordLine r := by
  have hname : '\n' ∉ r.name.text.toList := r.name.notMem_toList (by decide)
  have hmedian : '\n' ∉ (printedMedian r).toList := Decimal.Layout.newline_notMem_render _ _
  simp [recordLine, hname, hmedian]

theorem newline_notMem_bodyLines [Platform] : ∀ l ∈ bodyLines last rs, '\n' ∉ l := by
  induction rs generalizing last with
  | nil => nofun
  | cons r rs ih =>
    intro l hl
    rw [bodyLines, List.mem_append, List.mem_cons] at hl
    rcases hl with hl | rfl | hl
    · split at hl
      · exact absurd hl List.not_mem_nil
      · rcases List.mem_pair.1 hl with rfl | rfl
        · exact List.not_mem_nil
        · exact newline_notMem_headingLine _
    · exact newline_notMem_recordLine r
    · exact ih l hl

/-! ### The reader -/

/-- The category of a heading, which ends in a colon. -/
def readHeading (l : List Char) : Option String :=
  if l.dropLast = [] then none else some (String.ofList l.dropLast)

/-- What the line of a record shows, under a category. -/
def readRecord (category : Option String) (l : List Char) : Shown where
  category
  name := String.ofList (l.takeWhile (· ≠ ':'))
  median := String.ofList ((l.dropWhile (· ≠ ':')).drop 2)

/-- What some lines show, while a category is in force. -/
def readLines (category : Option String) : List (List Char) → List Shown
  | [] => []
  | [[]] => []
  | [] :: heading :: ls => readLines (readHeading heading) ls
  | (c :: cs) :: ls => readRecord category (c :: cs) :: readLines category ls

/-- What the section of a tier begins with. -/
def front : Tier → String
  | .primary => title
  | .secondary => ""

/-- What a section shows. -/
def readSection (tier : Tier) (text : String) : List Shown :=
  readLines none (linesOf (text.toList.drop (front tier).toList.length))

/-- The category can be read off its heading. -/
theorem readHeading_headingLine (c : Option Category) :
    readHeading (headingLine c) = c.map (·.label) := by
  rw [readHeading, headingLine, List.dropLast_concat]
  cases c with
  | none => rfl
  | some c => exact (if_neg c.toList_ne_nil).trans (congrArg some String.ofList_toList)

/-- The name and the median can be read off the line of a record. -/
theorem readRecord_recordLine [Platform] (r : Record) :
    readRecord (r.category.map (·.label)) (recordLine r) = shown r := by
  have hname : ∀ c ∈ r.name.text.toList, decide (c ≠ ':') = true := fun c hc ↦
    decide_eq_true (ne_of_mem_of_not_mem hc (r.name.notMem_toList (by decide)))
  rw [readRecord, recordLine, List.takeWhile_append_of_pos hname,
    List.dropWhile_append_of_pos hname, shown]
  simp

/-- The line of a record is not taken for an empty one. -/
theorem readLines_recordLine_cons [Platform] (r : Record) (ls : List (List Char)) :
    readLines (r.category.map (·.label)) (recordLine r :: ls) =
      shown r :: readLines (r.category.map (·.label)) ls := by
  rw [← readRecord_recordLine]
  obtain ⟨c, cs, hcons⟩ : ∃ c cs, recordLine r = c :: cs :=
    List.exists_cons_of_ne_nil (List.append_ne_nil_of_left_ne_nil r.name.toList_ne_nil _)
  rw [hcons, readLines]

/-- The category that the reader has in force is that of the last record. -/
theorem readLines_bodyLines [Platform] (last : Option Category) (rs : List Record) :
    readLines (last.map (·.label)) (bodyLines last rs) = rs.map shown := by
  induction rs generalizing last with
  | nil => rfl
  | cons r rs ih =>
    rw [bodyLines, List.map_cons, ← ih]
    -- either the category of the record is in force already, or its heading brings it into force
    by_cases hr : r.category = last
    · rw [if_pos hr, List.nil_append, ← hr]
      exact readLines_recordLine_cons r _
    · rw [if_neg hr]
      show readLines (readHeading (headingLine r.category)) _ = _
      rw [readHeading_headingLine]
      exact readLines_recordLine_cons r _

/-- Records of one tier are reported in its section, below the front. -/
theorem sectionOf_render [Platform] (hrs : ∀ r ∈ rs, r.tier = tier) :
    (render rs).1.sectionOf tier = front tier ++ Builder.body none rs := by
  rw [render, Builder.foldl_push hrs]
  cases tier <;> rfl

/-- **What a report shows can be read off its section.** -/
theorem readSection_render [Platform] (hrs : ∀ r ∈ rs, r.tier = tier) :
    readSection tier ((render rs).1.sectionOf tier) = rs.map shown := by
  rw [readSection, sectionOf_render hrs, String.toList_append, List.drop_left, toList_body,
    linesOf_unlines newline_notMem_bodyLines]
  exact readLines_bodyLines none rs

/-- What is shown tells records apart by category, name and printed median. -/
theorem shown_eq_iff [Platform] {r r' : Record} : shown r = shown r' ↔
    r.category = r'.category ∧ r.name = r'.name ∧ printedMedian r = printedMedian r' := by
  have hname : r.name.text = r'.name.text ↔ r.name = r'.name := by
    rcases r.name with ⟨text, _⟩
    rcases r'.name with ⟨text', _⟩
    exact TestName.mk.injEq .. ▸ Iff.rfl
  rw [shown, shown, Shown.mk.injEq, (Option.map_injective Category.label_injective).eq_iff, hname]

/-- **No two reports of different records look the same**: if the records of one tier come to the
same section, then they agree, one by one, in all that is shown of them. -/
theorem forall₂_of_sectionOf_eq [Platform] (hrs : ∀ r ∈ rs, r.tier = tier)
    (hrs' : ∀ r ∈ rs', r.tier = tier)
    (htext : (render rs).1.sectionOf tier = (render rs').1.sectionOf tier) :
    List.Forall₂ (fun r r' ↦ r.category = r'.category ∧ r.name = r'.name ∧
      printedMedian r = printedMedian r') rs rs' := by
  have hshown : rs.map shown = rs'.map shown := by
    rw [← readSection_render hrs, ← readSection_render hrs', htext]
  rw [← List.forall₂_eq_eq_eq, List.forall₂_map_left_iff, List.forall₂_map_right_iff] at hshown
  exact hshown.imp fun r r' ↦ shown_eq_iff.1

/-- Records that differ in what is not shown, under a category that looks like a line. -/
theorem forall₂_of_sectionOf_eq_hidden :
    letI := Platform.signed
    let r (totalTime : UInt64) : Record :=
      ⟨⟨"x", by decide⟩, some ⟨"x: 5", by decide⟩, false, { totalTime }⟩
    (render [r 0, r 1]).1.secondary = (render [r 2, r 3]).1.secondary ∧
      List.Forall₂ (fun r r' ↦ r.category = r'.category ∧ r.name = r'.name ∧
        printedMedian r = printedMedian r') [r 0, r 1] [r 2, r 3] := by
  let := Platform.signed
  intro r
  have htext : (render [r 0, r 1]).1.secondary = (render [r 2, r 3]).1.secondary := rfl
  have htier : ∀ m n, ∀ k ∈ [r m, r n], k.tier = .secondary := by
    intro m n k hk
    rcases List.mem_pair.1 hk with rfl | rfl <;> rfl
  exact ⟨htext, forall₂_of_sectionOf_eq (htier 0 1) (htier 2 3) htext⟩

end Crossing.Report
