import Crossing.Proofs.Report.Reading
import Mathlib.Data.List.Induction

/-!
# Reports row by row

A report without a state: each record is a row, and what a row comes to depends on the row before it
only, whichever tiers the two belong to. A section is what the rows of its tier come to, one after
the other.

The builder remembers which category was headed last instead. That is the category of the last
record, though no heading may have been written for it (`last_foldl_push`), and so the builder lays
out the rows of its records.

Main statement: `render_row_by_row`.
-/

namespace Crossing.Report

/-- What a report shows of a record, and in which section. -/
structure Row where
  tier : Tier
  shown : Shown
  deriving DecidableEq

/-- The row of a record. -/
def rowOf [Platform] (r : Record) : Row := ⟨r.tier, shown r⟩

/-! ### Rows without a state -/

/-- The category in the row before the one at `i`. Before the first row there is none. -/
def categoryBefore (rows : List Row) : ℕ → Option String
  | 0 => none
  | i + 1 => rows[i]?.bind (·.shown.category)

/-- What a row comes to after a category: its line, below a heading if its own category is
another. -/
def pieceAfter (category : Option String) (s : Shown) : String :=
  (if s.category = category then "" else "\n" ++ s.category.getD "" ++ ":\n") ++
    (s.name ++ ": " ++ s.median ++ "\n")

/-- What the rows of one tier come to, in the order of all rows. -/
def piecesOf (rows : List Row) (tier : Tier) : String :=
  String.join ((rows.zipIdx.filter fun p ↦ p.1.tier = tier).map fun p ↦
    pieceAfter (categoryBefore rows p.2) p.1.shown)

/-- The report of some rows. -/
def layout (rows : List Row) : TextReport :=
  ⟨title ++ piecesOf rows .primary, piecesOf rows .secondary⟩

/-! ### One more row -/

section

variable (rows : List Row) (row : Row)

/-- Rows that come later do not change the category before a row. -/
theorem categoryBefore_concat {i : ℕ} (hi : i ≤ rows.length) :
    categoryBefore (rows ++ [row]) i = categoryBefore rows i := by
  cases i with
  | zero => rfl
  | succ i => rw [categoryBefore, categoryBefore, List.getElem?_append_left hi]

/-- The last row decides the category before the next one. -/
theorem categoryBefore_concat_succ :
    categoryBefore (rows ++ [row]) (rows.length + 1) = row.shown.category := by
  rw [categoryBefore, List.getElem?_concat_length]
  rfl

/-- The last row comes after all others in its section, and is not in the other one. -/
theorem piecesOf_concat (tier : Tier) :
    piecesOf (rows ++ [row]) tier = piecesOf rows tier ++
      if row.tier = tier then pieceAfter (categoryBefore rows rows.length) row.shown else "" := by
  have hearlier (p) (hp : p ∈ rows.zipIdx.filter fun p ↦ p.1.tier = tier) :
      pieceAfter (categoryBefore (rows ++ [row]) p.2) p.1.shown =
        pieceAfter (categoryBefore rows p.2) p.1.shown := by
    have hlt := List.snd_lt_of_mem_zipIdx (List.mem_filter.1 hp).1
    rw [categoryBefore_concat rows row (by omega)]
  rw [piecesOf, List.zipIdx_append, List.filter_append, List.map_append, String.join_append,
    List.map_congr_left hearlier, piecesOf, List.zipIdx_singleton, Nat.zero_add]
  by_cases htier : row.tier = tier
  · rw [if_pos htier, List.filter_singleton, decide_eq_true htier]
    simp [categoryBefore_concat]
  · rw [if_neg htier, List.filter_singleton, decide_eq_false htier]
    rfl

/-- A row adds a piece to the section of its tier, with a heading if the category changes. -/
theorem sectionOf_layout_concat (tier : Tier) :
    (layout (rows ++ [row])).sectionOf tier = (layout rows).sectionOf tier ++
      if row.tier = tier then pieceAfter (categoryBefore rows rows.length) row.shown else "" := by
  cases tier with
  | primary => exact (congrArg (title ++ ·) (piecesOf_concat ..)).trans String.append_assoc.symm
  | secondary => exact piecesOf_concat ..

end

/-! ### The builder -/

namespace Builder

/-- A piece of the report depends on what is shown of the record. -/
theorem piece_eq_pieceAfter [Platform] (last : Option Category) (r : Record) :
    piece last r = pieceAfter (last.map (·.label)) (shown r) := by
  have hiff : r.category = last ↔ (shown r).category = last.map (·.label) :=
    (Option.map_injective Category.label_injective).eq_iff.symm
  have hif : (if r.category == last then "" else heading r.category) =
      if (shown r).category = last.map (·.label) then ""
      else "\n" ++ (shown r).category.getD "" ++ ":\n" :=
    if_congr (beq_iff_eq.trans hiff) rfl rfl
  rw [piece, hif]
  rfl

/-- The category that was headed last is that of the last record. -/
theorem last_foldl_push [Platform] (rs : List Record) :
    (rs.foldl push {}).last.map (·.label) = categoryBefore (rs.map rowOf) rs.length := by
  rcases List.eq_nil_or_concat rs with rfl | ⟨rs, r, rfl⟩
  · rfl
  · have hlast := categoryBefore_concat_succ (rs.map rowOf) (rowOf r)
    rw [List.length_map] at hlast
    rw [List.concat_eq_append, List.foldl_concat, push_eq_extend, last_extend, List.map_append,
      List.length_append]
    exact hlast.symm

theorem sectionOf_extend (b : Builder) (tier tier' : Tier) (text : String)
    (last : Option Category) :
    (b.extend tier text last).build.sectionOf tier' =
      b.build.sectionOf tier' ++ if tier = tier' then text else "" := by
  cases tier <;> cases tier' <;> simp [extend, build, TextReport.sectionOf]

/-- By induction from the end: records that are pushed are laid out as rows. -/
theorem sectionOf_foldl_push [Platform] (rs : List Record) (tier : Tier) :
    (rs.foldl push {}).build.sectionOf tier = (layout (rs.map rowOf)).sectionOf tier := by
  induction rs using List.reverseRecOn with
  | nil => cases tier <;> rfl
  | append_singleton rs r ih =>
    rw [List.foldl_concat, push_eq_extend, sectionOf_extend, ih, piece_eq_pieceAfter,
      last_foldl_push, List.map_append, List.map_singleton, sectionOf_layout_concat,
      List.length_map]
    rfl

end Builder

/-- A report is the layout of its rows. -/
theorem render_eq_layout [Platform] (records : List Record) :
    (render records).1 = layout (records.map rowOf) := by
  have hsection := Builder.sectionOf_foldl_push records
  exact congrArg₂ TextReport.mk (hsection .primary) (hsection .secondary)

/-- **A report is laid out row by row.** The primary section is the title and the pieces of the
primary records, and the secondary one the pieces of the others, each in the order of all records.
The piece of a record is a line with its name and its median, below an empty line and a heading if
the record before it, of either tier, has another category. The result file holds one section after
the other. -/
theorem render_row_by_row [Platform] (records : List Record) :
    let rows := records.map rowOf
    let report := (render records).1
    report.primary = title ++ piecesOf rows .primary ∧ report.secondary = piecesOf rows .secondary ∧
      report.contents = title ++ piecesOf rows .primary ++ piecesOf rows .secondary := by
  intro rows report
  have hreport : report = layout rows := render_eq_layout records
  rw [hreport]
  exact ⟨rfl, rfl, rfl⟩

example :
    layout [⟨.secondary, some "A", "x", "1"⟩, ⟨.primary, some "A", "y", "2"⟩,
      ⟨.secondary, none, "z", "3"⟩] = ⟨title ++ "y: 2\n", "\nA:\nx: 1\n\n:\nz: 3\n"⟩ := by
  decide

end Crossing.Report
