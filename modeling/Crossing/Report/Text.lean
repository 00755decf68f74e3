import Crossing.Decimal.Layout
import Crossing.Sample

/-!
# The text report

One line for each record, under headings for the categories. Primary records come in one section,
which has a title, the others in a second one. A heading is written where a record's category
differs from that of the record before it, whichever section that one belongs to.
-/

namespace Crossing.Report

/-- The two sections of a report. -/
structure TextReport where
  primary : String
  secondary : String
  deriving DecidableEq, Repr

/-- The title of the primary section. -/
def title : String := "Performance test results (CPU cycles):\n\n"

/-- What the result file holds. -/
def TextReport.contents (r : TextReport) : String := r.primary ++ r.secondary

/-- The state of writing a report: the sections so far and the category that was headed last. -/
structure Builder where
  primary : String := title
  secondary : String := ""
  last : Option Category := none

namespace Builder

/-- A heading, after an empty line. -/
def heading (c : Option Category) : String := "\n" ++ (c.map (·.label)).getD "" ++ ":\n"

/-- A line of the report. -/
def line [Platform] (r : Record) : String :=
  r.name.text ++ ": " ++ Decimal.Layout.report.render r.series.median ++ "\n"

/-- Adds a text to the primary section or to the other one. -/
def write (b : Builder) (isPrimary : Bool) (text : String) : Builder :=
  if isPrimary then { b with primary := b.primary ++ text }
  else { b with secondary := b.secondary ++ text }

/-- Adds a record. Only a heading changes which category was headed last. -/
def push [Platform] (b : Builder) (r : Record) : Builder :=
  let headed :=
    if r.category == b.last then b
    else { b.write r.isPrimary (heading r.category) with last := r.category }
  headed.write r.isPrimary (line r)

/-- The report so far. -/
def build (b : Builder) : TextReport := ⟨b.primary, b.secondary⟩

end Builder

/-- The report of some records, and the records as they are left: with their samples in order. -/
def render [Platform] (records : List Record) : TextReport × List Record :=
  ((records.foldl Builder.push {}).build, records.map Record.sort)

end Crossing.Report
