import Crossing.Report.Summary
import Mathlib.Data.List.Basic

/-!
# Samples in order

Sorting samples twice is sorting them once, so a report that leaves the records sorted takes nothing
from one that is made after it. A series that recorded invocations and was sorted now and then
(`Series.Recorded`) still has one sample of each.

Which order samples are sorted in does not matter here, and neither does which bits stand for a
quotient of zeros: only that sorting permutes them, and that it does the same when done again.
-/

namespace Crossing

section

variable {α : Type} (bits : α → UInt64)

theorem perm_sortTotal (xs : List α) : (sortTotal bits xs).Perm xs := List.mergeSort_perm _ _

/-- What was sorted is in the order of the keys. -/
theorem pairwise_sortTotal (xs : List α) :
    (sortTotal bits xs).Pairwise fun a b ↦ totalKey (bits a) ≤ totalKey (bits b) := by
  have hsorted := @List.pairwise_mergeSort _
    (fun a b ↦ decide (totalKey (bits a) ≤ totalKey (bits b)))
    (fun a b c hab hbc ↦ by simpa using UInt64.le_trans (by simpa using hab) (by simpa using hbc))
    (fun a b ↦ by simpa using UInt64.le_total _ _) xs
  exact hsorted.imp fun h ↦ by simpa using h

theorem sortTotal_sortTotal (xs : List α) :
    sortTotal bits (sortTotal bits xs) = sortTotal bits xs :=
  List.mergeSort_of_pairwise ((pairwise_sortTotal bits xs).imp fun h ↦ by simpa using h)

end

section

variable [Platform]

namespace Series

/-- Sorting loses and adds no time. -/
theorem perm_sort (s : Series) : s.sort.times.toList.Perm s.times.toList := by
  rw [sort, List.toList_toArray]
  exact perm_sortTotal _ _

@[simp] theorem sort_sort (s : Series) : s.sort.sort = s.sort := by
  simp only [sort, List.toList_toArray, sortTotal_sortTotal]

/-- The median does not depend on whether it was asked for before. -/
@[simp] theorem median_sort (s : Series) : s.sort.median = s.median := by
  rw [median, sort_sort, median]

/-! ### Recorded invocations -/

/-- `s.Recorded ps` says that the samples of a series are those of some invocations, each an elapsed
time and a count. It may have been sorted at any time. -/
inductive Recorded : Series → List (UInt64 × UInt64) → Prop
  | empty : Recorded {} []
  | record {s : Series} {ps : List (UInt64 × UInt64)} (h : s.Recorded ps)
      (elapsed iterations : UInt64) :
      Recorded (s.record elapsed iterations) ((elapsed, iterations) :: ps)
  | sort {s : Series} {ps : List (UInt64 × UInt64)} (h : s.Recorded ps) : Recorded s.sort ps

namespace Recorded

variable {s : Series} {ps : List (UInt64 × UInt64)}

/-- The times of a series are the quotients of what was recorded, in some order. -/
theorem perm (h : s.Recorded ps) : s.times.toList.Perm (ps.map fun p ↦ quotient p.1 p.2) := by
  induction h with
  | empty => exact .refl _
  | @record s ps _ elapsed iterations ih =>
    rw [Series.record, Array.toList_push, List.map_cons]
    exact (List.perm_append_singleton _ _).trans (ih.cons _)
  | @sort s ps _ ih => exact s.perm_sort.trans ih

/-- A time in a series is the quotient of a pair that was recorded. -/
theorem mem_times (h : s.Recorded ps) {x : Float} :
    x ∈ s.times.toList ↔ ∃ p ∈ ps, quotient p.1 p.2 = x := by
  rw [h.perm.mem_iff, List.mem_map]

theorem size_eq (h : s.Recorded ps) : s.size = ps.length := by
  rw [size, ← Array.length_toList, h.perm.length_eq, List.length_map]

end Recorded

end Series

@[simp] theorem Record.sort_sort (r : Record) : r.sort.sort = r.sort := by
  rw [sort, sort, Series.sort_sort]

/-- What a record comes to does not depend on the order of its samples, once sorted. -/
@[simp] theorem Report.Result.ofRecord_sort (r : Record) : ofRecord r.sort = ofRecord r := by
  simp only [ofRecord, Record.sort, Series.sort_sort, Series.median_sort]

/-- The summary of sorted records is that of the records. -/
theorem Report.Summary.ofRecords_sort (records : List Record) (outerRounds : UInt64)
    (timestamp : Timestamp) (systemInfo : SystemInfo) :
    (ofRecords (records.map Record.sort) outerRounds timestamp systemInfo).1 =
      (ofRecords records outerRounds timestamp systemInfo).1 := by
  simp only [ofRecords, List.map_map, Function.comp_def, Result.ofRecord_sort]

end

end Crossing
