import Crossing.Proofs.Report.Loading
import Crossing.Proofs.Report.Rows
import Crossing.Proofs.Sample.Extremes

/-!
# Reports and summaries of the same records

To make a report or a summary, or to ask for one median, sorts samples where they are. None of this
can be told from what is asked for next: it leaves the records as they are once sorted
(`map_sort_afterRequests`), and reports, summaries and medians of sorted records are those of the
records before. So it does not matter what was asked for first, and the report is the layout of the
results in the summary.

Main statement: `reports_agree`.
-/

namespace Crossing

open Double (InOrder inOrder_sortTotal reduce_lesser_of_inOrder reduce_greater_of_inOrder
  middle_mem_of_inOrder)

namespace Report

/-! ### Requests -/

/-- What is asked for: the report or the summary of all records, or the median of one. -/
inductive Request
  | report
  | summary (outerRounds : UInt64) (timestamp : Timestamp) (systemInfo : SystemInfo)
  | median (i : ℕ)

/-- The records that a request leaves. -/
def Request.leaves [Platform] (records : List Record) : Request → List Record
  | report => (render records).2
  | summary outerRounds timestamp systemInfo =>
    (Summary.ofRecords records outerRounds timestamp systemInfo).2
  | median i => records.modify i Record.sort

/-- The records after some requests. -/
def afterRequests [Platform] (records : List Record) (requests : List Request) : List Record :=
  requests.foldl Request.leaves records

section

variable [Platform] {records records' : List Record}

/-- No request changes what records are once sorted. -/
theorem Request.map_sort_leaves (request : Request) (records : List Record) :
    (request.leaves records).map Record.sort = records.map Record.sort := by
  cases request with
  | report => simp [leaves, render, Function.comp_def]
  | summary => simp [leaves, Summary.ofRecords, Function.comp_def]
  | median i =>
    refine List.ext_getElem? fun j ↦ ?_
    rw [leaves, List.getElem?_map, List.getElem?_modify, List.getElem?_map]
    by_cases h : i = j <;> simp [h, Function.comp_def]

/-- Requests for statistics sort the series, and change nothing else. -/
theorem map_sort_afterRequests (records : List Record) (requests : List Request) :
    (afterRequests records requests).map Record.sort = records.map Record.sort := by
  induction requests generalizing records with
  | nil => rfl
  | cons request requests ih =>
    rw [afterRequests, List.foldl_cons]
    exact (ih _).trans (request.map_sort_leaves records)

/-! ### What is asked for depends on the sorted records -/

theorem rowOf_sort (r : Record) : rowOf r.sort = rowOf r := by
  simp only [rowOf, shown, printedMedian, Record.sort, Record.tier, Series.median_sort]

/-- What does not depend on the order is the same for records that are the same when sorted. -/
theorem map_eq_of_map_sort_eq {α : Type} {f : Record → α} (hf : ∀ r, f r.sort = f r)
    (h : records.map Record.sort = records'.map Record.sort) : records.map f = records'.map f := by
  have hmap := congrArg (List.map f) h
  simpa only [List.map_map, Function.comp_def, hf] using hmap

end

/-! ### Results -/

/-- The row of a result. -/
def Result.row (r : Result) : Row :=
  ⟨r.tier, r.category, r.name, Decimal.Layout.report.render r.median⟩

/-- What a result says about a record. -/
structure Result.Describes [Platform] (result : Result) (r : Record) : Prop where
  name : result.name = r.name.text
  category : result.category = r.category.map (·.label)
  tier : result.tier = r.tier
  sorted : ∃ xs, xs.Perm r.series.times.toList ∧ InOrder xs ∧ result.min = xs.head?.getD 0 ∧
    result.median = xs[xs.length / 2]?.getD 0 ∧ result.max = xs.getLast?.getD 0
  min_le_median : result.min ≤ result.median
  median_le_max : result.median ≤ result.max

/-- What is computed of a record describes it. -/
theorem Result.describes_ofRecord [Platform] {r : Record} {ps : List (UInt64 × UInt64)}
    (hr : r.series.Recorded ps) (hps : (0, 0) ∉ ps) : (ofRecord r).Describes r := by
  have hsorted : InOrder r.series.sort.times.toList := inOrder_sortTotal _
  have hquotients : ∀ x ∈ r.series.sort.times.toList, Double.IsQuotient x :=
    fun x hx ↦ hr.sort.isQuotient hps hx
  have hmin : (ofRecord r).min = _ := reduce_lesser_of_inOrder hsorted hquotients
  have hmax : (ofRecord r).max = _ := reduce_greater_of_inOrder hsorted hquotients
  obtain ⟨hle, hle'⟩ := middle_mem_of_inOrder hsorted hquotients
  exact
    { name := rfl
      category := rfl
      tier := rfl
      sorted := ⟨_, r.series.perm_sort, hsorted, hmin, List.getD_eq_getElem?_getD, hmax⟩
      min_le_median := hmin ▸ hle
      median_le_max := hmax ▸ hle' }

/-- **Reports and summaries agree, and do not disturb each other.** Records have one report and one
list of results, unless an invocation was recorded with neither a time nor a count. Whatever was
asked for before, the report is that one, a summary has those results, and the medians are those in
the results. The report shows the medians of the results, row by row. Each result has the first, the
middle and the last of its record's samples in order. -/
theorem reports_agree [Platform] {records : List Record}
    (hrecords : ∀ r ∈ records, ∃ ps, r.series.Recorded ps ∧ (0, 0) ∉ ps) :
    ∃ (report : TextReport) (results : List Result),
      (∀ requests : List Request,
        let left := afterRequests records requests
        (render left).1 = report ∧
          (∀ outerRounds timestamp systemInfo,
            (Summary.ofRecords left outerRounds timestamp systemInfo).1.results = results) ∧
          left.map (·.series.median) = results.map (·.median)) ∧
      report = layout (results.map Result.row) ∧
      List.Forall₂ (fun r result ↦ result.Describes r) records results := by
  refine ⟨_, records.map Result.ofRecord, fun requests ↦ ?_, rfl, ?_⟩
  · intro left
    have hleft : left.map Record.sort = records.map Record.sort :=
      map_sort_afterRequests records requests
    refine ⟨?_, fun _ _ _ ↦ map_eq_of_map_sort_eq Result.ofRecord_sort hleft, ?_⟩
    · -- a record and its result have the same row
      rw [render_eq_layout, map_eq_of_map_sort_eq rowOf_sort hleft, List.map_map]
      rfl
    · rw [List.map_map]
      exact map_eq_of_map_sort_eq (fun r ↦ r.series.median_sort) hleft
  · rw [List.forall₂_map_right_iff, List.forall₂_same]
    intro r hr
    obtain ⟨ps, hps, hzero⟩ := hrecords r hr
    exact Result.describes_ofRecord hps hzero

/-- A record whose samples are not in order. -/
def unsorted : Record :=
  ⟨⟨"unsorted", rfl⟩, none, false, ((Series.record {} 7 2).record 0 3).record 7 2⟩

/-- To ask for a median first sorts the samples, but does not change the report. -/
theorem reports_agree_unsorted :
    letI := Platform.signed
    (∀ r ∈ [eleventh, unsorted], ∃ ps, r.series.Recorded ps ∧ (0, 0) ∉ ps) ∧
      afterRequests [eleventh, unsorted] [.median 1] = [eleventh, unsorted.sort] ∧
      ∃ (report : TextReport) (first second : Result),
        (render [eleventh, unsorted]).1 = report ∧ (render [eleventh, unsorted.sort]).1 = report ∧
        report = layout [first.row, second.row] ∧ first.Describes eleventh ∧
        second.Describes unsorted := by
  let := Platform.signed
  have heleventh : eleventh.series.Recorded [(1, 11)] := .record .empty 1 11
  have hunsorted : unsorted.series.Recorded [(7, 2), (0, 3), (7, 2)] :=
    .record (.record (.record .empty 7 2) 0 3) 7 2
  have hrecords : ∀ r ∈ [eleventh, unsorted], ∃ ps, r.series.Recorded ps ∧ (0, 0) ∉ ps := by
    rw [List.forall_mem_cons, List.forall_mem_singleton]
    exact ⟨⟨_, heleventh, by decide⟩, ⟨_, hunsorted, by decide⟩⟩
  obtain ⟨report, results, hrequests, hlayout, hresults⟩ := reports_agree hrecords
  obtain ⟨first, _, hfirst, hrest, rfl⟩ := List.forall₂_cons_left_iff.1 hresults
  obtain ⟨second, _, hsecond, ⟨⟩, rfl⟩ := List.forall₂_cons_left_iff.1 hrest
  exact ⟨hrecords, rfl, report, first, second, (hrequests []).1, (hrequests [.median 1]).1, hlayout,
    hfirst, hsecond⟩

end Report

end Crossing
