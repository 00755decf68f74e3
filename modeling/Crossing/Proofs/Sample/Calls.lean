import Crossing.Proofs.Double.TotalOrder

/-!
# Series in use

A series takes invocations and is asked for its median in any order, and each question sorts the
samples that are there so far, among which later ones are put at the end. So the samples are in no
order that could be told from the calls. What can be told is which ones they are: `Series.Recorded`
holds after each call (`recorded_after`), and from it follow the totals and the median.

Main statement: `calls_reflect_invocations`.
-/

namespace Crossing.Series

open Double (InOrder IsMedian inOrder_sortTotal place)

/-- The totals wrap around, and sorting does not change them. -/
theorem Recorded.totals [Platform] {s : Series} {ps : List (UInt64 × UInt64)} (h : s.Recorded ps) :
    s.totalTime.toNat = (ps.map fun p ↦ p.1.toNat).sum % 2 ^ 64 ∧
      s.totalIterations.toNat = (ps.map fun p ↦ p.2.toNat).sum % 2 ^ 64 := by
  induction h with
  | empty => exact ⟨rfl, rfl⟩
  | @record s ps _ elapsed iterations ih =>
    obtain ⟨htime, hcount⟩ := ih
    constructor
    · show (s.totalTime + elapsed).toNat = _
      rw [UInt64.toNat_add, htime, List.map_cons, List.sum_cons, Nat.mod_add_mod, Nat.add_comm]
    · show (s.totalIterations + iterations).toNat = _
      rw [UInt64.toNat_add, hcount, List.map_cons, List.sum_cons, Nat.mod_add_mod, Nat.add_comm]
  | sort _ ih => exact ih

/-- What a series is asked to do: to take an invocation, or to give the median. -/
inductive Call
  | record (elapsed iterations : UInt64)
  | median
  deriving DecidableEq, Repr

namespace Call

/-- What a call returns, and the series that it leaves. -/
def perform [Platform] (s : Series) : Call → Option Float × Series
  | record elapsed iterations => (none, s.record elapsed iterations)
  | median => (some s.median, s.sort)

/-- The invocation that a call records. -/
def invocation? : Call → Option (UInt64 × UInt64)
  | record elapsed iterations => some (elapsed, iterations)
  | median => none

end Call

/-- The invocations that some calls record, in this order. -/
def taken (calls : List Call) : List (UInt64 × UInt64) := calls.filterMap Call.invocation?

/-- Of one more call, only what it records is taken. -/
theorem taken_concat (calls : List Call) (call : Call) :
    taken (calls ++ [call]) = taken calls ++ call.invocation?.toList := by
  rw [taken, List.filterMap_append, taken]
  cases call <;> rfl

variable [Platform]

/-- The series after some calls. -/
def after (calls : List Call) : Series := calls.foldl (fun s call ↦ (call.perform s).2) {}

/-- One more call is made on the series that the others have left. -/
theorem after_concat (calls : List Call) (call : Call) :
    after (calls ++ [call]) = (call.perform (after calls)).2 := by
  rw [after, List.foldl_concat]
  rfl

/-- A call adds to a series what it records, and nothing else. -/
theorem recorded_perform {s : Series} {ps : List (UInt64 × UInt64)} (h : s.Recorded ps)
    (call : Call) : (call.perform s).2.Recorded (call.invocation?.toList ++ ps) := by
  cases call with
  | record elapsed iterations => exact h.record elapsed iterations
  | median => exact h.sort

/-- The samples are those of the invocations that were taken, though in no particular order. -/
theorem recorded_after (calls : List Call) : (after calls).Recorded (taken calls).reverse := by
  induction calls using List.reverseRecOn with
  | nil => exact .empty
  | append_singleton calls call ih =>
    have hstep := recorded_perform ih call
    rw [after_concat, taken_concat, List.reverse_append]
    cases call <;> exact hstep

/-- **Series reflect the invocations that they took.** Whatever calls came before, after the next
one the samples are the quotients of the invocations so far, their number is right, and the totals
are the sums of times and counts but for wrapping around. A question for the median is answered with
the one double in the middle of all samples so far, and leaves them sorted. All of this holds
whichever bits the platform has for `0 / 0`, and so at whichever end of the samples it is sorted. -/
theorem calls_reflect_invocations (before : List Call) (call : Call) :
    let invocations := taken (before ++ [call])
    let samples := invocations.map fun p ↦ quotient p.1 p.2
    let out := call.perform (after before)
    out.2.times.toList.Perm samples ∧ out.2.size = invocations.length ∧
      out.2.totalTime.toNat = (invocations.map fun p ↦ p.1.toNat).sum % 2 ^ 64 ∧
      out.2.totalIterations.toNat = (invocations.map fun p ↦ p.2.toNat).sum % 2 ^ 64 ∧
      (call = .median →
        (∀ x, out.1 = some x ↔ IsMedian samples x) ∧ InOrder out.2.times.toList) := by
  intro invocations samples out
  have h : out.2.Recorded invocations.reverse := after_concat before call ▸ recorded_after _
  have hperm : out.2.times.toList.Perm samples :=
    h.perm.trans (invocations.reverse_perm.map _)
  obtain ⟨htime, hcount⟩ := h.totals
  rw [List.map_reverse, List.sum_reverse] at htime hcount
  refine ⟨hperm, by rw [h.size_eq, List.length_reverse], htime, hcount, ?_⟩
  rintro rfl
  -- the question leaves the sorted samples, in the middle of which is its answer
  have hsorted : InOrder out.2.times.toList := inOrder_sortTotal _
  have hmedian : IsMedian samples (after before).median := hsorted.isMedian_middle hperm
  refine ⟨fun x ↦ ?_, hsorted⟩
  constructor
  · rintro ⟨⟩
    exact hmedian
  · intro hx
    exact congrArg some (hmedian.unique hx)

-- `0 / 0` comes before all other samples if it has a sign
example :
    letI := Platform.signed
    place (quotient 0 0) < place (quotient 0 1) ∧ place (quotient 0 1) < place (quotient 1 0) := by
  decide +kernel

end Crossing.Series
