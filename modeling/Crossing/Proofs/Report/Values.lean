import Crossing.Proofs.Json.Reading
import Crossing.Proofs.Timestamp
import Crossing.Report.Summary

/-!
# Summaries as they are written and read

What a summary is written as is read member by member. All of it is read as it was, except for the
doubles of its results, which are read as `Json.reread` says: if one of them cannot be read, then
neither can the summary (`Summary.toOption_ofOctets`).

There is one law for each record that a summary is made of, and each follows from the laws for its
fields. A field is looked up by its name (`updates_of`), so the order in which members are written
does not matter to the proofs.
-/

namespace Crossing.Report

open Double (IsQuotient)
open Json (Reader Value Updates Yields applyAll yields_text yields_nat yields_field
  yields_record)

/-! ### Fields -/

/-- A member updates a record by the field of its name. -/
theorem updates_of {σ α : Type} {fields : List (Json.Field σ)} {reader : Reader α}
    {set : α → σ → σ} (name : String)
    (hfind : fields.find? (·.name == name) = some (.of name reader set)) {v : Value}
    {read : Option α} (h : Yields reader v read) :
    Updates fields (name, v) (read.map set) :=
  ⟨_, hfind, yields_field h name set⟩

/-- An optional text is read as it was written. -/
theorem yields_optionalText (s : Option String) :
    Yields (Json.readOptional (Json.readString "a string")) (optionalText s) (some s) := by
  cases s with
  | none => exact Json.yields_none _
  | some s => exact Json.yields_some _ s

theorem yields_tier (tier : Tier) :
    Yields (Json.readVariant Tier.variants) (.text tier.label) (some tier) := by
  cases tier with
  | primary => exact Json.yields_variant rfl
  | secondary => exact Json.yields_variant rfl

/-- A time that exists is read from its text. -/
theorem yields_timestamp {t : Timestamp} (h : t.IsValid) :
    Yields readTimestamp (.text t.toText) (some t) := by
  intro level blanks rest hblanks hrest
  have hread := yields_text "an RFC 3339 formatted date and time string" t.toText level blanks rest
    hblanks hrest
  rw [readTimestamp, toOption_bind, hread, Option.map_some, Option.bind_some]
  simp only [Timestamp.ofString_toText h]
  rfl

/-! ### Records -/

/-- What is known of the machine is read as it was written. -/
theorem yields_systemInfo (i : SystemInfo) : Yields SystemInfo.read i.toValue (some i) := by
  apply yields_record (List.cons_ne_nil _ _)
  case h =>
    exact .cons (updates_of "os" rfl (yields_text _ i.os)) <|
      .cons (updates_of "os_version" rfl (yields_text _ i.osVersion)) <|
      .cons (updates_of "kernel_version" rfl (yields_optionalText i.kernelVersion)) <|
      .cons (updates_of "cpu_model" rfl (yields_text _ i.cpuModel)) <|
      .cons (updates_of "cpu_cores" rfl (yields_nat _ i.cpuCores)) <|
      .cons (updates_of "memory_bytes" rfl (yields_nat _ i.memoryBytes)) <|
      .cons (updates_of "hostname" rfl (yields_text _ i.hostname)) <|
      .cons (updates_of "arch" rfl (yields_text _ i.arch)) <|
      .cons (updates_of "hardware_counter" rfl (Json.yields_bool i.hardwareCounter)) .nil
  case hkeys => simp
  case hread => rfl

/-- The doubles of a result. -/
def Result.doubles (r : Result) : List Float := [r.median, r.min, r.max, r.throughput]

/-- A result as it is read where it was written. -/
def Result.reread (r : Result) : Option Result := do
  let median ← Json.reread r.median
  let min ← Json.reread r.min
  let max ← Json.reread r.max
  let throughput ← Json.reread r.throughput
  return { r with median, min, max, throughput }

/-- The members of a result after its name and its category. -/
theorem exists_updates {r : Result} (h : ∀ x ∈ r.doubles, IsQuotient x) :
    ∃ updates, List.Forall₂ (Updates resultFields)
        [("tier", .text r.tier.label), ("median", .double r.median), ("min", .double r.min),
          ("max", .double r.max), ("total_time", .nat r.totalTime.toNat),
          ("total_iterations", .nat r.totalIterations.toNat), ("throughput", .double r.throughput)]
        updates ∧
      ((applyAll updates { name := some r.name, category := r.category }).bind fun d ↦
        d.finish.toOption) = r.reread := by
  obtain ⟨hmedian, hmin, hmax, hthroughput⟩ :
      IsQuotient r.median ∧ IsQuotient r.min ∧ IsQuotient r.max ∧ IsQuotient r.throughput := by
    simpa [Result.doubles] using h
  refine ⟨_, .cons (updates_of "tier" rfl (yields_tier r.tier)) <|
    .cons (updates_of "median" rfl (Json.yields_double hmedian)) <|
    .cons (updates_of "min" rfl (Json.yields_double hmin)) <|
    .cons (updates_of "max" rfl (Json.yields_double hmax)) <|
    .cons (updates_of "total_time" rfl (yields_nat _ r.totalTime)) <|
    .cons (updates_of "total_iterations" rfl (yields_nat _ r.totalIterations)) <|
    .cons (updates_of "throughput" rfl (Json.yields_double hthroughput)) .nil, ?_⟩
  -- one double that is refused refuses the result, whichever comes first
  rw [Result.reread]
  cases Json.reread r.median with
  | none => rfl
  | some median =>
    cases Json.reread r.min with
    | none => rfl
    | some min =>
      cases Json.reread r.max with
      | none => rfl
      | some max => cases Json.reread r.throughput <;> rfl

/-- A result is read with its doubles read again. -/
theorem yields_result {r : Result} (h : ∀ x ∈ r.doubles, IsQuotient x) :
    Yields Result.read r.toValue r.reread := by
  obtain ⟨updates, hupdates, hread⟩ := exists_updates h
  obtain ⟨name, category, tier, median, min, max, totalTime, totalIterations, throughput⟩ := r
  have hname : Updates resultFields ("name", .text name) _ :=
    updates_of "name" rfl (yields_text _ name)
  cases category with
  | none => exact yields_record (List.cons_ne_nil _ _) (.cons hname hupdates) (by simp) hread
  | some c =>
    have hcategory : Updates resultFields ("category", .text c) _ :=
      updates_of "category" rfl (Json.yields_some _ c)
    exact yields_record (List.cons_ne_nil _ _) (.cons hname (.cons hcategory hupdates)) (by simp)
      hread

/-- A list of results is read one by one. -/
theorem yields_results {rs : List Result} (h : ∀ r ∈ rs, ∀ x ∈ r.doubles, IsQuotient x) :
    Yields (Json.readList Result.read) (.list (rs.map Result.toValue)) (rs.mapM Result.reread) := by
  have hitems :
      List.Forall₂ (Yields Result.read) (rs.map Result.toValue) (rs.map Result.reread) := by
    rw [List.forall₂_map_left_iff, List.forall₂_map_right_iff]
    exact List.forall₂_same.2 fun r hr ↦ yields_result (h r hr)
  have hlist := Json.yields_list (by simp [Result.toValue]) hitems
  rwa [List.mapM_map] at hlist

/-- **What is read where a summary was written**: the summary with its results read again, if all of
them can be. -/
theorem Summary.toOption_ofOctets {s : Summary} (htimestamp : s.timestamp.IsValid)
    (hresults : ∀ r ∈ s.results, ∀ x ∈ r.doubles, IsQuotient x) :
    (Summary.ofOctets (Text.Utf8.encode s.toText.toList)).toOption =
      (s.results.mapM Result.reread).map fun results ↦ { s with results } := by
  refine Json.toOption_readWhole ?_
  apply yields_record (List.cons_ne_nil _ _)
  case h =>
    exact .cons (updates_of "benchmark_suite" rfl (yields_text _ s.suite)) <|
      .cons (updates_of "version" rfl (yields_text _ s.version)) <|
      .cons (updates_of "timestamp" rfl (yields_timestamp htimestamp)) <|
      .cons (updates_of "system_info" rfl (yields_systemInfo s.systemInfo)) <|
      .cons (updates_of "outer_rounds" rfl (yields_nat _ s.outerRounds)) <|
      .cons (updates_of "results" rfl (yields_results hresults)) .nil
  case hkeys => simp
  case hread => cases s.results.mapM Result.reread <;> rfl

end Crossing.Report
