import Crossing.Proofs.Report.Loading

/-!
# How accurately summaries are loaded

The doubles of a summary are written as their shortest decimals, which identify them, but they are
not read with the same care: a decimal with more than 53 bits of digits is rounded before it is
scaled, and so is a power of ten above `10 ^ 22`. Each of the two costs a double at most one place,
and without them it is read as it was (`doubles_after_save`).

It takes no large numbers to lose a place: `1 / 11` is written with 16 digits and comes back as the
next double (`eleventh_after_save`).
-/

namespace Crossing.Report

open Double (bits IsQuotient)
open Json (placesLost)

/-- A result is read again double by double. -/
theorem forall₂_reread {r r' : Result} (h : r.reread = some r') :
    List.Forall₂ (fun x y ↦ Json.reread x = some y) r.doubles r'.doubles := by
  simp only [Result.reread, Option.bind_eq_bind, Option.bind_eq_some_iff] at h
  obtain ⟨median, hmedian, min, hmin, max, hmax, throughput, hthroughput, h⟩ := h
  cases h
  exact .cons hmedian (.cons hmin (.cons hmax (.cons hthroughput .nil)))

/-- No double of a result loses more than two places. -/
theorem forall₂_doubles {r r' : Result} (h : ∀ x ∈ r.doubles, IsQuotient x)
    (hread : r.reread = some r') :
    List.Forall₂ (fun x y ↦ |(bits y : ℤ) - bits x| ≤ placesLost x ∧ placesLost x ≤ 2)
      r.doubles r'.doubles :=
  ((List.forall₂_and_left _ _).2 ⟨h, forall₂_reread hread⟩).imp fun x _ h ↦
    ⟨Json.abs_bits_reread_sub_le h.1 h.2, Json.placesLost_le x⟩

section

variable [Platform] {F : Type} {files : Host.FileSystem (StateM F)}
  {Same : F → String → String → Prop} {path : String} {f f' : F} {records : List Record}
  {samples : List (List (UInt64 × UInt64))} {timestamp : Timestamp} {outerRounds : UInt64}
  {systemInfo : SystemInfo}

/-- Where all counts are positive, a summary is loaded with each of its results read again. -/
theorem Summary.exists_load
    (hrecorded : List.Forall₂ (fun r ps ↦ r.series.Recorded ps) records samples)
    (hcounts : ∀ ps ∈ samples, ∀ p ∈ ps, p.2 ≠ 0) (htimestamp : timestamp.IsValid)
    (hfiles : files.Lawful Same)
    (hsave : (ofRecords records outerRounds timestamp systemInfo).1.save files path f =
      (.ok (), f')) :
    ∃ s, (load files path f').1 = .ok s ∧
      List.Forall₂ (fun r r' ↦ (∀ x ∈ r.doubles, IsQuotient x) ∧ r.reread = some r')
        (records.map Result.ofRecord) s.results := by
  have hsamples : ∀ ps ∈ samples, (0, 0) ∉ ps := fun ps hps h ↦ hcounts ps hps _ h rfl
  have hquotients := isQuotient_ofRecord hrecorded hsamples
  obtain ⟨results, hresults⟩ :=
    Option.isSome_iff_exists.1 ((isSome_mapM_reread hrecorded hsamples).2 hcounts)
  have hload := (toOption_load hfiles htimestamp hquotients hsave).trans
    (congrArg (Option.map _) hresults)
  exact ⟨_, eq_ok_of_toOption hload,
    (List.forall₂_and_left _ _).2 ⟨hquotients, forall₂_of_mapM hresults⟩⟩

/-- **How accurately doubles are loaded**: what was saved is loaded, and no double is off by more
places than its decimal costs, which are two at most. -/
theorem Summary.doubles_after_save
    (hrecorded : List.Forall₂ (fun r ps ↦ r.series.Recorded ps) records samples)
    (hcounts : ∀ ps ∈ samples, ∀ p ∈ ps, p.2 ≠ 0) (htimestamp : timestamp.IsValid)
    (hfiles : files.Lawful Same)
    (hsave : (ofRecords records outerRounds timestamp systemInfo).1.save files path f =
      (.ok (), f')) :
    ∃ s, (load files path f').1 = .ok s ∧
      List.Forall₂ (fun r r' ↦
          List.Forall₂ (fun x y ↦ |(bits y : ℤ) - bits x| ≤ placesLost x ∧ placesLost x ≤ 2)
            r.doubles r'.doubles)
        (ofRecords records outerRounds timestamp systemInfo).1.results s.results := by
  obtain ⟨s, hload, hresults⟩ := exists_load hrecorded hcounts htimestamp hfiles hsave
  exact ⟨s, hload, hresults.imp fun r r' h ↦ forall₂_doubles h.1 h.2⟩

end

/-- One run of eleven rounds that took one unit. -/
theorem recorded_eleventh [Platform] : eleventh.series.Recorded [(1, 11)] := .record .empty 1 11

/-- The quotient of two small numbers is loaded within a place. -/
theorem doubles_after_save_eleventh :
    letI := Platform.signed
    ∃ s s', Reloaded [eleventh] s (.ok s') ∧
      List.Forall₂ (fun r r' ↦
          List.Forall₂ (fun x y ↦ |(bits y : ℤ) - bits x| ≤ placesLost x ∧ placesLost x ≤ 2)
            r.doubles r'.doubles)
        s.results s'.results := by
  let := Platform.signed
  obtain ⟨tree, hsave⟩ := exists_save [eleventh]
  obtain ⟨s', hload, hresults⟩ := Summary.doubles_after_save (.cons recorded_eleventh .nil)
    (by simp) isValid_leapSecond Host.Tree.lawful_fileSystem hsave
  exact ⟨_, s', ⟨rfl, tree, hsave, hload⟩, hresults⟩

/-- With one run only, all statistics are the same double. -/
theorem doubles_eleventh [Platform] :
    (Result.ofRecord eleventh).doubles = List.replicate 4 (Series.quotient 1 11) := by
  simp [Result.doubles, Result.ofRecord, eleventh, Series.record, Series.sort, Series.median,
    Series.least, Series.greatest, Series.throughput, Series.reduce, sortTotal, middle]

/-- Equal doubles are read as equal doubles. -/
theorem toBits_of_forall₂_reread {n : ℕ} {x : Float} {ys : List Float} {w : UInt64}
    (hx : (Json.reread x).map Float.toBits = some w)
    (h : List.Forall₂ (fun x y ↦ Json.reread x = some y) (List.replicate n x) ys) :
    ys.map Float.toBits = List.replicate n w := by
  induction n generalizing ys with
  | zero =>
    cases h
    rfl
  | succ n ih =>
    rw [List.replicate_succ] at h ⊢
    obtain ⟨y, ys, hy, hys, rfl⟩ := List.forall₂_cons_left_iff.1 h
    rw [hy] at hx
    rw [List.map_cons, ih hys, Option.some.inj hx]

/-- `1 / 11` is not loaded as it was saved, but as the next double. -/
theorem eleventh_after_save :
    letI := Platform.signed
    eleventh.series.Recorded [(1, 11)] ∧ ∃ s s', Reloaded [eleventh] s (.ok s') ∧
      (s.results.map fun r ↦ r.doubles.map Float.toBits) = [.replicate 4 0x3FB745D1745D1746] ∧
      (s'.results.map fun r ↦ r.doubles.map Float.toBits) = [.replicate 4 0x3FB745D1745D1747] := by
  let := Platform.signed
  obtain ⟨tree, hsave⟩ := exists_save [eleventh]
  obtain ⟨s', hload, hresults⟩ := Summary.exists_load (.cons recorded_eleventh .nil) (by simp)
    isValid_leapSecond Host.Tree.lawful_fileSystem hsave
  obtain ⟨r', _, ⟨-, hread⟩, ⟨⟩, hresults'⟩ := List.forall₂_cons_left_iff.1 hresults
  refine ⟨recorded_eleventh, _, s', ⟨rfl, tree, hsave, hload⟩, ?_, ?_⟩
  · show [(Result.ofRecord eleventh).doubles.map Float.toBits] = _
    rw [doubles_eleventh]
    decide +kernel
  · have hforall := forall₂_reread hread
    rw [doubles_eleventh] at hforall
    have hnext : (Json.reread (Series.quotient 1 11)).map Float.toBits =
        some 0x3FB745D1745D1747 := by
      decide +kernel
    rw [hresults', List.map_singleton, toBits_of_forall₂_reread hnext hforall]

end Crossing.Report
