import Crossing.Proofs.Outcome
import Crossing.Proofs.Report.File
import Crossing.Proofs.Report.Values
import Crossing.Proofs.Sample

/-!
# Summaries that were saved and are loaded

A summary is loaded from the file that it was saved to unless one of its doubles is infinite, which
is written as null. The doubles of a result are samples, or zero, or the quotient of two totals
(`mem_doubles`); so none is infinite unless a sample is, and if a sample is, the greatest is.

So whether a summary can be loaded is decided by the counts that were recorded, and not by its
statistics (`isSome_mapM_reread`): a sample is infinite if its count is zero, and the greatest
sample is among the doubles of the result.
-/

namespace Crossing

open Double (IsQuotient infinity isQuotient_quotient reduce_eq_or_mem lesser_eq greater_eq
  reduce_greater_eq_infinity)

namespace Series

variable {s : Series} {ps : List (UInt64 × UInt64)}

/-- Without measurements of `0 / 0`, all times are quotients. -/
theorem Recorded.isQuotient [Platform] (h : s.Recorded ps) (hps : (0, 0) ∉ ps) {x : Float}
    (hx : x ∈ s.times.toList) : IsQuotient x := by
  obtain ⟨p, hp, rfl⟩ := h.mem_times.1 hx
  exact (isQuotient_quotient (ne_of_mem_of_not_mem hp hps)).1

/-- A time is infinite if no rounds were counted. -/
theorem Recorded.infinity_mem_iff [Platform] (h : s.Recorded ps) (hps : (0, 0) ∉ ps) :
    infinity ∈ s.times.toList ↔ ∃ p ∈ ps, p.2 = 0 := by
  rw [h.mem_times]
  exact exists_congr fun p ↦ and_congr_right fun hp ↦
    (isQuotient_quotient (ne_of_mem_of_not_mem hp hps)).2

end Series

/-- The middle of a list is in it, unless there is nothing in it. -/
theorem middle_eq_or_mem {α : Type} (default : α) (xs : List α) :
    middle default xs = default ∨ middle default xs ∈ xs := by
  rw [middle, List.getD_eq_getElem?_getD]
  cases h : xs[xs.length / 2]? with
  | none => exact .inl rfl
  | some x => exact .inr (List.mem_of_getElem? h)

namespace Report

/-! ### The doubles of a result -/

section

variable [Platform] {r : Record} {ps : List (UInt64 × UInt64)} {x : Float}

/-- **What the doubles of a result are.** -/
theorem mem_doubles (hx : x ∈ (Result.ofRecord r).doubles) :
    x = 0 ∨ x ∈ r.series.times.toList ∨
      ∃ elapsed iterations, iterations ≠ 0 ∧ x = Series.quotient elapsed iterations := by
  have hsample (h : x = 0 ∨ x ∈ r.series.sort.times.toList) :
      x = 0 ∨ x ∈ r.series.times.toList ∨
        ∃ elapsed iterations, iterations ≠ 0 ∧ x = Series.quotient elapsed iterations :=
    h.imp_right fun h ↦ .inl (r.series.perm_sort.mem_iff.1 h)
  rw [Result.doubles, List.mem_cons, List.mem_cons, List.mem_cons, List.mem_singleton] at hx
  rcases hx with rfl | rfl | rfl | rfl
  · exact hsample (middle_eq_or_mem _ _)
  · exact hsample (reduce_eq_or_mem lesser_eq _)
  · exact hsample (reduce_eq_or_mem greater_eq _)
  · rw [Result.ofRecord, Series.throughput]
    split_ifs with hzero
    · exact .inl rfl
    · exact .inr (.inr ⟨_, _, fun h ↦ hzero (beq_iff_eq.2 h), rfl⟩)

/-- All statistics of a record are quotients, since they are among its times. -/
theorem isQuotient_of_mem_doubles (hr : r.series.Recorded ps) (hps : (0, 0) ∉ ps)
    (hx : x ∈ (Result.ofRecord r).doubles) : IsQuotient x := by
  rcases mem_doubles hx with rfl | hx | ⟨elapsed, iterations, hne, rfl⟩
  · exact .zero rfl
  · exact hr.isQuotient hps hx
  · exact (isQuotient_quotient fun h ↦ hne (congrArg Prod.snd h)).1

/-- The doubles of a result are finite if all its counts are positive, and only then. -/
theorem isFinite_doubles_iff (hr : r.series.Recorded ps) (hps : (0, 0) ∉ ps) :
    (∀ x ∈ (Result.ofRecord r).doubles, x.isFinite = true) ↔ ∀ p ∈ ps, p.2 ≠ 0 := by
  constructor
  · intro hfinite p hp hzero
    have hmem : infinity ∈ r.series.sort.times.toList :=
      r.series.perm_sort.mem_iff.2 ((hr.infinity_mem_iff hps).2 ⟨p, hp, hzero⟩)
    have hmax : (Result.ofRecord r).max = infinity :=
      reduce_greater_eq_infinity (fun x hx ↦ hr.sort.isQuotient hps hx) hmem
    have hmax' : (Result.ofRecord r).max.isFinite = true := hfinite _ (by simp [Result.doubles])
    exact Double.ne_infinity_of_isFinite hmax' hmax
  · intro hcounts x hx
    refine (isQuotient_of_mem_doubles hr hps hx).isFinite_iff.2 ?_
    rcases mem_doubles hx with rfl | hx | ⟨elapsed, iterations, hne, rfl⟩
    · exact Double.ne_infinity_of_isFinite rfl
    · rintro rfl
      obtain ⟨p, hp, hzero⟩ := (hr.infinity_mem_iff hps).1 hx
      exact hcounts p hp hzero
    · exact fun h ↦ hne ((isQuotient_quotient fun h ↦ hne (congrArg Prod.snd h)).2.1 h)

end

/-! ### Reading results again -/

/-- A result can be read again if all its doubles are finite. -/
theorem isSome_reread_iff {r : Result} (h : ∀ x ∈ r.doubles, IsQuotient x) :
    r.reread.isSome ↔ ∀ x ∈ r.doubles, x.isFinite = true := by
  have hiff : r.reread.isSome ↔ ∀ x ∈ r.doubles, (Json.reread x).isSome := by
    simp only [Result.doubles, Result.reread, List.forall_mem_cons]
    cases Json.reread r.median <;> cases Json.reread r.min <;> cases Json.reread r.max <;>
      cases Json.reread r.throughput <;> simp
  rw [hiff]
  exact forall₂_congr fun x hx ↦ by rw [Json.isSome_reread (h x hx)]

/-- A result that is read again is the same apart from its doubles. -/
structure Result.Matches (r r' : Result) : Prop where
  name : r'.name = r.name
  category : r'.category = r.category
  tier : r'.tier = r.tier
  totalTime : r'.totalTime = r.totalTime
  totalIterations : r'.totalIterations = r.totalIterations

/-- A summary that is loaded is the same apart from the doubles of its results. -/
structure Summary.Matches (s s' : Summary) : Prop where
  suite : s'.suite = s.suite
  version : s'.version = s.version
  timestamp : s'.timestamp = s.timestamp
  systemInfo : s'.systemInfo = s.systemInfo
  outerRounds : s'.outerRounds = s.outerRounds
  results : List.Forall₂ Result.Matches s.results s'.results

/-- What is read of a result differs in the last places of its doubles only. -/
theorem Result.matches_of_reread {r r' : Result} (h : r.reread = some r') : r.Matches r' := by
  simp only [Result.reread, Option.bind_eq_bind, Option.bind_eq_some_iff] at h
  obtain ⟨_, -, _, -, _, -, _, -, h⟩ := h
  cases h
  exact ⟨rfl, rfl, rfl, rfl, rfl⟩

namespace Summary

variable {F : Type} {files : Host.FileSystem (StateM F)} {Same : F → String → String → Prop}
  {path : String} {f f' : F}

/-- What is loaded is what is read of the text that was saved. -/
theorem load_of_save (hfiles : files.Lawful Same) {s : Summary}
    (hsave : s.save files path f = (.ok (), f')) :
    (load files path f').1 = (ofOctets (octets s.toText)).mapError fun issue ↦
      .io "parsing JSON summary" (.json issue) := by
  have hread : files.read path f' = (.ok (octets s.toText), (files.read path f').2) :=
    Prod.ext (read_of_save hfiles hsave) rfl
  rw [load, bind_apply, hread]
  dsimp only
  cases ofOctets (octets s.toText) <;> rfl

/-- A summary that was saved is loaded with its doubles read again, and all else as it was. -/
theorem toOption_load (hfiles : files.Lawful Same) {s : Summary} (htimestamp : s.timestamp.IsValid)
    (hresults : ∀ r ∈ s.results, ∀ x ∈ r.doubles, IsQuotient x)
    (hsave : s.save files path f = (.ok (), f')) :
    (load files path f').1.toOption =
      (s.results.mapM Result.reread).map fun results ↦ { s with results } := by
  rw [load_of_save hfiles hsave, toOption_mapError]
  exact toOption_ofOctets htimestamp hresults

/-- A summary that was saved can be found, so if it is refused, then as JSON. -/
theorem eq_of_load_eq_error (hfiles : files.Lawful Same) {s : Summary}
    (hsave : s.save files path f = (.ok (), f')) {e : Error}
    (he : (load files path f').1 = .error e) :
    ∃ issue, e = .io "parsing JSON summary" (.json issue) := by
  rw [load_of_save hfiles hsave] at he
  cases hread : ofOctets (octets s.toText) with
  | ok s =>
    rw [hread] at he
    cases he
  | error issue =>
    rw [hread] at he
    cases he
    exact ⟨issue, rfl⟩

section

variable [Platform] {records : List Record} {samples : List (List (UInt64 × UInt64))}
  (hrecorded : List.Forall₂ (fun r ps ↦ r.series.Recorded ps) records samples)
  (hsamples : ∀ ps ∈ samples, (0, 0) ∉ ps)

include hrecorded hsamples

/-- The statistics of all records are quotients. -/
theorem isQuotient_ofRecord : ∀ r ∈ records.map Result.ofRecord, ∀ x ∈ r.doubles, IsQuotient x := by
  induction hrecorded with
  | nil => simp
  | cons hr _ ih =>
    rw [List.forall_mem_cons] at hsamples
    rw [List.map_cons, List.forall_mem_cons]
    exact ⟨fun x hx ↦ isQuotient_of_mem_doubles hr hsamples.1 hx, ih hsamples.2⟩

/-- All results can be read again if rounds were counted in each run. -/
theorem isSome_mapM_reread : ((records.map Result.ofRecord).mapM Result.reread).isSome ↔
    ∀ ps ∈ samples, ∀ p ∈ ps, p.2 ≠ 0 := by
  rw [isSome_mapM_iff]
  induction hrecorded with
  | nil => simp
  | cons hr _ ih =>
    rw [List.forall_mem_cons] at hsamples
    rw [List.map_cons, List.forall_mem_cons, List.forall_mem_cons, ih hsamples.2,
      isSome_reread_iff fun x hx ↦ isQuotient_of_mem_doubles hr hsamples.1 hx,
      isFinite_doubles_iff hr hsamples.1]

/-- **Summaries that were saved are loaded**, with all that was saved apart from the doubles, unless
a sample has a count of zero. -/
theorem load_after_save {timestamp : Timestamp} (htimestamp : timestamp.IsValid)
    (hfiles : files.Lawful Same) {outerRounds : UInt64} {systemInfo : SystemInfo}
    (hsave : (ofRecords records outerRounds timestamp systemInfo).1.save files path f =
      (.ok (), f')) :
    ((load files path f').1.isOk ↔ ∀ ps ∈ samples, ∀ p ∈ ps, p.2 ≠ 0) ∧
      (∀ s, (load files path f').1 = .ok s →
        Matches (ofRecords records outerRounds timestamp systemInfo).1 s) ∧
      ∀ e, (load files path f').1 = .error e →
        ∃ issue, e = .io "parsing JSON summary" (.json issue) := by
  have hload :=
    toOption_load hfiles htimestamp (isQuotient_ofRecord hrecorded hsamples) hsave
  refine ⟨?_, ?_, fun e he ↦ eq_of_load_eq_error hfiles hsave he⟩
  · rw [isOk_eq_isSome_toOption, hload, Option.isSome_map, ← isSome_mapM_reread hrecorded hsamples]
    rfl
  · intro s hs
    rw [hs] at hload
    obtain ⟨results, hresults, rfl⟩ := Option.map_eq_some_iff.1 hload.symm
    exact ⟨rfl, rfl, rfl, rfl, rfl,
      (forall₂_of_mapM hresults).imp fun _ _ ↦ Result.matches_of_reread⟩

end

end Summary

/-- The last leap second of a century. -/
def leapSecond : Timestamp :=
  { year := 1999, month := 12, day := 31, hour := 23, minute := 59, second := 60, nanos := 1 }

theorem isValid_leapSecond : leapSecond.IsValid := by
  constructor <;> decide

/-- A machine without a kernel. -/
def bareMachine : SystemInfo :=
  { os := "os", osVersion := "1", kernelVersion := none, cpuModel := "cpu\t\"x\"", cpuCores := 4
    memoryBytes := 0xFFFFFFFFFFFFFFFF, hostname := "π", arch := "", hardwareCounter := true }

/-- A record of one invocation. -/
def eleventh : Record := ⟨⟨"eleventh", rfl⟩, some ⟨"\\ \"", rfl⟩, true, Series.record {} 1 11⟩

/-- A record with an invocation that made no iterations. -/
def idle [Platform] : Record := ⟨⟨"idle", rfl⟩, none, false, (Series.record {} 3 0).sort.record 1 2⟩

/-- `Reloaded records s loaded` says that the summary `s` of some records was saved in a tree, and
what was loaded from there. -/
def Reloaded [Platform] (records : List Record) (s : Summary) (loaded : Except Error Summary) :
    Prop :=
  s = (Summary.ofRecords records 5 leapSecond bareMachine).1 ∧
    ∃ tree, s.save Host.Tree.fileSystem "r.json" {} = (.ok (), tree) ∧
      (Summary.load Host.Tree.fileSystem "r.json" tree).1 = loaded

/-- In an empty tree, a summary can be saved. -/
theorem exists_save [Platform] (records : List Record) : ∃ tree,
    (Summary.ofRecords records 5 leapSecond bareMachine).1.save Host.Tree.fileSystem "r.json" {} =
      (.ok (), tree) :=
  ⟨_, Summary.save_tree rfl (leads_jsonPath rfl) rfl⟩

/-- An invocation that made no iterations keeps a summary from being loaded. -/
theorem load_after_save_idle :
    letI := Platform.signed
    leapSecond.IsValid ∧ Host.Tree.fileSystem.Lawful Host.Tree.Same ∧
      (∃ s s', Reloaded [eleventh] s (.ok s') ∧ s.Matches s') ∧
      ∃ s issue, Reloaded [eleventh, idle] s
        (.error (.io "parsing JSON summary" (.json issue))) := by
  let := Platform.signed
  have heleventh : eleventh.series.Recorded [(1, 11)] := .record .empty 1 11
  have hidle : idle.series.Recorded [(1, 2), (3, 0)] := .record (.sort (.record .empty 3 0)) 1 2
  obtain ⟨tree, hsave⟩ := exists_save [eleventh]
  obtain ⟨tree', hsave'⟩ := exists_save [eleventh, idle]
  obtain ⟨hok, hmatches, -⟩ := Summary.load_after_save (.cons heleventh .nil) (by simp)
    isValid_leapSecond Host.Tree.lawful_fileSystem hsave
  obtain ⟨hok', -, herror⟩ := Summary.load_after_save (.cons heleventh (.cons hidle .nil))
    (by simp) isValid_leapSecond Host.Tree.lawful_fileSystem hsave'
  refine ⟨isValid_leapSecond, Host.Tree.lawful_fileSystem, ?_, ?_⟩
  · cases hloaded : (Summary.load Host.Tree.fileSystem "r.json" tree).1 with
    | ok s => exact ⟨_, s, ⟨rfl, tree, hsave, hloaded⟩, hmatches s hloaded⟩
    | error e =>
      rw [hloaded] at hok
      exact absurd (hok.2 (by simp)) nofun
  · cases hloaded : (Summary.load Host.Tree.fileSystem "r.json" tree').1 with
    | ok s =>
      rw [hloaded] at hok'
      exact absurd (hok'.1 rfl) (by simp)
    | error e =>
      obtain ⟨issue, rfl⟩ := herror e hloaded
      exact ⟨_, issue, rfl, tree', hsave', hloaded⟩

end Report

end Crossing
