import Crossing.Proofs.Runner.Events
import Mathlib.Algebra.Ring.Nat
import Mathlib.Data.List.Basic
import Mathlib.Data.Nat.Find

/-!
# What a run measures

Main statements, for every catalogue, every clock and every number of rounds:

* `Runner.run_round_by_round`: a run has records exactly if no invocation fails, and then its events
  and its records are those that the course lays down, each sample with its benchmark and round;
* `Runner.run_until_first_failure`: otherwise the run is over with the first invocation that fails,
  and its error is the error of that invocation.

Both follow from one spec of the loop, by which a run goes on until a turn fails (`Ends`). What is
added here is how the timings that the loop returns become records, round after round and benchmark
after benchmark (`tally`).
-/

namespace Crossing

variable {A M T : Type}

/-- The benchmark that a record is about. -/
def Record.entry (r : Record) : Entry := ⟨r.name, r.category, r.isPrimary⟩

namespace Runner

/-! ### Records of several rounds -/

/-- Timing `i` of each round, out of the timings of some rounds of `n` benchmarks. -/
def column (n k : Nat) (timings : List Timing) (i : Nat) : List Timing :=
  (List.range k).filterMap fun j ↦ timings[j * n + i]?

@[simp] theorem length_tally (n : Nat) :
    ∀ (k : Nat) (records : List Record) (timings : List Timing), records.length = n →
      timings.length = k * n → (tally n k records timings).length = n
  | 0, _, _, hrecords, _ => hrecords
  | k + 1, records, timings, hrecords, htimings => by
    rw [Nat.add_mul, Nat.one_mul] at htimings
    refine length_tally n k _ _ ?_ ?_
    · rw [List.length_zipWith, List.length_take]
      omega
    · rw [List.length_drop]
      omega

/-- Each record gets the timings of its own column, round by round. -/
theorem getElem?_tally {n i : Nat} (hi : i < n) : ∀ (k : Nat) (records : List Record)
    (timings : List Timing), records.length = n → timings.length = k * n →
      (tally n k records timings)[i]? =
        (records[i]?).map fun r ↦ (column n k timings i).foldl addTiming r
  | 0, records, timings, _, _ => by
    rw [tally]
    exact Option.map_id'.symm
  | k + 1, records, timings, hrecords, htimings => by
    rw [Nat.add_mul, Nat.one_mul] at htimings
    have hi' : i < timings.length := by omega
    have hcolumn : column n (k + 1) timings i = timings[i] :: column n k (timings.drop n) i := by
      rw [column, List.range_succ_eq_map, List.filterMap_cons, Nat.zero_mul, Nat.zero_add,
        List.getElem?_eq_getElem hi', List.filterMap_map, column]
      refine congrArg (timings[i] :: ·) (List.filterMap_congr fun j _ ↦ ?_)
      rw [List.getElem?_drop, Function.comp_apply, Nat.succ_mul]
      congr 1
      omega
    have hrow : (List.zipWith addTiming records (timings.take n))[i]? =
        (records[i]?).map fun r ↦ addTiming r timings[i] := by
      rw [List.getElem?_zipWith, List.getElem?_take_of_lt hi, List.getElem?_eq_getElem hi']
      rcases records[i]? with - | r <;> rfl
    rw [tally, getElem?_tally hi k _ _ (by rw [List.length_zipWith, List.length_take]; omega)
      (by rw [List.length_drop]; omega), hrow, Option.map_map, hcolumn]
    rfl

/-- What some timings in a row make of a series. -/
theorem foldl_addTiming (timings : List Timing) (r : Record) :
    timings.foldl addTiming r =
      { r with
        series :=
          { times := r.series.times ++
              (timings.map fun t ↦ Series.quotient t.elapsed t.count.count).toArray
            totalTime := r.series.totalTime +
              UInt64.ofNat (timings.map fun t ↦ t.elapsed.toNat).sum
            totalIterations := r.series.totalIterations +
              UInt64.ofNat (timings.map fun t ↦ t.count.count.toNat).sum } } := by
  induction timings generalizing r with
  | nil => simp
  | cons t timings ih =>
    rw [List.foldl_cons, ih]
    simp only [addTiming, Record.add, Series.record, List.map_cons, List.sum_cons,
      UInt64.ofNat_add, UInt64.ofNat_toNat, UInt64.add_assoc, ← List.push_append_toArray]

end Runner

/-! ### Success and failure -/

namespace Stage

variable [Invocable A M] (s : Stage A M)

/-- An invocation that does not fail comes to the count it returns. -/
theorem verdict_eq_ok_iff {k : Nat} (h : 0 < s.catalog.size) :
    (∃ c, s.verdict k = some (.ok c)) ↔ ¬s.Fails k := by
  obtain ⟨e, -, ⟨fault, hreply, hv⟩ | ⟨hreply, hv⟩ | ⟨c, hreply, hv⟩⟩ := s.verdict_cases k h
  · simp [hv, Fails, hreply]
  · simp [hv, Fails, hreply]
  · simp [hv, Fails, hreply, c.positive]

/-- A verdict that is a count tells how many rounds were counted. -/
theorem count_of_verdict {k : Nat} {c : IterationCount} (h : 0 < s.catalog.size)
    (hc : s.verdict k = some (.ok c)) : s.count k = c.count := by
  obtain ⟨e, -, ⟨fault, hreply, hv⟩ | ⟨hreply, hv⟩ | ⟨c', hreply, hv⟩⟩ := s.verdict_cases k h
  · simp [hv] at hc
  · simp [hv] at hc
  · have hc' : c' = c := by simpa [hv] using hc
    rw [count, hreply, hc']

/-- The series that a run leaves for the benchmark with an index: one sample for each round. -/
def series (runner : Runner) (tick : T → UInt64 × T) (t : T) (i : Nat) : Series :=
  let n := s.catalog.size
  let laps := (List.range runner.rounds).map fun j ↦ lap tick t (j * n + i)
  let counts := (List.range runner.rounds).map fun j ↦ s.count (runner.warmups * n + (j * n + i))
  { times := (List.zipWith Series.quotient laps counts).toArray
    totalTime := UInt64.ofNat (laps.map UInt64.toNat).sum
    totalIterations := UInt64.ofNat (counts.map UInt64.toNat).sum }

variable (tick : T → UInt64 × T) (t : T) (runner : Runner)

/-- A run is over when everything is measured, apart from the benchmarks that are dropped. -/
theorem run_of_measure {r : Except Error (List Record)} {m : M} {t' : T}
    (h : runner.measure (Bench.ofClock tick) s.catalog (s.state, t) = (r, (m, t'))) :
    runner.run (Bench.ofClock tick) s.catalog (s.state, t) = (r, (s.catalog.drop m, t')) := by
  rw [Runner.run, bind_apply, h]
  rfl

/-- Dropping the benchmarks notes nothing. -/
theorem run_of_measure_traced {r : Except Error (List Record)} {m : M} {log : List Event} {t' : T}
    (h : runner.measure (Bench.noting tick) s.catalog.traced ((s.state, []), t) =
      (r, ((m, log), t'))) :
    runner.run (Bench.noting tick) s.catalog.traced ((s.state, []), t) =
      (r, ((s.catalog.drop m, log), t')) := by
  rw [Runner.run, bind_apply, h]
  show (r, (s.catalog.traced.drop (m, log), t')) = _
  rw [Catalog.drop_traced]

/-- The events of a measurement are those that were noted. -/
theorem events_of_measure {r : Except Error (List Record)} {m : M} {log : List Event} {t' : T}
    (h : runner.measure (Bench.noting tick) s.catalog.traced ((s.state, []), t) =
      (r, ((m, log), t'))) : runner.events tick t s = log := by
  rw [Runner.events, s.run_of_measure_traced tick t runner h]

/-- A record is made of the timings of its column, which are those of its benchmark. -/
theorem foldl_column {timings : List Runner.Timing} {i : Nat} (hi : i < s.catalog.size)
    (htimings : ∀ m < runner.rounds * s.catalog.size, ∃ c,
      s.verdict (runner.warmups * s.catalog.size + m) = some (.ok c) ∧
        timings[m]? = some ⟨lap tick t m, c⟩) (e : Entry) :
    (Runner.column s.catalog.size runner.rounds timings i).foldl Runner.addTiming
        (Runner.blankRecord e) =
      ⟨e.name, e.category, e.isPrimary, s.series runner tick t i⟩ := by
  set n := s.catalog.size with hn
  -- the timing of each round, by its two numbers
  have hround : ∀ j ∈ List.range runner.rounds, ∃ c : IterationCount,
      timings[j * n + i]? = some ⟨lap tick t (j * n + i), c⟩ ∧
        s.count (runner.warmups * n + (j * n + i)) = c.count := fun j hj ↦ by
    have hlt : j * n + i < runner.rounds * n := by
      have hj' : j + 1 ≤ runner.rounds := List.mem_range.1 hj
      calc j * n + i < j * n + n := by omega
        _ = (j + 1) * n := by rw [Nat.add_mul, Nat.one_mul]
        _ ≤ runner.rounds * n := Nat.mul_le_mul_right n hj'
    obtain ⟨c, hc, hget⟩ := htimings _ hlt
    exact ⟨c, hget, s.count_of_verdict (by omega) hc⟩
  have hcolumn : ∀ {β : Type} (f : Runner.Timing → β) (g : UInt64 → UInt64 → β),
      (∀ τ, f τ = g τ.elapsed τ.count.count) →
      (Runner.column n runner.rounds timings i).map f =
        (List.range runner.rounds).map fun j ↦
          g (lap tick t (j * n + i)) (s.count (runner.warmups * n + (j * n + i))) := by
    intro β f g hfg
    rw [Runner.column, List.map_filterMap, ← List.filterMap_eq_map]
    refine List.filterMap_congr fun j hj ↦ ?_
    obtain ⟨c, hget, hcount⟩ := hround j hj
    show (timings[j * n + i]?).map f =
      some (g (lap tick t (j * n + i)) (s.count (runner.warmups * n + (j * n + i))))
    rw [hget, hcount, Option.map_some, hfg]
  rw [Runner.foldl_addTiming, hcolumn _ Series.quotient fun _ ↦ rfl,
    hcolumn _ (fun l _ ↦ l.toNat) fun _ ↦ rfl, hcolumn _ (fun _ c ↦ c.toNat) fun _ ↦ rfl]
  simp only [Runner.blankRecord, series, ← hn, List.zipWith_map, List.map_map, List.zipWith_self,
    Function.comp_def, Array.empty_append, UInt64.zero_add]

/-- A run without a failure. -/
theorem run_of_forall_not_fails
    (h : ∀ k < runner.warmups * s.catalog.size + runner.rounds * s.catalog.size, ¬s.Fails k) :
    ∃ records : List Record,
      (runner.run (Bench.ofClock tick) s.catalog (s.state, t)).1 = .ok records ∧
      runner.events tick t s = warmEvents s.catalog.size (runner.warmups * s.catalog.size) ++
        timedEvents tick t s.catalog.size (runner.rounds * s.catalog.size) ∧
      records.length = s.catalog.size ∧
      ∀ (i : Nat) (e : Entry), s.catalog.entries[i]? = some e →
        records[i]? = some ⟨e.name, e.category, e.isPrimary, s.series runner tick t i⟩ := by
  have hok : ∀ k < runner.warmups * s.catalog.size + runner.rounds * s.catalog.size,
      ∃ c, s.verdict k = some (.ok c) := fun k hk ↦
    (s.verdict_eq_ok_iff (Nat.pos_of_ne_zero fun h0 ↦ by simp [h0] at hk)).2 (h k hk)
  obtain ⟨timings, hlen, htimings, hmeasure⟩ := (s.course tick t runner).measure_complete hok
  obtain ⟨_, -, -, htraced⟩ := (s.tracedCourse tick t runner).measure_complete hok
  have hblanks : (Runner.Course.blanks s.catalog).length = s.catalog.size := by
    rw [Runner.Course.blanks, Catalog.entries, List.length_map, List.length_map, Catalog.size]
  refine ⟨_, congrArg Prod.fst (s.run_of_measure tick t runner hmeasure),
    s.events_of_measure tick t runner htraced, ?_, ?_⟩
  · exact Runner.length_tally _ _ _ _ hblanks hlen
  · intro i e he
    have hi : i < s.catalog.size := Catalog.lt_size_of_entries he
    rw [Runner.getElem?_tally hi _ _ _ hblanks hlen, Runner.Course.blanks, List.getElem?_map, he,
      Option.map_some, Option.map_some, s.foldl_column tick t runner hi htimings]

/-- A run up to its first failure. -/
theorem run_of_first_failure {k : Nat}
    (hk : k < runner.warmups * s.catalog.size + runner.rounds * s.catalog.size) (hfail : s.Fails k)
    (hfirst : ∀ j < k, ¬s.Fails j) :
    (∃ e, s.catalog.entries[k % s.catalog.size]? = some e ∧
      ((∃ fault, s.reply k = some (.error fault) ∧
          (runner.run (Bench.ofClock tick) s.catalog (s.state, t)).1 =
            .error (.invocation e.name.text fault)) ∨
        (s.reply k = some (.ok 0) ∧
          (runner.run (Bench.ofClock tick) s.catalog (s.state, t)).1 =
            .error (.invalidCount e.name.text 0)))) ∧
      runner.events tick t s =
        if k < runner.warmups * s.catalog.size then warmEvents s.catalog.size (k + 1)
        else warmEvents s.catalog.size (runner.warmups * s.catalog.size) ++
          timedEvents tick t s.catalog.size (k - runner.warmups * s.catalog.size + 1) := by
  have hsize : 0 < s.catalog.size := Nat.pos_of_ne_zero fun h0 ↦ by simp [h0] at hk
  have hok : ∀ j < k, ∃ c, s.verdict j = some (.ok c) := fun j hj ↦
    (s.verdict_eq_ok_iff hsize).2 (hfirst j hj)
  -- whatever the error is, both runs end with it right after the failure
  have hrun : ∀ err, s.verdict k = some (.error err) →
      (runner.run (Bench.ofClock tick) s.catalog (s.state, t)).1 = .error err ∧
        runner.events tick t s =
          if k < runner.warmups * s.catalog.size then warmEvents s.catalog.size (k + 1)
          else warmEvents s.catalog.size (runner.warmups * s.catalog.size) ++
            timedEvents tick t s.catalog.size (k - runner.warmups * s.catalog.size + 1) := by
    intro err herr
    rcases Nat.lt_or_ge k (runner.warmups * s.catalog.size) with hwarm | htimed
    · rw [if_pos hwarm]
      exact ⟨congrArg Prod.fst (s.run_of_measure tick t runner
          ((s.course tick t runner).measure_stopped_warm hwarm herr hok)),
        s.events_of_measure tick t runner
          ((s.tracedCourse tick t runner).measure_stopped_warm hwarm herr hok)⟩
    · obtain ⟨m, rfl⟩ := Nat.exists_eq_add_of_le htimed
      have hm : m < runner.rounds * s.catalog.size := by omega
      rw [if_neg (by omega), Nat.add_sub_cancel_left]
      exact ⟨congrArg Prod.fst (s.run_of_measure tick t runner
          ((s.course tick t runner).measure_stopped_timed hm herr hok)),
        s.events_of_measure tick t runner
          ((s.tracedCourse tick t runner).measure_stopped_timed hm herr hok)⟩
  obtain ⟨e, he, ⟨fault, hreply, hv⟩ | ⟨hreply, hv⟩ | ⟨c, hreply, hv⟩⟩ := s.verdict_cases k hsize
  · exact ⟨⟨e, he, .inl ⟨fault, hreply, (hrun _ hv).1⟩⟩, (hrun _ hv).2⟩
  · exact ⟨⟨e, he, .inr ⟨hreply, (hrun _ hv).1⟩⟩, (hrun _ hv).2⟩
  · exact absurd hfail ((s.verdict_eq_ok_iff hsize).1 ⟨c, hv⟩)

/-- If some invocation fails, one is the first to fail. -/
theorem exists_first_failure {n : Nat} (h : ∃ k < n, s.Fails k) :
    ∃ k < n, s.Fails k ∧ ∀ j < k, ¬s.Fails j := by
  classical
  have hex : ∃ k, s.Fails k := h.imp fun _ ↦ And.right
  obtain ⟨k, hk, hfail⟩ := h
  exact ⟨Nat.find hex, lt_of_le_of_lt (Nat.find_min' hex hfail) hk, Nat.find_spec hex,
    fun j ↦ Nat.find_min hex⟩

/-- A run has records exactly if none of its invocations fails. -/
theorem exists_records_iff :
    (∃ records, (runner.run (Bench.ofClock tick) s.catalog (s.state, t)).1 = .ok records) ↔
      ∀ k < runner.warmups * s.catalog.size + runner.rounds * s.catalog.size, ¬s.Fails k := by
  refine ⟨fun ⟨records, hrecords⟩ k hk hfails ↦ ?_, fun h ↦ ?_⟩
  · obtain ⟨k, hk, hfails, hfirst⟩ := s.exists_first_failure ⟨k, hk, hfails⟩
    obtain ⟨⟨e, -, ⟨fault, -, hrun⟩ | ⟨-, hrun⟩⟩, -⟩ :=
      s.run_of_first_failure tick t runner hk hfails hfirst
    · simp [hrun] at hrecords
    · simp [hrun] at hrecords
  · obtain ⟨records, hrecords, -⟩ := s.run_of_forall_not_fails tick t runner h
    exact ⟨records, hrecords⟩

/-- The records of a run are those of the benchmarks, in order. -/
theorem map_entry_of_run {records : List Record}
    (h : (runner.run (Bench.ofClock tick) s.catalog (s.state, t)).1 = .ok records) :
    records.map Record.entry = s.catalog.entries := by
  obtain ⟨records', hrun, -, hlength, hget⟩ :=
    s.run_of_forall_not_fails tick t runner ((s.exists_records_iff tick t runner).1 ⟨records, h⟩)
  obtain rfl : records' = records := Except.ok.inj (hrun.symm.trans h)
  refine List.ext_getElem? fun i ↦ ?_
  rw [List.getElem?_map]
  rcases he : s.catalog.entries[i]? with - | e
  · rw [List.getElem?_eq_none_iff, Catalog.length_entries] at he
    rw [List.getElem?_eq_none (hlength ▸ he), Option.map_none]
  · rw [hget i e he]
    rfl

/-- A run can have no errors but measurement faults. -/
theorem isMeasurementFault_of_error {e : Error}
    (he : (runner.run (Bench.ofClock tick) s.catalog (s.state, t)).1 = .error e) :
    e.isMeasurementFault := by
  by_cases h : ∃ k < runner.warmups * s.catalog.size + runner.rounds * s.catalog.size, s.Fails k
  · obtain ⟨k, hk, hfails, hfirst⟩ := s.exists_first_failure h
    obtain ⟨⟨_, -, ⟨_, -, hrun⟩ | ⟨-, hrun⟩⟩, -⟩ :=
      s.run_of_first_failure tick t runner hk hfails hfirst
    · rw [← Except.error.inj (hrun.symm.trans he)]
      rfl
    · rw [← Except.error.inj (hrun.symm.trans he)]
      rfl
  · obtain ⟨records, hrecords, -⟩ := s.run_of_forall_not_fails tick t runner
      fun k hk hfails ↦ h ⟨k, hk, hfails⟩
    rw [hrecords] at he
    cases he

/-- Noting the events of a run changes nothing about it: it has the same result, and leaves the same
behind. -/
theorem run_noting :
    (runner.run (Bench.noting tick) s.catalog.traced ((s.state, []), t)).1 =
        (runner.run (Bench.ofClock tick) s.catalog (s.state, t)).1 ∧
      (runner.run (Bench.noting tick) s.catalog.traced ((s.state, []), t)).2.1.1 =
        (runner.run (Bench.ofClock tick) s.catalog (s.state, t)).2.1 ∧
      (runner.run (Bench.noting tick) s.catalog.traced ((s.state, []), t)).2.2 =
        (runner.run (Bench.ofClock tick) s.catalog (s.state, t)).2.2 := by
  -- the states of both runs are the same, apart from the notes
  obtain ⟨r, ⟨k, hplain, htraced⟩ | ⟨m, hplain, htraced⟩⟩ :=
    (s.course tick t runner).measure_agree (s.tracedCourse tick t runner) s.catalog.entries_traced
  · rw [s.run_of_measure tick t runner hplain, s.run_of_measure_traced tick t runner htraced]
    exact ⟨rfl, rfl, rfl⟩
  · rw [s.run_of_measure tick t runner hplain, s.run_of_measure_traced tick t runner htraced]
    exact ⟨rfl, rfl, rfl⟩

end Stage

namespace Runner

/-! ### Invocations and readings among events -/

/-- In the warm-up, benchmarks are invoked in turn. -/
@[simp] theorem filterMap_index?_warmEvents (n k : Nat) :
    (warmEvents n k).filterMap Event.index? = (List.range k).map (· % n) := by
  rw [warmEvents, List.filterMap_map, ← List.filterMap_eq_map]
  rfl

@[simp] theorem filterMap_index?_timedEvents (tick : T → UInt64 × T) (t : T) (n m : Nat) :
    (timedEvents tick t n m).filterMap Event.index? = (List.range m).map (· % n) := by
  induction m with
  | zero => rfl
  | succ m ih =>
    rw [timedEvents_succ, List.filterMap_append, ih, List.range_succ, List.map_append]
    rfl

@[simp] theorem countP_isReading_warmEvents (n k : Nat) :
    (warmEvents n k).countP Event.isReading = 0 := by
  rw [List.countP_eq_zero]
  intro e he
  obtain ⟨i, -, rfl⟩ := List.mem_map.1 he
  exact Bool.false_ne_true

@[simp] theorem countP_isReading_timedEvents (tick : T → UInt64 × T) (t : T) (n m : Nat) :
    (timedEvents tick t n m).countP Event.isReading = 2 * m := by
  induction m with
  | zero => rfl
  | succ m ih =>
    rw [timedEvents_succ, List.countP_append, ih]
    rfl

/-- All invocations of the first phase and some of the second are the first so many of the run. -/
theorem range_map_mod_append (n w m : Nat) :
    (List.range (w * n)).map (· % n) ++ (List.range m).map (· % n) =
      (List.range (w * n + m)).map (· % n) := by
  rw [List.range_add, List.map_append, List.map_map]
  refine congrArg _ (List.map_congr_left fun j _ ↦ ?_)
  exact (Nat.mul_add_mod_self_right w n j).symm

/-! ### Runs -/

variable [Invocable A M] (runner : Runner) (tick : T → UInt64 × T) (t : T) (s : Stage A M)

/-- **A run goes round by round.** It has records exactly if none of its invocations fails. Then it
takes all invocations of the rounds that warm up, without a look at the clock, and after that each
timed invocation between two readings; and the record of each benchmark has one sample for each
round, made of the two readings around the invocation of that benchmark in that round and of the
count it returned. -/
theorem run_round_by_round :
    ((∃ records, (runner.run (Bench.ofClock tick) s.catalog (s.state, t)).1 = .ok records) ↔
      ∀ k < runner.warmups * s.catalog.size + runner.rounds * s.catalog.size, ¬s.Fails k) ∧
    (∀ records : List Record,
      (runner.run (Bench.ofClock tick) s.catalog (s.state, t)).1 = .ok records →
        runner.events tick t s = warmEvents s.catalog.size (runner.warmups * s.catalog.size) ++
          timedEvents tick t s.catalog.size (runner.rounds * s.catalog.size) ∧
        records.length = s.catalog.size ∧
        ∀ (i : Nat) (e : Entry), s.catalog.entries[i]? = some e →
          records[i]? = some ⟨e.name, e.category, e.isPrimary, s.series runner tick t i⟩) ∧
    (runner.run (Bench.noting tick) s.catalog.traced ((s.state, []), t)).1 =
      (runner.run (Bench.ofClock tick) s.catalog (s.state, t)).1 ∧
    ∀ (script : List UInt64) (k : Nat),
      reading ScriptedClock.now ⟨script, 0⟩ k = script.getD k (script.getLastD 0) := by
  refine ⟨s.exists_records_iff tick t runner, fun records hrecords ↦ ?_,
    (s.run_noting tick t runner).1, fun script ↦ ScriptedClock.reading_now script 0⟩
  obtain ⟨records', hrecords', h⟩ :=
    s.run_of_forall_not_fails tick t runner
      ((s.exists_records_iff tick t runner).1 ⟨records, hrecords⟩)
  obtain rfl : records' = records := Except.ok.inj (hrecords'.symm.trans hrecords)
  exact h

/-- **A run ends with its first failure.** If one of its invocations fails, the run takes all up to
the first that does, and no other, and its result is the error of that one. In the rounds that warm
up it has not read the clock by then, and in the timed rounds twice for each timed invocation, the
failed one included. So a run can have no errors but measurement faults. -/
theorem run_until_first_failure :
    ((∃ k < runner.warmups * s.catalog.size + runner.rounds * s.catalog.size, s.Fails k) →
      ∃ k < runner.warmups * s.catalog.size + runner.rounds * s.catalog.size,
        s.Fails k ∧ (∀ j < k, ¬s.Fails j) ∧
        (∃ e, s.catalog.entries[k % s.catalog.size]? = some e ∧
          ((∃ fault, s.reply k = some (.error fault) ∧
              (runner.run (Bench.ofClock tick) s.catalog (s.state, t)).1 =
                .error (.invocation e.name.text fault)) ∨
            (s.reply k = some (.ok 0) ∧
              (runner.run (Bench.ofClock tick) s.catalog (s.state, t)).1 =
                .error (.invalidCount e.name.text 0)))) ∧
        (runner.events tick t s).filterMap Event.index? =
          (List.range (k + 1)).map (· % s.catalog.size) ∧
        (runner.events tick t s).countP Event.isReading =
          if k < runner.warmups * s.catalog.size then 0
          else 2 * (k - runner.warmups * s.catalog.size + 1)) ∧
    ∀ e, (runner.run (Bench.ofClock tick) s.catalog (s.state, t)).1 = .error e →
      e.isMeasurementFault := by
  refine ⟨fun h ↦ ?_, fun e ↦ s.isMeasurementFault_of_error tick t runner⟩
  obtain ⟨k, hk, hfails, hfirst⟩ := s.exists_first_failure h
  obtain ⟨herror, hevents⟩ := s.run_of_first_failure tick t runner hk hfails hfirst
  refine ⟨k, hk, hfails, hfirst, herror, ?_, ?_⟩
  · rw [hevents]
    split
    · rw [filterMap_index?_warmEvents]
    · rw [List.filterMap_append, filterMap_index?_warmEvents, filterMap_index?_timedEvents,
        range_map_mod_append]
      congr 2
      omega
  · rw [hevents]
    split
    · rw [countP_isReading_warmEvents]
    · rw [List.countP_append, countP_isReading_warmEvents, countP_isReading_timedEvents,
        Nat.zero_add]

end Runner

end Crossing
