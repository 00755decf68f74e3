import Crossing.Memory
import Crossing.Proofs.Runner.Measurement
import Mathlib.Data.List.GetD

/-!
# Durations across wrap-arounds

A clock shows 64 bits of a time that goes on growing. What a run makes of two readings is their
difference in 64 bits, which is the true duration of everything that takes less than one turn of the
counter, however often the counter turned before or in between.

The laps of a run are read off its events (`Event.laps`), so they are there for each timed
invocation that was made, also in a run that ends with a failure. What records make of them is
`Stage.RecordsTell`.

Main statement: `Runner.run_tells_durations`. A stepping clock shows the times
`0, step, 2 * step, …` until its script is over and time stands still, so each lap takes one step,
and then none.
-/

namespace Crossing

variable {A M T : Type}

/-! ### Times in pairs -/

/-- Joins the first entry of a list with the second, the third with the fourth, and so on. -/
def inPairs {α β : Type} (f : α → α → β) : List α → List β
  | a :: b :: rest => f a b :: inPairs f rest
  | _ => []

/-- What is between the true times before and after each of some invocations. -/
def durations (times : List Nat) : List Nat := inPairs (fun start stop ↦ stop - start) times

/-- Pairs that were put in a row are found again. -/
theorem inPairs_flatMap {α β ι : Type} (f : α → α → β) (a b : ι → α) (is : List ι) :
    inPairs f (is.flatMap fun i ↦ [a i, b i]) = is.map fun i ↦ f (a i) (b i) := by
  induction is with
  | nil => rfl
  | cons i is ih => exact congrArg (f (a i) (b i) :: ·) ih

/-- The difference of two readings is the true difference, but for whole turns of the counter. -/
theorem elapsed_ofNat {start stop : Nat} (h : start ≤ stop) :
    elapsed (.ofNat start) (.ofNat stop) = .ofNat (stop - start) :=
  (UInt64.ofNat_sub h).symm

/-- For times that do not go back, what elapsed is a difference. -/
theorem inPairs_elapsed_ofNat : ∀ {times : List Nat}, times.Pairwise (· ≤ ·) →
    inPairs elapsed (times.map UInt64.ofNat) = (durations times).map UInt64.ofNat
  | [], _ => rfl
  | [_], _ => rfl
  | start :: stop :: rest, h => by
    obtain ⟨hstart, hstop⟩ := List.pairwise_cons.1 h
    exact congrArg₂ List.cons (elapsed_ofNat (hstart stop List.mem_cons_self))
      (inPairs_elapsed_ofNat hstop.of_cons)

/-! ### Laps among events -/

namespace Event

/-- What the clock shows. -/
def value? : Event → Option UInt64
  | invocation _ => none
  | reading value => some value

/-- The index of each timed invocation, and the time between the readings right before and right
after it. -/
def laps : List Event → List (Nat × UInt64)
  | reading start :: invocation i :: reading stop :: rest => (i, elapsed start stop) :: laps rest
  | _ :: rest => laps rest
  | [] => []

/-- Only readings make laps. -/
theorem laps_invocation_cons (i : Nat) (events : List Event) :
    laps (invocation i :: events) = laps events := by
  rw [laps]
  rintro _ _ _ _ ⟨⟩

end Event

/-- The clock is not read while warming up. -/
theorem laps_warmEvents_append (n k : Nat) (events : List Event) :
    Event.laps (warmEvents n k ++ events) = Event.laps events := by
  induction k generalizing events with
  | zero => rfl
  | succ k ih =>
    rw [warmEvents_succ, List.append_assoc, ih]
    exact Event.laps_invocation_cons _ _

/-- Each timed invocation makes one lap. -/
theorem laps_timedEvents (tick : T → UInt64 × T) (t : T) (n m : Nat) :
    Event.laps (timedEvents tick t n m) = (List.range m).map fun j ↦ (j % n, lap tick t j) := by
  rw [timedEvents]
  induction List.range m with
  | nil => rfl
  | cons j js ih => exact congrArg ((j % n, lap tick t j) :: ·) ih

theorem filterMap_value?_warmEvents (n k : Nat) : (warmEvents n k).filterMap Event.value? = [] := by
  rw [warmEvents, List.filterMap_map]
  exact List.filterMap_eq_nil_iff.2 fun _ _ ↦ rfl

/-- The clock is read twice for each timed invocation. -/
theorem filterMap_value?_timedEvents (tick : T → UInt64 × T) (t : T) (n m : Nat) :
    (timedEvents tick t n m).filterMap Event.value? =
      (List.range m).flatMap fun j ↦ [reading tick t (2 * j), reading tick t (2 * j + 1)] := by
  rw [timedEvents, List.filterMap_flatMap]
  rfl

/-- Laps are true durations, where the clock shows true times up to the wrap-around. -/
theorem toNat_lap_of_times {tick : T → UInt64 × T} {t : T} {times : List Nat} {m : Nat}
    (hshown : ((List.range m).flatMap fun j ↦
      [reading tick t (2 * j), reading tick t (2 * j + 1)]) = times.map UInt64.ofNat)
    (hgrow : times.Pairwise (· ≤ ·)) (hshort : ∀ d ∈ durations times, d < 2 ^ 64) :
    (List.range m).map (fun j ↦ (lap tick t j).toNat) = durations times := by
  have hlaps : (List.range m).map (lap tick t) = (durations times).map UInt64.ofNat := by
    rw [← inPairs_elapsed_ofNat hgrow, ← hshown, inPairs_flatMap]
    rfl
  calc (List.range m).map (fun j ↦ (lap tick t j).toNat)
      = ((List.range m).map (lap tick t)).map UInt64.toNat := by rw [List.map_map]; rfl
    _ = (durations times).map fun d ↦ (UInt64.ofNat d).toNat := by rw [hlaps, List.map_map]; rfl
    _ = durations times :=
      List.map_congr_left (fun d hd ↦ UInt64.toNat_ofNat_of_lt' (hshort d hd)) |>.trans
        (List.map_id _)

/-! ### Laps of a run -/

namespace Stage

variable [Invocable A M] (s : Stage A M) (runner : Runner) (tick : T → UInt64 × T) (t : T)

/-- The events of a run, however it ends: invocations that warm up, and then timed ones. -/
theorem exists_events : ∃ k m,
    runner.events tick t s = warmEvents s.catalog.size k ++ timedEvents tick t s.catalog.size m ∧
      ∀ records, (runner.run (Bench.ofClock tick) s.catalog (s.state, t)).1 = .ok records →
        m = runner.rounds * s.catalog.size := by
  by_cases h : ∃ k < runner.warmups * s.catalog.size + runner.rounds * s.catalog.size, s.Fails k
  · obtain ⟨k, hk, hfails, hfirst⟩ := s.exists_first_failure h
    have hnone : ∀ records,
        (runner.run (Bench.ofClock tick) s.catalog (s.state, t)).1 ≠ .ok records :=
      fun records hrecords ↦ (s.exists_records_iff tick t runner).1 ⟨records, hrecords⟩ k hk hfails
    have hevents := (s.run_of_first_failure tick t runner hk hfails hfirst).2
    rcases Nat.lt_or_ge k (runner.warmups * s.catalog.size) with hwarm | htimed
    · rw [if_pos hwarm] at hevents
      exact ⟨k + 1, 0, hevents.trans (List.append_nil _).symm, fun _ h ↦ absurd h (hnone _)⟩
    · rw [if_neg (Nat.not_lt.2 htimed)] at hevents
      exact ⟨_, _, hevents, fun _ h ↦ absurd h (hnone _)⟩
  · obtain ⟨_, -, hevents, -⟩ := s.run_of_forall_not_fails tick t runner
      fun k hk hfails ↦ h ⟨k, hk, hfails⟩
    exact ⟨_, _, hevents, fun _ _ ↦ rfl⟩

/-- The records tell that timed invocation `m` took the time `took m`: the record of each benchmark
has one sample for each round, made of the time that its invocation in that round took and of the
count it returned, and its total time is that of these invocations, up to the wrap-around. -/
def RecordsTell (took : Nat → Nat) (records : List Record) : Prop :=
  ∀ (i : Nat) (e : Entry), s.catalog.entries[i]? = some e → ∃ r, records[i]? = some r ∧
    r.entry = e ∧
    r.series.times.toList = (List.range runner.rounds).map (fun j ↦
      Series.quotient (.ofNat (took (j * s.catalog.size + i)))
        (s.count (runner.warmups * s.catalog.size + (j * s.catalog.size + i)))) ∧
    r.series.totalTime.toNat =
      ((List.range runner.rounds).map fun j ↦ took (j * s.catalog.size + i)).sum % 2 ^ 64

/-- The records of a run tell how long laps took, if the clock does. -/
theorem recordsTell_of_lap {took : Nat → Nat} {records : List Record}
    (htook : ∀ m < runner.rounds * s.catalog.size, (lap tick t m).toNat = took m)
    (hrun : (runner.run (Bench.ofClock tick) s.catalog (s.state, t)).1 = .ok records) :
    s.RecordsTell runner took records := by
  obtain ⟨records', hrun', -, -, hrecords⟩ := s.run_of_forall_not_fails tick t runner
    ((s.exists_records_iff tick t runner).1 ⟨records, hrun⟩)
  obtain rfl : records' = records := Except.ok.inj (hrun'.symm.trans hrun)
  intro i e he
  have hi : i < s.catalog.size := Catalog.lt_size_of_entries he
  -- each round is within the run, and so is the invocation of the benchmark in it
  have hlap : ∀ j ∈ List.range runner.rounds,
      (lap tick t (j * s.catalog.size + i)).toNat = took (j * s.catalog.size + i) := by
    intro j hj
    refine htook _ ?_
    calc j * s.catalog.size + i < (j + 1) * s.catalog.size := by rw [Nat.succ_mul]; omega
      _ ≤ runner.rounds * s.catalog.size := Nat.mul_le_mul_right _ (List.mem_range.1 hj)
  refine ⟨_, hrecords i e he, rfl, ?_, ?_⟩
  · simp only [series, List.zipWith_map, List.zipWith_self]
    refine List.map_congr_left fun j hj ↦ ?_
    rw [← hlap j hj, UInt64.ofNat_toNat]
  · simp only [series, List.map_map, Function.comp_def, UInt64.toNat_ofNat']
    rw [List.map_congr_left hlap]

/-- The laps of a run are those of its clock, one for each timed invocation that it makes. -/
theorem exists_laps : ∃ m,
    Event.laps (runner.events tick t s) =
      (List.range m).map (fun j ↦ (j % s.catalog.size, lap tick t j)) ∧
    (runner.events tick t s).countP Event.isReading = 2 * m ∧
    (runner.events tick t s).filterMap Event.value? =
      (List.range m).flatMap (fun j ↦ [reading tick t (2 * j), reading tick t (2 * j + 1)]) ∧
    ∀ records, (runner.run (Bench.ofClock tick) s.catalog (s.state, t)).1 = .ok records →
      m = runner.rounds * s.catalog.size := by
  obtain ⟨k, m, hevents, hcomplete⟩ := s.exists_events runner tick t
  refine ⟨m, ?_, ?_, ?_, hcomplete⟩
  · rw [hevents, laps_warmEvents_append, laps_timedEvents]
  · rw [hevents, List.countP_append, Runner.countP_isReading_warmEvents,
      Runner.countP_isReading_timedEvents, Nat.zero_add]
  · rw [hevents, List.filterMap_append, filterMap_value?_warmEvents, List.nil_append,
      filterMap_value?_timedEvents]

end Stage

/-! ### Stepping clocks -/

namespace ScriptedClock

variable (step : UInt64) (pairs : Nat)

/-- The script of a stepping clock has the multiples of its step, one after the other. -/
theorem pending_stepping : (stepping step pairs).pending =
    (List.range (2 * pairs)).map fun k ↦ UInt64.ofNat (k * step.toNat) := by
  rw [stepping]
  induction pairs with
  | zero => rfl
  | succ pairs ih =>
    have heven : pairs.toUInt64 * step * 2 = UInt64.ofNat (2 * pairs * step.toNat) := by
      show UInt64.ofNat pairs * step * UInt64.ofNat 2 = _
      rw [UInt64.ofNat_mul, UInt64.ofNat_mul, UInt64.ofNat_toNat, UInt64.mul_comm,
        ← UInt64.mul_assoc]
    have hodd : UInt64.ofNat (2 * pairs * step.toNat) + step =
        UInt64.ofNat ((2 * pairs + 1) * step.toNat) := by
      rw [Nat.succ_mul (2 * pairs), UInt64.ofNat_add, UInt64.ofNat_toNat]
    dsimp only at ih ⊢
    rw [List.range_succ, List.flatMap_append, ih, List.flatMap_singleton, heven, hodd,
      Nat.mul_succ, List.range_add, List.map_append]
    rfl

/-- A stepping clock goes on by one step with each reading, until its script is over. -/
theorem reading_stepping (k : Nat) :
    reading now (stepping step pairs) k = .ofNat (min k (2 * pairs - 1) * step.toNat) := by
  have hclock : stepping step pairs = ⟨(stepping step pairs).pending, 0⟩ := rfl
  rw [hclock, reading_now, pending_stepping]
  rcases Nat.lt_or_ge k (2 * pairs) with hk | hk
  · rw [List.getD_eq_getElem _ _ (by simpa using hk), List.getElem_map, List.getElem_range,
      Nat.min_eq_left (by omega)]
  · rw [List.getD_eq_default _ _ (by simpa using hk), Nat.min_eq_right (by omega)]
    -- what is repeated is the last reading of the script, or zero if it has none
    rcases 2 * pairs with - | n
    · simp
    · rw [List.range_succ, List.map_append, List.map_singleton, List.getLastD_concat,
        Nat.add_sub_cancel]

/-- Each lap takes one step, and those after the script take no time. -/
theorem lap_stepping (m : Nat) :
    lap now (stepping step pairs) m = if m < pairs then step else 0 := by
  rw [lap, reading_stepping, reading_stepping,
    elapsed_ofNat (Nat.mul_le_mul_right _ (by omega)), ← Nat.sub_mul]
  split
  · rw [show min (2 * m + 1) (2 * pairs - 1) - min (2 * m) (2 * pairs - 1) = 1 by omega,
      Nat.one_mul, UInt64.ofNat_toNat]
  · rw [show min (2 * m + 1) (2 * pairs - 1) - min (2 * m) (2 * pairs - 1) = 0 by omega,
      Nat.zero_mul]
    rfl

end ScriptedClock

namespace Runner

/-- **A run tells true durations.** Let the clock show times that never go back, up to the
wrap-around of its counter, of which there may be any number. If no timed invocation takes as long
as a whole turn of the counter, each lap of the run is the true duration of its invocation, and so
are the times that the records are made of; their totals are true but for wrapping around.

In particular, on a stepping clock each lap takes one step, and none once the script is over. -/
theorem run_tells_durations [Invocable A M] (runner : Runner) (s : Stage A M) :
    (∀ (tick : T → UInt64 × T) (t : T) (times : List Nat),
      (runner.events tick t s).filterMap Event.value? = times.map UInt64.ofNat →
      times.Pairwise (· ≤ ·) → (∀ d ∈ durations times, d < 2 ^ 64) →
      (Event.laps (runner.events tick t s)).map (fun l ↦ (l.1, l.2.toNat)) =
        (durations times).mapIdx (fun m d ↦ (m % s.catalog.size, d)) ∧
      ∀ records, (runner.run (Bench.ofClock tick) s.catalog (s.state, t)).1 = .ok records →
        (durations times).length = runner.rounds * s.catalog.size ∧
        s.RecordsTell runner (fun m ↦ (durations times).getD m 0) records) ∧
    ∀ (step : UInt64) (pairs : Nat),
      let clock := ScriptedClock.stepping step pairs
      let events := runner.events ScriptedClock.now clock s
      Event.laps events = (List.range (events.countP Event.isReading / 2)).map (fun m ↦
        (m % s.catalog.size, if m < pairs then step else 0)) ∧
      ∀ records,
        (runner.run (Bench.ofClock ScriptedClock.now) s.catalog (s.state, clock)).1 = .ok records →
          (Event.laps events).length = runner.rounds * s.catalog.size ∧
          s.RecordsTell runner (fun m ↦ if m < pairs then step.toNat else 0) records := by
  refine ⟨fun tick t times hshown hgrow hshort ↦ ?_, fun step pairs ↦ ?_⟩
  · obtain ⟨m, hlaps, -, hreadings, hcomplete⟩ := s.exists_laps runner tick t
    have htook := toNat_lap_of_times (hreadings.symm.trans hshown) hgrow hshort
    refine ⟨?_, fun records hrecords ↦ ?_⟩
    · rw [hlaps, ← htook]
      exact List.ext_getElem (by simp) fun j _ _ ↦ by simp
    · obtain rfl := hcomplete records hrecords
      refine ⟨by rw [← htook, List.length_map, List.length_range],
        s.recordsTell_of_lap runner tick t (fun m hm ↦ ?_) hrecords⟩
      rw [← htook]
      simp [hm]
  · intro clock events
    obtain ⟨m, hlaps, hcount, -, hcomplete⟩ := s.exists_laps runner ScriptedClock.now clock
    refine ⟨?_, fun records hrecords ↦ ⟨?_, ?_⟩⟩
    · rw [hlaps, hcount, Nat.mul_div_cancel_left m Nat.two_pos]
      exact List.map_congr_left fun j _ ↦ by rw [ScriptedClock.lap_stepping]
    · rw [hlaps, List.length_map, List.length_range, hcomplete records hrecords]
    · refine s.recordsTell_of_lap runner ScriptedClock.now clock (fun m _ ↦ ?_) hrecords
      rw [ScriptedClock.lap_stepping]
      split <;> rfl

/-- Two rounds of one benchmark, on a counter that turns in each of them: the laps are true, up to
one less than a whole turn, and their total has wrapped around. -/
theorem run_tells_durations_turning :
    let runner : Runner := { outerRounds := ⟨2, by decide, by decide⟩ }
    let method : Step Unit Unit UInt64 := pure 1
    let benchmark : Benchmark Target := { name := ⟨"turning", rfl⟩, action := ⟨0, 0⟩ }
    let memory : Memory (fun _ : Unit ↦ Unit) Unit := ⟨[⟨(), (), fun _ n ↦ n, [method], 1⟩], ()⟩
    let s : Stage Target (Memory (fun _ : Unit ↦ Unit) Unit) := ⟨⟨[benchmark]⟩, memory⟩
    let clock : ScriptedClock := { pending := [18446744073709551615, 4, 7, 6] }
    let times := [2 ^ 64 - 1, 2 ^ 64 + 4, 2 ^ 64 + 7, 2 * 2 ^ 64 + 6]
    ((runner.events ScriptedClock.now clock s).filterMap Event.value? = times.map UInt64.ofNat ∧
      times.Pairwise (· ≤ ·) ∧ ∀ d ∈ durations times, d < 2 ^ 64) ∧
    (Event.laps (runner.events ScriptedClock.now clock s)).map (fun l ↦ (l.1, l.2.toNat)) =
      [(0, 5), (0, 2 ^ 64 - 1)] ∧
    ∃ r, (runner.run (Bench.ofClock ScriptedClock.now) s.catalog (s.state, clock)).1 = .ok [r] ∧
      r.series.totalTime = 4 := by
  intro runner method benchmark memory s clock times
  have hshown : (runner.events ScriptedClock.now clock s).filterMap Event.value? =
      times.map UInt64.ofNat := by decide
  have hgrow : times.Pairwise (· ≤ ·) := by decide
  have hshort : ∀ d ∈ durations times, d < 2 ^ 64 := by decide
  obtain ⟨hlaps, hrecords⟩ := (run_tells_durations runner s).1 _ _ times hshown hgrow hshort
  obtain ⟨r, hrun⟩ : ∃ r, (runner.run (Bench.ofClock ScriptedClock.now) s.catalog
      (s.state, clock)).1 = .ok [r] := ⟨_, rfl⟩
  obtain ⟨r', hr', -, -, htotal⟩ := (hrecords _ hrun).2 0 benchmark.entry rfl
  obtain rfl : r = r' := by simpa using hr'
  exact ⟨⟨hshown, hgrow, hshort⟩, hlaps.trans (by decide), r, hrun,
    UInt64.toNat_inj.1 (htotal.trans (by decide))⟩

end Runner

end Crossing
