import Crossing.Proofs.Runner.Sweep

/-!
# The course of a run

What a run does is laid down before it starts, by the catalogue alone: its invocations go round by
round through the benchmarks, and each finds the state as the ones before it left it.
`Stage.after s k` is the state after `k` invocations, and `Stage.reply s k` is what the action
replies to invocation `k`. Neither mentions the runner or a clock.

A *course* connects this with a run on some bench: a state of the bench after each invocation, such
that each turn of the run leads from one to the next. Three theorems say what a run along a course
comes to: `Course.measure_complete` when no invocation fails, and `Course.measure_stopped_warm` and
`Course.measure_stopped_timed` when the first that fails is in the one or the other phase.
-/

namespace Crossing

variable {A M σ : Type}

/-- Where a run starts: a catalogue, and the state that its benchmarks work on. -/
structure Stage (A M : Type) where
  catalog : Catalog A
  state : M

@[simp] theorem Catalog.length_entries (c : Catalog A) : c.entries.length = c.size := by
  rw [entries, List.length_map, size]

theorem Catalog.lt_size_of_entries {c : Catalog A} {i : Nat} {e : Entry}
    (he : c.entries[i]? = some e) : i < c.size := by
  rw [← length_entries]
  exact (List.getElem?_eq_some_iff.1 he).1

/-- There is a benchmark whose turn it is. -/
theorem Catalog.exists_turn (c : Catalog A) (k : Nat) (h : 0 < c.size) :
    ∃ b, c.benchmarks[k % c.size]? = some b :=
  ⟨_, List.getElem?_eq_getElem (Nat.mod_lt k h)⟩

section

variable [Invocable A M]

/-! ### Invocations round by round -/

/-- Calls the action of the benchmark with an index, if there is one. -/
def Catalog.call (c : Catalog A) (i : Nat) (m : M) : Option (Except Fault UInt64) × M :=
  match c.benchmarks[i]? with
  | some b => (some (Invocable.call b.action m).1, (Invocable.call b.action m).2)
  | none => (none, m)

theorem Catalog.call_of_getElem? {c : Catalog A} {i : Nat} {b : Benchmark A}
    (hb : c.benchmarks[i]? = some b) (m : M) :
    c.call i m = (some (Invocable.call b.action m).1, (Invocable.call b.action m).2) := by
  rw [call, hb]

/-- To invoke it judges the reply by its entry. -/
theorem Catalog.invoke_of_getElem? {c : Catalog A} {i : Nat} {b : Benchmark A}
    (hb : c.benchmarks[i]? = some b) (m : M) :
    c.invoke i m =
      (some (b.entry.outcome (Invocable.call b.action m).1), (Invocable.call b.action m).2) := by
  rw [invoke, hb]
  rfl

namespace Stage

/-- The state after a number of invocations, which go through all indices again and again. -/
def after (s : Stage A M) : Nat → M
  | 0 => s.state
  | k + 1 => (s.catalog.call (k % s.catalog.size) (s.after k)).2

/-- What the action replies to the invocation with a number. -/
def reply (s : Stage A M) (k : Nat) : Option (Except Fault UInt64) :=
  (s.catalog.call (k % s.catalog.size) (s.after k)).1

/-- The invocation with a number fails: its action faults, or returns the count zero. -/
def Fails (s : Stage A M) (k : Nat) : Prop :=
  (∃ fault, s.reply k = some (.error fault)) ∨ s.reply k = some (.ok 0)

/-- The count that the invocation with a number returns, zero if it returns none. -/
def count (s : Stage A M) (k : Nat) : UInt64 :=
  match s.reply k with
  | some (.ok n) => n
  | _ => 0

/-- What the invocation with a number comes to. -/
def verdict (s : Stage A M) (k : Nat) : Option (Except Error IterationCount) :=
  (s.catalog.invoke (k % s.catalog.size) (s.after k)).1

section

variable (s : Stage A M) {k : Nat} {b : Benchmark A}
  (hb : s.catalog.benchmarks[k % s.catalog.size]? = some b)

include hb

theorem reply_of_getElem? : s.reply k = some (Invocable.call b.action (s.after k)).1 := by
  rw [reply, Catalog.call_of_getElem? hb]

theorem after_succ_of_getElem? : s.after (k + 1) = (Invocable.call b.action (s.after k)).2 := by
  rw [after, Catalog.call_of_getElem? hb]

theorem verdict_of_getElem? :
    s.verdict k = some (b.entry.outcome (Invocable.call b.action (s.after k)).1) := by
  rw [verdict, Catalog.invoke_of_getElem? hb]

end

/-- What the invocation with a number comes to: a count that is not zero, or the error that names
the benchmark and says how it failed. -/
theorem verdict_cases (s : Stage A M) (k : Nat) (h : 0 < s.catalog.size) :
    ∃ e, s.catalog.entries[k % s.catalog.size]? = some e ∧
      ((∃ fault, s.reply k = some (.error fault) ∧
          s.verdict k = some (.error (.invocation e.name.text fault))) ∨
        (s.reply k = some (.ok 0) ∧
          s.verdict k = some (.error (.invalidCount e.name.text 0))) ∨
        ∃ count : IterationCount, s.reply k = some (.ok count.count) ∧
          s.verdict k = some (.ok count)) := by
  obtain ⟨b, hb⟩ := s.catalog.exists_turn k h
  refine ⟨b.entry, ?_, ?_⟩
  · rw [Catalog.entries, List.getElem?_map, hb, Option.map_some]
  · rw [s.reply_of_getElem? hb, s.verdict_of_getElem? hb]
    rcases (Invocable.call b.action (s.after k)).1 with fault | n
    · exact .inl ⟨fault, rfl, rfl⟩
    · by_cases hn : n = 0
      · exact .inr (.inl ⟨by rw [hn], by rw [hn]; rfl⟩)
      · refine .inr (.inr ⟨⟨n, hn⟩, rfl, ?_⟩)
        simp [Entry.outcome, IterationCount.ofUInt64?, hn]

end Stage

end

namespace Runner

/-! ### Ends of known turns -/

section

variable {α : Type} {X : Nat → Option (Except Error α)} {n k : Nat} {r : Except Error (List α)}

/-- Where nothing fails, all turns are taken. -/
theorem Ends.eq_complete (hX : ∀ j < n, ∃ a, X j = some (.ok a)) (h : Ends X n r k) :
    ∃ values, r = .ok values ∧ k = n ∧ values.length = n ∧
      ∀ j < n, X j = (values[j]?).map Except.ok := by
  cases h with
  | complete hlen hvalues => exact ⟨_, rfl, rfl, hlen, hvalues⟩
  | stopped hk he _ =>
    obtain ⟨a, ha⟩ := hX _ hk
    simp [he] at ha

/-- The first turn that fails is the last one. -/
theorem Ends.eq_stopped {j : Nat} {e : Error} (hj : j < n) (he : X j = some (.error e))
    (hX : ∀ i < j, ∃ a, X i = some (.ok a)) (h : Ends X n r k) : r = .error e ∧ k = j + 1 := by
  cases h with
  | @complete values _ hvalues =>
    have hval := hvalues j hj
    rw [he] at hval
    rcases hvalue : values[j]? with - | a <;> simp [hvalue] at hval
  | @stopped k' e' hk he' hX' =>
    rcases Nat.lt_trichotomy k' j with hlt | rfl | hgt
    · obtain ⟨a, ha⟩ := hX k' hlt
      simp [he'] at ha
    · rw [he] at he'
      cases he'
      exact ⟨rfl, rfl⟩
    · obtain ⟨a, ha⟩ := hX' j hgt
      simp [he] at ha

/-- An end without an error means that nothing failed. -/
theorem Ends.of_ok {values : List α} (h : Ends X n (.ok values) k) :
    ∀ j < n, ∃ a, X j = some (.ok a) := by
  cases h with
  | complete hlen hvalues =>
    intro j hj
    rw [hvalues j hj, List.getElem?_eq_getElem (hlen ▸ hj)]
    exact ⟨values[j], rfl⟩

/-- The turns decide how they end. -/
theorem Ends.unique {r' : Except Error (List α)} {k' : Nat} (h : Ends X n r k)
    (h' : Ends X n r' k') : r' = r ∧ k' = k := by
  cases h with
  | @complete values hlen hvalues =>
    obtain ⟨values', rfl, rfl, hlen', hvalues'⟩ := h'.eq_complete (Ends.complete hlen hvalues).of_ok
    refine ⟨congrArg Except.ok (List.ext_getElem (hlen'.trans hlen.symm) fun j hj hj' ↦ ?_), rfl⟩
    have heq := (hvalues' j (hlen' ▸ hj)).symm.trans (hvalues j (hlen ▸ hj'))
    rw [List.getElem?_eq_getElem hj, List.getElem?_eq_getElem hj'] at heq
    exact Except.ok.inj (Option.some.inj heq)
  | stopped hk he hX => exact h'.eq_stopped hk he hX

end

/-! ### Courses -/

/-- The number of rounds that only warm up. -/
def warmups (runner : Runner) : Nat := runner.warmupRounds.toNat

/-- The number of timed rounds. -/
def rounds (runner : Runner) : Nat := runner.outerRounds.count.toNat

/-- The states of a bench along a run of a catalogue of `n` benchmarks, in which invocation `k`
comes to `X k` and timed invocation `m` takes the time `lap m`. -/
structure Course [Invocable A M] (runner : Runner) (bench : Bench (StateM σ) M) (c : Catalog A)
    (n : Nat) (X : Nat → Option (Except Error IterationCount)) (lap : Nat → UInt64) where
  warming : Nat → σ
  timing : Nat → σ
  size_eq : c.size = n
  joined : warming (runner.warmups * n) = timing 0
  settled : ∀ k < runner.warmups * n + runner.rounds * n, (X k).isSome
  warm_turn : ∀ k < runner.warmups * n,
    turn (warm bench) c.benchmarks (k % n) (warming k) = (X k, warming (k + 1))
  timed_turn : ∀ m < runner.rounds * n, turn (timed bench) c.benchmarks (m % n) (timing m) =
    ((X (runner.warmups * n + m)).map (·.map (Timing.mk (lap m))), timing (m + 1))

namespace Course

variable [Invocable A M] {runner : Runner} {bench : Bench (StateM σ) M} {c : Catalog A} {n : Nat}
  {X : Nat → Option (Except Error IterationCount)} {lap : Nat → UInt64}
  (course : Course runner bench c n X lap)

include course in
theorem length_benchmarks : c.benchmarks.length = n := course.size_eq

/-- The first phase, in terms of the course. -/
theorem warmRounds_ends : ∃ r k, Ends X (runner.warmups * n) r k ∧
    warmRounds bench c.benchmarks runner.warmups (course.warming 0) =
      (r.map fun _ ↦ (), course.warming k) := by
  obtain ⟨r, k, hends, hsweep⟩ := sweep_ends course.warm_turn
    fun k hk ↦ course.settled k (by omega)
  refine ⟨r, k, hends, ?_⟩
  rw [warmRounds_eq_sweep, course.length_benchmarks, hsweep]

/-- The second phase, in terms of the course. -/
theorem timedRounds_ends (records : List Record) : ∃ r k,
    Ends (fun m ↦ (X (runner.warmups * n + m)).map (·.map (Timing.mk (lap m))))
      (runner.rounds * n) r k ∧
    timedRounds bench c.benchmarks runner.rounds records (course.timing 0) =
      (r.map (tally n runner.rounds records), course.timing k) := by
  obtain ⟨r, k, hends, hsweep⟩ := sweep_ends course.timed_turn fun m hm ↦ by
    rw [Option.isSome_map]
    exact course.settled _ (by omega)
  refine ⟨r, k, hends, ?_⟩
  rw [timedRounds_eq_sweep, course.length_benchmarks]
  dsimp only
  rw [hsweep]

/-- The records before anything is timed. -/
def blanks (c : Catalog A) : List Record := c.entries.map blankRecord

/-- A run whose first phase is complete goes on with the second. -/
theorem measure_of_warm (hwarm : ∀ k < runner.warmups * n, ∃ c, X k = some (.ok c)) :
    runner.measure bench c (course.warming 0) =
      timedRounds bench c.benchmarks runner.rounds (blanks c) (course.timing 0) := by
  obtain ⟨r, k, hends, hrounds⟩ := course.warmRounds_ends
  obtain ⟨values, rfl, rfl, -, -⟩ := hends.eq_complete hwarm
  rw [measure, bind_apply, show runner.warmupRounds.toNat = runner.warmups from rfl, hrounds,
    ← course.joined]
  rfl

/-- A run whose first phase fails is over. -/
theorem measure_of_warm_error {k : Nat} {e : Error}
    (hwarm : warmRounds bench c.benchmarks runner.warmups (course.warming 0) =
      (.error e, course.warming k)) :
    runner.measure bench c (course.warming 0) = (.error e, course.warming k) := by
  rw [measure, bind_apply, show runner.warmupRounds.toNat = runner.warmups from rfl, hwarm]
  rfl

/-- **No invocation fails**: all timings are there, and go to the records. -/
theorem measure_complete
    (h : ∀ k < runner.warmups * n + runner.rounds * n, ∃ c, X k = some (.ok c)) :
    ∃ timings : List Timing, timings.length = runner.rounds * n ∧
      (∀ m < runner.rounds * n, ∃ c, X (runner.warmups * n + m) = some (.ok c) ∧
        timings[m]? = some ⟨lap m, c⟩) ∧
      runner.measure bench c (course.warming 0) =
        (.ok (tally n runner.rounds (blanks c) timings), course.timing (runner.rounds * n)) := by
  obtain ⟨r, k, hends, hrounds⟩ := course.timedRounds_ends (blanks c)
  have hok : ∀ m < runner.rounds * n, ∃ t,
      (X (runner.warmups * n + m)).map (·.map (Timing.mk (lap m))) = some (.ok t) := fun m hm ↦ by
    obtain ⟨c, hc⟩ := h (runner.warmups * n + m) (by omega)
    exact ⟨⟨lap m, c⟩, by rw [hc]; rfl⟩
  obtain ⟨timings, rfl, rfl, hlen, htimings⟩ := hends.eq_complete hok
  refine ⟨timings, hlen, fun m hm ↦ ?_, ?_⟩
  · obtain ⟨c, hc⟩ := h (runner.warmups * n + m) (by omega)
    have hm' := htimings m hm
    simp only [hc, Option.map_some, Except.map, List.getElem?_eq_getElem (hlen ▸ hm)] at hm'
    refine ⟨c, hc, ?_⟩
    rw [List.getElem?_eq_getElem (hlen ▸ hm)]
    exact congrArg some (Except.ok.inj (Option.some.inj hm')).symm
  · rw [course.measure_of_warm fun k hk ↦ h k (by omega), hrounds]
    rfl

/-- **The first failure is in the warm-up**: the run ends right after it. -/
theorem measure_stopped_warm {k : Nat} {e : Error} (hk : k < runner.warmups * n)
    (he : X k = some (.error e)) (h : ∀ j < k, ∃ c, X j = some (.ok c)) :
    runner.measure bench c (course.warming 0) = (.error e, course.warming (k + 1)) := by
  obtain ⟨r, k', hends, hrounds⟩ := course.warmRounds_ends
  obtain ⟨rfl, rfl⟩ := hends.eq_stopped hk he h
  exact course.measure_of_warm_error hrounds

/-- **The first failure is a timed invocation**: the run ends right after its second reading. -/
theorem measure_stopped_timed {m : Nat} {e : Error} (hm : m < runner.rounds * n)
    (he : X (runner.warmups * n + m) = some (.error e))
    (h : ∀ j < runner.warmups * n + m, ∃ c, X j = some (.ok c)) :
    runner.measure bench c (course.warming 0) = (.error e, course.timing (m + 1)) := by
  obtain ⟨r, k, hends, hrounds⟩ := course.timedRounds_ends (blanks c)
  have hok : ∀ j < m, ∃ t,
      (X (runner.warmups * n + j)).map (·.map (Timing.mk (lap j))) = some (.ok t) := fun j hj ↦ by
    obtain ⟨c, hc⟩ := h (runner.warmups * n + j) (by omega)
    exact ⟨⟨lap j, c⟩, by rw [hc]; rfl⟩
  obtain ⟨rfl, rfl⟩ := hends.eq_stopped hm (by rw [he]; rfl) hok
  rw [course.measure_of_warm fun k hk ↦ h k (by omega), hrounds]
  rfl

/-- Runs whose invocations come to the same keep step, and have the same result. -/
theorem measure_agree {A' M' σ' : Type} [Invocable A' M'] {bench' : Bench (StateM σ') M'}
    {c' : Catalog A'} (other : Course runner bench' c' n X lap)
    (hentries : c'.entries = c.entries) :
    ∃ r,
    (∃ k, runner.measure bench c (course.warming 0) = (r, course.warming k) ∧
        runner.measure bench' c' (other.warming 0) = (r, other.warming k)) ∨
      ∃ m, runner.measure bench c (course.warming 0) = (r, course.timing m) ∧
        runner.measure bench' c' (other.warming 0) = (r, other.timing m) := by
  obtain ⟨r, k, hends, hrounds⟩ := course.warmRounds_ends
  obtain ⟨r', k', hends', hrounds'⟩ := other.warmRounds_ends
  obtain ⟨rfl, rfl⟩ := hends.unique hends'
  rcases r' with e | values
  · exact ⟨.error e, .inl ⟨k', course.measure_of_warm_error hrounds,
      other.measure_of_warm_error hrounds'⟩⟩
  · have hwarm := hends.of_ok
    obtain ⟨r, m, hends, hrounds⟩ := course.timedRounds_ends (blanks c)
    obtain ⟨r', m', hends', hrounds'⟩ := other.timedRounds_ends (blanks c')
    obtain ⟨rfl, rfl⟩ := hends.unique hends'
    refine ⟨r'.map (tally n runner.rounds (blanks c)), .inr ⟨m', ?_, ?_⟩⟩
    · rw [course.measure_of_warm hwarm, hrounds]
    · rw [other.measure_of_warm hwarm, hrounds', blanks, hentries, blanks]

end Course

end Runner

end Crossing
