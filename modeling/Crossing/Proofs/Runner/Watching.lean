import Crossing.Proofs.Runner.Measurement

/-!
# What can be seen in the course of a run

A *watched* run is the same run on a bench that notes the state each time that the bench was
entered: after each invocation, and after the benchmarks were dropped, which comes last. So there is
one note more than there are invocations, and what is noted are the states of the course
(`Stage.exists_watched_run`).

The bench of a watched run differs from that of a plain one only in what it notes, so it follows the
same course, and a law about single turns is all that has to be proved for it.
-/

namespace Crossing

variable {A M T : Type}

/-- A bench that notes the state each time that it was entered. -/
def Bench.watching (tick : T → UInt64 × T) : Bench (StateM (M × List M × T)) M where
  now s :=
    let (v, t) := tick s.2.2
    (v, (s.1, s.2.1, t))
  enter f s :=
    let (a, m) := f s.1
    (a, (m, s.2.1 ++ [m], s.2.2))

namespace Stage

variable [Invocable A M] (s : Stage A M)

/-- The states after each of some invocations. -/
def seen (k : Nat) : List M := (List.range k).map fun j ↦ s.after (j + 1)

theorem seen_succ (k : Nat) : s.seen (k + 1) = s.seen k ++ [s.after (k + 1)] := by
  rw [seen, List.range_succ, List.map_append, List.map_singleton, seen]

/-- What is seen at a position is the state after so many invocations. -/
theorem eq_of_getElem?_seen {k j : Nat} {m : M} (h : (s.seen k)[j]? = some m) :
    m = s.after (j + 1) := by
  rw [seen, List.getElem?_map] at h
  obtain ⟨i, hi, rfl⟩ := Option.map_eq_some_iff.1 h
  obtain ⟨_, rfl⟩ := List.getElem?_eq_some_iff.1 hi
  rw [List.getElem_range]

variable (tick : T → UInt64 × T) (t : T)

section

variable {k : Nat} {b : Benchmark A} (hb : s.catalog.benchmarks[k % s.catalog.size]? = some b)

include hb

/-- A turn of the warm-up adds the state that it leaves to what is seen. -/
theorem turn_warm_watching (log : List M) :
    Runner.turn (Runner.warm (Bench.watching tick)) s.catalog.benchmarks (k % s.catalog.size)
        (s.after k, log, t) =
      (s.verdict k, (s.after (k + 1), log ++ [s.after (k + 1)], t)) := by
  rw [Runner.turn_of_getElem? _ hb, s.verdict_of_getElem? hb, s.after_succ_of_getElem? hb]
  rfl

theorem turn_timed_watching (log : List M) :
    Runner.turn (Runner.timed (Bench.watching tick)) s.catalog.benchmarks (k % s.catalog.size)
        (s.after k, log, t) =
      ((s.verdict k).map (·.map (Runner.Timing.mk (lap tick t 0))),
        (s.after (k + 1), log ++ [s.after (k + 1)], clockAfter tick t 2)) := by
  rw [Runner.turn_of_getElem? _ hb, s.verdict_of_getElem? hb, s.after_succ_of_getElem? hb]
  rfl

end

variable (runner : Runner)

/-- The course of a watched run. -/
def watchedCourse : Runner.Course runner (Bench.watching (M := M) tick) s.catalog s.catalog.size
    s.verdict (lap tick t) where
  warming k := (s.after k, s.seen k, t)
  timing m :=
    (s.after (runner.warmups * s.catalog.size + m), s.seen (runner.warmups * s.catalog.size + m),
      clockAfter tick t (2 * m))
  size_eq := (rfl : s.catalog.benchmarks.length = _)
  joined := rfl
  settled := s.isSome_verdict runner
  warm_turn k hk := by
    obtain ⟨b, hb⟩ := s.catalog.exists_turn k (Nat.pos_of_lt_mul_left hk)
    have hturn := s.turn_warm_watching tick t hb (s.seen k)
    rwa [← seen_succ] at hturn
  timed_turn m hm := by
    obtain ⟨b, hb⟩ := s.catalog.exists_turn (runner.warmups * s.catalog.size + m)
      (Nat.pos_of_lt_mul_left hm)
    have hturn := s.turn_timed_watching tick (clockAfter tick t (2 * m)) hb
      (s.seen (runner.warmups * s.catalog.size + m))
    rwa [Nat.mul_add_mod_self_right, clockAfter_add, lap_clockAfter, ← seen_succ] at hturn

/-- A watched run is over when everything is measured, apart from the benchmarks that are dropped,
which is noted too. -/
theorem run_of_measure_watching {r : Except Error (List Record)} {m : M} {log : List M} {t' : T}
    (h : runner.measure (Bench.watching tick) s.catalog (s.state, [], t) = (r, (m, log, t'))) :
    runner.run (Bench.watching tick) s.catalog (s.state, [], t) =
      (r, (s.catalog.drop m, log ++ [s.catalog.drop m], t')) := by
  rw [Runner.run, bind_apply, h]
  rfl

/-- **A run that is watched is the same run**, and what is seen are the states of its course, up to
the last invocation that was made, and what is left when the benchmarks are dropped. -/
theorem exists_watched_run : ∃ r k t',
    let final := s.catalog.drop (s.after k)
    runner.run (Bench.ofClock tick) s.catalog (s.state, t) = (r, (final, t')) ∧
      runner.run (Bench.watching tick) s.catalog (s.state, [], t) =
        (r, (final, s.seen k ++ [final], t')) := by
  obtain ⟨r, ⟨k, hplain, hwatched⟩ | ⟨m, hplain, hwatched⟩⟩ :=
    (s.course tick t runner).measure_agree (s.watchedCourse tick t runner) rfl
  · exact ⟨r, k, t, s.run_of_measure tick t runner hplain,
      s.run_of_measure_watching tick t runner hwatched⟩
  · exact ⟨r, runner.warmups * s.catalog.size + m, clockAfter tick t (2 * m),
      s.run_of_measure tick t runner hplain, s.run_of_measure_watching tick t runner hwatched⟩

end Stage

end Crossing
