import Crossing.Proofs.Runner.Course

/-!
# What a run does, event by event

A run reads its clock and invokes benchmarks, and does nothing else that the outside can tell. Both
are written down here: a *traced* catalogue has the same benchmarks, each of which also notes its
index when it is called, and the bench it runs on notes each reading. The runner is the same, and
cannot tell the difference, so the notes are the events of the run.

The clock is any machine that shows a number when it is read. `reading tick t k` is what it shows at
reading `k`, whoever reads it.
-/

namespace Crossing

variable {A M T : Type}

/-! ### Clocks -/

section

variable (tick : T → UInt64 × T) (t : T)

/-- A clock after a number of readings. -/
def clockAfter : Nat → T
  | 0 => t
  | k + 1 => (tick (clockAfter k)).2

/-- The reading of a clock with a number. -/
def reading (k : Nat) : UInt64 := (tick (clockAfter tick t k)).1

/-- The time between the two readings around the timed invocation with a number. -/
def lap (m : Nat) : UInt64 := elapsed (reading tick t (2 * m)) (reading tick t (2 * m + 1))

theorem clockAfter_succ (k : Nat) : clockAfter tick t (k + 1) = clockAfter tick (tick t).2 k := by
  induction k with
  | zero => rfl
  | succ k ih => rw [clockAfter, ih, clockAfter]

theorem reading_succ (k : Nat) : reading tick t (k + 1) = reading tick (tick t).2 k := by
  rw [reading, clockAfter_succ, reading]

end

/-- A script is shown entry by entry, and then its last entry again and again. -/
theorem ScriptedClock.reading_now (script : List UInt64) (last : UInt64) (k : Nat) :
    reading ScriptedClock.now ⟨script, last⟩ k = script.getD k (script.getLastD last) := by
  induction k generalizing script last with
  | zero => cases script <;> rfl
  | succ k ih =>
    rw [reading_succ]
    cases script with
    | nil => exact ih [] last
    | cons r rs =>
      refine (ih rs r).trans ?_
      rw [List.getD_cons_succ, List.getLastD_cons]

/-! ### Benches -/

/-- A bench that is the state that benchmarks work on and a clock. -/
def Bench.ofClock (tick : T → UInt64 × T) : Bench (StateM (M × T)) M where
  now s :=
    let (v, t) := tick s.2
    (v, (s.1, t))
  enter f s :=
    let (a, m) := f s.1
    (a, (m, s.2))

/-- To enter the state does not touch the clock. -/
theorem Bench.enter_ofClock {α : Type} (tick : T → UInt64 × T) (t : T) {f : M → α × M} {a : α}
    {m m' : M} (h : f m = (a, m')) : (ofClock tick).enter f (m, t) = (a, (m', t)) := by
  show ((f m).1, ((f m).2, t)) = _
  rw [h]

/-- Something that a run does. -/
inductive Event
  | reading (value : UInt64)
  | invocation (index : Nat)
  deriving DecidableEq, Repr

namespace Event

/-- The index of the benchmark that is invoked. -/
def index? : Event → Option Nat
  | invocation i => some i
  | reading _ => none

/-- Whether the clock is read. -/
def isReading : Event → Bool
  | invocation _ => false
  | reading _ => true

end Event

/-- A bench that notes each reading of its clock. -/
def Bench.noting (tick : T → UInt64 × T) :
    Bench (StateM ((M × List Event) × T)) (M × List Event) where
  now s :=
    let (v, t) := tick s.2
    (v, ((s.1.1, s.1.2 ++ [.reading v]), t))
  enter f s :=
    let (a, m) := f s.1
    (a, (m, s.2))

/-! ### Traced catalogues -/

/-- An action that notes an index when it is called. -/
structure Traced (A : Type) where
  index : Nat
  action : A

instance [Invocable A M] : Invocable (Traced A) (M × List Event) where
  call a s :=
    let (r, m) := Invocable.call a.action s.1
    (r, (m, s.2 ++ [.invocation a.index]))
  drop a s := (Invocable.drop a.action s.1, s.2)

namespace Catalog

/-- The catalogue with all its benchmarks traced. -/
def traced (c : Catalog A) : Catalog (Traced A) :=
  ⟨c.benchmarks.mapIdx fun i b ↦ b.withAction ⟨i, b.action⟩⟩

@[simp] theorem entries_traced (c : Catalog A) : c.traced.entries = c.entries := by
  refine List.ext_getElem? fun i ↦ ?_
  rw [entries, traced, List.getElem?_map, List.getElem?_mapIdx, entries, List.getElem?_map,
    Option.map_map]
  rfl

@[simp] theorem size_traced (c : Catalog A) : c.traced.size = c.size := List.length_mapIdx

/-- A traced benchmark knows its index. -/
theorem getElem?_traced {c : Catalog A} {i : Nat} {b : Benchmark A}
    (hb : c.benchmarks[i]? = some b) :
    c.traced.benchmarks[i]? = some (b.withAction ⟨i, b.action⟩) := by
  rw [traced, List.getElem?_mapIdx, hb, Option.map_some]

/-- Dropping traced benchmarks notes nothing. -/
theorem drop_traced [Invocable A M] (c : Catalog A) (m : M) (log : List Event) :
    c.traced.drop (m, log) = (c.drop m, log) := by
  rw [drop, traced, drop]
  generalize c.benchmarks = bs
  -- the index does not matter for this, so any will do
  suffices h : ∀ index : Nat → Nat, (bs.mapIdx fun i b ↦ b.withAction (Traced.mk (index i) b.action)
      ).foldl (fun s b ↦ Invocable.drop b.action s) (m, log) =
        (bs.foldl (fun m b ↦ Invocable.drop b.action m) m, log) from h id
  induction bs generalizing m with
  | nil => exact fun _ ↦ rfl
  | cons b bs ih =>
    intro index
    rw [List.mapIdx_cons, List.foldl_cons, List.foldl_cons]
    exact ih _ fun i ↦ index (i + 1)

end Catalog

/-- The events of a run. -/
def Runner.events [Invocable A M] (runner : Runner) (tick : T → UInt64 × T) (t : T)
    (s : Stage A M) : List Event :=
  (runner.run (Bench.noting tick) s.catalog.traced ((s.state, []), t)).2.1.2

/-! ### Turns on a clock -/

section

variable (tick : T → UInt64 × T) (t : T)

namespace Stage

variable [Invocable A M] (s : Stage A M) {k : Nat} {b : Benchmark A}
  (hb : s.catalog.benchmarks[k % s.catalog.size]? = some b)

include hb

/-- A turn of the warm-up is an invocation, without a reading. -/
theorem turn_warm :
    Runner.turn (Runner.warm (Bench.ofClock tick)) s.catalog.benchmarks (k % s.catalog.size)
        (s.after k, t) = (s.verdict k, (s.after (k + 1), t)) := by
  rw [Runner.turn_of_getElem? _ hb, s.verdict_of_getElem? hb, s.after_succ_of_getElem? hb]
  rfl

/-- A timed turn is an invocation between two readings. -/
theorem turn_timed :
    Runner.turn (Runner.timed (Bench.ofClock tick)) s.catalog.benchmarks (k % s.catalog.size)
        (s.after k, t) =
      ((s.verdict k).map (·.map (Runner.Timing.mk (lap tick t 0))),
        (s.after (k + 1), clockAfter tick t 2)) := by
  rw [Runner.turn_of_getElem? _ hb, s.verdict_of_getElem? hb, s.after_succ_of_getElem? hb]
  rfl

/-- An invocation that is not timed is one event. -/
theorem turn_warm_traced (log : List Event) :
    Runner.turn (Runner.warm (Bench.noting tick)) s.catalog.traced.benchmarks
        (k % s.catalog.size) ((s.after k, log), t) =
      (s.verdict k, ((s.after (k + 1), log ++ [.invocation (k % s.catalog.size)]), t)) := by
  rw [Runner.turn_of_getElem? _ (Catalog.getElem?_traced hb), s.verdict_of_getElem? hb,
    s.after_succ_of_getElem? hb]
  rfl

/-- A timed invocation is three events. -/
theorem turn_timed_traced (log : List Event) :
    Runner.turn (Runner.timed (Bench.noting tick)) s.catalog.traced.benchmarks
        (k % s.catalog.size) ((s.after k, log), t) =
      ((s.verdict k).map (·.map (Runner.Timing.mk (lap tick t 0))), ((s.after (k + 1),
        log ++ [.reading (reading tick t 0), .invocation (k % s.catalog.size),
          .reading (reading tick t 1)]), clockAfter tick t 2)) := by
  rw [Runner.turn_of_getElem? _ (Catalog.getElem?_traced hb), s.verdict_of_getElem? hb,
    s.after_succ_of_getElem? hb]
  show (_, ((_, log ++ [_] ++ [_] ++ [_]), _)) = _
  rw [List.append_assoc, List.append_assoc]
  rfl

end Stage

/-! ### Courses on a clock -/

/-- The events of a number of invocations that are not timed. -/
def warmEvents (n k : Nat) : List Event := (List.range k).map fun i ↦ .invocation (i % n)

/-- The events of a number of timed invocations: each is between two readings. -/
def timedEvents (n m : Nat) : List Event :=
  (List.range m).flatMap fun j ↦
    [.reading (reading tick t (2 * j)), .invocation (j % n), .reading (reading tick t (2 * j + 1))]

theorem warmEvents_succ (n k : Nat) :
    warmEvents n (k + 1) = warmEvents n k ++ [.invocation (k % n)] := by
  rw [warmEvents, List.range_succ, List.map_append, List.map_singleton, warmEvents]

theorem timedEvents_succ (n m : Nat) :
    timedEvents tick t n (m + 1) = timedEvents tick t n m ++
      [.reading (reading tick t (2 * m)), .invocation (m % n),
        .reading (reading tick t (2 * m + 1))] := by
  rw [timedEvents, List.range_succ, List.flatMap_append, List.flatMap_singleton, timedEvents]

theorem clockAfter_add (a b : Nat) :
    clockAfter tick (clockAfter tick t a) b = clockAfter tick t (a + b) := by
  induction b with
  | zero => rfl
  | succ b ih => rw [clockAfter, ih, Nat.add_succ, clockAfter]

/-- Readings are counted on from where the clock is. -/
theorem reading_clockAfter (a b : Nat) :
    reading tick (clockAfter tick t a) b = reading tick t (a + b) := by
  rw [reading, clockAfter_add, reading]

/-- A lap takes two readings, so the laps before it have taken twice as many. -/
theorem lap_clockAfter (m : Nat) : lap tick (clockAfter tick t (2 * m)) 0 = lap tick t m := by
  rw [lap, reading_clockAfter, reading_clockAfter]
  rfl

namespace Stage

variable [Invocable A M] (s : Stage A M) (runner : Runner)

/-- A run that has an invocation to make comes to something with it. -/
theorem isSome_verdict (k : Nat)
    (hk : k < runner.warmups * s.catalog.size + runner.rounds * s.catalog.size) :
    (s.verdict k).isSome := by
  rw [← Nat.add_mul] at hk
  obtain ⟨b, hb⟩ := s.catalog.exists_turn k (Nat.pos_of_lt_mul_left hk)
  rw [s.verdict_of_getElem? hb]
  rfl

/-- The course of a run on a clock. -/
def course : Runner.Course runner (Bench.ofClock (M := M) tick) s.catalog s.catalog.size s.verdict
    (lap tick t) where
  warming k := (s.after k, t)
  timing m := (s.after (runner.warmups * s.catalog.size + m), clockAfter tick t (2 * m))
  size_eq := rfl
  joined := rfl
  settled := s.isSome_verdict runner
  warm_turn k hk := by
    obtain ⟨b, hb⟩ := s.catalog.exists_turn k (Nat.pos_of_lt_mul_left hk)
    exact s.turn_warm tick t hb
  timed_turn m hm := by
    obtain ⟨b, hb⟩ := s.catalog.exists_turn (runner.warmups * s.catalog.size + m)
      (Nat.pos_of_lt_mul_left hm)
    have hturn := s.turn_timed tick (clockAfter tick t (2 * m)) hb
    -- the invocations that warm up are full rounds, so the index is that of a timed invocation
    rwa [Nat.mul_add_mod_self_right, clockAfter_add, lap_clockAfter] at hturn

/-- The course of a run that notes its events. -/
def tracedCourse : Runner.Course runner (Bench.noting (M := M) tick) s.catalog.traced
    s.catalog.size s.verdict (lap tick t) where
  warming k := ((s.after k, warmEvents s.catalog.size k), t)
  timing m :=
    ((s.after (runner.warmups * s.catalog.size + m),
      warmEvents s.catalog.size (runner.warmups * s.catalog.size) ++
        timedEvents tick t s.catalog.size m), clockAfter tick t (2 * m))
  size_eq := s.catalog.size_traced
  joined := by simp [timedEvents, clockAfter]
  settled := s.isSome_verdict runner
  warm_turn k hk := by
    obtain ⟨b, hb⟩ := s.catalog.exists_turn k (Nat.pos_of_lt_mul_left hk)
    rw [s.turn_warm_traced tick t hb, warmEvents_succ]
  timed_turn m hm := by
    obtain ⟨b, hb⟩ := s.catalog.exists_turn (runner.warmups * s.catalog.size + m)
      (Nat.pos_of_lt_mul_left hm)
    have hturn := s.turn_timed_traced tick (clockAfter tick t (2 * m)) hb
      (warmEvents s.catalog.size (runner.warmups * s.catalog.size) ++
        timedEvents tick t s.catalog.size m)
    rw [Nat.mul_add_mod_self_right, clockAfter_add, lap_clockAfter, reading_clockAfter,
      reading_clockAfter, List.append_assoc] at hturn
    rw [timedEvents_succ]
    exact hturn

end Stage

end

end Crossing
