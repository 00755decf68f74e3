import Crossing.Proofs.Outcome
import Crossing.Runner

/-!
# Rounds as one line of turns

A run goes through the benchmarks of a catalogue, once each round. Here the two loops become one: a
*turn* is a visit at an index, and a *sweep* takes turns at a list of indices until one fails.

* `visitEach_eq_sweep`: a pass is a sweep over all indices in order.
* `sweep_ends`: where the states after each turn are known beforehand, a sweep ends in the state
  after the last turn, or after the first one that fails.
* `warmRounds_eq_sweep`, `timedRounds_eq_sweep`: all rounds of a phase are one sweep, in which turn
  `k` is at index `k % n`.

What is known beforehand is a sequence `F` of states and a sequence `X` of results. Nothing here
depends on where they come from, so the same lemmas serve for any bench.
-/

namespace Crossing.Runner

variable {A M σ α : Type}

/-! ### Turns and sweeps -/

/-- A visit of the benchmark at an index, if there is one. -/
def turn (visit : Benchmark A → StateM σ (Except Error α)) (bs : List (Benchmark A)) (i : Nat)
    (x : σ) : Option (Except Error α) × σ :=
  match bs[i]? with
  | some b => (some (visit b x).1, (visit b x).2)
  | none => (none, x)

/-- Turns at some indices, one after the other, until one fails. -/
def sweep (turn : Nat → σ → Option (Except Error α) × σ) :
    List Nat → σ → Except Error (List α) × σ
  | [], a => (.ok [], a)
  | i :: is, a =>
    match turn i a with
    | (none, a) => sweep turn is a
    | (some (.error e), a) => (.error e, a)
    | (some (.ok x), a) =>
      let (r, a) := sweep turn is a
      (r.map (x :: ·), a)

/-- A sweep can be cut in two: the second part is made if the first did not fail. -/
theorem sweep_append (turn : Nat → σ → Option (Except Error α) × σ) (is js : List Nat) (a : σ) :
    sweep turn (is ++ js) a =
      match sweep turn is a with
      | (.error e, a) => (.error e, a)
      | (.ok xs, a) => ((sweep turn js a).1.map (xs ++ ·), (sweep turn js a).2) := by
  induction is generalizing a with
  | nil =>
    show sweep turn js a = ((sweep turn js a).1.map ([] ++ ·), (sweep turn js a).2)
    rcases sweep turn js a with ⟨- | xs, b⟩ <;> rfl
  | cons i is ih =>
    rw [List.cons_append, sweep, sweep]
    rcases turn i a with ⟨- | e | x, b⟩
    · exact ih b
    · rfl
    · simp only [ih b]
      rcases sweep turn is b with ⟨e | xs, c⟩
      · rfl
      · show (((sweep turn js c).1.map (xs ++ ·)).map (x :: ·), (sweep turn js c).2) =
          ((sweep turn js c).1.map (x :: xs ++ ·), (sweep turn js c).2)
        rcases sweep turn js c with ⟨- | ys, d⟩ <;> rfl

section

variable (visit : Benchmark A → StateM σ (Except Error α)) {bs : List (Benchmark A)} {i : Nat}

theorem turn_of_getElem? {b : Benchmark A} (hb : bs[i]? = some b) (x : σ) :
    turn visit bs i x = (some (visit b x).1, (visit b x).2) := by
  rw [turn, hb]

/-- A pass visits the benchmarks in order. The ones that were visited before are those that the
induction leaves behind. -/
theorem sweep_visitEach (done bs : List (Benchmark A)) (x : σ) :
    sweep (turn visit (done ++ bs)) ((List.range bs.length).map (done.length + ·)) x =
      visitEach visit bs x := by
  induction bs generalizing done x with
  | nil => rfl
  | cons b bs ih =>
    have hb : (done ++ b :: bs)[done.length]? = some b := by simp
    have hrange : (List.range (b :: bs).length).map (done.length + ·) =
        done.length :: (List.range bs.length).map ((done ++ [b]).length + ·) := by
      rw [List.length_cons, List.range_succ_eq_map, List.map_cons, List.map_map, List.length_append]
      congr 1
      exact List.map_congr_left fun i _ ↦ by simp; omega
    rw [hrange, sweep, turn_of_getElem? visit hb, visitEach, bind_apply]
    rcases visit b x with ⟨e | a, y⟩
    · rfl
    · have hrest := ih (done ++ [b]) y
      rw [List.append_assoc, List.singleton_append] at hrest
      dsimp only
      rw [hrest]
      rfl

/-- **A pass is a sweep** over all indices in order. -/
theorem visitEach_eq_sweep (bs : List (Benchmark A)) (x : σ) :
    visitEach visit bs x = sweep (turn visit bs) (List.range bs.length) x := by
  have hsweep := sweep_visitEach visit [] bs x
  rw [List.length_nil, List.nil_append, funext Nat.zero_add, List.map_id'] at hsweep
  exact hsweep.symm

/-- A pass gives one value for each benchmark. -/
theorem length_of_visitEach {x : σ} {values : List α} (h : (visitEach visit bs x).1 = .ok values) :
    values.length = bs.length := by
  induction bs generalizing x values with
  | nil => cases h; rfl
  | cons b bs ih =>
    rw [visitEach, bind_apply] at h
    rcases hvisit : visit b x with ⟨e | v, y⟩ <;> rw [hvisit] at h
    · cases h
    · rcases hrest : visitEach visit bs y with ⟨e | vs, z⟩ <;>
        simp only [bind_apply, hrest] at h <;> cases h
      exact congrArg (· + 1) (ih (congrArg Prod.fst hrest))

end

/-! ### Rounds -/

/-- The indices of some rounds in a row: those of one round, and then those of the others. -/
theorem range_succ_mul_map_mod (n k : Nat) :
    (List.range ((k + 1) * n)).map (· % n) = List.range n ++ (List.range (k * n)).map (· % n) := by
  rw [Nat.add_comm k 1, Nat.add_mul, Nat.one_mul, List.range_add, List.map_append, List.map_map]
  congr 1
  · have hsmall : ∀ i ∈ List.range n, i % n = id i := fun i hi ↦
      Nat.mod_eq_of_lt (List.mem_range.1 hi)
    rw [List.map_congr_left hsmall, List.map_id_fun, id]
  · exact List.map_congr_left fun i _ ↦ Nat.add_mod_left n i

section

variable [Invocable A M]

/-- The rounds that only warm up are one sweep, whose values are thrown away. -/
theorem warmRounds_eq_sweep (bench : Bench (StateM σ) M) (bs : List (Benchmark A)) (k : Nat)
    (x : σ) :
    warmRounds bench bs k x =
      let s := sweep (turn (warm bench) bs)
        ((List.range (k * bs.length)).map (· % bs.length)) x
      (s.1.map fun _ ↦ (), s.2) := by
  induction k generalizing x with
  | zero => simp only [Nat.zero_mul]; rfl
  | succ k ih =>
    rw [warmRounds, bind_apply, visitEach_eq_sweep, range_succ_mul_map_mod, sweep_append]
    rcases sweep (turn (warm bench) bs) (List.range bs.length) x with ⟨e | vs, y⟩
    · rfl
    · simp only [ih y]
      rcases sweep (turn (warm bench) bs) _ y with ⟨e | ws, z⟩ <;> rfl

/-- What some rounds of `n` timings each make of `n` records. -/
def tally (n : Nat) : Nat → List Record → List Timing → List Record
  | 0, records, _ => records
  | k + 1, records, timings =>
    tally n k (List.zipWith addTiming records (timings.take n)) (timings.drop n)

/-- The timed rounds are one sweep, whose timings go to the records round by round. -/
theorem timedRounds_eq_sweep (bench : Bench (StateM σ) M) (bs : List (Benchmark A)) (k : Nat)
    (records : List Record) (x : σ) :
    timedRounds bench bs k records x =
      let s := sweep (turn (timed bench) bs)
        ((List.range (k * bs.length)).map (· % bs.length)) x
      (s.1.map (tally bs.length k records), s.2) := by
  induction k generalizing records x with
  | zero => simp only [Nat.zero_mul]; rfl
  | succ k ih =>
    rw [timedRounds, bind_apply, range_succ_mul_map_mod, sweep_append, ← visitEach_eq_sweep]
    rcases hpass : visitEach (timed bench) bs x with ⟨e | vs, y⟩
    · rfl
    · have hvs := length_of_visitEach (timed bench) (congrArg Prod.fst hpass)
      simp only [ih _ y]
      rcases sweep (turn (timed bench) bs) _ y with ⟨e | ws, z⟩
      · rfl
      · simp only [Except.map, tally, List.take_left' hvs, List.drop_left' hvs]

end

/-! ### Turns that are known beforehand -/

/-- How `n` turns with the results `X` end, and after how many of them: with all values, or with the
error of the first turn that fails. -/
inductive Ends (X : Nat → Option (Except Error α)) (n : Nat) : Except Error (List α) → Nat → Prop
  | complete {values : List α} (hlen : values.length = n)
      (hX : ∀ k < n, X k = (values[k]?).map Except.ok) : Ends X n (.ok values) n
  | stopped {k : Nat} {e : Error} (hk : k < n) (he : X k = some (.error e))
      (hX : ∀ j < k, ∃ a, X j = some (.ok a)) : Ends X n (.error e) (k + 1)

/-- One more turn in front, with a value. -/
theorem Ends.cons {X : Nat → Option (Except Error α)} {n k : Nat} {r : Except Error (List α)}
    {v : α} (hv : X 0 = some (.ok v)) (h : Ends (fun k ↦ X (k + 1)) n r k) :
    Ends X (n + 1) (r.map (v :: ·)) (k + 1) := by
  cases h with
  | complete hlen hX =>
    refine .complete (by simp [hlen]) fun k hk ↦ ?_
    cases k with
    | zero => simpa using hv
    | succ k => simpa using hX k (by omega)
  | stopped hk he hX =>
    refine .stopped (by omega) he fun j hj ↦ ?_
    cases j with
    | zero => exact ⟨v, hv⟩
    | succ j => exact hX j (by omega)

/-- **A sweep along known turns** ends in the state after the last turn it took. -/
theorem sweep_ends {turn : Nat → σ → Option (Except Error α) × σ}
    {X : Nat → Option (Except Error α)} {F : Nat → σ} {g : Nat → Nat} {n : Nat}
    (hturn : ∀ k < n, turn (g k) (F k) = (X k, F (k + 1)))
    (hX : ∀ k < n, (X k).isSome) :
    ∃ r k, Ends X n r k ∧ sweep turn ((List.range n).map g) (F 0) = (r, F k) := by
  induction n generalizing X F g with
  | zero => exact ⟨.ok [], 0, .complete rfl (by simp), rfl⟩
  | succ n ih =>
    rw [List.range_succ_eq_map, List.map_cons, List.map_map, sweep, hturn 0 (Nat.succ_pos n)]
    rcases hzero : X 0 with - | e | v
    · simpa [hzero] using hX 0 (Nat.succ_pos n)
    · exact ⟨.error e, 1, .stopped (Nat.succ_pos n) hzero (by simp), rfl⟩
    · obtain ⟨r, k, hends, hsweep⟩ := ih (X := fun k ↦ X (k + 1)) (F := fun k ↦ F (k + 1))
        (g := g ∘ Nat.succ) (fun k hk ↦ hturn (k + 1) (by omega))
        (fun k hk ↦ hX (k + 1) (by omega))
      refine ⟨r.map (v :: ·), k + 1, hends.cons hzero, ?_⟩
      simp only [hsweep, Nat.zero_add]

end Crossing.Runner
