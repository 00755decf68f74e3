import Crossing.Proofs.Runner.Measurement

/-!
# Catalogues that always reply alike

Something holds in the course of a run if it holds at first and each benchmark keeps it, whether it
fails or not (`Catalog.Keeps`). A catalogue is *steady* if moreover what a benchmark replies can be
told from its entry alone: no matter how often and in what order its benchmarks were invoked before,
each replies as it would have done at first. What benchmarks leave behind may change all the time;
there only has to be something that it keeps to.

Whoever invokes a steady catalogue gets the same replies in any order (`Steady.invokeEach`), and a
run of it comes to records or not, whatever the number of rounds (`Steady.exists_records_iff`).
-/

namespace Crossing

variable {A M T : Type} [Invocable A M]

namespace Catalog

/-- Each benchmark keeps something of the state, and then replies and leaves the state as `R` says
of its entry. -/
def Keeps (c : Catalog A) (I : M → Prop) (R : Entry → Except Fault UInt64 → M → Prop) : Prop :=
  ∀ b ∈ c.benchmarks, ∀ m, I m →
    I (Invocable.call b.action m).2 ∧
      R b.entry (Invocable.call b.action m).1 (Invocable.call b.action m).2

/-- Each benchmark replies as its entry says. -/
def Steady (c : Catalog A) (I : M → Prop) (reply : Entry → Except Fault UInt64) : Prop :=
  c.Keeps I fun e r _ ↦ r = reply e

/-- Invokes the benchmarks at some indices, one after the other. -/
def invokeEach (c : Catalog A) (m : M) : List Nat → List (Option (Except Error IterationCount))
  | [] => []
  | i :: is => (c.invoke i m).1 :: c.invokeEach (c.invoke i m).2 is

end Catalog

namespace Stage

variable {I : M → Prop} {R : Entry → Except Fault UInt64 → M → Prop}
  {reply : Entry → Except Fault UInt64} {s : Stage A M}

/-- **What each invocation keeps holds after all of them.** -/
theorem after_of_keeps (hs : s.catalog.Keeps I R) (hI : I s.state) (k : Nat) : I (s.after k) := by
  induction k with
  | zero => exact hI
  | succ k ih =>
    rw [after, Catalog.call]
    split
    · next b hb => exact (hs b (List.mem_of_getElem? hb) _ ih).1
    · exact ih

/-- An invocation replies and leaves the state as its entry says. -/
theorem reply_of_keeps (hs : s.catalog.Keeps I R) (hI : I s.state) {k : Nat} {e : Entry}
    (he : s.catalog.entries[k % s.catalog.size]? = some e) :
    ∃ r, s.reply k = some r ∧ R e r (s.after (k + 1)) := by
  rw [Catalog.entries, List.getElem?_map] at he
  obtain ⟨b, hb, rfl⟩ := Option.map_eq_some_iff.1 he
  refine ⟨_, s.reply_of_getElem? hb, ?_⟩
  rw [s.after_succ_of_getElem? hb]
  exact (hs b (List.mem_of_getElem? hb) _ (after_of_keeps hs hI k)).2

/-- An invocation of a run fails exactly if its entry says so. -/
theorem fails_iff_of_steady (hs : s.catalog.Steady I reply) (hI : I s.state) (k : Nat) :
    s.Fails k ↔ ∃ e, s.catalog.entries[k % s.catalog.size]? = some e ∧
      ((∃ fault, reply e = .error fault) ∨ reply e = .ok 0) := by
  rcases he : s.catalog.entries[k % s.catalog.size]? with - | e
  · have hb : s.catalog.benchmarks[k % s.catalog.size]? = none := by
      rwa [Catalog.entries, List.getElem?_map, Option.map_eq_none_iff] at he
    simp [Fails, Stage.reply, Catalog.call, hb]
  · obtain ⟨r, hr, rfl⟩ := reply_of_keeps hs hI he
    simp [Fails, hr]

end Stage

namespace Catalog.Steady

variable {I : M → Prop} {reply : Entry → Except Fault UInt64} {c : Catalog A} {m : M}

/-- **A steady catalogue replies alike in any order**: what an invocation comes to depends on the
entry at its index, and not on the invocations before it. -/
theorem invokeEach (hc : c.Steady I reply) (hI : I m) (is : List Nat) :
    c.invokeEach m is = is.map fun i ↦ (c.entries[i]?).map fun e ↦ e.outcome (reply e) := by
  induction is generalizing m with
  | nil => rfl
  | cons i is ih =>
    rw [Catalog.invokeEach, List.map_cons, Catalog.entries, List.getElem?_map]
    rcases hb : c.benchmarks[i]? with - | b
    · have hnone : c.invoke i m = (none, m) := by
        rw [Catalog.invoke, hb]
        rfl
      rw [hnone, ih hI]
      rfl
    · obtain ⟨hI', hreply⟩ := hc b (List.mem_of_getElem? hb) m hI
      rw [Catalog.invoke_of_getElem? hb, ih hI', hreply]
      rfl

/-- **A run of a steady catalogue has records** exactly if no benchmark of the catalogue fails,
whatever the number of rounds. -/
theorem exists_records_iff (hc : c.Steady I reply) (hI : I m) (runner : Runner)
    (tick : T → UInt64 × T) (t : T) :
    (∃ records, (runner.run (Bench.ofClock tick) c (m, t)).1 = .ok records) ↔
      ∀ e ∈ c.entries, ∃ n, reply e = .ok n ∧ n ≠ 0 := by
  have hfails : ∀ k, Stage.Fails ⟨c, m⟩ k ↔ ∃ e, c.entries[k % c.size]? = some e ∧
      ((∃ fault, reply e = .error fault) ∨ reply e = .ok 0) :=
    Stage.fails_iff_of_steady (s := ⟨c, m⟩) hc hI
  have hrecords := Stage.exists_records_iff ⟨c, m⟩ tick t runner
  dsimp only at hrecords
  rw [hrecords]
  constructor
  · intro h e he
    obtain ⟨i, hi, rfl⟩ := List.mem_iff_getElem.1 he
    have hsize : i < c.size := by rwa [← Catalog.length_entries]
    -- there is at least one timed round, and each benchmark has its turn in it
    have hround : i < runner.rounds * c.size := by
      have hleast : 1 ≤ runner.rounds := UInt64.le_iff_toNat_le.1 runner.outerRounds.least
      calc i < 1 * c.size := by rwa [Nat.one_mul]
        _ ≤ runner.rounds * c.size := Nat.mul_le_mul_right _ hleast
    have hturn := h (runner.warmups * c.size + i) (by omega)
    rw [hfails] at hturn
    have hindex : (runner.warmups * c.size + i) % c.size = i := by
      rw [Nat.mul_add_mod_self_right, Nat.mod_eq_of_lt hsize]
    simp only [hindex, List.getElem?_eq_getElem hi] at hturn
    rcases hreply : reply c.entries[i] with fault | n
    · exact absurd ⟨_, rfl, .inl ⟨fault, hreply⟩⟩ hturn
    · exact ⟨n, rfl, fun h0 ↦ hturn ⟨_, rfl, .inr (h0 ▸ hreply)⟩⟩
  · intro h k _ hk
    obtain ⟨e, he, hfault⟩ := (hfails k).1 hk
    obtain ⟨n, hn, hne⟩ := h e (List.mem_of_getElem? he)
    rcases hfault with ⟨fault, hfault⟩ | hzero
    · simp [hn] at hfault
    · exact hne (by simpa [hn] using hzero)

end Catalog.Steady

end Crossing
