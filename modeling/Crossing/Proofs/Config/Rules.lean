import Crossing.Config.Document
import Crossing.Proofs.Outcome
import Mathlib.Data.List.Nodup

/-!
# What the rules ask for

Checks stop at the first rule that is violated, so a check succeeds exactly if all its rules hold.
Here this is said for the rules for strategies (`StrategyConfig.check_eq_ok_iff`), for those for
running (`RunnerDraft.check_eq_ok_iff`) and for both (`Draft.check_eq_ok_iff`), field by field and
without an order among them. A configuration that passes says what its draft said.

The checks are sequences of `ensure`, and each of them is taken apart by one lemma
(`ensure_bind_eq_ok_iff`). Which rule is reported if several are violated is another matter, and not
decided here.
-/

namespace Crossing

/-- A check that is made first has to hold, and what comes after it has to succeed. -/
theorem ensure_bind_eq_ok_iff {α : Type} {b : Bool} {e : ValidationError}
    {f : Unit → Except ValidationError α} {a : α} :
    (ensure b e >>= f) = .ok a ↔ b = true ∧ f () = .ok a := by
  cases b with
  | false => exact iff_of_false nofun fun h ↦ Bool.false_ne_true h.1
  | true => exact (and_iff_right rfl).symm

theorem ensure_eq_ok_iff {b : Bool} {e : ValidationError} : ensure b e = .ok () ↔ b = true := by
  cases b with
  | false => exact iff_of_false nofun nofun
  | true => exact iff_of_true rfl rfl

/-- No repeat is bad exactly if none is zero or like another one. -/
theorem firstBadRepeat?_eq_none_iff {seen rs : List UInt64} :
    firstBadRepeat? seen rs = none ↔
      (∀ r ∈ rs, r ≠ 0) ∧ rs.Nodup ∧ ∀ r ∈ seen, r ∉ rs := by
  induction rs generalizing seen with
  | nil => simp [firstBadRepeat?]
  | cons r rs ih =>
    rw [firstBadRepeat?]
    by_cases hbad : r = 0 ∨ r ∈ seen
    · rw [if_pos (by simpa using hbad)]
      refine iff_of_false nofun ?_
      rintro ⟨hzero, -, hseen⟩
      rcases hbad with h | h
      · exact hzero r List.mem_cons_self h
      · exact hseen r h List.mem_cons_self
    · rw [if_neg (by simpa using hbad), ih]
      obtain ⟨hzero, hseen⟩ := not_or.1 hbad
      rw [List.forall_mem_cons, List.forall_mem_cons, List.nodup_cons]
      constructor
      · rintro ⟨hzeros, hnodup, hnew, hseen'⟩
        refine ⟨⟨hzero, hzeros⟩, ⟨hnew, hnodup⟩, fun s hs h ↦ ?_⟩
        rcases List.mem_cons.1 h with rfl | h
        · exact hseen hs
        · exact hseen' s hs h
      · rintro ⟨⟨-, hzeros⟩, ⟨hnew, hnodup⟩, hseen'⟩
        exact ⟨hzeros, hnodup, hnew, fun s hs h ↦ hseen' s hs (List.mem_cons_of_mem _ h)⟩

namespace StrategyConfig

/-- What the rules for strategies ask for. -/
structure Sound (s : StrategyConfig) : Prop where
  primaryInnerRounds : s.primaryInnerRounds ≠ 0
  boundaryInnerRounds : s.boundaryInnerRounds ≠ 0
  base_nonempty : s.stringBase.isEmpty = false
  base_ascii : isAscii s.stringBase = true
  repeats_nonempty : s.stringRepeats ≠ []
  repeats_positive : ∀ r ∈ s.stringRepeats, r ≠ 0
  repeats_distinct : s.stringRepeats.Nodup
  bufferCapacity : 64 ≤ s.bufferCapacity

/-- **The check of strategies** succeeds exactly if they are as the rules ask. -/
theorem check_eq_ok_iff {s : StrategyConfig} : s.check = .ok () ↔ s.Sound := by
  rw [check]
  simp only [ensure_bind_eq_ok_iff]
  have hrepeats : firstBadRepeat? [] s.stringRepeats = none ↔
      (∀ r ∈ s.stringRepeats, r ≠ 0) ∧ s.stringRepeats.Nodup := by
    rw [firstBadRepeat?_eq_none_iff]
    simp
  rcases hbad : firstBadRepeat? [] s.stringRepeats with - | r
  · obtain ⟨hpositive, hdistinct⟩ := hrepeats.1 hbad
    simp only [ensure_eq_ok_iff, Bool.and_eq_true, bne_iff_ne, Bool.not_eq_true',
      List.isEmpty_eq_false_iff, decide_eq_true_eq]
    constructor
    · rintro ⟨hprimary, hboundary, ⟨hbase, hascii⟩, hnonempty, hcapacity⟩
      exact ⟨hprimary, hboundary, hbase, hascii, hnonempty, hpositive, hdistinct, hcapacity⟩
    · intro h
      exact ⟨h.primaryInnerRounds, h.boundaryInnerRounds, ⟨h.base_nonempty, h.base_ascii⟩,
        h.repeats_nonempty, h.bufferCapacity⟩
  · refine iff_of_false (fun h ↦ ?_) fun h ↦ ?_
    · cases (show Except.error _ = .ok () from h.2.2.2.2)
    · rw [hrepeats.2 ⟨h.repeats_positive, h.repeats_distinct⟩] at hbad
      cases hbad

/-- Scaling never leaves nothing to do. -/
theorem scaleRounds_ne_zero (divisor rounds : UInt64) : scaleRounds divisor rounds ≠ 0 := by
  rw [scaleRounds, ← UInt64.toNat_inj.ne, UInt64.max_def]
  split
  · decide
  · rename_i hle
    rw [UInt64.le_iff_toNat_le] at hle
    exact fun hzero ↦ hle (hzero ▸ Nat.zero_le _)

/-- Shorter loops are as the rules ask, too. -/
theorem Sound.scaledDown {s : StrategyConfig} (hs : s.Sound) (divisor : UInt64) :
    (s.scaledDown divisor).Sound where
  primaryInnerRounds := scaleRounds_ne_zero _ _
  boundaryInnerRounds := scaleRounds_ne_zero _ _
  base_nonempty := hs.base_nonempty
  base_ascii := hs.base_ascii
  repeats_nonempty := hs.repeats_nonempty
  repeats_positive := hs.repeats_positive
  repeats_distinct := hs.repeats_distinct
  bufferCapacity := hs.bufferCapacity

end StrategyConfig

/-- Rounds that are accepted are the rounds that were asked for. -/
theorem OuterRounds.ofUInt64_eq_ok_iff {n : UInt64} {r : OuterRounds} :
    ofUInt64 n = .ok r ↔ r.count = n := by
  rw [ofUInt64]
  split_ifs with h
  · constructor
    · rintro ⟨⟩
      rfl
    · rintro rfl
      rfl
  · refine iff_of_false nofun ?_
    rintro rfl
    exact h ⟨r.least, r.most⟩

/-- What the rules for running ask for besides the range of the rounds, which their type has. -/
structure RunnerConfig.Sound (r : RunnerConfig) : Prop where
  warmupRounds : r.warmupRounds ≤ 10000
  resultFile : Text.isBlankText r.resultFile = false
  jsonSummary : ∀ path ∈ r.jsonSummary, Text.isBlankText path = false

/-- What a document says that asks for a configuration with each of its fields. -/
def RunnerConfig.draft (r : RunnerConfig) : RunnerDraft :=
  ⟨r.outerRounds.count, r.warmupRounds, r.resultFile, r.jsonSummary⟩

/-- **The check of a draft for running** succeeds exactly if a configuration says the same and is as
the rules ask. -/
theorem RunnerDraft.check_eq_ok_iff {d : RunnerDraft} {r : RunnerConfig} :
    d.check = .ok r ↔ r.draft = d ∧ r.Sound := by
  rw [check, bind_eq_ok_iff]
  simp only [ensure_bind_eq_ok_iff, OuterRounds.ofUInt64_eq_ok_iff, decide_eq_true_eq,
    Bool.not_eq_true']
  constructor
  · obtain ⟨rounds, warmup, file, summary⟩ := d
    rintro ⟨outerRounds, rfl, hwarmup, hfile, hrest⟩
    cases summary with
    | none =>
      obtain rfl := Except.ok.inj hrest
      exact ⟨rfl, hwarmup, hfile, nofun⟩
    | some path =>
      obtain ⟨hpath, hrest⟩ := ensure_bind_eq_ok_iff.1 hrest
      obtain rfl := Except.ok.inj hrest
      exact ⟨rfl, hwarmup, hfile, by simpa using hpath⟩
  · rintro ⟨rfl, h⟩
    refine ⟨r.outerRounds, rfl, h.warmupRounds, h.resultFile, ?_⟩
    obtain ⟨outerRounds, warmup, file, summary⟩ := r
    cases summary with
    | none => rfl
    | some path => exact ensure_bind_eq_ok_iff.2 ⟨by simpa using h.jsonSummary path rfl, rfl⟩

/-- What the rules ask for. -/
structure Config.Sound (c : Config) : Prop where
  runner : c.runner.Sound
  strategies : c.strategies.Sound

/-- What a document says that asks for a configuration with each of its fields. -/
def Config.draft (c : Config) : Draft := ⟨c.runner.draft, c.strategies⟩

/-- **The check of a draft** succeeds exactly if a configuration says the same and is as the rules
ask. -/
theorem Draft.check_eq_ok_iff {d : Draft} {c : Config} :
    d.check = .ok c ↔ c.draft = d ∧ c.Sound := by
  rw [check, bind_eq_ok_iff]
  simp only [bind_eq_ok_iff, RunnerDraft.check_eq_ok_iff]
  constructor
  · rintro ⟨runner, ⟨hrunner, hsound⟩, u, hstrategies, ⟨⟩⟩
    exact ⟨by rw [Config.draft, hrunner], hsound, StrategyConfig.check_eq_ok_iff.1 hstrategies⟩
  · rintro ⟨rfl, h⟩
    exact ⟨c.runner, ⟨rfl, h.runner⟩, (), StrategyConfig.check_eq_ok_iff.2 h.strategies, rfl⟩

namespace Config

/-- What was read from a text has passed its checks. -/
theorem Sound.of_ofText {text : String} {config : Config} (h : ofText text = .ok config) :
    config.Sound := by
  rw [ofText] at h
  split at h
  case h_1 => cases h
  case h_2 draft _ =>
    split at h
    case h_1 => cases h
    case h_2 c hc =>
      obtain rfl := Except.ok.inj h
      exact (Draft.check_eq_ok_iff.1 hc).2

/-- The strategies of a configuration that was read are as the rules ask. -/
theorem sound_of_ofText {text : String} {config : Config} (h : ofText text = .ok config) :
    config.strategies.Sound :=
  (Sound.of_ofText h).strategies

end Config

end Crossing
