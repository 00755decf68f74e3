import Crossing.Proofs.Config.Rules
import Crossing.Proofs.Outcome

/-!
# Which rule is blamed

There is one rule for each field, and the fields have an order: those for running, then those for
strategies, as the document lists them. A check goes through the rules in this order and blames the
first that is violated, whatever is wrong with later fields.

`Rule.Holds` says what a rule asks of a draft, and `Rule.Blames` which error a violation of it is
reported with; neither mentions the check. `FirstBlamed` puts them in order. One step of a check is
`ensure_bind_eq_error_iff_firstBlamed`, and the whole check is `Draft.check_eq_error_iff`.

Main statement: `Draft.check_by_rules`.
-/

namespace Crossing

/-- The rules that a draft must keep, one for each field. -/
inductive Rule
  | outerRounds
  | warmupRounds
  | resultFile
  | jsonSummary
  | primaryInnerRounds
  | boundaryInnerRounds
  | stringBase
  | stringRepeats
  | bufferCapacity
  deriving DecidableEq, Repr

/-- An entry of a list is the first one that is zero or equal to an earlier one. -/
def IsFirstBad (rs : List UInt64) (r : UInt64) : Prop :=
  ∃ before after, rs = before ++ r :: after ∧ (r = 0 ∨ r ∈ before) ∧
    (∀ x ∈ before, x ≠ 0) ∧ before.Nodup

namespace Rule

/-- The rules for running. -/
def running : List Rule := [outerRounds, warmupRounds, resultFile, jsonSummary]

/-- The rules for strategies. -/
def strategies : List Rule :=
  [primaryInnerRounds, boundaryInnerRounds, stringBase, stringRepeats, bufferCapacity]

/-- All rules in order. -/
def all : List Rule := running ++ strategies

theorem mem_all (rule : Rule) : rule ∈ all := by cases rule <;> decide

/-- What a rule asks of a draft. -/
def Holds (d : Draft) : Rule → Prop
  | outerRounds => 1 ≤ d.runner.outerRounds ∧ d.runner.outerRounds ≤ 100000
  | warmupRounds => d.runner.warmupRounds ≤ 10000
  | resultFile => ∃ c ∈ d.runner.resultFile.toList, Text.isBlank c = false
  | jsonSummary => ∀ path ∈ d.runner.jsonSummary, ∃ c ∈ path.toList, Text.isBlank c = false
  | primaryInnerRounds => 1 ≤ d.strategies.primaryInnerRounds
  | boundaryInnerRounds => 1 ≤ d.strategies.boundaryInnerRounds
  | stringBase => d.strategies.stringBase ≠ "" ∧ ∀ c ∈ d.strategies.stringBase.toList, c.toNat < 128
  | stringRepeats => d.strategies.stringRepeats ≠ [] ∧ (∀ r ∈ d.strategies.stringRepeats, 1 ≤ r) ∧
      d.strategies.stringRepeats.Nodup
  | bufferCapacity => 64 ≤ d.strategies.bufferCapacity

/-- An error reports that a draft violates a rule: it names the field and, for a repeat, the first
that is bad. -/
def Blames (d : Draft) (e : ValidationError) : Rule → Prop
  | outerRounds => e = .outOfBounds "outer_rounds" d.runner.outerRounds 1 100000
  | warmupRounds => e = .outOfBounds "warmup_rounds" d.runner.warmupRounds 0 10000
  | resultFile => e = .invalidValue "result_file" d.runner.resultFile .blankResultFile
  | jsonSummary => ∃ path, d.runner.jsonSummary = some path ∧
      e = .invalidValue "json_summary" path .blankSummaryFile
  | primaryInnerRounds => e = .invalidValue "primary_inner_rounds" "0" .noInnerRounds
  | boundaryInnerRounds => e = .invalidValue "boundary_inner_rounds" "0" .noInnerRounds
  | stringBase => e = .invalidValue "string_base" d.strategies.stringBase .baseNotAscii
  | stringRepeats =>
    (d.strategies.stringRepeats = [] ∧ e = .missingField "string_repeats" "strategies section") ∨
      ∃ r, IsFirstBad d.strategies.stringRepeats r ∧
        e = .invalidValue "string_repeats" (toString r) .repeatsNotDistinct
  | bufferCapacity =>
    e = .outOfBounds "buffer_capacity" d.strategies.bufferCapacity 64 18446744073709551615

end Rule

/-! ### The first rule that is violated -/

/-- An error blames the first of some rules that a draft violates. -/
def FirstBlamed (d : Draft) (rules : List Rule) (e : ValidationError) : Prop :=
  ∃ before rule after, rules = before ++ rule :: after ∧ (∀ r ∈ before, r.Holds d) ∧
    ¬rule.Holds d ∧ rule.Blames d e

section

variable {d : Draft} {rule : Rule} {rules : List Rule} {e : ValidationError}

theorem not_firstBlamed_nil : ¬FirstBlamed d [] e := by
  rintro ⟨before, rule, after, h, -⟩
  simp at h

/-- The first rule is blamed if it is violated; otherwise the rest decide. -/
theorem firstBlamed_cons : FirstBlamed d (rule :: rules) e ↔
    (¬rule.Holds d ∧ rule.Blames d e) ∨ (rule.Holds d ∧ FirstBlamed d rules e) := by
  constructor
  · rintro ⟨before, rule', after, h, hbefore, hviolated, hblames⟩
    cases before with
    | nil =>
      obtain ⟨rfl, rfl⟩ := List.cons.inj h
      exact .inl ⟨hviolated, hblames⟩
    | cons first before =>
      obtain ⟨rfl, rfl⟩ := List.cons.inj h
      obtain ⟨hfirst, hbefore⟩ := List.forall_mem_cons.1 hbefore
      exact .inr ⟨hfirst, before, rule', after, rfl, hbefore, hviolated, hblames⟩
  · rintro (⟨hviolated, hblames⟩ | ⟨hholds, before, rule', after, rfl, hbefore, hrest⟩)
    · exact ⟨[], rule, rules, rfl, List.forall_mem_nil _, hviolated, hblames⟩
    · exact ⟨rule :: before, rule', after, rfl, List.forall_mem_cons.2 ⟨hholds, hbefore⟩, hrest⟩

theorem firstBlamed_cons_of_holds (h : rule.Holds d) :
    FirstBlamed d (rule :: rules) e ↔ FirstBlamed d rules e := by
  rw [firstBlamed_cons, and_iff_right h, or_iff_right fun h' ↦ h'.1 h]

/-- A first rule that is violated hides what comes after it. -/
theorem firstBlamed_cons_of_not_holds (h : ¬rule.Holds d) :
    FirstBlamed d (rule :: rules) e ↔ rule.Blames d e := by
  rw [firstBlamed_cons, and_iff_right h, or_iff_left fun h' ↦ h h'.1]

/-- Rules that come later only matter if all the earlier ones hold. -/
theorem firstBlamed_append {rules' : List Rule} : FirstBlamed d (rules ++ rules') e ↔
    FirstBlamed d rules e ∨ (∀ r ∈ rules, r.Holds d) ∧ FirstBlamed d rules' e := by
  induction rules with
  | nil => simp [not_firstBlamed_nil]
  | cons rule rules ih =>
    by_cases hholds : rule.Holds d
    · simp only [List.cons_append, firstBlamed_cons_of_holds hholds, ih, List.forall_mem_cons,
        hholds, true_and]
    · simp only [List.cons_append, firstBlamed_cons_of_not_holds hholds, List.forall_mem_cons,
        hholds, false_and, or_false]

/-- One step of a check: it fails with its error if its rule is violated, and otherwise goes on. -/
theorem ensure_bind_eq_error_iff_firstBlamed {α : Type} {b : Bool} {error : ValidationError}
    {f : Unit → Except ValidationError α} (hb : b = true ↔ rule.Holds d)
    (herror : rule.Blames d e ↔ e = error) (hf : f () = .error e ↔ FirstBlamed d rules e) :
    (ensure b error >>= f) = .error e ↔ FirstBlamed d (rule :: rules) e := by
  cases b with
  | false =>
    rw [firstBlamed_cons_of_not_holds fun h ↦ Bool.false_ne_true (hb.2 h), herror]
    exact error_eq_error_iff
  | true =>
    rw [firstBlamed_cons_of_holds (hb.1 rfl), ← hf]
    rfl

end

/-! ### Checks -/

/-- A path counts if there is a character in it that is not blank. -/
theorem isBlankText_eq_false_iff {s : String} :
    (!Text.isBlankText s) = true ↔ ∃ c ∈ s.toList, Text.isBlank c = false := by
  simp [Text.isBlankText]

/-- The search for a bad repeat finds the first one. What was seen before counts as earlier. -/
theorem firstBadRepeat?_eq_some_iff {seen rs : List UInt64} {r : UInt64} :
    firstBadRepeat? seen rs = some r ↔
      ∃ before after, rs = before ++ r :: after ∧ (r = 0 ∨ r ∈ seen ∨ r ∈ before) ∧
        (∀ x ∈ before, x ≠ 0 ∧ x ∉ seen) ∧ before.Nodup := by
  induction rs generalizing seen with
  | nil => simp [firstBadRepeat?]
  | cons x rs ih =>
    rw [firstBadRepeat?]
    by_cases hbad : x = 0 ∨ x ∈ seen
    · rw [if_pos (by simpa using hbad)]
      constructor
      · rintro ⟨⟩
        exact ⟨[], rs, rfl, hbad.imp_right .inl, List.forall_mem_nil _, .nil⟩
      · rintro ⟨before, after, h, -, hbefore, -⟩
        cases before with
        | nil => exact congrArg some (List.cons.inj h).1
        | cons y before =>
          obtain ⟨rfl, -⟩ := List.cons.inj h
          obtain ⟨hzero, hseen⟩ := hbefore x List.mem_cons_self
          exact absurd hbad (not_or.2 ⟨hzero, hseen⟩)
    · rw [if_neg (by simpa using hbad), ih]
      constructor
      · rintro ⟨before, after, rfl, hr, hbefore, hnodup⟩
        refine ⟨x :: before, after, rfl, ?_, ?_, ?_⟩
        · simpa only [List.mem_cons, or_left_comm, or_assoc] using hr
        · refine List.forall_mem_cons.2 ⟨not_or.1 hbad, fun y hy ↦ ?_⟩
          exact ⟨(hbefore y hy).1, fun h ↦ (hbefore y hy).2 (List.mem_cons_of_mem x h)⟩
        · exact List.nodup_cons.2 ⟨fun h ↦ (hbefore x h).2 List.mem_cons_self, hnodup⟩
      · rintro ⟨before, after, h, hr, hbefore, hnodup⟩
        cases before with
        | nil =>
          obtain ⟨rfl, -⟩ := List.cons.inj h
          exact absurd (by simpa using hr) hbad
        | cons y before =>
          obtain ⟨rfl, rfl⟩ := List.cons.inj h
          obtain ⟨hnew, hnodup⟩ := List.nodup_cons.1 hnodup
          refine ⟨before, after, rfl, ?_, fun y hy ↦ ?_, hnodup⟩
          · simpa only [List.mem_cons, or_left_comm, or_assoc] using hr
          · obtain ⟨hzero, hseen⟩ := hbefore y (List.mem_cons_of_mem _ hy)
            refine ⟨hzero, fun h ↦ ?_⟩
            rcases List.mem_cons.1 h with rfl | h
            · exact hnew hy
            · exact hseen h

/-- What is looked for among the repeats is the first that is zero or comes twice. -/
theorem firstBadRepeat?_nil_eq_some_iff {rs : List UInt64} {r : UInt64} :
    firstBadRepeat? [] rs = some r ↔ IsFirstBad rs r := by
  rw [firstBadRepeat?_eq_some_iff, IsFirstBad]
  simp

theorem one_le_iff_ne_zero {n : UInt64} : 1 ≤ n ↔ n ≠ 0 := by
  rw [← UInt64.toNat_inj.ne, UInt64.le_iff_toNat_le]
  exact Nat.one_le_iff_ne_zero

theorem bne_zero_iff_one_le {n : UInt64} : (n != 0) = true ↔ 1 ≤ n := by
  rw [bne_iff_ne, one_le_iff_ne_zero]

variable {d : Draft} {e : ValidationError}

/-- The repeats are checked one after the other, which is the rule for all of them. -/
theorem Rule.holds_stringRepeats_iff : Rule.stringRepeats.Holds d ↔
    d.strategies.stringRepeats ≠ [] ∧ firstBadRepeat? [] d.strategies.stringRepeats = none := by
  rw [firstBadRepeat?_eq_none_iff]
  simp [Holds, one_le_iff_ne_zero]

/-- **The check of a draft for running** blames the first of its rules that is violated. -/
theorem RunnerDraft.check_eq_error_iff :
    d.runner.check = .error e ↔ FirstBlamed d Rule.running e := by
  rw [check, Rule.running]
  by_cases hrounds : Rule.outerRounds.Holds d
  · rw [firstBlamed_cons_of_holds hrounds, show OuterRounds.ofUInt64 d.runner.outerRounds =
      .ok ⟨_, hrounds.1, hrounds.2⟩ from dif_pos hrounds]
    refine ensure_bind_eq_error_iff_firstBlamed decide_eq_true_iff .rfl ?_
    refine ensure_bind_eq_error_iff_firstBlamed isBlankText_eq_false_iff .rfl ?_
    rcases hsummary : d.runner.jsonSummary with - | path
    · rw [firstBlamed_cons_of_holds (by simp [Rule.Holds, hsummary])]
      exact iff_of_false ok_ne_error not_firstBlamed_nil
    · refine ensure_bind_eq_error_iff_firstBlamed ?_ ?_ ?_
      · rw [isBlankText_eq_false_iff]
        simp [Rule.Holds, hsummary]
      · simp [Rule.Blames, hsummary]
      · exact iff_of_false ok_ne_error not_firstBlamed_nil
  · rw [firstBlamed_cons_of_not_holds hrounds, show OuterRounds.ofUInt64 d.runner.outerRounds =
      .error (.outOfBounds "outer_rounds" _ 1 100000) from dif_neg hrounds]
    exact error_eq_error_iff

/-- **The check of strategies** blames the first of their rules that is violated. -/
theorem StrategyConfig.check_eq_error_iff :
    d.strategies.check = .error e ↔ FirstBlamed d Rule.strategies e := by
  rw [check, Rule.strategies]
  refine ensure_bind_eq_error_iff_firstBlamed bne_zero_iff_one_le .rfl ?_
  refine ensure_bind_eq_error_iff_firstBlamed bne_zero_iff_one_le .rfl ?_
  refine ensure_bind_eq_error_iff_firstBlamed (by simp [Rule.Holds, isAscii]) .rfl ?_
  -- the rule for repeats is checked in two steps, each with an error of its own
  by_cases hempty : d.strategies.stringRepeats = []
  · rw [firstBlamed_cons_of_not_holds (mt Rule.holds_stringRepeats_iff.1 fun h ↦ h.1 hempty),
      hempty]
    refine error_eq_error_iff.trans ?_
    simp [Rule.Blames, hempty, IsFirstBad]
  · rw [show (!d.strategies.stringRepeats.isEmpty) = true by simpa using hempty]
    rcases hbad : firstBadRepeat? [] d.strategies.stringRepeats with - | r
    · rw [firstBlamed_cons_of_holds (Rule.holds_stringRepeats_iff.2 ⟨hempty, hbad⟩)]
      show ensure _ _ = _ ↔ _
      rw [← bind_pure (ensure _ _)]
      exact ensure_bind_eq_error_iff_firstBlamed decide_eq_true_iff .rfl
        (iff_of_false ok_ne_error not_firstBlamed_nil)
    · rw [firstBlamed_cons_of_not_holds (by simp [Rule.holds_stringRepeats_iff, hbad])]
      refine error_eq_error_iff.trans ?_
      simp [Rule.Blames, hempty, ← firstBadRepeat?_nil_eq_some_iff, hbad]

/-- Each rule has an error for a draft that violates it. -/
theorem Rule.exists_blames {rule : Rule} (h : ¬rule.Holds d) : ∃ e, rule.Blames d e := by
  cases rule with
  | jsonSummary =>
    rcases hsummary : d.runner.jsonSummary with - | path
    · exact absurd (by simp [Holds, hsummary]) h
    · exact ⟨_, path, hsummary, rfl⟩
  | stringRepeats =>
    rw [holds_stringRepeats_iff] at h
    by_cases hempty : d.strategies.stringRepeats = []
    · exact ⟨_, .inl ⟨hempty, rfl⟩⟩
    · obtain ⟨r, hr⟩ := Option.ne_none_iff_exists'.1 fun hnone ↦ h ⟨hempty, hnone⟩
      exact ⟨_, .inr ⟨r, firstBadRepeat?_nil_eq_some_iff.1 hr, rfl⟩⟩
  | _ => exact ⟨_, rfl⟩

/-- Where a rule is violated, there is a first one, and an error that blames it. -/
theorem exists_firstBlamed {rules : List Rule} (h : ∃ rule ∈ rules, ¬rule.Holds d) :
    ∃ e, FirstBlamed d rules e := by
  induction rules with
  | nil => simp at h
  | cons rule rules ih =>
    by_cases hholds : rule.Holds d
    · simp only [firstBlamed_cons_of_holds hholds]
      exact ih (by simpa [hholds] using h)
    · simp only [firstBlamed_cons_of_not_holds hholds]
      exact rule.exists_blames hholds

namespace Draft

/-- **The check of a draft** blames the first rule that is violated. -/
theorem check_eq_error_iff : d.check = .error e ↔ FirstBlamed d Rule.all e := by
  rw [check, Rule.all, firstBlamed_append, ← RunnerDraft.check_eq_error_iff,
    ← StrategyConfig.check_eq_error_iff]
  rcases hrunner : d.runner.check with e' | r
  · obtain ⟨before, rule, after, hrules, -, hviolated, -⟩ :=
      RunnerDraft.check_eq_error_iff.1 hrunner
    have hrule : rule ∈ Rule.running := hrules ▸ List.mem_append_right _ List.mem_cons_self
    have hnot : ¬∀ rule ∈ Rule.running, rule.Holds d := fun h ↦ hviolated (h rule hrule)
    rw [or_iff_left fun h ↦ hnot h.1, error_eq_error_iff]
    exact error_eq_error_iff
  · have hholds : ∀ rule ∈ Rule.running, rule.Holds d := by
      by_contra! h
      obtain ⟨e, he⟩ := exists_firstBlamed h
      cases hrunner.symm.trans (RunnerDraft.check_eq_error_iff.2 he)
    rw [and_iff_right hholds, or_iff_right ok_ne_error]
    rcases d.strategies.check with e' | u
    · rw [error_eq_error_iff]
      exact error_eq_error_iff
    · exact iff_of_false ok_ne_error ok_ne_error

/-- **Drafts are checked rule by rule.** The check succeeds exactly if all rules hold, and then the
configuration says what the draft says. Otherwise the error is that of the first rule, in the order
of the fields, that is violated. -/
theorem check_by_rules (d : Draft) :
    ((∃ c, d.check = .ok c) ↔ ∀ rule : Rule, rule.Holds d) ∧
    (∀ c, d.check = .ok c → c.draft = d) ∧
    ∀ e, d.check = .error e ↔ ∃ before rule after, Rule.all = before ++ rule :: after ∧
      (∀ earlier ∈ before, earlier.Holds d) ∧ ¬rule.Holds d ∧ rule.Blames d e := by
  refine ⟨⟨fun ⟨c, hc⟩ rule ↦ ?_, fun h ↦ ?_⟩, fun c hc ↦ (check_eq_ok_iff.1 hc).1,
    fun e ↦ check_eq_error_iff⟩
  · by_contra hviolated
    obtain ⟨e, he⟩ := exists_firstBlamed ⟨rule, rule.mem_all, hviolated⟩
    cases hc.symm.trans (check_eq_error_iff.2 he)
  · rcases hcheck : d.check with e | c
    · obtain ⟨-, rule, -, -, -, hviolated, -⟩ := check_eq_error_iff.1 hcheck
      exact absurd (h rule) hviolated
    · exact ⟨c, rfl⟩

-- of the two bad repeats the first is cited, and the capacity is not looked at
example : Draft.check { strategies := { stringRepeats := [3, 5, 3, 0], bufferCapacity := 1 } } =
    .error (.invalidValue "string_repeats" "3" .repeatsNotDistinct) := by rfl

end Draft

end Crossing
