import Crossing.Boundary.CallbackTest
import Crossing.Proofs.Boundary.Transcoding
import Mathlib.Algebra.BigOperators.Intervals
import Mathlib.Tactic.IntervalCases

/-!
# Callbacks that are called over and over

A callback test calls a callback again and again, each time in the state that the call before has
left, and adds up what the calls contribute. A callback may do anything with its state, so the state
that is left in the end tells how many calls there were and in which order. Main statement:
`repeated_calls_add_up`.

The loop is unrolled from its front, so the induction is over the number of calls that are left, for
any state to start from. The callback that the loop was given and the value that it adds for each
reply are parameters: integers always contribute, and texts only if they are UTF-8.
-/

namespace Crossing.Boundary

open Call Text

variable {σ α : Type}

/-! ### One call after the other -/

/-- The state after `k` calls. -/
def afterCalls (callback : StateM σ α) (s : σ) (k : Nat) : σ := (fun s ↦ (callback s).2)^[k] s

/-- What the call returns that comes after `k` others. -/
def answerAfter (callback : StateM σ α) (s : σ) (k : Nat) : α :=
  (callback (afterCalls callback s k)).1

section

variable (callback : StateM σ α) (s : σ) (k : Nat)

theorem afterCalls_succ : afterCalls callback s (k + 1) = afterCalls callback (callback s).2 k :=
  Function.iterate_succ_apply _ k s

theorem answerAfter_succ :
    answerAfter callback s (k + 1) = answerAfter callback (callback s).2 k := by
  rw [answerAfter, afterCalls_succ, answerAfter]

end

/-! ### Adding up -/

section

variable {callback : StateM σ α} {step : Call σ Int64} {value : α → Except Cause Int64}
  {c : Nat → ℤ}

/-- Where all calls contribute, all are made, and the sum is taken modulo `2 ^ 64`. -/
theorem addUp_of_forall (hstep : ∀ s, step.run s = (value (callback s).1, (callback s).2)) (n : Nat)
    {s : σ} (hvalue : ∀ k < n, value (answerAfter callback s k) = .ok (.ofInt (c k)))
    (sum : Int64) : (addUp step n sum).run s =
      (.ok (sum + .ofInt (∑ k ∈ Finset.range n, c k)), afterCalls callback s n) := by
  induction n generalizing s sum c with
  | zero =>
    show (Except.ok sum, s) = (Except.ok (sum + 0), s)
    rw [Int64.add_zero]
  | succ n ih =>
    have hfirst : step.run s = (.ok (.ofInt (c 0)), (callback s).2) := by
      rw [hstep, ← hvalue 0 n.succ_pos]
      rfl
    have hrest : ∀ k < n,
        value (answerAfter callback (callback s).2 k) = .ok (.ofInt (c (k + 1))) :=
      fun k hk ↦ answerAfter_succ callback s k ▸ hvalue (k + 1) (Nat.succ_lt_succ hk)
    rw [addUp, run_bind, hfirst]
    dsimp only
    rw [ih hrest, afterCalls_succ, Finset.sum_range_succ', Int64.ofInt_add, Int64.add_assoc,
      Int64.add_comm (.ofInt (c 0))]

/-- The first call that does not contribute is the last one. -/
theorem addUp_of_first (hstep : ∀ s, step.run s = (value (callback s).1, (callback s).2))
    {n k : Nat} (hk : k < n) {s : σ}
    (hvalue : ∀ j < k, ∃ v, value (answerAfter callback s j) = .ok v)
    {cause : Cause} (hlast : value (answerAfter callback s k) = .error cause) (sum : Int64) :
    (addUp step n sum).run s = (.error cause, afterCalls callback s (k + 1)) := by
  induction k generalizing n s sum with
  | zero =>
    obtain ⟨n, rfl⟩ := Nat.exists_eq_succ_of_ne_zero (Nat.ne_of_gt hk)
    have hfirst : step.run s = (.error cause, (callback s).2) := by
      rw [hstep, ← hlast]
      rfl
    rw [addUp, run_bind, hfirst]
    rfl
  | succ k ih =>
    obtain ⟨n, rfl⟩ := Nat.exists_eq_succ_of_ne_zero (Nat.ne_zero_of_lt hk)
    obtain ⟨v, hv⟩ := hvalue 0 k.succ_pos
    have hfirst : step.run s = (.ok v, (callback s).2) := by
      rw [hstep, ← hv]
      rfl
    rw [addUp, run_bind, hfirst, afterCalls_succ]
    dsimp only
    refine ih (Nat.lt_of_succ_lt_succ hk) (fun j hj ↦ ?_) ?_ (sum + v)
    · rw [← answerAfter_succ]
      exact hvalue (j + 1) (Nat.succ_lt_succ hj)
    · rw [← answerAfter_succ]
      exact hlast

end

/-! ### What a caller sees -/

/-- What a caller sees of a loop: its status, the place for the sum, which only a loop that succeeds
writes to, and the state that is left. -/
def seen (loop : Call σ Int64) (place : Int64) (s : σ) : Status × Int64 × σ :=
  (status (loop.run s).1, (loop.run s).1.toOption.getD place, (loop.run s).2)

/-- Without an object or a place for the sum, no call is made. -/
theorem seen_of_null {object out : Bool} (h : (object && out) = false) (rounds : Int64)
    (step : Call σ Int64) (place : Int64) (s : σ) :
    seen (repeatedly object out rounds step) place s = (.failure .nullPointer, place, s) := by
  rw [seen, repeatedly, h]
  rfl

theorem run_repeatedly (rounds : Int64) (step : Call σ Int64) (s : σ) :
    (repeatedly true true rounds step).run s = (addUp step (roundCount rounds) 0).run s :=
  rfl

/-- A negative number of rounds counts as zero. -/
theorem roundCount_eq (rounds : Int64) : roundCount rounds = (max rounds.toInt 0).toNat := by
  rw [roundCount]
  omega

/-! ### Integers that come back -/

/-- What an integer contributes: itself, with its sign. -/
def intValue (a : Int32) : Except Cause Int64 := .ok a.toInt64

theorem intValue_eq (a : Int32) : intValue a = .ok (.ofInt a.toInt) := by
  rw [intValue, Int64.ofInt_int32ToInt]

/-- One round of a loop over integers. -/
theorem run_intRound (callback : StateM σ Int32) (s : σ) :
    (do return (← always callback).toInt64 : Call σ Int64).run s =
      (intValue (callback s).1, (callback s).2) :=
  rfl

/-- A loop over integers makes all its calls. -/
theorem seen_repeatedly_int (callback : StateM σ Int32) (rounds place : Int64) (s : σ) :
    seen (repeatedly true true rounds do return (← always callback).toInt64) place s =
      (.success,
        .ofInt (∑ k ∈ Finset.range (roundCount rounds), (answerAfter callback s k).toInt),
        afterCalls callback s (roundCount rounds)) := by
  have hrun := addUp_of_forall (run_intRound callback) (roundCount rounds) (s := s)
    (fun k _ ↦ intValue_eq (answerAfter callback s k)) 0
  rw [seen, run_repeatedly, hrun, Int64.zero_add]
  rfl

/-! ### Texts that come back -/

/-- A view is UTF-8; a null view is empty. -/
def IsText (view : Option (List UInt8)) : Prop :=
  ∃ cs : List Char, view.getD [] = cs.flatMap String.utf8EncodeChar

/-- What a view contributes: its size, if it is UTF-8. -/
def viewValue (view : Option (List UInt8)) : Except Cause Int64 :=
  if (Utf8.decode? (view.getD [])).isSome then .ok (.ofNat (view.getD []).length)
  else .error .invalidEncoding

/-- A missing view counts as the empty text. -/
theorem isSome_decode?_view_iff {view : Option (List UInt8)} :
    (Utf8.decode? (view.getD [])).isSome = true ↔ IsText view := by
  simp only [Option.isSome_iff_exists, Utf8.decode?_eq_some_iff, IsText, Utf8.encode_eq_flatMap]

/-- A text contributes its size in octets. -/
theorem viewValue_of_isText {view : Option (List UInt8)} (h : IsText view) :
    viewValue view = .ok (.ofInt (view.getD []).length) := by
  rw [viewValue, if_pos (isSome_decode?_view_iff.2 h), Int64.ofInt_eq_ofNat]

/-- What is not UTF-8 contributes nothing, and ends the loop. -/
theorem viewValue_of_not_isText {view : Option (List UInt8)} (h : ¬IsText view) :
    viewValue view = .error .invalidEncoding :=
  if_neg (isSome_decode?_view_iff.not.2 h)

section

variable {views : StateM σ (Option (List UInt8))} {rounds : Int64} {s : σ}

/-- One round of the loop over texts. -/
theorem run_textRound (views : StateM σ (Option (List UInt8))) (s : σ) :
    (do
      let bytes := (← always views).getD []
      let _ ← demandText (Utf8.decode? bytes)
      return Int64.ofNat bytes.length : Call σ Int64).run s =
        (viewValue (views s).1, (views s).2) := by
  rw [run_bind, run_always]
  dsimp only
  rw [viewValue, run_bind]
  cases Utf8.decode? ((views s).1.getD []) <;> rfl

/-- Where all views are texts, all calls are made, and the sizes are added up. -/
theorem seen_repeatTextReturn_of_forall
    (h : ∀ k < roundCount rounds, IsText (answerAfter views s k)) (place : Int64) :
    seen (repeatTextReturn true true rounds views) place s =
      (.success,
        .ofInt (∑ k ∈ Finset.range (roundCount rounds),
          (((answerAfter views s k).getD []).length : ℤ)),
        afterCalls views s (roundCount rounds)) := by
  have hrun := addUp_of_forall (run_textRound views) (roundCount rounds) (s := s)
    (fun k hk ↦ viewValue_of_isText (h k hk)) 0
  rw [seen, repeatTextReturn, run_repeatedly, hrun, Int64.zero_add]
  rfl

/-- The first view that is no text is the last one, and the sum is not written. -/
theorem seen_repeatTextReturn_of_first {k : Nat} (hk : k < roundCount rounds)
    (hbefore : ∀ j < k, IsText (answerAfter views s j)) (hlast : ¬IsText (answerAfter views s k))
    (place : Int64) :
    seen (repeatTextReturn true true rounds views) place s =
      (.failure .invalidEncoding, place, afterCalls views s (k + 1)) := by
  have hrun := addUp_of_first (run_textRound views) hk
    (fun j hj ↦ ⟨_, viewValue_of_isText (hbefore j hj)⟩) (viewValue_of_not_isText hlast) 0
  rw [seen, repeatTextReturn, run_repeatedly, hrun]
  rfl

/-- The loop over texts succeeds exactly if all views are texts: if one is not, there is a first
one, and it ends the loop. -/
theorem seen_repeatTextReturn_success_iff (place : Int64) :
    (seen (repeatTextReturn true true rounds views) place s).1 = .success ↔
      ∀ k < roundCount rounds, IsText (answerAfter views s k) := by
  refine ⟨fun hsuccess ↦ ?_, fun h ↦ by rw [seen_repeatTextReturn_of_forall h]⟩
  by_contra hnot
  -- the first view that is no text ends the loop, which does not succeed then
  have hex : ∃ k, k < roundCount rounds ∧ ¬IsText (answerAfter views s k) := by
    simpa only [not_forall, exists_prop] using hnot
  classical
  obtain ⟨hk, hlast⟩ := Nat.find_spec hex
  have hbefore : ∀ j < Nat.find hex, IsText (answerAfter views s j) := fun j hj ↦ by
    by_contra hj'
    exact Nat.find_min hex hj ⟨hj.trans hk, hj'⟩
  rw [seen_repeatTextReturn_of_first hk hbefore hlast] at hsuccess
  cases hsuccess

end

/-- **Repeated calls add up.** For any number of rounds, and callbacks that do what they like with
their state, with `n` the number of rounds or zero if that is negative:

* the loops over integers and over a text make `n` calls, one after the other, and write the sum of
  what is returned, modulo `2 ^ 64` and with its sign;
* the loop over texts that come back succeeds exactly if the views of `n` calls are all UTF-8. Then
  it has made these calls and writes the sum of the sizes;
* otherwise it stops right after the first call whose view is not UTF-8, and writes nothing;
* without an object or without a place for the sum, no call is made and nothing is written. -/
theorem repeated_calls_add_up (onInts : Int32 → Int32 → StateM σ Int32)
    (onText : String → StateM σ Int32) (views : StateM σ (Option (List UInt8)))
    (rounds place : Int64) (s : σ) :
    let n := (max rounds.toInt 0).toNat
    seen (repeatInt true true rounds onInts) place s =
      (.success, .ofInt (∑ k ∈ Finset.range n, (answerAfter (onInts 1 2) s k).toInt),
        afterCalls (onInts 1 2) s n) ∧
    seen (repeatTextParameter true true rounds onText) place s =
      (.success, .ofInt (∑ k ∈ Finset.range n, (answerAfter (onText "abc") s k).toInt),
        afterCalls (onText "abc") s n) ∧
    ((seen (repeatTextReturn true true rounds views) place s).1 = .success ↔
      ∀ k < n, IsText (answerAfter views s k)) ∧
    ((∀ k < n, IsText (answerAfter views s k)) →
      seen (repeatTextReturn true true rounds views) place s =
        (.success,
          .ofInt (∑ k ∈ Finset.range n, (((answerAfter views s k).getD []).length : ℤ)),
          afterCalls views s n)) ∧
    (∀ k < n, (∀ j < k, IsText (answerAfter views s j)) → ¬IsText (answerAfter views s k) →
      seen (repeatTextReturn true true rounds views) place s =
        (.failure .invalidEncoding, place, afterCalls views s (k + 1))) ∧
    ∀ object out : Bool, (object && out) = false →
      seen (repeatInt object out rounds onInts) place s = (.failure .nullPointer, place, s) ∧
      seen (repeatTextParameter object out rounds onText) place s =
        (.failure .nullPointer, place, s) ∧
      seen (repeatTextReturn object out rounds views) place s =
        (.failure .nullPointer, place, s) := by
  intro n
  have hn : n = roundCount rounds := (roundCount_eq rounds).symm
  clear_value n
  subst hn
  refine ⟨seen_repeatedly_int _ rounds place s, seen_repeatedly_int _ rounds place s,
    seen_repeatTextReturn_success_iff place, fun h ↦ seen_repeatTextReturn_of_forall h place,
    fun k hk hbefore hlast ↦ seen_repeatTextReturn_of_first hk hbefore hlast place,
    fun object out h ↦ ?_⟩
  exact ⟨seen_of_null h rounds _ place s, seen_of_null h rounds _ place s,
    seen_of_null h rounds _ place s⟩

/-- Of five calls the third returns no text, after a text of two octets and a null view. It is the
last one, and what stood in the place for the sum still does. -/
theorem repeated_calls_add_up_stopped :
    let views : StateM (List (Option (List UInt8))) (Option (List UInt8)) :=
      fun pending ↦ (pending.head?.join, pending.tail)
    seen (repeatTextReturn true true 5 views) 7
        [some [0xC3, 0xA9], none, some [0xC3, 0x28], some [0x61]] =
      (.failure .invalidEncoding, 7, [some [0x61]]) := by
  intro views
  have hstops := (repeated_calls_add_up (fun _ _ ↦ pure 0) (fun _ ↦ pure 0) views 5 7
    [some [0xC3, 0xA9], none, some [0xC3, 0x28], some [0x61]]).2.2.2.2.1
  refine hstops 2 (by decide) (fun j hj ↦ ?_) ?_
  · interval_cases j <;> exact isSome_decode?_view_iff.1 (by decide)
  · exact isSome_decode?_view_iff.not.1 (by decide)

end Crossing.Boundary
