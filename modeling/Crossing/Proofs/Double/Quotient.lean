import Crossing.Proofs.Double.Rounding
import Crossing.Sample

/-!
# Quotients of words

A sample is a quotient of two words. If the count is zero it is infinite, unless the time is zero
too; otherwise it is zero or a normal double between `2 ^ -64` and `2 ^ 64`. Among such doubles the
greatest sample is infinite as soon as one of them is.

That there is neither underflow nor overflow is what the bounds are for: a word is at least one if
it is not zero, and less than `2 ^ 64`, and rounding does not leave these bounds. Main statement:
`isQuotient_quotient`, which says what a sample can be, and when it is infinite.
-/

namespace Crossing.Double

open Float.Model
open Series (quotient lesser greater reduce)

/-- The double above all numbers. -/
def infinity : Float := 1 / 0

/-- The doubles that are quotients of words: zero, or normal and neither small nor large, or
infinite. -/
inductive IsQuotient (x : Float) : Prop
  | zero (h : x = 0)
  | normal (h : IsNormal x) (hlow : -118 ≤ exponent x) (hhigh : exponent x ≤ 13)
  | infinite (h : x = infinity)

/-! ### Division -/

theorem toFloat_zero : (0 : UInt64).toFloat = 0 := rfl

/-- A positive double divided by zero is infinite. -/
theorem div_zero_of_isNormal {x : Float} (h : IsNormal x) : x / 0 = infinity := by
  obtain ⟨hm, hunpack⟩ := unpack_eq h
  show Float.ofModel (.pack (.div .binary64 x.toModel.unpack (.zero .positive))) = _
  rw [hunpack]
  rfl

/-- Zero divided by a positive double is zero. -/
theorem zero_div_of_isNormal {x : Float} (h : IsNormal x) : 0 / x = 0 := by
  obtain ⟨hm, hunpack⟩ := unpack_eq h
  show Float.ofModel (.pack (.div .binary64 (.zero .positive) x.toModel.unpack)) = _
  rw [hunpack]
  rfl

section

variable {n : UInt64}

theorem isNormal_toFloat (hn : 0 < n.toNat) : IsNormal n.toFloat := (isRounded_toFloat hn).isNormal

/-- The double of a positive word is between one and the size of words. -/
theorem value_toFloat_mem (hn : 0 < n.toNat) : 1 ≤ value n.toFloat ∧ value n.toFloat ≤ 2 ^ 64 := by
  have hlog : n.toNat.log2 < 64 := (Nat.log2_lt hn.ne').2 n.toNat_lt
  obtain ⟨hle, hle'⟩ := (isRounded_toFloat hn).value_mem (Nat.cast_pos.2 hn)
  rw [binade_natCast hn, ← zpow_natCast, ← zpow_add₀ two_ne_zero] at hle hle'
  refine ⟨le_trans ?_ hle, hle'.trans ?_⟩
  · exact one_le_zpow₀ one_le_two (by push_cast; omega)
  · rw [← zpow_natCast]
    exact zpow_le_zpow_right₀ one_le_two (by push_cast; omega)

end

/-- Whatever is rounded within the range of quotients is one. -/
theorem isQuotient_of_isRounded {v : ℚ} {x : Float} (hlow : 1 / 2 ^ 64 ≤ v) (hhigh : v ≤ 2 ^ 64)
    (h : IsRounded v x) : IsQuotient x := by
  have hv : 0 < v := lt_of_lt_of_le (by norm_num) hlow
  have hbinade : -116 ≤ binade v := le_binade (le_trans (by norm_num) hlow)
  have hbinade' : binade v ≤ 12 := binade_le hv (hhigh.trans_lt (by norm_num))
  obtain ⟨hle, hle'⟩ := h.value_mem hv
  refine .normal h.isNormal ?_ ?_
  · have := le_binade hle
    rw [binade_value] at this
    omega
  · have := binade_le (q := binade v + 1) (value_pos x) (hle'.trans_lt (by
      rw [two_zpow_succ]
      linarith [two_zpow_pos (binade v)]))
    rw [binade_value] at this
    omega

/-- A quotient of positive words is normal, and far from the ends of the range. -/
theorem isQuotient_toFloat_div {m n : UInt64} (hm : 0 < m.toNat) (hn : 0 < n.toNat) :
    IsNormal (m.toFloat / n.toFloat) ∧ IsQuotient (m.toFloat / n.toFloat) := by
  obtain ⟨hle, hle'⟩ := value_toFloat_mem hm
  obtain ⟨hge, hge'⟩ := value_toFloat_mem hn
  have hpos := value_pos n.toFloat
  have hlow : 1 / 2 ^ 64 ≤ value m.toFloat / value n.toFloat :=
    div_le_div₀ (value_pos _).le hle hpos hge'
  have hhigh : value m.toFloat / value n.toFloat ≤ 2 ^ 64 :=
    (div_le_self (value_pos _).le hge).trans hle'
  have hrounded := isRounded_div (isNormal_toFloat hm) (isNormal_toFloat hn)
    (inRange_of_le (le_trans (by norm_num) hlow) (hhigh.trans (by norm_num)))
  exact ⟨hrounded.isNormal, isQuotient_of_isRounded hlow hhigh hrounded⟩

theorem ne_infinity_of_isFinite {x : Float} (h : x.isFinite = true) : x ≠ infinity := by
  rintro rfl
  exact absurd h (by decide)

/-- Of quotients, only infinity is not finite. -/
theorem IsQuotient.isFinite_iff {x : Float} (h : IsQuotient x) :
    x.isFinite = true ↔ x ≠ infinity := by
  refine ⟨ne_infinity_of_isFinite, fun hne ↦ ?_⟩
  cases h with
  | zero h =>
    subst h
    decide
  | normal h => exact isFinite_of_isNormal h
  | infinite h => exact absurd h hne

theorem toNat_pos_of_ne_zero {n : UInt64} (h : n ≠ 0) : 0 < n.toNat :=
  Nat.pos_of_ne_zero fun hzero ↦ h (UInt64.toNat_inj.1 hzero)

/-- **What a sample can be**: it is infinite if the count is zero, and finite otherwise. -/
theorem isQuotient_quotient {elapsed iterations : UInt64} (h : (elapsed, iterations) ≠ (0, 0)) :
    IsQuotient (quotient elapsed iterations) ∧
      (quotient elapsed iterations = infinity ↔ iterations = 0) := by
  rw [quotient]
  by_cases hcount : iterations = 0
  · subst hcount
    have helapsed : elapsed ≠ 0 := fun hzero ↦ h (by rw [hzero])
    have hdiv := div_zero_of_isNormal (isNormal_toFloat (toNat_pos_of_ne_zero helapsed))
    rw [toFloat_zero, hdiv]
    exact ⟨.infinite rfl, iff_of_true rfl rfl⟩
  · have hcount' := toNat_pos_of_ne_zero hcount
    by_cases helapsed : elapsed = 0
    · subst helapsed
      rw [toFloat_zero, zero_div_of_isNormal (isNormal_toFloat hcount')]
      exact ⟨.zero rfl, iff_of_false (ne_infinity_of_isFinite (by decide)) hcount⟩
    · obtain ⟨hnormal, hquotient⟩ :=
        isQuotient_toFloat_div (toNat_pos_of_ne_zero helapsed) hcount'
      exact ⟨hquotient,
        iff_of_false (ne_infinity_of_isFinite (isFinite_of_isNormal hnormal)) hcount⟩

/-! ### The least and the greatest -/

/-- The lesser of two doubles is one of them. -/
theorem lesser_eq (a b : Float) : lesser a b = a ∨ lesser a b = b := by
  rw [lesser]
  split_ifs <;> simp

theorem greater_eq (a b : Float) : greater a b = a ∨ greater a b = b := by
  rw [greater]
  split_ifs <;> simp

/-- What a list is reduced to is in it, unless there is nothing in it. -/
theorem reduce_eq_or_mem {f : Float → Float → Float} (hf : ∀ a b, f a b = a ∨ f a b = b)
    (xs : List Float) : reduce f xs = 0 ∨ reduce f xs ∈ xs := by
  cases xs with
  | nil => exact .inl rfl
  | cons x xs =>
    refine .inr ?_
    rw [reduce]
    induction xs generalizing x with
    | nil => exact List.mem_singleton_self x
    | cons y ys ih =>
      have hsubset : f x y :: ys ⊆ x :: y :: ys := by
        refine List.cons_subset.2 ⟨?_, fun z hz ↦ by simp [hz]⟩
        rcases hf x y with h | h <;> simp [h]
      exact hsubset (ih (f x y))

/-- Doubles are compared by their components. -/
theorem lt_iff_compare {x y : Float} :
    x < y ↔ UnpackedFloat.compare x.toModel.unpack y.toModel.unpack = some .lt := by
  show decide (UnpackedFloat.lt x.toModel.unpack y.toModel.unpack = true) = true ↔ _
  rw [decide_eq_true_iff, UnpackedFloat.lt, beq_iff_eq]

theorem unpack_infinity : infinity.toModel.unpack = .infinity .positive := rfl

/-- No quotient is above infinity. -/
theorem not_infinity_lt {x : Float} (h : IsQuotient x) : ¬infinity < x := by
  rw [lt_iff_compare, unpack_infinity]
  cases h with
  | zero h =>
    subst h
    decide
  | normal h =>
    obtain ⟨hm, hunpack⟩ := unpack_eq h
    rw [hunpack]
    nofun
  | infinite h =>
    subst h
    decide

/-- All quotients but infinity are below it. -/
theorem lt_infinity {x : Float} (h : IsQuotient x) (hne : x ≠ infinity) : x < infinity := by
  rw [lt_iff_compare, unpack_infinity]
  cases h with
  | zero h =>
    subst h
    rfl
  | normal h =>
    obtain ⟨hm, hunpack⟩ := unpack_eq h
    rw [hunpack]
    rfl
  | infinite h => exact absurd h hne

theorem greater_infinity_left {x : Float} (h : IsQuotient x) : greater infinity x = infinity := by
  rw [greater, if_neg (by decide), if_neg (not_infinity_lt h)]

theorem greater_infinity_right {x : Float} (h : IsQuotient x) : greater x infinity = infinity := by
  by_cases hx : x = infinity
  · rw [hx, greater_infinity_left (.infinite rfl)]
  · rw [greater, if_pos (lt_infinity h hx), ite_self]

/-- Where one of the samples is infinite, the greatest is. -/
theorem reduce_greater_eq_infinity {xs : List Float} (h : ∀ x ∈ xs, IsQuotient x)
    (hmem : infinity ∈ xs) : reduce greater xs = infinity := by
  obtain ⟨x, xs, rfl⟩ := List.exists_cons_of_ne_nil (List.ne_nil_of_mem hmem)
  rw [reduce]
  induction xs generalizing x with
  | nil => exact (List.mem_singleton.1 hmem).symm
  | cons y ys ih =>
    obtain ⟨hx, hy, hys⟩ : IsQuotient x ∧ IsQuotient y ∧ ∀ z ∈ ys, IsQuotient z := by
      simpa using h
    rw [List.foldl_cons]
    refine ih _ ?_ ?_
    · have hgreater : IsQuotient (greater x y) := by
        rcases greater_eq x y with heq | heq <;> rw [heq] <;> assumption
      simpa [hgreater] using hys
    · rcases List.mem_cons.1 hmem with rfl | hmem
      · rw [greater_infinity_left hy]
        exact List.mem_cons_self
      · rcases List.mem_cons.1 hmem with rfl | hmem
        · rw [greater_infinity_right hx]
          exact List.mem_cons_self
        · exact List.mem_cons_of_mem _ hmem

end Crossing.Double
