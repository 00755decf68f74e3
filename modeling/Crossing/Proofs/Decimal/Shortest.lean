import Crossing.Decimal.Shortest
import Crossing.Proofs.Double.Rounding

/-!
# Shortest decimals identify their doubles

The shortest decimal of a normal double rounds to it, and has few digits: the search for it ends on
the coarsest grid that has a point between the midpoints to the neighbouring doubles.

A decimal with an exponent `k` is a point of the grid of multiples of `10 ^ k`. Whether one of them
rounds to a double is decided in natural numbers, on a common scale of both (`inside_iff`). A grid
that is finer than half the last place has a point (`isSome_onGrid?`), so the search comes to an end
(`search_spec`), and where it starts bounds what it finds. Main statement: `shortest_spec`, for the
doubles that can be quotients of two words.
-/

namespace Crossing.Decimal

open Double

variable {m : ℕ} {q : ℤ}

/-! ### Grids -/

theorem ten_zpow_pos (k : ℤ) : (0 : ℚ) < 10 ^ k := zpow_pos (by norm_num) k

theorem two_zpow_sub_one (q : ℤ) : (2 : ℚ) ^ (q - 1) = 2 * 2 ^ (q - 2) := by
  rw [← two_zpow_succ]
  ring_nf

/-- Intervals are measured in quarters of the last place. -/
theorem two_zpow_eq_four_mul (q : ℤ) : (2 : ℚ) ^ q = 4 * 2 ^ (q - 2) := by
  rw [← sub_add_cancel q 1, two_zpow_succ, sub_add_cancel, two_zpow_sub_one]
  ring

/-- A power with an exponent of either sign, as a fraction of natural numbers. -/
theorem zpow_eq_div {b : ℚ} (hb : b ≠ 0) (q : ℤ) : b ^ q = b ^ q.toNat / b ^ (-q).toNat := by
  rw [← zpow_natCast, ← zpow_natCast, ← zpow_sub₀ hb]
  congr 1
  omega

/-- A power of two and a power of ten have a common measure, in which they are whole. -/
theorem exists_gridScale (q k : ℤ) :
    ∃ g : ℚ, 0 < g ∧ 2 ^ q = (gridScale q k).1 * g ∧ 10 ^ k = (gridScale q k).2 * g := by
  refine ⟨1 / (2 ^ (-q).toNat * 10 ^ (-k).toNat), by positivity, ?_, ?_⟩
  · rw [zpow_eq_div two_ne_zero, gridScale]
    simp only [Nat.pow_eq]
    push_cast
    field_simp
  · rw [zpow_eq_div (by norm_num : (10 : ℚ) ≠ 0), gridScale]
    simp only [Nat.pow_eq]
    push_cast
    field_simp

/-! ### The interval of a double -/

/-- Half the distance to the double below, in quarters of the last place. -/
def below (m : ℕ) : ℚ := if m = 2 ^ 52 then 1 else 2

/-- The rationals that round to `m · 2 ^ q`. -/
def Rounds (m : ℕ) (q : ℤ) (v : ℚ) : Prop :=
  if Even m then (4 * m - below m) * 2 ^ (q - 2) ≤ v ∧ v ≤ (4 * m + 2) * 2 ^ (q - 2)
  else (4 * m - below m) * 2 ^ (q - 2) < v ∧ v < (4 * m + 2) * 2 ^ (q - 2)

namespace Rounds

variable {v : ℚ}

/-- The lower end of the interval, whether or not it belongs to it. -/
theorem le (h : Rounds m q v) : (4 * m - below m) * 2 ^ (q - 2) ≤ v := by
  unfold Rounds at h
  split at h
  · exact h.1
  · exact h.1.le

theorem ge (h : Rounds m q v) : v ≤ (4 * m + 2) * 2 ^ (q - 2) := by
  unfold Rounds at h
  split at h
  · exact h.2
  · exact h.2.le

/-- The interval lies above zero. -/
theorem low_pos (hm : 0 < m) (q : ℤ) : 0 < (4 * m - below m) * 2 ^ (q - 2) := by
  have hm' : (1 : ℚ) ≤ m := mod_cast hm
  have hbelow : below m ≤ 2 := by rw [below]; split <;> norm_num
  exact mul_pos (by linarith) (two_zpow_pos _)

theorem pos (hm : 0 < m) (h : Rounds m q v) : 0 < v := (low_pos hm q).trans_le h.le

/-- The inner part of the interval belongs to it in any case. -/
theorem of_lt (h : (4 * m - below m) * 2 ^ (q - 2) < v) (h' : v < (4 * m + 2) * 2 ^ (q - 2)) :
    Rounds m q v := by
  unfold Rounds
  split
  · exact ⟨h.le, h'.le⟩
  · exact ⟨h, h'⟩

end Rounds

/-- The comparison of integers decides whether a point of the grid is in the interval. -/
theorem inside_iff (hm : 0 < m) (hq : -1074 < q) (k : ℤ) (p : ℕ) :
    inside m q (gridScale (q - 2) k).1 (gridScale (q - 2) k).2 p = true ↔
      Rounds m q (p * 10 ^ k) := by
  obtain ⟨g, hg, hs, hd⟩ := exists_gridScale (q - 2) k
  have hlow : (4 * m - below m : ℚ) = ((4 * m - if m = 2 ^ 52 then 1 else 2 : ℕ) : ℚ) := by
    rw [Nat.cast_sub (by split <;> omega), below]
    push_cast
    rfl
  have hhigh : (4 * m + 2 : ℚ) = ((4 * m + 2 : ℕ) : ℚ) := by push_cast; rfl
  rw [Rounds, hs, hd, hlow, hhigh, ← mul_assoc, ← mul_assoc, ← mul_assoc]
  simp only [mul_le_mul_iff_left₀ hg, mul_lt_mul_iff_left₀ hg]
  norm_cast
  simp [inside, hq, Nat.even_iff]

/-- The interval of a double begins half a rank below it. -/
theorem rank_low (hm : 2 ^ 52 ≤ m) (hm' : m < 2 ^ 53) :
    rank ((4 * m - below m) * 2 ^ (q - 2)) = (q + 1074) * 2 ^ 52 + m - 1 / 2 := by
  have hpos := two_zpow_pos (q - 2)
  by_cases hm₀ : m = 2 ^ 52
  · -- the interval of the first double of a binade begins in the binade below
    have hq := two_zpow_sub_one q
    subst hm₀
    rw [below, if_pos rfl, @rank_eq_line _ (q - 1) (by rw [hq]; push_cast; linarith)
      (by rw [hq]; push_cast; linarith), line, hq]
    push_cast
    field_simp
    ring
  · have hq := two_zpow_eq_four_mul q
    have hm₁ : (2 ^ 52 : ℚ) + 1 ≤ m := mod_cast lt_of_le_of_ne hm (Ne.symm hm₀)
    have hm₂ : (m : ℚ) + 1 ≤ 2 ^ 53 := mod_cast hm'
    rw [below, if_neg hm₀, @rank_eq_line _ q (by rw [hq]; nlinarith) (by rw [hq]; nlinarith),
      line, hq]
    field_simp
    ring

/-- It ends half a rank above it. -/
theorem rank_high (hm : 2 ^ 52 ≤ m) (hm' : m < 2 ^ 53) :
    rank ((4 * m + 2) * 2 ^ (q - 2)) = (q + 1074) * 2 ^ 52 + m + 1 / 2 := by
  have hpos := two_zpow_pos (q - 2)
  have hq := two_zpow_eq_four_mul q
  have hm₁ : (2 ^ 52 : ℚ) ≤ m := mod_cast hm
  have hm₂ : (m : ℚ) + 1 ≤ 2 ^ 53 := mod_cast hm'
  rw [@rank_eq_line _ q (by rw [hq]; nlinarith) (by rw [hq]; nlinarith), line, hq]
  field_simp
  ring

/-- What rounds to a double has its rank as the nearest whole number. -/
theorem Rounds.isNearest {v : ℚ} (hm : 2 ^ 52 ≤ m) (hm' : m < 2 ^ 53) (h : Rounds m q v) :
    IsNearest (rank v) ((q + 1074) * 2 ^ 52 + m) := by
  have hmPos : 0 < m := Nat.lt_of_lt_of_le (by norm_num) hm
  have hlow := @rank_low m q hm hm'
  have hhigh := @rank_high m q hm hm'
  have hlowPos := low_pos hmPos q
  have hvPos := h.pos hmPos
  rw [IsNearest]
  push_cast
  rw [Rounds] at h
  split at h
  case isTrue heven =>
    have h₁ := rank_le_rank hlowPos h.1
    have h₂ := rank_le_rank hvPos h.2
    have hle : |rank v - ((q + 1074) * 2 ^ 52 + m)| ≤ 1 / 2 := abs_le.2 ⟨by linarith, by linarith⟩
    refine hle.lt_or_eq.imp_right fun heq ↦ ⟨heq, Even.add ?_ (Int.even_coe_nat _ |>.2 heven)⟩
    exact Even.mul_left (by decide) _
  case isFalse =>
    have h₁ := rank_lt_rank hlowPos h.1
    have h₂ := rank_lt_rank hvPos h.2
    exact .inl (abs_lt.2 ⟨by linarith, by linarith⟩)

/-! ### The search -/

/-- A point that is found rounds to the double. -/
theorem rounds_of_onGrid? {tie : Tie} {k : ℤ} {p : ℕ} (hm : 0 < m) (hq : -1074 < q)
    (h : onGrid? tie m q k = some p) : Rounds m q (p * 10 ^ k) := by
  rw [← inside_iff hm hq]
  simp only [onGrid?] at h
  split at h <;> grind

/-- A grid finer than half the last place has a point next to the double. -/
theorem isSome_onGrid? {k : ℤ} (tie : Tie) (hm : 0 < m) (hq : -1074 < q)
    (hk : (10 : ℚ) ^ k < 2 ^ (q - 1)) : (onGrid? tie m q k).isSome := by
  obtain ⟨g, hg, hs, hd⟩ := exists_gridScale (q - 2) k
  have hinside : inside m q (gridScale (q - 2) k).1 (gridScale (q - 2) k).2
      (4 * m * (gridScale (q - 2) k).1 / (gridScale (q - 2) k).2 + 1) = true := by
    rw [inside_iff hm hq]
    have hdPos : (0 : ℚ) < (gridScale (q - 2) k).2 :=
      pos_of_mul_pos_left (hd ▸ ten_zpow_pos k) hg.le
    have hbelow : 0 < below m := by rw [below]; split <;> norm_num
    generalize (gridScale (q - 2) k).1 = s at *
    generalize (gridScale (q - 2) k).2 = d at *
    have hlow : ((4 * m * s : ℕ) : ℚ) < ((4 * m * s / d + 1 : ℕ) : ℚ) * d := by
      have hlt := Nat.lt_mul_div_succ (4 * m * s) (Nat.cast_pos.1 hdPos)
      rw [mul_comm d] at hlt
      exact_mod_cast hlt
    have hhigh : ((4 * m * s / d : ℕ) : ℚ) * d ≤ ((4 * m * s : ℕ) : ℚ) := by
      exact_mod_cast Nat.div_mul_le_self _ _
    push_cast at hlow hhigh ⊢
    apply Rounds.of_lt
    · calc (4 * m - below m) * 2 ^ (q - 2) < 4 * m * 2 ^ (q - 2) :=
            mul_lt_mul_of_pos_right (by linarith) (two_zpow_pos _)
        _ = 4 * m * s * g := by rw [hs]; ring
        _ < (((4 * m * s / d : ℕ) : ℚ) + 1) * d * g := by gcongr
        _ = _ := by rw [hd]; ring
    · calc (((4 * m * s / d : ℕ) : ℚ) + 1) * 10 ^ k
          = ((4 * m * s / d : ℕ) : ℚ) * d * g + 10 ^ k := by rw [hd]; ring
        _ ≤ 4 * m * s * g + 10 ^ k := by gcongr
        _ < 4 * m * s * g + 2 * 2 ^ (q - 2) := by rw [← two_zpow_sub_one]; gcongr
        _ = _ := by rw [hs]; ring
  simp only [onGrid?, hinside]
  split <;> grind

/-- The search ends on the first grid that has a point. -/
theorem search_spec (tie : Tie) (fuel : ℕ) (k : ℤ)
    (h : ∃ i < fuel, (onGrid? tie m q (k - i)).isSome) :
    let found := search tie m q fuel k
    onGrid? tie m q found.exponent = some found.digits ∧
      k - fuel < found.exponent ∧ found.exponent ≤ k ∧
      (found.exponent = k ∨ onGrid? tie m q (found.exponent + 1) = none) := by
  induction fuel generalizing k with
  | zero =>
    obtain ⟨i, hi, -⟩ := h
    exact absurd hi (Nat.not_lt_zero i)
  | succ fuel ih =>
    intro found
    cases hk : onGrid? tie m q k with
    | some p =>
      have hfound : found = ⟨p, k⟩ := by simp only [found, search, hk]
      rw [hfound]
      exact ⟨hk, by simp, le_rfl, .inl rfl⟩
    | none =>
      have hfound : found = search tie m q fuel (k - 1) := by simp only [found, search, hk]
      obtain ⟨i, hi, hsome⟩ := h
      cases i with
      | zero => simp [hk] at hsome
      | succ i =>
        obtain ⟨hgrid, hlow, hhigh, htop⟩ := ih (k - 1) ⟨i, Nat.lt_of_succ_lt_succ hi, by
          rwa [show k - 1 - (i : ℤ) = k - ((i + 1 : ℕ) : ℤ) by push_cast; ring]⟩
        rw [hfound]
        refine ⟨hgrid, by push_cast; omega, by omega, .inr ?_⟩
        rcases htop with htop | htop
        · rwa [htop, sub_add_cancel]
        · exact htop

/-! ### The shortest decimal -/

/-- Around the doubles that are quotients of words, the search starts above the last place and
ends below it. -/
theorem start_bounds : ∀ i : ℕ, i < 132 →
    2 ^ 119 < 2 ^ i * 10 ^ (21 - (((i : ℤ) - 65) * 30103 / 100000)).toNat ∧
      2 ^ i * 10 ^ 17 ≤ 2 ^ 119 * 10 ^ ((((i : ℤ) - 65) * 30103 / 100000) + 20).toNat ∧
      -20 ≤ ((i : ℤ) - 65) * 30103 / 100000 ∧ ((i : ℤ) - 65) * 30103 / 100000 ≤ 19 := by
  decide +kernel

theorem start_zpow_bounds (hq : -118 ≤ q) (hq' : q ≤ 13) :
    let t := (q + 53) * 30103 / 100000
    (10 : ℚ) ^ (t - 21) < 2 ^ (q - 1) ∧ (2 : ℚ) ^ (q - 1) ≤ 10 ^ (t + 3) ∧ -20 ≤ t ∧ t ≤ 19 := by
  intro t
  obtain ⟨i, rfl⟩ : ∃ i : ℕ, q = i - 118 := ⟨(q + 118).toNat, by omega⟩
  have ht : t = ((i : ℤ) - 65) * 30103 / 100000 := by simp only [t]; ring_nf
  obtain ⟨hlow, hhigh, hge, hle⟩ := start_bounds i (by omega)
  rw [← ht] at hlow hhigh hge hle
  have htwo : (2 : ℚ) ^ ((i : ℤ) - 118 - 1) = 2 ^ i / 2 ^ 119 := by
    rw [sub_sub, zpow_sub₀ two_ne_zero, zpow_natCast]
    norm_cast
  refine ⟨?_, ?_, hge, hle⟩
  · have hten : (10 : ℚ) ^ (t - 21) = 1 / 10 ^ (21 - t).toNat := by
      rw [one_div, ← zpow_natCast, ← zpow_neg]
      congr 1
      omega
    rw [hten, htwo, div_lt_div_iff₀ (by positivity) (by positivity), one_mul]
    exact_mod_cast hlow
  · have hten : (10 : ℚ) ^ (t + 3) = 10 ^ (t + 20).toNat / 10 ^ 17 := by
      rw [← zpow_natCast, ← zpow_natCast, ← zpow_sub₀ (by norm_num)]
      congr 1
      omega
    rw [hten, htwo, div_le_div_iff₀ (by positivity) (by positivity)]
    exact_mod_cast hhigh.trans_eq (mul_comm _ _)

/-- The shortest decimal of a double rounds to it, and its digits and its exponent are bounded. -/
theorem shortest_spec (tie : Tie) (hm : 2 ^ 52 ≤ m) (hm' : m < 2 ^ 53) (hq : -118 ≤ q)
    (hq' : q ≤ 13) :
    let found := shortest tie m q
    Rounds m q (found.digits * 10 ^ found.exponent) ∧ 0 < found.digits ∧
      found.digits ≤ 20 * 2 ^ 53 ∧ -41 ≤ found.exponent ∧ found.exponent ≤ 21 := by
  intro found
  have hmPos : 0 < m := lt_of_lt_of_le (by norm_num) hm
  have hqBig : -1074 < q := by omega
  obtain ⟨hfine, hcoarse, ht, ht'⟩ := start_zpow_bounds hq hq'
  set t := (q + 53) * 30103 / 100000 with htdef
  have hlog : m.log2 = 52 := (Nat.log2_eq_iff hmPos.ne').2 ⟨hm, hm'⟩
  have hfound : found = search tie m q 24 (t + 2) := by
    simp only [found, shortest, hlog, htdef]
    norm_num
    ring_nf
  obtain ⟨hgrid, hlow, hhigh, htop⟩ := search_spec tie 24 (t + 2)
    ⟨23, by norm_num, isSome_onGrid? tie hmPos hqBig (by
      rwa [show t + 2 - ((23 : ℕ) : ℤ) = t - 21 by push_cast; ring])⟩
  rw [← hfound] at hgrid hlow hhigh htop
  have hrounds := rounds_of_onGrid? hmPos hqBig hgrid
  have hten := ten_zpow_pos found.exponent
  -- one grid up, a place of the double is at most two points wide
  have hplace : (2 : ℚ) ^ (q - 1) ≤ 10 ^ (found.exponent + 1) := by
    rcases htop with htop | htop
    · rwa [htop, add_assoc]
    · by_contra hlt
      have hsome := isSome_onGrid? tie hmPos hqBig (not_le.1 hlt)
      rw [htop] at hsome
      cases hsome
  rw [two_zpow_sub_one, zpow_add_one₀ (by norm_num)] at hplace
  refine ⟨hrounds, ?_, ?_, by push_cast at hlow; omega, by omega⟩
  · have hpos := hrounds.pos hmPos
    exact Nat.cast_pos.1 (pos_of_mul_pos_left hpos hten.le)
  · have hm₂ : (m : ℚ) + 1 ≤ 2 ^ 53 := mod_cast hm'
    have hle : (found.digits : ℚ) * 10 ^ found.exponent ≤
        ((20 * 2 ^ 53 : ℕ) : ℚ) * 10 ^ found.exponent := calc
      (found.digits : ℚ) * 10 ^ found.exponent ≤ (4 * m + 2) * 2 ^ (q - 2) := hrounds.ge
      _ ≤ 4 * 2 ^ 53 * (5 * 10 ^ found.exponent) :=
        mul_le_mul (by linarith) (by linarith) (two_zpow_pos _).le (by norm_num)
      _ = _ := by push_cast; ring
    exact_mod_cast le_of_mul_le_mul_right hle hten

end Crossing.Decimal
