import Mathlib.Algebra.Order.Field.Rat
import Mathlib.Data.Int.Log
import Mathlib.Data.Rat.Floor
import Mathlib.Tactic.FieldSimp
import Mathlib.Tactic.GCongr
import Mathlib.Tactic.Linarith
import Mathlib.Tactic.Positivity
import Mathlib.Tactic.Ring

/-!
# Ranks

Positive doubles are ordered as their bits are, read as a number. The *rank* of a positive rational
extends this: it is the bits for a double, and linear between a double and the next one. Distances
of ranks are therefore errors in units of the last place, whichever binade they are in.

* Along the rationals the rank grows more and more slowly: it stays below each of its tangents
  (`rank_le_line`). So a small relative change moves the rank by less than one
  (`Near.abs_rank_sub_rank_lt`).
* To round is to go to the nearest rank (`IsNearest`).
-/

namespace Crossing.Double

/-! ### Binades -/

/-- The exponent of the binade of a positive number. -/
def binade (v : ℚ) : ℤ := Int.log 2 v - 52

theorem two_zpow_pos (q : ℤ) : (0 : ℚ) < 2 ^ q := zpow_pos two_pos q

theorem two_zpow_succ (q : ℤ) : (2 : ℚ) ^ (q + 1) = 2 * 2 ^ q := by
  rw [zpow_add_one₀ two_ne_zero, mul_comm]

/-- The binade of a rational begins below it. -/
theorem le_of_binade {v : ℚ} (hv : 0 < v) : 2 ^ 52 * 2 ^ binade v ≤ v := by
  have hlog := Int.zpow_log_le_self (b := 2) one_lt_two hv
  rw [← zpow_natCast, ← zpow_add₀ two_ne_zero, binade]
  simpa using hlog

theorem lt_of_binade (v : ℚ) : v < 2 ^ 53 * 2 ^ binade v := by
  have hlog := Int.lt_zpow_succ_log_self (b := 2) one_lt_two v
  rw [← zpow_natCast, ← zpow_add₀ two_ne_zero, binade]
  rwa [show ((53 : ℕ) : ℤ) + (Int.log 2 v - 52) = Int.log 2 v + 1 by push_cast; ring]

/-- A number that reaches into a binade has at least its exponent. -/
theorem le_binade {v : ℚ} {q : ℤ} (hle : 2 ^ 52 * 2 ^ q ≤ v) : q ≤ binade v := by
  have hlt := hle.trans_lt (lt_of_binade v)
  rw [← zpow_natCast, ← zpow_natCast, ← zpow_add₀ two_ne_zero, ← zpow_add₀ two_ne_zero,
    zpow_lt_zpow_iff_right₀ one_lt_two] at hlt
  push_cast at hlt
  omega

/-- A number that stays below the end of a binade has at most its exponent. -/
theorem binade_le {v : ℚ} {q : ℤ} (hv : 0 < v) (hlt : v < 2 ^ 53 * 2 ^ q) : binade v ≤ q := by
  have hlt := (le_of_binade hv).trans_lt hlt
  rw [← zpow_natCast, ← zpow_natCast, ← zpow_add₀ two_ne_zero, ← zpow_add₀ two_ne_zero,
    zpow_lt_zpow_iff_right₀ one_lt_two] at hlt
  push_cast at hlt
  omega

/-- A number is in one binade only. -/
theorem binade_eq {v : ℚ} {q : ℤ} (hle : 2 ^ 52 * 2 ^ q ≤ v) (hlt : v < 2 ^ 53 * 2 ^ q) :
    binade v = q :=
  have hv : 0 < v := lt_of_lt_of_le (mul_pos (by norm_num) (two_zpow_pos q)) hle
  le_antisymm (binade_le hv hlt) (le_binade hle)

/-! ### Ranks -/

/-- The tangent of the rank in a binade. -/
def line (q : ℤ) (v : ℚ) : ℚ := (q + 1074) * 2 ^ 52 + v / 2 ^ q

/-- The rank of a positive number among the doubles. -/
def rank (v : ℚ) : ℚ := line (binade v) v

/-- Tangents of neighbouring binades meet where one binade ends and the other begins. -/
theorem line_succ_sub_line (q : ℤ) (v : ℚ) :
    line q v - line (q + 1) v = v / 2 ^ (q + 1) - 2 ^ 52 := by
  rw [line, line, two_zpow_succ]
  have hq := (two_zpow_pos q).ne'
  push_cast
  field_simp
  ring

/-- Beyond a binade, the tangent of the next one is below its own. -/
theorem line_succ_le {q : ℤ} {v : ℚ} (h : 2 ^ 53 * 2 ^ q ≤ v) : line (q + 1) v ≤ line q v := by
  have hle : 2 ^ 52 ≤ v / 2 ^ (q + 1) := by
    rw [le_div_iff₀ (two_zpow_pos _), two_zpow_succ]
    linarith
  linarith [line_succ_sub_line q v]

/-- Before the end of a binade, the tangent of the next one is above its own. -/
theorem line_le_succ {q : ℤ} {v : ℚ} (h : v ≤ 2 ^ 53 * 2 ^ q) : line q v ≤ line (q + 1) v := by
  have hle : v / 2 ^ (q + 1) ≤ 2 ^ 52 := by
    rw [div_le_iff₀ (two_zpow_pos _), two_zpow_succ]
    linarith
  linarith [line_succ_sub_line q v]

/-- The rank stays below its tangents. -/
theorem rank_le_line {v : ℚ} (hv : 0 < v) (q : ℤ) : rank v ≤ line q v := by
  -- from its own binade, walk up or down to `q` by one binade after another
  rcases le_total (binade v) q with h | h
  · induction q, h using Int.leInduction with
    | base => exact le_rfl
    | succ q hq ih =>
      have hpow : (2 : ℚ) ^ binade v ≤ 2 ^ q := zpow_le_zpow_right₀ one_le_two hq
      exact ih.trans (line_le_succ (by linarith [lt_of_binade v]))
  · induction q, h using Int.leInductionDown with
    | base => exact le_rfl
    | pred q hq ih =>
      have hpow : (2 : ℚ) ^ q ≤ 2 ^ binade v := zpow_le_zpow_right₀ one_le_two hq
      have hsucc := two_zpow_succ (q - 1)
      rw [sub_add_cancel] at hsucc
      have hstep := @line_succ_le (q - 1) v (by linarith [le_of_binade hv])
      rw [sub_add_cancel] at hstep
      exact ih.trans hstep

/-- Up to its end, the rank in a binade is its tangent. -/
theorem rank_eq_line {v : ℚ} {q : ℤ} (hle : 2 ^ 52 * 2 ^ q ≤ v) (hlt : v ≤ 2 ^ 53 * 2 ^ q) :
    rank v = line q v := by
  rcases hlt.lt_or_eq with hlt | rfl
  · rw [rank, binade_eq hle hlt]
  · have hpos := two_zpow_pos q
    have hnext : binade (2 ^ 53 * 2 ^ q) = q + 1 :=
      binade_eq (by rw [two_zpow_succ]; linarith) (by rw [two_zpow_succ]; linarith)
    rw [rank, hnext, line, line, two_zpow_succ]
    push_cast
    field_simp
    ring

/-- On one tangent, the rank grows by one with each unit of the last place. -/
theorem line_sub_line (q : ℤ) (u v : ℚ) : line q v - line q u = (v - u) / 2 ^ q := by
  rw [line, line]
  ring

/-- Larger numbers have larger ranks, and the rank grows no faster than it does where it starts. -/
theorem rank_sub_rank_le {u v : ℚ} (hu : 0 < u) (huv : u ≤ v) :
    rank v - rank u ≤ (v - u) / 2 ^ binade u := by
  rw [← line_sub_line]
  exact sub_le_sub_right (rank_le_line (hu.trans_le huv) _) _

/-- Ranks are at least as far apart as on the line of the greater value. -/
theorem le_rank_sub_rank {u : ℚ} (hu : 0 < u) (v : ℚ) :
    (v - u) / 2 ^ binade v ≤ rank v - rank u := by
  rw [← line_sub_line]
  exact sub_le_sub_left (rank_le_line hu _) _

/-- Greater values have greater ranks. -/
theorem rank_lt_rank {u v : ℚ} (hu : 0 < u) (huv : u < v) : rank u < rank v := by
  have hle := le_rank_sub_rank hu v
  have hpos : 0 < (v - u) / 2 ^ binade v := div_pos (sub_pos.2 huv) (two_zpow_pos _)
  linarith

theorem rank_le_rank {u v : ℚ} (hu : 0 < u) (huv : u ≤ v) : rank u ≤ rank v := by
  rcases huv.lt_or_eq with h | rfl
  · exact (rank_lt_rank hu h).le
  · exact le_rfl

/-- A positive rational can be told from its rank. -/
theorem eq_of_rank_eq {u v : ℚ} (hu : 0 < u) (hv : 0 < v) (h : rank u = rank v) : u = v := by
  rcases lt_trichotomy u v with huv | rfl | hvu
  · exact absurd h (rank_lt_rank hu huv).ne
  · rfl
  · exact absurd h (rank_lt_rank hv hvu).ne'

/-! ### Numbers that are near each other -/

/-- Numbers that differ by no more than rounding to 53 bits can make them differ. -/
def Near (u v : ℚ) : Prop := |u - v| * 2 ^ 53 ≤ u ∧ |u - v| * 2 ^ 53 ≤ v

namespace Near

variable {u v : ℚ}

theorem symm (h : Near u v) : Near v u := by
  rw [Near, abs_sub_comm]
  exact ⟨h.2, h.1⟩

/-- A common factor keeps values near each other. -/
theorem mul_right (h : Near u v) {c : ℚ} (hc : 0 ≤ c) : Near (u * c) (v * c) := by
  have habs : |u * c - v * c| = |u - v| * c := by rw [← sub_mul, abs_mul, abs_of_nonneg hc]
  rw [Near, habs, mul_right_comm]
  exact ⟨mul_le_mul_of_nonneg_right h.1 hc, mul_le_mul_of_nonneg_right h.2 hc⟩

/-- Inverses of near values are near each other. -/
theorem inv (hu : 0 < u) (hv : 0 < v) (h : Near u v) : Near u⁻¹ v⁻¹ := by
  have habs : |u⁻¹ - v⁻¹| = |u - v| / (u * v) := by
    rw [inv_sub_inv hu.ne' hv.ne', abs_div, abs_sub_comm, abs_of_pos (mul_pos hu hv)]
  rw [Near, habs, div_mul_eq_mul_div, div_le_iff₀ (mul_pos hu hv), div_le_iff₀ (mul_pos hu hv)]
  rw [inv_mul_cancel_left₀ hu.ne', mul_comm u v, inv_mul_cancel_left₀ hv.ne']
  exact ⟨h.2, h.1⟩

/-- Near values differ by less than a factor of two. -/
theorem le_two_mul (h : Near u v) : u ≤ 2 * v := by
  have hgap := h.2
  linarith [le_abs_self (u - v), abs_nonneg (u - v)]

/-- Near values are less than one rank apart. -/
theorem rank_sub_rank_lt (hu : 0 < u) (huv : u ≤ v) (h : Near u v) : rank v - rank u < 1 := by
  have hpos := two_zpow_pos (binade u)
  have hgap : (v - u) * 2 ^ 53 ≤ u := by
    have := h.1
    rwa [abs_sub_comm, abs_of_nonneg (sub_nonneg.2 huv)] at this
  calc rank v - rank u ≤ (v - u) / 2 ^ binade u := rank_sub_rank_le hu huv
    _ < 1 := by
      rw [div_lt_one hpos]
      linarith [lt_of_binade u]

/-- The ranks of numbers that are near each other differ by less than one. -/
theorem abs_rank_sub_rank_lt (hu : 0 < u) (hv : 0 < v) (h : Near u v) : |rank u - rank v| < 1 := by
  rw [abs_sub_lt_iff]
  rcases le_total u v with huv | hvu
  · exact ⟨by linarith [rank_le_rank hu huv], h.rank_sub_rank_lt hu huv⟩
  · exact ⟨h.symm.rank_sub_rank_lt hv hvu, by linarith [rank_le_rank hv hvu]⟩

end Near

/-! ### Rounding -/

/-- Whether an integer is the nearest to a number; of two, the even one. -/
def IsNearest (r : ℚ) (n : ℤ) : Prop := |r - n| < 1 / 2 ∨ |r - n| = 1 / 2 ∧ Even n

namespace IsNearest

variable {r : ℚ} {n : ℤ}

/-- The nearest integer is at most one half away. -/
theorem abs_sub_le_half (h : IsNearest r n) : |r - n| ≤ 1 / 2 := by
  rcases h with h | ⟨h, -⟩
  · exact h.le
  · exact h.le

/-- What is nearest to a number that is within a distance of an integer. -/
theorem abs_sub_le_of_lt (h : IsNearest r n) {m k : ℤ} (hr : |r - m| < k + 1 / 2) :
    |n - m| ≤ k := by
  have hn := h.abs_sub_le_half
  rw [abs_le] at hn ⊢
  rw [abs_lt] at hr
  have hlow : ((-k - 1 : ℤ) : ℚ) < ((n - m : ℤ) : ℚ) := by
    push_cast
    linarith
  have hhigh : ((n - m : ℤ) : ℚ) < ((k + 1 : ℤ) : ℚ) := by
    push_cast
    linarith
  rw [Int.cast_lt] at hlow hhigh
  omega

/-- Numbers less than some places apart are rounded to no more places apart. -/
theorem abs_sub_le_of_abs_lt (h : IsNearest r n) {r' : ℚ} {m k : ℤ} (h' : IsNearest r' m)
    (hr : |r - r'| < k) : |n - m| ≤ k :=
  h.abs_sub_le_of_lt (by linarith [abs_sub_le r r' m, h'.abs_sub_le_half])

/-- There is only one nearest integer, since ties go to the even one. -/
theorem eq (h : IsNearest r n) {m : ℤ} (h' : IsNearest r m) : n = m := by
  have hle : |n - m| ≤ 1 := h.abs_sub_le_of_lt (by linarith [h'.abs_sub_le_half])
  rcases h with h | ⟨h, hn⟩
  · have hzero : |m - n| ≤ 0 := h'.abs_sub_le_of_lt (by simpa using h)
    exact (sub_eq_zero.1 (abs_nonpos_iff.1 hzero)).symm
  · rcases h' with h' | ⟨h', hm⟩
    · have hzero : |n - m| ≤ 0 := abs_sub_le_of_lt (.inr ⟨h, hn⟩) (by simpa using h')
      exact sub_eq_zero.1 (abs_nonpos_iff.1 hzero)
    · -- two even numbers do not differ by one
      obtain ⟨a, rfl⟩ := hn
      obtain ⟨b, rfl⟩ := hm
      rw [abs_le] at hle
      omega

/-- Where the scale of ranks is shifted by an even number, rounding is the same. -/
theorem add_even (h : IsNearest r n) {k : ℤ} (hk : Even k) : IsNearest (k + r) (k + n) := by
  have hsub : ((k : ℚ) + r) - ((k + n : ℤ) : ℚ) = r - n := by
    push_cast
    ring
  rw [IsNearest, hsub]
  exact h.imp_right fun ⟨h, hn⟩ ↦ ⟨h, hk.add hn⟩

end IsNearest

end Crossing.Double
