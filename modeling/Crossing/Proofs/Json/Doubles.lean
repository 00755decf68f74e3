import Crossing.Proofs.Decimal.Shortest
import Crossing.Proofs.Double.Quotient
import Crossing.Proofs.Json.Numbers

/-!
# Doubles as they are written and read

A double is written as its shortest decimal, which rounds to it. It is read as a significand, made a
double and scaled by a power of ten, made a double too: up to three roundings. Each of the first two
is exact for small numbers and moves the result by less than one place otherwise. So what is read is
within two places of what was written, and is the same where both are exact:
`ofParts_of_isNearest`.
-/

namespace Crossing.Json

open Decimal (Layout Rounds ten_zpow_pos)
open Double

/-! ### Powers of ten -/

/-- The first powers of ten as doubles, in units of `2 ^ -52`. -/
theorem tenTo_bits : ∀ k < 42, 2 ^ 52 ≤ bits (tenTo k) ∧ bits (tenTo k) < 2047 * 2 ^ 52 ∧
    let unit := 2 ^ (bits (tenTo k) / 2 ^ 52 - 1023)
    1023 ≤ bits (tenTo k) / 2 ^ 52 ∧
      (mantissa (tenTo k) * unit - 10 ^ k * 2 ^ 52) * 2 ^ 53 ≤ 10 ^ k * 2 ^ 52 ∧
      (10 ^ k * 2 ^ 52 - mantissa (tenTo k) * unit) * 2 ^ 53 ≤ mantissa (tenTo k) * unit ∧
      (k ≤ 22 → mantissa (tenTo k) * unit = 10 ^ k * 2 ^ 52) := by
  decide +kernel

/-- Whole numbers of units that are near each other. -/
theorem near_div {a b : ℕ} (h : (a - b) * 2 ^ 53 ≤ b) (h' : (b - a) * 2 ^ 53 ≤ a) {u : ℚ}
    (hu : 0 < u) : Near (a / u) (b / u) := by
  have habs : |(a : ℚ) - b| * 2 ^ 53 ≤ a ∧ |(a : ℚ) - b| * 2 ^ 53 ≤ b := by
    rcases le_total a b with hab | hba
    · have hcast : ((b : ℚ) - a) * 2 ^ 53 ≤ a := by
        rw [← Nat.cast_sub hab]
        exact_mod_cast h'
      have hle : (a : ℚ) ≤ b := Nat.cast_le.2 hab
      rw [abs_sub_comm, abs_of_nonneg (sub_nonneg.2 hle)]
      exact ⟨hcast, hcast.trans hle⟩
    · have hcast : ((a : ℚ) - b) * 2 ^ 53 ≤ b := by
        rw [← Nat.cast_sub hba]
        exact_mod_cast h
      have hle : (b : ℚ) ≤ a := Nat.cast_le.2 hba
      rw [abs_of_nonneg (sub_nonneg.2 hle)]
      exact ⟨hcast.trans hle, hcast⟩
  have hnear : Near a b := habs
  simpa only [div_eq_mul_inv] using hnear.mul_right (inv_pos.2 hu).le

theorem two_zpow_sub {b : ℕ} (hb : 1023 ≤ b) :
    (2 : ℚ) ^ ((b : ℤ) - 1075) = 2 ^ (b - 1023) / 2 ^ 52 := by
  rw [eq_div_iff (by norm_num), ← zpow_natCast, ← zpow_natCast, ← zpow_add₀ two_ne_zero]
  congr 1
  omega

/-- The powers of ten of the table are normal and near the exact ones, and up to `10 ^ 22` they are
exact. -/
theorem tenTo_spec {k : ℕ} (hk : k ≤ 41) :
    IsNormal (tenTo k) ∧ Near (value (tenTo k)) (10 ^ k) ∧
      (k ≤ 22 → value (tenTo k) = 10 ^ k) := by
  obtain ⟨hle, hlt, hbinade, hhigh, hlow, hexact⟩ := tenTo_bits k (by omega)
  generalize hunit : 2 ^ (bits (tenTo k) / 2 ^ 52 - 1023) = unit at hhigh hlow hexact
  have hvalue : value (tenTo k) = ((mantissa (tenTo k) * unit : ℕ) : ℚ) / 2 ^ 52 := by
    rw [value, exponent, two_zpow_sub hbinade, Nat.cast_mul, ← hunit, Nat.cast_pow, Nat.cast_ofNat,
      mul_div_assoc]
  have hten : (10 : ℚ) ^ k = ((10 ^ k * 2 ^ 52 : ℕ) : ℚ) / 2 ^ 52 := by
    rw [Nat.cast_mul, Nat.cast_pow, Nat.cast_pow, Nat.cast_ofNat, Nat.cast_ofNat,
      mul_div_cancel_right₀ _ (by norm_num)]
  rw [hvalue, hten]
  refine ⟨⟨hle, hlt⟩, near_div hhigh hlow (by norm_num), fun hk' ↦ ?_⟩
  rw [hexact hk']

/-! ### Significands -/

/-- Significands become normal doubles near them, and up to `2 ^ 53` they are exact. -/
theorem toFloat_spec {s : ℕ} (hs : 0 < s) (hlt : s < 2 ^ 64) :
    IsNormal s.toUInt64.toFloat ∧ Near (value s.toUInt64.toFloat) s ∧
      (s ≤ 2 ^ 53 → value s.toUInt64.toFloat = s) := by
  have htoNat : s.toUInt64.toNat = s := Nat.mod_eq_of_lt hlt
  have hrounded := @isRounded_toFloat s.toUInt64 (by rwa [htoNat])
  rw [htoNat] at hrounded
  have hpos : (0 : ℚ) < s := Nat.cast_pos.2 hs
  refine ⟨hrounded.isNormal, hrounded.near hpos, fun hle ↦ ?_⟩
  obtain ⟨n, hn⟩ := exists_rank_eq hs hle 0
  rw [zpow_zero, mul_one] at hn
  exact hrounded.value_eq hpos hn

/-! ### Products -/

/-- What is read is the rounded product of two numbers, each near the one that was meant; each that
is not exact costs a place. -/
theorem abs_bits_sub_le {u v a b : ℚ} {y : Float} {n : ℤ} (hu : 0 < u) (hv : 0 < v) (ha : 0 < a)
    (hb : 0 < b) (hua : Near u a) (hvb : Near v b) (hy : IsRounded (u * v) y)
    (hn : IsNearest (rank (a * b)) n) :
    |(bits y : ℤ) - n| ≤ (if u = a then 0 else 1) + (if v = b then 0 else 1) := by
  have hfirst : |rank (u * v) - rank (a * v)| < 1 :=
    (hua.mul_right hv.le).abs_rank_sub_rank_lt (mul_pos hu hv) (mul_pos ha hv)
  have hsecond : |rank (a * v) - rank (a * b)| < 1 := by
    rw [mul_comm a, mul_comm a]
    exact (hvb.mul_right ha.le).abs_rank_sub_rank_lt (mul_pos hv ha) (mul_pos hb ha)
  split
  case isTrue hexact =>
    subst hexact
    split
    case isTrue hexact =>
      subst hexact
      have heq : (bits y : ℤ) = n := hy.isNearest.eq hn
      rw [heq, sub_self]
      rfl
    case isFalse => exact hy.isNearest.abs_sub_le_of_abs_lt hn (mod_cast hsecond)
  case isFalse =>
    split
    case isTrue hexact =>
      subst hexact
      exact hy.isNearest.abs_sub_le_of_abs_lt hn (mod_cast hfirst)
    case isFalse =>
      refine hy.isNearest.abs_sub_le_of_abs_lt hn ?_
      push_cast
      linarith [abs_sub_le (rank (u * v)) (rank (a * v)) (rank (a * b))]

/-- How many places reading may cost: one if the significand has more bits than a double, and one if
the power of ten is no double. -/
def places (s : ℕ) (e : ℤ) : ℤ :=
  (if s ≤ 2 ^ 53 then 0 else 1) + (if e.natAbs ≤ 22 then 0 else 1)

/-- Exact parts cost nothing, so no more places are lost than are allowed for. -/
theorem places_le {s : ℕ} {e : ℤ} {u v a b : ℚ} (hu : s ≤ 2 ^ 53 → u = a)
    (hv : e.natAbs ≤ 22 → v = b) :
    ((if u = a then 0 else 1) + (if v = b then 0 else 1) : ℤ) ≤ places s e := by
  refine add_le_add ?_ ?_
  · by_cases hs : s ≤ 2 ^ 53
    · rw [if_pos hs, if_pos (hu hs)]
    · rw [if_neg hs]
      split <;> decide
  · by_cases he : e.natAbs ≤ 22
    · rw [if_pos he, if_pos (hv he)]
    · rw [if_neg he]
      split <;> decide

/-- A significand is multiplied by a power of ten if the exponent is not negative. -/
theorem scale_of_nonneg {e : ℤ} {f : Float} (he : e.natAbs ≤ 308) (h : 0 ≤ e)
    (hnormal : IsNormal (f * tenTo e.natAbs)) (fuel : ℕ) :
    scale (fuel + 1) f e = .ok (f * tenTo e.natAbs) := by
  rw [scale, if_pos he, if_pos h]
  simp only [isInf_of_isNormal hnormal]
  rfl

/-- For a negative exponent, a significand is divided by a power of ten. -/
theorem scale_of_neg {e : ℤ} {f : Float} (he : e.natAbs ≤ 308) (h : ¬0 ≤ e) (fuel : ℕ) :
    scale (fuel + 1) f e = .ok (f / tenTo e.natAbs) := by
  rw [scale, if_pos he, if_neg h]

section

variable {u v a b : ℚ} (hua : Near u a) (hvb : Near v b) (hv : 0 < v) (ha : 1 ≤ a)
  (ha' : a ≤ 2 ^ 64) (hb : 1 ≤ b) (hb' : b ≤ 10 ^ 41)

include hua hvb hv ha ha' hb hb'

/-- The significands and the powers of ten that are read are far from both ends of the range, so
their products are within it. -/
theorem inRange_mul_of_near : InRange (u * v) := by
  have hu₁ := hua.le_two_mul
  have hu₂ := hua.symm.le_two_mul
  have hv₁ := hvb.le_two_mul
  have hv₂ := hvb.symm.le_two_mul
  apply inRange_of_le
  · calc (1 : ℚ) / 2 ^ 200 ≤ 1 / 2 * (1 / 2) := by norm_num
      _ ≤ u * v := mul_le_mul (by linarith) (by linarith) (by norm_num) (by linarith)
  · calc u * v ≤ 2 ^ 65 * (2 * 10 ^ 41) :=
        mul_le_mul (by linarith) (by linarith) hv.le (by norm_num)
      _ ≤ 2 ^ 250 := by norm_num

/-- And so are their quotients. -/
theorem inRange_div_of_near : InRange (u / v) := by
  have hu₁ := hua.le_two_mul
  have hu₂ := hua.symm.le_two_mul
  have hv₁ := hvb.le_two_mul
  have hv₂ := hvb.symm.le_two_mul
  apply inRange_of_le
  · calc (1 : ℚ) / 2 ^ 200 ≤ 1 / 2 / (2 * 10 ^ 41) := by norm_num
      _ ≤ u / v := div_le_div₀ (by linarith) (by linarith) hv (by linarith)
  · calc u / v ≤ 2 ^ 65 / (1 / 2) :=
        div_le_div₀ (by norm_num) (by linarith) (by norm_num) (by linarith)
      _ ≤ 2 ^ 250 := by norm_num

end

/-- **A decimal is read as a double within some places of the one it rounds to.** -/
theorem ofParts_of_isNearest {s : ℕ} {e n : ℤ} (hs : 0 < s) (hlt : s < 2 ^ 64)
    (he : e.natAbs ≤ 41) (hn : IsNearest (rank (s * 10 ^ e)) n) :
    ∃ y, ofParts true s e = .ok y ∧ IsNormal y ∧ |(bits y : ℤ) - n| ≤ places s e := by
  obtain ⟨hnormal, hnear, hexact⟩ := toFloat_spec hs hlt
  obtain ⟨hnormal', hnear', hexact'⟩ := tenTo_spec he
  have hsPos : (1 : ℚ) ≤ s := Nat.one_le_cast.2 hs
  have hsLe : (s : ℚ) ≤ 2 ^ 64 := by exact_mod_cast hlt.le
  have htPos : (1 : ℚ) ≤ 10 ^ e.natAbs := one_le_pow₀ (by norm_num)
  have htLe : (10 : ℚ) ^ e.natAbs ≤ 10 ^ 41 := pow_le_pow_right₀ (by norm_num) he
  have hu := value_pos s.toUInt64.toFloat
  have hv := value_pos (tenTo e.natAbs)
  by_cases hsign : 0 ≤ e
  · have hten : (10 : ℚ) ^ e = 10 ^ e.natAbs := by
      rw [← zpow_natCast, Int.natAbs_of_nonneg hsign]
    rw [hten] at hn
    have hrounded := isRounded_mul hnormal hnormal'
      (inRange_mul_of_near hnear hnear' hv hsPos hsLe htPos htLe)
    refine ⟨_, ?_, hrounded.isNormal, (abs_bits_sub_le hu hv (by linarith) (by linarith) hnear
      hnear' hrounded hn).trans (places_le hexact hexact')⟩
    rw [ofParts, scale_of_nonneg (by omega) hsign hrounded.isNormal]
    rfl
  · have hten : (10 : ℚ) ^ e = (10 ^ e.natAbs)⁻¹ := by
      rw [← zpow_natCast, ← zpow_neg]
      congr 1
      omega
    rw [hten] at hn
    have hrounded := isRounded_div hnormal hnormal'
      (inRange_div_of_near hnear hnear' hv hsPos hsLe htPos htLe)
    have hbits := hrounded
    rw [div_eq_mul_inv] at hbits
    refine ⟨_, ?_, hrounded.isNormal, (abs_bits_sub_le hu (inv_pos.2 hv) (by linarith)
      (inv_pos.2 (by linarith)) hnear (hnear'.inv hv (by linarith)) hbits hn).trans
      (places_le hexact fun h ↦ by rw [hexact' h])⟩
    rw [ofParts, scale_of_neg (by omega) hsign]
    rfl

/-! ### What is written -/

/-- The decimal that a normal double is written as. -/
def decimalOf (x : Float) : Decimal := Decimal.shortest .even (mantissa x) (exponent x)

/-- A normal double is taken apart into its mantissa and its exponent. -/
theorem ofBits?_toBits {x : Float} (h : IsNormal x) :
    Decimal.Binary.ofBits? x.toBits = some ⟨false, mantissa x, exponent x⟩ := by
  have hle := h.le
  have hlt := h.lt
  have hsign : bits x / 2 ^ 63 = 0 := Nat.div_eq_of_lt (by omega)
  have hexponent : bits x / 2 ^ 52 % 2048 = bits x / 2 ^ 52 := Nat.mod_eq_of_lt (by omega)
  have hfinite : (bits x / 2 ^ 52 == 2047) = false := by
    rw [beq_eq_false_iff_ne]
    omega
  have hnormal : (bits x / 2 ^ 52 == 0) = false := by
    rw [beq_eq_false_iff_ne]
    omega
  rw [mantissa, exponent]
  simp only [Decimal.Binary.ofBits?, Nat.pow_eq, ← bits.eq_1, hsign, hexponent, hfinite, hnormal]
  rfl

/-- A normal double is printed as its shortest decimal. -/
theorem render_of_isNormal {x : Float} (h : IsNormal x) :
    Layout.summary.render x = Layout.summary.decimal (decimalOf x) := by
  have hmantissa : (mantissa x == 0) = false := by
    have := le_mantissa x
    rw [beq_eq_false_iff_ne]
    omega
  rw [Layout.render, ofBits?_toBits h]
  simp only [hmantissa]
  exact String.empty_append

/-- The zeros that the layout adds do not change the value. -/
theorem scanned_value (d : Decimal) :
    ((scanned d).1 : ℚ) * 10 ^ (scanned d).2 = d.digits * 10 ^ d.exponent := by
  rw [scanned]
  split
  case isTrue h =>
    obtain ⟨k, hk⟩ := Int.eq_ofNat_of_zero_le h.1
    rw [hk, Int.toNat_natCast, zpow_natCast, pow_succ]
    push_cast
    field_simp
  case isFalse => rfl

theorem scanned_pos {d : Decimal} (h : 0 < d.digits) : 0 < (scanned d).1 := by
  rw [scanned]
  split
  · exact Nat.mul_pos h (Nat.pow_pos (by decide))
  · exact h

/-- What is read where a double was written. What is not finite is written as null, and null is no
double. -/
def reread (x : Float) : Option Float :=
  if x.isFinite then
    if x.toBits = 0 then some 0
    else (ofParts true (scanned (decimalOf x)).1 (scanned (decimalOf x)).2).toOption
  else none

/-- How many places reading a double again may cost: none for zero, and otherwise what its decimal
costs. -/
def placesLost (x : Float) : ℤ :=
  if x.toBits = 0 then 0 else places (scanned (decimalOf x)).1 (scanned (decimalOf x)).2

/-- Two places are lost at most. -/
theorem placesLost_le (x : Float) : placesLost x ≤ 2 := by
  rw [placesLost, places]
  split_ifs <;> decide

section

variable {x : Float}

/-- The shortest decimal has the double as its nearest one, and fits in what the reader can hold. -/
theorem decimalOf_spec (hlow : -118 ≤ exponent x) (hhigh : exponent x ≤ 13) :
    IsNearest (rank ((decimalOf x).digits * 10 ^ (decimalOf x).exponent)) (bits x) ∧
      0 < (decimalOf x).digits ∧ (decimalOf x).digits < UInt64.size ∧
      (decimalOf x).exponent.natAbs ≤ 41 := by
  obtain ⟨hrounds, hpos, hle, hk, hk'⟩ :=
    Decimal.shortest_spec .even (le_mantissa x) (mantissa_lt x) hlow hhigh
  have hnearest := hrounds.isNearest (le_mantissa x) (mantissa_lt x)
  rw [← bits_eq] at hnearest
  exact ⟨hnearest, hpos, lt_of_le_of_lt hle (by decide), by rw [decimalOf]; omega⟩

theorem scanned_exponent {d : Decimal} (h : d.exponent.natAbs ≤ 41) :
    (scanned d).2.natAbs ≤ 41 := by
  rw [scanned]
  split
  · exact (by decide : (-1 : ℤ).natAbs ≤ 41)
  · exact h

/-- Reading its parts again gives a double that is some places away at most. -/
theorem exists_ofParts (hlow : -118 ≤ exponent x) (hhigh : exponent x ≤ 13) :
    ∃ y, ofParts true (scanned (decimalOf x)).1 (scanned (decimalOf x)).2 = .ok y ∧ IsNormal y ∧
      |(bits y : ℤ) - bits x| ≤ places (scanned (decimalOf x)).1 (scanned (decimalOf x)).2 := by
  obtain ⟨hnearest, hpos, hlt, hk⟩ := decimalOf_spec hlow hhigh
  rw [← scanned_value] at hnearest
  exact ofParts_of_isNearest (scanned_pos hpos) (scanned_lt hlt) (scanned_exponent hk) hnearest

theorem toBits_ne_zero_of_isNormal (h : IsNormal x) : x.toBits ≠ 0 := by
  intro hzero
  have hle := h.le
  rw [bits, hzero] at hle
  exact absurd hle (by decide)

/-- A normal double is read again from the parts of its decimal. -/
theorem reread_of_isNormal (h : IsNormal x) :
    reread x = (ofParts true (scanned (decimalOf x)).1 (scanned (decimalOf x)).2).toOption := by
  rw [reread, if_pos (isFinite_of_isNormal h), if_neg (toBits_ne_zero_of_isNormal h)]

/-- **What is read where a normal double was written is within some places of it.** -/
theorem exists_reread (h : IsNormal x) (hlow : -118 ≤ exponent x) (hhigh : exponent x ≤ 13) :
    ∃ y, reread x = some y ∧ |(bits y : ℤ) - bits x| ≤ placesLost x := by
  obtain ⟨y, hy, -, hbits⟩ := exists_ofParts hlow hhigh
  rw [reread_of_isNormal h, hy, placesLost, if_neg (toBits_ne_zero_of_isNormal h)]
  exact ⟨y, rfl, hbits⟩

/-- A double is read again exactly if it is finite. -/
theorem isSome_reread (h : IsQuotient x) : (reread x).isSome = x.isFinite := by
  cases h with
  | zero h =>
    subst h
    rfl
  | normal h hlow hhigh =>
    obtain ⟨y, hy, -⟩ := exists_reread h hlow hhigh
    rw [hy, isFinite_of_isNormal h]
    rfl
  | infinite h =>
    subst h
    rfl

/-- What is read of a quotient is within the places that may be lost. -/
theorem abs_bits_reread_sub_le (h : IsQuotient x) {y : Float} (hy : reread x = some y) :
    |(bits y : ℤ) - bits x| ≤ placesLost x := by
  cases h with
  | zero h =>
    subst h
    cases hy
    decide
  | normal h hlow hhigh =>
    obtain ⟨y', hy', hbits⟩ := exists_reread h hlow hhigh
    obtain rfl : y' = y := Option.some.inj (hy'.symm.trans hy)
    exact hbits
  | infinite h =>
    subst h
    cases hy

-- a quotient that loses both of the places that it may lose
example : (reread (Series.quotient 39 182660728387650)).map bits =
    some (bits (Series.quotient 39 182660728387650) + 2) := by
  decide +kernel

end

end Crossing.Json
