import Crossing.Proofs.Double.Rank
import Mathlib

/-!
# Rounded arithmetic

Products, quotients and conversions of positive doubles are those of the rationals they stand for,
taken to the nearest rank. This is read off the model of doubles, whose operations shift a mantissa
to the right while two more bits keep what rounding needs to know.

All statements are about numbers well inside the range of normal doubles, so there is neither
underflow nor overflow.

No single file of Mathlib has the lemmas on the model of doubles, so all of it is imported here.
-/

namespace Crossing.Double

open Float.Model
open Float.Model.UnpackedFloat

/-! ### Mantissas with residual bits -/

/-- Whether an extended mantissa tells all that rounding needs to know of a number: its floor,
whether half of a unit is left, and whether there is more. -/
def Holds (em : ExtendedMantissa) (v : ℚ) : Prop :=
  ∃ t : ℚ, 0 ≤ t ∧ t < 1 ∧ v = em.mantissa + (if em.roundBit then 1 else 0) / 2 + t / 2 ∧
    (em.stickyBit ↔ t ≠ 0)

namespace Holds

variable {em : ExtendedMantissa} {v : ℚ}

/-- A mantissa is cut off, not rounded up. -/
theorem le (h : Holds em v) : em.mantissa ≤ v := by
  obtain ⟨t, ht, -, rfl, -⟩ := h
  split <;> linarith

theorem lt (h : Holds em v) : v < em.mantissa + 1 := by
  obtain ⟨t, -, ht, rfl, -⟩ := h
  split <;> linarith

/-- A shift by one bit halves the value: the bit that falls out becomes the round bit, and what was
there before goes into the sticky bit. -/
theorem shiftRightOne (h : Holds em v) : Holds em.shiftRightOne (v / 2) := by
  obtain ⟨t, ht, ht', rfl, hsticky⟩ := h
  refine ⟨((if em.roundBit then 1 else 0) + t) / 2, ?_, ?_, ?_, ?_⟩
  · split <;> linarith
  · split <;> linarith
  · have hdiv : (em.mantissa : ℚ) = 2 * (em.mantissa / 2 : ℕ) + (em.mantissa % 2 : ℕ) := by
      exact_mod_cast (Nat.div_add_mod em.mantissa 2).symm
    rw [hdiv, ExtendedMantissa.shiftRightOne]
    rcases Nat.mod_two_eq_zero_or_one em.mantissa with h | h
    · simp [h]
      ring
    · simp [h]
      ring
  · rw [ExtendedMantissa.shiftRightOne, Bool.or_eq_true, hsticky]
    cases em.roundBit with
    | false => simp
    | true => simp; linarith

/-- A shift by `n` bits divides the value by `2 ^ n`, with nothing lost for rounding. -/
theorem shiftRight (h : Holds em v) (n : ℕ) : Holds (em >>> n) (v / 2 ^ n) := by
  induction n with
  | zero =>
    rw [pow_zero, div_one]
    exact h
  | succ n ih =>
    rw [pow_succ, ← div_div]
    exact ih.shiftRightOne

/-- The rounded mantissa is the nearest integer: the residual bits tell what is below one half from
what is above it. -/
theorem isNearest (h : Holds em v) : IsNearest v em.roundedMantissa := by
  obtain ⟨m, r, s⟩ := em
  obtain ⟨t, ht, ht', rfl, hsticky⟩ := h
  cases r with
  | false =>
    have hdown : (⟨m, false, s⟩ : ExtendedMantissa).roundedMantissa = m := by cases s <;> rfl
    rw [hdown]
    refine .inl ?_
    rw [abs_lt]
    push_cast
    constructor <;> linarith
  | true =>
    cases s with
    | false =>
      obtain rfl : t = 0 := by simpa using hsticky
      have htie : (⟨m, true, false⟩ : ExtendedMantissa).roundedMantissa = m + m % 2 := rfl
      rw [htie]
      refine .inr ?_
      rcases Nat.mod_two_eq_zero_or_one m with hm | hm
      · rw [hm, add_zero]
        simp [Nat.even_iff.2 hm]
      · rw [hm, Int.even_coe_nat, Nat.even_add_one, Nat.not_even_iff, abs_eq (by norm_num)]
        exact ⟨.inr (by push_cast; simp; ring), hm⟩
    | true =>
      have hup : (⟨m, true, true⟩ : ExtendedMantissa).roundedMantissa = m + 1 := rfl
      have hpos : 0 < t := ht.lt_of_ne' (hsticky.1 rfl)
      rw [hup]
      refine .inl ?_
      rw [abs_lt]
      push_cast
      simp only [if_true]
      constructor <;> linarith

end Holds

/-- A natural number holds itself. -/
theorem holds_exact (m : ℕ) : Holds (.ofMantissaAndAccuracy m .exact) m :=
  ⟨0, le_rfl, one_pos, by simp [ExtendedMantissa.ofMantissaAndAccuracy],
    by simp [ExtendedMantissa.ofMantissaAndAccuracy]⟩

/-- A quotient with remainder holds the fraction. -/
theorem holds_fraction (a b : ℕ) (hb : 0 < b) :
    Holds (.ofMantissaAndAccuracy (a / b) (accuracyOfFraction (a % b) b)) (a / b : ℚ) := by
  have hbq : (0 : ℚ) < b := Nat.cast_pos.2 hb
  have hdiv : (a : ℚ) / b = (a / b : ℕ) + (a % b : ℕ) / b := by
    have hsplit : (b : ℚ) * (a / b : ℕ) + (a % b : ℕ) = a := by exact_mod_cast Nat.div_add_mod a b
    field_simp
    linarith
  have hlt : ((a % b : ℕ) : ℚ) < b := Nat.cast_lt.2 (Nat.mod_lt a hb)
  rw [accuracyOfFraction, hdiv]
  split_ifs with hzero
  · rw [hzero, Nat.cast_zero, zero_div, add_zero]
    exact holds_exact _
  · have hpos : (0 : ℚ) < (a % b : ℕ) := Nat.cast_pos.2 (Nat.pos_of_ne_zero hzero)
    rcases hcompare : compare (2 * (a % b)) b with - | - | -
    · have hhalf : 2 * ((a % b : ℕ) : ℚ) < b := by exact_mod_cast compare_lt_iff_lt.1 hcompare
      refine ⟨2 * (a % b : ℕ) / b, by positivity, by rwa [div_lt_one hbq], ?_, ?_⟩
      · simp [ExtendedMantissa.ofMantissaAndAccuracy]
        ring
      · simp [ExtendedMantissa.ofMantissaAndAccuracy, hpos.ne', hbq.ne']
    · have hhalf : 2 * ((a % b : ℕ) : ℚ) = b := by exact_mod_cast compare_eq_iff_eq.1 hcompare
      refine ⟨0, le_rfl, one_pos, ?_, ?_⟩
      · simp [ExtendedMantissa.ofMantissaAndAccuracy]
        field_simp
        linarith
      · simp [ExtendedMantissa.ofMantissaAndAccuracy]
    · have hhalf : (b : ℚ) < 2 * ((a % b : ℕ) : ℚ) := by
        exact_mod_cast compare_gt_iff_gt.1 hcompare
      refine ⟨2 * (a % b : ℕ) / b - 1, ?_, ?_, ?_, ?_⟩
      · rw [sub_nonneg, one_le_div hbq]
        exact hhalf.le
      · rw [sub_lt_iff_lt_add, div_lt_iff₀ hbq]
        linarith
      · simp [ExtendedMantissa.ofMantissaAndAccuracy]
        ring
      · simp [ExtendedMantissa.ofMantissaAndAccuracy, sub_eq_zero, div_eq_iff hbq.ne']
        exact hhalf.ne'

/-! ### Shifting to the exponent of a binade -/

theorem mantissa_ofMantissaAndAccuracy (m : ℕ) (acc : Accuracy) :
    (ExtendedMantissa.ofMantissaAndAccuracy m acc).mantissa = m := by
  rcases acc with - | - | - | - <;> rfl

/-- The exponent is chosen so that 53 bits are left, unless it would be too small. -/
theorem targetExponent_totalExponent (m : ℕ) (e : ℤ) :
    Format.binary64.targetExponent (totalExponent m e) = max (m.log2 + e - 52) (-1074) := by
  rw [Format.targetExponent, totalExponent, Format.minExponent, Format.mantissaBits]
  norm_num
  ring_nf

section

variable {m : ℕ} {e : ℤ} {acc : Accuracy} {v : ℚ}

/-- The binade of a value can be read off from the length of its mantissa. -/
theorem binade_of_holds (h : Holds (.ofMantissaAndAccuracy m acc) v) (hm : 0 < m) :
    binade (v * 2 ^ e) = m.log2 + e - 52 := by
  have hpow (c : ℕ) (d : ℤ) (hcd : c + d = m.log2 + e) :
      (2 : ℚ) ^ c * 2 ^ d = 2 ^ m.log2 * 2 ^ e := by
    rw [← zpow_natCast, ← zpow_natCast, ← zpow_add₀ two_ne_zero, ← zpow_add₀ two_ne_zero, hcd]
  have hle : (m : ℚ) ≤ v := mantissa_ofMantissaAndAccuracy m acc ▸ h.le
  have hlt : v < (m : ℚ) + 1 := mantissa_ofMantissaAndAccuracy m acc ▸ h.lt
  have hlow : (2 : ℚ) ^ m.log2 ≤ m := by exact_mod_cast Nat.log2_self_le hm.ne'
  have hhigh : (m : ℚ) + 1 ≤ 2 * 2 ^ m.log2 := by
    rw [← pow_succ']
    exact_mod_cast Nat.lt_log2_self
  have hpos := two_zpow_pos e
  refine binade_eq ?_ ?_
  · rw [hpow 52 _ (by push_cast; ring)]
    gcongr
    exact hlow.trans hle
  · rw [pow_succ, mul_right_comm, hpow 52 _ (by push_cast; ring), mul_right_comm]
    gcongr
    linarith

/-- After the shift, the mantissa holds the value in units of its binade. -/
theorem shiftToTargetExponent_holds (h : Holds (.ofMantissaAndAccuracy m acc) v) (hm : 0 < m)
    (hnormal : -1074 ≤ binade (v * 2 ^ e)) (hshift : e ≤ binade (v * 2 ^ e)) :
    Holds (shiftToTargetExponent .binary64 m e acc).1 (v * 2 ^ e / 2 ^ binade (v * 2 ^ e)) ∧
      (shiftToTargetExponent .binary64 m e acc).2 = binade (v * 2 ^ e) := by
  have hbinade := binade_of_holds (e := e) h hm
  have htarget : Format.binary64.targetExponent (totalExponent m e) = binade (v * 2 ^ e) := by
    rw [targetExponent_totalExponent, ← hbinade, max_eq_left hnormal]
  rw [shiftToTargetExponent, htarget, shiftToExponent]
  generalize binade (v * 2 ^ e) = q at *
  obtain ⟨k, rfl⟩ := Int.le.dest hshift
  rw [show (e + k - e).toNat = k by omega]
  refine ⟨?_, rfl⟩
  have hscale : v * 2 ^ e / 2 ^ (e + k) = v / 2 ^ k := by
    rw [zpow_add₀ two_ne_zero, zpow_natCast]
    field_simp
  rw [hscale]
  exact h.shiftRight k

end

/-- A mantissa that fits is left alone. -/
theorem shiftToTargetExponent_of_lt {m : ℕ} {q : ℤ} (hle : 2 ^ 52 ≤ m) (hlt : m < 2 ^ 53)
    (hq : -1074 ≤ q) :
    shiftToTargetExponent .binary64 m q .exact = (⟨m, false, false⟩, q) := by
  have hlog : m.log2 = 52 := (Nat.log2_eq_iff (by omega)).2 ⟨hle, hlt⟩
  rw [shiftToTargetExponent, targetExponent_totalExponent, hlog, shiftToExponent]
  rw [show (max (((52 : ℕ) : ℤ) + q - 52) (-1074) - q).toNat = 0 by push_cast; omega]
  exact Prod.ext rfl (add_zero q)

/-- A mantissa that was rounded up to a power of two starts the next binade. -/
theorem shiftToTargetExponent_two_pow {q : ℤ} (hq : -1074 ≤ q) :
    shiftToTargetExponent .binary64 (2 ^ 53) q .exact = (⟨2 ^ 52, false, false⟩, q + 1) := by
  rw [shiftToTargetExponent, targetExponent_totalExponent, Nat.log2_two_pow, shiftToExponent]
  rw [show (max (((53 : ℕ) : ℤ) + q - 52) (-1074) - q).toNat = 1 by push_cast; omega]
  rfl

/-! ### Bits -/

/-- The bits of a positive double are those of its exponent and its mantissa, side by side. -/
theorem toNat_packComponents (e : BitVec 11) (m : BitVec 52) :
    (packComponents .binary64 .positive e m).toNat = e.toNat * 2 ^ 52 + m.toNat := by
  rw [packComponents, BitVec.toNat_append, BitVec.toNat_append, Sign.toBitVec]
  rw [← Nat.shiftLeft_add_eq_or_of_lt m.isLt, Nat.shiftLeft_eq]
  simp

/-- As a number, the bits of a normal double are its rank. -/
theorem toNat_pack {m : ℕ} {q : ℤ} (hle : 2 ^ 52 ≤ m) (hlt : m < 2 ^ 53) (hlow : -1074 ≤ q)
    (hhigh : q ≤ 971) (hm : 0 < m) :
    ((UnpackedFloat.pack .binary64 (.finite .positive m q hm)).toNat : ℤ) =
      (q + 1074) * 2 ^ 52 + m := by
  have hlog : m.log2 = 52 := (Nat.log2_eq_iff (by omega)).2 ⟨hle, hlt⟩
  obtain ⟨k, hk⟩ := Int.le.dest hlow
  obtain rfl : q = k - 1074 := by omega
  have hbiased : ((k : ℤ) - 1074 + Format.binary64.exponentBias +
      Format.binary64.mantissaBitsWithoutImplicit).toNat = k + 1 := by
    rw [Format.exponentBias]
    norm_num
    omega
  rw [UnpackedFloat.pack, hlog, hbiased, if_neg (by norm_num; omega),
    if_pos (by decide), toNat_packComponents, BitVec.toNat_ofNat, BitVec.toNat_ofNat]
  norm_num
  omega

/-- The double of a mantissa that needs no more rounding. -/
def finite? (r : ExtendedMantissa × ℤ) : UnpackedFloat :=
  if h : r.1.mantissa = 0 then .zero .positive
  else .finite .positive r.1.mantissa r.2 (Nat.pos_of_ne_zero h)

/-- A mantissa that was rounded up to the next binade is packed right too. -/
theorem toNat_pack_shifted {m : ℕ} {q : ℤ} (hle : 2 ^ 52 ≤ m) (hle' : m ≤ 2 ^ 53) (hlow : -1074 ≤ q)
    (hhigh : q ≤ 970) :
    ((UnpackedFloat.pack .binary64
      (finite? (shiftToTargetExponent .binary64 m q .exact))).toNat : ℤ) =
      (q + 1074) * 2 ^ 52 + m := by
  rcases hle'.lt_or_eq with hlt | rfl
  · rw [shiftToTargetExponent_of_lt hle hlt hlow, finite?, dif_neg (by dsimp only; omega),
      toNat_pack hle hlt hlow (by omega)]
  · rw [shiftToTargetExponent_two_pow hlow, finite?, dif_neg (by norm_num),
      toNat_pack le_rfl (by norm_num) (by omega) (by omega)]
    push_cast
    ring

/-- The bits of the double that a number is rounded to are nearest to its rank. -/
theorem isNearest_roundWithAccuracy {m : ℕ} {e : ℤ} {acc : Accuracy} {v : ℚ}
    (h : Holds (.ofMantissaAndAccuracy m acc) v) (hm : 0 < m)
    (hshift : e ≤ binade (v * 2 ^ e)) (hlow : -1074 ≤ binade (v * 2 ^ e))
    (hhigh : binade (v * 2 ^ e) ≤ 970) :
    let n := (UnpackedFloat.pack .binary64 (roundWithAccuracy .binary64 .positive m e acc)).toNat
    IsNearest (rank (v * 2 ^ e)) n ∧ 2 ^ 52 ≤ n ∧ n < 2047 * 2 ^ 52 := by
  intro n
  obtain ⟨hholds, hexponent⟩ := shiftToTargetExponent_holds h hm hlow hshift
  have hv : 0 < v * 2 ^ e := by
    have hle := h.le
    rw [mantissa_ofMantissaAndAccuracy] at hle
    exact mul_pos (lt_of_lt_of_le (Nat.cast_pos.2 hm) hle) (two_zpow_pos e)
  have hround : roundWithAccuracy .binary64 .positive m e acc =
      let first := shiftToTargetExponent .binary64 m e acc
      finite? (shiftToTargetExponent .binary64 first.1.roundedMantissa first.2 .exact) := rfl
  have hle := le_of_binade hv
  have hlt := lt_of_binade (v * 2 ^ e)
  rw [rank, line]
  generalize binade (v * 2 ^ e) = q at *
  generalize v * 2 ^ e = w at *
  have hpos := two_zpow_pos q
  have hnearest := hholds.isNearest
  have hmantissa := abs_le.1 hnearest.abs_sub_le_half
  -- the rounded mantissa is between the ends of the binade, the upper one included
  have hfloor : (2 : ℚ) ^ 52 ≤ w / 2 ^ q := by rwa [le_div_iff₀ hpos]
  have hceil : w / 2 ^ q < 2 ^ 53 := by rwa [div_lt_iff₀ hpos]
  dsimp only at hround
  rw [hexponent] at hround
  generalize (shiftToTargetExponent .binary64 m e acc).1.roundedMantissa = k at *
  push_cast at hmantissa
  have hk : 2 ^ 52 ≤ k := by
    have hcast : (2 : ℚ) ^ 52 < k + 1 := by linarith
    exact Nat.lt_succ_iff.1 (by exact_mod_cast hcast)
  have hk' : k ≤ 2 ^ 53 := by
    have hcast : (k : ℚ) < 2 ^ 53 + 1 := by linarith
    exact Nat.lt_succ_iff.1 (by exact_mod_cast hcast)
  have hn : (n : ℤ) = (q + 1074) * 2 ^ 52 + k := by
    rw [show n = _ from congrArg (fun u ↦ (UnpackedFloat.pack .binary64 u).toNat) hround]
    exact toNat_pack_shifted hk hk' hlow hhigh
  have heven : Even ((q + 1074) * 2 ^ 52) := (Int.even_pow.2 ⟨even_two, by norm_num⟩).mul_left _
  refine ⟨?_, by omega, by omega⟩
  rw [hn]
  have hshifted := hnearest.add_even heven
  push_cast at hshifted
  exact hshifted

/-! ### Normal doubles -/

/-- The bits of a double as a number. -/
def bits (x : Float) : ℕ := x.toBits.toNat

/-- A positive normal double. -/
structure IsNormal (x : Float) : Prop where
  le : 2 ^ 52 ≤ bits x
  lt : bits x < 2047 * 2 ^ 52

/-- The mantissa of a normal double. -/
def mantissa (x : Float) : ℕ := 2 ^ 52 + bits x % 2 ^ 52

/-- The exponent of a normal double. -/
def exponent (x : Float) : ℤ := (bits x / 2 ^ 52 : ℕ) - 1075

/-- The number that a positive normal double stands for. -/
def value (x : Float) : ℚ := mantissa x * 2 ^ exponent x

section

variable {x y : Float}

theorem le_mantissa (x : Float) : 2 ^ 52 ≤ mantissa x := Nat.le_add_right _ _

theorem mantissa_lt (x : Float) : mantissa x < 2 ^ 53 := by
  rw [mantissa]
  omega

/-- A mantissa has its first bit set, so no value is zero. -/
theorem value_pos (x : Float) : 0 < value x :=
  mul_pos (Nat.cast_pos.2 (lt_of_lt_of_le (by norm_num) (le_mantissa x))) (two_zpow_pos _)

theorem binade_value (x : Float) : binade (value x) = exponent x := by
  have hpos := two_zpow_pos (exponent x)
  have hle : (2 : ℚ) ^ 52 ≤ mantissa x := by exact_mod_cast le_mantissa x
  have hlt : (mantissa x : ℚ) < 2 ^ 53 := by exact_mod_cast mantissa_lt x
  exact binade_eq (mul_le_mul_of_nonneg_right hle hpos.le) (mul_lt_mul_of_pos_right hlt hpos)

/-- The bits of a double, by its exponent and its mantissa. -/
theorem bits_eq (x : Float) : (bits x : ℤ) = (exponent x + 1074) * 2 ^ 52 + mantissa x := by
  rw [exponent, mantissa]
  push_cast
  omega

/-- The rank of a normal double is its bits. -/
theorem rank_value (x : Float) : rank (value x) = bits x := by
  have hbits : ((bits x : ℤ) : ℚ) = (exponent x + 1074) * 2 ^ 52 + mantissa x := by
    rw [bits_eq]
    push_cast
    rfl
  rw [Int.cast_natCast] at hbits
  rw [rank, binade_value, line, hbits, value, mul_div_cancel_right₀ _ (two_zpow_pos _).ne']

/-- The mantissa is in the lowest 52 bits. -/
theorem toNat_unpackMantissa (b : BitVec 64) :
    (@unpackMantissa .binary64 b).toNat = b.toNat % 2 ^ 52 := by
  rw [unpackMantissa, BitVec.toNat_cast, BitVec.extractLsb_toNat]
  simp

theorem toNat_unpackExponent (b : BitVec 64) :
    (@unpackExponent .binary64 b).toNat = b.toNat / 2 ^ 52 % 2 ^ 11 := by
  rw [unpackExponent, BitVec.toNat_cast, BitVec.extractLsb_toNat, Nat.shiftRight_eq_div_pow]
  rfl

theorem toNat_unpackSign (b : BitVec 64) :
    (@unpackSign .binary64 b).toNat = b.toNat / 2 ^ 63 % 2 := by
  rw [unpackSign, BitVec.toNat_cast, BitVec.extractLsb_toNat, Nat.shiftRight_eq_div_pow]
  rfl

/-- A normal double is unpacked into its mantissa and its exponent. -/
theorem unpack_eq (h : IsNormal x) :
    ∃ hm, x.toModel.unpack = .finite .positive (mantissa x) (exponent x) hm := by
  have hle := h.le
  have hlt := h.lt
  have hbits : x.toModel.toBits.toBitVec.toNat = bits x := rfl
  have hm := toNat_unpackMantissa x.toModel.toBits.toBitVec
  have he := toNat_unpackExponent x.toModel.toBits.toBitVec
  have hs := toNat_unpackSign x.toModel.toBits.toBitVec
  rw [hbits] at hm he hs
  have hsign : Sign.ofBitVec (@unpackSign .binary64 x.toModel.toBits.toBitVec) = .positive := by
    rw [Sign.ofBitVec, if_pos (BitVec.eq_of_toNat_eq (by rw [hs]; simp; omega))]
  have hone : (1#1 ++ @unpackMantissa .binary64 x.toModel.toBits.toBitVec).toNat = mantissa x := by
    rw [BitVec.toNat_append, ← Nat.shiftLeft_add_eq_or_of_lt (BitVec.isLt _), hm, mantissa]
    rfl
  have hexponent : ((@unpackExponent .binary64 x.toModel.toBits.toBitVec).toNat : ℤ) -
      (Format.binary64.exponentBias + Format.binary64.mantissaBitsWithoutImplicit) =
        exponent x := by
    rw [he, exponent, Format.exponentBias]
    norm_num
    omega
  refine ⟨lt_of_lt_of_le (by norm_num) (le_mantissa x), ?_⟩
  rw [Float.Model.unpack, UnpackedFloat.unpack]
  dsimp only
  rw [if_neg, if_neg]
  · simp only [hsign, hone, hexponent]
  · intro hzero
    have := congrArg BitVec.toNat hzero
    rw [he] at this
    simp at this
    omega
  · intro hones
    have := congrArg BitVec.toNat hones
    rw [he] at this
    simp at this
    omega

theorem isInf_of_isNormal (h : IsNormal x) : x.isInf = false := by
  obtain ⟨hm, hunpack⟩ := unpack_eq h
  rw [Float.isInf, Float.Model.isInf, hunpack]
  rfl

theorem isFinite_of_isNormal (h : IsNormal x) : x.isFinite = true := by
  obtain ⟨hm, hunpack⟩ := unpack_eq h
  rw [Float.isFinite, Float.Model.isFinite, hunpack]
  rfl

/-! ### Operations -/

/-- Whether a double is what a number is rounded to. -/
structure IsRounded (v : ℚ) (x : Float) : Prop where
  isNormal : IsNormal x
  isNearest : IsNearest (rank v) (bits x)

/-- Whether a number is well inside the range of normal doubles. -/
def InRange (v : ℚ) : Prop := -1000 ≤ binade v ∧ binade v ≤ 900

/-- The range leaves enough room on both sides. -/
theorem inRange_of_le {v : ℚ} (h : 1 / 2 ^ 200 ≤ v) (h' : v ≤ 2 ^ 250) : InRange v := by
  have hlow : (2 : ℚ) ^ 52 * 2 ^ (-252 : ℤ) ≤ v := by
    refine le_trans (le_of_eq ?_) h
    norm_num
  have hhigh : v < 2 ^ 53 * 2 ^ (250 : ℤ) := by
    refine lt_of_le_of_lt h' ?_
    norm_num
  have hpos : 0 < v := lt_of_lt_of_le (by positivity) h
  have h₁ := le_binade hlow
  have h₂ := binade_le hpos hhigh
  exact ⟨by omega, by omega⟩

/-- A double whose bits are a rounded mantissa is the rounded number. -/
theorem isRounded_of_bits {m : ℕ} {e : ℤ} {acc : Accuracy} {v w : ℚ}
    (h : Holds (.ofMantissaAndAccuracy m acc) v) (hm : 0 < m) (hw : v * 2 ^ e = w)
    (hrange : InRange w) (hshift : e ≤ binade w)
    (hbits : bits x = (UnpackedFloat.pack .binary64
      (roundWithAccuracy .binary64 .positive m e acc)).toNat) : IsRounded w x := by
  obtain ⟨hlow, hhigh⟩ := hrange
  subst hw
  obtain ⟨hnearest, hle, hlt⟩ :=
    isNearest_roundWithAccuracy h hm hshift (by omega) (by omega)
  rw [← hbits] at hnearest hle hlt
  exact ⟨⟨hle, hlt⟩, hnearest⟩

/-- The product of two doubles is the exact one, rounded. -/
theorem isRounded_mul (hx : IsNormal x) (hy : IsNormal y) (hrange : InRange (value x * value y)) :
    IsRounded (value x * value y) (x * y) := by
  obtain ⟨hm, hux⟩ := unpack_eq hx
  obtain ⟨hm', huy⟩ := unpack_eq hy
  have hvalue : ((mantissa x * mantissa y : ℕ) : ℚ) * 2 ^ (exponent x + exponent y) =
      value x * value y := by
    rw [value, value, zpow_add₀ two_ne_zero]
    push_cast
    ring
  refine isRounded_of_bits (holds_exact _) (Nat.mul_pos hm hm') hvalue hrange ?_ ?_
  · have hle : 2 ^ 52 ≤ mantissa x * mantissa y :=
      (le_mantissa x).trans (Nat.le_mul_of_pos_right _ hm')
    rw [← hvalue]
    exact le_binade (mul_le_mul_of_nonneg_right (by exact_mod_cast hle) (two_zpow_pos _).le)
  · show (UnpackedFloat.pack .binary64
      (UnpackedFloat.mul .binary64 x.toModel.unpack y.toModel.unpack)).toNat = _
    rw [hux, huy]
    rfl

/-- A normal mantissa has 53 bits. -/
theorem log2_mantissa (x : Float) : (mantissa x).log2 = 52 :=
  (Nat.log2_eq_iff (by have := le_mantissa x; omega)).2 ⟨le_mantissa x, mantissa_lt x⟩

/-- Quotients of mantissas are taken with 53 more bits. -/
theorem divCore_mantissa (h : -1000 ≤ exponent x - exponent y) :
    divCore .binary64 (mantissa x) (exponent x) (mantissa y) (exponent y) =
      (mantissa x <<< 53 / mantissa y, exponent x - exponent y - 53,
        accuracyOfFraction (mantissa x <<< 53 % mantissa y) (mantissa y)) := by
  have htarget : min (exponent x - exponent y) (Format.binary64.targetExponent
      (totalExponent (mantissa x) (exponent x) - totalExponent (mantissa y) (exponent y))) =
        exponent x - exponent y - 53 := by
    rw [totalExponent, totalExponent, log2_mantissa, log2_mantissa, Format.targetExponent,
      Format.minExponent, Format.mantissaBits]
    norm_num
    omega
  rw [divCore, htarget, show (exponent x - exponent y - (exponent x - exponent y - 53)).toNat = 53
    by omega]

/-- The quotient of two doubles is the exact one, rounded. -/
theorem isRounded_div (hx : IsNormal x) (hy : IsNormal y) (hrange : InRange (value x / value y)) :
    IsRounded (value x / value y) (x / y) := by
  obtain ⟨hm, hux⟩ := unpack_eq hx
  obtain ⟨hm', huy⟩ := unpack_eq hy
  have hpos : (0 : ℚ) < mantissa y := Nat.cast_pos.2 hm'
  have hlow : (2 : ℚ) ^ 52 ≤ mantissa x := by exact_mod_cast le_mantissa x
  have hhigh : (mantissa y : ℚ) < 2 ^ 53 := by exact_mod_cast mantissa_lt y
  have hvalue : ((mantissa x <<< 53 : ℕ) : ℚ) / mantissa y * 2 ^ (exponent x - exponent y - 53) =
      value x / value y := by
    rw [value, value, zpow_sub₀ two_ne_zero, zpow_sub₀ two_ne_zero, Nat.shiftLeft_eq]
    push_cast
    field_simp
  have hbinade : exponent x - exponent y - 53 ≤ binade (value x / value y) := by
    rw [← hvalue]
    refine le_binade (mul_le_mul_of_nonneg_right ?_ (two_zpow_pos _).le)
    rw [le_div_iff₀ hpos, Nat.shiftLeft_eq]
    push_cast
    nlinarith
  -- the quotient of two mantissas is less than two, so the exponents alone stay in range
  have hbinade' : binade (value x / value y) ≤ exponent x - exponent y - 52 := by
    refine binade_le (div_pos (value_pos x) (value_pos y)) ?_
    have hlow' : (2 : ℚ) ^ 52 ≤ mantissa y := by exact_mod_cast le_mantissa y
    have hhigh' : (mantissa x : ℚ) < 2 ^ 53 := by exact_mod_cast mantissa_lt x
    rw [← hvalue, show exponent x - exponent y - 52 = exponent x - exponent y - 53 + 1 by ring,
      two_zpow_succ, ← mul_assoc]
    refine mul_lt_mul_of_pos_right ?_ (two_zpow_pos _)
    rw [div_lt_iff₀ hpos, Nat.shiftLeft_eq]
    push_cast
    nlinarith
  have hcore := divCore_mantissa (by have := hrange.1; omega : -1000 ≤ exponent x - exponent y)
  refine isRounded_of_bits (holds_fraction _ _ hm') ?_ hvalue hrange hbinade ?_
  · refine Nat.div_pos ?_ hm'
    rw [Nat.shiftLeft_eq]
    exact (mantissa_lt y).le.trans (Nat.le_mul_of_pos_left _ hm)
  · show (UnpackedFloat.pack .binary64
      (UnpackedFloat.div .binary64 x.toModel.unpack y.toModel.unpack)).toNat = _
    rw [hux, huy, UnpackedFloat.div, hcore]
    rfl

/-- The binade of a number can be read off from its length. -/
theorem binade_natCast {n : ℕ} (hn : 0 < n) : binade n = n.log2 - 52 := by
  have h := binade_of_holds (e := 0) (holds_exact n) hn
  rwa [zpow_zero, mul_one, add_zero] at h

/-- A word is rounded when it becomes a double. -/
theorem isRounded_toFloat {n : UInt64} (hn : 0 < n.toNat) : IsRounded n.toNat n.toFloat := by
  have hbinade := binade_natCast hn
  have hlog : n.toNat.log2 < 64 := (Nat.log2_lt hn.ne').2 n.toNat_lt
  have hbits : bits n.toFloat = (UnpackedFloat.pack .binary64
      (UnpackedFloat.round .binary64 .positive n.toNat 0)).toNat := by
    show (UnpackedFloat.pack .binary64
      (UnpackedFloat.normalize .binary64 n.toNat 0 .positive)).toNat = _
    rw [UnpackedFloat.normalize, compare_gt_iff_gt.2 (by omega : (n.toNat : ℤ) > 0),
      Int.toNat_natCast]
  have htarget : Format.binary64.targetExponent (totalExponent n.toNat 0) = n.toNat.log2 - 52 := by
    rw [targetExponent_totalExponent]
    omega
  rw [UnpackedFloat.round, htarget, decreaseExponent] at hbits
  dsimp only at hbits
  refine isRounded_of_bits (holds_exact _) ?_ ?_ ⟨by omega, by omega⟩ ?_ hbits
  · rw [Nat.shiftLeft_eq]
    positivity
  · generalize (0 - ((n.toNat.log2 : ℤ) - 52)).toNat = k
    rw [Nat.shiftLeft_eq, zero_sub, zpow_neg, zpow_natCast]
    push_cast
    rw [mul_assoc, mul_inv_cancel₀ (by positivity), mul_one]
  · omega

/-- The first double of a binade has a rank without a fraction. -/
theorem rank_two_pow (q : ℤ) : rank (2 ^ 52 * 2 ^ q) = ((q + 1075) * 2 ^ 52 : ℤ) := by
  have hpos := two_zpow_pos q
  rw [rank_eq_line le_rfl (by linarith), line, mul_div_cancel_right₀ _ hpos.ne']
  push_cast
  ring

/-- To round a number is to stay in its binade, or to go to the end of it. -/
theorem IsRounded.value_mem {v : ℚ} (h : IsRounded v x) (hv : 0 < v) :
    2 ^ 52 * 2 ^ binade v ≤ value x ∧ value x ≤ 2 ^ 53 * 2 ^ binade v := by
  have hpos := two_zpow_pos (binade v)
  have hnearest := abs_le.1 h.isNearest.abs_sub_le_half
  have hstart := rank_two_pow (binade v)
  have hend := rank_two_pow (binade v + 1)
  rw [two_zpow_succ, ← mul_assoc, ← pow_succ] at hend
  have hle := rank_le_rank (mul_pos (by norm_num) hpos) (le_of_binade hv)
  have hlt := rank_lt_rank hv (lt_of_binade v)
  rw [hstart] at hle
  rw [hend] at hlt
  -- the ranks of the ends are integers, so the nearest integer is between them
  have hbits : (binade v + 1075) * 2 ^ 52 ≤ bits x := by
    have : (((binade v + 1075) * 2 ^ 52 : ℤ) : ℚ) < ((bits x + 1 : ℤ) : ℚ) := by
      push_cast at hnearest hle ⊢
      linarith
    exact Int.lt_add_one_iff.1 (by exact_mod_cast this)
  have hbits' : (bits x : ℤ) ≤ (binade v + 1 + 1075) * 2 ^ 52 := by
    have : ((bits x : ℤ) : ℚ) < (((binade v + 1 + 1075) * 2 ^ 52 + 1 : ℤ) : ℚ) := by
      push_cast at hnearest hlt ⊢
      linarith
    exact Int.lt_add_one_iff.1 (by exact_mod_cast this)
  constructor
  · by_contra! hlt
    have hrank := rank_lt_rank (value_pos x) hlt
    rw [rank_value, hstart] at hrank
    exact absurd hbits (not_le.2 (by exact_mod_cast hrank))
  · by_contra! hlt
    have hrank := rank_lt_rank (mul_pos (by norm_num) hpos) hlt
    rw [rank_value, hend] at hrank
    exact absurd hbits' (not_le.2 (by exact_mod_cast hrank))

/-- A value is near the double that it is rounded to. -/
theorem IsRounded.near {v : ℚ} (h : IsRounded v x) (hv : 0 < v) : Near (value x) v := by
  have hpos := two_zpow_pos (binade v)
  obtain ⟨hle, hle'⟩ := h.value_mem hv
  have hgap : |value x - v| ≤ 2 ^ binade v / 2 := by
    have hnearest := h.isNearest.abs_sub_le_half
    rw [Int.cast_natCast, ← rank_value x, rank_eq_line hle hle', rank, line_sub_line, abs_div,
      abs_of_pos hpos, div_le_iff₀ hpos, abs_sub_comm] at hnearest
    linarith
  have hbinade := le_of_binade hv
  exact ⟨by linarith, by linarith⟩

/-- A number that is a double is not changed by rounding. -/
theorem IsRounded.value_eq {v : ℚ} (h : IsRounded v x) (hv : 0 < v) {n : ℤ} (hn : rank v = n) :
    value x = v := by
  have hbits : (bits x : ℤ) = n := h.isNearest.eq (.inl (by simp [hn]))
  refine eq_of_rank_eq (value_pos x) hv ?_
  rw [rank_value, hn, ← hbits, Int.cast_natCast]

/-- Up to 53 bits at any exponent make a double. -/
theorem exists_rank_eq {m : ℕ} (hm : 0 < m) (hle : m ≤ 2 ^ 53) (j : ℤ) :
    ∃ n : ℤ, rank (m * 2 ^ j) = n := by
  have hmq : (0 : ℚ) < m := Nat.cast_pos.2 hm
  rcases hle.lt_or_eq with hlt | rfl
  · have hbinade : binade (m * 2 ^ j) ≤ j :=
      binade_le (mul_pos hmq (two_zpow_pos j))
        (mul_lt_mul_of_pos_right (by exact_mod_cast hlt) (two_zpow_pos j))
    obtain ⟨k, hk⟩ := Int.le.dest hbinade
    refine ⟨(binade (m * 2 ^ j) + 1074) * 2 ^ 52 + m * 2 ^ k, ?_⟩
    rw [rank, line]
    generalize binade (m * 2 ^ j) = q at *
    rw [← hk, zpow_add₀ two_ne_zero, zpow_natCast]
    have hq := (two_zpow_pos q).ne'
    push_cast
    field_simp
    norm_num
  · exact ⟨_, by rw [Nat.cast_pow, Nat.cast_two, pow_succ, mul_assoc, ← two_zpow_succ,
      rank_two_pow]⟩

end

end Crossing.Double
