import Crossing.Proofs.Double.Quotient
import Crossing.Proofs.Double.TotalOrder

/-!
# The least, the middle and the greatest sample

Quotients of words are ordered as numbers as they are in the total order (`compare_eq`). So once
samples are sorted, the least of them, which is found by comparing numbers, is the first, and the
greatest is the last.

Numbers are compared by their components, and places by their bits. For normal doubles this is the
same, since a mantissa never reaches the next exponent (`then_compare_eq`), and zero and infinity
are at the ends of both orders (`compare_ends_of_isNormal`). There is no other quotient; in
particular none is not a number, where the two orders would differ.
-/

namespace Crossing.Double

open Float.Model
open Series (lesser greater reduce)

variable {x y : Float} {xs : List Float}

/-! ### Order -/

/-- A normal double is a number. -/
theorem isNaN_of_isNormal (h : IsNormal x) : ¬x.isNaN = true := by
  obtain ⟨_, hunpack⟩ := unpack_eq h
  rw [Float.isNaN, Float.Model.isNaN, hunpack]
  nofun

theorem isNaN_of_isQuotient (h : IsQuotient x) : ¬x.isNaN = true := by
  cases h with
  | zero h =>
    subst h
    decide
  | normal h => exact isNaN_of_isNormal h
  | infinite h =>
    subst h
    decide

/-- Exponents come before mantissas, as they do in the bits. -/
theorem then_compare_eq {e e' : ℤ} {m m' : ℕ} (hle : 2 ^ 52 ≤ m) (hlt : m < 2 ^ 53)
    (hle' : 2 ^ 52 ≤ m') (hlt' : m' < 2 ^ 53) :
    (compare e e').then (compare m m') =
      compare ((e + 1074) * 2 ^ 52 + m) ((e' + 1074) * 2 ^ 52 + m') := by
  rcases lt_trichotomy e e' with he | rfl | he
  · rw [compare_lt_iff_lt.2 he]
    exact (compare_lt_iff_lt.2 (by omega)).symm
  · rw [compare_eq_iff_eq.2 rfl, Ordering.eq_then]
    rcases lt_trichotomy m m' with hm | rfl | hm
    · rw [compare_lt_iff_lt.2 hm, compare_lt_iff_lt.2 (by omega)]
    · rw [compare_eq_iff_eq.2 rfl, compare_eq_iff_eq.2 rfl]
    · rw [compare_gt_iff_gt.2 hm, compare_gt_iff_gt.2 (by omega)]
  · rw [compare_gt_iff_gt.2 he]
    exact (compare_gt_iff_gt.2 (by omega)).symm

/-- What is normal is between zero and infinity. -/
theorem compare_ends_of_isNormal (h : IsNormal x) :
    UnpackedFloat.compare (0 : Float).toModel.unpack x.toModel.unpack = some .lt ∧
      UnpackedFloat.compare x.toModel.unpack (0 : Float).toModel.unpack = some .gt ∧
      UnpackedFloat.compare x.toModel.unpack infinity.toModel.unpack = some .lt ∧
      UnpackedFloat.compare infinity.toModel.unpack x.toModel.unpack = some .gt := by
  obtain ⟨_, hunpack⟩ := unpack_eq h
  rw [hunpack]
  exact ⟨rfl, rfl, rfl, rfl⟩

variable [Platform]

/-- Doubles that are numbers have their place from their bits, whatever the platform. -/
theorem place_of_not_isNaN (hx : ¬x.isNaN = true) (hlt : bits x < 2 ^ 63) : place x = bits x := by
  have hbits : (Platform.bits x).toNat = bits x := by rw [Platform.bits, if_neg hx, bits]
  rw [place, hbits, if_pos hlt]

theorem place_zero : place 0 = 0 := place_of_not_isNaN (by decide) (by decide)

theorem place_infinity : place infinity = 2047 * 2 ^ 52 :=
  place_of_not_isNaN (by decide) (by decide)

/-- Normal doubles that are positive stand in the order of their bits. -/
theorem place_of_isNormal (h : IsNormal x) : place x = bits x := by
  have hlt := h.lt
  exact place_of_not_isNaN (isNaN_of_isNormal h) (by omega)

/-- Zero stands before all normal doubles that are positive. -/
theorem place_pos_of_isNormal (h : IsNormal x) : place 0 < place x := by
  have hle := h.le
  rw [place_zero, place_of_isNormal h]
  omega

theorem place_lt_infinity_of_isNormal (h : IsNormal x) : place x < place infinity := by
  have hlt := h.lt
  rw [place_infinity, place_of_isNormal h]
  omega

/-- Doubles compare as their places: exponents decide, and mantissas if these are the same. -/
theorem compare_of_isNormal (hx : IsNormal x) (hy : IsNormal y) :
    UnpackedFloat.compare x.toModel.unpack y.toModel.unpack =
      some (compare (place x) (place y)) := by
  obtain ⟨_, hx'⟩ := unpack_eq hx
  obtain ⟨_, hy'⟩ := unpack_eq hy
  rw [hx', hy', place_of_isNormal hx, place_of_isNormal hy, bits_eq, bits_eq]
  exact congrArg some
    (then_compare_eq (le_mantissa x) (mantissa_lt x) (le_mantissa y) (mantissa_lt y))

/-- **Quotients are ordered as numbers as they are in the total order.** -/
theorem compare_eq (hx : IsQuotient x) (hy : IsQuotient y) :
    UnpackedFloat.compare x.toModel.unpack y.toModel.unpack =
      some (compare (place x) (place y)) := by
  cases hx with
  | zero hx =>
    subst hx
    cases hy with
    | zero hy =>
      subst hy
      rw [place_zero]
      decide
    | normal hy =>
      rw [compare_lt_iff_lt.2 (place_pos_of_isNormal hy)]
      exact (compare_ends_of_isNormal hy).1
    | infinite hy =>
      subst hy
      rw [place_zero, place_infinity]
      decide
  | normal hx =>
    obtain ⟨-, hzero, hinfinity, -⟩ := compare_ends_of_isNormal hx
    cases hy with
    | zero hy =>
      subst hy
      rw [compare_gt_iff_gt.2 (place_pos_of_isNormal hx)]
      exact hzero
    | normal hy => exact compare_of_isNormal hx hy
    | infinite hy =>
      subst hy
      rw [compare_lt_iff_lt.2 (place_lt_infinity_of_isNormal hx)]
      exact hinfinity
  | infinite hx =>
    subst hx
    cases hy with
    | zero hy =>
      subst hy
      rw [place_zero, place_infinity]
      decide
    | normal hy =>
      rw [compare_gt_iff_gt.2 (place_lt_infinity_of_isNormal hy)]
      exact (compare_ends_of_isNormal hy).2.2.2
    | infinite hy =>
      subst hy
      rw [place_infinity]
      decide

theorem lt_iff_place_lt (hx : IsQuotient x) (hy : IsQuotient y) : x < y ↔ place x < place y := by
  rw [lt_iff_compare, compare_eq hx hy, Option.some_inj, compare_lt_iff_lt]

theorem le_iff_place_le (hx : IsQuotient x) (hy : IsQuotient y) : x ≤ y ↔ place x ≤ place y := by
  show decide (UnpackedFloat.le x.toModel.unpack y.toModel.unpack = true) = true ↔ _
  rw [decide_eq_true_iff, UnpackedFloat.le, compare_eq hx hy, Option.any_some, Int.isLE_compare]

/-! ### The first and the last -/

/-- The lesser of two quotients is the one that stands first. -/
theorem lesser_of_place_le (hx : IsQuotient x) (hy : IsQuotient y) (h : place x ≤ place y) :
    lesser x y = x := by
  rw [lesser, if_neg (isNaN_of_isQuotient hx), if_neg fun hlt ↦ ?_]
  exact absurd ((lt_iff_place_lt hy hx).1 hlt) (not_lt.2 h)

theorem greater_of_place_le (hx : IsQuotient x) (hy : IsQuotient y) (h : place x ≤ place y) :
    greater x y = y := by
  rw [greater, if_neg (isNaN_of_isQuotient hx)]
  split_ifs with hlt
  · rfl
  · have hge : place y ≤ place x := not_lt.1 fun h ↦ hlt ((lt_iff_place_lt hx hy).2 h)
    exact place_injective (le_antisymm h hge)

/-- The least of sorted quotients is the first. -/
theorem reduce_lesser_of_inOrder (h : InOrder xs) (hxs : ∀ x ∈ xs, IsQuotient x) :
    reduce lesser xs = xs.head?.getD 0 := by
  cases xs with
  | nil => rfl
  | cons x xs =>
    rw [reduce, List.head?_cons, Option.getD_some]
    induction xs with
    | nil => rfl
    | cons y ys ih =>
      obtain ⟨hx, hy, hys⟩ : IsQuotient x ∧ IsQuotient y ∧ ∀ z ∈ ys, IsQuotient z := by
        simpa using hxs
      have hxy : place x ≤ place y := (List.pairwise_cons.1 h).1 y List.mem_cons_self
      rw [List.foldl_cons, lesser_of_place_le hx hy hxy]
      exact ih (h.sublist (.cons_cons x (.cons y (.refl ys)))) (by simpa [hx] using hys)

/-- The greatest of sorted quotients is the last. -/
theorem reduce_greater_of_inOrder (h : InOrder xs) (hxs : ∀ x ∈ xs, IsQuotient x) :
    reduce greater xs = xs.getLast?.getD 0 := by
  cases xs with
  | nil => rfl
  | cons x xs =>
    rw [reduce, List.getLast?_cons, Option.getD_some]
    induction xs generalizing x with
    | nil => rfl
    | cons y ys ih =>
      obtain ⟨hx, hy, hys⟩ : IsQuotient x ∧ IsQuotient y ∧ ∀ z ∈ ys, IsQuotient z := by
        simpa using hxs
      have hxy : place x ≤ place y := (List.pairwise_cons.1 h).1 y List.mem_cons_self
      rw [List.foldl_cons, greater_of_place_le hx hy hxy, List.getLast?_cons, Option.getD_some]
      exact ih y h.of_cons (by simpa [hy] using hys)

/-- In a list that is in order, later elements are not smaller. -/
theorem InOrder.getElem_le_getElem (h : InOrder xs) (hxs : ∀ x ∈ xs, IsQuotient x) {i j : ℕ}
    (hij : i ≤ j) (hj : j < xs.length) : xs[i] ≤ xs[j] := by
  rw [le_iff_place_le (hxs _ (List.getElem_mem _)) (hxs _ (List.getElem_mem _))]
  rcases hij.eq_or_lt with rfl | hlt
  · exact le_rfl
  · exact List.pairwise_iff_getElem.1 h i j _ hj hlt

/-- The middle of sorted quotients is between the first and the last. -/
theorem middle_mem_of_inOrder (h : InOrder xs) (hxs : ∀ x ∈ xs, IsQuotient x) :
    xs.head?.getD 0 ≤ middle 0 xs ∧ middle 0 xs ≤ xs.getLast?.getD 0 := by
  rcases Nat.eq_zero_or_pos xs.length with hzero | hpos
  · rw [List.length_eq_zero_iff.1 hzero]
    decide
  · have hmiddle : xs.length / 2 ≤ xs.length - 1 := by omega
    have hlast : xs.length - 1 < xs.length := by omega
    rw [middle, List.getD_eq_getElem?_getD, List.head?_eq_getElem?, List.getLast?_eq_getElem?,
      List.getElem?_eq_getElem hpos, List.getElem?_eq_getElem (hmiddle.trans_lt hlast),
      List.getElem?_eq_getElem hlast]
    exact ⟨h.getElem_le_getElem hxs (Nat.zero_le _) _, h.getElem_le_getElem hxs hmiddle hlast⟩

end Crossing.Double
