import Crossing.Decimal.Layout
import Mathlib.Data.Nat.Digits.Defs

/-!
# What numbers look like

Whatever its layout, a number is written with the characters of `isNumeral` only, so it has no line
break.

The proof follows the layouts: digits and zeros are numeric, the point may be placed anywhere among
them (`isNumeric_placePoint`), and a sign or an exponent comes on top (`isNumeric_decimal`). Reports
rely on it, which have one record on each line and are read line by line.
-/

namespace Crossing.Decimal

/-- The characters that numbers are written with. -/
def isNumeral (c : Char) : Bool := c.isDigit || "+-.aefinN".toList.contains c

/-- A text that looks like a number. -/
def IsNumeric (s : String) : Prop := s.toList.all isNumeral = true

instance : DecidablePred IsNumeric := fun _ ↦ inferInstanceAs (Decidable (_ = true))

theorem isNumeric_iff {s : String} : IsNumeric s ↔ ∀ c ∈ s.toList, isNumeral c = true :=
  List.all_eq_true

theorem IsNumeric.append {s t : String} (hs : IsNumeric s) (ht : IsNumeric t) :
    IsNumeric (s ++ t) := by
  rw [IsNumeric, String.toList_append, List.all_append, Bool.and_eq_true]
  exact ⟨hs, ht⟩

theorem IsNumeric.ite {p : Prop} [Decidable p] {s t : String} (hs : IsNumeric s)
    (ht : IsNumeric t) : IsNumeric (if p then s else t) := by
  split
  · exact hs
  · exact ht

/-- A part of a number looks like one. -/
theorem IsNumeric.of_subset {s : String} {cs : List Char} (hs : IsNumeric s)
    (hcs : cs ⊆ s.toList) : IsNumeric (String.ofList cs) := by
  rw [isNumeric_iff, String.toList_ofList]
  intro c hc
  exact isNumeric_iff.1 hs c (hcs hc)

theorem isNumeric_digitText (n : Nat) : IsNumeric (digitText n) := by
  rw [isNumeric_iff, digitText, String.toList_ofList]
  intro c hc
  have hdigit : c.isDigit = true := Nat.isDigit_of_mem_toDigits (by decide) (by decide) hc
  rw [isNumeral, hdigit, Bool.true_or]

theorem isNumeric_zeros (n : Nat) : IsNumeric (zeros n) := by
  rw [isNumeric_iff, zeros, String.toList_ofList]
  intro c hc
  rw [List.eq_of_mem_replicate hc]
  rfl

/-- Wherever the point goes, digits around it stay numeric. -/
theorem isNumeric_placePoint {digits : String} (hdigits : IsNumeric digits) (point : Bool)
    (whole : Int) : IsNumeric (placePoint point digits whole) := by
  rw [placePoint]
  refine .ite ?_ (.ite ?_ ?_)
  · exact (IsNumeric.append (by decide) (isNumeric_zeros _)).append hdigits
  · exact (hdigits.append (isNumeric_zeros _)).append (.ite (by decide) (by decide))
  · exact ((hdigits.of_subset (List.take_subset _ _)).append (by decide)).append
      (hdigits.of_subset (List.drop_subset _ _))

namespace Layout

/-- A decimal is digits with a point or an exponent, whatever the layout. -/
theorem isNumeric_decimal (l : Layout) (d : Decimal) : IsNumeric (l.decimal d) := by
  have hdigits := isNumeric_digitText d.digits
  rw [decimal]
  refine .ite (isNumeric_placePoint hdigits _ _) ?_
  exact ((IsNumeric.ite hdigits (isNumeric_placePoint hdigits _ _)).append
    (.ite (by decide) (by decide))).append (isNumeric_digitText _)

/-- All that is printed of a double is numeric. -/
theorem isNumeric_render (l : Layout) (x : Float) : IsNumeric (l.render x) := by
  rw [render]
  split
  · exact .ite (by decide) (.ite (by decide) (by decide))
  · exact (IsNumeric.ite (by decide) (by decide)).append
      (.ite (.ite (by decide) (by decide)) (l.isNumeric_decimal _))

/-- No number breaks a line. -/
theorem newline_notMem_render (l : Layout) (x : Float) : '\n' ∉ (l.render x).toList := by
  intro hmem
  exact absurd (isNumeric_iff.1 (l.isNumeric_render x) '\n' hmem) (by decide)

end Layout

end Crossing.Decimal
