import Crossing.Decimal.Shortest

/-!
# Layouts of decimals

How the digits of a double are laid out as text. A layout says which exponents are written in full,
whether a whole number keeps its point, and how ties between shortest decimals are decided.
-/

namespace Crossing.Decimal

/-- The decisions of a number format. A decimal `d.ddd · 10 ^ e` is written in full when
`least ≤ e < past`, otherwise with an exponent. -/
structure Layout where
  least : Int
  past : Int
  point : Bool
  tie : Tie

/-- The decimal digits of a number. -/
def digitText (n : Nat) : String := String.ofList (Nat.toDigits 10 n)

/-- A text of `n` zeros. -/
def zeros (n : Nat) : String := String.ofList (List.replicate n '0')

/-- The digits of a decimal with a point after the first `whole` of them, where `whole` may be zero,
negative, or past the end. -/
def placePoint (point : Bool) (digits : String) (whole : Int) : String :=
  let n := digits.length
  if whole ≤ 0 then "0." ++ zeros whole.natAbs ++ digits
  else if (n : Int) ≤ whole then
    digits ++ zeros (whole.toNat - n) ++ (if point then ".0" else "")
  else
    String.ofList (digits.toList.take whole.toNat) ++ "." ++
      String.ofList (digits.toList.drop whole.toNat)

/-- A positive decimal as text. -/
def Layout.decimal (l : Layout) (d : Decimal) : String :=
  let digits := digitText d.digits
  let e := d.exponent + digits.length - 1
  if l.least ≤ e ∧ e < l.past then placePoint l.point digits (e + 1)
  else
    (if digits.length == 1 then digits else placePoint false digits 1) ++
      (if e < 0 then "e-" else "e+") ++ digitText e.natAbs

/-- A double as text. Zero keeps its sign; what is not finite is spelled `inf`, `-inf` and `NaN`. -/
def Layout.render (l : Layout) (x : Float) : String :=
  match Binary.ofBits? x.toBits with
  | none => if x != x then "NaN" else if x < 0 then "-inf" else "inf"
  | some b =>
    (if b.negative then "-" else "") ++
      if b.mantissa == 0 then (if l.point then "0.0" else "0")
      else l.decimal (shortest l.tie b.mantissa b.exponent)

/-- In reports no number has an exponent, whole numbers have no point, and ties go up. -/
def Layout.report : Layout := ⟨-400, 400, false, .up⟩

/-- In citations of a document's numbers whole ones end in `.0`. -/
def Layout.cited : Layout := { Layout.report with point := true }

/-- In summaries numbers are written in full from `0.00001` up to sixteen whole digits, whole ones
end in `.0`, and ties go to the even digit. -/
def Layout.summary : Layout := ⟨-5, 16, true, .even⟩

/-- The double nearest to `m · 10 ^ e`; past the largest double it is infinite. -/
def nearest (m : Nat) (e : Int) : Float :=
  if m == 0 then 0
  else
    let magnitude : Int := e + (Nat.toDigits 10 m).length
    if 310 < magnitude then 1.0 / 0.0
    else if magnitude < -330 then 0
    else Float.ofScientific m (e < 0) e.natAbs

end Crossing.Decimal
