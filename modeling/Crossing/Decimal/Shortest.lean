/-!
# Shortest decimals

A finite double is `m · 2 ^ q`. The reals that round to it form an interval, whose ends belong to it
exactly when `m` is even. The shortest decimal of a double is the point of that interval on the
coarsest grid of powers of ten that meets it; of two such points the one nearer to the double is
taken, and a rule decides a tie. All arithmetic is exact.
-/

namespace Crossing

/-- A positive decimal: `digits · 10 ^ exponent`. -/
structure Decimal where
  digits : Nat
  exponent : Int
  deriving DecidableEq, Repr

namespace Decimal

/-- A finite double: `± mantissa · 2 ^ exponent`. -/
structure Binary where
  negative : Bool
  mantissa : Nat
  exponent : Int
  deriving DecidableEq, Repr

/-- The parts of a double, if it is finite. -/
def Binary.ofBits? (bits : UInt64) : Option Binary :=
  let n := bits.toNat
  let negative := n / Nat.pow 2 63 == 1
  let e : Nat := n / Nat.pow 2 52 % 2048
  let f := n % Nat.pow 2 52
  if e == 2047 then none
  else if e == 0 then some ⟨negative, f, -1074⟩
  else some ⟨negative, Nat.pow 2 52 + f, (e : Int) - 1075⟩

/-- Which of two equally near decimals is taken. -/
inductive Tie
  | up
  | even
  deriving DecidableEq, Repr

/-- The fraction `m · 2 ^ q / 10 ^ k` as numerator and denominator; the numerator is `m` times a
factor that is the first component. -/
def gridScale (q k : Int) : Nat × Nat :=
  (Nat.pow 2 q.toNat * Nat.pow 10 (-k).toNat, Nat.pow 2 (-q).toNat * Nat.pow 10 k.toNat)

/-- Whether `p` units of a grid round to `m · 2 ^ q`, where `s / d` is a fourth of the double's last
place in units of the grid. Below a power of two doubles are half as far apart. -/
def inside (m : Nat) (q : Int) (s d p : Nat) : Bool :=
  let below := if m == Nat.pow 2 52 && -1074 < q then 1 else 2
  let low := (4 * m - below) * s
  let high := (4 * m + 2) * s
  if m % 2 == 0 then low ≤ p * d && p * d ≤ high else low < p * d && p * d < high

/-- The point nearest to `m · 2 ^ q` among the multiples of `10 ^ k` that round to it. -/
def onGrid? (tie : Tie) (m : Nat) (q : Int) (k : Int) : Option Nat :=
  let (s, d) := gridScale (q - 2) k
  let value := 4 * m * s
  let p := value / d
  match inside m q s d p, inside m q s d (p + 1) with
  | false, false => none
  | true, false => some p
  | false, true => some (p + 1)
  | true, true =>
    let r := 2 * (value % d)
    if r < d then some p
    else if d < r then some (p + 1)
    else match tie with
      | .up => some (p + 1)
      | .even => some (if p % 2 == 0 then p else p + 1)

/-- The first grid from `10 ^ k` downwards that has a point. -/
def search (tie : Tie) (m : Nat) (q : Int) : Nat → Int → Decimal
  | 0, k => ⟨0, k⟩
  | fuel + 1, k =>
    match onGrid? tie m q k with
    | some p => ⟨p, k⟩
    | none => search tie m q fuel (k - 1)

/-- The shortest decimal of `m · 2 ^ q`, for `m` positive. The search starts above the double and
needs at most as many grids as there are digits. -/
def shortest (tie : Tie) (m : Nat) (q : Int) : Decimal :=
  search tie m q 24 ((q + m.log2 + 1) * 30103 / 100000 + 2)

end Decimal

end Crossing
