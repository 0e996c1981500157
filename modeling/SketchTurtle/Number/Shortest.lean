/-
The shortest decimal that reads back as a given double.

The reals that round to a double form an interval around it. The grids of
decimals `d * 10 ^ k` are tried from coarse to fine, and the first grid with
a point in the interval wins; of two such points the nearer, of two equally
near the one with the even digit. The search ends at the grid on which the
double itself lies.
-/
import SketchTurtle.Number.Exact

namespace SketchTurtle

/-- The number `digits * 10 ^ exponent`. -/
structure Decimal where
  digits : Nat
  exponent : Int
  deriving DecidableEq, Repr

namespace Shortest

/-- The interval of reals that round to a positive double, in quarters of
its unit: the double is `4 * mantissa`, and `closed` says whether the ends
belong to the interval. -/
structure Interval where
  low : Nat
  middle : Nat
  high : Nat
  closed : Bool
  /-- The exponent of a quarter of the unit. -/
  exponent : Int

/-- Below the least mantissa of an exponent the doubles lie twice as close,
so the gap there is half as wide. -/
def interval (mantissa : Nat) (exponent : Int) : Interval where
  low :=
    if mantissa = Nat.pow 2 52 ∧ Exact.minExponent < exponent then 4 * mantissa - 1
    else 4 * mantissa - 2
  middle := 4 * mantissa
  high := 4 * mantissa + 2
  closed := mantissa % 2 == 0
  exponent := exponent - 2

namespace Interval

/-- The factor that brings points of the grid `10 ^ k` to the common scale of
grid and interval. -/
def gridScale (i : Interval) (k : Int) : Nat := Nat.pow 10 k.toNat * Nat.pow 2 (-i.exponent).toNat

/-- The factor that brings the interval to that common scale. -/
def ownScale (i : Interval) (k : Int) : Nat := Nat.pow 10 (-k).toNat * Nat.pow 2 i.exponent.toNat

/-- Whether the point `d * 10 ^ k` lies in the interval. -/
def contains (i : Interval) (k : Int) (d : Nat) : Bool :=
  let point := d * i.gridScale k
  let low := i.low * i.ownScale k
  let high := i.high * i.ownScale k
  if i.closed then low ≤ point && point ≤ high else low < point && point < high

/-- The last point of the grid `10 ^ k` that is not above the double. -/
def below (i : Interval) (k : Int) : Nat :=
  i.middle * i.ownScale k / i.gridScale k

/-- The neighbour of the double on the grid `10 ^ k` that is nearer to it, of
two equally near the even one. -/
def nearer (i : Interval) (k : Int) : Nat :=
  let d := i.below k
  let twice := 2 * (i.middle * i.ownScale k)
  let midpoint := (2 * d + 1) * i.gridScale k
  if twice < midpoint then d
  else if twice = midpoint then d + d % 2
  else d + 1

/-- The point of the grid `10 ^ k` to print, if the interval has one. -/
def hit? (i : Interval) (k : Int) : Option Nat :=
  let d := i.below k
  match i.contains k d, i.contains k (d + 1) with
  | true, true => some (i.nearer k)
  | true, false => some d
  | false, true => some (d + 1)
  | false, false => none

/-- The first hit on the grids `10 ^ k`, `10 ^ (k - 1)`, …, of which the last
holds the double itself. -/
def search (i : Interval) : Nat → Int → Decimal
  | 0, k => ⟨i.nearer k, k⟩
  | steps + 1, k =>
    match i.hit? k with
    | some d => ⟨d, k⟩
    | none => i.search steps (k - 1)

end Interval

/-- A power of ten that is not below the leading digit of the double. The
factor is a little more than the decimal logarithm of two. -/
def coarsest (mantissa : Nat) (exponent : Int) : Int :=
  ((mantissa.log2 : Int) + 1 + exponent) * 30103 / 100000 + 1

end Shortest

/-- The shortest decimal that reads back as the positive double
`mantissa * 2 ^ exponent`. -/
def Decimal.shortest (mantissa : Nat) (exponent : Int) : Decimal :=
  let k := Shortest.coarsest mantissa exponent
  (Shortest.interval mantissa exponent).search (k - min exponent 0).toNat k

end SketchTurtle
