/-
Numbers rounded to a given number of digits, a half going to the even
neighbour, and their three usual forms: with a fixed number of places, with
one digit before the point and an exponent, and whichever of the two is
shorter for the number's size.
-/
import SketchTurtle.Number.Layout

namespace SketchTurtle.Rounded

/-- The exponent of the leading digit of a positive quotient. -/
def leading (num den : Nat) : Int :=
  let guess : Int := (Exact.digitCount num : Int) - Exact.digitCount den
  if den * Nat.pow 10 guess.toNat ≤ num * Nat.pow 10 (-guess).toNat then guess else guess - 1

/-- A quotient rounded to `count` digits, and the exponent of the first of
them. Rounding up may give it one digit more, which is a zero. -/
def significant (count num den : Nat) : Nat × Int :=
  if num = 0 then (0, 0)
  else
    let exponent := leading num den
    let shift : Int := (count : Int) - 1 - exponent
    let digits := roundHalfEven (num * Nat.pow 10 shift.toNat) (den * Nat.pow 10 (-shift).toNat)
    if digits = Nat.pow 10 count then (Nat.pow 10 (count - 1), exponent + 1) else (digits, exponent)

/-- Digits with a point before the last `places`. The point is kept without
digits behind it if `point` says so. -/
def pointed (point : Bool) (places : Nat) (digits : Nat) : List Char :=
  let ds := Layout.padded (places + 1) digits
  let whole := ds.take (ds.length - places)
  let fraction := ds.drop (ds.length - places)
  if fraction.isEmpty && !point then whole else whole ++ '.' :: fraction

/-- A quotient with a fixed number of places. -/
def fixed (point : Bool) (places num den : Nat) : List Char :=
  pointed point places (roundHalfEven (num * Nat.pow 10 places) den)

/-- Digits and the exponent of the first, with the given number of places. -/
def scaled (point : Bool) (places digits : Nat) (exponent : Int) : List Char :=
  pointed point places digits ++ 'e' :: (if exponent < 0 then '-' else '+') ::
    Layout.padded 2 exponent.natAbs

/-- A quotient with an exponent. -/
def scientific (point : Bool) (places num den : Nat) : List Char :=
  let (digits, exponent) := significant (places + 1) num den
  scaled point places digits exponent

/-- A number of digits without the zeros at its end, and how many are left.
At least one is. -/
def withoutZeros : Nat → Nat → Nat × Nat
  | count + 2, digits => if digits % 10 = 0 then withoutZeros (count + 1) (digits / 10)
    else (count + 2, digits)
  | count, digits => (count, digits)

/-- A quotient with at most `count` digits: with an exponent if the number is
below a ten-thousandth or has more digits before the point. Zeros at the end
are dropped unless `point` keeps the point. -/
def general (point : Bool) (count num den : Nat) : List Char :=
  let (digits, exponent) := significant count num den
  let (kept, digits) := if point then (count, digits) else withoutZeros count digits
  if -4 ≤ exponent && exponent < count then
    if exponent < kept then pointed point (kept - 1 - exponent).toNat digits
    else pointed point 0 (digits * Nat.pow 10 (exponent.toNat + 1 - kept))
  else scaled point (kept - 1) digits exponent

end SketchTurtle.Rounded
