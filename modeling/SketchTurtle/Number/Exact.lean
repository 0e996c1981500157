/-
What a double denotes, exactly: not a number, an infinity, or a sign with a
whole mantissa times a power of two. Everything that prints or reads a
number goes through this view, so that rounding is integer arithmetic.

`Exact.nearest` is the one rounding to doubles: the double nearest a
quotient of naturals, a tie going to the even mantissa.
-/

namespace SketchTurtle

/-- A double, read as the number it denotes: `mantissa * 2 ^ exponent` with
a sign, or one of the values that denote no number. -/
inductive Exact where
  | nan
  | infinite (negative : Bool)
  | finite (negative : Bool) (mantissa : Nat) (exponent : Int)
  deriving DecidableEq, Repr

/-- The quotient rounded to the nearest whole number, a half going to the
even neighbour. -/
def roundHalfEven (num den : Nat) : Nat :=
  let q := num / den
  let r := num % den
  if 2 * r < den then q
  else if 2 * r = den then q + q % 2
  else q + 1

/-- The quotient rounded to the nearest whole number, a half going up. -/
def roundHalfUp (num den : Nat) : Nat :=
  (2 * num + den) / (2 * den)

namespace Exact

/-- The exponent of the smallest positive double. -/
def minExponent : Int := -1074

/-- The exponent of the largest finite double. -/
def maxExponent : Int := 971

/-- The zero of the given sign. -/
def zero (negative : Bool) : Exact := .finite negative 0 minExponent

/-- The fields of the double's word: a sign bit, eleven bits of exponent and
fifty-two of fraction. The leading bit of the mantissa is written only by a
nonzero exponent field. -/
def ofFloat (x : Float) : Exact :=
  let word := x.toBits.toNat
  let negative := word / Nat.pow 2 63 == 1
  let field : Nat := word / Nat.pow 2 52 % Nat.pow 2 11
  let fraction : Nat := word % Nat.pow 2 52
  if field = Nat.pow 2 11 - 1 then
    if fraction = 0 then .infinite negative else .nan
  else if field = 0 then .finite negative fraction minExponent
  else .finite negative (Nat.pow 2 52 + fraction) ((field : Int) - 1075)

/-- The word of a double whose mantissa has at most fifty-three bits and
whose exponent is the unit of that mantissa. -/
def word : Exact → Nat
  | .nan => (Nat.pow 2 11 - 1) * Nat.pow 2 52 + Nat.pow 2 51
  | .infinite negative => (if negative then Nat.pow 2 63 else 0) + (Nat.pow 2 11 - 1) * Nat.pow 2 52
  | .finite negative mantissa exponent =>
    (if negative then Nat.pow 2 63 else 0) +
      if mantissa < Nat.pow 2 52 then mantissa
      else (exponent + 1075).toNat * Nat.pow 2 52 + (mantissa - Nat.pow 2 52)

/-- The double that denotes this number. -/
def toFloat (x : Exact) : Float :=
  Float.ofBits (UInt64.ofNat x.word)

/-- Whether `2 ^ e` is at most the quotient of `num` by `den`. -/
def reaches (num den : Nat) (e : Int) : Bool :=
  den * Nat.pow 2 e.toNat ≤ num * Nat.pow 2 (-e).toNat

/-- The exponent of the mantissa's unit in the double nearest a positive
quotient: fifty-two places below the leading bit, but never below the
smallest double. -/
def unitExponent (num den : Nat) : Int :=
  let guess : Int := (num.log2 : Int) - den.log2
  let leading := if reaches num den guess then guess else guess - 1
  max (leading - 52) minExponent

/-- The finite double with this mantissa and unit, or the infinity beyond
the largest. -/
def bounded (negative : Bool) (mantissa : Nat) (exponent : Int) : Exact :=
  if maxExponent < exponent then .infinite negative else .finite negative mantissa exponent

/-- The double nearest the quotient of `num` by `den`, a tie going to the
even mantissa. -/
def nearest (negative : Bool) (num den : Nat) : Exact :=
  if num = 0 then zero negative
  else
    let e := unitExponent num den
    let m := roundHalfEven (num * Nat.pow 2 (-e).toNat) (den * Nat.pow 2 e.toNat)
    if m = Nat.pow 2 53 then bounded negative (Nat.pow 2 52) (e + 1) else bounded negative m e

/-- The number of decimal digits of a natural number, one for zero. -/
def digitCount (n : Nat) : Nat := (Nat.toDigits 10 n).length

/-- The double nearest `digits * 10 ^ exponent`. A number whose leading digit
stands far outside the range of doubles is not computed. -/
def ofDecimal (negative : Bool) (digits : Nat) (exponent : Int) : Exact :=
  if digits = 0 then zero negative
  else
    let leading := exponent + digitCount digits
    if 400 < leading then .infinite negative
    else if leading < -400 then zero negative
    else nearest negative (digits * Nat.pow 10 exponent.toNat) (Nat.pow 10 (-exponent).toNat)

/-- The double nearest a whole number. -/
def ofInt (n : Int) : Exact := nearest (n < 0) n.natAbs 1

/-- Whether a number is denoted. -/
def isFinite : Exact → Bool
  | .finite .. => true
  | _ => false

/-- The numerator and the positive denominator of the magnitude. -/
def ratio (mantissa : Nat) (exponent : Int) : Nat × Nat :=
  (mantissa * Nat.pow 2 exponent.toNat, Nat.pow 2 (-exponent).toNat)

/-- The whole number denoted, if it is one. -/
def toInt? : Exact → Option Int
  | .finite negative m e =>
    let (num, den) := ratio m e
    if num % den = 0 then some (if negative then -((num / den : Nat) : Int) else (num / den : Nat))
    else none
  | _ => none

/-- The whole number that remains when the fraction is dropped. -/
def truncate? : Exact → Option Int
  | .finite negative m e =>
    let (num, den) := ratio m e
    some (if negative then -((num / den : Nat) : Int) else (num / den : Nat))
  | _ => none

end Exact

/-- The double nearest a whole number, unless that lies beyond the largest
double. -/
def floatOfInt? (n : Int) : Option Float :=
  let x := Exact.ofInt n
  if x.isFinite then some x.toFloat else none

end SketchTurtle
