/-
How a decimal is laid out as text. A `Layout` holds the choices that formats
differ in: where positional notation ends, and how an exponent is written.
-/
import SketchTurtle.Number.Shortest

namespace SketchTurtle

/-- The choices of a number format. -/
structure Layout where
  /-- The least exponent of the leading digit that is written positionally. -/
  lowest : Int
  /-- The greatest exponent of the leading digit that is written positionally. -/
  highest : Int
  /-- The least number of digits of a written exponent. -/
  exponentDigits : Nat

namespace Layout

/-- Numbers in reports and in programs: `1e-05`, `0.0001`, `1e+16`. -/
def report : Layout := ⟨-4, 15, 2⟩

/-- Numbers in saved documents: `1e-6`, `0.00001`, `1e+16`. -/
def document : Layout := ⟨-5, 15, 1⟩

/-- The decimal digits of a natural number. -/
def digitsOf (n : Nat) : List Char := Nat.toDigits 10 n

/-- The digits of `n`, filled with zeros from the left to `width`. -/
def padded (width n : Nat) : List Char :=
  let ds := digitsOf n
  List.replicate (width - ds.length) '0' ++ ds

/-- Digits with the point after the digit for `10 ^ 0`; a number without
fraction is given one zero. `exponent` is the exponent of the last digit. -/
def positional (ds : List Char) (exponent : Int) : List Char :=
  let whole := (ds.length : Int) + exponent
  if 0 ≤ exponent then ds ++ List.replicate exponent.toNat '0' ++ ['.', '0']
  else if 0 < whole then ds.take whole.toNat ++ '.' :: ds.drop whole.toNat
  else '0' :: '.' :: List.replicate (-whole).toNat '0' ++ ds

/-- One digit, the others after a point, and the exponent with its sign. -/
def scientific (layout : Layout) (ds : List Char) (leading : Int) : List Char :=
  let mantissa := match ds with
    | d :: rest@(_ :: _) => d :: '.' :: rest
    | short => short
  let sign := if leading < 0 then '-' else '+'
  mantissa ++ 'e' :: sign :: padded layout.exponentDigits leading.natAbs

/-- The text of a positive decimal whose last digit is not zero. -/
def decimal (layout : Layout) (x : Decimal) : List Char :=
  let ds := digitsOf x.digits
  let leading := x.exponent + ds.length - 1
  if layout.lowest ≤ leading ∧ leading ≤ layout.highest then positional ds x.exponent
  else layout.scientific ds leading

/-- A minus sign, if the number has one. -/
def signed (negative : Bool) (s : List Char) : List Char :=
  if negative then '-' :: s else s

/-- The shortest text that reads back as the finite double. -/
def finite (layout : Layout) (negative : Bool) (mantissa : Nat) (exponent : Int) : List Char :=
  signed negative <|
    if mantissa = 0 then ['0', '.', '0'] else layout.decimal (Decimal.shortest mantissa exponent)

end Layout

/-- The text of a double in reports: its shortest form, or `nan`, `inf`,
`-inf`. -/
def reportFloat (x : Float) : String :=
  match Exact.ofFloat x with
  | .nan => "nan"
  | .infinite negative => if negative then "-inf" else "inf"
  | .finite negative m e => String.ofList (Layout.report.finite negative m e)

end SketchTurtle
