/-
Numbers in program text.

`literal` writes a double in full: a whole number without a point, any
other in its shortest form. `coordinate` first rounds the exact value to
hundredths, a half going away from zero, and reads the result back as a
double; `coordinate?` does so with a limit on the digits of the multiple.
What is no number becomes an expression that evaluates to it, so that the
program stays well formed.
-/
import SketchTurtle.Number.Layout

namespace SketchTurtle.Turtle

/-- The expression for a double that is no number. -/
def notFinite (negative : Bool) (word : String) : List Char :=
  "float('".toList ++ Layout.signed negative word.toList ++ "')".toList

/-- The literal of an exactly known double. -/
def literalOf (x : Exact) : List Char :=
  match x with
  | .nan => notFinite false "nan"
  | .infinite negative => notFinite negative "inf"
  | .finite negative m e =>
    if m = 0 then ['0']
    else
      let (num, den) := Exact.ratio m e
      if num % den = 0 then Layout.signed negative (Layout.digitsOf (num / den))
      else Layout.report.finite negative m e

/-- The double nearest the multiple of a hundredth that is nearest to `x`, a
half going away from zero. -/
def toHundredths (x : Exact) : Exact :=
  match x with
  | .finite negative m e =>
    let (num, den) := Exact.ratio m e
    Exact.nearest negative (roundHalfUp (100 * num) den) 100
  | x => x

/-- The most digits that a number of hundredths may have. -/
def maxDigits : Nat := 400

/-- What `toHundredths` gives, unless the multiple has more digits than that. -/
def toHundredths? (x : Exact) : Option Exact :=
  match x with
  | .finite negative m e =>
    let (num, den) := Exact.ratio m e
    let hundredths := roundHalfUp (100 * num) den
    if Exact.digitCount hundredths ≤ maxDigits then some (Exact.nearest negative hundredths 100) else none
  | x => some x

/-- A number written in full. -/
def literal (x : Float) : String :=
  String.ofList (literalOf (.ofFloat x))

/-- A number written with at most two decimals. -/
def coordinate (x : Float) : String :=
  String.ofList (literalOf (toHundredths (.ofFloat x)))

/-- What `coordinate` writes, unless rounding takes more digits than there may be. -/
def coordinate? (x : Float) : Option String :=
  (toHundredths? (.ofFloat x)).map fun rounded => String.ofList (literalOf rounded)

end SketchTurtle.Turtle
