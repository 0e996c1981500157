/-
Reading numbers from text.

`Numeral.real?` is the common grammar of reals: a sign, and `inf`,
`infinity`, `nan` in any case or decimal digits with a point and an
exponent. `parseFloat` and `parseInt` are the readers of configuration
values and command-line options, which also take blanks around the number,
digits of any script, and single underscores between digits.
-/
import SketchTurtle.Number.Exact
import SketchTurtle.Text.Blank
import SketchTurtle.Text.Digit

namespace SketchTurtle

namespace Numeral

/-- The number written by ASCII digits. -/
def ofDigits (ds : List Char) : Nat :=
  ds.foldl (fun n d => 10 * n + (d.toNat - 48)) 0

/-- The sign in front of a number: whether it is negative, and the rest. -/
def splitSign : List Char → Bool × List Char
  | '-' :: rest => (true, rest)
  | '+' :: rest => (false, rest)
  | s => (false, s)

/-- The exponent that ends a number: nothing, or `e` with digits. -/
def exponent? : List Char → Option Int
  | [] => some 0
  | e :: rest =>
    if e == 'e' || e == 'E' then
      let (negative, ds) := splitSign rest
      if !ds.isEmpty && ds.all Char.isDigit then
        some (if negative then -(ofDigits ds : Int) else ofDigits ds)
      else none
    else none

/-- An unsigned decimal: digits on at least one side of the point, and an
exponent. -/
def decimal? (negative : Bool) (s : List Char) : Option Exact :=
  let whole := s.takeWhile Char.isDigit
  let rest := s.dropWhile Char.isDigit
  let (fraction, rest) := match rest with
    | '.' :: rest => (rest.takeWhile Char.isDigit, rest.dropWhile Char.isDigit)
    | rest => ([], rest)
  if whole.isEmpty && fraction.isEmpty then none
  else (exponent? rest).map fun e =>
    Exact.ofDecimal negative (ofDigits (whole ++ fraction)) (e - fraction.length)

/-- A real number without blanks and underscores. -/
def real? (s : List Char) : Option Exact :=
  let (negative, rest) := splitSign s
  let word := String.ofList (rest.map Char.toLower)
  if word == "inf" || word == "infinity" then some (.infinite negative)
  else if word == "nan" then some .nan
  else decimal? negative rest

/-- The text without its underscores, if each stands between two digits. -/
def joined? (s : List Char) : Option (List Char) :=
  let rec go (afterDigit : Bool) : List Char → Option (List Char)
    | [] => some []
    | '_' :: rest => match rest with
      | d :: _ => if afterDigit && d.isDigit then go false rest else none
      | [] => none
    | c :: rest => (go c.isDigit rest).map (c :: ·)
  go false s

/-- The text as numbers are read from it: without blanks at the ends, with
every script's digits written in ASCII. -/
def normalized (s : String) : List Char :=
  (Text.trim s.toList).map Text.asciiDigit

end Numeral

/-- The double written in a text. -/
def parseFloat? (s : String) : Option Float :=
  ((Numeral.joined? (Numeral.normalized s)).bind Numeral.real?).map Exact.toFloat

/-- Why a text is not taken for a whole number. -/
inductive IntFault where
  | malformed
  /-- Texts of more than 4300 digits are refused. -/
  | tooLong (digits : Nat)
  deriving DecidableEq, Repr

/-- The most digits that a whole number read from text may have. -/
def maxIntDigits : Nat := 4300

/-- Whether a whole number has more digits than that. -/
def isLongInt (n : Int) : Bool := Nat.pow 10 maxIntDigits ≤ n.natAbs

/-- The complaint about a number with too many digits. -/
def longIntMessage (detail : String) : String :=
  s!"Exceeds the limit ({maxIntDigits} digits) for integer string conversion" ++ detail ++
    "; use sys.set_int_max_str_digits() to increase the limit"

/-- The complaint about a text with too many digits. -/
def longDigitsMessage (digits : Nat) : String := longIntMessage s!": value has {digits} digits"

/-- The whole number written in a text. -/
def parseInt (s : String) : Except IntFault Int :=
  match Numeral.joined? (Numeral.normalized s) with
  | none => .error .malformed
  | some s =>
    let (negative, ds) := Numeral.splitSign s
    if ds.isEmpty || !ds.all Char.isDigit then .error .malformed
    else if maxIntDigits < ds.length then .error (.tooLong ds.length)
    else .ok (if negative then -(Numeral.ofDigits ds : Int) else Numeral.ofDigits ds)

end SketchTurtle
