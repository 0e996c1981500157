/-
What can be wrong with a YAML document.
-/
import SketchTurtle.Number.Numeral
import SketchTurtle.Text.Quoted

namespace SketchTurtle.Yaml

/-- Why a document gives no value. -/
inductive Fault where
  /-- The text is not one well-formed document, or a tag does not suit. -/
  | malformed
  /-- An escape names a number beyond all characters. -/
  | noCharacter (code : Nat)
  /-- A whole number has no digits, or digits that the base lacks. -/
  | badInteger (base : Nat) (text : String)
  | badFloat (text : String)
  | tooManyDigits (digits : Nat)
  /-- A number is written without any character. -/
  | emptyNumber
  | badBool (text : String)
  | badTimestamp
  | yearRange (year : Nat)
  | monthRange
  | dayRange
  | hourRange
  | minuteRange
  | secondRange
  /-- A time zone is a day or more away; the offset in seconds. -/
  | zoneRange (offset : Int)
  | tooLarge
  deriving DecidableEq, Repr

/-- A span of time in the words of a report, given in seconds. -/
def spanReport (seconds : Int) : String :=
  let days := seconds / 86400
  let inDay := seconds % 86400
  let parts := (if days = 0 then [] else [s!"days={days}"]) ++
    (if inDay = 0 then [] else [s!"seconds={inDay}"])
  "datetime.timedelta(" ++ ", ".intercalate parts ++ ")"

/-- The greatest number that an escape is read as. -/
def maxCode : Nat := 2147483647

/-- The wording of a fault. -/
def Fault.message : Fault → String
  | .malformed => "malformed document"
  | .noCharacter code =>
    if maxCode < code then "Python int too large to convert to C int"
    else "chr() arg not in range(0x110000)"
  | .badInteger base text =>
    s!"invalid literal for int() with base {base}: {Text.shortened (Text.quoted text)}"
  | .badFloat text => "could not convert string to float: " ++ Text.quoted text
  | .tooManyDigits digits => longDigitsMessage digits
  | .emptyNumber => "string index out of range"
  | .badBool text => Text.quoted text
  | .badTimestamp => "'NoneType' object has no attribute 'groupdict'"
  | .yearRange year => s!"year {year} is out of range"
  | .monthRange => "month must be in 1..12"
  | .dayRange => "day is out of range for month"
  | .hourRange => "hour must be in 0..23"
  | .minuteRange => "minute must be in 0..59"
  | .secondRange => "second must be in 0..59"
  | .zoneRange offset =>
    "offset must be a timedelta strictly between -timedelta(hours=24) and timedelta(hours=24), not "
      ++ spanReport offset ++ "."
  | .tooLarge => "int too large to convert to float"

end SketchTurtle.Yaml
