/-
Instants, and how the log dates its lines. An instant counts microseconds
from the beginning of 1970; a date is found by counting in periods of 400
years, each of which begins with the first of March, so that a leap day is
the last day of its year.
-/
import SketchTurtle.Number.Exact
import SketchTurtle.Number.Layout

namespace SketchTurtle

/-- A point in time: microseconds since the beginning of 1970. -/
structure Instant where
  microseconds : Int
  deriving DecidableEq, Repr

/-- A day of the calendar. -/
structure Day where
  year : Int
  month : Nat
  day : Nat
  deriving DecidableEq, Repr

namespace Day

/-- The days of 400 years. -/
def period : Nat := 146097

/-- The year in a period, and the day in that year, of a day of the period.
Years have 365 days, and every fourth has one more, but only every fourth of
those that end a century. -/
def yearInPeriod (day : Nat) : Nat × Nat :=
  let year := (day - day / 1460 + day / 36524 - day / 146096) / 365
  (year, day - (365 * year + year / 4 - year / 100))

/-- The month, counted from March, and the day of the month of a day in a
year that begins with March. Five months have 153 days together. -/
def monthInYear (day : Nat) : Nat × Nat :=
  let month := (5 * day + 2) / 153
  (month, day - (153 * month + 2) / 5 + 1)

/-- The day that many days after the first of January 1970. -/
def ofCount (days : Int) : Day :=
  let sinceMarch := days + 719468
  let (year, rest) := yearInPeriod (sinceMarch % period).toNat
  let (month, day) := monthInYear rest
  let year := sinceMarch / period * 400 + year
  if month < 10 then ⟨year, month + 3, day⟩ else ⟨year + 1, month - 9, day⟩

end Day

namespace Instant

/-- Why a number of seconds is no instant that can be dated. -/
inductive Fault where
  | notNumber
  /-- More seconds than are counted. -/
  | beyondClock
  /-- More years than are counted. -/
  | beyondCalendar
  /-- A year that does not have one to four digits. -/
  | year (n : Int)
  deriving DecidableEq, Repr

/-- The wording of a fault. -/
def Fault.message : Fault → String
  | .notNumber => "Invalid value NaN (not a number)"
  | .beyondClock => "timestamp out of range for platform time_t"
  | .beyondCalendar => "[Errno 75] Value too large for defined data type"
  | .year n => s!"year {n} is out of range"

/-- The days since the first of January 1970. -/
def days (t : Instant) : Int := t.microseconds / 86400000000

/-- The day on which an instant lies. -/
def day (t : Instant) : Day := .ofCount t.days

/-- The microseconds since the day began. -/
def ofDay (t : Instant) : Nat := (t.microseconds % 86400000000).toNat

/-- The microseconds of a magnitude of seconds. The fraction is brought to
microseconds as a double, and rounded to the even neighbour if it lies
halfway. -/
def microsecondsOf (num den : Nat) : Nat :=
  let fraction := match Exact.nearest false (num % den * 1000000) den with
    | .finite _ m e =>
      let (num, den) := Exact.ratio m e
      roundHalfEven num den
    | _ => 0
  num / den * 1000000 + fraction

/-- Whether an instant has a date: its seconds, its years, and a year of one
to four digits. -/
def check (t : Instant) : Except Fault Instant :=
  let seconds := t.microseconds / 1000000
  if seconds < Int64.minValue.toInt || Int64.maxValue.toInt < seconds then .error .beyondClock
  else
    let year := t.day.year
    let sinceBase := year - 1900
    if sinceBase < Int32.minValue.toInt || Int32.maxValue.toInt < sinceBase then
      .error .beyondCalendar
    else if year < 1 || 9999 < year then .error (.year year)
    else .ok t

/-- The instant that many seconds after the beginning of 1970. -/
def ofSeconds (seconds : Float) : Except Fault Instant :=
  match Exact.ofFloat seconds with
  | .nan => .error .notNumber
  | .infinite _ => .error .beyondClock
  | .finite negative m e =>
    let (num, den) := Exact.ratio m e
    let n : Int := microsecondsOf num den
    check ⟨if negative then -n else n⟩

/-! ## Writing -/

/-- The digits of a number, filled with zeros from the left. -/
def digits (width n : Nat) : String := String.ofList (Layout.padded width n)

/-- The date after the year, and the time in seconds. -/
def dateAndTime (t : Instant) : String :=
  let seconds := t.ofDay / 1000000
  "-" ++ digits 2 t.day.month ++ "-" ++ digits 2 t.day.day ++ "T" ++ digits 2 (seconds / 3600) ++
    ":" ++ digits 2 (seconds / 60 % 60) ++ ":" ++ digits 2 (seconds % 60)

/-- An instant as people read it in the log, cut to milliseconds. -/
def text (t : Instant) : String :=
  toString t.day.year ++ t.dateAndTime ++ "." ++ digits 3 (t.ofDay % 1000000 / 1000) ++ "Z"

/-- An instant as it stands in JSON lines: with microseconds unless there are
none, and with the zone if that is asked for. -/
def exactText (zone : Bool) (t : Instant) : String :=
  let fraction := t.ofDay % 1000000
  digits 4 t.day.year.toNat ++ t.dateAndTime ++
    (if fraction = 0 then "" else "." ++ digits 6 fraction) ++ (if zone then "+00:00" else "")

end Instant

end SketchTurtle
