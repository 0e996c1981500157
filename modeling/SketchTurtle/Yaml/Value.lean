/-
The values of YAML documents: nothing, truth values, numbers, texts, bytes,
dates and times, lists, sets and mappings.

Mappings keep the order of their keys. A key is given once: of two equal
keys the later value is kept in the place of the earlier, where numbers and
truth values are equal if they count the same.
-/
import SketchTurtle.Number.Exact
import SketchTurtle.Number.Layout
import SketchTurtle.Yaml.Fault

namespace SketchTurtle.Yaml

/-- A time of day on a date, and how far the zone is ahead in minutes. -/
structure DateTime where
  year : Nat
  month : Nat
  day : Nat
  hour : Nat
  minute : Nat
  second : Nat
  microsecond : Nat
  zone : Option Int
  deriving DecidableEq, Repr

/-- A value. -/
inductive Value where
  | null
  | bool (b : Bool)
  | int (n : Int)
  | float (x : Float)
  | text (s : String)
  | bytes (data : List UInt8)
  | date (year month day : Nat)
  | dateTime (t : DateTime)
  | list (items : List Value)
  | pair (key value : Value)
  | set (items : List Value)
  | map (pairs : List (Value × Value))
  /-- The collection that this value stands in, once more. -/
  | enclosing (isMapping : Bool)
  deriving Inhabited

namespace Value

/-- The kind of a value, in the words of a report. -/
def kindName : Value → String
  | .null => "NoneType"
  | .bool _ => "bool"
  | .int _ => "int"
  | .float _ => "float"
  | .text _ => "str"
  | .bytes _ => "bytes"
  | .date .. => "datetime.date"
  | .dateTime _ => "datetime.datetime"
  | .list _ => "list"
  | .pair .. => "tuple"
  | .set _ => "set"
  | .map _ => "dict"
  | .enclosing isMapping => if isMapping then "dict" else "list"

/-- Whether a value counts as true: not nothing, zero or empty. -/
def isTruthy : Value → Bool
  | .null => false
  | .bool b => b
  | .int n => n != 0
  | .float x => x != 0
  | .text s => s != ""
  | .bytes data => !data.isEmpty
  | .date .. | .dateTime _ | .pair .. | .enclosing _ => true
  | .list items | .set items => !items.isEmpty
  | .map pairs => !pairs.isEmpty

/-! ## Keys -/

/-- The exact number that a value counts as. -/
def number? : Value → Option (Option Int × Exact)
  | .bool b => some (some (if b then 1 else 0), .nan)
  | .int n => some (some n, .nan)
  | .float x =>
    let e := Exact.ofFloat x
    match e.toInt? with
    | some n => some (some n, .nan)
    | none => some (none, e)
  | _ => none

/-- Whether two keys are equal. What is not a number is equal to nothing. -/
def sameKey (a b : Value) : Bool :=
  match a, b with
  | .null, .null => true
  | .text s, .text t => s == t
  | .bytes s, .bytes t => s == t
  | .date y m d, .date y' m' d' => y == y' && m == m' && d == d'
  | .dateTime s, .dateTime t => s == t
  | a, b =>
    match a.number?, b.number? with
    | some (some m, _), some (some n, _) => m == n
    | some (none, x), some (none, y) => x == y && x != .nan
    | _, _ => false

/-- Whether a value can be a key. -/
def canBeKey : Value → Bool
  | .list _ | .set _ | .map _ | .enclosing _ => false
  | _ => true

/-- The pairs of a mapping with one more. -/
def insert (pairs : List (Value × Value)) (key value : Value) : List (Value × Value) :=
  match pairs with
  | [] => [(key, value)]
  | (k, v) :: rest => if k.sameKey key then (k, value) :: rest else (k, v) :: insert rest key value

/-- The value of a key that is a text. -/
def lookup? (name : String) (pairs : List (Value × Value)) : Option Value :=
  (pairs.find? fun (k, _) => k.sameKey (.text name)).map (·.2)

/-! ## Words -/

/-- The last digits of a number, with zeros in front. -/
def digits (width n : Nat) : String := String.ofList (Layout.padded width n)

/-- A span of minutes, as hours and minutes with a sign. -/
def zoneText (minutes : Int) : String :=
  let n := minutes.natAbs
  (if minutes < 0 then "-" else "+") ++ digits 2 (n / 60) ++ ":" ++ digits 2 (n % 60)

/-- A date as it is written. -/
def dateText (year month day : Nat) : String :=
  digits 4 year ++ "-" ++ digits 2 month ++ "-" ++ digits 2 day

end Value

/-- A time as it is written. -/
def DateTime.text (t : DateTime) : String :=
  Value.dateText t.year t.month t.day ++ " " ++ Value.digits 2 t.hour ++ ":" ++
    Value.digits 2 t.minute ++ ":" ++ Value.digits 2 t.second ++
    (if t.microsecond = 0 then "" else "." ++ Value.digits 6 t.microsecond) ++
    (t.zone.map Value.zoneText).getD ""

/-- A time zone in the words of a report. -/
def DateTime.zoneReport (minutes : Int) : String :=
  if minutes = 0 then "datetime.timezone.utc"
  else "datetime.timezone(" ++ spanReport (60 * minutes) ++ ")"

/-- A time in the words of a report. -/
def DateTime.report (t : DateTime) : String :=
  let small := if t.microsecond != 0 then [t.second, t.microsecond]
    else if t.second != 0 then [t.second] else []
  let numbers := [t.year, t.month, t.day, t.hour, t.minute] ++ small
  "datetime.datetime(" ++ ", ".intercalate (numbers.map toString) ++
    ((t.zone.map fun z => ", tzinfo=" ++ zoneReport z).getD "") ++ ")"

namespace Value

/-- A byte in a report: printable ASCII as it is, anything else escaped. -/
def byteReport (quote : Char) (b : UInt8) : List Char :=
  let c := Char.ofNat b.toNat
  if b < 128 then Text.quotedChar quote c else '\\' :: 'x' :: Text.hexDigits 2 b.toNat

/-- Bytes in the words of a report. -/
def bytesReport (data : List UInt8) : String :=
  let quote := Text.quoteFor (data.map fun b => Char.ofNat b.toNat)
  String.ofList ('b' :: quote :: data.flatMap (byteReport quote) ++ [quote])

mutual

/-- A value in the words of a report: texts stand between quotes. -/
def report : Value → String
  | .null => "None"
  | .bool b => if b then "True" else "False"
  | .int n => toString n
  | .float x => reportFloat x
  | .text s => Text.quoted s
  | .bytes data => bytesReport data
  | .date year month day => s!"datetime.date({year}, {month}, {day})"
  | .dateTime t => t.report
  | .list items => "[" ++ ", ".intercalate (reports items) ++ "]"
  | .pair key value => "(" ++ report key ++ ", " ++ report value ++ ")"
  | .set items =>
    if items.isEmpty then "set()" else "\x7b" ++ ", ".intercalate (reports items) ++ "\x7d"
  | .map pairs => "\x7b" ++ ", ".intercalate (pairReports pairs) ++ "\x7d"
  | .enclosing isMapping => if isMapping then "\x7b...\x7d" else "[...]"

/-- The values of a list in the words of a report. -/
def reports : List Value → List String
  | [] => []
  | v :: rest => report v :: reports rest

/-- The pairs of a mapping in the words of a report. -/
def pairReports : List (Value × Value) → List String
  | [] => []
  | (k, v) :: rest => (report k ++ ": " ++ report v) :: pairReports rest

end

mutual

/-- Whether a value holds a whole number of too many digits to be written. -/
def hasLongInt : Value → Bool
  | .int n => isLongInt n
  | .list items | .set items => haveLongInt items
  | .pair key value => key.hasLongInt || value.hasLongInt
  | .map pairs => pairsHaveLongInt pairs
  | _ => false

/-- Whether one of some values holds such a number. -/
def haveLongInt : List Value → Bool
  | [] => false
  | v :: rest => v.hasLongInt || haveLongInt rest

/-- Whether a mapping holds such a number. -/
def pairsHaveLongInt : List (Value × Value) → Bool
  | [] => false
  | (k, v) :: rest => k.hasLongInt || v.hasLongInt || pairsHaveLongInt rest

end

/-- A value as a text: texts stand for themselves, and dates are written as
dates. -/
def asText : Value → String
  | .text s => s
  | .date year month day => dateText year month day
  | .dateTime t => t.text
  | v => v.report

end Value

end SketchTurtle.Yaml
