/-
Checking documents. A check yields a value or all the faults found, each with
the path of the part that is wrong. Faults of several parts add up in the
order of the parts.
-/
import SketchTurtle.Json.Value
import SketchTurtle.Number.Numeral
import SketchTurtle.Number.Layout
import SketchTurtle.Sketch.Slot

namespace SketchTurtle

/-- What is wrong with a part of a document. -/
inductive Problem where
  | missing
  | notObject (model : String)
  | notList
  | notTuple
  | notText
  | unpairedText
  | emptyText
  | notColor
  | notReal
  | unreadableReal
  | notWhole
  | unreadableWhole
  | fractional
  | notFinite
  | tooLarge
  | notBool
  | unreadableBool
  | notAbove (bound : Int)
  | below (bound : Int)
  | above (bound : Int)
  deriving DecidableEq, Repr

/-- The short name of a problem. -/
def Problem.kind : Problem → String
  | .missing => "missing"
  | .notObject _ => "model_type"
  | .notList => "list_type"
  | .notTuple => "tuple_type"
  | .notText => "string_type"
  | .unpairedText => "string_unicode"
  | .emptyText => "string_too_short"
  | .notColor => "string_pattern_mismatch"
  | .notReal => "float_type"
  | .unreadableReal => "float_parsing"
  | .notWhole => "int_type"
  | .unreadableWhole => "int_parsing"
  | .fractional => "int_from_float"
  | .notFinite => "finite_number"
  | .tooLarge => "int_parsing_size"
  | .notBool => "bool_type"
  | .unreadableBool => "bool_parsing"
  | .notAbove _ => "greater_than"
  | .below _ => "greater_than_equal"
  | .above _ => "less_than_equal"

/-- The wording of a problem. -/
def Problem.message : Problem → String
  | .missing => "Field required"
  | .notObject model => s!"Input should be a valid dictionary or instance of {model}"
  | .notList => "Input should be a valid list"
  | .notTuple => "Input should be a valid tuple"
  | .notText => "Input should be a valid string"
  | .unpairedText =>
    "Input should be a valid string, unable to parse raw data as a unicode string"
  | .emptyText => "String should have at least 1 character"
  | .notColor => "String should match pattern '^#[0-9a-fA-F]\x7b6\x7d$'"
  | .notReal => "Input should be a valid number"
  | .unreadableReal => "Input should be a valid number, unable to parse string as a number"
  | .notWhole => "Input should be a valid integer"
  | .unreadableWhole => "Input should be a valid integer, unable to parse string as an integer"
  | .fractional => "Input should be a valid integer, got a number with a fractional part"
  | .notFinite => "Input should be a finite number"
  | .tooLarge => "Unable to parse input string as an integer, exceeded maximum size"
  | .notBool => "Input should be a valid boolean"
  | .unreadableBool => "Input should be a valid boolean, unable to interpret input"
  | .notAbove bound => s!"Input should be greater than {bound}"
  | .below bound => s!"Input should be greater than or equal to {bound}"
  | .above bound => s!"Input should be less than or equal to {bound}"

/-- One step from a document into a part of it. -/
inductive Step where
  | name (name : String)
  | index (i : Nat)
  deriving DecidableEq, Repr

/-- The text of a step. -/
def Step.text : Step → String
  | .name s => s
  | .index i => toString i

/-- A problem of the part at the end of a path. -/
structure Fault where
  path : List Step
  problem : Problem
  deriving DecidableEq, Repr

/-- The path of a fault, its steps joined by points. -/
def Fault.location (f : Fault) : String := ".".intercalate (f.path.map Step.text)

/-- A value, or the faults that prevent it. -/
inductive Checked (α : Type) where
  | ok (value : α)
  | faulty (faults : List Fault)

namespace Checked

/-- Checks side by side: both are made, and their faults add up. -/
instance : Applicative Checked where
  pure := ok
  seq
    | ok f, x => match x () with
      | ok a => ok (f a)
      | faulty faults => faulty faults
    | faulty faults, x => match x () with
      | ok _ => faulty faults
      | faulty more => faulty (faults ++ more)

/-- A single problem of the part at hand. -/
def problem {α : Type} (p : Problem) : Checked α := faulty [⟨[], p⟩]

/-- A check of the part one step further. -/
def within {α : Type} (step : Step) : Checked α → Checked α
  | ok a => ok a
  | faulty faults => faulty (faults.map fun f => { f with path := step :: f.path })

/-- A further check of a value. -/
def andThen {α β : Type} (x : Checked α) (f : α → Checked β) : Checked β :=
  match x with
  | ok a => f a
  | faulty faults => faulty faults

/-- The value, unless the condition fails for it. -/
def require {α : Type} (x : Checked α) (condition : α → Bool) (p : Problem) : Checked α :=
  x.andThen fun a => if condition a then ok a else problem p

/-- All values of a list, or the faults of all its items. -/
def all {α : Type} : List (Checked α) → Checked (List α)
  | [] => pure []
  | x :: rest => (· :: ·) <$> x <*> all rest

end Checked

/-! ## Simple values -/

namespace Check

/-- A text without its underscores, unless one is first, last or next to
another. -/
def withoutUnderscores? (s : List Char) : Option (List Char) :=
  let rec go (last : Bool) : List Char → Option (List Char)
    | [] => if last then none else some []
    | c :: rest =>
      if c == '_' then (if last then none else go true rest)
      else (go false rest).map (c :: ·)
  go true s

/-- A text of which something is asked. -/
def text : Json → Checked String
  | .text s => .ok s
  | .unpaired _ => .problem .unpairedText
  | _ => .problem .notText

/-- A text of which nothing is asked, not even that all of it is characters. -/
def freeText : Json → Checked String
  | .text s | .unpaired s => .ok s
  | _ => .problem .notText

/-- The identifier of a layer that is looked up. None has the empty one, which
stands for those that are no sequence of characters. -/
def layerName : Json → Checked String
  | .text s => .ok s
  | .unpaired _ => .ok ""
  | _ => .problem .notText

/-- A text of at least one character. -/
def nonempty (value : Json) : Checked String :=
  (text value).require (· != "") .emptyText

/-- Whether a text is a number sign and six hexadecimal digits. -/
def isColor (s : String) : Bool :=
  match s.toList with
  | '#' :: digits => digits.length == 6 && digits.all fun c =>
      c.isDigit || ('a' ≤ c && c ≤ 'f') || ('A' ≤ c && c ≤ 'F')
  | _ => false

/-- A colour. -/
def color (value : Json) : Checked String :=
  (text value).require isColor .notColor

/-- The real number written in a text. -/
def real? (s : String) : Option Float :=
  ((withoutUnderscores? (Text.trim s.toList)).bind Numeral.real?).map Exact.toFloat

/-- A real number, also one given as a truth value, as a whole number or as a
text. -/
def real : Json → Checked Float
  | .float x => .ok x
  | .int n => match floatOfInt? n with
    | some x => .ok x
    | none => .problem .notReal
  | .bool b => .ok (if b then 1 else 0)
  | .text s => match real? s with
    | some x => .ok x
    | none => .problem .unreadableReal
  | .unpaired _ => .problem .unreadableReal
  | _ => .problem .notReal

/-- Digits without the zeros in front, among which underscores are passed over.
Where there is nothing else, the last character is left. -/
def withoutZeros (s : List Char) : List Char :=
  if s.head? == some '0' then
    match s.dropWhile fun c => c == '0' || c == '_' with
    | [] => s.getLast?.toList
    | rest => rest
  else s

/-- A whole number written in a text: a sign, digits that may be set apart by
underscores, and a fraction of nothing but zeros. -/
def whole? (s : List Char) : Option Int := do
  let (negative, s) := Numeral.splitSign s
  let whole := s.takeWhile (· != '.')
  let fraction := s.dropWhile (· != '.')
  let digits ← withoutUnderscores? (withoutZeros whole)
  if digits.isEmpty || !digits.all Char.isDigit then none
  else match fraction with
    | [] => pure ()
    | _ :: zeros => if zeros.isEmpty || !zeros.all (· == '0') then none else pure ()
  let n : Int := Numeral.ofDigits digits
  pure (if negative then -n else n)

/-- The whole numbers that a real number may stand for lie in a word of
sixty-four bits. -/
def wholeOfFloat (x : Float) : Checked Int :=
  match Exact.ofFloat x with
  | .finite negative m e =>
    match Exact.toInt? (.finite negative m e) with
    | none => .problem .fractional
    | some n =>
      if Int64.minValue.toInt ≤ n && n ≤ Int64.maxValue.toInt + 1 then
        .ok (min n Int64.maxValue.toInt)
      else .problem .tooLarge
  | _ => .problem .notFinite

/-- A whole number, also one given as a truth value, as a real number without
fraction or as a text. -/
def whole : Json → Checked Int
  | .int n => .ok n
  | .bool b => .ok (if b then 1 else 0)
  | .float x => wholeOfFloat x
  | .text s =>
    let s := Text.trim s.toList
    if maxIntDigits < s.length then .problem .tooLarge
    else match whole? s with
      | some n => .ok n
      | none => .problem .unreadableWhole
  | .unpaired _ => .problem .unreadableWhole
  | _ => .problem .notWhole

/-- The truth value that a whole number stands for. -/
def boolOfWhole (n : Int) : Checked Bool :=
  if n = 0 then .ok false else if n = 1 then .ok true else .problem .unreadableBool

/-- The words for truth values, in lower case. -/
def boolWords : List (String × Bool) :=
  [("0", false), ("off", false), ("f", false), ("false", false), ("n", false), ("no", false),
    ("1", true), ("on", true), ("t", true), ("true", true), ("y", true), ("yes", true)]

/-- The truth value that a real number stands for. -/
def boolOfFloat (x : Float) : Checked Bool :=
  match wholeOfFloat x with
  | .ok n => boolOfWhole n
  | .faulty _ => .problem .notBool

/-- A truth value, also one given as a number or as a word. A whole number
that does not fit in a word of sixty-four bits is taken as a real one. -/
def bool : Json → Checked Bool
  | .bool b => .ok b
  | .int n =>
    if Int64.minValue.toInt ≤ n && n ≤ Int64.maxValue.toInt then boolOfWhole n
    else match floatOfInt? n with
      | some x => boolOfFloat x
      | none => .problem .notBool
  | .float x => boolOfFloat x
  | .text s => match boolWords.lookup (s.map Char.toLower) with
    | some b => .ok b
    | none => .problem .unreadableBool
  | .unpaired _ => .problem .unreadableBool
  | _ => .problem .notBool

/-- A whole number from zero to ten. -/
def speed (value : Json) : Checked Int :=
  ((whole value).require (· ≤ 10) (.above 10)).require (0 ≤ ·) (.below 0)

/-- A real number above zero. -/
def positive (value : Json) : Checked Float :=
  (real value).require (0 < ·) (.notAbove 0)

/-- A real number that is not below zero. -/
def nonnegative (value : Json) : Checked Float :=
  (real value).require (0 ≤ ·) (.below 0)

end Check

/-! ## Objects -/

/-- A named part of an object. Some parts have a second name, which is only
looked at when there is nothing under the first. -/
structure PartName where
  first : String
  second : Option String := none

/-- A part with one name. -/
def PartName.plain (name : String) : PartName := ⟨name, none⟩

/-- The part and the name under which it was found. -/
def PartName.find? (p : PartName) (members : List (String × Json)) : Option (String × Json) :=
  match members.lookup p.first, p.second with
  | some value, _ => some (p.first, value)
  | none, some second => (members.lookup second).map (second, ·)
  | none, none => none

namespace Check

/-- A part that must be there. -/
def required {α : Type} (p : PartName) (check : Json → Checked α)
    (members : List (String × Json)) : Checked α :=
  match p.find? members with
  | some (name, value) => (check value).within (.name name)
  | none => (Checked.problem .missing).within (.name p.first)

/-- A part that has a default. -/
def defaulted {α : Type} (p : PartName) (check : Json → Checked α) (default : α)
    (members : List (String × Json)) : Checked (Slot α) :=
  match p.find? members with
  | some (name, value) => Slot.of <$> (check value).within (.name name)
  | none => .ok (.default default)

/-- Whether a part is a sequence of characters, if it is a text. -/
def partIsText (p : PartName) (members : List (String × Json)) : Bool :=
  match p.find? members with
  | some (_, .unpaired _) => false
  | _ => true

/-- The items of an array. -/
def items {α : Type} (check : Json → Checked α) (wrong : Problem) : Json → Checked (List α)
  | .array values => .all (values.mapIdx fun i value => (check value).within (.index i))
  | _ => .problem wrong

/-- The parts of an object of the given kind. -/
def object {α : Type} (model : String) (check : List (String × Json) → Checked α) :
    Json → Checked α
  | .object members => check members
  | _ => .problem (.notObject model)

end Check

/-! ## Reports -/

/-- The refusal of a document of the given kind. -/
structure Refusal where
  model : String
  faults : List Fault

/-- The number of faults and the kind of document. -/
def Refusal.headline (r : Refusal) : String :=
  let count := r.faults.length
  let noun := if count = 1 then "error" else "errors"
  s!"{count} validation {noun} for {r.model}"

/-- The headline, and two lines for each fault. -/
def Refusal.report (r : Refusal) : String :=
  "\n".intercalate (r.headline :: r.faults.flatMap fun f =>
    [f.location, "  " ++ f.problem.message])

/-- The value, or the refusal of the document. -/
def Checked.toExcept {α : Type} (model : String) : Checked α → Except Refusal α
  | .ok a => .ok a
  | .faulty faults => .error ⟨model, faults⟩

end SketchTurtle
