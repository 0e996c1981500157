/-
Tags, and how the tag of a plain text is found from the text alone: words for
truth values and for nothing, numbers, and times. Whatever else is written
plainly is a text.
-/
import SketchTurtle.Number.Numeral

namespace SketchTurtle.Yaml

/-- The tags of values, and those that no value is made from. -/
inductive Tag where
  | null
  | bool
  | int
  | float
  | binary
  | timestamp
  | orderedMap
  | pairs
  | set
  | str
  | seq
  | map
  /-- The key of a mapping to be merged into this one. -/
  | merge
  /-- The key of the value that stands for a whole mapping. -/
  | value
  | other (name : String)
  deriving DecidableEq, Repr

namespace Tag

/-- The part that the names of standard tags begin with. -/
def standardPart : String := "tag:yaml.org,2002:"

/-- The standard tags by what follows that part. -/
def standardNames : List (String × Tag) :=
  [("null", .null), ("bool", .bool), ("int", .int), ("float", .float), ("binary", .binary),
    ("timestamp", .timestamp), ("omap", .orderedMap), ("pairs", .pairs), ("set", .set),
    ("str", .str), ("seq", .seq), ("map", .map), ("merge", .merge), ("value", .value)]

/-- The tag of the given name. -/
def ofName (name : String) : Tag :=
  match standardNames.find? fun (n, _) => standardPart ++ n == name with
  | some (_, tag) => tag
  | none => .other name

end Tag

/-! ## Plain texts -/

/-- The words for truth values, in lower case. -/
def boolWords : List (String × Bool) :=
  [("yes", true), ("no", false), ("true", true), ("false", false), ("on", true), ("off", false)]

/-- Whether a text is a word in small letters, in capitals, or with a capital
at its beginning. -/
def isCased (word s : String) : Bool :=
  s == word || s == word.map Char.toUpper || s == word.capitalize

/-- The words for nothing. -/
def isNullWord (s : String) : Bool := s == "" || s == "~" || isCased "null" s

/-- The text without a sign in front. -/
def dropSign : List Char → List Char
  | c :: rest => if c == '+' || c == '-' then rest else c :: rest
  | [] => []

/-- Whether a text is not empty, begins with a digit, and goes on in digits
and underscores. -/
def isDigits : List Char → Bool
  | c :: rest => c.isDigit && rest.all fun d => d.isDigit || d == '_'
  | [] => false

/-- Whether a text is not empty and consists of digits below a base and
underscores. -/
def isBased (base : Nat) (s : List Char) : Bool :=
  !s.isEmpty && s.all fun c => c == '_' || (Text.hexValue? c).any (· < base)

/-- Whether a text is one or two digits that write a number below sixty. -/
def isSixtieth : List Char → Bool
  | [c] => c.isDigit
  | [c, d] => '0' ≤ c && c ≤ '5' && d.isDigit
  | _ => false

/-- The parts of a text between colons. -/
def colonParts : List Char → List (List Char)
  | [] => [[]]
  | c :: rest =>
    if c == ':' then [] :: colonParts rest
    else match colonParts rest with
      | [] => [[c]]
      | part :: parts => (c :: part) :: parts

/-- Whether a text is digits and then, after colons, numbers below sixty. -/
def isSexagesimal (s : List Char) : Bool :=
  match colonParts s with
  | whole :: part :: parts => isDigits whole && (part :: parts).all isSixtieth
  | _ => false

/-- Whether a text is a whole number. -/
def isInt (s : List Char) : Bool :=
  match dropSign s with
  | '0' :: 'b' :: rest => isBased 2 rest
  | '0' :: 'x' :: rest => isBased 16 rest
  | ['0'] => true
  | '0' :: rest => isBased 8 rest
  | rest => isDigits rest || isSexagesimal rest

/-- Whether a text is empty or an exponent with its sign. -/
def isExponent : List Char → Bool
  | [] => true
  | e :: sign :: rest =>
    (e == 'e' || e == 'E') && (sign == '+' || sign == '-') && !rest.isEmpty && rest.all Char.isDigit
  | _ => false

/-- Whether a text is a fraction, without its point, and perhaps an exponent. -/
def isFraction (s : List Char) : Bool :=
  isExponent (s.dropWhile fun c => c.isDigit || c == '_')

/-- Whether a text is a real number. -/
def isFloat (s : List Char) : Bool :=
  let unsigned := dropSign s
  let whole := unsigned.takeWhile (· != '.')
  match unsigned.dropWhile (· != '.') with
  | [] => false
  | _ :: rest =>
    let text := String.ofList rest
    if whole.isEmpty then
      ["inf", "Inf", "INF"].contains text ||
        (unsigned.length = s.length &&
          (["nan", "NaN", "NAN"].contains text || (rest.head?.any Char.isDigit && isFraction rest)))
    else
      (isDigits whole && isFraction rest) ||
        (isSexagesimal whole && rest.all fun c => c.isDigit || c == '_')

/-! ## Times -/

/-- A date, and a time of day with a time zone if they are given: the day and
its parts as they are written. The zone is an offset in minutes. -/
structure Written where
  year : Nat
  month : Nat
  day : Nat
  time : Option (Nat × Nat × Nat × List Char)
  zone : Option Int

/-- Between `least` and `most` digits at the beginning of a text, as many as
there are. -/
def digitsAt? (least most : Nat) (s : List Char) : Option (List Char × List Char) :=
  let ds := (s.take most).takeWhile Char.isDigit
  if ds.length < least then none else some (ds, s.drop ds.length)

/-- The rest after an expected character. -/
def after? (c : Char) : List Char → Option (List Char)
  | x :: rest => if x == c then some rest else none
  | [] => none

/-- A time zone, with blanks before it, to the end of the text. -/
def zone? (s : List Char) : Option (Option Int) :=
  match s.dropWhile fun c => c == ' ' || c == '\t' with
  | [] => if s.isEmpty then some none else none
  | ['Z'] => some (some 0)
  | sign :: rest => do
    if sign != '+' && sign != '-' then none
    let (hours, rest) ← digitsAt? 1 2 rest
    let minutes ← match rest with
      | [] => some []
      | ':' :: rest => do
        let (minutes, rest) ← digitsAt? 2 2 rest
        if rest.isEmpty then some minutes else none
      | _ => none
    let offset : Int := 60 * Numeral.ofDigits hours + Numeral.ofDigits minutes
    pure (some (if sign == '-' then -offset else offset))

/-- A time of day and its zone to the end of the text. -/
def time? (s : List Char) : Option ((Nat × Nat × Nat × List Char) × Option Int) := do
  let (hour, rest) ← digitsAt? 1 2 s
  let (minute, rest) ← digitsAt? 2 2 (← after? ':' rest)
  let (second, rest) ← digitsAt? 2 2 (← after? ':' rest)
  let (fraction, rest) := match rest with
    | '.' :: rest => (rest.takeWhile Char.isDigit, rest.dropWhile Char.isDigit)
    | rest => ([], rest)
  let zone ← zone? rest
  pure ((Numeral.ofDigits hour, Numeral.ofDigits minute, Numeral.ofDigits second, fraction), zone)

/-- A written date or time. A month or a day may be given by one digit. -/
def written? (s : List Char) : Option Written := do
  let (year, rest) ← digitsAt? 4 4 s
  let (month, rest) ← digitsAt? 1 2 (← after? '-' rest)
  let (day, rest) ← digitsAt? 1 2 (← after? '-' rest)
  let date : Written :=
    ⟨Numeral.ofDigits year, Numeral.ofDigits month, Numeral.ofDigits day, none, none⟩
  match rest with
  | [] => pure date
  | c :: after =>
    let (time, zone) ←
      if c == 'T' || c == 't' then time? after
      else if c == ' ' || c == '\t' then time? (after.dropWhile fun c => c == ' ' || c == '\t')
      else none
    pure { date with time := some time, zone }

/-- Whether a plain text is a time. A date alone has two digits for the month
and for the day. -/
def isTimestamp (s : List Char) : Bool :=
  match written? s with
  | some w => w.time.isSome || s.length = 10
  | none => false

/-- The tag of a plain text. -/
def Tag.ofText (s : String) : Tag :=
  let cs := s.toList
  if boolWords.any fun (word, _) => isCased word s then .bool
  else if isFloat cs then .float
  else if isInt cs then .int
  else if s == "<<" then .merge
  else if isNullWord s then .null
  else if isTimestamp cs then .timestamp
  else if s == "=" then .value
  else .str

end SketchTurtle.Yaml
