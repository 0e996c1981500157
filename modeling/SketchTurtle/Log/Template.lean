/-
Messages with gaps: `%d strokes` is filled from a list of values, or from an
object whose members the gaps name. A template is first read into pieces;
faults in it count only when filling comes to them, so that of two faults
the one further to the left is told.
-/
import SketchTurtle.Json.Report
import SketchTurtle.Number.Rounded
import SketchTurtle.Text.Digit

namespace SketchTurtle.Log.Template

/-! ## Pieces -/

/-- A width or a number of digits: written in the template, or taken from the
values. -/
inductive Amount where
  | written (n : Nat)
  | taken
  deriving DecidableEq, Repr

/-- The member that a gap names. -/
inductive Key where
  | none
  | named (name : String)
  | unclosed
  deriving DecidableEq, Repr

/-- How a gap is to be filled. -/
structure Gap where
  key : Key
  /-- The flags, each as its character. -/
  flags : List Char
  width : Option Amount
  precision : Option Amount
  /-- The letter that tells the form, with its place in the template. -/
  form : Option (Char × Nat)
  deriving DecidableEq, Repr

/-- A piece of a template. -/
inductive Piece where
  | literal (c : Char)
  | gap (g : Gap)
  deriving DecidableEq, Repr

/-- The characters up to the bracket that closes, and what follows it. -/
def closing : Nat → List Char → Option (List Char × List Char)
  | _, [] => none
  | depth, c :: rest =>
    if c == ')' && depth = 0 then some ([], rest)
    else
      let depth := if c == '(' then depth + 1 else if c == ')' then depth - 1 else depth
      (closing depth rest).map fun (key, rest) => (c :: key, rest)

/-- The key at the beginning of a gap. -/
def key : List Char → Key × List Char
  | '(' :: rest => match closing 0 rest with
    | some (name, rest) => (.named (String.ofList name), rest)
    | none => (.unclosed, [])
  | s => (.none, s)

/-- Whether a character is a flag. -/
def isFlag (c : Char) : Bool := c == '-' || c == '+' || c == ' ' || c == '#' || c == '0'

/-- A number written in decimal digits. -/
def decimal (ds : List Char) : Nat := ds.foldl (fun n d => 10 * n + (d.toNat - 48)) 0

/-- An amount, which may be missing. -/
def amount : List Char → Option Amount × List Char
  | '*' :: rest => (some .taken, rest)
  | s =>
    let ds := s.takeWhile Char.isDigit
    (if ds.isEmpty then none else some (.written (decimal ds)), s.dropWhile Char.isDigit)

/-- A number of digits after its point; without one it is zero. -/
def precision : List Char → Option Amount × List Char
  | '.' :: rest =>
    let (n, rest) := amount rest
    (some (n.getD (.written 0)), rest)
  | s => (none, s)

/-- The text without a letter for the size of a value, which has no meaning
here. -/
def withoutSize : List Char → List Char
  | c :: rest => if c == 'h' || c == 'l' || c == 'L' then rest else c :: rest
  | [] => []

/-- Reads a gap, of which the percent sign is already read, in a template of
the given length. -/
def readGap (length : Nat) (s : List Char) : Gap × List Char :=
  let (key, s) := key s
  let flags := s.takeWhile isFlag
  let (width, s) := amount (s.dropWhile isFlag)
  let (precision, s) := precision s
  match withoutSize s with
  | c :: rest => (⟨key, flags, width, precision, some (c, length - (rest.length + 1))⟩, rest)
  | [] => (⟨key, flags, width, precision, none⟩, [])

/-- Reads at most so many pieces of a template of the given length. -/
def readPieces (length : Nat) : Nat → List Char → List Piece
  | 0, _ => []
  | _, [] => []
  | n + 1, '%' :: '%' :: rest => .literal '%' :: readPieces length n rest
  | n + 1, '%' :: rest =>
    let (gap, rest) := readGap length rest
    .gap gap :: readPieces length n rest
  | n + 1, c :: rest => .literal c :: readPieces length n rest

/-- The pieces of a template. It has no more of them than characters. -/
def pieces (s : String) : List Piece :=
  readPieces s.toList.length s.toList.length s.toList

/-! ## Faults -/

/-- Why a template is not filled. -/
inductive Fault where
  | incomplete
  | unclosedKey
  | unnamed
  | missing (name : String)
  | widthTooBig
  | precisionTooBig
  | precisionTooLarge
  | notAmount
  | tooFew
  | tooMany
  | unknownForm (c : Char) (place : Nat)
  | notNumber (form : Char) (kind : String)
  | notInteger (form : Char) (kind : String)
  | notReal (kind : String)
  | noInteger
  | infinite
  | tooLarge
  | notCharacter
  | noCharacter
  deriving DecidableEq, Repr

/-- The wording of a fault. -/
def Fault.message : Fault → String
  | .incomplete => "incomplete format"
  | .unclosedKey => "incomplete format key"
  | .unnamed => "format requires a mapping"
  | .missing name => Text.quoted name
  | .widthTooBig => "width too big"
  | .precisionTooBig => "precision too big"
  | .precisionTooLarge => "precision too large"
  | .notAmount => "* wants int"
  | .tooFew => "not enough arguments for format string"
  | .tooMany => "not all arguments converted during string formatting"
  | .unknownForm c place =>
    let shown := if 31 ≤ c.toNat && c.toNat ≤ 126 then c else '?'
    let code := String.ofList (Nat.toDigits 16 c.toNat)
    s!"unsupported format character '{shown}' (0x{code}) at index {place}"
  | .notNumber form kind => s!"%{form} format: a real number is required, not {kind}"
  | .notInteger form kind => s!"%{form} format: an integer is required, not {kind}"
  | .notReal kind => s!"must be real number, not {kind}"
  | .noInteger => "cannot convert float NaN to integer"
  | .infinite => "cannot convert float infinity to integer"
  | .tooLarge => "int too large to convert to float"
  | .notCharacter => "%c requires int or char"
  | .noCharacter => "%c arg not in range(0x110000)"

/-! ## Values -/

/-- What is left to fill gaps with: the rest of a list, or an object and the
value that was last looked up in it and not yet used. -/
inductive Supply where
  | listed (rest : List Json)
  | named (members : List (String × Json)) (pending : Option Json)

/-- The values that a record was given. A single object that is not empty
supplies its members. -/
def Supply.ofValues : List Json → Supply
  | [.object (m :: ms)] => .named (m :: ms) (some (.object (m :: ms)))
  | values => .listed values

/-- Takes the next value. -/
def Supply.take : Supply → Except Fault (Json × Supply)
  | .listed (value :: rest) => .ok (value, .listed rest)
  | .named members (some value) => .ok (value, .named members none)
  | .listed [] | .named _ none => .error .tooFew

/-- Makes the value that a key names the next one. -/
def Supply.look : Key → Supply → Except Fault Supply
  | .none, s => .ok s
  | _, .listed _ => .error .unnamed
  | .unclosed, .named .. => .error .unclosedKey
  | .named name, .named members _ =>
    match members.lookup name with
    | some value => .ok (.named members (some value))
    | none => .error (.missing name)

/-- Whether every value has been used. Members need not be. -/
def Supply.isUsed : Supply → Bool
  | .listed rest => rest.isEmpty
  | .named .. => true

/-- An amount, taken from the values if the template says so. -/
def Supply.amount (limit : Nat) (tooBig : Fault) :
    Option Amount → Supply → Except Fault (Option Int × Supply)
  | none, s => .ok (none, s)
  | some (.written n), s => if limit < n then .error tooBig else .ok (some n, s)
  | some .taken, s => do
    match ← s.take with
    | (.int n, s) => pure (some n, s)
    | (.bool b, s) => pure (some (if b then 1 else 0), s)
    | _ => .error .notAmount

/-! ## Forms -/

/-- The greatest width. -/
def maxWidth : Nat := 9223372036854775807

/-- The greatest number of digits. -/
def maxPrecision : Nat := 2147483647

/-- How a value is laid out: its flags, its least width, and its digits. -/
structure Form where
  left : Bool
  plus : Bool
  blank : Bool
  alternate : Bool
  zero : Bool
  width : Nat
  precision : Option Nat

/-- The parts of a value's text: a sign, what stands before the digits, and
the rest. -/
structure Parts where
  sign : List Char
  lead : List Char
  body : List Char

/-- The sign of a number. -/
def Form.signOf (form : Form) (negative : Bool) : List Char :=
  if negative then ['-'] else if form.plus then ['+'] else if form.blank then [' '] else []

/-- A text brought to its width: blanks on one side, or zeros before the
digits of a number. -/
def Form.layOut (form : Form) (isNumber : Bool) (p : Parts) : List Char :=
  let text := p.sign ++ p.lead ++ p.body
  let missing := form.width - text.length
  if form.left then text ++ List.replicate missing ' '
  else if isNumber && form.zero then p.sign ++ p.lead ++ List.replicate missing '0' ++ p.body
  else List.replicate missing ' ' ++ text

/-- The base in which a form writes whole numbers, and what marks it. -/
def baseOf (form : Char) : Nat × List Char :=
  if form == 'o' then (8, "0o".toList)
  else if form == 'x' then (16, "0x".toList)
  else if form == 'X' then (16, "0X".toList)
  else (10, [])

/-- The letters of a text in capitals, if a form's letter is one. -/
def casedAs (form : Char) (s : List Char) : List Char :=
  if form.isUpper then s.map Char.toUpper else s

/-- A whole number in the base of a form. -/
def wholeParts (letter : Char) (form : Form) (n : Int) : Parts :=
  let (base, mark) := baseOf letter
  let ds := casedAs letter (Nat.toDigits base n.natAbs)
  ⟨form.signOf (n < 0), if form.alternate then mark else [],
    List.replicate (form.precision.getD 0 - ds.length) '0' ++ ds⟩

/-- The whole number that a value counts as in decimal forms. -/
def wholeOf (letter : Char) : Json → Except Fault Int
  | .int n => .ok n
  | .bool b => .ok (if b then 1 else 0)
  | .float x =>
    if (baseOf letter).1 ≠ 10 then .error (.notInteger letter "float")
    else match Exact.ofFloat x with
      | .nan => .error .noInteger
      | .infinite _ => .error .infinite
      | e => .ok (e.truncate?.getD 0)
  | value =>
    if (baseOf letter).1 ≠ 10 then .error (.notInteger letter value.kindName)
    else .error (.notNumber letter value.kindName)

/-- The double that a value counts as. -/
def realOf : Json → Except Fault Float
  | .float x => .ok x
  | .int n => match floatOfInt? n with
    | some x => .ok x
    | none => .error .tooLarge
  | .bool b => .ok (if b then 1 else 0)
  | value => .error (.notReal value.kindName)

/-- The digits that a form of real numbers has if none are asked for. -/
def standardDigits : Nat := 6

/-- A magnitude in the form that a letter tells. -/
def magnitude (letter : Char) (form : Form) (num den : Nat) : List Char :=
  let digits := form.precision.getD standardDigits
  match letter.toLower with
  | 'f' => Rounded.fixed form.alternate digits num den
  | 'e' => Rounded.scientific form.alternate digits num den
  | _ => Rounded.general form.alternate (max digits 1) num den

/-- A double in the form that a letter tells. -/
def realParts (letter : Char) (form : Form) (x : Float) : Parts :=
  match Exact.ofFloat x with
  | .nan => ⟨form.signOf false, [], casedAs letter "nan".toList⟩
  | .infinite negative => ⟨form.signOf negative, [], casedAs letter "inf".toList⟩
  | .finite negative m e =>
    let (num, den) := Exact.ratio m e
    ⟨form.signOf negative, [], casedAs letter (magnitude letter form num den)⟩

/-- A character, given as itself or by its number. -/
def charOf : Json → Except Fault Char
  | .text s => match s.toList with
    | [c] => .ok c
    | _ => .error .notCharacter
  | .int n => if n < 0 || 0x110000 ≤ n then .error .noCharacter else .ok (Char.ofNat n.toNat)
  | .bool b => .ok (Char.ofNat (if b then 1 else 0))
  | _ => .error .notCharacter

/-- A character of a text that is to be ASCII: others are escaped by their
numbers. -/
def asciiChar (c : Char) : List Char :=
  let n := c.toNat
  if n < 0x80 then [c]
  else if n < 0x100 then '\\' :: 'x' :: Text.hexDigits 2 n
  else if n < 0x10000 then '\\' :: 'u' :: Text.hexDigits 4 n
  else '\\' :: 'U' :: Text.hexDigits 8 n

/-- A text of at most as many characters as there may be. -/
def Form.cut (form : Form) (s : List Char) : Parts :=
  ⟨[], [], match form.precision with
    | some n => s.take n
    | none => s⟩

/-- A value in the form that a letter tells. -/
def convert (letter : Char) (place : Nat) (form : Form) (value : Json) :
    Except Fault (List Char) :=
  match letter with
  | 's' => .ok (form.layOut false (form.cut value.asText.toList))
  | 'r' => .ok (form.layOut false (form.cut value.report.toList))
  | 'a' => .ok (form.layOut false (form.cut (value.report.toList.flatMap asciiChar)))
  | 'd' | 'i' | 'u' | 'o' | 'x' | 'X' => do
    let n ← wholeOf letter value
    if maxPrecision - 3 < form.precision.getD 0 then .error .precisionTooLarge
    else pure (form.layOut true (wholeParts letter form n))
  | 'e' | 'E' | 'f' | 'F' | 'g' | 'G' => do
    pure (form.layOut true (realParts letter form (← realOf value)))
  | 'c' => do pure (form.layOut false ⟨[], [], [← charOf value]⟩)
  | _ => .error (.unknownForm letter place)

/-! ## Filling -/

/-- Fills a gap. A width below zero is one to the left. -/
def fillGap (gap : Gap) (s : Supply) : Except Fault (List Char × Supply) := do
  let s ← s.look gap.key
  let (width, s) ← s.amount maxWidth .widthTooBig gap.width
  let (precision, s) ← s.amount maxPrecision .precisionTooBig gap.precision
  match gap.form with
  | none => .error .incomplete
  | some (letter, place) =>
    let (value, s) ← s.take
    let form : Form := {
      left := gap.flags.contains '-' || width.getD 0 < 0
      plus := gap.flags.contains '+'
      blank := gap.flags.contains ' '
      alternate := gap.flags.contains '#'
      zero := gap.flags.contains '0'
      width := (width.getD 0).natAbs
      precision := precision.map Int.toNat }
    pure (← convert letter place form value, s)

/-- Fills the pieces of a template in their order. -/
def fillPieces : List Piece → Supply → Except Fault (List Char)
  | [], s => if s.isUsed then .ok [] else .error .tooMany
  | .literal c :: rest, s => do pure (c :: (← fillPieces rest s))
  | .gap gap :: rest, s => do
    let (text, s) ← fillGap gap s
    pure (text ++ (← fillPieces rest s))

/-- A message filled with values. Without values the message is taken as it
is. -/
def fill (message : String) (values : List Json) : Except Fault String :=
  if values.isEmpty then .ok message
  else (fillPieces (pieces message) (.ofValues values)).map String.ofList

end SketchTurtle.Log.Template
