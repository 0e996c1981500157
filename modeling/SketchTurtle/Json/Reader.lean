/-
Reading JSON documents.

The reader takes the standard grammar and the words `NaN`, `Infinity` and
`-Infinity`. A malformed document is reported with its first fault and the
position of that fault, as line, column and offset in characters. A whole
number of more than 4300 digits is refused.
-/
import SketchTurtle.Json.Value
import SketchTurtle.Number.Numeral

namespace SketchTurtle.Json

/-- What is wrong with a malformed document. -/
inductive Fault where
  | valueExpected
  | nameExpected
  | colonExpected
  | commaExpected
  | extraData
  | unterminatedText
  | controlCharacter
  | badEscape
  | badUnicodeEscape
  | byteOrderMark
  deriving DecidableEq, Repr

/-- The wording of a fault. -/
def Fault.message : Fault → String
  | .valueExpected => "Expecting value"
  | .nameExpected => "Expecting property name enclosed in double quotes"
  | .colonExpected => "Expecting ':' delimiter"
  | .commaExpected => "Expecting ',' delimiter"
  | .extraData => "Extra data"
  | .unterminatedText => "Unterminated string starting at"
  | .controlCharacter => "Invalid control character at"
  | .badEscape => "Invalid \\escape"
  | .badUnicodeEscape => "Invalid \\uXXXX escape"
  | .byteOrderMark => "Unexpected UTF-8 BOM (decode using utf-8-sig)"

/-- Why a text is not read as a value. While reading, a place is given by the
number of characters that follow it. -/
inductive Stop where
  | malformed (fault : Fault) (remaining : Nat)
  | tooManyDigits (digits : Nat)
  deriving DecidableEq, Repr

/-- The result of reading a part of a document: what was read, and the text
that follows. -/
abbrev Reading (α : Type) := Except Stop (α × List Char)

/-- The fault at the beginning of the given rest of the document. -/
def stopAt {α : Type} (fault : Fault) (rest : List Char) : Except Stop α :=
  .error (.malformed fault rest.length)

/-- The blanks of JSON. -/
def isBlank (c : Char) : Bool := c == ' ' || c == '\t' || c == '\n' || c == '\r'

/-- The text from its first character that is not blank. -/
def skipBlanks (s : List Char) : List Char := s.dropWhile isBlank

/-! ## Texts -/

/-- The number written by four hexadecimal digits. -/
def hex4? (a b c d : Char) : Option Nat := do
  let a ← Text.hexValue? a
  let b ← Text.hexValue? b
  let c ← Text.hexValue? c
  let d ← Text.hexValue? d
  pure (4096 * a + 256 * b + 16 * c + d)

/-- The character of an escape by letter. -/
def escaped? (c : Char) : Option Char :=
  match c with
  | '"' => some '"'
  | '\\' => some '\\'
  | '/' => some '/'
  | 'b' => some '\x08'
  | 'f' => some '\x0c'
  | 'n' => some '\n'
  | 'r' => some '\r'
  | 't' => some '\t'
  | _ => none

/-- The first half of a surrogate pair. -/
def isHighSurrogate (n : Nat) : Bool := 0xD800 ≤ n && n ≤ 0xDBFF

/-- The second half of a surrogate pair. -/
def isLowSurrogate (n : Nat) : Bool := 0xDC00 ≤ n && n ≤ 0xDFFF

/-- The character that a surrogate pair stands for. -/
def joinSurrogates (high low : Nat) : Char :=
  Char.ofNat (0x10000 + (high - 0xD800) * 0x400 + (low - 0xDC00))

/-- A text while it is read: its characters, the last one first, and whether
all of them are characters. -/
structure Spelled where
  chars : List Char
  whole : Bool

/-- Adds what one code unit stands for. -/
def Spelled.push (s : Spelled) (unit : Nat) : Spelled :=
  if isHighSurrogate unit || isLowSurrogate unit then ⟨'\uFFFD' :: s.chars, false⟩
  else ⟨Char.ofNat unit :: s.chars, s.whole⟩

/-- The value of a text that was read to its end. -/
def Spelled.value (s : Spelled) : Json :=
  let chars := String.ofList s.chars.reverse
  if s.whole then .text chars else .unpaired chars

/-- The members with one more, named by this text. A name that is no sequence
of characters is no name that a document is asked for. -/
def Spelled.addMember (s : Spelled) (members : List (String × Json)) (member : Json) :
    List (String × Json) :=
  if s.whole then insert members (String.ofList s.chars.reverse) member else members

/-- The characters of a text after its opening quote, which has `start`
characters from itself to the end of the document. -/
def spell (start : Nat) (read : Spelled) : List Char → Reading Spelled
  | [] => .error (.malformed .unterminatedText start)
  | '"' :: rest => .ok (read, rest)
  | '\\' :: 'u' :: a :: b :: c :: d :: '\\' :: 'u' :: e :: f :: g :: h :: next :: rest =>
    let here := rest.length
    match hex4? a b c d with
    | none => .error (.malformed .badUnicodeEscape (here + 12))
    | some high =>
      if isHighSurrogate high then
        match hex4? e f g h with
        | none => .error (.malformed .badUnicodeEscape (here + 6))
        | some low =>
          if isLowSurrogate low then
            spell start ⟨joinSurrogates high low :: read.chars, read.whole⟩ (next :: rest)
          else spell start (read.push high) ('\\' :: 'u' :: e :: f :: g :: h :: next :: rest)
      else spell start (read.push high) ('\\' :: 'u' :: e :: f :: g :: h :: next :: rest)
  | '\\' :: 'u' :: a :: b :: c :: d :: next :: rest =>
    match hex4? a b c d with
    | none => .error (.malformed .badUnicodeEscape (rest.length + 6))
    | some unit => spell start (read.push unit) (next :: rest)
  | '\\' :: 'u' :: rest => .error (.malformed .badUnicodeEscape (rest.length + 1))
  | ['\\'] => .error (.malformed .unterminatedText start)
  | '\\' :: c :: rest =>
    match escaped? c with
    | some c => spell start ⟨c :: read.chars, read.whole⟩ rest
    | none => .error (.malformed .badEscape (rest.length + 2))
  | c :: rest =>
    if c.toNat < 32 then .error (.malformed .controlCharacter (rest.length + 1))
    else spell start ⟨c :: read.chars, read.whole⟩ rest
  termination_by s => s.length

/-- The text that follows an opening quote. -/
def spelled (rest : List Char) : Reading Spelled :=
  spell (rest.length + 1) ⟨[], true⟩ rest

/-! ## Numbers -/

/-- The minus sign in front of a number: whether there is one, and the rest. -/
def splitMinus : List Char → Bool × List Char
  | '-' :: rest => (true, rest)
  | s => (false, s)

/-- The digits before the point: a zero alone, or those up to the first
character that is none. -/
def wholePart : List Char → List Char
  | '0' :: _ => ['0']
  | s => s.takeWhile Char.isDigit

/-- The fraction that follows the whole part: a point with digits after it. -/
def fractionPart : List Char → List Char × List Char
  | '.' :: rest =>
    let ds := rest.takeWhile Char.isDigit
    if ds.isEmpty then ([], '.' :: rest) else ('.' :: ds, rest.dropWhile Char.isDigit)
  | s => ([], s)

/-- The exponent that follows: `e` with digits after it. -/
def exponentPart : List Char → List Char × List Char
  | [] => ([], [])
  | e :: rest =>
    if e == 'e' || e == 'E' then
      let (sign, digits) := match rest with
        | '+' :: rest => (['+'], rest)
        | '-' :: rest => (['-'], rest)
        | rest => ([], rest)
      let ds := digits.takeWhile Char.isDigit
      if ds.isEmpty then ([], e :: rest) else (e :: sign ++ ds, digits.dropWhile Char.isDigit)
    else ([], e :: rest)

/-- The number at the beginning of a text, if there is one. A number with a
fraction or an exponent is real, any other is whole. -/
def number? (s : List Char) : Option (Reading Json) :=
  let (negative, digits) := splitMinus s
  let whole := wholePart digits
  if whole.isEmpty then none
  else
    let (fraction, rest) := fractionPart (digits.drop whole.length)
    let (exponent, rest) := exponentPart rest
    if fraction.isEmpty && exponent.isEmpty then
      if maxIntDigits < whole.length then some (.error (.tooManyDigits whole.length))
      else some (.ok (.int (if negative then -(Numeral.ofDigits whole : Int)
        else Numeral.ofDigits whole), rest))
    else (Numeral.decimal? negative (whole ++ fraction ++ exponent)).map fun x =>
      .ok (.float x.toFloat, rest)

/-! ## Values -/

/-- The words that stand for values. -/
def words : List (List Char × Json) :=
  [("null".toList, .null), ("true".toList, .bool true), ("false".toList, .bool false),
    ("NaN".toList, .float (Exact.toFloat .nan)),
    ("Infinity".toList, .float (Exact.toFloat (.infinite false))),
    ("-Infinity".toList, .float (Exact.toFloat (.infinite true)))]

/-- The word at the beginning of a text. -/
def word? (s : List Char) : Option (Json × List Char) :=
  words.findSome? fun (word, value) =>
    if word.isPrefixOf s then some (value, s.drop word.length) else none

mutual

/-- The value at the beginning of a text. Every value within it is read with
at most two units of `depth` less for each character that is used up. -/
def value : (depth : Nat) → List Char → Reading Json
  | 0, s => stopAt .valueExpected s
  | depth + 1, s =>
    match s with
    | '"' :: rest => (spelled rest).map fun (read, rest) => (read.value, rest)
    | '{' :: rest =>
      match skipBlanks rest with
      | '}' :: rest => .ok (.object [], rest)
      | rest => members depth [] rest
    | '[' :: rest =>
      match skipBlanks rest with
      | ']' :: rest => .ok (.array [], rest)
      | rest => items depth [] rest
    | s =>
      match word? s, number? s with
      | some (value, rest), _ => .ok (value, rest)
      | none, some reading => reading
      | none, none => stopAt .valueExpected s

/-- The items of an array from one of them to the closing bracket; `before`
holds those already read, the last one first. -/
def items : (depth : Nat) → (before : List Json) → List Char → Reading Json
  | 0, _, s => stopAt .valueExpected s
  | depth + 1, before, s =>
    match value depth s with
    | .error stop => .error stop
    | .ok (item, rest) =>
      match skipBlanks rest with
      | ']' :: rest => .ok (.array (item :: before).reverse, rest)
      | ',' :: rest => items depth (item :: before) (skipBlanks rest)
      | rest => stopAt .commaExpected rest

/-- The members of an object from the name of one of them to the closing
brace; `before` holds those already read. -/
def members : (depth : Nat) → (before : List (String × Json)) → List Char → Reading Json
  | 0, _, s => stopAt .nameExpected s
  | depth + 1, before, s =>
    match s with
    | '"' :: rest =>
      match spelled rest with
      | .error stop => .error stop
      | .ok (name, rest) =>
        match skipBlanks rest with
        | ':' :: rest =>
          match value depth (skipBlanks rest) with
          | .error stop => .error stop
          | .ok (member, rest) =>
            let read := name.addMember before member
            match skipBlanks rest with
            | '}' :: rest => .ok (.object read, rest)
            | ',' :: rest => members depth read (skipBlanks rest)
            | rest => stopAt .commaExpected rest
        | rest => stopAt .colonExpected rest
    | s => stopAt .nameExpected s

end

/-! ## Documents -/

/-- A place in a document. -/
structure Position where
  line : Nat
  column : Nat
  offset : Nat
  deriving DecidableEq, Repr

/-- The place after the given beginning of a document. -/
def Position.after (before : List Char) : Position where
  line := before.count '\n' + 1
  column := (before.reverse.takeWhile (· != '\n')).length + 1
  offset := before.length

/-- Why a document is refused. -/
inductive ReadError where
  | malformed (fault : Fault) (position : Position)
  | tooManyDigits (digits : Nat)
  deriving DecidableEq, Repr

/-- The fault and its place: `line 1 column 2 (char 1)`. -/
def ReadError.message : ReadError → String
  | .malformed fault p =>
    s!"{fault.message}: line {p.line} column {p.column} (char {p.offset})"
  | .tooManyDigits digits => longDigitsMessage digits

/-- The place of a stop in the document. -/
def Stop.inDocument (s : List Char) : Stop → ReadError
  | .malformed fault remaining => .malformed fault (.after (s.take (s.length - remaining)))
  | .tooManyDigits digits => .tooManyDigits digits

/-- The only value of a document, with blanks around it. -/
def document (s : List Char) : Except Stop Json := do
  let start := skipBlanks s
  let (value, rest) ← value (2 * s.length + 2) start
  match skipBlanks rest with
  | [] => .ok value
  | rest => stopAt .extraData rest

/-- Reads a document. That one is nested too deeply for the interpreter's stack is
left out. -/
def read (text : String) : Except ReadError Json :=
  let s := text.toList
  match s with
  | '\uFEFF' :: _ => .error (.malformed .byteOrderMark (.after []))
  | s => (document s).mapError (Stop.inDocument s)

end SketchTurtle.Json
