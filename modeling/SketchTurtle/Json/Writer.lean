/-
Writing JSON.

`pretty` writes saved documents: two spaces of indentation, and escapes only
where JSON demands them. `compact` writes log lines: one line of printable
ASCII.
-/
import SketchTurtle.Json.Value
import SketchTurtle.Number.Layout
import SketchTurtle.Text.Digit

namespace SketchTurtle.Json

/-- The escape by letter of a character, if it has one. -/
def letterEscape? (c : Char) : Option Char :=
  match c with
  | '"' => some '"'
  | '\\' => some '\\'
  | '\x08' => some 'b'
  | '\x0c' => some 'f'
  | '\n' => some 'n'
  | '\r' => some 'r'
  | '\t' => some 't'
  | _ => none

/-- A character of a text in a document: only the quote, the backslash and
control characters are escaped. -/
def escape (c : Char) : List Char :=
  match letterEscape? c with
  | some letter => ['\\', letter]
  | none => if c.toNat < 32 then '\\' :: 'u' :: Text.hexDigits 4 c.toNat else [c]

/-- A character of a text in a log line: all but printable ASCII is escaped,
characters beyond the first plane as a surrogate pair. -/
def escapeAscii (c : Char) : List Char :=
  match letterEscape? c with
  | some letter => ['\\', letter]
  | none =>
    let n := c.toNat
    if 32 ≤ n && n < 127 then [c]
    else if n < 0x10000 then '\\' :: 'u' :: Text.hexDigits 4 n
    else '\\' :: 'u' :: Text.hexDigits 4 (0xD800 + (n - 0x10000) / 0x400) ++
      '\\' :: 'u' :: Text.hexDigits 4 (0xDC00 + (n - 0x10000) % 0x400)

/-- A text between quotes. -/
def quoted (escape : Char → List Char) (s : String) : List Char :=
  '"' :: s.toList.flatMap escape ++ ['"']

/-- A whole number. -/
def intText (n : Int) : List Char :=
  Layout.signed (n < 0) (Layout.digitsOf n.natAbs)

/-! ## Saved documents -/

/-- A real number of a document; what is no number is written as `null`. -/
def documentFloat (x : Float) : List Char :=
  match Exact.ofFloat x with
  | .finite negative m e => Layout.document.finite negative m e
  | _ => "null".toList

/-- A line break and the indentation of the given depth. -/
def newline (depth : Nat) : List Char := '\n' :: List.replicate (2 * depth) ' '

/-- The items on lines of their own, between brackets. -/
def block (opening closing : Char) (depth : Nat) (items : List (List Char)) : List Char :=
  if items.isEmpty then [opening, closing]
  else opening :: [','].intercalate (items.map (newline (depth + 1) ++ ·)) ++
    newline depth ++ [closing]

mutual

/-- A value at the given depth of a document. -/
def prettyAt (depth : Nat) : Json → List Char
  | .null => "null".toList
  | .bool b => (if b then "true" else "false").toList
  | .int n => intText n
  | .float x => documentFloat x
  | .text s | .unpaired s => quoted escape s
  | .array items => block '[' ']' depth (prettyItems (depth + 1) items)
  | .object members => block '{' '}' depth (prettyMembers (depth + 1) members)

/-- The items of an array. -/
def prettyItems (depth : Nat) : List Json → List (List Char)
  | [] => []
  | item :: rest => prettyAt depth item :: prettyItems depth rest

/-- The members of an object. -/
def prettyMembers (depth : Nat) : List (String × Json) → List (List Char)
  | [] => []
  | (name, member) :: rest =>
    (quoted escape name ++ ':' :: ' ' :: prettyAt depth member) :: prettyMembers depth rest

end

/-- The text of a saved document. -/
def pretty (value : Json) : String := String.ofList (prettyAt 0 value)

/-! ## Log lines -/

/-- A real number of a log line. -/
def compactFloat (x : Float) : List Char :=
  match Exact.ofFloat x with
  | .nan => "NaN".toList
  | .infinite negative => Layout.signed negative "Infinity".toList
  | .finite negative m e => Layout.report.finite negative m e

/-- The items between brackets, on one line. -/
def row (opening closing : Char) (items : List (List Char)) : List Char :=
  opening :: [',', ' '].intercalate items ++ [closing]

mutual

/-- A value on one line. -/
def compactChars : Json → List Char
  | .null => "null".toList
  | .bool b => (if b then "true" else "false").toList
  | .int n => intText n
  | .float x => compactFloat x
  | .text s | .unpaired s => quoted escapeAscii s
  | .array items => row '[' ']' (compactItems items)
  | .object members => row '{' '}' (compactMembers members)

/-- The items of an array. -/
def compactItems : List Json → List (List Char)
  | [] => []
  | item :: rest => compactChars item :: compactItems rest

/-- The members of an object. -/
def compactMembers : List (String × Json) → List (List Char)
  | [] => []
  | (name, member) :: rest =>
    (quoted escapeAscii name ++ ':' :: ' ' :: compactChars member) :: compactMembers rest

end

/-- A value on one line of printable ASCII. -/
def compact (value : Json) : String := String.ofList (compactChars value)

end SketchTurtle.Json
