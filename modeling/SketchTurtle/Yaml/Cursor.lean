/-
A place in a YAML document: the text that follows, and where it is. A line
ends at a line feed, a carriage return, a next line, or one of the two
Unicode separators; a carriage return and its line feed count as one.
-/
import SketchTurtle.Yaml.Fault

namespace SketchTurtle.Yaml

/-- Whether a character ends a line. -/
def isBreak (c : Char) : Bool :=
  c == '\n' || c == '\r' || c == '\u0085' || c == '\u2028' || c == '\u2029'

/-- Whether a character is a blank within a line. -/
def isBlank (c : Char) : Bool := c == ' ' || c == '\t'

/-- The place that reading has come to. -/
structure Cursor where
  rest : List Char
  /-- The number of characters before. -/
  index : Nat
  line : Nat
  column : Nat

namespace Cursor

/-- The beginning of a document. -/
def start (s : List Char) : Cursor := ⟨s, 0, 0, 0⟩

/-- The next character, or one that comes after it. -/
def peek? (c : Cursor) (ahead : Nat) : Option Char := c.rest[ahead]?

/-- Whether the next character is the given one. -/
def isAt (c : Cursor) (expected : Char) : Bool := c.rest.head? == some expected

/-- Past the next character. A byte order mark takes no column. -/
def next (c : Cursor) : Cursor :=
  match c.rest with
  | [] => c
  | x :: rest =>
    let endsLine := isBreak x && !(x == '\r' && rest.head? == some '\n')
    { rest
      index := c.index + 1
      line := if endsLine then c.line + 1 else c.line
      column := if endsLine then 0 else if x == '\uFEFF' then c.column else c.column + 1 }

/-- Past the given number of characters. -/
def forward (c : Cursor) : Nat → Cursor
  | 0 => c
  | n + 1 => c.next.forward n

/-- The characters that satisfy a condition. -/
def taking (c : Cursor) (p : Char → Bool) : List Char := c.rest.takeWhile p

/-- Past the characters that satisfy a condition. -/
def skipping (c : Cursor) (p : Char → Bool) : Cursor := c.forward (c.taking p).length

/-- Past spaces. -/
def skipSpaces (c : Cursor) : Cursor := c.skipping (· == ' ')

/-- Whether the line ends here. -/
def atBreak (c : Cursor) : Bool := c.rest.head?.any isBreak

/-- Whether the line or the document ends here. -/
def atLineEnd (c : Cursor) : Bool := c.rest.head?.all isBreak

/-- Whether a word ends before the character that comes `ahead`: at a blank,
at the end of the line, or at the end of the document. -/
def endsWord (c : Cursor) (ahead : Nat) : Bool :=
  (c.peek? ahead).all fun x => isBlank x || isBreak x

/-- Past a line end, with what it is read as: a line feed, except that the
Unicode separators stand for themselves. -/
def lineBreak (c : Cursor) : Option Char × Cursor :=
  match c.rest with
  | '\r' :: '\n' :: _ => (some '\n', c.forward 2)
  | x :: _ =>
    if x == '\u2028' || x == '\u2029' then (some x, c.next)
    else if isBreak x then (some '\n', c.next)
    else (none, c)
  | [] => (none, c)

/-- Past a comment, if one begins here. -/
def skipComment (c : Cursor) : Cursor :=
  if c.isAt '#' then c.skipping (!isBreak ·) else c

/-- Whether three hyphens or three points stand here as a word. -/
def atSeparator (c : Cursor) : Bool :=
  (c.rest.take 3 == ['-', '-', '-'] || c.rest.take 3 == ['.', '.', '.']) && c.endsWord 3

end Cursor

end SketchTurtle.Yaml
