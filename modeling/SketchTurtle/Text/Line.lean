/-
Lines of a text. A line ends at any of ten characters, or at a carriage
return with its line feed, which count as one; a boundary at the very end
starts no further line. `oneLine` joins the lines with one space each.
`unifyLineEnds` is for files, in which only line feeds and carriage returns
end a line.
-/

namespace SketchTurtle.Text

/-- The characters that end a line. -/
def isLineBreak (c : Char) : Bool :=
  c == '\n' || c == '\r' || c == '\x0b' || c == '\x0c' || c == '\x1c' || c == '\x1d' ||
    c == '\x1e' || c == '\u0085' || c == '\u2028' || c == '\u2029'

/-- Puts a character in front of the first line. -/
def consLine (c : Char) : List (List Char) → List (List Char)
  | [] => [[c]]
  | line :: lines => (c :: line) :: lines

/-- The lines of a text, without their boundaries. -/
def lines : List Char → List (List Char)
  | [] => []
  | '\r' :: '\n' :: rest => [] :: lines rest
  | c :: rest => if isLineBreak c then [] :: lines rest else consLine c (lines rest)

/-- The text with each line boundary but a final one replaced by a space. -/
def oneLine (s : String) : String :=
  String.ofList ([' '].intercalate (lines s.toList))

/-- The text with a line feed for every carriage return, with or without a
line feed after it. -/
def unifyLineEnds : List Char → List Char
  | [] => []
  | '\r' :: '\n' :: rest => '\n' :: unifyLineEnds rest
  | '\r' :: rest => '\n' :: unifyLineEnds rest
  | c :: rest => c :: unifyLineEnds rest

end SketchTurtle.Text
