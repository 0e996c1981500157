/-
Texts quoted in messages. A text stands between single quotes, or between
double quotes if it holds a single quote and no double one. What does not
show is written by an escape.
-/
import SketchTurtle.Text.Digit
import SketchTurtle.Text.Printable

namespace SketchTurtle.Text

/-- One character of a text between the given quotes. -/
def quotedChar (quote c : Char) : List Char :=
  if c == quote || c == '\\' then ['\\', c]
  else if c == '\n' then ['\\', 'n']
  else if c == '\r' then ['\\', 'r']
  else if c == '\t' then ['\\', 't']
  else if isPrintable c then [c]
  else
    let n := c.toNat
    if n < 0x100 then '\\' :: 'x' :: hexDigits 2 n
    else if n < 0x10000 then '\\' :: 'u' :: hexDigits 4 n
    else '\\' :: 'U' :: hexDigits 8 n

/-- The quotes that a text is put between. -/
def quoteFor (s : List Char) : Char :=
  if s.contains '\'' && !s.contains '"' then '"' else '\''

/-- A text between quotes. -/
def quoted (s : String) : String :=
  let quote := quoteFor s.toList
  String.ofList (quote :: s.toList.flatMap (quotedChar quote) ++ [quote])

/-- The part of a report that a message has room for. -/
def shortened (report : String) : String := String.ofList (report.toList.take 200)

end SketchTurtle.Text
