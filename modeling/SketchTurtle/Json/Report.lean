/-
JSON values in the words of a report: the kinds have names, texts stand
between quotes, and the constants have capitals.
-/
import SketchTurtle.Json.Value
import SketchTurtle.Number.Layout
import SketchTurtle.Text.Quoted

namespace SketchTurtle.Json

/-- The kind of a value, in the words of a report. -/
def kindName : Json → String
  | .null => "NoneType"
  | .bool _ => "bool"
  | .int _ => "int"
  | .float _ => "float"
  | .text _ | .unpaired _ => "str"
  | .array _ => "list"
  | .object _ => "dict"

mutual

/-- A value in the words of a report. -/
def report : Json → String
  | .null => "None"
  | .bool b => if b then "True" else "False"
  | .int n => toString n
  | .float x => reportFloat x
  | .text s | .unpaired s => Text.quoted s
  | .array items => "[" ++ ", ".intercalate (reports items) ++ "]"
  | .object members => "\x7b" ++ ", ".intercalate (memberReports members) ++ "\x7d"

/-- The items of an array in the words of a report. -/
def reports : List Json → List String
  | [] => []
  | item :: rest => report item :: reports rest

/-- The members of an object in the words of a report. -/
def memberReports : List (String × Json) → List String
  | [] => []
  | (name, member) :: rest =>
    (Text.quoted name ++ ": " ++ report member) :: memberReports rest

end

/-- A value as a text: texts stand for themselves. -/
def asText : Json → String
  | .text s | .unpaired s => s
  | value => value.report

end SketchTurtle.Json
