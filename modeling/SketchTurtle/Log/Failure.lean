/-
Failures that the log tells of: of which kind, and with which values. They
are written on one line after the message of their record.
-/
import SketchTurtle.Json.Report

namespace SketchTurtle.Log

/-- The kinds of failures. -/
inductive Failure.Kind where
  | value
  | key
  | runtime
  /-- The user stopped the program. -/
  | interrupt
  deriving DecidableEq, Repr

/-- The name of a kind. -/
def Failure.Kind.name : Failure.Kind → String
  | .value => "ValueError"
  | .key => "KeyError"
  | .runtime => "RuntimeError"
  | .interrupt => "KeyboardInterrupt"

/-- A failure with the values it was given. -/
structure Failure where
  kind : Failure.Kind
  values : List Json

namespace Failure

/-- What a failure says: its only value, or all of them in a row. A missing
key is quoted. -/
def description (f : Failure) : String :=
  match f.values with
  | [] => ""
  | [value] => if f.kind = .key then value.report else value.asText
  | values => "(" ++ ", ".intercalate (Json.reports values) ++ ")"

/-- A failure as it is written: its kind, and what it says. -/
def text (f : Failure) : String :=
  if f.description == "" then f.kind.name else f.kind.name ++ ": " ++ f.description

end Failure

end SketchTurtle.Log
