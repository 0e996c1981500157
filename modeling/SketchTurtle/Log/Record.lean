/-
Log records: how grave an event is, which part of the program tells of it,
and the words.
-/
import SketchTurtle.Text.Case
import SketchTurtle.Text.Quoted

namespace SketchTurtle.Log

/-- How grave a record is; a greater level is graver. -/
abbrev Level := Int

namespace Level

def debug : Level := 10
def info : Level := 20
def warning : Level := 30
def error : Level := 40
def critical : Level := 50

/-- The levels that have names. -/
def names : List (Level × String) :=
  [(0, "NOTSET"), (debug, "DEBUG"), (info, "INFO"), (warning, "WARNING"), (error, "ERROR"),
    (critical, "CRITICAL")]

/-- The name of a level. -/
def name (level : Level) : String :=
  (names.lookup level).getD s!"Level {level}"

/-- The names by which a level can be chosen. -/
def choices : List (String × Level) :=
  names.map (fun (level, name) => (name, level)) ++ [("WARN", warning), ("FATAL", critical)]

/-- Why a name chooses no level. -/
inductive Fault where
  | unknown (name : String)
  /-- The name stands for a text. -/
  | notLevel (text : String)
  deriving DecidableEq, Repr

/-- The wording of a fault. -/
def Fault.message : Fault → String
  | .unknown name => s!"module 'logging' has no attribute '{name}'"
  | .notLevel text => "Unknown level: " ++ Text.quoted text

/-- The name of the layout of plain lines, which is no level. -/
def layoutName : String := "BASIC_FORMAT"

/-- The layout of plain lines. -/
def layout : String := "%(levelname)s:%(name)s:%(message)s"

/-- The level of the given name; small letters count as capitals. -/
def ofName (name : String) : Except Fault Level :=
  let name := Text.upper name
  match choices.lookup name with
  | some level => .ok level
  | none => .error (if name == layoutName then .notLevel layout else .unknown name)

end Level

/-- The names under which the parts of the program write. -/
def Source.compiler : String := "pysketch.codegen.generator"
def Source.delivery : String := "pysketch.delivery.export"
def Source.configuration : String := "pysketch.configs.loader"
def Source.commands : String := "pysketch.scripts.compile_project"
def Source.logging : String := "pysketch.utils.logging_config"
def Source.warnings : String := "py.warnings"

/-- One entry of the log. -/
structure Record where
  level : Level
  source : String
  message : String
  deriving DecidableEq, Repr

end SketchTurtle.Log
