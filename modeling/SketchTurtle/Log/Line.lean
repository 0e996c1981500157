/-
The lines of the log. People read the time, the level, the fields that the
program carries along, and the message; JSON lines hold the same as members
of one object, in which a field takes the place of a member of its name.
-/
import SketchTurtle.Json.Writer
import SketchTurtle.Log.Failure
import SketchTurtle.Log.Instant
import SketchTurtle.Log.Record

namespace SketchTurtle.Log

/-- The fields that stand in every line. -/
abbrev Context := List (String × Json)

namespace Context

/-- The fields with others added; a field that is there keeps its place. -/
def push (context fields : Context) : Context :=
  fields.foldl (fun context (name, value) => Json.insert context name value) context

/-- The fields without those of the given names. -/
def pop (context : Context) (names : List String) : Context :=
  context.filter fun (name, _) => !names.contains name

/-- The fields as people read them. -/
def text (context : Context) : String :=
  " ".intercalate (context.map fun (name, value) => name ++ "=" ++ value.asText)

end Context

/-- When something is told, and by which process. -/
structure Stamp where
  time : Instant
  process : Nat

/-- A record that is told, perhaps with a failure. -/
structure Event where
  record : Record
  stamp : Stamp
  failure? : Option Failure

/-- How lines are written. -/
structure Style where
  /-- Whether they are JSON. -/
  json : Bool
  /-- Whether levels are coloured. -/
  colored : Bool
  /-- Whether JSON lines tell the time zone. -/
  zoned : Bool

namespace Style

/-- The codes that switch to the colour of a level. -/
def colors : List (String × String) :=
  [("DEBUG", "\x1b[36m"), ("INFO", "\x1b[32m"), ("WARNING", "\x1b[33m"), ("ERROR", "\x1b[31m"),
    ("CRITICAL", "\x1b[35m")]

/-- The code that ends a colour. -/
def plain : String := "\x1b[0m"

/-- A level in a column of eight characters. -/
def levelColumn (colored : Bool) (level : Level) : String :=
  let name := level.name
  let column := name.pushn ' ' (8 - name.length)
  if colored then (colors.lookup name).getD "" ++ column ++ plain else column

/-- A line for people. -/
def readable (colored : Bool) (context : Context) (e : Event) : String :=
  let fields := context.text
  e.stamp.time.text ++ " | " ++ levelColumn colored e.record.level ++ " | " ++
    (if fields == "" then "" else fields ++ " | ") ++ e.record.message ++
    (match e.failure? with
      | some f => "\n" ++ f.text
      | none => "")

/-- The members of a JSON line. -/
def members (zoned : Bool) (context : Context) (e : Event) : List (String × Json) :=
  let own : List (String × Json) :=
    [("t", .text (e.stamp.time.exactText zoned)), ("lvl", .text e.record.level.name),
      ("name", .text e.record.source), ("pid", .int e.stamp.process),
      ("msg", .text e.record.message)]
  let all := Context.push own context
  match e.failure? with
  | some f => Json.insert all "exc" (.text f.text)
  | none => all

/-- The line of an event. -/
def line (style : Style) (context : Context) (e : Event) : String :=
  if style.json then (Json.object (members style.zoned context e)).compact
  else readable style.colored context e

end Style

end SketchTurtle.Log
