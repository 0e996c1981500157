/-
The text of a program: each operation gives its lines, and the lines are
joined. Texts are written as they are, but a comment stays on one line. What
no line expresses is left out and warned of.
-/
import SketchTurtle.Log.Record
import SketchTurtle.Turtle.Operation
import SketchTurtle.Turtle.Numeral
import SketchTurtle.Text.Line

namespace SketchTurtle.Turtle

/-- The lines of one operation. -/
def Operation.lines : Operation → List String
  | .bare => []
  | .importTurtle => ["import turtle"]
  | .blank => [""]
  | .comment text => ["# " ++ Text.oneLine text]
  | .setupScreen width height background =>
    ["screen = turtle.Screen()",
      "screen.bgcolor(\"" ++ background ++ "\")",
      "screen.setup(" ++ literal width ++ ", " ++ literal height ++ ")"]
  | .createTurtle speed =>
    ["t = turtle.Turtle()", "t.speed(" ++ toString speed ++ ")", "t.hideturtle()"]
  | .penUp => ["t.penup()"]
  | .penDown => ["t.pendown()"]
  | .goTo x y => ["t.goto(" ++ coordinate x ++ ", " ++ coordinate y ++ ")"]
  | .penColor color => ["t.pencolor(\"" ++ color ++ "\")"]
  | .penSize width => ["t.pensize(" ++ literal width ++ ")"]
  | .setHeading angle => ["t.setheading(" ++ coordinate angle ++ ")"]
  | .forward distance => ["t.forward(" ++ coordinate distance ++ ")"]
  | .done => ["turtle.done()"]

/-- The text of a program, without a line break at its end. -/
def Program.render (program : Program) : String :=
  "\n".intercalate (program.flatMap Operation.lines)

/-- The warning that an operation is left out of the text. -/
def Operation.warning? : Operation → Option Log.Record
  | .bare => some ⟨.warning, Log.Source.compiler, "Unsupported operation: Operation"⟩
  | _ => none

/-- The warnings that a program gives rise to, in its order. -/
def Program.warnings (program : Program) : List Log.Record :=
  program.filterMap Operation.warning?

end SketchTurtle.Turtle
