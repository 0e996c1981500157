/-
Programs for the turtle, as lists of operations, in the turtle's frame: the
origin at the centre of the screen, the second axis pointing up.
-/

namespace SketchTurtle.Turtle

/-- The kinds of operations. -/
inductive Kind where
  | bare | importTurtle | setupScreen | createTurtle | comment | blank | done
  | penUp | penDown | penColor | penSize | goTo | setHeading | forward
  deriving DecidableEq, Repr

/-- One operation of a program. -/
inductive Operation where
  /-- An operation of no particular kind, which no line of a program expresses. -/
  | bare
  | importTurtle
  | setupScreen (width height : Float) (background : String)
  | createTurtle (speed : Int)
  | comment (text : String)
  | blank
  /-- Keeps the window open. -/
  | done
  | penUp
  | penDown
  | penColor (color : String)
  | penSize (width : Float)
  | goTo (x y : Float)
  | setHeading (angle : Float)
  | forward (distance : Float)

/-- The kind of an operation. -/
def Operation.kind : Operation → Kind
  | .bare => .bare
  | .importTurtle => .importTurtle
  | .setupScreen .. => .setupScreen
  | .createTurtle _ => .createTurtle
  | .comment _ => .comment
  | .blank => .blank
  | .done => .done
  | .penUp => .penUp
  | .penDown => .penDown
  | .penColor _ => .penColor
  | .penSize _ => .penSize
  | .goTo .. => .goTo
  | .setHeading _ => .setHeading
  | .forward _ => .forward

/-- A program, in the order of execution. -/
abbrev Program := List Operation

namespace Program

/-- The number of operations of a kind. -/
def count (kind : Kind) (program : Program) : Nat :=
  program.countP fun op => op.kind == kind

/-- The parts of a program that draw strokes. Such a part begins when the pen
is lifted and ends before the next blank line; another lift starts it anew.
`current` is the part that has begun, its last operation first. -/
def strokesFrom (current : Option (List Operation)) : Program → List Program
  | [] => []
  | .penUp :: rest => strokesFrom (some [.penUp]) rest
  | .blank :: rest =>
    match current with
    | some ops => ops.reverse :: strokesFrom none rest
    | none => strokesFrom none rest
  | op :: rest => strokesFrom (current.map (op :: ·)) rest

/-- The parts of a program that draw strokes, in order. -/
def strokes (program : Program) : List Program := strokesFrom none program

end Program

end SketchTurtle.Turtle
