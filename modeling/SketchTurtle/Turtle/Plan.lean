/-
Planning: from visible layers and their strokes to a program.

Each stroke is simplified, moved into the turtle's frame and drawn segment by
segment. Colour and width are set only where they differ from those of the
stroke drawn before. A segment no longer than the deadband draws nothing, and
the turtle is not moved in its place.
-/
import SketchTurtle.Geometry.Simplify
import SketchTurtle.Log.Record
import SketchTurtle.Sketch.Project
import SketchTurtle.Turtle.Operation

namespace SketchTurtle.Turtle

/-- Segments of at most this length are dropped. -/
def deadband : Float := 0.5

/-- The running pen of a plan: the colour and the width set last. -/
structure Pen where
  color : String
  width : Float

/-- The pen before any stroke. No checked stroke has its colour or its width. -/
def Pen.start : Pen := ⟨"", 0⟩

/-- What a plan contains. -/
structure Tally where
  layers : Nat
  strokes : Nat
  skipped : Nat
  suppressed : Nat
  deriving DecidableEq, Repr

/-- How far planning has come. -/
structure Progress where
  pen : Pen
  tally : Tally

/-- Before any layer. -/
def Progress.start : Progress := ⟨.start, ⟨0, 0, 0, 0⟩⟩

/-- The measure by which strokes are simplified. -/
def deviation : Polyline.Measure (Point Float) Float := ⟨Point.deviation, 0⟩

/-- The points that a stroke is drawn through, in the turtle's frame. -/
def outline (options : Options) (stroke : Stroke) : List (Point Float) :=
  (Polyline.simplify deviation options.tolerance.value stroke.points.value).map
    (Point.toTurtle options.width options.height)

/-- The segments between consecutive points. -/
def segments {P : Type} (points : List P) : List (P × P) := points.zip points.tail

/-- Whether a segment is drawn. -/
def isDrawn (s : Point Float × Point Float) : Bool := deadband < Point.distance s.1 s.2

/-- The operations that draw one segment. -/
def segmentOps (s : Point Float × Point Float) : List Operation :=
  [.setHeading (Point.heading s.1 s.2), .forward (Point.distance s.1 s.2)]

/-- The operations that set what differs from the running pen. -/
def penOps (pen : Pen) (stroke : Stroke) : List Operation :=
  (if stroke.color != pen.color then [.penColor stroke.color] else []) ++
    if stroke.width != pen.width then [.penSize stroke.width] else []

/-- The operations that draw a stroke through the points of its outline. -/
def strokeOps (pen : Pen) (stroke : Stroke) (start : Point Float) (points : List (Point Float)) :
    List Operation :=
  .penUp :: .goTo start.x start.y :: penOps pen stroke ++
    .penDown :: ((segments points).filter isDrawn).flatMap segmentOps ++ [.blank]

/-- Plans one stroke. A stroke of fewer than two points is skipped. -/
def planStroke (options : Options) (progress : Progress) (stroke : Stroke) :
    Program × Progress :=
  match outline options stroke with
  | points@(start :: _ :: _) =>
    (strokeOps progress.pen stroke start points,
      { pen := ⟨stroke.color, stroke.width⟩
        tally := { progress.tally with
          strokes := progress.tally.strokes + 1
          suppressed := progress.tally.suppressed +
            ((segments points).filter (!isDrawn ·)).length } })
  | _ =>
    ([], { progress with
      tally := { progress.tally with skipped := progress.tally.skipped + 1 } })

/-- Plans strokes one after the other. -/
def planStrokes (options : Options) : Progress → List Stroke → Program × Progress
  | progress, [] => ([], progress)
  | progress, stroke :: rest =>
    let (ops, progress) := planStroke options progress stroke
    let (more, progress) := planStrokes options progress rest
    (ops ++ more, progress)

/-- Plans one layer: nothing if it is hidden or has no stroke, else its name
and its strokes. -/
def planLayer (options : Options) (strokes : List Stroke) (progress : Progress) (layer : Layer) :
    Program × Progress :=
  let own := strokes.filter (·.layer == layer.id)
  if !layer.visible.value || own.isEmpty then ([], progress)
  else
    let counted := { progress with
      tally := { progress.tally with layers := progress.tally.layers + 1 } }
    let (ops, progress) := planStrokes options counted own
    (.comment layer.name :: ops, progress)

/-- Plans layers from bottom to top. -/
def planLayers (options : Options) (strokes : List Stroke) :
    Progress → List Layer → Program × Progress
  | progress, [] => ([], progress)
  | progress, layer :: rest =>
    let (ops, progress) := planLayer options strokes progress layer
    let (more, progress) := planLayers options strokes progress rest
    (ops ++ more, progress)

/-- The operations before all layers. -/
def header (options : Options) : Program :=
  [.importTurtle, .blank, .comment "Setup",
    .setupScreen options.width options.height options.background.value, .blank,
    .createTurtle options.speed, .blank]

/-- The operations after all layers. -/
def footer : Program := [.comment "Keep window open", .done]

/-- A program and what it contains. -/
structure Plan where
  program : Program
  tally : Tally

/-- The plan for strokes on layers. -/
def plan (options : Options) (strokes : List Stroke) (layers : List Layer) : Plan :=
  let (ops, progress) := planLayers options strokes .start layers
  ⟨header options ++ ops ++ footer, progress.tally⟩

/-- The record of what a plan contains. -/
def Tally.record (t : Tally) : Log.Record :=
  ⟨.debug, Log.Source.compiler,
    s!"Planned {t.layers} layers, {t.strokes} strokes ({t.skipped} skipped), " ++
      s!"{t.suppressed} segments under deadband"⟩

end SketchTurtle.Turtle
