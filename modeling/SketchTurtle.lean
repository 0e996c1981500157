import SketchTurtle.Main
import SketchTurtle.CommandLine.Session
import SketchTurtle.Config.Reader
import SketchTurtle.Log.Failure
import SketchTurtle.Log.Instant
import SketchTurtle.Log.System
import SketchTurtle.Log.Template
import SketchTurtle.Delivery.Clipboard
import SketchTurtle.Delivery.Program
import SketchTurtle.Files.Replace
import SketchTurtle.Geometry.Point
import SketchTurtle.Geometry.Splitting
import SketchTurtle.Json.Reader
import SketchTurtle.Json.Writer
import SketchTurtle.Number.Layout
import SketchTurtle.Sketch.Loading
import SketchTurtle.Text.Encoding
import SketchTurtle.Text.Line
import SketchTurtle.Turtle.Plan
import SketchTurtle.Turtle.Render
import SketchTurtle.Proofs.Number.Order
import SketchTurtle.Proofs.Geometry.Kept
import SketchTurtle.Proofs.Geometry.Recursion
import SketchTurtle.Proofs.Sketch.Valid
import SketchTurtle.Proofs.Turtle.PaintOrder
import SketchTurtle.Proofs.Turtle.Drawing
import SketchTurtle.Proofs.Turtle.Strokes
import SketchTurtle.Proofs.Number.Characters
import SketchTurtle.Proofs.Turtle.Rendering
import SketchTurtle.Proofs.Number.Shortest
import SketchTurtle.Proofs.Number.Reading
import SketchTurtle.Proofs.Number.Word
import SketchTurtle.Proofs.Json.Numbers
import SketchTurtle.Proofs.Json.Rereading
import SketchTurtle.Proofs.Sketch.Saving
import SketchTurtle.Proofs.Files.Writers
import SketchTurtle.Proofs.CommandLine.Resaving
import SketchTurtle.Proofs.Log.Setup
import SketchTurtle.Proofs.Turtle.Visible
import SketchTurtle.Proofs.Files.Outcome
import SketchTurtle.Proofs.CommandLine.Ending
import SketchTurtle.Proofs.CommandLine.Touched
import SketchTurtle.Proofs.Geometry.Farthest
import SketchTurtle.Proofs.Geometry.Tolerance
import SketchTurtle.Proofs.Sketch.Reachable
import SketchTurtle.Proofs.Turtle.Grammar
import SketchTurtle.Proofs.Number.Closest
import SketchTurtle.Proofs.Number.Places
import SketchTurtle.Proofs.Number.Parsing
import SketchTurtle.Proofs.Turtle.Literal
import SketchTurtle.Proofs.Turtle.Hundredths
import SketchTurtle.Proofs.Turtle.Projection
import SketchTurtle.Proofs.Turtle.Changes
import SketchTurtle.Proofs.Turtle.Tally
import SketchTurtle.Proofs.Turtle.Unambiguous
import SketchTurtle.Proofs.Sketch.Removal
import SketchTurtle.Proofs.Geometry.Nearness
import SketchTurtle.Proofs.Number.Overflow
import SketchTurtle.Proofs.Config.Diagnosis
import SketchTurtle.Proofs.Number.Rounding
import SketchTurtle.Proofs.Number.Arithmetic
import SketchTurtle.Proofs.Turtle.Drift
import SketchTurtle.Proofs.Turtle.Parts
import SketchTurtle.Proofs.Log.Decoding
import SketchTurtle.Proofs.Sketch.Reported
import SketchTurtle.Proofs.Delivery.Stored
import SketchTurtle.Proofs.Geometry.Segment
import SketchTurtle.Proofs.Geometry.WorkStack
import SketchTurtle.Proofs.Text.OneLine
import SketchTurtle.Proofs.CommandLine.ProgramFile
