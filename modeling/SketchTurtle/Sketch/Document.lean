/-
Documents of sketches: how layers, strokes, settings, options and projects
are read from JSON values, and how a project is written.
-/
import SketchTurtle.Sketch.Checked
import SketchTurtle.Sketch.Project
import SketchTurtle.Json.Writer

namespace SketchTurtle

open Check

/-! ## Reading -/

/-- A point. -/
def Point.ofDocument : Json → Checked (Point Float) :=
  object "Point" fun members =>
    Point.mk <$> required (.plain "x") real members <*> required (.plain "y") real members

/-- A layer. -/
def Layer.ofDocument : Json → Checked Layer :=
  object "Layer" fun members =>
    Layer.mk <$> required (.plain "id") nonempty members
      <*> required (.plain "name") freeText members
      <*> defaulted (.plain "visible") bool true members
      <*> .ok (partIsText (.plain "name") members)

/-- A stroke. -/
def Stroke.ofDocument : Json → Checked Stroke :=
  object "Stroke" fun members =>
    Stroke.mk <$> required (.plain "id") nonempty members
      <*> required ⟨"layerId", "layer_id"⟩ layerName members
      <*> required (.plain "color") Check.color members
      <*> required (.plain "width") positive members
      <*> defaulted (.plain "speed") Check.speed 6 members
      <*> defaulted (.plain "points") (items Point.ofDocument .notTuple) [] members
      <*> .ok (partIsText ⟨"layerId", "layer_id"⟩ members)

/-- The settings of a project. -/
def Settings.ofDocument : Json → Checked Settings :=
  object "ProjectSettings" fun members =>
    Settings.mk <$> defaulted (.plain "speed") Check.speed 6 members
      <*> defaulted ⟨"backgroundColor", "background_color"⟩ color "#0a0a0a" members

/-- The options of a program. -/
def Options.ofDocument : Json → Checked Options :=
  object "CompileOptions" fun members =>
    Options.mk <$> required ⟨"canvasWidth", "canvas_width"⟩ positive members
      <*> required ⟨"canvasHeight", "canvas_height"⟩ positive members
      <*> required (.plain "speed") Check.speed members
      <*> defaulted ⟨"backgroundColor", "background_color"⟩ color "#000000" members
      <*> defaulted ⟨"simplifyTolerance", "simplify_tolerance"⟩ nonnegative 2.0 members

/-- Options from values given one by one. -/
def Options.ofValues (width height speed background tolerance : Json) : Checked Options :=
  Options.ofDocument (.object [("canvas_width", width), ("canvas_height", height),
    ("speed", speed), ("background_color", background), ("simplify_tolerance", tolerance)])

/-- A project. `freshId` and `now` stand in for an identifier and a time of
modification that the document does not have. -/
def Project.ofDocument (freshId : String) (now : Int) : Json → Checked Project :=
  object "Project" fun members =>
    Project.mk <$> defaulted (.plain "id") freeText freshId members
      <*> defaulted (.plain "name") freeText Project.defaultName members
      <*> defaulted ⟨"lastModified", "last_modified"⟩ whole now members
      <*> defaulted (.plain "layers") (items Layer.ofDocument .notList) [] members
      <*> defaulted (.plain "strokes") (items Stroke.ofDocument .notList) [] members
      <*> defaulted (.plain "settings") Settings.ofDocument .default members
      <*> .ok (partIsText (.plain "id") members && partIsText (.plain "name") members)

/-- Whether reading a project draws a fresh identifier: the document is an
object without one. -/
def Project.drawsIdentifier : Json → Bool
  | .object members => (members.lookup "id").isNone
  | _ => false

/-- The options for a program of this project. -/
def Project.options (p : Project) (width height tolerance : Json) : Checked Options :=
  Options.ofValues width height (.int p.settings.value.speed.value)
    (.text p.settings.value.background.value) tolerance

/-! ## Writing -/

/-- The document of a point. -/
def Point.toDocument (p : Point Float) : Json :=
  .object [("x", .float p.x), ("y", .float p.y)]

/-- The document of a layer. -/
def Layer.toDocument (l : Layer) : Json :=
  .object [("id", .text l.id), ("name", .text l.name), ("visible", .bool l.visible.value)]

/-- The document of a stroke. -/
def Stroke.toDocument (s : Stroke) : Json :=
  .object [("id", .text s.id), ("layerId", .text s.layer), ("color", .text s.color),
    ("width", .float s.width), ("speed", .int s.speed.value),
    ("points", .array (s.points.value.map Point.toDocument))]

/-- The document of the settings. -/
def Settings.toDocument (s : Settings) : Json :=
  .object [("speed", .int s.speed.value), ("backgroundColor", .text s.background.value)]

/-- The document of a project. -/
def Project.toDocument (p : Project) : Json :=
  .object [("id", .text p.id.value), ("name", .text p.name.value),
    ("lastModified", .int p.lastModified.value),
    ("layers", .array (p.layers.value.map Layer.toDocument)),
    ("strokes", .array (p.strokes.value.map Stroke.toDocument)),
    ("settings", p.settings.value.toDocument)]

/-- The text of a project's document. -/
def Project.toText (p : Project) : String := p.toDocument.pretty

/-- What a project is saved as, if it can be: texts that are no sequences of
characters cannot be written. -/
def Project.toJson? (p : Project) : Option String := if p.allText then some p.toText else none

end SketchTurtle
