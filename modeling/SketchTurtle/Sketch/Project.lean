/-
Sketch projects: layers and strokes in their orders, and the settings saved
with them.
-/
import SketchTurtle.Geometry.Point
import SketchTurtle.Sketch.Slot

namespace SketchTurtle

/-- A named bucket of strokes, which can be hidden. -/
structure Layer where
  id : String
  name : String
  visible : Slot Bool
  /-- Whether the name is a sequence of characters. -/
  isText : Bool := true

/-- One gesture: its sampled points on the canvas, and the pen that drew it.
The layer is only looked up; a stroke whose layer does not exist is kept and
never drawn. -/
structure Stroke where
  id : String
  layer : String
  color : String
  width : Float
  speed : Slot Int
  points : Slot (List (Point Float))
  /-- Whether the identifier of the layer is a sequence of characters. -/
  isText : Bool := true

/-- Whether a stroke is on the layer of an identifier. -/
def Stroke.isOn (s : Stroke) (id : String) : Bool := s.isText && s.layer == id

/-- The settings saved with a project. -/
structure Settings where
  speed : Slot Int
  background : Slot String

/-- How one program is to be made: the canvas, the speed of the turtle, the
background, and the tolerance of simplification. -/
structure Options where
  width : Float
  height : Float
  speed : Int
  background : Slot String
  tolerance : Slot Float

/-- A saved sketch. Layers are ordered from bottom to top, strokes as they
were drawn. -/
structure Project where
  id : Slot String
  name : Slot String
  lastModified : Slot Int
  layers : Slot (List Layer)
  strokes : Slot (List Stroke)
  settings : Slot Settings
  /-- Whether the identifier and the name are sequences of characters. -/
  isText : Bool := true

namespace Settings

/-- The settings of a project that has none. -/
def default : Settings := ⟨.default 6, .default "#0a0a0a"⟩

end Settings

namespace Project

/-- The project without a layer and without the strokes on it. -/
def removeLayer (p : Project) (layer : String) (now : Int) : Project :=
  { p with
    layers := .of (p.layers.value.filter (·.id != layer))
    strokes := .of (p.strokes.value.filter (!·.isOn layer))
    lastModified := .of now }

/-- The name of a project that was given none. -/
def defaultName : String := "Untitled Project"

/-- An empty project with one visible layer. -/
def new (name : String) (layerId projectId : String) (now : Int) : Project where
  id := .default projectId
  name := .of name
  lastModified := .default now
  layers := .of [{ id := layerId, name := "Layer 1", visible := .of true }]
  strokes := .default []
  settings := .default .default

/-- Whether all texts of a project are sequences of characters. -/
def allText (p : Project) : Bool :=
  p.isText && p.layers.value.all (·.isText) && p.strokes.value.all (·.isText)

end Project

/-! ## Identifiers -/

/-- The identifier drawn as the `n`th: the number in thirty-two hexadecimal
digits. -/
def identifier (n : Nat) : String :=
  let ds := Nat.toDigits 16 n
  String.ofList (List.replicate (32 - ds.length) '0' ++ ds)

end SketchTurtle
