/-
YAML documents in files.
-/
import SketchTurtle.Files.Tree
import SketchTurtle.Text.Line
import SketchTurtle.Text.Utf8
import SketchTurtle.Yaml.Document

namespace SketchTurtle

/-- Why there is no value in a file. -/
inductive Yaml.FileFault where
  | notFound (path : Path)
  | file (fault : SketchTurtle.FileFault)
  | notText (fault : Utf8Fault)
  | document (fault : Yaml.Fault)
  deriving DecidableEq, Repr

/-- The wording of a fault. -/
def Yaml.FileFault.message : Yaml.FileFault → String
  | .notFound path => s!"YAML file not found: {path.text}"
  | .file fault => fault.message
  | .notText fault => fault.message
  | .document fault => fault.message

/-- The value of the YAML document in a file. -/
def Files.readYaml (fs : Files) (path : Path) : Except Yaml.FileFault Yaml.Value := do
  if !(← (fs.exists? path).mapError .file) then .error (.notFound path)
  let bytes ← (fs.readFile path).mapError .file
  let chars ← (Utf8.decodeFrom 0 bytes).mapError .notText
  (Yaml.read (Text.unifyLineEnds chars)).mapError .document

end SketchTurtle
