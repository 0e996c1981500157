/-
Loading projects from files: bytes to text, text to a document, and the
document to a project.
-/
import SketchTurtle.Files.Tree
import SketchTurtle.Json.Reader
import SketchTurtle.Json.Report
import SketchTurtle.Sketch.Document
import SketchTurtle.Text.Line
import SketchTurtle.Text.Utf8

namespace SketchTurtle

/-- Why a document is no project. -/
inductive ProjectFault where
  | notObject (kind : String)
  | invalid (refusal : Refusal)

/-- What was expected of a document. -/
def ProjectFault.notObjectMessage (kind : String) : String :=
  "Project document must be a JSON object, got " ++ kind

/-- The beginning of the report on a document that is refused. -/
def ProjectFault.invalidPrelude : String := "Project validation failed: "

/-- The wording of a fault. -/
def ProjectFault.message : ProjectFault → String
  | .notObject kind => notObjectMessage kind
  | .invalid refusal => invalidPrelude ++ refusal.report

/-- The project that a document describes. -/
def Project.parse (freshId : String) (now : Int) : Json → Except ProjectFault Project
  | document@(.object _) =>
    ((Project.ofDocument freshId now document).toExcept "Project").mapError .invalid
  | document => .error (.notObject document.kindName)

/-- Why a project is not loaded. -/
inductive LoadFault where
  | notFound (path : Path)
  | file (fault : FileFault)
  | notText (fault : Utf8Fault)
  | malformed (path : Path) (fault : Json.Fault) (position : Json.Position)
  | tooManyDigits (digits : Nat)
  | project (fault : ProjectFault)

/-- The wording of a fault. -/
def LoadFault.message : LoadFault → String
  | .notFound path => s!"Project file not found: {path.text}"
  | .file fault => fault.message
  | .notText fault => fault.message
  | .malformed path fault position =>
    let reason := (Json.ReadError.malformed fault position).message
    s!"Project file {path.text} is not valid JSON: {reason}"
  | .tooManyDigits digits => (Json.ReadError.tooManyDigits digits).message
  | .project fault => fault.message

/-- The document in a file. -/
def Files.readDocument (fs : Files) (path : Path) : Except LoadFault Json := do
  if !(← (fs.exists? path).mapError .file) then .error (.notFound path)
  let bytes ← (fs.readFile path).mapError .file
  let chars ← (Utf8.decodeFrom 0 bytes).mapError .notText
  match Json.read (String.ofList (Text.unifyLineEnds chars)) with
  | .ok document => pure document
  | .error (.malformed fault position) => .error (.malformed path fault position)
  | .error (.tooManyDigits digits) => .error (.tooManyDigits digits)

/-- The project in a file. -/
def Project.load (fs : Files) (path : Path) (freshId : String) (now : Int) :
    Except LoadFault Project := do
  (Project.parse freshId now (← fs.readDocument path)).mapError .project

end SketchTurtle
