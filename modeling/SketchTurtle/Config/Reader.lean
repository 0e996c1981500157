/-
The configuration: the canvas, what is taken for compiling where neither the
project nor a flag says otherwise, the name of files, and the log. It is read
from a YAML document, whose values are converted where that is possible and
then checked; the first fault is reported.
-/
import SketchTurtle.Log.Record
import SketchTurtle.Sketch.Checked
import SketchTurtle.Text.Case
import SketchTurtle.Yaml.File

namespace SketchTurtle

/-- A configuration. -/
structure Config where
  width : Float
  height : Float
  speed : Int
  background : String
  tolerance : Float
  /-- The name of the file of a program whose project has no name. -/
  filename : String
  logLevel : String
  /-- Whether the lines of the log file are JSON. -/
  logJson : Bool
  logFile : Option String

namespace Config

/-- The configuration that is used where none is given. -/
def standard : Config where
  width := 800
  height := 600
  speed := 6
  background := "#000000"
  tolerance := 2.0
  filename := "drawing.py"
  logLevel := "INFO"
  logJson := false
  logFile := none

/-- Why a value of a document does not serve. -/
inductive Unfit where
  | noParts (kind : String)
  | listParts
  | pairParts
  | textParts
  | byteParts
  | notReal (kind : String)
  | unreadableReal (report : String)
  | notWhole (kind : String)
  | unreadableWhole (report : String)
  | noNumber
  | tooManyDigits (digits : Nat)
  /-- A number in place of a text has too many digits to be written. -/
  | unwritable
  deriving DecidableEq, Repr

/-- The wording of a reason. -/
def Unfit.message : Unfit → String
  | .noParts kind => s!"'{kind}' object is not subscriptable"
  | .listParts => "list indices must be integers or slices, not str"
  | .pairParts => "tuple indices must be integers or slices, not str"
  | .textParts => "string indices must be integers, not 'str'"
  | .byteParts => "byte indices must be integers or slices, not str"
  | .notReal kind => s!"float() argument must be a string or a real number, not '{kind}'"
  | .unreadableReal report => "could not convert string to float: " ++ report
  | .notWhole kind =>
    s!"int() argument must be a string, a bytes-like object or a real number, not '{kind}'"
  | .unreadableWhole report =>
    "invalid literal for int() with base 10: " ++ Text.shortened report
  | .noNumber => "cannot convert float NaN to integer"
  | .tooManyDigits digits => longDigitsMessage digits
  | .unwritable => longIntMessage ""

/-- Values out of range. -/
inductive OutOfRange where
  | width (x : Float)
  | height (x : Float)
  | speed (n : Int)
  | background (s : String)
  | tolerance (x : Float)
  | filename (s : String)
  | logLevel (s : String)

/-- The levels that a log can have. -/
def levels : List String := ["DEBUG", "INFO", "WARNING", "ERROR", "CRITICAL"]

/-- The wording of a value out of range. -/
def OutOfRange.message : OutOfRange → String
  | .width x => "canvas.width must be a positive number, got " ++ reportFloat x
  | .height x => "canvas.height must be a positive number, got " ++ reportFloat x
  | .speed n => s!"compile.speed must be in [0, 10], got {n}"
  | .background s =>
    "compile.background_color must look like '#RRGGBB', got " ++ Text.quoted s
  | .tolerance x => "compile.simplify_tolerance must be >= 0, got " ++ reportFloat x
  | .filename s => "output.default_filename must end with '.py', got " ++ Text.quoted s
  | .logLevel s =>
    "logging.level must be one of " ++ ", ".intercalate levels ++ ", got " ++ Text.quoted s

/-- Why there is no configuration. -/
inductive Fault where
  | notFound (path : Path)
  | unreadable (fault : Yaml.FileFault)
  | empty (path : Path)
  | missing (key : String) (path : Path)
  | unfit (reason : Unfit) (path : Path)
  /-- A section is not a mapping. -/
  | notSection (kind : String)
  /-- A whole number is larger than every real one. -/
  | tooLarge
  /-- An infinite number is given where a whole one is needed. -/
  | infinite
  | outOfRange (value : OutOfRange)
  /-- The speed is out of range and has too many digits to be written. -/
  | longSpeed

/-- The wording of a fault. -/
def Fault.message : Fault → String
  | .notFound path => s!"Configuration file not found: {path.text}"
  | .unreadable fault => fault.message
  | .empty path => s!"Empty configuration file: {path.text}"
  | .missing key path => s!"Missing required config key {Text.quoted key} in {path.text}"
  | .unfit reason path => s!"Invalid value in {path.text}: {reason.message}"
  | .notSection kind => s!"'{kind}' object has no attribute 'get'"
  | .tooLarge => "int too large to convert to float"
  | .infinite => "cannot convert float infinity to integer"
  | .outOfRange value => value.message
  | .longSpeed => longIntMessage ""

/-! ## Values -/

/-- The text that bytes are read as when a number is expected. Only bytes of
ASCII are blanks, digits or letters. -/
def ofBytes (data : List UInt8) : String :=
  String.ofList (data.map fun b => if b < 128 then Char.ofNat b.toNat else Char.ofNat 0xFFFD)

/-- The value of a key of a mapping, which may be the mapping itself. -/
def member? (key : String) (pairs : List (Yaml.Value × Yaml.Value)) : Option Yaml.Value :=
  (Yaml.Value.lookup? key pairs).map fun
    | .enclosing true => .map pairs
    | v => v

/-- A part of a value that must be there. -/
def part (path : Path) (key : String) : Yaml.Value → Except Fault Yaml.Value
  | .map pairs => match member? key pairs with
    | some v => .ok v
    | none => .error (.missing key path)
  | .list _ | .enclosing false => .error (.unfit .listParts path)
  | .pair .. => .error (.unfit .pairParts path)
  | .text _ => .error (.unfit .textParts path)
  | .bytes _ => .error (.unfit .byteParts path)
  | v => .error (.unfit (.noParts v.kindName) path)

/-- A part of a mapping that may be left out. -/
def optionalPart (key : String) (default : Yaml.Value) : Yaml.Value → Except Fault Yaml.Value
  | .map pairs => .ok ((member? key pairs).getD default)
  | v => .error (.notSection v.kindName)

/-- A section that may be left out or empty. -/
def optionalSection (key : String) (v : Yaml.Value) : Except Fault Yaml.Value := do
  let s ← optionalPart key .null v
  pure (if s.isTruthy then s else .map [])

/-- A value as a real number. -/
def real (path : Path) : Yaml.Value → Except Fault Float
  | .float x => .ok x
  | .int n => match floatOfInt? n with
    | some x => .ok x
    | none => .error .tooLarge
  | .bool b => .ok (if b then 1 else 0)
  | v@(.text s) => match parseFloat? s with
    | some x => .ok x
    | none => .error (.unfit (.unreadableReal v.report) path)
  | v@(.bytes data) => match parseFloat? (ofBytes data) with
    | some x => .ok x
    | none => .error (.unfit (.unreadableReal v.report) path)
  | v => .error (.unfit (.notReal v.kindName) path)

/-- A text as a whole number. -/
def wholeOfText (path : Path) (s report : String) : Except Fault Int :=
  match parseInt s with
  | .ok n => .ok n
  | .error .malformed => .error (.unfit (.unreadableWhole report) path)
  | .error (.tooLong n) => .error (.unfit (.tooManyDigits n) path)

/-- A value as a whole number; a fraction is dropped. -/
def whole (path : Path) : Yaml.Value → Except Fault Int
  | .int n => .ok n
  | .bool b => .ok (if b then 1 else 0)
  | .float x => match Exact.ofFloat x with
    | .nan => .error (.unfit .noNumber path)
    | .infinite _ => .error .infinite
    | e => .ok (e.truncate?.getD 0)
  | v@(.text s) => wholeOfText path s v.report
  | v@(.bytes data) => wholeOfText path (ofBytes data) v.report
  | v => .error (.unfit (.notWhole v.kindName) path)

/-- A value as a text. -/
def text (path : Path) (v : Yaml.Value) : Except Fault String :=
  if v.hasLongInt then .error (.unfit .unwritable path) else .ok v.asText

/-! ## Configurations -/

/-- The configuration in the value of a document, before its values are
checked. -/
def ofValue (path : Path) (v : Yaml.Value) : Except Fault Config := do
  let canvas ← part path "canvas" v
  let width ← real path (← part path "width" canvas)
  let height ← real path (← part path "height" canvas)
  let compile ← part path "compile" v
  let speed ← whole path (← part path "speed" compile)
  let background ← text path
    (← optionalPart "background_color" (.text standard.background) compile)
  let tolerance ← real path
    (← optionalPart "simplify_tolerance" (.float standard.tolerance) compile)
  let output ← optionalSection "output" v
  let filename ← text path
    (← optionalPart "default_filename" (.text standard.filename) output)
  let logging ← optionalSection "logging" v
  let file ← optionalPart "file" .null logging
  let logLevel ← text path (← optionalPart "level" (.text standard.logLevel) logging)
  let json ← optionalPart "json" (.bool standard.logJson) logging
  let logFile ← if file.isTruthy then some <$> text path file else pure none
  pure { width, height, speed, background, tolerance, filename, logLevel, logFile
         logJson := json.isTruthy }

/-- Whether a text is a colour, perhaps with a line feed at its end. -/
def isColorLine (s : String) : Bool :=
  Check.isColor s || (s.endsWith "\n" && Check.isColor (String.ofList s.toList.dropLast))

/-- Whether a real number is finite. -/
def isFinite (x : Float) : Bool := (Exact.ofFloat x).isFinite

/-- The first value that is out of range. -/
def outOfRange? (c : Config) : Option OutOfRange :=
  if !isFinite c.width || c.width ≤ 0 then some (.width c.width)
  else if !isFinite c.height || c.height ≤ 0 then some (.height c.height)
  else if c.speed < 0 || 10 < c.speed then some (.speed c.speed)
  else if !isColorLine c.background then some (.background c.background)
  else if !isFinite c.tolerance || c.tolerance < 0 then some (.tolerance c.tolerance)
  else if !c.filename.endsWith ".py" then some (.filename c.filename)
  else if !levels.contains (Text.upper c.logLevel) then some (.logLevel c.logLevel)
  else none

/-- The configuration that a document describes. -/
def ofDocument (path : Path) (v : Yaml.Value) : Except Fault Config :=
  match v with
  | .null => .error (.empty path)
  | v => do
    let config ← ofValue path v
    match config.outOfRange? with
    | some (.speed n) => .error (if isLongInt n then .longSpeed else .outOfRange (.speed n))
    | some value => .error (.outOfRange value)
    | none => pure config

end Config

/-- A fault of a configuration file. -/
def Config.Fault.ofFile : Yaml.FileFault → Config.Fault
  | .notFound path => .notFound path
  | fault => .unreadable fault

/-- The configuration in a file. -/
def Config.load (fs : Files) (path : Path) : Except Config.Fault Config := do
  Config.ofDocument path (← (fs.readYaml path).mapError Config.Fault.ofFile)

/-- The record that a configuration is about to be loaded, written where the
file exists. -/
def Config.loading (path : String) : Log.Record :=
  ⟨.debug, Log.Source.configuration, "Loading configuration from " ++ path⟩

end SketchTurtle
