/-
Running commands: each reads its configuration, sets up the log, does its
work and ends with a status. The files, the log and what is printed live on
from one command to the next.
-/
import SketchTurtle.CommandLine.Settings
import SketchTurtle.Delivery.Clipboard
import SketchTurtle.Delivery.Program
import SketchTurtle.Log.System
import SketchTurtle.Sketch.Loading
import SketchTurtle.Turtle.Plan
import SketchTurtle.Turtle.Render

namespace SketchTurtle.CommandLine

/-- Why the output does not take a text. -/
inductive OutputFault where
  /-- The encoding of the output has no bytes for one of the characters. -/
  | unencodable (reason : String)
  | refused (errno : Errno)
  deriving DecidableEq, Repr

/-- The wording of a fault. -/
def OutputFault.message : OutputFault → String
  | .unencodable reason => reason
  | .refused errno => s!"[Errno {errno.number}] {errno.text}"

/-- What a command finds: the time and the process, whether the error stream
is a terminal, the clipboard commands, and the identifiers in the order in
which they are drawn. -/
structure Surroundings where
  stamp : Log.Stamp
  isTerminal : Bool
  clipboard : Delivery.Commands
  identifier : Nat → String
  /-- Why a line cannot be printed, if it cannot. -/
  outputFault? : String → Option OutputFault := fun _ => none

/-- The time of modification of what is made now, in milliseconds. -/
def Surroundings.now (env : Surroundings) : Int := env.stamp.time.microseconds / 1000

/-- What commands change. -/
structure Session where
  files : Files
  log : Log.System
  output : String
  errors : String
  /-- How many identifiers have been drawn. -/
  drawn : Nat

namespace Session

/-- A session in which nothing has happened. -/
def start (files : Files) : Session := ⟨files, .initial, "", "", 0⟩

/-- The session with a line printed. -/
def print (s : Session) (line : String) : Session := { s with output := s.output ++ line ++ "\n" }

/-- Prints on the error stream. -/
def complain (s : Session) (text : String) : Session := { s with errors := s.errors ++ text }

/-- Tells the log of a record. -/
def tell (env : Surroundings) (r : Log.Record) (s : Session) : Session :=
  let (log, o) := s.log.tell ⟨r, env.stamp, none⟩ ⟨s.files, s.errors⟩
  { s with log, files := o.files, errors := o.errors }

end Session

/-- Why a command fails. -/
inductive Trouble where
  | load (fault : LoadFault)
  | options (refusal : Refusal)
  | store (fault : Delivery.Fault)
  | save (fault : WriteFault)
  | output (fault : OutputFault)
  /-- A program is no sequence of characters. -/
  | unpairedText

namespace Trouble

/-- The wording of a trouble. -/
def message : Trouble → String
  | .load fault => fault.message
  | .options refusal => refusal.report
  | .store fault => fault.message
  | .save fault => fault.message
  | .output fault => fault.message
  | .unpairedText => "'utf-8' codec can't encode characters: surrogates not allowed"

/-- The refusal of a file operation that a command does not handle: any but
that something is missing. -/
def unhandledFile? : FileFault → Option FileFault
  | .refused .noEntry .. | .nullByte => none
  | fault => some fault

/-- The output, where a fault of it is told of as one of a file. -/
def outputPath : Path := ⟨"", ["<stdout>"]⟩

/-- The refusal of a file operation that a command does not handle. -/
def unhandled? : Trouble → Option FileFault
  | .load (.file fault) | .save (.file fault) => unhandledFile? fault
  | .output (.refused errno) => unhandledFile? (.on outputPath errno)
  | _ => none

end Trouble

/-- Prints a line, if the output takes it. -/
def printLine (env : Surroundings) (line : String) (s : Session) : Except Trouble Unit × Session :=
  match env.outputFault? line with
  | some fault => (.error (.output fault), s)
  | none => (.ok (), s.print line)

/-! ## Compiling -/

/-- Loads a project. Its name is a field of the log from then on. -/
def loadProject (env : Surroundings) (path : String) (s : Session) :
    Except LoadFault Project × Session :=
  match s.files.readDocument (.ofString path) with
  | .error fault => (.error fault, s)
  | .ok document =>
    let drawn := if Project.drawsIdentifier document then s.drawn + 1 else s.drawn
    let s := { s with drawn }
    match Project.parse (env.identifier drawn) env.now document with
    | .error fault => (.error (.project fault), s)
    | .ok project =>
      (.ok project, { s with log := s.log.push [("project", .text project.name.value)] })

/-- The record that a project is about to be compiled. -/
def compiling (project : Project) (options : Options) : Log.Record :=
  let strokes := project.strokes.value.length
  let layers := project.layers.value.length
  let label := speedLabel options.speed
  let tolerance := reportFloat options.tolerance.value
  ⟨.info, Log.Source.commands,
    s!"Compiling {strokes} strokes on {layers} layers " ++
      s!"(speed {options.speed} {label}, tolerance {tolerance})"⟩

/-- The file for the program of a project. -/
def programTarget (project : Project) (config : Config) (output : Option String) : Path :=
  match output.filter (· != "") with
  | some path => .ofString path
  | none =>
    let name := project.name.value
    Delivery.fileIn "" (if name == "" then config.filename else Delivery.programFilename name)

/-- What is printed once a program is stored. -/
def writtenLine (target : Path) : String := s!"Program written to: {target.text}"

/-- Stores a program. -/
def storeProgram (env : Surroundings) (target : Path) (code : String) (s : Session) :
    Except Trouble Unit × Session :=
  match Delivery.store s.files target code with
  | (.error fault, files) => (.error (.store fault), { s with files })
  | (.ok (), files) =>
    printLine env (writtenLine target) ({ s with files }.tell env (Delivery.stored target code))

/-- What is printed of the clipboard: whether a program was copied to it. -/
def copiedLine (copied : Bool) : String :=
  if copied then "Program copied to clipboard." else "Could not copy to clipboard."

/-- Copies a program to the clipboard, if it is meant for it. -/
def copyProgram (env : Surroundings) (r : CompileRequest) (code : String) (s : Session) :
    Except Trouble Unit × Session :=
  if r.clipboard then
    let copying := Delivery.copy env.clipboard code
    printLine env (copiedLine copying.copied) (s.tell env copying.record)
  else (.ok (), s)

/-- Whether the program of a project is a sequence of characters. It has the
names of the layers that are shown and have strokes. -/
def isEncodable (project : Project) : Bool :=
  project.layers.value.all fun layer =>
    layer.isText || !(layer.visible.value && project.strokes.value.any (·.isOn layer.id))

/-- Gives a program out: prints it, or stores it. -/
def deliverProgram (env : Surroundings) (config : Config) (r : CompileRequest) (project : Project)
    (code : String) (s : Session) : Except Trouble Unit × Session :=
  if !isEncodable project then (.error .unpairedText, s)
  else if r.print then printLine env code s
  else storeProgram env (programTarget project config r.output) code s

/-- Compiles a project. -/
def compileProject (env : Surroundings) (config : Config) (r : CompileRequest) (s : Session) :
    Except Trouble Unit × Session :=
  match loadProject env r.project s with
  | (.error fault, s) => (.error (.load fault), s)
  | (.ok project, s) =>
    match buildOptions project config r.choices with
    | .error refusal => (.error (.options refusal), s)
    | .ok options =>
      let plan := Turtle.plan options project.strokes.value project.layers.value
      let code := plan.program.render
      let s := (s.tell env (compiling project options)).tell env plan.tally.record
      match deliverProgram env config r project code s with
      | (.error trouble, s) => (.error trouble, s)
      | (.ok (), s) => copyProgram env r code s

/-! ## New projects -/

/-- The file for a new project. -/
def projectTarget (r : NewRequest) : Path :=
  match r.output.filter (· != "") with
  | some path => .ofString path
  | none =>
    let file := Delivery.programFilename r.name
    .ofString (String.ofList (file.toList.take (file.length - 3)) ++ ".json")

/-- Makes an empty project. -/
def newProject (env : Surroundings) (r : NewRequest) (s : Session) :
    Except Trouble Unit × Session :=
  let project :=
    Project.new r.name (env.identifier (s.drawn + 1)) (env.identifier (s.drawn + 2)) env.now
  let target := projectTarget r
  let s := { s with drawn := s.drawn + 2 }
  match s.files.replaceText target project.toText with
  | (.error fault, files) => (.error (.save fault), { s with files })
  | (.ok (), files) => printLine env s!"Project written to: {target.text}" { s with files }

/-! ## Commands -/

/-- How a command ends: with a status, or by a fault that it does not
handle. -/
inductive Ending where
  | exit (status : Nat)
  | config (fault : Config.Fault)
  | setup (fault : Log.Setup.Fault)
  | file (fault : FileFault)

/-- Does what is asked for. -/
def Task.run (env : Surroundings) (config : Config) (task : Task) (s : Session) :
    Except Trouble Unit × Session :=
  match task with
  | .compile r => compileProject env config r s
  | .new r => newProject env r s

/-- Does what is asked for, and tells the log of a trouble. -/
def runTask (env : Surroundings) (config : Config) (task : Task) (s : Session) : Ending × Session :=
  match task.run env config s with
  | (.ok (), s) => (.exit 0, s)
  | (.error trouble, s) =>
    match trouble.unhandled? with
    | some fault => (.file fault, s)
    | none =>
      (.exit 1, s.tell env
        ⟨.error, Log.Source.commands, s!"{task.command} failed: {trouble.message}"⟩)

/-- Whether a fault of the configuration is reported: what the program itself
says about it, and that the file is missing. -/
def isReported : Config.Fault → Bool
  | .unreadable (.file (.refused .noEntry ..)) => true
  | .unreadable _ | .notSection _ | .tooLarge | .infinite | .longSpeed => false
  | _ => true

/-- The name of the configuration that is used where none is given. -/
def standardConfig : String := "<default config>"

/-- Loads the configuration. -/
def loadConfig (env : Surroundings) (path : Option String) (s : Session) :
    Except Config.Fault Config × Session :=
  match path with
  | none => (.ok .standard, s.tell env (Config.loading standardConfig))
  | some name =>
    let path := Path.ofString name
    let s := if s.files.has path then s.tell env (Config.loading path.text) else s
    (Config.load s.files path, s)

/-- The setup of the log for a request. -/
def setupOf (request : Request) (config : Config) : Log.Setup :=
  { Log.Setup.standard with
    level := if request.verbose then "DEBUG" else config.logLevel
    file := config.logFile
    json := config.logJson
    context := [("app", .text "pysketch"), ("command", .text request.task.command)] }

/-- Runs a request with its configuration. -/
def runConfigured (env : Surroundings) (config : Config) (request : Request) (s : Session) :
    Ending × Session :=
  match s.log.setup env.isTerminal (setupOf request config) ⟨s.files, s.errors⟩ with
  | (.error fault, log, o) =>
    (.setup fault, { s with log, files := o.files, errors := o.errors })
  | (.ok _, log, o) =>
    let (ending, s) :=
      runTask env config request.task { s with log, files := o.files, errors := o.errors }
    (ending, { s with log := s.log.shutdown })

/-- Runs a request. -/
def run (env : Surroundings) (request : Request) (s : Session) : Ending × Session :=
  match loadConfig env request.config s with
  | (.ok config, s) => runConfigured env config request s
  | (.error fault, s) =>
    if isReported fault then (.exit 1, s.complain s!"Error loading config: {fault.message}\n")
    else (.config fault, s)

/-- Runs the program with arguments. -/
def runArguments (env : Surroundings) (arguments : List String) (s : Session) : Ending × Session :=
  match Request.ofArguments arguments with
  | .ok request => run env request s
  | .error (.help topic) => (.exit 0, { s with output := s.output ++ topic.help })
  | .error (.misuse topic fault) =>
    (.exit 2, s.complain (topic.usage ++ s!"{topic.title}: error: {fault.message}\n"))

end SketchTurtle.CommandLine
