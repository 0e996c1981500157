/-
The log of a running program: the level from which on records are told, the
sinks they go to, and the fields in their lines.
-/
import SketchTurtle.Log.Sink

namespace SketchTurtle.Log

/-- The log of a running program. -/
structure System where
  level : Level
  sinks : List Sink
  context : Context
  /-- Whether a setup has been completed. -/
  configured : Bool
  /-- Whether warnings are told as records. -/
  capturing : Bool
  /-- Whether a warning has been told as a record. -/
  captured : Bool

namespace System

/-- The log as a program finds it. -/
def initial : System := ⟨.warning, [], [], false, false, false⟩

/-! ## Telling -/

/-- Whether a source is that of captured warnings, or a part of it. -/
def isWarnings (source : String) : Bool :=
  source == Source.warnings || source.startsWith (Source.warnings ++ ".")

/-- The level from which on records of a source are told. Captured warnings
have their own. -/
def threshold (s : System) (source : String) : Level :=
  if s.capturing && isWarnings source then .warning else s.level

/-- Whether a record is told. -/
def enables (s : System) (r : Record) : Bool := 0 < r.level && s.threshold r.source ≤ r.level

/-- The line of an event that has no sink to go to. -/
def bareLine (e : Event) : String :=
  let message := e.record.message
  match e.failure? with
  | some f => message ++ (if message.endsWith "\n" then "" else "\n") ++ f.text ++ "\n"
  | none => message ++ "\n"

/-- Writes an event to the sinks. -/
def deliver (s : System) (e : Event) (o : Outlet) : System × Outlet :=
  let (sinks, o) := Sink.tellAll s.context e s.sinks o
  ({ s with sinks }, o)

/-- Whether a record is written where there are no sinks: only warnings and
what is graver are, but nothing from the source of captured warnings once it
has told of one. -/
def tellsBare (s : System) (r : Record) : Bool :=
  Level.warning ≤ r.level && !(s.captured && isWarnings r.source)

/-- Tells of an event. Without sinks it is written on the error stream. -/
def tell (s : System) (e : Event) (o : Outlet) : System × Outlet :=
  if !s.enables e.record then (s, o)
  else if s.sinks.isEmpty then
    (s, if s.tellsBare e.record then o.print (bareLine e) else o)
  else s.deliver e o

/-- Tells of a failure that nobody handled. That the user stopped the program
is not a matter for the log. -/
def tellUncaught (s : System) (stamp : Stamp) (f : Failure) (o : Outlet) : System × Outlet :=
  if f.kind = .interrupt then (s, o.print (f.text ++ "\n"))
  else s.tell ⟨⟨.critical, Source.logging, "Uncaught exception"⟩, stamp, some f⟩ o

/-! ## Warnings -/

/-- A warning from a place in a file. -/
structure Warning where
  file : String
  line : Nat
  message : String
  deriving DecidableEq, Repr

/-- A warning as it is written. -/
def Warning.text (w : Warning) : String := s!"{w.file}:{w.line}: UserWarning: {w.message}\n"

/-- Gives a warning, to the log if it captures warnings. Captured warnings
are not written where there are no sinks. -/
def warn (s : System) (stamp : Stamp) (w : Warning) (o : Outlet) : System × Outlet :=
  if s.capturing then
    { s with captured := true }.deliver ⟨⟨.warning, Source.warnings, w.text⟩, stamp, none⟩ o
  else (s, o.print w.text)

/-! ## Settings -/

/-- Changes the level. -/
def setLevel (s : System) (name : String) : Except Level.Fault System := do
  pure { s with level := ← Level.ofName name }

/-- Adds fields. -/
def push (s : System) (fields : Context) : System := { s with context := s.context.push fields }

/-- Removes the fields of the given names, or all. -/
def pop (s : System) : Option (List String) → System
  | some names => { s with context := s.context.pop names }
  | none => { s with context := [] }

/-- Closes the files. -/
def shutdown (s : System) : System := { s with sinks := s.sinks.map Sink.close }

end System

/-! ## Setup -/

/-- How a log file is to be rotated. -/
structure RotationRequest where
  mode : String
  limit : Int
  backups : Int
  period : String

/-- What is taken where a request does not say otherwise. -/
def RotationRequest.standard : RotationRequest := ⟨"size", 5000000, 3, "D"⟩

/-- What is asked for in a setup. -/
structure Setup where
  level : String
  file : Option String
  json : Bool
  color : Bool
  toTerminal : Bool
  rotation : Option RotationRequest
  zoned : Bool
  captureWarnings : Bool
  context : Context

/-- What is taken where a setup does not say otherwise. -/
def Setup.standard : Setup where
  level := "INFO"
  file := none
  json := false
  color := true
  toTerminal := true
  rotation := none
  zoned := true
  captureWarnings := true
  context := []

/-- Why a setup is not completed. -/
inductive Setup.Fault where
  | level (fault : Level.Fault)
  | file (fault : FileFault)
  | mode (name : String)
  | period (name : String)
  /-- A weekly period does not tell its day. -/
  | noWeekday (name : String)
  | weekday (name : String)
  deriving DecidableEq, Repr

namespace Setup

/-- The wording of a fault. -/
def Fault.message : Fault → String
  | .level fault => fault.message
  | .file fault => fault.message
  | .mode name => s!"Unknown rotation mode: {name}. Use 'size' or 'time'."
  | .period name => s!"Invalid rollover interval specified: {name}"
  | .noWeekday name =>
    s!"You must specify a day for weekly rollover from 0 to 6 (0 is Monday): {name}"
  | .weekday name => s!"Invalid day specified for weekly rollover: {name}"

/-- Whether a period can be waited for: seconds, minutes, hours, days,
midnight, or a day of the week. -/
def checkPeriod (name : String) : Except Fault Unit :=
  let name := Text.upper name
  if ["S", "M", "H", "D", "MIDNIGHT"].contains name then .ok ()
  else match name.toList with
    | ['W', day] => if '0' ≤ day && day ≤ '6' then .ok () else .error (.weekday name)
    | 'W' :: _ => .error (.noWeekday name)
    | _ => .error (.period name)

/-- The rotation that is asked for. Whether a period is one is not checked
yet. -/
def rotationOf : Option RotationRequest → Except Fault Rotation
  | none => .ok .never
  | some r =>
    if r.mode == "size" then .ok (.bySize r.limit r.backups)
    else if r.mode == "time" then .ok .byTime
    else .error (.mode r.mode)

/-- Checks what is only looked at when the file is open. -/
def checkOpened : Option RotationRequest → Rotation → Except Fault Unit
  | some r, .byTime => checkPeriod r.period
  | _, _ => .ok ()

/-- Opens the log file. The directories above it are made if they are
missing. -/
def openLog (request : Setup) (name : String) (fs : Files) : Except Fault LogFile × Files :=
  let path := Path.ofString name
  match fs.makeDirectories path.parent with
  | (.error fault, fs) => (.error (.file fault), fs)
  | (.ok (), fs) =>
    match rotationOf request.rotation with
    | .error fault => (.error fault, fs)
    | .ok rotation =>
      let path := path.absolute fs.here
      match fs.openFile true path with
      | .error fault => (.error (.file fault), fs)
      | .ok (number, fs) =>
        match checkOpened request.rotation rotation with
        | .error fault => (.error fault, fs)
        | .ok () => (.ok ⟨path, ⟨request.json, false, request.zoned⟩, rotation, some number⟩, fs)

/-- The sinks for a log file, if one is asked for. The empty name asks for
none. -/
def fileSinks (request : Setup) (fs : Files) : Except Fault (List Sink) × Files :=
  match request.file.filter (· != "") with
  | none => (.ok [], fs)
  | some name =>
    match request.openLog name fs with
    | (.ok f, fs) => (.ok [.file f], fs)
    | (.error fault, fs) => (.error fault, fs)

/-- The sinks for the terminal, if it is asked for. Only a real terminal is
given colours. -/
def terminalSinks (request : Setup) (isTerminal : Bool) : List Sink :=
  if request.toTerminal then [.terminal ⟨false, request.color && isTerminal, request.zoned⟩] else []

end Setup

/-- Sets the log up and tells the sinks that were made. The sinks of an
earlier setup are dropped; a setup that fails leaves what it did so far. -/
def System.setup (s : System) (isTerminal : Bool) (request : Setup) (o : Outlet) :
    Except Setup.Fault (List Sink) × System × Outlet :=
  let s := if s.configured then { s with sinks := [] } else s
  match Level.ofName request.level with
  | .error fault => (.error (.level fault), s, o)
  | .ok level =>
    let terminal := request.terminalSinks isTerminal
    let s := { s with level, sinks := s.sinks ++ terminal }
    match request.fileSinks o.files with
    | (.error fault, files) => (.error fault, s, { o with files })
    | (.ok file, files) =>
      (.ok (terminal ++ file),
        { s with
          sinks := s.sinks ++ file
          context := s.context.push request.context
          capturing := s.capturing || request.captureWarnings
          configured := true },
        { o with files })

end SketchTurtle.Log
