/-
What the user asks for: which command with which values. The values of flags
are read in the order in which the flags are given; a flag given again takes
the place of the earlier one.
-/
import SketchTurtle.CommandLine.Argument
import SketchTurtle.CommandLine.Usage
import SketchTurtle.Number.Numeral

namespace SketchTurtle.CommandLine

/-- What the flags say about the program to be made. -/
structure Choices where
  width : Option Float := none
  height : Option Float := none
  speed : Option Int := none
  background : Option String := none
  tolerance : Option Float := none

/-- A project to be compiled. -/
structure CompileRequest where
  project : String
  output : Option String
  choices : Choices
  /-- Whether the program is printed instead of stored. -/
  print : Bool
  clipboard : Bool

/-- A project to be made. -/
structure NewRequest where
  name : String
  output : Option String
  deriving DecidableEq, Repr

/-- What is to be done. -/
inductive Task where
  | compile (r : CompileRequest)
  | new (r : NewRequest)

/-- The name of the command that does it. -/
def Task.command : Task → String
  | .compile _ => "compile"
  | .new _ => "new"

/-- A task, and how the program is to be set up for it. -/
structure Request where
  config : Option String
  verbose : Bool
  task : Task

/-- Why there is nothing to do. -/
inductive Stop where
  /-- Help was asked for. -/
  | help (topic : Topic)
  | misuse (topic : Topic) (fault : Fault)
  deriving DecidableEq, Repr

/-! ## Flags -/

/-- The flags before the command. -/
inductive ProgramFlag where
  | help | config | verbose
  deriving DecidableEq, Repr

/-- The flags before the command with their names. -/
def programFlags : List (Flag ProgramFlag) :=
  [⟨.help, ["-h", "--help"], false⟩, ⟨.config, ["--config", "-c"], true⟩,
    ⟨.verbose, ["--verbose", "-v"], false⟩]

/-- The flags for compiling. -/
inductive CompileFlag where
  | help | output | width | height | speed | background | tolerance | print | clipboard
  deriving DecidableEq, Repr

/-- The flags for compiling with their names. -/
def compileFlags : List (Flag CompileFlag) :=
  [⟨.help, ["-h", "--help"], false⟩, ⟨.output, ["--output", "-o"], true⟩,
    ⟨.width, ["--width"], true⟩, ⟨.height, ["--height"], true⟩, ⟨.speed, ["--speed"], true⟩,
    ⟨.background, ["--background"], true⟩, ⟨.tolerance, ["--tolerance"], true⟩,
    ⟨.print, ["--stdout"], false⟩, ⟨.clipboard, ["--clipboard"], false⟩]

/-- The flags for a new project. -/
inductive NewFlag where
  | help | output
  deriving DecidableEq, Repr

/-- The flags for a new project with their names. -/
def newFlags : List (Flag NewFlag) :=
  [⟨.help, ["-h", "--help"], false⟩, ⟨.output, ["--output", "-o"], true⟩]

/-! ## Values -/

/-- A real number. -/
def realValue (flag text : String) : Except Fault Float :=
  match parseFloat? text with
  | some x => .ok x
  | none => .error (.badReal flag text)

/-- A speed of the turtle. -/
def speedValue (flag text : String) : Except Fault Int :=
  match parseInt text with
  | .ok n => if 0 ≤ n && n ≤ maxSpeed then .ok n else .error (.badChoice flag n 0 maxSpeed)
  | .error _ => .error (.badWhole flag text)

/-! ## Commands -/

/-- Reads arguments and takes what is given, one after the other. The result
is what was taken and the arguments that are left over. -/
def collect {α σ : Type} (topic : Topic) (flags : List (Flag α)) (whole : Bool)
    (take : σ → Given α → Except Stop σ) (start : σ) (arguments : List String) :
    Except Stop (σ × List String) := do
  let tokens ← (tokens flags arguments).mapError (.misuse topic)
  let reading := read flags whole true tokens
  let taken ← reading.given.foldlM take start
  match reading.fault? with
  | some fault => .error (.misuse topic fault)
  | none => pure (taken, reading.extras)

/-- What is known of a project to be compiled while the arguments are read. -/
structure CompileDraft where
  project : Option String := none
  output : Option String := none
  choices : Choices := {}
  print : Bool := false
  clipboard : Bool := false

/-- Takes an argument of `compile`. -/
def CompileDraft.take (d : CompileDraft) (given : Given CompileFlag) : Except Stop CompileDraft :=
  let read {β : Type} (e : Except Fault β) : Except Stop β := e.mapError (.misuse .compile)
  match given with
  | .words ws => .ok { d with project := ws.head? }
  | .flag .help _ => .error (.help .compile)
  | .flag .output value => .ok { d with output := some value }
  | .flag .width value => do
    let x ← read (realValue "--width" value)
    pure { d with choices := { d.choices with width := some x } }
  | .flag .height value => do
    let x ← read (realValue "--height" value)
    pure { d with choices := { d.choices with height := some x } }
  | .flag .speed value => do
    let n ← read (speedValue "--speed" value)
    pure { d with choices := { d.choices with speed := some n } }
  | .flag .background value =>
    .ok { d with choices := { d.choices with background := some value } }
  | .flag .tolerance value => do
    let x ← read (realValue "--tolerance" value)
    pure { d with choices := { d.choices with tolerance := some x } }
  | .flag .print _ => .ok { d with print := true }
  | .flag .clipboard _ => .ok { d with clipboard := true }

/-- Reads the arguments of `compile`. -/
def CompileRequest.ofArguments (arguments : List String) :
    Except Stop (CompileRequest × List String) := do
  let (d, extras) ← collect .compile compileFlags false CompileDraft.take {} arguments
  match d.project with
  | some project => pure (⟨project, d.output, d.choices, d.print, d.clipboard⟩, extras)
  | none => .error (.misuse .compile (.required "project"))

/-- What is known of a project to be made while the arguments are read. -/
structure NewDraft where
  name : Option String := none
  output : Option String := none
  deriving DecidableEq, Repr

/-- Takes an argument of `new`. -/
def NewDraft.take (d : NewDraft) : Given NewFlag → Except Stop NewDraft
  | .words ws => .ok { d with name := ws.head? }
  | .flag .help _ => .error (.help .new)
  | .flag .output value => .ok { d with output := some value }

/-- Reads the arguments of `new`. -/
def NewRequest.ofArguments (arguments : List String) : Except Stop (NewRequest × List String) := do
  let (d, extras) ← collect .new newFlags false NewDraft.take {} arguments
  match d.name with
  | some name => pure (⟨name, d.output⟩, extras)
  | none => .error (.misuse .new (.required "name"))

/-- The names of the commands. -/
def commandNames : List String := ["compile", "new"]

/-- Reads a command with its arguments. -/
def Task.ofArguments (name : String) (arguments : List String) :
    Except Stop (Task × List String) :=
  if name == "compile" then
    (CompileRequest.ofArguments arguments).map fun (r, extras) => (.compile r, extras)
  else if name == "new" then
    (NewRequest.ofArguments arguments).map fun (r, extras) => (.new r, extras)
  else .error (.misuse .program (.unknownCommand name commandNames))

/-- What is known of a request while the arguments are read. -/
structure Draft where
  config : Option String := none
  verbose : Bool := false
  /-- The task, and the arguments that its command left over. -/
  task : Option (Task × List String) := none

/-- Takes an argument of the program. -/
def Draft.take (d : Draft) : Given ProgramFlag → Except Stop Draft
  | .flag .help _ => .error (.help .program)
  | .flag .config value => .ok { d with config := some value }
  | .flag .verbose _ => .ok { d with verbose := true }
  | .words ws => do
    let task ← Task.ofArguments (ws.headD "") ws.tail
    pure { d with task := some task }

/-- What the arguments of the program ask for. -/
def Request.ofArguments (arguments : List String) : Except Stop Request := do
  let (d, extras) ← collect .program programFlags true Draft.take {} arguments
  match d.task with
  | none => .error (.misuse .program (.required "command"))
  | some (task, more) =>
    if (extras ++ more).isEmpty then pure ⟨d.config, d.verbose, task⟩
    else .error (.misuse .program (.unrecognized (extras ++ more)))

end SketchTurtle.CommandLine
