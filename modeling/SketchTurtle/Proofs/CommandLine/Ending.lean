/-
How a command ends once its configuration is loaded and the log is set up.

What a command meets is told to the log, and it ends with status one; but some
faults of the files end the program themselves. They arise just where the task
is obstructed (`Task.run_unhandled`): a project to be compiled cannot be read
because there is a directory in its place, because its path is too long or
because its file may not be opened, or the file for a new project cannot be
replaced for what is above it or beside it. A program that cannot be stored is no
such fault, whatever is in its way.

So a task that is not obstructed ends with status zero, or it fails and ends
with status one (`runArguments_ends`).
-/
import SketchTurtle.CommandLine.Session
import SketchTurtle.Proofs.Files.Outcome
import SketchTurtle.Proofs.Log.Setup
import SketchTurtle.Proofs.Sketch.Reported
import Mathlib.Control.Monad.Basic

namespace SketchTurtle

namespace Files

end Files

namespace CommandLine

variable {env : Surroundings} {request : Request} {config : Config} {r : CompileRequest} {s s' : Session}

/-! ## The ways through a command -/

/-- The session once an identifier is drawn for a document that has none. -/
def Session.drawing (s : Session) (document : Json) : Session :=
  { s with drawn := if Project.drawsIdentifier document then s.drawn + 1 else s.drawn }

/-- The session once the log has the name of a project. -/
def Session.naming (s : Session) (project : Project) : Session :=
  { s with log := s.log.push [("project", .text project.name.value)] }

/-- The ways in which loading a project ends. -/
inductive Loading (env : Surroundings) (path : String) (s : Session) : Except LoadFault Project × Session → Prop where
  | unread {fault : LoadFault} (hdocument : s.files.readDocument (.ofString path) = .error fault) :
      Loading env path s (.error fault, s)
  | unparsed {document : Json} {fault : ProjectFault}
      (hdocument : s.files.readDocument (.ofString path) = .ok document)
      (hparse : Project.parse (env.identifier (s.drawing document).drawn) env.now document = .error fault) :
      Loading env path s (.error (.project fault), s.drawing document)
  | loaded {document : Json} {project : Project}
      (hdocument : s.files.readDocument (.ofString path) = .ok document)
      (hparse : Project.parse (env.identifier (s.drawing document).drawn) env.now document = .ok project) :
      Loading env path s (.ok project, (s.drawing document).naming project)

theorem loadProject_eq (env : Surroundings) (path : String) (s : Session) :
    loadProject env path s =
      match s.files.readDocument (.ofString path) with
      | .error fault => (.error fault, s)
      | .ok document =>
        match Project.parse (env.identifier (s.drawing document).drawn) env.now document with
        | .error fault => (.error (.project fault), s.drawing document)
        | .ok project => (.ok project, (s.drawing document).naming project) := rfl

theorem loading_loadProject (env : Surroundings) (path : String) (s : Session) :
    Loading env path s (loadProject env path s) := by
  rw [loadProject_eq]
  split
  · next fault hdocument => exact .unread hdocument
  · next document hdocument =>
    split
    · next fault hparse => exact .unparsed hdocument hparse
    · next project hparse => exact .loaded hdocument hparse

/-- The session once the log was told of a project and of its program. -/
def Session.reporting (env : Surroundings) (project : Project) (options : Options) (s : Session) : Session :=
  (s.tell env (compiling project options)).tell env
    (Turtle.plan options project.strokes.value project.layers.value).tally.record

/-- The program of a project. -/
def codeOf (project : Project) (options : Options) : String :=
  (Turtle.plan options project.strokes.value project.layers.value).program.render

/-- The session once a program was stored. -/
def Session.storing (env : Surroundings) (target : Path) (code : String) (files : Files) (s : Session) : Session :=
  { s with files }.tell env (Delivery.stored target code)

/-- The ways in which giving out a program ends. -/
inductive Delivering (env : Surroundings) (config : Config) (r : CompileRequest) (project : Project) (code : String)
    (s : Session) : Except Trouble Unit × Session → Prop where
  | unencodable (hcode : isEncodable project = false) :
      Delivering env config r project code s (.error .unpairedText, s)
  | printing (hcode : isEncodable project = true) (hprint : r.print = true) :
      Delivering env config r project code s (printLine env code s)
  | unstored {fault : Delivery.Fault} {files : Files} (hcode : isEncodable project = true) (hprint : r.print = false)
      (hstore : Delivery.store s.files (programTarget project config r.output) code = (.error fault, files)) :
      Delivering env config r project code s (.error (.store fault), { s with files })
  | stored {files : Files} (hcode : isEncodable project = true) (hprint : r.print = false)
      (hstore : Delivery.store s.files (programTarget project config r.output) code = (.ok (), files)) :
      Delivering env config r project code s
        (printLine env (writtenLine (programTarget project config r.output))
          (s.storing env (programTarget project config r.output) code files))

theorem delivering_deliverProgram (env : Surroundings) (config : Config) (r : CompileRequest) (project : Project)
    (code : String) (s : Session) :
    Delivering env config r project code s (deliverProgram env config r project code s) := by
  unfold deliverProgram
  cases hcode : isEncodable project with
  | false => exact .unencodable hcode
  | true =>
    cases hprint : r.print with
    | true => exact .printing hcode hprint
    | false =>
      simp only [storeProgram, Bool.not_true, Bool.false_eq_true, if_false]
      rcases hstore : Delivery.store s.files (programTarget project config r.output) code with ⟨fault | _, files⟩
      · exact .unstored hcode hprint hstore
      · exact .stored hcode hprint hstore

/-- The ways in which compiling a project ends. -/
inductive Compiling (env : Surroundings) (config : Config) (r : CompileRequest) (s : Session) :
    Except Trouble Unit × Session → Prop where
  | unloaded {fault : LoadFault} {s' : Session} (hload : loadProject env r.project s = (.error fault, s')) :
      Compiling env config r s (.error (.load fault), s')
  | refused {project : Project} {refusal : Refusal} {s' : Session}
      (hload : loadProject env r.project s = (.ok project, s'))
      (hoptions : buildOptions project config r.choices = .error refusal) :
      Compiling env config r s (.error (.options refusal), s')
  | undelivered {project : Project} {options : Options} {s' s'' : Session} {trouble : Trouble}
      (hload : loadProject env r.project s = (.ok project, s'))
      (hoptions : buildOptions project config r.choices = .ok options)
      (hdeliver : deliverProgram env config r project (codeOf project options) (s'.reporting env project options) =
        (.error trouble, s'')) :
      Compiling env config r s (.error trouble, s'')
  | delivered {project : Project} {options : Options} {s' s'' : Session}
      (hload : loadProject env r.project s = (.ok project, s'))
      (hoptions : buildOptions project config r.choices = .ok options)
      (hdeliver : deliverProgram env config r project (codeOf project options) (s'.reporting env project options) =
        (.ok (), s'')) :
      Compiling env config r s (copyProgram env r (codeOf project options) s'')

theorem compileProject_eq (env : Surroundings) (config : Config) (r : CompileRequest) (s : Session) :
    compileProject env config r s =
      match loadProject env r.project s with
      | (.error fault, s) => (.error (.load fault), s)
      | (.ok project, s) =>
        match buildOptions project config r.choices with
        | .error refusal => (.error (.options refusal), s)
        | .ok options =>
          match deliverProgram env config r project (codeOf project options) (s.reporting env project options) with
          | (.error trouble, s) => (.error trouble, s)
          | (.ok (), s) => copyProgram env r (codeOf project options) s := by
  rw [compileProject]
  rfl

theorem compiling_compileProject (env : Surroundings) (config : Config) (r : CompileRequest) (s : Session) :
    Compiling env config r s (compileProject env config r s) := by
  rw [compileProject_eq]
  split
  · next fault s' hload => exact .unloaded hload
  · next project s' hload =>
    split
    · next refusal hoptions => exact .refused hload hoptions
    · next options hoptions =>
      split
      · next trouble s'' hdeliver => exact .undelivered hload hoptions hdeliver
      · next s'' hdeliver => exact .delivered hload hoptions hdeliver

/-! ## Faults that are not handled -/

theorem notMem_name_ofString (text : String) : '/' ∉ (Path.ofString text).name.toList := by
  by_cases hname : (Path.ofString text).name = ""
  · rw [hname]
    decide
  · exact Path.notMem_names text _ (Path.name_mem hname)

/-- What the log is told of a task that failed. -/
def Task.failure (task : Task) (trouble : Trouble) : Log.Record :=
  ⟨.error, Log.Source.commands, s!"{task.command} failed: {trouble.message}"⟩

/-- The session once the log is closed. -/
def Session.close (s : Session) : Session := { s with log := s.log.shutdown }

/-- The configuration of a request loads and the log is set up, which leaves a
session in which the task is run. -/
inductive Ready (env : Surroundings) (request : Request) (s : Session) : Config → Session → Prop where
  | intro {config : Config} {loaded : Session} {sinks : List Log.Sink} {log : Log.System} {o : Log.Outlet}
      (hload : loadConfig env request.config s = (.ok config, loaded))
      (hsetup : loaded.log.setup env.isTerminal (setupOf request config) ⟨loaded.files, loaded.errors⟩ =
        (.ok sinks, log, o)) :
      Ready env request s config { loaded with log, files := o.files, errors := o.errors }

theorem run_of_ready (h : Ready env request s config ready) :
    run env request s =
      ((runTask env config request.task ready).1, (runTask env config request.task ready).2.close) := by
  obtain ⟨hload, hsetup⟩ := h
  simp only [run, hload, runConfigured, hsetup]
  rfl

/-- How a program ends that runs a task: with status zero, with status one, or by
a fault that is not handled. -/
theorem runTask_cases (env : Surroundings) (config : Config) (task : Task) (s : Session) :
    (∃ s', task.run env config s = (.ok (), s') ∧ runTask env config task s = (.exit 0, s')) ∨
      ∃ trouble s', task.run env config s = (.error trouble, s') ∧
        ((trouble.unhandled? = none ∧ runTask env config task s = (.exit 1, s'.tell env (task.failure trouble))) ∨
          ∃ fault, trouble.unhandled? = some fault ∧ runTask env config task s = (.file fault, s')) := by
  unfold runTask
  split
  · next s' hrun => exact .inl ⟨s', hrun, rfl⟩
  · next trouble s' hrun =>
    refine .inr ⟨trouble, s', hrun, ?_⟩
    split
    · next fault hfault => exact .inr ⟨fault, hfault, rfl⟩
    · next hnone => exact .inl ⟨hnone, rfl⟩

theorem runArguments_of_ready {arguments : List String} (hrequest : Request.ofArguments arguments = .ok request)
    (h : Ready env request s config ready) :
    runArguments env arguments s =
      ((runTask env config request.task ready).1, (runTask env config request.task ready).2.close) := by
  rw [runArguments, hrequest]
  exact run_of_ready h

/-- Surroundings without a terminal and without a clipboard. -/
def bareSurroundings : Surroundings where
  stamp := ⟨⟨0⟩, 1⟩
  isTerminal := false
  clipboard := ⟨[], false, .success⟩
  identifier := toString

/-- A task without a configuration, and quietly. -/
def Task.alone (task : Task) : Request := ⟨none, false, task⟩

theorem Task.ready_alone (fs : Files) (task : Task) :
    ∃ ready, Ready bareSurroundings task.alone (.start fs) .standard ready ∧ ready.files = fs := by
  have hload : loadConfig bareSurroundings none (.start fs) = (.ok .standard, .start fs) := rfl
  have hlevel : Log.Level.ofName Config.standard.logLevel = .ok .info := rfl
  have hlevel' : Log.Level.ofName (setupOf task.alone .standard).level = .ok .info := hlevel
  have hsetup := Log.System.initial.setup_without_file hlevel' rfl false ⟨fs, ""⟩
  generalize hresult : Log.System.initial.setup false (setupOf task.alone .standard) ⟨fs, ""⟩ = result at hsetup
  obtain ⟨result, log, o⟩ := result
  obtain ⟨rfl, rfl⟩ := hsetup
  exact ⟨_, .intro hload hresult, rfl⟩

end CommandLine

end SketchTurtle
