/-
What compiling a project does to the files.

What a command says goes to no file as long as its log has none
(`Session.Speaks`). So files are touched only where the program is stored: if a
command ends with status zero and has not printed the program, the target holds
it and every other file is as it was; in all other cases every file is
(`runArguments_touches`).

No file must stand in the place of the temporary one. That there is nothing at
its path is not enough: where a path has double points, a directory on its way
may be missing that is made before the file is opened. And what is printed once
the program is stored must be taken by the output, or the command fails too late
(`not_runArguments_touches`).
-/
import SketchTurtle.Proofs.CommandLine.Ending
import SketchTurtle.Proofs.CommandLine.Resaving
import SketchTurtle.Proofs.Delivery.Stored

namespace SketchTurtle

/-! ## Speaking -/

namespace CommandLine

variable {env : Surroundings} {config : Config} {r : CompileRequest} {s s' s'' : Session} {project : Project}
  {options : Options}

/-- The log of a session has no file. -/
def Session.Quiet (s : Session) : Prop := ∀ sink ∈ s.log.sinks, sink.IsTerminal

theorem Session.quiet_start (files : Files) : (Session.start files).Quiet := nofun

/-- From one session to the next something may have been said, and no file was
touched. -/
structure Session.Speaks (s s' : Session) : Prop where
  files : s'.files = s.files
  quiet : s'.Quiet

namespace Session.Speaks

theorem refl (h : s.Quiet) : s.Speaks s := ⟨rfl, h⟩

theorem trans (h : s.Speaks s') (h' : s'.Speaks s'') : s.Speaks s'' := ⟨h'.files.trans h.files, h'.quiet⟩

theorem tell (h : s.Speaks s') (env : Surroundings) (r : Log.Record) : s.Speaks (s'.tell env r) where
  files := (Log.System.tell_files h.quiet _ _).trans h.files
  quiet := by
    have hsinks := (s'.log.stays_tell ⟨r, env.stamp, none⟩ ⟨s'.files, s'.errors⟩).sinks h.quiet
    intro sink hmem
    exact h.quiet sink (hsinks ▸ hmem)

theorem print (h : s.Speaks s') (line : String) : s.Speaks (s'.print line) := ⟨h.files, h.quiet⟩

theorem close (h : s.Speaks s') : s.Speaks s'.close where
  files := h.files
  quiet := by
    have hsinks := (Log.Used.shutdown s'.log).stays.sinks h.quiet
    intro sink hmem
    exact h.quiet sink (hsinks ▸ hmem)

theorem naming (h : s.Speaks s') (project : Project) : s.Speaks (s'.naming project) := ⟨h.files, h.quiet⟩

theorem drawing (h : s.Speaks s') (document : Json) : s.Speaks (s'.drawing document) := ⟨h.files, h.quiet⟩

theorem reporting (h : s.Speaks s') (env : Surroundings) (project : Project) (options : Options) :
    s.Speaks (s'.reporting env project options) := (h.tell env _).tell env _

theorem printLine (h : s.Speaks s') (env : Surroundings) (line : String) :
    s.Speaks (CommandLine.printLine env line s').2 := by
  unfold CommandLine.printLine
  split
  · exact h
  · exact h.print line

theorem copyProgram (h : s.Speaks s') (env : Surroundings) (r : CompileRequest) (code : String) :
    s.Speaks (CommandLine.copyProgram env r code s').2 := by
  unfold CommandLine.copyProgram
  split
  · exact (h.tell env _).printLine env _
  · exact h

theorem storing (h : s.Quiet) (env : Surroundings) (target : Path) (code : String) (files : Files) :
    Session.Speaks { s with files } (s.storing env target code files) := by
  have hquiet : Session.Quiet { s with files } := h
  exact (refl hquiet).tell env _

end Session.Speaks

theorem loadConfig_speaks {path : Option String} {result : Except Config.Fault Config} {loaded : Session}
    (h : s.Quiet) (hload : loadConfig env path s = (result, loaded)) : s.Speaks loaded ∧ loaded.drawn = s.drawn := by
  have hs := Session.Speaks.refl h
  cases path with
  | none =>
    cases hload
    exact ⟨hs.tell env _, rfl⟩
  | some name =>
    cases hload
    split
    · exact ⟨hs.tell env _, rfl⟩
    · exact ⟨hs, rfl⟩

theorem setup_speaks {request : Log.Setup} {isTerminal : Bool} {result : Except Log.Setup.Fault (List Log.Sink)}
    {log : Log.System} {o : Log.Outlet} (h : s.Quiet) (hfile : request.file.filter (· != "") = none)
    (hsetup : s.log.setup isTerminal request ⟨s.files, s.errors⟩ = (result, log, o)) :
    s.Speaks { s with log, files := o.files, errors := o.errors } := by
  obtain ⟨houtlet, hquiet⟩ := s.log.setup_terminal hfile h isTerminal ⟨s.files, s.errors⟩
  rw [hsetup] at houtlet hquiet
  exact ⟨congrArg Log.Outlet.files houtlet, hquiet⟩

theorem loadProject_speaks {path : String} {result : Except LoadFault Project} (h : s.Quiet)
    (hload : loadProject env path s = (result, s')) : s.Speaks s' := by
  have hloading := loading_loadProject env path s
  rw [hload] at hloading
  have hs := Session.Speaks.refl h
  cases hloading with
  | unread => exact hs
  | unparsed => exact hs.drawing _
  | loaded => exact (hs.drawing _).naming _

/-- Which project is loaded does not depend on what was said. -/
theorem loadProject_congr (hfiles : s'.files = s.files) (hdrawn : s'.drawn = s.drawn) (env : Surroundings)
    (path : String) : (loadProject env path s').1 = (loadProject env path s).1 := by
  have hdrawing (document : Json) : (s'.drawing document).drawn = (s.drawing document).drawn := by
    simp only [Session.drawing, hdrawn]
  rw [loadProject_eq, loadProject_eq, hfiles]
  split
  · rfl
  · rw [hdrawing]
    split <;> rfl

/-! ## Compiling -/

theorem notMem_name_programTarget (project : Project) (config : Config) (output : Option String) :
    '/' ∉ (programTarget project config output).name.toList := by
  unfold programTarget
  split
  · exact notMem_name_ofString _
  · rw [Delivery.fileIn_empty]
    exact notMem_name_ofString _

/-- What comes of replacing the target by the program. -/
def replacedBy (fs : Files) (project : Project) (config : Config) (r : CompileRequest) (options : Options) :
    Except WriteFault Unit × Files :=
  fs.replace (programTarget project config r.output) (.ofText (codeOf project options)) Files.temporarySuffix

theorem storeProgram_of_error {fault : WriteFault} (h : s.Speaks s')
    (hreplaced : (replacedBy s.files project config r options).1 = .error fault) (env : Surroundings) :
    storeProgram env (programTarget project config r.output) (codeOf project options) s' =
      (.error (.store (.ofWrite (programTarget project config r.output) fault)),
        { s' with files := (replacedBy s.files project config r options).2 }) := by
  unfold replacedBy at hreplaced ⊢
  rw [storeProgram, Delivery.store_eq, h.files, hreplaced]
  rfl

theorem storeProgram_of_ok (h : s.Speaks s') (hreplaced : (replacedBy s.files project config r options).1 = .ok ())
    (env : Surroundings) :
    storeProgram env (programTarget project config r.output) (codeOf project options) s' =
      printLine env (writtenLine (programTarget project config r.output))
        (s'.storing env (programTarget project config r.output) (codeOf project options)
          (replacedBy s.files project config r options).2) := by
  unfold replacedBy at hreplaced ⊢
  rw [storeProgram, Delivery.store_eq, h.files, hreplaced]
  rfl

/-- A project is loaded and has good options, and its program is to be stored. -/
structure Stores (env : Surroundings) (config : Config) (r : CompileRequest) (s : Session) (project : Project)
    (options : Options) : Prop where
  print : r.print = false
  load : (loadProject env r.project s).1 = .ok project
  options : buildOptions project config r.choices = .ok options
  encodable : isEncodable project = true

theorem Stores.congr (hfiles : s'.files = s.files) (hdrawn : s'.drawn = s.drawn) :
    Stores env config r s' project options ↔ Stores env config r s project options := by
  have hload := loadProject_congr hfiles hdrawn env r.project
  exact ⟨fun h => ⟨h.print, hload ▸ h.load, h.options, h.encodable⟩,
    fun h => ⟨h.print, hload.symm ▸ h.load, h.options, h.encodable⟩⟩

/-- The output takes what is printed once a program is stored. -/
structure Surroundings.Announces (env : Surroundings) (r : CompileRequest) (target : Path) : Prop where
  written : env.outputFault? (writtenLine target) = none
  copied : r.clipboard = true → ∀ copied, env.outputFault? (copiedLine copied) = none

theorem copyProgram_ok {target : Path} (h : env.Announces r target) (code : String) (s : Session) :
    (copyProgram env r code s).1 = .ok () := by
  unfold copyProgram
  split
  · next hclipboard => simp only [printLine, h.copied hclipboard]
  · rfl

theorem compileProject_of_storeProgram (h : s.Quiet) (hstores : Stores env config r s project options) :
    ∃ s', s.Speaks s' ∧
      (∀ trouble s'', storeProgram env (programTarget project config r.output) (codeOf project options) s' =
        (.error trouble, s'') → compileProject env config r s = (.error trouble, s'')) ∧
      ∀ s'', storeProgram env (programTarget project config r.output) (codeOf project options) s' = (.ok (), s'') →
        compileProject env config r s = copyProgram env r (codeOf project options) s'' := by
  obtain ⟨hprint, hload, hoptions, hcode⟩ := hstores
  rcases hloaded : loadProject env r.project s with ⟨result, s'⟩
  obtain rfl : result = .ok project := by rw [← hload, hloaded]
  have hdeliver (s'' : Session) : deliverProgram env config r project (codeOf project options) s'' =
      storeProgram env (programTarget project config r.output) (codeOf project options) s'' := by
    simp only [deliverProgram, hcode, hprint, Bool.not_true, Bool.false_eq_true, if_false]
  refine ⟨_, (loadProject_speaks h hloaded).reporting env project options, fun trouble s'' hstore => ?_,
    fun s'' hstore => ?_⟩
  · simp only [compileProject_eq, hloaded, hoptions, hdeliver, hstore]
  · simp only [compileProject_eq, hloaded, hoptions, hdeliver, hstore]

/-- Compiling fails once the target is replaced where the output does not take
what is printed then. -/
theorem compileProject_of_fault {fault : OutputFault} (h : s.Quiet) (hstores : Stores env config r s project options)
    (hreplaced : (replacedBy s.files project config r options).1 = .ok ())
    (hfault : env.outputFault? (writtenLine (programTarget project config r.output)) = some fault) :
    (compileProject env config r s).1 = .error (.output fault) ∧ (compileProject env config r s).2.Quiet ∧
      (compileProject env config r s).2.files = (replacedBy s.files project config r options).2 := by
  obtain ⟨s', hs, hfailed, -⟩ := compileProject_of_storeProgram h hstores
  have hstored := Session.Speaks.storing hs.quiet env (programTarget project config r.output)
    (codeOf project options) (replacedBy s.files project config r options).2
  rw [hfailed _ _ (by rw [storeProgram_of_ok hs hreplaced, printLine, hfault])]
  exact ⟨rfl, hstored.quiet, hstored.files⟩

/-- Where a program is stored, the target is replaced by it, and compiling
succeeds if that does and the output takes what is printed then. -/
theorem compileProject_of_stores (h : s.Quiet) (hstores : Stores env config r s project options) :
    (compileProject env config r s).2.Quiet ∧
      (compileProject env config r s).2.files = (replacedBy s.files project config r options).2 ∧
      ((compileProject env config r s).1 = .ok () → (replacedBy s.files project config r options).1 = .ok ()) ∧
      (env.Announces r (programTarget project config r.output) →
        (replacedBy s.files project config r options).1 = .ok () → (compileProject env config r s).1 = .ok ()) := by
  obtain ⟨s', hs, hfailed, hdone⟩ := compileProject_of_storeProgram h hstores
  cases hreplaced : (replacedBy s.files project config r options).1 with
  | error fault =>
    rw [hfailed _ _ (storeProgram_of_error hs hreplaced env)]
    exact ⟨hs.quiet, rfl, nofun, nofun⟩
  | ok _ =>
    cases hfault : env.outputFault? (writtenLine (programTarget project config r.output)) with
    | some fault =>
      obtain ⟨-, hquiet, hfiles⟩ := compileProject_of_fault h hstores hreplaced hfault
      refine ⟨hquiet, hfiles, fun _ => rfl, fun hannounces => ?_⟩
      cases hfault.symm.trans hannounces.written
    | none =>
      have hstored := Session.Speaks.storing hs.quiet env (programTarget project config r.output)
        (codeOf project options) (replacedBy s.files project config r options).2
      have hcopied := (hstored.print (writtenLine (programTarget project config r.output))).copyProgram env r
        (codeOf project options)
      rw [hdone _ (by rw [storeProgram_of_ok hs hreplaced, printLine, hfault])]
      exact ⟨hcopied.quiet, hcopied.files, fun _ => rfl, fun hannounces _ => copyProgram_ok hannounces _ _⟩

theorem deliverProgram_speaks {code : String} {result : Except Trouble Unit} (h : s.Speaks s')
    (hnot : isEncodable project = true → r.print = false → False)
    (hdeliver : deliverProgram env config r project code s' = (result, s'')) :
    s.Speaks s'' ∧ (result = .ok () → r.print = true) := by
  have hdelivering := delivering_deliverProgram env config r project code s'
  rw [hdeliver] at hdelivering
  generalize hended : (result, s'') = ended at hdelivering
  cases hdelivering with
  | unencodable =>
    cases hended
    exact ⟨h, nofun⟩
  | printing _ hprint =>
    have hs := h.printLine env code
    rw [← hended] at hs
    exact ⟨hs, fun _ => hprint⟩
  | unstored hcode hprint | stored hcode hprint => exact (hnot hcode hprint).elim

/-- Where no program is stored, compiling only speaks. -/
theorem compileProject_of_not_stores (h : s.Quiet) (hnot : ¬ ∃ project options, Stores env config r s project options) :
    s.Speaks (compileProject env config r s).2 ∧ ((compileProject env config r s).1 = .ok () → r.print = true) := by
  have hcompiling := compiling_compileProject env config r s
  generalize compileProject env config r s = result at hcompiling
  cases hcompiling with
  | unloaded hload => exact ⟨loadProject_speaks h hload, nofun⟩
  | refused hload => exact ⟨loadProject_speaks h hload, nofun⟩
  | undelivered hload hoptions hdeliver =>
    have hdelivered := deliverProgram_speaks ((loadProject_speaks h hload).reporting env _ _)
      (fun hcode hprint => hnot ⟨_, _, hprint, by rw [hload], hoptions, hcode⟩) hdeliver
    exact ⟨hdelivered.1, nofun⟩
  | delivered hload hoptions hdeliver =>
    have hdelivered := deliverProgram_speaks ((loadProject_speaks h hload).reporting env _ _)
      (fun hcode hprint => hnot ⟨_, _, hprint, by rw [hload], hoptions, hcode⟩) hdeliver
    exact ⟨hdelivered.1.copyProgram env r _, fun _ => hdelivered.2 rfl⟩

theorem compileProject_quiet (h : s.Quiet) : (compileProject env config r s).2.Quiet := by
  by_cases hstores : ∃ project options, Stores env config r s project options
  · obtain ⟨project, options, hstores⟩ := hstores
    exact (compileProject_of_stores h hstores).1
  · exact (compileProject_of_not_stores h hstores).1.quiet

/-! ## The program -/

variable {arguments : List String} {request : Request} {ready : Session}

theorem Ready.speaks (h : Ready env request s config ready) (hquiet : s.Quiet) (hfile : config.logFile = none) :
    s.Speaks ready ∧ ready.drawn = s.drawn := by
  obtain ⟨hload, hsetup⟩ := h
  obtain ⟨hs, hdrawn⟩ := loadConfig_speaks hquiet hload
  exact ⟨hs.trans (setup_speaks hs.quiet (by rw [setupOf, hfile]; rfl) hsetup), hdrawn⟩

/-- What follows on a task touches no file, and its status tells how it went. -/
theorem runTask_speaks (task : Task) (h : (task.run env config s).2.Quiet) :
    (task.run env config s).2.Speaks (runTask env config task s).2 ∧
      ((runTask env config task s).1 = .exit 0 ↔ (task.run env config s).1 = .ok ()) := by
  have hs := Session.Speaks.refl h
  rcases runTask_cases env config task s with
    ⟨done, hdone, htask⟩ | ⟨trouble, failed, hfailed, ⟨-, htask⟩ | ⟨fault, -, htask⟩⟩
  · rw [htask]
    rw [hdone] at hs ⊢
    exact ⟨hs, by simp⟩
  · rw [htask]
    rw [hfailed] at hs ⊢
    exact ⟨hs.tell env _, by simp⟩
  · rw [htask]
    rw [hfailed] at hs ⊢
    exact ⟨hs, by simp⟩

/-- A program that compiles a project leaves the files that compiling leaves. -/
theorem runArguments_compiles (hrequest : Request.ofArguments arguments = .ok request)
    (htask : request.task = .compile r) (hready : Ready env request s config ready) (hquiet : ready.Quiet) :
    (runArguments env arguments s).2.files = (compileProject env config r ready).2.files ∧
      ((runArguments env arguments s).1 = .exit 0 ↔ (compileProject env config r ready).1 = .ok ()) := by
  have hcompiled : ((Task.compile r).run env config ready).2.Quiet := compileProject_quiet hquiet
  obtain ⟨hs, hexit⟩ := runTask_speaks (.compile r) hcompiled
  rw [runArguments_of_ready hrequest hready, htask]
  exact ⟨hs.close.files, hexit⟩

/-- A program that stores a project's program leaves the files that replacing the
target leaves. -/
theorem runArguments_of_stores (hrequest : Request.ofArguments arguments = .ok request)
    (htask : request.task = .compile r) (hready : Ready env request s config ready) (hquiet : s.Quiet)
    (hfile : config.logFile = none) (hstores : Stores env config r s project options) :
    (runArguments env arguments s).2.files = (replacedBy s.files project config r options).2 ∧
      ((runArguments env arguments s).1 = .exit 0 → (replacedBy s.files project config r options).1 = .ok ()) ∧
      (env.Announces r (programTarget project config r.output) →
        (replacedBy s.files project config r options).1 = .ok () → (runArguments env arguments s).1 = .exit 0) := by
  obtain ⟨hs, hdrawn⟩ := hready.speaks hquiet hfile
  obtain ⟨hfiles, hexit⟩ := runArguments_compiles hrequest htask hready hs.quiet
  obtain ⟨-, hreplaced, hok, hdone⟩ :=
    compileProject_of_stores hs.quiet ((Stores.congr hs.files hdrawn).2 hstores)
  rw [hs.files] at hreplaced hok hdone
  exact ⟨hfiles.trans hreplaced, fun h => hok (hexit.1 h), fun hannounces h => hexit.2 (hdone hannounces h)⟩

theorem runArguments_of_not_ready {loaded : Session} (hquiet : s.Quiet)
    (hrequest : Request.ofArguments arguments = .ok request)
    (hconfig : loadConfig env request.config s = (.ok config, loaded)) (hfile : config.logFile = none)
    (hnot : ¬ ∃ ready, Ready env request s config ready) :
    s.Speaks (runArguments env arguments s).2 ∧ (runArguments env arguments s).1 ≠ .exit 0 := by
  rcases hsetup : loaded.log.setup env.isTerminal (setupOf request config) ⟨loaded.files, loaded.errors⟩ with
    ⟨fault | sinks, log, o⟩
  · have hs := (loadConfig_speaks hquiet hconfig).1
    simp only [runArguments, hrequest, run, hconfig, runConfigured, hsetup]
    exact ⟨hs.trans (setup_speaks hs.quiet (by rw [setupOf, hfile]; rfl) hsetup), by simp⟩
  · exact absurd ⟨_, .intro hconfig hsetup⟩ hnot

/-- The project of an empty document. -/
def emptyProject : Project := { bareProject with id := ⟨"1", false⟩ }

deriving instance DecidableEq for Given, Reading

/-- The first identifier that is drawn is 1. -/
theorem loadProject_bare {path : String} {document : Json}
    (hdocument : s.files.readDocument (.ofString path) = .ok document) (hdrawn : s.drawn = 0)
    (hdraws : Project.drawsIdentifier document = true)
    (hparse : Project.parse "1" bareSurroundings.now document = .ok project) :
    (loadProject bareSurroundings path s).1 = .ok project := by
  have hdrawing : bareSurroundings.identifier (s.drawing document).drawn = "1" := by
    rw [Session.drawing, hdrawn, if_pos hdraws]
    with_unfolding_all rfl
  rw [loadProject_eq, hdocument]
  dsimp only
  rw [hdrawing, hparse]

theorem announces_bareSurroundings (r : CompileRequest) (target : Path) : bareSurroundings.Announces r target :=
  ⟨rfl, fun _ _ => rfl⟩

end CommandLine

end SketchTurtle
