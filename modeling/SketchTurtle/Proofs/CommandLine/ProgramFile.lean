/-
Where the program of a project goes if the command does not say it.

Whatever the project is called, the name of the file has small letters, digits
and underscores before its suffix (`isStemChar_of_mem`). So it has no slash and
is no point, and the path that is read from it is a child of the working
directory (`programTarget_eq`). A run touches this file and the temporary one
beside it, and no other, however it ends (`PlainRun.sameFiles`).
-/
import SketchTurtle.Proofs.CommandLine.Touched
import Mathlib.Data.List.TakeWhile

namespace SketchTurtle

/-! ## Names of files -/

namespace Delivery

/-- The characters that the name of a program's file has before its suffix. -/
def IsStemChar (c : Char) : Prop := ('a' ≤ c ∧ c ≤ 'z') ∨ ('0' ≤ c ∧ c ≤ '9') ∨ c = '_'

instance : DecidablePred IsStemChar := fun _ => inferInstanceAs (Decidable (_ ∨ _ ∨ _))

theorem isUpper_iff {c : Char} : c.isUpper = true ↔ 'A'.val ≤ c.val ∧ c.val ≤ 'Z'.val := decide_eq_true_iff

theorem isLower_iff {c : Char} : c.isLower = true ↔ 'a' ≤ c ∧ c ≤ 'z' :=
  Bool.and_eq_true_iff.trans (and_congr decide_eq_true_iff decide_eq_true_iff)

theorem isDigit_iff {c : Char} : c.isDigit = true ↔ '0' ≤ c ∧ c ≤ '9' :=
  Bool.and_eq_true_iff.trans (and_congr decide_eq_true_iff decide_eq_true_iff)

theorem isAlphanum_iff {c : Char} :
    c.isAlphanum = true ↔ (c.isUpper = true ∨ c.isLower = true) ∨ c.isDigit = true :=
  Bool.or_eq_true_iff.trans (or_congr_left Bool.or_eq_true_iff)

theorem isStemChar_iff {c : Char} : IsStemChar c ↔ c.isLower = true ∨ c.isDigit = true ∨ c = '_' := by
  rw [IsStemChar, isLower_iff, isDigit_iff]

theorem toLower_eq_self {c : Char} (h : ¬ c.isUpper = true) : c.toLower = c := dif_neg (mt isUpper_iff.2 h)

/-- The small letters come 32 places after the capitals. -/
theorem isLower_toLower {c : Char} (h : c.isUpper = true) : c.toLower.isLower = true := by
  have hupper := isUpper_iff.1 h
  have hlower : c.toLower.val = c.val + ('a'.val - 'A'.val) := by
    rw [show c.toLower = _ from dif_pos hupper]
  rw [isLower_iff, Char.le_def, Char.le_def, hlower]
  simp only [UInt32.le_iff_toNat_le, UInt32.toNat_add, Char.reduceVal, UInt32.reduceSub, UInt32.reduceToNat] at hupper ⊢
  omega

theorem not_isUpper {c : Char} (h : c.isLower = true ∨ c.isDigit = true) : ¬ c.isUpper = true := by
  rw [isUpper_iff]
  simp only [isLower_iff, isDigit_iff, Char.le_def, UInt32.le_iff_toNat_le, Char.reduceVal, UInt32.reduceToNat] at h ⊢
  omega

theorem isStemChar_filenameChar (c : Char) : IsStemChar (filenameChar c) := by
  rw [isStemChar_iff]
  unfold filenameChar
  split
  · next halphanum =>
    by_cases hupper : c.isUpper = true
    · exact .inl (isLower_toLower hupper)
    · rw [toLower_eq_self hupper]
      exact ((isAlphanum_iff.1 halphanum).imp_left fun hletter => hletter.resolve_left hupper).imp_right .inl
  · exact .inr (.inr rfl)

theorem filenameChar_eq_self {c : Char} (h : IsStemChar c) : filenameChar c = c := by
  unfold filenameChar
  obtain hlower | hdigit | rfl := isStemChar_iff.1 h
  · rw [if_pos (isAlphanum_iff.2 (.inl (.inr hlower))), toLower_eq_self (not_isUpper (.inl hlower))]
  · rw [if_pos (isAlphanum_iff.2 (.inr hdigit)), toLower_eq_self (not_isUpper (.inr hdigit))]
  · rfl

theorem toList_filenameStem (name : String) : (filenameStem name).toList = name.toList.map filenameChar :=
  String.toList_map

theorem length_filenameStem (name : String) : (filenameStem name).length = name.length := String.length_map

theorem isStemChar_of_mem {name : String} {c : Char} (h : c ∈ (filenameStem name).toList) : IsStemChar c := by
  rw [toList_filenameStem] at h
  obtain ⟨d, -, rfl⟩ := List.mem_map.1 h
  exact isStemChar_filenameChar d

theorem filenameStem_filenameStem (name : String) : filenameStem (filenameStem name) = filenameStem name := by
  refine String.toList_injective ?_
  rw [toList_filenameStem, List.map_congr_left fun c hc => filenameChar_eq_self (isStemChar_of_mem hc), List.map_id']

theorem programFilename_eq {name : String} (h : name ≠ "") : programFilename name = filenameStem name ++ ".py" := by
  rw [programFilename, if_neg (by simpa using h)]

theorem notMem_filename (name : String) : '/' ∉ (filenameStem name ++ ".py").toList := by
  rw [String.toList_append, List.mem_append]
  intro hslash
  obtain hstem | hsuffix := hslash
  · exact absurd (isStemChar_of_mem hstem) (by decide)
  · exact absurd hsuffix (by decide)

theorem ne_of_mem_toList (c : Char) {name other : String} (hname : c ∈ name.toList) (hother : c ∉ other.toList) :
    name ≠ other := by
  rintro rfl
  exact hother hname

/-- The suffix sets the name of a file apart from names without its letters. -/
theorem filename_ne {stem other : String} (hother : 'y' ∉ other.toList) : stem ++ ".py" ≠ other :=
  ne_of_mem_toList 'y' (by simp) hother

theorem programFilename_stem (name : String) :
    ∃ stem, programFilename name = stem ++ ".py" ∧ programFilename stem = programFilename name := by
  by_cases h : name = ""
  · subst h
    exact ⟨"drawing", by rfl, by decide +kernel⟩
  · have hstem : filenameStem name ≠ "" := by
      intro hempty
      have hnil := congrArg String.length hempty
      rw [length_filenameStem] at hnil
      exact h (String.length_eq_zero_iff.1 hnil)
    rw [programFilename_eq h]
    exact ⟨_, rfl, by rw [programFilename_eq hstem, filenameStem_filenameStem]⟩

example : programFilename "../İ" = "____.py" := by decide +kernel

end Delivery

namespace Path

theorem split_of_notMem {s : List Char} (h : '/' ∉ s) : split s = [s] := by
  induction s with
  | nil => rfl
  | cons c rest ih =>
    obtain ⟨hc, hrest⟩ := not_or.1 (mt List.mem_cons.2 h)
    rw [split, if_neg (by simpa using Ne.symm hc), ih hrest]

theorem ofString_of_notMem {name : String} (hslash : '/' ∉ name.toList) (hempty : name ≠ "") (hpoint : name ≠ ".") :
    ofString name = ⟨"", [name]⟩ := by
  have hroot : name.toList.takeWhile (· == '/') = [] := by
    refine List.takeWhile_eq_nil_iff.2 fun hlength hfirst => hslash ?_
    rw [← beq_iff_eq.1 hfirst]
    exact List.getElem_mem hlength
  simp [ofString, hroot, split_of_notMem hslash, rootOf, hempty, hpoint]

end Path

/-! ## Files that a replacement touches -/

namespace Files

variable {before : Files} {target : Path}

/-- However a replacement ends, no file is touched but the target and its
temporary one; and if it succeeds the target holds what was to be stored. -/
theorem replace_sameFiles (hwell : before.WellFormed) (hname : target.name ≠ "") (hslash : '/' ∉ target.name.toList)
    (hsole : before.Sole (before.place (target.extendName temporarySuffix))) (data : Bytes) :
    before.SameFiles (before.replace target data temporarySuffix).2
        [before.place target, before.place (target.extendName temporarySuffix)] ∧
      ((before.replace target data temporarySuffix).1 = .ok () →
        (before.replace target data temporarySuffix).2.held (before.place target) = .file data) := by
  have hatomic := Replacement.atomic_of_notMem hwell hname hslash data hsole
  obtain ⟨phase, hmoment, hreturned, -⟩ := hatomic.call
  have hpromise := hatomic.moments _ _ hmoment
  constructor
  · intro q hq bytes
    simp only [List.mem_cons, List.not_mem_nil, or_false, not_or] at hq
    exact held_of_kept (hpromise.others q hq.1 hq.2)
  · intro h
    exact (hpromise.returned (hreturned h)).1

end Files

namespace CommandLine

variable {env : Surroundings} {arguments : List String} {request : Request} {r : CompileRequest} {config : Config}
  {project : Project} {options : Options} {s ready : Session}

/-! ## The target -/

/-- Where nothing is said of the target, it is one name, made from that of the
project. -/
theorem programTarget_eq (hname : project.name.value ≠ "") (config : Config) {output : Option String}
    (houtput : output.filter (· != "") = none) :
    programTarget project config output = ⟨"", [Delivery.filenameStem project.name.value ++ ".py"]⟩ := by
  simp only [programTarget, houtput]
  rw [if_neg (by simpa using hname), Delivery.fileIn_empty, Delivery.programFilename_eq hname]
  exact Path.ofString_of_notMem (Delivery.notMem_filename _) (Delivery.filename_ne (by decide))
    (Delivery.filename_ne (by decide))

theorem place_child {fs : Files} (h : fs.WellFormed) {name : String} (hname : name ≠ "..") :
    fs.place ⟨"", [name]⟩ = fs.here ++ [name] := by
  have hpoints : (name == "..") = false := by simpa using hname
  simp [Files.place_eq h.here, Files.follow, hpoints]

/-! ## Runs -/

/-- A run that compiles a project and stores its program, without a word about
where. Its log goes to no file, and a file by the name of the temporary one has
no other name. -/
structure PlainRun (env : Surroundings) (arguments : List String) (s : Session) (request : Request)
    (r : CompileRequest) (config : Config) (project : Project) : Prop where
  parsed : Request.ofArguments arguments = .ok request
  task : request.task = .compile r
  untargeted : r.output.filter (· != "") = none
  stored : r.print = false
  configured : ∃ loaded, loadConfig env request.config s = (.ok config, loaded)
  logFile : config.logFile = none
  load : (loadProject env r.project s).1 = .ok project
  quiet : s.Quiet
  wellFormed : s.files.WellFormed
  sole : s.files.Sole (s.files.place ((programTarget project config r.output).extendName Files.temporarySuffix))

/-- A run that does not store the program leaves the files as they are. -/
theorem PlainRun.stays (h : PlainRun env arguments s request r config project)
    (hnot : ∀ ready options, Ready env request s config ready → ¬ Stores env config r s project options) :
    (runArguments env arguments s).2.files = s.files ∧ (runArguments env arguments s).1 ≠ .exit 0 := by
  obtain ⟨loaded, hconfig⟩ := h.configured
  by_cases hready : ∃ ready, Ready env request s config ready
  · obtain ⟨ready, hready⟩ := hready
    obtain ⟨hs, hdrawn⟩ := hready.speaks h.quiet h.logFile
    have hstores : ¬ ∃ project options, Stores env config r ready project options := by
      intro ⟨other, options, hstores⟩
      have hstores := (Stores.congr hs.files hdrawn).1 hstores
      cases h.load.symm.trans hstores.load
      exact hnot ready options hready hstores
    obtain ⟨hfiles, hexit⟩ := runArguments_compiles h.parsed h.task hready hs.quiet
    obtain ⟨hspeaks, hprint⟩ := compileProject_of_not_stores hs.quiet hstores
    refine ⟨hfiles.trans (hspeaks.files.trans hs.files), fun hzero => ?_⟩
    cases h.stored.symm.trans (hprint (hexit.1 hzero))
  · obtain ⟨hs, hne⟩ := runArguments_of_not_ready h.quiet h.parsed hconfig h.logFile hready
    exact ⟨hs.files, hne⟩

/-- However a run ends, it touches no file but the target and its temporary one;
and if it ends with status zero, the target holds the program. -/
theorem PlainRun.sameFiles (h : PlainRun env arguments s request r config project)
    (hname : (programTarget project config r.output).name ≠ "") :
    s.files.SameFiles (runArguments env arguments s).2.files
        [s.files.place (programTarget project config r.output),
          s.files.place ((programTarget project config r.output).extendName Files.temporarySuffix)] ∧
      ((runArguments env arguments s).1 = .exit 0 →
        ∃ code, programText project config r.choices = .ok code ∧
          (runArguments env arguments s).2.files.held (s.files.place (programTarget project config r.output)) =
            .file (.ofText code)) := by
  by_cases hstores : ∃ ready options, Ready env request s config ready ∧ Stores env config r s project options
  · obtain ⟨ready, options, hready, hstores⟩ := hstores
    obtain ⟨hfiles, hexit, -⟩ := runArguments_of_stores h.parsed h.task hready h.quiet h.logFile hstores
    obtain ⟨hsame, hheld⟩ := Files.replace_sameFiles h.wellFormed hname (notMem_name_programTarget _ _ _) h.sole
      (.ofText (codeOf project options))
    rw [hfiles]
    refine ⟨hsame, fun hzero => ⟨codeOf project options, ?_, hheld (hexit hzero)⟩⟩
    rw [programText, hstores.options]
    rfl
  · obtain ⟨hfiles, hne⟩ := h.stays fun ready options hready hnot => hstores ⟨ready, options, hready, hnot⟩
    rw [hfiles]
    exact ⟨.refl _ _, fun hzero => absurd hzero hne⟩

/-- **A project does not choose where its program goes.** If it has a name and the
command does not say where, the target is one name in the working directory: the
letters, digits and underscores of its stem, one for each character of the project's
name, and a suffix. No run touches another file but the temporary one. A stem is
always its own stem. -/
theorem programTarget_child (project : Project) (config : Config) (hname : project.name.value ≠ "") :
    (∀ name, ∃ stem, Delivery.programFilename name = stem ++ ".py" ∧
        Delivery.programFilename stem = Delivery.programFilename name) ∧
      ∃ stem : String, Delivery.programFilename project.name.value = stem ++ ".py" ∧
        (∀ c ∈ stem.toList, Delivery.IsStemChar c) ∧ stem.length = project.name.value.length ∧
        (∀ output : Option String, output.filter (· != "") = none →
          programTarget project config output = ⟨"", [stem ++ ".py"]⟩) ∧
        ∀ env arguments s request r, PlainRun env arguments s request r config project →
          s.files.SameFiles (runArguments env arguments s).2.files
              [s.files.here ++ [stem ++ ".py"], s.files.here ++ [stem ++ ".py" ++ Files.temporarySuffix]] ∧
            ((runArguments env arguments s).1 = .exit 0 →
              ∃ code, programText project config r.choices = .ok code ∧
                (runArguments env arguments s).2.files.held (s.files.here ++ [stem ++ ".py"]) =
                  .file (.ofText code)) := by
  refine ⟨Delivery.programFilename_stem, Delivery.filenameStem project.name.value,
    Delivery.programFilename_eq hname, fun _ => Delivery.isStemChar_of_mem, Delivery.length_filenameStem _,
    fun _ => programTarget_eq hname config, ?_⟩
  intro env arguments s request r h
  have htarget := programTarget_eq hname config h.untargeted
  have hnamed : (programTarget project config r.output).name ≠ "" := by
    rw [htarget]
    exact Delivery.filename_ne (by decide)
  have htemporary : s.files.place (Path.extendName ⟨"", [Delivery.filenameStem project.name.value ++ ".py"]⟩
      Files.temporarySuffix) =
      s.files.here ++ [Delivery.filenameStem project.name.value ++ ".py" ++ Files.temporarySuffix] :=
    place_child h.wellFormed (Delivery.ne_of_mem_toList 'y' (by simp [Path.name]) (by decide))
  have hsame := h.sameFiles hnamed
  rw [htarget, place_child h.wellFormed (Delivery.filename_ne (by decide)), htemporary] at hsame
  exact hsame

/-- A document that names its project after a path, with a letter whose small
form is longer. -/
def strayDocument : Bytes :=
  [0x7B, 0x22, 0x6E, 0x61, 0x6D, 0x65, 0x22, 0x3A, 0x22, 0x2E, 0x2E, 0x2F, 0xC4, 0xB0, 0x22, 0x7D]

/-- The project of that document. -/
def strayProject : Project := { emptyProject with name := .of "../İ" }

/-- A working directory with that document. -/
def strayFiles : Files where
  here := ["work"]
  nodes := [(["work"], .directory), (["work", "p.json"], .file 0)]
  contents := [strayDocument]

/-- To compile that document. -/
def strayRequest : CompileRequest := ⟨"p.json", none, {}, false, false⟩

theorem readDocument_stray : strayFiles.readDocument (.ofString "p.json") = .ok (.object [("name", .text "../İ")]) := by
  let text : List Char := ['\x7b', '"', 'n', 'a', 'm', 'e', '"', ':', '"', '.', '.', '/', 'İ', '"', '\x7d']
  have hread : strayFiles.readFile (.ofString "p.json") = .ok strayDocument := by with_unfolding_all rfl
  have hdecode : Utf8.decode strayDocument = .ok (String.ofList text) :=
    Utf8.decode_eq_ok_iff.2 (by with_unfolding_all rfl)
  have hdocument : Json.document text = .ok (.object [("name", .text "../İ")]) := by with_unfolding_all rfl
  have hjson : Json.read (String.ofList text) = .ok (.object [("name", .text "../İ")]) := by
    have hbegins : Json.read (String.ofList text) = (Json.document text).mapError (Json.Stop.inDocument text) := by
      rw [Json.read, String.toList_ofList]
      rfl
    rw [hbegins, hdocument]
    rfl
  rw [Files.readDocument_of_bytes hread, hdecode]
  dsimp only
  rw [Text.unified_eq_self (by decide), hjson]

theorem loadProject_stray (hfiles : s.files = strayFiles) (hdrawn : s.drawn = 0) :
    (loadProject bareSurroundings "p.json" s).1 = .ok strayProject :=
  loadProject_bare (hfiles ▸ readDocument_stray) hdrawn rfl rfl

theorem wellFormed_stray : strayFiles.WellFormed where
  here := by decide
  numbers := fun q number h => by
    obtain ⟨-, rfl⟩ : q = ["work", "p.json"] ∧ number = 0 := by simpa [strayFiles] using Files.mem_nodes h
    exact Nat.zero_lt_one

theorem programTarget_stray : programTarget strayProject .standard none = ⟨"", ["____.py"]⟩ := by
  have hstem : Delivery.filenameStem strayProject.name.value ++ ".py" = "____.py" := by decide +kernel
  rw [programTarget_eq (by decide) .standard rfl, hstem]

theorem plainRun_stray : PlainRun bareSurroundings ["compile", "p.json"] (.start strayFiles)
    (Task.compile strayRequest).alone strayRequest .standard strayProject where
  parsed := rfl
  task := rfl
  untargeted := rfl
  stored := rfl
  configured := ⟨_, rfl⟩
  logFile := rfl
  load := loadProject_stray rfl rfl
  quiet := Session.quiet_start _
  wellFormed := wellFormed_stray
  sole := by
    intro p number _ hfile
    have hnothing : strayFiles.node? (strayFiles.place (Path.extendName ⟨"", ["____.py"]⟩ Files.temporarySuffix)) =
        none := rfl
    have hfiles : (Session.start strayFiles).files = strayFiles := rfl
    rw [hfiles, strayRequest, programTarget_stray, hnothing] at hfile
    cases hfile

theorem replace_stray (data : Bytes) :
    strayFiles.replace ⟨"", ["____.py"]⟩ data Files.temporarySuffix =
      (.ok (), (((strayFiles.withFile ["work", "____.py.tmp"]).overwrite 1 data).remove ["work", "____.py.tmp"]).put
        ["work", "____.py"] (.file 1)) := by
  have hmade : strayFiles.makeDirectories (Path.parent ⟨"", ["____.py"]⟩) = (.ok (), strayFiles) := by
    rw [Files.makeDirectories]
    with_unfolding_all rfl
  have hopen : strayFiles.openFile false ⟨"", ["____.py.tmp"]⟩ =
      .ok (1, strayFiles.withFile ["work", "____.py.tmp"]) := by with_unfolding_all rfl
  exact Files.replace_of_rename (by decide) (by decide) hmade hopen (by with_unfolding_all rfl)

/-- The program goes to a file of the working directory. -/
theorem programTarget_child_stray :
    strayProject.name.value ≠ "" ∧
      PlainRun bareSurroundings ["compile", "p.json"] (.start strayFiles) (Task.compile strayRequest).alone strayRequest
        .standard strayProject ∧
      (runArguments bareSurroundings ["compile", "p.json"] (.start strayFiles)).1 = .exit 0 ∧
      programTarget strayProject .standard none = ⟨"", ["____.py"]⟩ ∧
      ∃ code, programText strayProject .standard {} = .ok code ∧
        (runArguments bareSurroundings ["compile", "p.json"] (.start strayFiles)).2.files.held ["work", "____.py"] =
          .file (.ofText code) := by
  have hname : strayProject.name.value ≠ "" := by decide
  obtain ⟨-, stem, hfilename, -, -, htarget, hruns⟩ := programTarget_child strayProject .standard hname
  have hsame := (hruns _ _ _ _ _ plainRun_stray).2
  rw [← hfilename] at htarget hsame
  have hfile : Delivery.programFilename strayProject.name.value = "____.py" := by decide +kernel
  rw [hfile] at htarget hsame
  have hexit : (runArguments bareSurroundings ["compile", "p.json"] (.start strayFiles)).1 = .exit 0 := by
    obtain ⟨ready, hready, -⟩ := (Task.compile strayRequest).ready_alone strayFiles
    have hstores : Stores bareSurroundings .standard strayRequest (.start strayFiles) strayProject _ :=
      ⟨rfl, loadProject_stray rfl rfl, rfl, rfl⟩
    refine (runArguments_of_stores rfl rfl hready (Session.quiet_start _) rfl hstores).2.2
      (announces_bareSurroundings _ _) ?_
    rw [replacedBy, strayRequest, programTarget_stray]
    exact congrArg Prod.fst (replace_stray _)
  exact ⟨hname, plainRun_stray, hexit, htarget none rfl, hsame hexit⟩

end CommandLine

end SketchTurtle
